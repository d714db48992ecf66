import Mathlib.Data.List.FinRange
import Mathlib.Data.Set.List
import ScriptEngine.Proofs.CodeUnits
import ScriptEngine.Proofs.History
import ScriptEngine.Proofs.Lawful

/-!
# The list of own keys

The keys that an object lists are those under which it has a property. The indices come first, in
ascending order, and then the strings and the symbols, of each the oldest first. For a string object
the indices of its code units are among them; they are not stored, and no index below the length of
the string ever is.

The code units are counted in 32 bits. Of a string of `2 ^ 32` units or more, the object may
therefore list fewer indices than it has properties for.

## Main definitions

* `PropertyKey.InOrder`: keys in the order in which they are listed.
* `Object.ownKeys`: the keys that an object lists.
* `Object.Uncounted`: the code units that it does not list.

## Main results

* `Object.Sound.inOrder_ownKeys`: the order of the keys.
* `Object.Sound.mem_ownKeys`: the keys are those of the own properties.
* `answer_history`: the history of a realm goes on through every request.
* `answer_ownKeys`: the keys and the properties of an object in every reachable realm.
-/

namespace ScriptEngine

open Engine

variable {H : HostTypes}

/-! ### Keys in order -/

namespace PropertyKey

/-- Keys in the order in which an object lists them, given the age of each: the indices in ascending
order, then the strings and then the symbols, of each the oldest first. -/
def InOrder (age : PropertyKey → Nat) (keys : List PropertyKey) : Prop :=
  ∃ (indices : List ArrayIndex) (strings : List String) (symbols : List Symbol),
    keys = indices.map index ++ strings.map string ++ symbols.map symbol
      ∧ indices.Pairwise (· < ·)
      ∧ (strings.Pairwise fun s s' => age (string s') < age (string s))
      ∧ symbols.Pairwise fun s s' => age (symbol s') < age (symbol s)

variable {age : PropertyKey → Nat} {keys : List PropertyKey}

theorem nodup_of_oldestFirst {α : Type} {f : α → PropertyKey} {names : List α}
    (hf : Function.Injective f) (h : names.Pairwise fun a b => age (f b) < age (f a)) :
    (names.map f).Nodup := by
  refine List.Nodup.map hf (h.imp ?_)
  rintro a b hlt rfl
  exact Nat.lt_irrefl _ hlt

/-- No key is listed twice. -/
theorem InOrder.nodup (h : InOrder age keys) : keys.Nodup := by
  obtain ⟨indices, strings, symbols, rfl, hi, hs, hy⟩ := h
  have hindices : (indices.map index).Nodup :=
    List.Nodup.map (fun i j h => by cases h; rfl) (hi.imp Fin.ne_of_lt)
  have hstrings := nodup_of_oldestFirst (fun s t h => by cases h; rfl) hs
  have hsymbols := nodup_of_oldestFirst (fun s t h => by cases h; rfl) hy
  refine List.nodup_append.mpr ⟨List.nodup_append.mpr ⟨hindices, hstrings, ?_⟩, hsymbols, ?_⟩
  · simp
  · grind

end PropertyKey

namespace PropertyMap

variable {m : PropertyMap} {k : PropertyKey}

/-- The stored indices in their order. -/
def indices (m : PropertyMap) : List ArrayIndex := m.indexed.map Prod.fst

theorem pairwise_indices (m : PropertyMap) : m.indices.Pairwise (· < ·) :=
  List.pairwise_map.mpr m.ascending

theorem mem_indices {i : ArrayIndex} : i ∈ m.indices ↔ (m.get? (.index i)).isSome :=
  OrderedMap.isSome_lookup.symm

theorem keys_eq (m : PropertyMap) :
    m.keys = m.indices.map .index ++ m.names.filter (fun k => !k.isSymbol)
      ++ m.names.filter PropertyKey.isSymbol := by
  simp [keys, entries, indices, names, OrderedMap.keys, List.filter_map, Function.comp_def]

/-- The keys of a map are those under which it has a property. -/
theorem mem_keys : k ∈ m.keys ↔ (m.get? k).isSome := by
  rw [keys_eq]
  cases hk : k.index? with
  | some n =>
    cases k with
    | index i =>
      have hnames : PropertyKey.index i ∉ m.names := fun hmem => by cases index?_of_mem_names hmem
      simp [hnames, mem_indices]
    | string s => cases hk
    | symbol s => cases hk
  | none =>
    have hindex : k ∉ m.indices.map .index := fun hmem => by
      obtain ⟨i, -, rfl⟩ := List.mem_map.mp hmem
      cases hk
    have hmem : (m.get? k).isSome ↔ k ∈ m.names := contains_iff_mem_names hk
    rw [hmem]
    simp only [List.mem_append, hindex, List.mem_filter, false_or]
    cases k.isSymbol <;> simp

/-- The keys of a map are in order if the names are stored the oldest first. -/
theorem exists_keys_eq (m : PropertyMap) {age : PropertyKey → Nat}
    (h : m.names.Pairwise fun k k' => age k' < age k) :
    ∃ (strings : List String) (symbols : List Symbol),
      m.keys = m.indices.map .index ++ strings.map .string ++ symbols.map .symbol
        ∧ (strings.Pairwise fun s s' => age (.string s') < age (.string s))
        ∧ symbols.Pairwise fun s s' => age (.symbol s') < age (.symbol s) := by
  -- a name that is no symbol is a string
  obtain ⟨strings, hstrings⟩ : m.names.filter (fun k => !k.isSymbol)
      ∈ Set.range (List.map PropertyKey.string) := by
    rw [Set.range_list_map]
    intro k hk
    obtain ⟨hname, hsymbol⟩ := List.mem_filter.mp hk
    cases k with
    | index i => cases index?_of_mem_names hname
    | string s => exact ⟨s, rfl⟩
    | symbol s => cases hsymbol
  obtain ⟨symbols, hsymbols⟩ : m.names.filter PropertyKey.isSymbol
      ∈ Set.range (List.map PropertyKey.symbol) := by
    rw [Set.range_list_map]
    intro k hk
    cases k with
    | symbol s => exact ⟨s, rfl⟩
    | index i => cases (List.mem_filter.mp hk).2
    | string s => cases (List.mem_filter.mp hk).2
  refine ⟨strings, symbols, ?_, ?_, ?_⟩
  · rw [keys_eq, hstrings, hsymbols]
  · rw [← List.pairwise_map (f := PropertyKey.string) (R := fun k k' => age k' < age k), hstrings]
    exact h.filter _
  · rw [← List.pairwise_map (f := PropertyKey.symbol) (R := fun k k' => age k' < age k), hsymbols]
    exact h.filter _

end PropertyMap

/-! ### The keys of an object -/

namespace ObjectKind

variable {kind : ObjectKind H} {s : String} {i : ArrayIndex}

/-- How many code units a string object lists: their number, counted in 32 bits. -/
def unitCount (kind : ObjectKind H) : Nat :=
  ((StringObject.string? kind).map Text.unitLength).getD 0 % Number.twoPow 32

theorem unitCount_le (kind : ObjectKind H) : kind.unitCount ≤ PropertyKey.maxIndex + 1 :=
  Nat.le_of_lt_succ (Nat.mod_lt _ (by decide))

/-- The indices of the code units that a string object lists. -/
def unitIndices (kind : ObjectKind H) : List ArrayIndex :=
  (List.finRange kind.unitCount).map (Fin.castLE kind.unitCount_le)

theorem map_unitIndices (kind : ObjectKind H) :
    kind.unitIndices.map .index = (List.range kind.unitCount).map PropertyKey.ofNat := by
  rw [← List.map_coe_finRange_eq_range, unitIndices, List.map_map, List.map_map]
  refine List.map_congr_left fun i _ => ?_
  have hi : i.val ≤ PropertyKey.maxIndex :=
    Nat.le_of_lt_succ (Nat.lt_of_lt_of_le i.isLt kind.unitCount_le)
  simp only [Function.comp_apply, PropertyKey.ofNat, dif_pos hi]
  rfl

theorem pairwise_unitIndices (kind : ObjectKind H) : kind.unitIndices.Pairwise (· < ·) := by
  rw [unitIndices, List.pairwise_map]
  exact List.pairwise_lt_finRange _

theorem mem_unitIndices : i ∈ kind.unitIndices ↔ i.val < kind.unitCount := by
  rw [unitIndices, List.mem_map]
  constructor
  · rintro ⟨j, -, rfl⟩
    exact j.isLt
  · intro hi
    exact ⟨⟨i.val, hi⟩, List.mem_finRange _, rfl⟩

/-- A code unit has a property if its index is below the length of the string. -/
theorem isSome_unitProperty?_string :
    ((ObjectKind.string s : ObjectKind H).unitProperty? (.index i)).isSome
      ↔ i.val < Text.unitLength s := by
  rw [← Text.length_units]
  simp [unitProperty?, Text.unitAt?]

theorem exists_of_isSome_unitProperty? {k : PropertyKey} (h : (kind.unitProperty? k).isSome) :
    ∃ s i, kind = .string s ∧ k = .index i ∧ i.val < Text.unitLength s := by
  unfold unitProperty? at h
  split at h
  · next s i => exact ⟨s, i, rfl, rfl, isSome_unitProperty?_string (H := H).mp h⟩
  · cases h

theorem isSome_unitProperty?_of_mem_unitIndices (h : i ∈ kind.unitIndices) :
    (kind.unitProperty? (.index i)).isSome := by
  rw [mem_unitIndices] at h
  cases kind with
  | string s => exact isSome_unitProperty?_string.mpr (Nat.lt_of_lt_of_le h (Nat.mod_le _ _))
  | _ => exact absurd h (Nat.not_lt_zero _)

end ObjectKind

namespace Object

variable {object : Object H} {k : PropertyKey} {s : String} {i : ArrayIndex}

/-- The keys that an object lists: the indices of its code units before the stored keys. -/
def ownKeys (object : Object H) : List PropertyKey :=
  object.kind.unitIndices.map .index ++ object.properties.keys

/-- No index below the length of the string of a string object is stored. -/
theorem Sound.le_of_isSome_get? (hs : object.Sound) (hk : object.kind = .string s)
    (hi : (object.properties.get? (.index i)).isSome) : Text.unitLength s ≤ i.val := by
  rw [← Nat.not_lt]
  intro hlt
  rw [← ObjectKind.isSome_unitProperty?_string (H := H), ← hk] at hlt
  rw [hs.unshadowed _ hlt] at hi
  cases hi

/-- The indices of code units are below those that are stored. -/
theorem Sound.pairwise_indices (hs : object.Sound) :
    (object.kind.unitIndices ++ object.properties.indices).Pairwise (· < ·) := by
  refine List.pairwise_append.mpr ⟨object.kind.pairwise_unitIndices,
    object.properties.pairwise_indices, ?_⟩
  intro i hi j hj
  rw [PropertyMap.mem_indices] at hj
  cases hk : object.kind with
  | string s =>
    have hunit := ObjectKind.isSome_unitProperty?_of_mem_unitIndices hi
    rw [hk, ObjectKind.isSome_unitProperty?_string] at hunit
    exact Nat.lt_of_lt_of_le hunit (hs.le_of_isSome_get? hk hj)
  | _ =>
    rw [ObjectKind.mem_unitIndices, hk] at hi
    exact absurd hi (Nat.not_lt_zero _)

/-- The keys are in order if the names are stored the oldest first. -/
theorem Sound.inOrder_ownKeys {age : PropertyKey → Nat} (hs : object.Sound)
    (h : object.properties.names.Pairwise fun k k' => age k' < age k) :
    PropertyKey.InOrder age object.ownKeys := by
  obtain ⟨strings, symbols, hkeys, hstrings, hsymbols⟩ := object.properties.exists_keys_eq h
  refine ⟨object.kind.unitIndices ++ object.properties.indices, strings, symbols, ?_,
    hs.pairwise_indices, hstrings, hsymbols⟩
  simp only [ownKeys, hkeys, List.map_append, List.append_assoc]

/-- A code unit that is not listed: its index is below the length of the string, but not below that
length counted in 32 bits. -/
def Uncounted (object : Object H) (k : PropertyKey) : Prop :=
  ∃ s i, object.kind = .string s ∧ k = .index i
    ∧ Text.unitLength s % Number.twoPow 32 ≤ i.val ∧ i.val < Text.unitLength s

/-- None of the code units of a string of `2 ^ 32` units is listed. -/
theorem uncounted_of_unitLength {s : String} (hk : object.kind = .string s)
    (hs : Text.unitLength s = Number.twoPow 32) (i : ArrayIndex) : object.Uncounted (.index i) := by
  refine ⟨s, i, hk, rfl, ?_, ?_⟩
  · rw [hs, Nat.mod_self]
    exact Nat.zero_le i.val
  · have hmax : PropertyKey.maxIndex + 1 < Number.twoPow 32 := by decide
    exact hs ▸ Nat.lt_trans i.isLt hmax

/-- Only a string that takes more than 32 bits to count has code units that are not listed. -/
theorem Uncounted.exists_le (h : object.Uncounted k) :
    ∃ s, object.kind = .string s ∧ Number.twoPow 32 ≤ Text.unitLength s := by
  obtain ⟨s, i, hk, -, hcount, hlength⟩ := h
  refine ⟨s, hk, Nat.not_lt.mp fun hlt => ?_⟩
  rw [Nat.mod_eq_of_lt hlt] at hcount
  exact absurd hlength (Nat.not_lt.mpr hcount)

/-- Under every listed key there is a property. -/
theorem isSome_ownProperty?_of_mem_ownKeys (h : k ∈ object.ownKeys) :
    (object.ownProperty? k).isSome := by
  rw [ownProperty?, Option.isSome_or, Bool.or_eq_true]
  rcases List.mem_append.mp h with hunit | hstored
  · obtain ⟨i, hi, rfl⟩ := List.mem_map.mp hunit
    exact .inr (ObjectKind.isSome_unitProperty?_of_mem_unitIndices hi)
  · exact .inl (PropertyMap.mem_keys.mp hstored)

theorem Sound.not_uncounted_of_mem_ownKeys (hs : object.Sound) (h : k ∈ object.ownKeys) :
    ¬object.Uncounted k := by
  rintro ⟨s, i, hk, rfl, hcount, hlength⟩
  rcases List.mem_append.mp h with hunit | hstored
  · obtain ⟨j, hj, heq⟩ := List.mem_map.mp hunit
    cases heq
    rw [ObjectKind.mem_unitIndices, hk] at hj
    exact absurd hj (Nat.not_lt.mpr hcount)
  · have hle := hs.le_of_isSome_get? hk (PropertyMap.mem_keys.mp hstored)
    exact absurd hlength (Nat.not_lt.mpr hle)

/-- Every property has its key listed, unless it is that of a code unit that is not counted. -/
theorem mem_ownKeys_of_isSome_ownProperty? (h : (object.ownProperty? k).isSome)
    (hcounted : ¬object.Uncounted k) : k ∈ object.ownKeys := by
  rw [ownProperty?, Option.isSome_or, Bool.or_eq_true] at h
  rcases h with hstored | hunit
  · exact List.mem_append_right _ (PropertyMap.mem_keys.mpr hstored)
  · obtain ⟨s, i, hk, rfl, hlength⟩ := ObjectKind.exists_of_isSome_unitProperty? hunit
    refine List.mem_append_left _ (List.mem_map_of_mem (ObjectKind.mem_unitIndices.mpr ?_))
    rw [hk]
    exact Nat.not_le.mp fun hcount => hcounted ⟨s, i, hk, rfl, hcount, hlength⟩

/-- The keys of an object are those of its own properties. -/
theorem Sound.mem_ownKeys (hs : object.Sound) :
    k ∈ object.ownKeys ↔ (object.ownProperty? k).isSome ∧ ¬object.Uncounted k :=
  ⟨fun h => ⟨isSome_ownProperty?_of_mem_ownKeys h, hs.not_uncounted_of_mem_ownKeys h⟩,
    fun h => mem_ownKeys_of_isSome_ownProperty? h.1 h.2⟩

end Object

/-! ### Requests -/

section Requests

variable {host : Host H} {bound : Nat} {s : Surroundings H} {realm after : Realm H} {o : ObjectId}
  {object : Object H} {past : List (Realm H)}

theorem Ordinary.ownKeys_of_some (ho : realm.object? o = some object) :
    (Ordinary.ownKeys o).act s realm = .ok object.properties.keys realm := by
  unfold Ordinary.ownKeys
  rw [Engine.bind_of_ok (getObject_of_some ho)]
  rfl

theorem StringObject.ownKeys_of_some (ho : realm.object? o = some object) :
    (StringObject.ownKeys o).act s realm = .ok object.ownKeys realm := by
  unfold StringObject.ownKeys
  rw [Engine.bind_of_ok (getKind_of_some ho), Engine.bind_of_ok (Ordinary.ownKeys_of_some ho),
    Object.ownKeys, ObjectKind.map_unitIndices]
  rfl

theorem Dispatch.ownKeys_of_isPlain (ho : realm.object? o = some object)
    (hp : object.kind.isPlain) :
    (Dispatch.ownKeys o).act s realm = .ok object.ownKeys realm := by
  unfold Dispatch.ownKeys
  rw [Engine.bind_of_ok (getKind_of_some ho)]
  cases hk : object.kind with
  | proxy data => simp [hk, ObjectKind.isPlain] at hp
  | moduleNamespace data => simp [hk, ObjectKind.isPlain] at hp
  | string text => exact StringObject.ownKeys_of_some ho
  | _ =>
    refine (Ordinary.ownKeys_of_some ho).trans ?_
    rw [Object.ownKeys, ObjectKind.map_unitIndices, hk]
    rfl

/-- The keys are read off the object. -/
theorem ObjectId.ownKeys_gives (ho : realm.object? o = some object) (hp : object.kind.isPlain)
    (hl : ¬realm.AtLimit) :
    Gives 1 bound (o.ownKeys.act (.bounded host bound) realm) (.ok object.ownKeys realm) := by
  have ho' : realm.deeper.object? o = some object := ho
  exact Gives.answer fun _ =>
    .of_eq (Action.nested_of_ok hl (Dispatch.ownKeys_of_isPlain ho' hp))

theorem ObjectId.ownKeys_gives_of_atLimit (hl : realm.AtLimit) :
    Gives 1 bound (o.ownKeys.act (.bounded host bound) realm) (.error .overflow realm) :=
  Gives.answer fun _ => .of_eq (Action.nested_of_atLimit hl)

/-- The history of a realm goes on through every request, with all the code of the program that it
runs. -/
theorem answer_history {r : Request H} (hr : realm.Reachable) (hpast : realm.History past)
    (he : EndsIn (answer host bound r realm) after) :
    ∃ past', after.History past' ∧ (realm :: past) <:+ (after :: past') :=
  hpast.writes ((Surroundings.bounded_lawful host bound r realm hr.sound).leads he).steps.writes

/-- The keys that an object lists are those of the properties that it has. No key is listed twice,
and the keys are in order: the indices ascending, then the strings and then the symbols, of each the
one first that has been there the longest without a break. A string object lists the indices of its
code units and stores none of them. The only properties that are not listed are those of code units
that cannot be counted in 32 bits, of a string of `2 ^ 32` units or more. -/
theorem answer_ownKeys (host : Host H) (hb : 0 < bound) (hr : realm.Reachable)
    (ho : realm.object? o = some object) (hp : object.kind.isPlain) :
    (realm.AtLimit → answer host bound (.ownKeys o) realm = .error .overflow realm
      ∧ ∀ k, answer host bound (.getOwnProperty o k) realm = .error .overflow realm)
    ∧ (¬realm.AtLimit → ∃ keys, answer host bound (.ownKeys o) realm = .ok keys realm
      ∧ keys.Nodup
      ∧ (∀ k, ∃ d, answer host bound (.getOwnProperty o k) realm = .ok d realm
        ∧ (k ∈ keys ↔ d.isSome ∧ ¬object.Uncounted k))
      ∧ (∀ past, realm.History past → PropertyKey.InOrder (Realm.age (realm :: past) o) keys)
      ∧ ∀ s, object.kind = .string s → ∀ i : ArrayIndex, i.val < Text.unitLength s →
        ¬object.Uncounted (.index i) → .index i ∈ keys)
    ∧ (∃ past, realm.History past)
    ∧ (∀ s, object.kind = .string s → ∀ i : ArrayIndex,
      (object.properties.get? (.index i)).isSome → Text.unitLength s ≤ i.val)
    ∧ ∀ k, object.Uncounted k →
      ∃ s, object.kind = .string s ∧ Number.twoPow 32 ≤ Text.unitLength s := by
  have hsound := hr.sound o object ho
  obtain ⟨past, hpast⟩ := hr.history
  have horder (past : List (Realm H)) (hpast : realm.History past) :
      PropertyKey.InOrder (Realm.age (realm :: past) o) object.ownKeys :=
    hsound.inOrder_ownKeys (hpast.oldestFirst o object ho)
  refine ⟨fun hl => ⟨?_, fun k => ?_⟩, fun hl => ?_, ⟨past, hpast⟩,
    fun s hk i => hsound.le_of_isSome_get? hk, fun k hk => hk.exists_le⟩
  · exact (ObjectId.ownKeys_gives_of_atLimit hl).eq_of_le hb
  · exact (ObjectId.getOwnProperty_gives_of_atLimit hl k).eq_of_le hb
  · refine ⟨object.ownKeys, (ObjectId.ownKeys_gives ho hp hl).eq_of_le hb,
      (horder past hpast).nodup, fun k => ⟨object.ownProperty? k, ?_, hsound.mem_ownKeys⟩, horder,
      fun s hs i hi hcounted => ?_⟩
    · exact (ObjectId.getOwnProperty_gives ho hp hl k).eq_of_le hb
    · refine Object.mem_ownKeys_of_isSome_ownProperty? ?_ hcounted
      rw [Object.ownProperty?, Option.isSome_or, hs, ObjectKind.isSome_unitProperty?_string.mpr hi,
        Bool.or_true]

end Requests

/-- The object of the string `hi`, with a property under an index and one under a name. -/
def textObject : Object HostTypes.bare :=
  ((Object.ofKindWith none (.string "hi") lengthKey (.frozen (.nat 2)) true).define
    (.string "x") (.plain .null)).define (.ofNat 5) (.plain .null)

example : textObject.ownKeys = [.ofNat 0, .ofNat 1, .ofNat 5, lengthKey, .string "x"] := by
  decide +kernel

/-- A realm with this object alone. -/
def textRealm : Realm HostTypes.bare := { heap := #[textObject], store := () }

theorem textRealm_reachable : textRealm.Reachable := by
  have empty : Realm.Reachable ({ textRealm with heap := #[] } : Realm HostTypes.bare) := .empty rfl
  have sound : (Object.ofKindWith none (.string "hi") lengthKey (.frozen (.nat 2)) true :
      Object HostTypes.bare).Sound := .ofKindWith _ _ rfl rfl (.inl rfl)
  exact empty.step (.allocate _ textObject ((sound.define rfl rfl rfl).define rfl rfl rfl)
    (.of_not_isArray rfl))

/-- The code units of a string are listed, and what is not listed is not there. -/
theorem answer_ownKeys_textRealm :
    ∃ keys past, answer Host.bare 1 (.ownKeys ⟨0⟩) textRealm = .ok keys textRealm
      ∧ keys.Nodup ∧ .index 0 ∈ keys ∧ .index 1 ∈ keys
      ∧ (∀ k, k ∉ keys → answer Host.bare 1 (.getOwnProperty ⟨0⟩ k) textRealm = .ok none textRealm)
      ∧ textRealm.History past ∧ PropertyKey.InOrder (Realm.age (textRealm :: past) ⟨0⟩) keys := by
  obtain ⟨-, hkeys, ⟨past, hpast⟩, -, hlong⟩ :=
    answer_ownKeys Host.bare Nat.one_pos textRealm_reachable (o := ⟨0⟩) rfl rfl
  obtain ⟨keys, hanswer, hnodup, hagree, horder, hunits⟩ := hkeys (by decide)
  have hcounted (k : PropertyKey) : ¬textObject.Uncounted k := by
    intro hk
    obtain ⟨s, hs, hle⟩ := hlong k hk
    cases hs
    exact absurd hle (by decide +kernel)
  refine ⟨keys, past, hanswer, hnodup, hunits "hi" rfl 0 (by decide +kernel) (hcounted _),
    hunits "hi" rfl 1 (by decide +kernel) (hcounted _), fun k hk => ?_, hpast, horder past hpast⟩
  obtain ⟨d, hd, hiff⟩ := hagree k
  have hnone : d = none := by
    rw [← Option.not_isSome_iff_eq_none]
    exact fun hsome => hk (hiff.mpr ⟨hsome, hcounted k⟩)
  rw [hd, hnone]

end ScriptEngine
