import ScriptEngine.Json.Writer
import ScriptEngine.Proofs.ArrayLike
import ScriptEngine.Proofs.KeyText
import ScriptEngine.Proofs.OwnKeys

/-!
# Objects as JSON sees them

To JSON an ordinary object is its enumerable properties with string keys, and an array its elements,
own or inherited. The members of an object are looked up under the texts of their keys, so that one
stored under a name that is the text of an index is looked for under the index. The objects that a
value leads to form a graph. Where no object is part of itself, the graph unfolds to a tree, in
which an object has a place for each path that leads to it.

## Main definitions

* `Object.PartKeys`, `Realm.HasParts`: the keys and the values of the parts of an object.
* `Realm.PartAt`: what a path of keys leads to.
* `Realm.Circular`: some object that a value leads to is part of itself.
* `Realm.Unfolds`: the JSON tree of a value.

## Main results

* `Realm.HasParts.own`: the parts of an object with canonical keys are its own properties.
* `Realm.Unfolds.unique`, `Realm.Unfolds.not_circular`: trees are unique and have an end.
* `Realm.Unfolds.exists_at?`: what a path leads to has its own tree at that path.
-/

namespace ScriptEngine

open Engine

variable {H : HostTypes}

/-! ### The parts of an object -/

/-- The keys of the enumerable properties of an object that are no symbols. -/
def Object.enumerableKeys (object : Object H) : List PropertyKey :=
  object.ownKeys.filter fun k => !k.isSymbol && (object.ownProperty? k).any Descriptor.isEnumerable

/-- The keys under which the members of an object are looked up. -/
def Object.memberKeys (object : Object H) : List PropertyKey :=
  object.enumerableKeys.map fun k => .ofString k.text

/-- The keys of the parts of an ordinary object or an array, and which of the two it is. -/
inductive Object.PartKeys (object : Object H) : Bool → List PropertyKey → Prop
  | members (hk : object.kind = .ordinary) : PartKeys object false object.memberKeys
  | elements {length : Nat} (hc : object.HasCount length) :
      PartKeys object true ((List.range length).map .ofNat)

/-- The parts of an object: the data that the searches for their keys find. -/
inductive Realm.HasParts (realm : Realm H) :
    ObjectId → Bool → List PropertyKey → (PropertyKey → Value) → Prop
  | found {o : ObjectId} {object : Object H} {isArray : Bool} {keys : List PropertyKey}
      {value : PropertyKey → Value} (ho : realm.object? o = some object)
      (hkeys : object.PartKeys isArray keys)
      (hv : ∀ k ∈ keys, ∃ found, realm.Finds k o found
        ∧ value k = found.elim .undefined Descriptor.valueD) : HasParts realm o isArray keys value

/-- What a path of keys leads to, from a value to its parts. -/
inductive Realm.PartAt (realm : Realm H) : Value → List PropertyKey → Value → Prop
  | whole (v : Value) : PartAt realm v [] v
  | part {o : ObjectId} {isArray : Bool} {keys : List PropertyKey} {value : PropertyKey → Value}
      {k : PropertyKey} {path : List PropertyKey} {v : Value}
      (h : realm.HasParts o isArray keys value) (hk : k ∈ keys)
      (hpath : PartAt realm (value k) path v) : PartAt realm (.object o) (k :: path) v

/-- Some object that a value leads to is a part of itself. -/
def Realm.Circular (realm : Realm H) (v : Value) : Prop :=
  ∃ o path circle, realm.PartAt v path (.object o) ∧ circle ≠ []
    ∧ realm.PartAt (.object o) circle (.object o)

namespace Object

variable {object : Object H} {isArray isArray' : Bool} {keys keys' : List PropertyKey}
  {k : PropertyKey}

theorem mem_enumerableKeys : k ∈ object.enumerableKeys ↔ k ∈ object.ownKeys
    ∧ k.isSymbol = false ∧ (object.ownProperty? k).any Descriptor.isEnumerable := by
  rw [enumerableKeys, List.mem_filter, Bool.and_eq_true, Bool.not_eq_true']

/-- Canonical keys are looked up as they are stored. -/
theorem memberKeys_eq (h : ∀ k ∈ object.enumerableKeys, k.isCanonical) :
    object.memberKeys = object.enumerableKeys := by
  have hkey (k : PropertyKey) (hk : k ∈ object.enumerableKeys) : .ofString k.text = id k :=
    PropertyKey.ofString_text (h k hk) (mem_enumerableKeys.mp hk).2.1
  rw [memberKeys, List.map_congr_left hkey, List.map_id]

namespace PartKeys

theorem isArray_eq (h : object.PartKeys isArray keys) : object.kind.isArray = isArray := by
  cases h with
  | members hk =>
    rw [hk]
    rfl
  | elements hc =>
    rw [hc.isArray]
    rfl

theorem unique (h : object.PartKeys isArray keys) (h' : object.PartKeys isArray' keys') :
    isArray = isArray' ∧ keys = keys' := by
  obtain rfl := h.isArray_eq.symm.trans h'.isArray_eq
  cases h with
  | members =>
    cases h' with
    | members => exact ⟨rfl, rfl⟩
  | elements hc =>
    cases h' with
    | elements hc' =>
      obtain rfl := hc.unique hc'
      exact ⟨rfl, rfl⟩

theorem isPlain (h : object.PartKeys isArray keys) : object.kind.isPlain := by
  cases h with
  | members hk =>
    rw [hk]
    rfl
  | elements hc => exact hc.isPlain

theorem isCallable_eq_false (h : object.PartKeys isArray keys) :
    object.kind.isCallable = false := by
  cases h with
  | members hk =>
    rw [hk]
    rfl
  | elements hc =>
    rw [hc.isArray]
    rfl

/-- The keys of the parts are no symbols and canonical. -/
theorem isCanonical (h : object.PartKeys isArray keys) (hk : k ∈ keys) :
    k.isCanonical ∧ k.isSymbol = false := by
  cases h with
  | members =>
    obtain ⟨k, -, rfl⟩ := List.mem_map.mp hk
    exact ⟨PropertyKey.isCanonical_ofString _, PropertyKey.isSymbol_ofString _⟩
  | elements hc =>
    obtain ⟨i, hi, rfl⟩ := List.mem_map.mp hk
    rw [PropertyKey.ofNat_eq_index (hc.le_maxIndex (List.mem_range.mp hi))]
    exact ⟨rfl, rfl⟩

end PartKeys
end Object

namespace Realm

variable {realm : Realm H} {o : ObjectId} {v w x : Value} {isArray isArray' : Bool}
  {keys keys' path path' : List PropertyKey} {value value' : PropertyKey → Value} {k : PropertyKey}

theorem HasParts.partKeys {object : Object H} (h : realm.HasParts o isArray keys value)
    (ho : realm.object? o = some object) : object.PartKeys isArray keys := by
  cases h with
  | found ho' hkeys =>
    cases ho.symm.trans ho'
    exact hkeys

/-- An object has its parts in one way. -/
theorem HasParts.unique (h : realm.HasParts o isArray keys value)
    (h' : realm.HasParts o isArray' keys' value') :
    isArray = isArray' ∧ keys = keys' ∧ ∀ k ∈ keys, value k = value' k := by
  cases h with
  | found ho hkeys hv =>
    obtain ⟨rfl, rfl⟩ := hkeys.unique (h'.partKeys ho)
    refine ⟨rfl, rfl, fun k hk => ?_⟩
    cases h' with
    | found _ _ hv' =>
      obtain ⟨found, hfinds, hvalue⟩ := hv k hk
      obtain ⟨found', hfinds', hvalue'⟩ := hv' k hk
      rw [hvalue, hvalue', hfinds.unique hfinds']

/-- The parts of an ordinary object whose keys are canonical are its own enumerable properties with
string keys. -/
theorem HasParts.own {object : Object H} (h : realm.HasParts o false keys value)
    (ho : realm.object? o = some object) (hc : ∀ k ∈ object.enumerableKeys, k.isCanonical) :
    keys = object.enumerableKeys
      ∧ ∀ k ∈ keys, ∃ d, object.ownProperty? k = some d ∧ value k = d.valueD := by
  cases h with
  | found ho' hkeys hv =>
    cases ho.symm.trans ho'
    cases hkeys with
    | members hk =>
      have hkeys := Object.memberKeys_eq hc
      refine ⟨hkeys, fun k hmem => ?_⟩
      obtain ⟨found, hfinds, hvalue⟩ := hv k hmem
      rw [hkeys] at hmem
      obtain ⟨d, hd⟩ := Option.isSome_iff_exists.mp
        (Object.isSome_ownProperty?_of_mem_ownKeys (Object.mem_enumerableKeys.mp hmem).1)
      have hplain : object.kind.isPlain := by
        rw [hk]
        rfl
      rw [hfinds.unique (.own ho hplain hd)] at hvalue
      exact ⟨d, hd, hvalue⟩

/-- The empty path leads to the whole. -/
theorem PartAt.eq_whole (h : realm.PartAt v [] w) : w = v := by
  cases h
  rfl

theorem PartAt.append (h : realm.PartAt v path w) (h' : realm.PartAt w path' x) :
    realm.PartAt v (path ++ path') x := by
  induction h with
  | whole => exact h'
  | part hparts hk _ ih => exact .part hparts hk (ih h')

/-- What is part of itself behind a part is so behind the whole. -/
theorem Circular.of_part (hparts : realm.HasParts o isArray keys value) (hk : k ∈ keys)
    (h : realm.Circular (value k)) : realm.Circular (.object o) := by
  obtain ⟨p, path, circle, hpath, hne, hcircle⟩ := h
  exact ⟨p, k :: path, circle, .part hparts hk hpath, hne, hcircle⟩

end Realm

/-! ### Trees -/

/-- The JSON tree of a primitive value, none if it has none. -/
def Value.tree? : Value → Option Json
  | null => some .null
  | bool b => some (.bool b)
  | number n => some (if n.isFinite then .number (.float n) else .null)
  | string s => some (.string s)
  | _ => none

namespace Json

/-- The tree with given parts. An array has `null` for a part without a tree, an object nothing. -/
def ofParts (isArray : Bool) (keys : List PropertyKey) (trees : PropertyKey → Option Json) :
    Json :=
  if isArray then array (keys.map fun k => (trees k).getD null)
  else object (keys.filterMap fun k => (trees k).map fun t => (k.text, t))

/-- The part of a tree under a key. -/
def part? : Json → PropertyKey → Option Json
  | array items, k => k.index?.bind fun i => items[i]?
  | object members, k => OrderedMap.lookup k.text members
  | _, _ => none

/-- What a path leads to in a tree. -/
def at? (t : Json) : List PropertyKey → Option Json
  | [] => some t
  | k :: path => (t.part? k).bind fun part => part.at? path

end Json

/-- The tree of a value: objects are followed to their parts. -/
inductive Realm.Unfolds (realm : Realm H) : Value → Option Json → Prop
  | primitive {v : Value} (hv : v.isObject = false) : Unfolds realm v v.tree?
  | container {o : ObjectId} {isArray : Bool} {keys : List PropertyKey}
      {value : PropertyKey → Value} {trees : PropertyKey → Option Json}
      (h : realm.HasParts o isArray keys value)
      (ht : ∀ k ∈ keys, Unfolds realm (value k) (trees k)) :
      Unfolds realm (.object o) (some (.ofParts isArray keys trees))

namespace Json

variable {keys : List PropertyKey} {trees trees' : PropertyKey → Option Json} {k : PropertyKey}
  {t : Json} {isArray : Bool}

theorem ofParts_congr (h : ∀ k ∈ keys, trees k = trees' k) :
    ofParts isArray keys trees = ofParts isArray keys trees' := by
  have hitems : (keys.map fun k => (trees k).getD null) = keys.map fun k => (trees' k).getD null :=
    List.map_congr_left fun k hk => by rw [h k hk]
  have hmembers : (keys.filterMap fun k => (trees k).map fun t => (k.text, t))
      = keys.filterMap fun k => (trees' k).map fun t => (k.text, t) :=
    List.filterMap_congr fun k hk => by rw [h k hk]
  rw [ofParts, ofParts, hitems, hmembers]

theorem lookup_members (hk : k ∈ keys) (ht : trees k = some t)
    (hinj : ∀ k' ∈ keys, k'.text = k.text → k' = k) :
    OrderedMap.lookup k.text (keys.filterMap fun k => (trees k).map fun t => (k.text, t))
      = some t := by
  induction keys with
  | nil => cases hk
  | cons k' rest ih =>
    obtain ⟨hhead, hinj⟩ := List.forall_mem_cons.mp hinj
    by_cases heq : k' = k
    · subst heq
      rw [List.filterMap_cons, ht]
      exact if_pos rfl
    · have hrest := ih ((List.mem_cons.mp hk).resolve_left fun h => heq h.symm) hinj
      rw [List.filterMap_cons]
      cases trees k' with
      | none => exact hrest
      | some t' => exact (if_neg fun htext => heq (hhead htext.symm)).trans hrest

end Json

namespace Realm

variable {realm : Realm H} {o : ObjectId} {v w : Value} {isArray : Bool} {t? t?' : Option Json}
  {keys path : List PropertyKey} {value : PropertyKey → Value} {k : PropertyKey} {t : Json}

/-- No value has two trees. -/
theorem Unfolds.unique (h : realm.Unfolds v t?) (h' : realm.Unfolds v t?') : t? = t?' := by
  induction h generalizing t?' with
  | primitive hv =>
    cases h' with
    | primitive => rfl
    | container => cases hv
  | container hparts _ ih =>
    cases h' with
    | primitive hv => cases hv
    | container hparts' ht' =>
      obtain ⟨rfl, rfl, hvalue⟩ := hparts.unique hparts'
      exact congrArg some (Json.ofParts_congr fun k hk => ih k hk (hvalue k hk ▸ ht' k hk))

/-- An object is always written. -/
theorem Unfolds.exists_eq_some (h : realm.Unfolds (.object o) t?) : ∃ t, t? = some t := by
  cases h with
  | primitive hv => cases hv
  | container => exact ⟨_, rfl⟩

/-- Where there is a tree, going from values to their parts has an end. -/
theorem Unfolds.acc (h : realm.Unfolds v t?) : Acc (fun w v => ∃ k, realm.PartAt v [k] w) v := by
  induction h with
  | primitive hv =>
    refine ⟨_, fun w hw => ?_⟩
    obtain ⟨k, hw⟩ := hw
    cases hw
    cases hv
  | container hparts _ ih =>
    refine ⟨_, fun w hw => ?_⟩
    obtain ⟨k, hw⟩ := hw
    cases hw with
    | part hparts' hk hw =>
      obtain ⟨rfl, rfl, hvalue⟩ := hparts.unique hparts'
      rw [hw.eq_whole, ← hvalue k hk]
      exact ih k hk

/-- What has an end is not a part of itself. -/
theorem PartAt.ne_of_acc (h : Acc (fun w v => ∃ k, realm.PartAt v [k] w) v)
    (hpath : realm.PartAt v path w) (hne : path ≠ []) : w ≠ v := by
  induction h generalizing path w with
  | intro v _ ih =>
    intro heq
    cases hpath with
    | whole => exact hne rfl
    | @part o _ _ value k _ _ hparts hk hpath =>
      subst heq
      -- the circle, begun with the first part
      have hfirst : realm.PartAt (.object o) [k] (value k) := .part hparts hk (.whole _)
      exact ih (value k) ⟨k, hfirst⟩ (hpath.append hfirst) (by simp) rfl

theorem PartAt.acc (hpath : realm.PartAt v path w)
    (h : Acc (fun w v => ∃ k, realm.PartAt v [k] w) v) :
    Acc (fun w v => ∃ k, realm.PartAt v [k] w) w := by
  induction hpath with
  | whole => exact h
  | part hparts hk _ ih => exact ih (h.inv ⟨_, .part hparts hk (.whole _)⟩)

/-- A value with a tree leads to no object that is part of itself. -/
theorem Unfolds.not_circular (h : realm.Unfolds v t?) : ¬realm.Circular v := by
  rintro ⟨o, path, circle, hpath, hne, hcircle⟩
  exact hcircle.ne_of_acc (hpath.acc h.acc) hne rfl

end Realm

/-! ### Objects that hold data -/

/-- A value cannot be called, and an object that it is exists. -/
def Realm.IsInert (realm : Realm H) (v : Value) : Prop :=
  ∀ o, v = .object o → ∃ object, realm.object? o = some object ∧ object.kind.isCallable = false

/-- A search for a property ends, and with data if it finds something. -/
def Realm.FindsData (realm : Realm H) (k : PropertyKey) (o : ObjectId) : Prop :=
  ∃ found, realm.Finds k o found ∧ ∀ d, found = some d → d.isData

/-- An ordinary object or an array whose parts are read without running code of the program, and
that has no method to replace it. -/
structure Realm.HoldsData (realm : Realm H) (o : ObjectId) (object : Object H) : Prop where
  stored : realm.object? o = some object
  parts : ∃ isArray keys, object.PartKeys isArray keys ∧ ∀ k ∈ keys, realm.FindsData k o
  replacement : realm.FindsData (.ofString "toJSON") o
  inert : ∀ d, realm.Finds (.ofString "toJSON") o (some d) → realm.IsInert d.valueD

/-- All objects that a value leads to hold data. -/
def Realm.LeadsToData (realm : Realm H) (v : Value) : Prop :=
  ∀ path o, realm.PartAt v path (.object o) → ∃ object, realm.HoldsData o object

/-- The searches for properties of objects that a value leads to go over no more than so many
prototypes. -/
def Realm.SearchesWithin (realm : Realm H) (v : Value) (steps : Nat) : Prop :=
  ∀ path o k n found, realm.PartAt v path (.object o) → realm.FindsAfter k n o found → n ≤ steps

namespace Realm

variable {realm after : Realm H} {o : ObjectId} {object : Object H} {v w : Value}
  {isArray : Bool} {t? : Option Json} {t : Json} {keys path : List PropertyKey}
  {value : PropertyKey → Value} {k : PropertyKey} {trees : PropertyKey → Option Json}

theorem IsInert.isCallable (h : realm.IsInert v) (hr : realm.Retains after) :
    after.isCallable v = false := by
  cases v with
  | object o =>
    obtain ⟨object, ho, hkind⟩ := h o rfl
    change (after.kind? o).any ObjectKind.isCallable = false
    rw [kind?, hr _ _ ho]
    exact hkind
  | _ => rfl

theorem LeadsToData.part (h : realm.LeadsToData (.object o))
    (hparts : realm.HasParts o isArray keys value) (hk : k ∈ keys) :
    realm.LeadsToData (value k) :=
  fun path p hpath => h (k :: path) p (.part hparts hk hpath)

theorem SearchesWithin.part {steps : Nat} (h : realm.SearchesWithin (.object o) steps)
    (hparts : realm.HasParts o isArray keys value) (hk : k ∈ keys) :
    realm.SearchesWithin (value k) steps :=
  fun path p k' n found hpath => h (k :: path) p k' n found (.part hparts hk hpath)

/-- No search goes over more prototypes than there are objects. -/
theorem searchesWithin_size (realm : Realm H) (v : Value) :
    realm.SearchesWithin v realm.heap.size := by
  intro _ o k n found _ hfinds
  obtain ⟨m, hm, hfinds'⟩ := hfinds.finds.exists_findsAfter
  rw [(hfinds.unique hfinds').1]
  exact Nat.le_of_lt hm

/-- Objects that hold data and whose parts are no other objects. -/
theorem LeadsToData.of_closed {S : ObjectId → Prop} (hv : ∀ o, v = .object o → S o)
    (hdata : ∀ o, S o → ∃ object, realm.HoldsData o object)
    (hparts : ∀ o isArray keys value, S o → realm.HasParts o isArray keys value →
      ∀ k ∈ keys, ∀ p, value k = .object p → S p) : realm.LeadsToData v := by
  intro path o hpath
  generalize hw : Value.object o = w at hpath
  induction hpath with
  | whole v => exact hdata o (hv o hw.symm)
  | part h hk _ ih => exact ih (hparts _ _ _ _ (hv _ rfl) h _ hk) hw

namespace HoldsData

theorem isPlain (h : realm.HoldsData o object) : object.kind.isPlain :=
  h.parts.elim fun _ ⟨_, hkeys, _⟩ => hkeys.isPlain

theorem isCallable_eq_false (h : realm.HoldsData o object) : object.kind.isCallable = false :=
  h.parts.elim fun _ ⟨_, hkeys, _⟩ => hkeys.isCallable_eq_false

/-- The search for a part finds the data that the part is. -/
theorem exists_finds (h : realm.HoldsData o object) (hparts : realm.HasParts o isArray keys value)
    (hk : k ∈ keys) : ∃ found, realm.Finds k o found ∧ (∀ d, found = some d → d.isData)
      ∧ value k = found.elim .undefined Descriptor.valueD := by
  obtain ⟨_, _, hkeys, hdata⟩ := h.parts
  obtain ⟨rfl, rfl⟩ := hkeys.unique (hparts.partKeys h.stored)
  obtain ⟨found, hfinds, hdata⟩ := hdata k hk
  cases hparts with
  | found _ _ hv =>
    obtain ⟨found', hfinds', hvalue⟩ := hv k hk
    obtain rfl := hfinds.unique hfinds'
    exact ⟨found, hfinds, hdata, hvalue⟩

/-- An object that holds data has parts. -/
theorem exists_hasParts (h : realm.HoldsData o object) :
    ∃ isArray keys value, realm.HasParts o isArray keys value := by
  obtain ⟨isArray, keys, hkeys, hdata⟩ := h.parts
  choose! found hfinds using hdata
  exact ⟨isArray, keys, fun k => (found k).elim .undefined Descriptor.valueD,
    .found h.stored hkeys fun k hk => ⟨found k, (hfinds k hk).1, rfl⟩⟩

end HoldsData

/-- The part of a tree under the key of a part. -/
theorem part?_ofParts (hkeys : object.PartKeys isArray keys) (hk : k ∈ keys)
    (ht : trees k = some t) : (Json.ofParts isArray keys trees).part? k = some t := by
  have hcanonical (k : PropertyKey) (hk : k ∈ keys) := hkeys.isCanonical hk
  cases hkeys with
  | members =>
    refine Json.lookup_members hk ht fun k' hk' htext => ?_
    rw [← PropertyKey.ofString_text (hcanonical k' hk').1 (hcanonical k' hk').2, htext,
      PropertyKey.ofString_text (hcanonical k hk).1 (hcanonical k hk).2]
  | elements hc =>
    obtain ⟨i, hi, rfl⟩ := List.mem_map.mp hk
    rw [List.mem_range] at hi
    have hkey := PropertyKey.ofNat_eq_index (hc.le_maxIndex hi)
    rw [Json.ofParts, if_pos rfl, List.map_map, hkey]
    change ((List.range _).map _)[i]? = _
    rw [List.getElem?_map, List.getElem?_range hi, Option.map_some, Function.comp_apply, ht]
    rfl

/-- What a path leads to has its own tree at that path. -/
theorem Unfolds.exists_at? (h : realm.Unfolds v t?) (hdata : realm.LeadsToData v)
    (hpath : realm.PartAt v path (.object o)) :
    ∃ t part, t? = some t ∧ t.at? path = some part ∧ realm.Unfolds (.object o) (some part) := by
  generalize hw : Value.object o = w at hpath
  induction hpath generalizing t? with
  | whole =>
    subst hw
    obtain ⟨t, rfl⟩ := h.exists_eq_some
    exact ⟨t, t, rfl, rfl, h⟩
  | part hparts hk hpath ih =>
    subst hw
    obtain ⟨object, hobject⟩ := hdata [] _ (.whole _)
    cases h with
    | primitive hv => cases hv
    | container hparts' ht =>
      obtain ⟨rfl, rfl, hvalue⟩ := hparts.unique hparts'
      obtain ⟨t, part, htree, hat, hunfolds⟩ :=
        ih (hvalue _ hk ▸ ht _ hk) (hdata.part hparts hk) rfl
      refine ⟨_, part, rfl, ?_, hunfolds⟩
      rw [Json.at?, part?_ofParts (hparts.partKeys hobject.stored) hk htree]
      exact hat

end Realm

end ScriptEngine
