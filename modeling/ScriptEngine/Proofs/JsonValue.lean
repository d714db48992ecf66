import ScriptEngine.Proofs.ElementStore
import ScriptEngine.Proofs.JsonRecord
import ScriptEngine.Proofs.JsonWriter

/-!
# The value of a tree

The value of a JSON tree consists of new arrays and objects, and nothing else is changed. It unfolds
to the tree again, but for the order of the members of objects.

## Main definitions

* `Realm.Represents`: a value is made of records and arrays as a tree is of objects and arrays.

## Main results

* `Realm.Represents.unfolds`, `Realm.Represents.leadsToData`: what such a value is to JSON.
* `Json.WellFormed.builds`: turning a tree into a value.
-/

namespace ScriptEngine

open Engine

variable {H : HostTypes}

/-- A value is made of arrays and objects as a tree whose members are in the order in which objects
list them. The arrays and objects are stored from an index on. -/
inductive Realm.Represents (realm : Realm H) (least : Nat) : Value → Json → Prop
  | null : Represents realm least .null .null
  | bool (b : Bool) : Represents realm least (.bool b) (.bool b)
  | number {x : Float} (hx : x.isFinite) :
      Represents realm least (.number x) (.number (.float x))
  | string (s : String) : Represents realm least (.string s) (.string s)
  | array {o : ObjectId} {object : Object H} {entries : List (Value × Json)}
      (hleast : least ≤ o.index) (ho : realm.object? o = some object)
      (hstores : object.Stores (fun i => (entries.map Prod.fst)[i]?) entries.length)
      (hrest : (Object.emptyArray (realm.intrinsics.get .arrayPrototype) 0).SharesRest object)
      (h : ∀ e ∈ entries, Represents realm least e.1 e.2) :
      Represents realm least (.object o) (.array (entries.map Prod.snd))
  | object {o : ObjectId} {members : List (String × Value × Json)} (hleast : least ≤ o.index)
      (ho : realm.object? o = some (.record (realm.intrinsics.get .objectPrototype)
        (members.map fun m => (m.1, m.2.1))))
      (hnames : (members.map Prod.fst).Nodup)
      (h : ∀ m ∈ members, Represents realm least m.2.1 m.2.2) :
      Represents realm least (.object o)
        (.object (Json.indicesFirst (members.map fun m => (m.1, m.2.2))))

/-- Neither objects nor arrays inherit a method that replaces them in texts, and the searches for it
go over no more than so many prototypes above theirs. -/
structure Realm.LacksReplacement (realm : Realm H) (n : Nat) : Prop where
  object : ∃ m ≤ n,
    realm.FindsAfter (.ofString "toJSON") m (realm.intrinsics.get .objectPrototype) none
  array : ∃ m ≤ n,
    realm.FindsAfter (.ofString "toJSON") m (realm.intrinsics.get .arrayPrototype) none

/-- A search that finds nothing has gone over all prototypes. -/
theorem Realm.FindsAfter.le_of_none {realm : Realm H} {k k' : PropertyKey} {m n : Nat}
    {o : ObjectId} {found : Option Descriptor} (h : realm.FindsAfter k n o none)
    (h' : realm.FindsAfter k' m o found) : m ≤ n := by
  induction h' generalizing n with
  | own => exact Nat.zero_le n
  | missing => exact Nat.zero_le n
  | inherited ho _ _ hn _ ih =>
    cases h with
    | missing ho' _ _ hn' =>
      cases ho.symm.trans ho'
      cases hn.symm.trans hn'
    | inherited ho' _ _ hn' h =>
      cases ho.symm.trans ho'
      cases hn.symm.trans hn'
      exact Nat.succ_le_succ (ih h)

theorem Realm.LacksReplacement.finds_object {realm : Realm H} {n : Nat}
    (h : realm.LacksReplacement n) :
    realm.Finds (.ofString "toJSON") (realm.intrinsics.get .objectPrototype) none :=
  h.object.elim fun _ h => h.2.finds

theorem Realm.LacksReplacement.finds_array {realm : Realm H} {n : Nat}
    (h : realm.LacksReplacement n) :
    realm.Finds (.ofString "toJSON") (realm.intrinsics.get .arrayPrototype) none :=
  h.array.elim fun _ h => h.2.finds

namespace Realm.Represents

variable {realm after : Realm H} {least least' n : Nat} {v w : Value} {t : Json} {o : ObjectId}
  {path : List PropertyKey}

/-- Whatever keeps the objects from an index on keeps what they represent. -/
theorem transport (h : realm.Represents least v t) (hi : after.intrinsics = realm.intrinsics)
    (hle : least' ≤ least) (hr : ∀ o object, least ≤ o.index → realm.object? o = some object →
      after.object? o = some object) : after.Represents least' v t := by
  induction h with
  | null => exact .null
  | bool b => exact .bool b
  | number hx => exact .number hx
  | string s => exact .string s
  | array hleast ho hstores hrest _ ih =>
    exact .array (Nat.le_trans hle hleast) (hr _ _ hleast ho) hstores (hi ▸ hrest) ih
  | object hleast ho hnames _ ih =>
    exact .object (Nat.le_trans hle hleast) (hi ▸ hr _ _ hleast ho) hnames ih

/-- Such a value cannot be called. -/
theorem isInert (h : realm.Represents least v t) : realm.IsInert v := by
  rintro o rfl
  cases h with
  | array _ ho hstores => exact ⟨_, ho, by rw [hstores.isArray]; rfl⟩
  | object _ ho => exact ⟨_, ho, rfl⟩

/-! ### The parts of such a value -/

section Array

variable {object : Object H} {entries : List (Value × Json)} {k : PropertyKey}

/-- The value of an element. -/
def elementAt (entries : List (Value × Json)) (k : PropertyKey) : Value :=
  k.index?.elim .undefined fun i => entries[i]?.elim .undefined Prod.fst

/-- The tree of an element. -/
def elementTree? (entries : List (Value × Json)) (k : PropertyKey) : Option Json :=
  k.index?.bind fun i => entries[i]?.map Prod.snd

theorem finds_element (ho : realm.object? o = some object)
    (hstores : object.Stores (fun i => (entries.map Prod.fst)[i]?) entries.length) {i : Nat}
    (hi : i < entries.length) : realm.Finds (.ofNat i) o (some (.plain entries[i].1)) := by
  refine .own ho hstores.isPlain ?_
  rw [PropertyKey.ofNat_eq_index (hstores.hasCount.le_maxIndex hi), hstores.ownProperty?_index,
    List.getElem?_map, List.getElem?_eq_getElem hi]
  rfl

theorem hasParts_array (ho : realm.object? o = some object)
    (hstores : object.Stores (fun i => (entries.map Prod.fst)[i]?) entries.length) :
    realm.HasParts o true ((List.range entries.length).map .ofNat) (elementAt entries) := by
  refine .found ho (.elements hstores.hasCount) fun k hk => ?_
  obtain ⟨i, hi, rfl⟩ := List.mem_map.mp hk
  rw [List.mem_range] at hi
  refine ⟨_, finds_element ho hstores hi, ?_⟩
  rw [PropertyKey.ofNat_eq_index (hstores.hasCount.le_maxIndex hi)]
  exact congrArg (Option.elim · Value.undefined Prod.fst) (List.getElem?_eq_getElem hi)

/-- The parts of an array are the values of its entries. -/
theorem exists_entry (hstores : object.Stores (fun i => (entries.map Prod.fst)[i]?) entries.length)
    (hk : k ∈ (List.range entries.length).map PropertyKey.ofNat) :
    ∃ e ∈ entries, elementAt entries k = e.1 ∧ elementTree? entries k = some e.2 := by
  obtain ⟨i, hi, rfl⟩ := List.mem_map.mp hk
  rw [List.mem_range] at hi
  refine ⟨entries[i], List.getElem_mem hi, ?_⟩
  rw [PropertyKey.ofNat_eq_index (hstores.hasCount.le_maxIndex hi)]
  exact ⟨congrArg (Option.elim · Value.undefined Prod.fst) (List.getElem?_eq_getElem hi),
    congrArg (Option.map Prod.snd) (List.getElem?_eq_getElem hi)⟩

theorem ofParts_array
    (hstores : object.Stores (fun i => (entries.map Prod.fst)[i]?) entries.length) :
    Json.ofParts true ((List.range entries.length).map .ofNat) (elementTree? entries)
      = .array (entries.map Prod.snd) := by
  rw [Json.ofParts, if_pos rfl, List.map_map]
  refine congrArg _ (List.ext_getElem (by simp) fun i hi hi' => ?_)
  rw [List.length_map] at hi'
  rw [List.getElem_map, List.getElem_range, List.getElem_map, Function.comp_apply,
    PropertyKey.ofNat_eq_index (hstores.hasCount.le_maxIndex hi')]
  exact congrArg (fun e? => (Option.map Prod.snd e?).getD Json.null) (List.getElem?_eq_getElem hi')

end Array

section Object

variable {members : List (String × Value × Json)} {k : PropertyKey} {prototype : ObjectId}

/-- The value of a member. -/
def memberAt (members : List (String × Value × Json)) (k : PropertyKey) : Value :=
  (OrderedMap.lookup k.text (members.map fun m => (m.1, m.2.1))).getD .undefined

/-- The tree of a member. -/
def memberTree? (members : List (String × Value × Json)) (k : PropertyKey) : Option Json :=
  OrderedMap.lookup k.text (members.map fun m => (m.1, m.2.2))

/-- A record whose members have these values. -/
def recordOf (prototype : ObjectId) (members : List (String × Value × Json)) : Object H :=
  .record prototype (members.map fun m => (m.1, m.2.1))

theorem lookup_map_of_mem {α : Type} (f : Value × Json → α)
    (hnames : (members.map Prod.fst).Nodup) {m : String × Value × Json} (hm : m ∈ members) :
    OrderedMap.lookup (PropertyKey.ofString m.1).text (members.map fun m => (m.1, f m.2))
      = some (f m.2) := by
  rw [PropertyKey.text_ofString]
  exact OrderedMap.lookup_of_mem (List.pairwise_map.mpr (List.pairwise_map.mp hnames))
    (List.mem_map.mpr ⟨m, hm, rfl⟩)

theorem memberTree?_of_mem (hnames : (members.map Prod.fst).Nodup) {m : String × Value × Json}
    (hm : m ∈ members) : memberTree? members (.ofString m.1) = some m.2.2 :=
  lookup_map_of_mem Prod.snd hnames hm

theorem memberAt_of_mem (hnames : (members.map Prod.fst).Nodup) {m : String × Value × Json}
    (hm : m ∈ members) : memberAt members (.ofString m.1) = m.2.1 :=
  congrArg (fun v? => v?.getD Value.undefined) (lookup_map_of_mem Prod.fst hnames hm)

theorem memberKeys_recordOf (hnames : (members.map Prod.fst).Nodup) :
    (recordOf prototype members : Object H).memberKeys
      = (Json.indicesFirst members).map fun m => .ofString m.1 := by
  rw [recordOf, Object.memberKeys_record (by rwa [List.map_map]),
    Json.indicesFirst_map (fun m : Value × Json => m.1), List.map_map]
  rfl

theorem finds_member (ho : realm.object? o = some (recordOf prototype members))
    (hnames : (members.map Prod.fst).Nodup) {m : String × Value × Json} (hm : m ∈ members) :
    realm.Finds (.ofString m.1) o (some (.plain m.2.1)) :=
  .own ho rfl (Object.ownProperty?_record_of_mem (by rwa [List.map_map])
    (List.mem_map.mpr ⟨m, hm, rfl⟩))

/-- The parts of an object are the values of its members. -/
theorem exists_member (hnames : (members.map Prod.fst).Nodup)
    (hk : k ∈ (recordOf prototype members : Object H).memberKeys) :
    ∃ m ∈ members, k = .ofString m.1 ∧ memberAt members k = m.2.1
      ∧ memberTree? members k = some m.2.2 := by
  rw [memberKeys_recordOf hnames] at hk
  obtain ⟨m, hm, rfl⟩ := List.mem_map.mp hk
  have hmem := Json.mem_indicesFirst.mp hm
  exact ⟨m, hmem, rfl, memberAt_of_mem hnames hmem, memberTree?_of_mem hnames hmem⟩

theorem hasParts_object (ho : realm.object? o = some (recordOf prototype members))
    (hnames : (members.map Prod.fst).Nodup) :
    realm.HasParts o false (recordOf prototype members : Object H).memberKeys
      (memberAt members) := by
  refine .found ho (.members rfl) fun k hk => ?_
  obtain ⟨m, hm, rfl, hvalue, -⟩ := exists_member hnames hk
  exact ⟨_, finds_member ho hnames hm, hvalue⟩

variable (prototype) in
theorem ofParts_object (hnames : (members.map Prod.fst).Nodup) :
    Json.ofParts false (recordOf prototype members : Object H).memberKeys
        (memberTree? members)
      = .object (Json.indicesFirst (members.map fun m => (m.1, m.2.2))) := by
  rw [Json.ofParts, if_neg Bool.false_ne_true, memberKeys_recordOf hnames,
    Json.indicesFirst_map (fun m : Value × Json => m.2), List.filterMap_map,
    ← List.filterMap_eq_map]
  refine congrArg _ (List.filterMap_congr fun m hm => ?_)
  rw [Function.comp_apply, memberTree?_of_mem hnames (Json.mem_indicesFirst.mp hm),
    PropertyKey.text_ofString]
  rfl

end Object

/-- The value of a tree unfolds to the tree. -/
theorem unfolds (h : realm.Represents least v t) : realm.Unfolds v (some t) := by
  have hprimitive {v : Value} {t : Json} (ht : v.tree? = some t) (hv : v.isObject = false) :
      realm.Unfolds v (some t) := ht ▸ .primitive hv
  induction h with
  | null => exact hprimitive rfl rfl
  | bool b => exact hprimitive rfl rfl
  | number hx => exact hprimitive (congrArg some (if_pos hx)) rfl
  | string s => exact hprimitive rfl rfl
  | @array o object entries _ ho hstores _ _ ih =>
    rw [← ofParts_array hstores]
    refine .container (hasParts_array ho hstores) fun k hk => ?_
    obtain ⟨e, he, hvalue, htree⟩ := exists_entry hstores hk
    rw [hvalue, htree]
    exact ih e he
  | @object o members _ ho hnames _ ih =>
    rw [← ofParts_object (H := H) (realm.intrinsics.get .objectPrototype) hnames]
    refine .container (hasParts_object ho hnames) fun k hk => ?_
    obtain ⟨m, hm, -, hvalue, htree⟩ := exists_member hnames hk
    rw [hvalue, htree]
    exact ih m hm

/-! ### Data -/

theorem get?_emptyArray {k : PropertyKey} (hk : k ≠ lengthKey) (prototype : ObjectId) :
    (Object.emptyArray prototype 0 : Object H).properties.get? k = none :=
  (PropertyMap.get?_insert_of_ne hk ..).trans (PropertyMap.get?_empty _)

theorem holdsData_array {object : Object H} {entries : List (Value × Json)}
    (hlacks : realm.LacksReplacement n) (ho : realm.object? o = some object)
    (hstores : object.Stores (fun i => (entries.map Prod.fst)[i]?) entries.length)
    (hrest : (Object.emptyArray (realm.intrinsics.get .arrayPrototype) 0).SharesRest object) :
    realm.HoldsData o object := by
  have hother (k : PropertyKey) (hk : k.index? = none) (hne : k ≠ lengthKey) :
      object.ownProperty? k = none :=
    (hstores.ownProperty?_eq k).trans ((hrest.others k hk hne).trans (get?_emptyArray hne _))
  have hfinds : realm.Finds (.ofString "toJSON") o none :=
    .inherited ho hstores.isPlain (hother _ rfl (by decide)) hrest.prototype hlacks.finds_array
  refine ⟨ho, ⟨true, _, .elements hstores.hasCount, fun k hk => ?_⟩,
    ⟨none, hfinds, fun d hd => (by cases hd)⟩, fun d hd => ?_⟩
  · obtain ⟨i, hi, rfl⟩ := List.mem_map.mp hk
    refine ⟨_, finds_element ho hstores (List.mem_range.mp hi), fun d hd => ?_⟩
    cases hd
    rfl
  · cases hfinds.unique hd

theorem holdsData_object {members : List (String × Value × Json)}
    (hlacks : realm.LacksReplacement n)
    (ho : realm.object? o = some (recordOf (realm.intrinsics.get .objectPrototype) members))
    (hnames : (members.map Prod.fst).Nodup)
    (h : ∀ m ∈ members, realm.Represents least m.2.1 m.2.2) :
    realm.HoldsData o (recordOf (realm.intrinsics.get .objectPrototype) members) := by
  have hown (k : PropertyKey) (d : Descriptor) (hd : (recordOf (realm.intrinsics.get
      .objectPrototype) members : Object H).ownProperty? k = some d) :
      ∃ m ∈ members, d = .plain m.2.1 := by
    rw [recordOf, Object.ownProperty?_record] at hd
    obtain ⟨name, v, -, rfl, hmem⟩ :=
      PropertyMap.exists_of_get?_ofMembers (by rwa [List.map_map]) hd
    obtain ⟨m, hm, heq⟩ := List.mem_map.mp hmem
    exact ⟨m, hm, (congrArg (fun m => Descriptor.plain m.2) heq).symm⟩
  -- the search ends at the object or goes on to the prototype of objects
  have hfinds : realm.Finds (.ofString "toJSON") o ((recordOf (realm.intrinsics.get
      .objectPrototype) members : Object H).ownProperty? (.ofString "toJSON")) := by
    cases hown : (recordOf (realm.intrinsics.get .objectPrototype) members :
        Object H).ownProperty? (.ofString "toJSON") with
    | some d => exact .own ho rfl hown
    | none => exact .inherited ho rfl hown rfl hlacks.finds_object
  refine ⟨ho, ⟨false, _, .members rfl, fun k hk => ?_⟩, ⟨_, hfinds, fun d hd => ?_⟩,
    fun d hd => ?_⟩
  · obtain ⟨m, hm, rfl, -⟩ := exists_member hnames hk
    refine ⟨_, finds_member ho hnames hm, fun d hd => ?_⟩
    cases hd
    rfl
  · obtain ⟨m, -, rfl⟩ := hown _ d hd
    rfl
  · obtain ⟨m, hm, rfl⟩ := hown _ d (hfinds.unique hd)
    exact (h m hm).isInert

/-- What a path leads to in the value of a tree is the value of a tree. -/
theorem exists_part (h : realm.Represents least v t) (hpath : realm.PartAt v path w) :
    ∃ t', realm.Represents least w t' := by
  induction hpath generalizing t with
  | whole => exact ⟨t, h⟩
  | part hparts hk _ ih =>
    cases h with
    | array _ ho hstores _ h =>
      obtain ⟨rfl, rfl, hvalue⟩ := hparts.unique (hasParts_array ho hstores)
      obtain ⟨e, he, heq, -⟩ := exists_entry hstores hk
      exact ih (t := e.2) ((hvalue _ hk).trans heq ▸ h e he)
    | object _ ho hnames h =>
      obtain ⟨rfl, rfl, hvalue⟩ := hparts.unique (hasParts_object ho hnames)
      obtain ⟨m, hm, -, heq, -⟩ := exists_member hnames hk
      exact ih (t := m.2.2) ((hvalue _ hk).trans heq ▸ h m hm)

/-- The value of a tree leads to data only. -/
theorem leadsToData (hlacks : realm.LacksReplacement n) (h : realm.Represents least v t) :
    realm.LeadsToData v := by
  intro path o hpath
  obtain ⟨t', h⟩ := h.exists_part hpath
  cases h with
  | array _ ho hstores hrest => exact ⟨_, holdsData_array hlacks ho hstores hrest⟩
  | object _ ho hnames h => exact ⟨_, holdsData_object hlacks ho hnames h⟩

/-- Searches in the value of a tree go over the prototype of objects or arrays. -/
theorem searchesWithin (hlacks : realm.LacksReplacement n) (h : realm.Represents least v t) :
    realm.SearchesWithin v (n + 1) := by
  intro path o k m found hpath hfinds
  obtain ⟨t', h⟩ := h.exists_part hpath
  have hprototype : ∃ object parent n', realm.object? o = some object
      ∧ object.prototype = some parent ∧ n' ≤ n
      ∧ realm.FindsAfter (.ofString "toJSON") n' parent none := by
    cases h with
    | array _ ho _ hrest =>
      obtain ⟨n', hn, hfinds⟩ := hlacks.array
      exact ⟨_, _, n', ho, hrest.prototype, hn, hfinds⟩
    | object _ ho =>
      obtain ⟨n', hn, hfinds⟩ := hlacks.object
      exact ⟨_, _, n', ho, rfl, hn, hfinds⟩
  obtain ⟨object, parent, n', ho, hparent, hn, hnone⟩ := hprototype
  cases hfinds with
  | own => exact Nat.zero_le _
  | missing => exact Nat.zero_le _
  | inherited ho' _ _ hn' hfinds =>
    cases ho.symm.trans ho'
    cases hparent.symm.trans hn'
    exact Nat.succ_le_succ (Nat.le_trans (hnone.le_of_none hfinds) hn)

end Realm.Represents

/-! ### Building a value -/

/-- A realm got so many objects more, and nothing else changed but one object, if any. -/
structure Realm.Grows (realm : Realm H) (changed : Option ObjectId) (n : Nat) (after : Realm H) :
    Prop where
  rest : after = { realm with heap := after.heap }
  size : after.heap.size = realm.heap.size + n
  retains : ∀ p object, changed ≠ some p → realm.object? p = some object →
    after.object? p = some object

namespace Realm.Grows

variable {realm middle after : Realm H} {changed : Option ObjectId} {n m : Nat} {o : ObjectId}
  {object : Object H} {v : Value} {t : Json}

theorem refl (realm : Realm H) (changed : Option ObjectId) : realm.Grows changed 0 realm :=
  ⟨rfl, rfl, fun _ _ _ h => h⟩

theorem push (realm : Realm H) (object : Object H) (changed : Option ObjectId) :
    realm.Grows changed 1 (realm.push object) :=
  ⟨rfl, Array.size_push _, fun p existing _ hp => realm.retains_push object p existing hp⟩

theorem putObject (realm : Realm H) (o : ObjectId) (object : Object H) :
    realm.Grows (some o) 0 (realm.putObject o object) := by
  refine ⟨rfl, by simp [Realm.putObject], fun p existing hne hp => ?_⟩
  rwa [Realm.object?_putObject_of_ne fun heq => hne (by rw [heq])]

theorem trans (h : realm.Grows changed n middle) (h' : middle.Grows changed m after) :
    realm.Grows changed (n + m) after := by
  refine ⟨?_, by rw [h'.size, h.size, Nat.add_assoc], fun p object hne hp =>
    h'.retains p object hne (h.retains p object hne hp)⟩
  rw [h'.rest, h.rest]

/-- Where no object changed, any may have. -/
theorem changing (h : realm.Grows none n after) (o : ObjectId) : realm.Grows (some o) n after :=
  ⟨h.rest, h.size, fun p object _ hp => h.retains p object nofun hp⟩

theorem intrinsics (h : realm.Grows changed n after) : after.intrinsics = realm.intrinsics := by
  rw [h.rest]

theorem not_atLimit (h : realm.Grows changed n after) (hl : ¬realm.deeper.deeper.AtLimit) :
    ¬after.deeper.deeper.AtLimit := by
  rw [h.rest]
  exact hl

/-- What is stored above the object that changed represents what it did. -/
theorem represents (h : realm.Grows changed n after) {least least' : Nat}
    (hv : realm.Represents least v t) (hle : least' ≤ least)
    (hchanged : ∀ o, changed = some o → o.index < least) : after.Represents least' v t :=
  hv.transport h.intrinsics hle fun p object hp hobject => h.retains p object (fun heq =>
    Nat.not_lt.mpr hp (hchanged p heq)) hobject

theorem retained (h : realm.Grows none n after) : realm.Retains after :=
  fun o object => h.retains o object nofun

end Realm.Grows

/-- What is not there to replace objects or arrays is not there later. -/
theorem Realm.LacksReplacement.retained {realm after : Realm H} {n m : Nat}
    (h : realm.LacksReplacement n) (hg : realm.Grows none m after) : after.LacksReplacement n := by
  obtain ⟨⟨i, hi, hobject⟩, ⟨j, hj, harray⟩⟩ := h
  refine ⟨⟨i, hi, ?_⟩, ⟨j, hj, ?_⟩⟩
  · rw [hg.intrinsics]
    exact hobject.retained hg.retained
  · rw [hg.intrinsics]
    exact harray.retained hg.retained

namespace Json

/-- Turning a tree into a value adds the arrays and objects of the tree, which are represented
so. -/
def Builds (H : HostTypes) (t : Json) : Prop :=
  ∀ realm : Realm H, ¬realm.deeper.deeper.AtLimit → ∃ after v,
    (∀ host bound, Gives 3 bound (t.toValue.act (.bounded host bound) realm) (.ok v after))
      ∧ realm.Grows none t.containers after
      ∧ after.Represents realm.heap.size v t.exchanged

theorem toValues_builds {items : List Json} (h : ∀ j ∈ items, j.Builds H) (realm : Realm H)
    (hl : ¬realm.deeper.deeper.AtLimit) :
    ∃ (after : Realm H) (entries : List (Value × Json)),
      (∀ host bound, Gives 3 bound ((toValues items).act (.bounded host bound) realm)
        (.ok (entries.map Prod.fst) after))
      ∧ realm.Grows none (containersOfItems items) after
      ∧ entries.map Prod.snd = items.map exchanged
      ∧ ∀ e ∈ entries, after.Represents realm.heap.size e.1 e.2 := by
  induction items generalizing realm with
  | nil => exact ⟨realm, [], fun _ _ => .of_eq rfl, .refl realm none, rfl, nofun⟩
  | cons j js ih =>
    obtain ⟨hj, h⟩ := List.forall_mem_cons.mp h
    obtain ⟨middle, v, hgives, hgrows, hv⟩ := hj realm hl
    obtain ⟨after, entries, hgives', hgrows', htrees, hentries⟩ :=
      ih h middle (hgrows.not_atLimit hl)
    refine ⟨after, (v, j.exchanged) :: entries, fun host bound => ?_, hgrows.trans hgrows', ?_,
      List.forall_mem_cons.mpr ⟨hgrows'.represents hv (Nat.le_refl _) nofun, fun e he => ?_⟩⟩
    · rw [toValues]
      exact (hgives host bound).bindEngine ((hgives' host bound).bindEngine (.of_eq rfl))
    · rw [List.map_cons, List.map_cons, htrees]
    · refine (hentries e he).transport rfl ?_ fun _ _ _ hp => hp
      rw [hgrows.size]
      exact Nat.le_add_right _ _

open Realm.Represents in
/-- The members of an object are created one after the other, each after the objects of its value.
-/
theorem defineMembers_builds {prototype o : ObjectId} {members : List (String × Json)}
    (h : ∀ m ∈ members, m.2.Builds H) (realm : Realm H) (before : List (String × Value × Json))
    (hnames : (before.map Prod.fst ++ members.map Prod.fst).Nodup)
    (ho : realm.object? o = some (recordOf prototype before))
    (hl : ¬realm.deeper.deeper.AtLimit) :
    ∃ (after : Realm H) (added : List (String × Value × Json)),
      (∀ host bound, Gives 3 bound ((defineMembers o members).act (.bounded host bound) realm)
        (.ok () after))
      ∧ realm.Grows (some o) (containersOfMembers members) after
      ∧ after.object? o = some (recordOf prototype (before ++ added))
      ∧ added.map (fun m => (m.1, m.2.2)) = members.map (fun m => (m.1, m.2.exchanged))
      ∧ ∀ m ∈ added, after.Represents realm.heap.size m.2.1 m.2.2 := by
  induction members generalizing realm before with
  | nil =>
    refine ⟨realm, [], fun _ _ => .of_eq rfl, .refl realm _, ?_, rfl, nofun⟩
    rwa [List.append_nil]
  | cons m members ih =>
    obtain ⟨name, j⟩ := m
    obtain ⟨hm, h⟩ := List.forall_mem_cons.mp h
    have hindex := Realm.index_lt_of_object? ho
    obtain ⟨middle, v, hgives, hgrows, hv⟩ := hm realm hl
    -- the member is created once its value is there
    have hnew : name ∉ (before.map fun m => (m.1, m.2.1)).map Prod.fst := by
      rw [List.map_map]
      exact fun hmem => (List.nodup_append.mp hnames).2.2 _ hmem _ List.mem_cons_self rfl
    have hmiddle := hgrows.retains o _ nofun ho
    have hdefines : (recordOf prototype before : Object H).Defines (.ofString name) (.plain v)
        (recordOf prototype (before ++ [(name, v, j.exchanged)])) true := by
      rw [recordOf, recordOf, List.map_append]
      exact Object.defines_member hnew
    have hgrows' := (hgrows.changing o).trans (Realm.Grows.putObject middle o
      (recordOf prototype (before ++ [(name, v, j.exchanged)])))
    obtain ⟨after, added, hgives', hgrows'', hafter, htrees, hadded⟩ := ih h
      (middle.putObject o (recordOf prototype (before ++ [(name, v, j.exchanged)])))
      (before ++ [(name, v, j.exchanged)]) (by simpa using hnames)
      (Realm.object?_putObject_self hmiddle) (hgrows'.not_atLimit hl)
    refine ⟨after, (name, v, j.exchanged) :: added, fun host bound => ?_, hgrows'.trans hgrows'',
      ?_, ?_, List.forall_mem_cons.mpr ⟨?_, fun m hm => ?_⟩⟩
    · rw [defineMembers]
      exact (hgives host bound).bindEngine (((hdefines.createDataProperty_gives hmiddle rfl
        (hgrows.not_atLimit hl)).bindEngine (hgives' host bound)))
    · rwa [List.append_assoc] at hafter
    · rw [List.map_cons, List.map_cons, htrees]
    · have hput := (Realm.Grows.putObject middle o (recordOf prototype (before ++
        [(name, v, j.exchanged)]))).represents hv (Nat.le_refl _)
          fun p hp => by cases hp; exact hindex
      exact hgrows''.represents hput (Nat.le_refl _) fun p hp => by cases hp; exact hindex
    · refine (hadded m hm).transport rfl ?_ fun _ _ _ hp => hp
      rw [hgrows'.size]
      exact Nat.le_add_right _ _

/-- An array is built once its items are. -/
theorem Builds.array {items : List Json} (hlength : items.length < Number.twoPow 32)
    (h : ∀ j ∈ items, j.Builds H) : (Json.array items).Builds H := by
  intro realm hl
  obtain ⟨middle, entries, hgives, hgrows, htrees, hentries⟩ := toValues_builds h realm hl
  have hcount : entries.length = items.length := by
    simpa using congrArg List.length htrees
  obtain ⟨array, hstores, hrest, hgives'⟩ := arrayOfList_gives (entries.map Prod.fst)
    (by rwa [List.length_map, hcount]) (hgrows.not_atLimit hl)
  have hpush := Realm.Grows.push middle array none
  refine ⟨middle.push array, .object ⟨middle.heap.size⟩, fun host bound => ?_,
    hgrows.trans hpush, ?_⟩
  · rw [toValue]
    exact (hgives host bound).bindEngine ((hgives' host bound).bindEngine (.of_eq rfl))
  · rw [exchanged_array, ← htrees]
    refine .array ?_ (middle.object?_push_self array) (by rwa [List.length_map] at hstores) hrest
      fun e he => hpush.represents (hentries e he) (Nat.le_refl _) nofun
    rw [hgrows.size]
    exact Nat.le_add_right _ _

/-- An object is built by an empty one that is given its members. -/
theorem Builds.object {members : List (String × Json)} (hnames : (members.map Prod.fst).Nodup)
    (h : ∀ m ∈ members, m.2.Builds H) : (Json.object members).Builds H := by
  intro realm hl
  let o : ObjectId := ⟨realm.heap.size⟩
  let empty : Object H :=
    Realm.Represents.recordOf (realm.intrinsics.get .objectPrototype) []
  have hpush := Realm.Grows.push realm empty (some o)
  obtain ⟨after, added, hgives, hgrows, hafter, htrees, hadded⟩ := defineMembers_builds h
    (realm.push empty) [] hnames (realm.object?_push_self empty) (hpush.not_atLimit hl)
  have hgrows := hpush.trans hgrows
  refine ⟨after, .object o, fun host bound => ?_, ⟨hgrows.rest, ?_, fun p existing _ hp =>
    hgrows.retains p existing ?_ hp⟩, ?_⟩
  · have hnew : (newPlain : Engine H ObjectId).act (.bounded host bound) realm
        = .ok o (realm.push empty) := rfl
    rw [toValue]
    exact Gives.bindEngine (.of_eq hnew) ((hgives host bound).bindEngine (.of_eq rfl))
  · rw [hgrows.size, containers, Nat.add_comm 1]
  · -- the new object was not there before
    rintro ⟨⟩
    exact Nat.lt_irrefl _ (Realm.index_lt_of_object? hp)
  · have hnodup : (added.map Prod.fst).Nodup := by
      have heq := congrArg (List.map Prod.fst) htrees
      rw [List.map_map, List.map_map] at heq
      exact heq ▸ hnames
    rw [exchanged_object, ← htrees]
    refine .object (Nat.le_refl _) ?_ hnodup fun m hm => ?_
    · rw [hgrows.intrinsics]
      exact hafter
    · refine (hadded m hm).transport rfl ?_ fun _ _ _ hp => hp
      rw [hpush.size]
      exact Nat.le_add_right _ _

/-- Turning a tree into a value. -/
theorem WellFormed.builds {P : Float → Prop} (hP : ∀ x, P x → x.isFinite) {depth : Nat} {t : Json}
    (h : t.WellFormed P depth) : t.Builds H := by
  induction h with
  | null => exact fun realm _ => ⟨realm, .null, fun _ _ => .of_eq rfl, .refl realm none, .null⟩
  | bool b =>
    exact fun realm _ => ⟨realm, .bool b, fun _ _ => .of_eq rfl, .refl realm none, .bool b⟩
  | @number _ n hn =>
    exact fun realm _ => ⟨realm, .number n.toFloat, fun _ _ => .of_eq rfl, .refl realm none,
      .number (hP _ hn)⟩
  | string s =>
    exact fun realm _ => ⟨realm, .string s, fun _ _ => .of_eq rfl, .refl realm none, .string s⟩
  | array hlength _ ih => exact .array hlength ih
  | object hnames _ ih => exact .object hnames ih

end Json

end ScriptEngine
