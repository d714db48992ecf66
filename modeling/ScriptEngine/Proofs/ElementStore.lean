import ScriptEngine.Builtin.Array.Basic
import ScriptEngine.Proofs.ArrayLike
import ScriptEngine.Proofs.DataProperty
import ScriptEngine.Proofs.StoredLength

/-!
# Arrays as stores of elements

An array of writable, enumerable and configurable elements is determined, as far as its elements
are concerned, by a function from indices to optional values and a length. Storing, deleting and
setting the length act on the function, and leave everything else of the object alone.

## Main definitions

* `Object.Stores`: the elements and the length of an array.
* `Object.SharesRest`: two objects that differ in no more than elements and length.

## Main results

* `Object.Stores.unique`: an array has one function and one length.
* `Object.Stores.exists_defines_element`, `Object.Stores.deleted`,
  `Object.Stores.exists_defines_length`: what the three kinds of requests make of an array.
* `Object.Stores.createElement_gives`: creating an element.
-/

namespace ScriptEngine

open Engine

variable {H : HostTypes}

namespace Object

/-- An array that can be extended, whose length can be written, and whose elements are all writable,
enumerable and configurable. -/
structure Stores (object : Object H) (f : Nat → Option Value) (n : Nat) : Prop where
  isArray : object.kind = .array
  extensible : object.extensible
  length : object.properties.HasLength n true
  element : ∀ i : ArrayIndex, object.properties.get? (.index i) = (f i.val).map Descriptor.plain
  above : ∀ i, n ≤ i → f i = none

/-- Two objects that differ in no more than elements and length. -/
structure SharesRest (object after : Object H) : Prop where
  rest : after = { object with properties := after.properties }
  others : ∀ k, k.index? = none → k ≠ lengthKey →
    after.properties.get? k = object.properties.get? k

variable {object middle after : Object H} {f g : Nat → Option Value} {n m : Nat} {i : ArrayIndex}
  {d : Descriptor} {v : Value}

theorem SharesRest.refl (object : Object H) : object.SharesRest object :=
  ⟨rfl, fun _ _ _ => rfl⟩

theorem SharesRest.trans (h : object.SharesRest middle) (h' : middle.SharesRest after) :
    object.SharesRest after := by
  refine ⟨?_, fun k hk hne => (h'.others k hk hne).trans (h.others k hk hne)⟩
  rw [h'.rest, h.rest]

theorem SharesRest.prototype (h : object.SharesRest after) :
    after.prototype = object.prototype := by
  rw [h.rest]

/-! ### What a request leaves alone -/

theorem rest_defined (k : PropertyKey) :
    object.defined k d = { object with properties := (object.defined k d).properties } := by
  unfold Object.defined
  split
  · rfl
  · rfl

theorem rest_deleted (k : PropertyKey) :
    object.deleted k = { object with properties := (object.deleted k).properties } := by
  unfold Object.deleted
  split
  · rfl
  · rfl

theorem rest_deleteElements (is : List ArrayIndex) : (object.deleteElements is).1
    = { object with properties := (object.deleteElements is).1.properties } := by
  induction is generalizing object with
  | nil => rfl
  | cons i is ih =>
    unfold deleteElements
    split
    · rw [ih, rest_deleted]
    · rfl

theorem rest_settleLength (remaining : Option ArrayIndex) : (object.settleLength d remaining).1
    = { object with properties := (object.settleLength d remaining).1.properties } := by
  cases remaining with
  | some i => exact rest_defined lengthKey
  | none =>
    by_cases hw : d.writable = some false
    · simp only [settleLength, hw, if_true]
      exact rest_defined lengthKey
    · simp only [settleLength, hw, if_false]

theorem rest_lowerLength (length : Nat) : (object.lowerLength d length).1
    = { object with properties := (object.lowerLength d length).1.properties } := by
  unfold lowerLength
  split
  · dsimp only
    rw [rest_settleLength, rest_deleteElements]
    rfl
  · rfl

namespace Stores

theorem hasCount (h : object.Stores f n) : object.HasCount n :=
  ⟨h.isArray, ⟨true, h.length.stored⟩, h.length.small⟩

theorem isPlain (h : object.Stores f n) : object.kind.isPlain := h.hasCount.isPlain

theorem kind_isArray (h : object.Stores f n) : object.kind.isArray := by
  rw [h.isArray]
  rfl

theorem unitless (h : object.Stores f n) : object.Unitless :=
  unitless_of_isArray h.kind_isArray

theorem ownProperty?_eq (h : object.Stores f n) (k : PropertyKey) :
    object.ownProperty? k = object.properties.get? k :=
  ownProperty?_of_unitProperty?_eq_none (h.unitless k)

theorem ownProperty?_index (h : object.Stores f n) (i : ArrayIndex) :
    object.ownProperty? (.index i) = (f i.val).map Descriptor.plain :=
  (h.ownProperty?_eq _).trans (h.element i)

/-- An array has one function and one length. -/
theorem unique (h : object.Stores f n) (h' : object.Stores g m) : f = g ∧ n = m := by
  obtain rfl := h.hasCount.unique h'.hasCount
  refine ⟨funext fun j => ?_, rfl⟩
  by_cases hj : n ≤ j
  · rw [h.above j hj, h'.above j hj]
  · have hle := h.hasCount.le_maxIndex (Nat.not_le.mp hj)
    have hmap : (f j).map Descriptor.plain = (g j).map Descriptor.plain :=
      (h.element ⟨j, Nat.lt_succ_of_le hle⟩).symm.trans (h'.element _)
    exact Option.map_injective (fun v w hvw => Option.some.inj (congrArg Descriptor.value hvw)) hmap

/-- What has to be said of the storage. -/
theorem of_get? (hkind : object.kind = .array) (he : object.extensible)
    (hlength : object.properties.get? lengthKey = some (.data (.nat n) true false false))
    (hsmall : n < Number.twoPow 32)
    (helement : ∀ i : ArrayIndex,
      object.properties.get? (.index i) = (f i.val).map Descriptor.plain)
    (habove : ∀ i, n ≤ i → f i = none) : object.Stores f n := by
  refine ⟨hkind, he, ⟨hlength, hsmall, fun j hj => Nat.not_le.mp fun hle => ?_⟩, helement, habove⟩
  rw [helement, habove _ hle] at hj
  cases hj

theorem map_update (f : Nat → Option Value) (i j : ArrayIndex) (v? : Option Value) :
    (Function.update f i.val v? j.val).map Descriptor.plain
      = if PropertyKey.index j = .index i then v?.map Descriptor.plain
        else (f j.val).map Descriptor.plain := by
  rw [Function.update_apply, apply_ite (Option.map Descriptor.plain)]
  simp only [PropertyKey.index.injEq, Fin.ext_iff]

/-! ### Elements -/

/-- A request that leads to an element with all its attributes, whether it is new or not. -/
def IsWrite (f : Nat → Option Value) (i : ArrayIndex) (v : Value) (d : Descriptor) : Prop :=
  d = .plain v ∨ d = .ofValue v ∧ (f i.val).isSome

theorem accepts_element (h : object.Stores f n) (hd : IsWrite f i v d) :
    object.accepts (.index i) d
      ∧ d.definedOver (object.properties.get? (.index i)) = .plain v := by
  rw [accepts, h.element]
  cases hf : f i.val with
  | none =>
    obtain rfl : d = .plain v := hd.resolve_right fun h => by simp [hf] at h
    exact ⟨h.extensible, rfl⟩
  | some w =>
    rcases hd with rfl | ⟨rfl, -⟩
    · exact ⟨rfl, Descriptor.definedOver_data_value v⟩
    · exact ⟨rfl, rfl⟩

/-- Storing an element raises the length above it. -/
theorem exists_defines_element (h : object.Stores f n) (hd : IsWrite f i v d) :
    ∃ after, object.Defines (.index i) d after true
      ∧ after.Stores (Function.update f i.val (some v)) (max n (i.val + 1))
      ∧ object.SharesRest after := by
  obtain ⟨ha, hstored⟩ := h.accepts_element hd
  have hc := h.length.stored
  have hdone : (object.defineElement (.data (.nat n) true false false) i d).2 = true :=
    (defineElement_done_iff h.kind_isArray hc).mpr ⟨ha, (hasRoomFor_iff h.kind_isArray hc).mpr
      fun _ => rfl⟩
  have hafter := defineElement_of_done h.kind_isArray hc rfl hdone
  have hdefines := Defines.element i _ h.kind_isArray hc (d := d)
  rw [hdone, hafter] at hdefines
  have hget (k : PropertyKey) : (object.define (.index i) d).properties.get? k
      = if k = .index i then some (.plain v) else object.properties.get? k := by
    rw [define, PropertyMap.define, PropertyMap.get?_insert, hstored]
  have hkey (k : PropertyKey) (hk : k.index? = none) : k ≠ .index i := by
    rintro rfl
    cases hk
  refine ⟨_, hdefines, .of_get? h.isArray h.extensible ?_
    (Nat.max_lt.mpr ⟨h.length.small, i.succ_lt_twoPow⟩) (fun j => ?_) (fun j hj => ?_),
    rfl, fun k hk hne => ?_⟩
  · rw [PropertyMap.get?_modify, if_pos rfl, hget, if_neg (hkey _ rfl), hc, Option.map_some,
      ArrayObject.raisedTo_data, ArrayObject.lengthOf_eq h.length.small rfl]
    congr 2
    split
    · next hlt => rw [Nat.max_eq_right (Nat.le_of_lt hlt)]
    · next hlt => rw [Nat.max_eq_left (Nat.not_lt.mp hlt)]
  · rw [PropertyMap.get?_modify, if_neg (by simp [lengthKey]), hget, map_update, h.element]
    rfl
  · rw [Function.update_of_ne (by omega), h.above j (by omega)]
  · rw [PropertyMap.get?_modify, if_neg hne, hget, if_neg (hkey k hk)]

/-- Every element can be deleted. -/
theorem deletes (h : object.Stores f n) (i : ArrayIndex) : object.deletes (.index i) := by
  rw [deletes_iff h.unitless, h.element]
  intro d hd
  obtain ⟨v, -, rfl⟩ := Option.map_eq_some_iff.mp hd
  rfl

/-- Deleting an element leaves a hole. -/
theorem deleted (h : object.Stores f n) (i : ArrayIndex) :
    (object.deleted (.index i)).Stores (Function.update f i.val none) n
      ∧ object.SharesRest (object.deleted (.index i)) := by
  have hget := get?_deleted h.unitless (h.deletes i)
  have hrest : object.deleted (.index i)
      = { object with properties := (object.deleted (.index i)).properties } := rest_deleted _
  refine ⟨.of_get? (by rw [kind_deleted, h.isArray]) (by rw [hrest]; exact h.extensible) ?_
    h.length.small (fun j => ?_) (fun j hj => ?_), hrest, fun k hk hne => ?_⟩
  · rw [hget, if_neg (by simp [lengthKey]), h.length.stored]
  · rw [hget, map_update, h.element]
    rfl
  · rw [Function.update_apply, h.above j hj, ite_self]
  · rw [hget, if_neg fun heq => by rw [heq] at hk; cases hk]

/-! ### The length -/

/-- A natural number is a length. -/
theorem nat_isLength (hm : m < Number.twoPow 32) :
    (Value.nat m).IsLength H m (Float.ofNat m) where
  number := fun _ _ => rfl
  small := hm
  same := Number.beq_self_of_isFinite
    (Number.isInteger_ofNat (Nat.lt_trans hm (by decide))).isFinite

/-- Setting the length removes what is above it. -/
theorem exists_defines_length (h : object.Stores f n) (hm : m < Number.twoPow 32) :
    ∃ after, object.Defines lengthKey (.ofValue (.nat m)) after true
      ∧ after.Stores (fun i => if i < m then f i else none) m ∧ object.SharesRest after := by
  have hc := h.length.stored
  have hd : (Descriptor.ofValue (.nat m)).isValid := rfl
  have ha : object.accepts lengthKey (.ofValue (.nat m)) :=
    (accepts_lengthKey_iff hc hd).mpr ⟨⟨rfl, rfl⟩, .inl rfl, .inl rfl⟩
  have hdefines := Defines.length (d := .ofValue (.nat m)) h.kind_isArray hc rfl (nat_isLength hm)
  have hlengthOf : ArrayObject.lengthOf (.data (.nat n) true false false) = n :=
    ArrayObject.lengthOf_eq h.length.small rfl
  by_cases hle : n ≤ m
  · have hset : object.setLength (.data (.nat n) true false false) (.ofValue (.nat m)) m
        = (object.define lengthKey (.ofValue (.nat m)), true) := by
      rw [Object.setLength, hlengthOf, if_pos hle]
      exact Prod.ext (defined_of_accepts ha) ha
    have hget := get?_define_lengthKey hc hd ha
    rw [hset] at hdefines
    refine ⟨_, hdefines, .of_get? h.isArray h.extensible ?_ hm (fun j => ?_) (fun j hj => ?_), rfl,
      fun k hk hne => ?_⟩
    · rw [hget, if_pos rfl]
      rfl
    · rw [hget, if_neg (by simp [lengthKey]), h.element]
      split
      · rfl
      · next hlt => rw [h.above _ (by omega)]
    · rw [if_neg (Nat.not_lt.mpr hj)]
    · rw [hget, if_neg hne]
  · have hset : object.setLength (.data (.nat n) true false false) (.ofValue (.nat m)) m
        = object.lowerLength (.ofValue (.nat m)) m := by
      rw [Object.setLength, hlengthOf, if_neg hle]
      rfl
    obtain ⟨hdone, hlength, hcut⟩ := lowerLength_of_forall_deletes h.length hd rfl ha
      h.kind_isArray (Nat.not_le.mp hle) fun i _ => h.deletes i
    have hrest : (object.lowerLength (.ofValue (.nat m)) m).1 = { object with
        properties := (object.lowerLength (.ofValue (.nat m)) m).1.properties } :=
      rest_lowerLength m
    rw [hset, hdone] at hdefines
    refine ⟨_, hdefines, .of_get? (by rw [kind_lowerLength, h.isArray])
      (by rw [hrest]; exact h.extensible) hlength.stored hm (fun j => ?_) (fun j hj => ?_), hrest,
      hcut.other⟩
    · rw [hcut.index, h.element, apply_ite (Option.map Descriptor.plain)]
      rfl
    · rw [if_neg (Nat.not_lt.mpr hj)]

end Stores

end Object

theorem Object.sharesRest_emptyArray (prototype : ObjectId) (n m : Nat) :
    (Object.emptyArray prototype n : Object H).SharesRest (.emptyArray prototype m) :=
  ⟨rfl, fun _ _ hne => (PropertyMap.get?_insert_of_ne hne ..).trans
    (PropertyMap.get?_insert_of_ne hne ..).symm⟩

/-! ### Creating elements -/

/-- A run of elements written over others. -/
def overwrite (f : Nat → Option Value) (start : Nat) (vs : List Value) : Nat → Option Value :=
  fun j => if start ≤ j ∧ j < start + vs.length then vs[j - start]? else f j

theorem overwrite_nil (f : Nat → Option Value) (start : Nat) : overwrite f start [] = f :=
  funext fun j => if_neg fun h => by simp at h; omega

theorem overwrite_cons (f : Nat → Option Value) (start : Nat) (v : Value) (vs : List Value) :
    overwrite f start (v :: vs) = overwrite (Function.update f start (some v)) (start + 1) vs := by
  funext j
  unfold overwrite
  rw [List.length_cons]
  by_cases heq : j = start
  · subst heq
    rw [if_pos (by omega), if_neg (by omega), Function.update_self, Nat.sub_self]
    rfl
  · rw [Function.update_of_ne heq]
    by_cases hj : start + 1 ≤ j ∧ j < start + 1 + vs.length
    · have hsub : j - start = (j - (start + 1)) + 1 := by omega
      rw [if_pos (by omega), if_pos hj, hsub, List.getElem?_cons_succ]
    · rw [if_neg (by omega), if_neg hj]

/-- A list of elements and nothing before it. -/
theorem overwrite_none (vs : List Value) : overwrite (fun _ => none) 0 vs = fun j => vs[j]? := by
  funext j
  unfold overwrite
  split
  · rfl
  · next h => exact (List.getElem?_eq_none (by omega)).symm

theorem Object.Stores.emptyArray (prototype : ObjectId) {n : Nat} (hn : n < Number.twoPow 32) :
    (Object.emptyArray prototype n : Object H).Stores (fun _ => none) n where
  isArray := rfl
  extensible := rfl
  length := Object.hasLength_emptyArray prototype hn
  element := fun i => by
    have hne : PropertyKey.index i ≠ lengthKey := by simp [lengthKey]
    exact (PropertyMap.get?_insert_of_ne hne ..).trans (PropertyMap.get?_empty _)
  above := fun _ _ => rfl

/-- An object with an element. -/
def Object.withElement (object : Object H) (i : ArrayIndex) (v : Value) : Object H :=
  { object with properties := object.properties.insert (.index i) (.plain v) }

/-- An element below the length does not change the length. -/
theorem Object.Stores.withElement {object : Object H} {f : Nat → Option Value} {n : Nat}
    {i : ArrayIndex} (h : object.Stores f n) (hi : i.val < n) (v : Value) :
    (object.withElement i v).Stores (Function.update f i.val (some v)) n := by
  have hne : lengthKey ≠ .index i := by simp [lengthKey]
  refine .of_get? h.isArray h.extensible ?_ h.length.small (fun j => ?_) fun j hj => ?_
  · exact (PropertyMap.get?_insert_of_ne hne ..).trans h.length.stored
  · rw [Object.withElement, PropertyMap.get?_insert, map_update, h.element]
    rfl
  · rw [Function.update_of_ne (by omega), h.above j hj]

section Create

variable {host : Host H} {bound n i : Nat} {realm : Realm H} {o : ObjectId} {object : Object H}
  {f : Nat → Option Value}

/-- Creating an element. -/
theorem Object.Stores.createElement_gives (h : object.Stores f n)
    (ho : realm.object? o = some object) (hi : i ≤ PropertyKey.maxIndex)
    (hl : ¬realm.deeper.deeper.AtLimit) (v : Value) :
    ∃ after : Object H, after.Stores (Function.update f i (some v)) (max n (i + 1))
      ∧ object.SharesRest after
      ∧ ∀ host bound, Gives 3 bound ((o.createElement i v).act (.bounded host bound) realm)
        (.ok () (realm.putObject o after)) := by
  obtain ⟨after, hdefines, hstores, hrest⟩ :=
    h.exists_defines_element (i := ⟨i, Nat.lt_succ_of_le hi⟩) (v := v) (.inl rfl)
  refine ⟨after, hstores, hrest, fun host bound => ?_⟩
  rw [ObjectId.createElement, PropertyKey.ofNat_eq_index hi]
  exact hdefines.createDataProperty_gives ho h.isPlain hl

/-- Creating a run of elements from an index on. -/
theorem Object.Stores.createElements_gives (vs : List Value) (h : object.Stores f n)
    (ho : realm.object? o = some object) (hi : i ≤ n) (hlt : i + vs.length < Number.twoPow 32)
    (hl : ¬realm.deeper.deeper.AtLimit) :
    ∃ after : Object H, after.Stores (overwrite f i vs) (max n (i + vs.length))
      ∧ object.SharesRest after
      ∧ ∀ host bound, Gives 3 bound ((o.createElements i vs).act (.bounded host bound) realm)
        (.ok () (realm.putObject o after)) := by
  induction vs generalizing f n i realm object with
  | nil =>
    refine ⟨object, ?_, .refl object, fun host bound => .of_eq ?_⟩
    · rwa [overwrite_nil, List.length_nil, Nat.add_zero, Nat.max_eq_left hi]
    · rw [Realm.putObject_self ho]
      rfl
  | cons v vs ih =>
    rw [List.length_cons] at hlt
    have hmax : Number.twoPow 32 = PropertyKey.maxIndex + 2 := by decide
    obtain ⟨middle, hmiddle, hrest, hfirst⟩ := h.createElement_gives ho (by omega) hl v (i := i)
    obtain ⟨after, hafter, hrest', hothers⟩ := ih hmiddle (Realm.object?_putObject_self ho)
      (i := i + 1) (by omega) (by omega) hl
    have hcount : max (max n (i + 1)) (i + 1 + vs.length) = max n (i + (vs.length + 1)) := by omega
    rw [← overwrite_cons, hcount] at hafter
    refine ⟨after, hafter, hrest.trans hrest', fun host bound => (hfirst host bound).bindEngine ?_⟩
    have hothers := hothers host bound
    rwa [Realm.putObject_putObject] at hothers

/-- A new array of given elements is the only thing that is new. -/
theorem arrayOfList_gives (vs : List Value) (hlt : vs.length < Number.twoPow 32)
    (hl : ¬realm.deeper.deeper.AtLimit) :
    ∃ array : Object H, array.Stores (fun j => vs[j]?) vs.length
      ∧ (Object.emptyArray (realm.intrinsics.get .arrayPrototype) 0).SharesRest array
      ∧ ∀ host bound, Gives 3 bound ((arrayOfList vs).act (.bounded host bound) realm)
        (.ok ⟨realm.heap.size⟩ (realm.push array)) := by
  let empty : Object H := .emptyArray (realm.intrinsics.get .arrayPrototype) 0
  have hempty : empty.Stores (fun _ => none) 0 := .emptyArray _ (by decide)
  obtain ⟨array, harray, hrest, hgives⟩ := hempty.createElements_gives vs
    (realm.object?_push_self empty) (Nat.le_refl 0) (by omega) hl
  rw [overwrite_none, Nat.zero_add, Nat.max_eq_right (Nat.zero_le _)] at harray
  refine ⟨array, harray, hrest, fun host bound => ?_⟩
  have hnew : (arrayCreate 0 : Engine H ObjectId).act (.bounded host bound) realm
      = .ok ⟨realm.heap.size⟩ (realm.push empty) := rfl
  refine Gives.bindEngine (.of_eq hnew) ((hgives host bound).bindEngine (.of_eq ?_))
  rw [Realm.push, Realm.putObject_push]
  rfl

end Create

end ScriptEngine
