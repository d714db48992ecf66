import ScriptEngine.Proofs.ArrayObject
import ScriptEngine.Proofs.Descriptor
import ScriptEngine.Proofs.Integer

/-!
# Lengths and indices of arrays

An array in order stays in order under each of its methods, and lowering the length removes exactly
the elements from the new length on, or, if one of these cannot be deleted, those above the last
such one.

## Main definitions

* `PropertyMap.CutAt`: a map without the indices from some number on.

## Main results

* `Object.deleteElements_of_forall_deletes`, `Object.deleteElements_of_not_deletes`: what deleting
  elements one by one comes to.
* `Object.lowerLength_of_forall_deletes`, `Object.lowerLength_of_not_deletes`: the exact effect of
  lowering the length.
* `Object.InOrder.setLength`, `Object.InOrder.defineElement`: the methods keep an array in order.
-/

namespace ScriptEngine

variable {H : HostTypes}

/-! ### The indices of a map -/

theorem ArrayIndex.succ_lt_twoPow (i : ArrayIndex) : i.val + 1 < Number.twoPow 32 := by
  have hlt : i.val < 2 ^ 32 - 2 + 1 := i.isLt
  change i.val + 1 < 2 ^ 32
  omega

/-- The greatest index of which something does not hold. -/
theorem ArrayIndex.exists_greatest (P : ArrayIndex → Prop) {i : ArrayIndex} (hi : ¬P i) :
    ∃ m, i ≤ m ∧ ¬P m ∧ ∀ j, m < j → P j := by
  by_cases h : ∀ j, i < j → P j
  · exact ⟨i, Nat.le_refl _, hi, h⟩
  · obtain ⟨j, hj⟩ := Classical.not_forall.mp h
    obtain ⟨hij, hj⟩ := Classical.not_imp.mp hj
    obtain ⟨m, hjm, hm⟩ := ArrayIndex.exists_greatest P hj
    exact ⟨m, Nat.le_trans (Nat.le_of_lt hij) hjm, hm⟩
termination_by PropertyKey.maxIndex - i.val
decreasing_by
  have hlt := j.isLt
  have hij' : i.val < j.val := hij
  omega

namespace PropertyMap

theorem mem_map_fst_iff (i : ArrayIndex) (entries : List (ArrayIndex × Descriptor)) :
    i ∈ entries.map Prod.fst ↔ (OrderedMap.lookup i entries).isSome := by
  induction entries with
  | nil => simp [OrderedMap.lookup]
  | cons e rest ih =>
    rw [List.map_cons, List.mem_cons, ih, OrderedMap.lookup]
    split
    · next heq => simp [heq]
    · next hne => simp [hne]

theorem mem_descendingFrom {m : PropertyMap} {start : Nat} {i : ArrayIndex} :
    i ∈ m.descendingFrom start ↔ start ≤ i.val ∧ (m.get? (.index i)).isSome := by
  rw [descendingFrom, List.mem_reverse, List.mem_filter, mem_map_fst_iff, and_comm]
  simp [get?]

theorem descendingFrom_pairwise (m : PropertyMap) (start : Nat) :
    (m.descendingFrom start).Pairwise fun i j => j < i := by
  rw [descendingFrom, List.pairwise_reverse]
  refine List.Pairwise.filter _ ?_
  rw [List.pairwise_map]
  exact m.ascending

/-- A map without the indices from some number on. -/
structure CutAt (m after : PropertyMap) (length : Nat) : Prop where
  index : ∀ i, after.get? (.index i) = if i.val < length then m.get? (.index i) else none
  other : ∀ k, k.index? = none → k ≠ lengthKey → after.get? k = m.get? k

/-- A length that is written while exactly the indices from it on are removed. -/
theorem hasLength_and_cutAt {m after : PropertyMap} {length : Nat} {writable : Bool}
    (removed : List ArrayIndex) (hsmall : length < Number.twoPow 32)
    (hget : ∀ k, after.get? k
      = if k = lengthKey then some (.data (.nat length) writable false false)
        else if k ∈ removed.map .index then none else m.get? k)
    (hremoved : ∀ i ∈ removed, length ≤ i.val)
    (hall : ∀ i : ArrayIndex, length ≤ i.val → (m.get? (.index i)).isSome → i ∈ removed) :
    after.HasLength length writable ∧ m.CutAt after length := by
  have hindex : ∀ i : ArrayIndex,
      after.get? (.index i) = if i.val < length then m.get? (.index i) else none := by
    intro i
    have hne : PropertyKey.index i ≠ lengthKey := by simp [lengthKey]
    have hmem : PropertyKey.index i ∈ removed.map .index ↔ i ∈ removed := by simp
    rw [hget, if_neg hne]
    simp only [hmem]
    split
    · next hi => rw [if_neg (Nat.not_lt.mpr (hremoved i hi))]
    · next hi =>
      split
      · rfl
      · next hlt =>
        have hnone := mt (hall i (Nat.not_lt.mp hlt)) hi
        simpa using hnone
  refine ⟨⟨?_, hsmall, fun i hi => ?_⟩, hindex, fun k hk hne => ?_⟩
  · rw [hget, if_pos rfl]
  · rw [hindex] at hi
    split at hi
    · assumption
    · cases hi
  · have hmem : k ∉ removed.map .index := by
      intro hmem
      obtain ⟨i, -, rfl⟩ := List.mem_map.mp hmem
      cases hk
    rw [hget, if_neg hne, if_neg hmem]

end PropertyMap

/-! ### Deleting elements -/

namespace Object

variable {object : Object H} {is : List ArrayIndex} {m : ArrayIndex}

/-- The object shows no code units as properties. -/
def Unitless (object : Object H) : Prop := ∀ k, object.kind.unitProperty? k = none

theorem unitless_of_isArray (h : object.kind.isArray) : object.Unitless := by
  refine ObjectKind.unitProperty?_eq_none fun text heq => ?_
  rw [heq] at h
  cases h

theorem Unitless.deleted (h : object.Unitless) (k : PropertyKey) : (object.deleted k).Unitless := by
  intro k'
  rw [kind_deleted]
  exact h k'

theorem deletes_iff (hu : object.Unitless) {k : PropertyKey} :
    object.deletes k ↔ ∀ d, object.properties.get? k = some d → d.isConfigurable := by
  rw [deletes, ownProperty?_of_unitProperty?_eq_none (hu k)]
  cases object.properties.get? k with
  | none => simp
  | some d => simp

theorem get?_deleted (hu : object.Unitless) {k : PropertyKey} (h : object.deletes k)
    (k' : PropertyKey) : (object.deleted k).properties.get? k'
      = if k' = k then none else object.properties.get? k' := by
  rw [deletes, ownProperty?_of_unitProperty?_eq_none (hu k)] at h
  rw [deleted, ownProperty?_of_unitProperty?_eq_none (hu k)]
  cases hk : object.properties.get? k with
  | none =>
    rw [Option.any_none, if_neg Bool.false_ne_true]
    split
    · next heq => rw [heq, hk]
    · rfl
  | some d =>
    rw [hk, Option.all_some] at h
    rw [Option.any_some, if_pos h]
    exact PropertyMap.get?_erase object.properties k k'

theorem deletes_deleted_of_ne (hu : object.Unitless) {k k' : PropertyKey} (h : object.deletes k)
    (hne : k' ≠ k) : (object.deleted k).deletes k' ↔ object.deletes k' := by
  rw [deletes_iff hu, deletes_iff (hu.deleted k), get?_deleted hu h, if_neg hne]

/-- All elements of a list are deleted if each of them can be. -/
theorem deleteElements_of_forall_deletes (hu : object.Unitless)
    (hp : is.Pairwise fun i j => j < i) (h : ∀ i ∈ is, object.deletes (.index i)) :
    (object.deleteElements is).2 = none ∧ ∀ k, (object.deleteElements is).1.properties.get? k
      = if k ∈ is.map .index then none else object.properties.get? k := by
  induction is generalizing object with
  | nil => simp [deleteElements]
  | cons i is ih =>
    obtain ⟨hi, his⟩ := List.forall_mem_cons.mp h
    obtain ⟨hlt, hp⟩ := List.pairwise_cons.mp hp
    have hrest : ∀ j ∈ is, (object.deleted (.index i)).deletes (.index j) := fun j hj => by
      have hne : PropertyKey.index j ≠ .index i := by simpa using Fin.ne_of_lt (hlt j hj)
      exact (deletes_deleted_of_ne hu hi hne).mpr (his j hj)
    obtain ⟨hnone, hget⟩ := ih (hu.deleted _) hp hrest
    rw [deleteElements, if_pos hi]
    refine ⟨hnone, fun k => ?_⟩
    rw [hget, get?_deleted hu hi, List.map_cons]
    by_cases hk : k = .index i
    · simp [hk]
    · simp [hk]

/-- Of a descending list of elements, those above the first one that cannot be deleted go. -/
theorem deleteElements_of_not_deletes (hu : object.Unitless) (hp : is.Pairwise fun i j => j < i)
    (hm : m ∈ is) (hstays : ¬object.deletes (.index m))
    (h : ∀ i ∈ is, m < i → object.deletes (.index i)) :
    (object.deleteElements is).2 = some m
      ∧ ∀ k, (object.deleteElements is).1.properties.get? k
        = if k ∈ (is.filter (m < ·)).map .index then none else object.properties.get? k := by
  induction is generalizing object with
  | nil => cases hm
  | cons i is ih =>
    obtain ⟨hlt, hp⟩ := List.pairwise_cons.mp hp
    obtain ⟨hi, his⟩ := List.forall_mem_cons.mp h
    rcases List.mem_cons.mp hm with rfl | hm
    · have hnone : (m :: is).filter (m < ·) = [] := by
        rw [List.filter_eq_nil_iff]
        intro j hj
        rcases List.mem_cons.mp hj with rfl | hj
        · simp
        · simpa using Fin.le_of_lt (hlt j hj)
      rw [deleteElements, if_neg hstays, hnone]
      simp
    · have hmi := hlt m hm
      replace hi := hi hmi
      have hne : ∀ j ∈ is, PropertyKey.index j ≠ .index i := fun j hj => by
        simpa using Fin.ne_of_lt (hlt j hj)
      have hstays' : ¬(object.deleted (.index i)).deletes (.index m) := by
        rwa [deletes_deleted_of_ne hu hi (hne m hm)]
      have hrest : ∀ j ∈ is, m < j → (object.deleted (.index i)).deletes (.index j) :=
        fun j hj hmj => (deletes_deleted_of_ne hu hi (hne j hj)).mpr (his j hj hmj)
      obtain ⟨hsome, hget⟩ := ih (hu.deleted _) hp hm hstays' hrest
      rw [deleteElements, if_pos hi]
      refine ⟨hsome, fun k => ?_⟩
      rw [hget, get?_deleted hu hi, List.filter_cons_of_pos (by simpa using hmi), List.map_cons]
      by_cases hk : k = .index i
      · simp [hk]
      · simp [hk]

end Object

/-! ### Requests for the length -/

namespace Object

variable {object : Object H} {d : Descriptor} {v : Value} {w : Bool} {n : Nat}

theorem accepts_lengthKey_eq
    (hs : object.properties.get? lengthKey = some (.data v w false false)) :
    object.accepts lengthKey d = Descriptor.accepts (.data v w false false) d := by
  rw [accepts, hs, Descriptor.isCompatible]

/-- A request for the length that is accepted changes no more than its value and whether it is
writable. -/
theorem get?_define_lengthKey
    (hs : object.properties.get? lengthKey = some (.data v w false false)) (hd : d.isValid)
    (ha : object.accepts lengthKey d) (k : PropertyKey) :
    (object.define lengthKey d).properties.get? k
      = if k = lengthKey then some (.data (d.value.getD v) (d.writable.getD w) false false)
        else object.properties.get? k := by
  rw [accepts_lengthKey_eq hs] at ha
  rw [define, PropertyMap.define, PropertyMap.get?_insert, hs, Descriptor.definedOver_data hd ha]

/-- Writing a new value to a length that is writable. -/
theorem get?_defined_value {current : Descriptor}
    (hs : object.properties.get? lengthKey = some current) (hc : current.isStorable)
    (hw : current.isWritable) (x : Value) (k : PropertyKey) :
    (object.defined lengthKey { current with value := some x }).properties.get? k
      = if k = lengthKey then some { current with value := some x }
        else object.properties.get? k := by
  obtain ⟨v, w, e, c, rfl⟩ | ⟨g, s, e, c, rfl⟩ := (Descriptor.isStorable_iff current).mp hc
  · obtain rfl : w = true := hw
    have ha : object.accepts lengthKey (.data x true e c) := by
      rw [accepts, hs]
      exact Descriptor.accepts_data_value x
    change (object.defined lengthKey (.data x true e c)).properties.get? k
      = if k = lengthKey then some (.data x true e c) else object.properties.get? k
    rw [defined_of_accepts ha, define, PropertyMap.define, PropertyMap.get?_insert, hs,
      Descriptor.definedOver_data_value]
  · cases hw

/-- What a request for the length has to say for it to be accepted while the length is writable. -/
theorem accepts_lengthKey_iff
    (hs : object.properties.get? lengthKey = some (.data v true false false)) (hd : d.isValid) :
    object.accepts lengthKey d ↔ (d.get = none ∧ d.set = none)
      ∧ (d.configurable = none ∨ d.configurable = some false)
      ∧ (d.enumerable = none ∨ d.enumerable = some false) := by
  rw [accepts_lengthKey_eq hs, Descriptor.accepts_data_iff hd]

end Object

theorem ArrayObject.lowerRequest_isValid {d : Descriptor} (hd : d.isValid)
    (hv : d.value.isSome) : (ArrayObject.lowerRequest d).isValid := by
  unfold ArrayObject.lowerRequest
  split
  · simp_all [Descriptor.isValid, Descriptor.isData, Descriptor.isAccessor]
  · exact hd

theorem getD_true_of_ne {b : Option Bool} (h : b ≠ some false) : b.getD true = true := by
  rcases b with _ | _ | _
  · rfl
  · exact absurd rfl h
  · rfl

theorem ArrayObject.writable_lowerRequest (d : Descriptor) :
    (ArrayObject.lowerRequest d).writable.getD true = true := by
  unfold ArrayObject.lowerRequest
  split
  · rfl
  · next hw => exact getD_true_of_ne hw

theorem ArrayObject.value_lowerRequest (d : Descriptor) :
    (ArrayObject.lowerRequest d).value = d.value := by
  unfold ArrayObject.lowerRequest
  split
  · rfl
  · rfl

theorem Descriptor.isValid_with_value {d : Descriptor} (hd : d.isValid) (hv : d.value.isSome)
    (v : Value) : ({ d with value := some v } : Descriptor).isValid := by
  simp_all [Descriptor.isValid, Descriptor.isData, Descriptor.isAccessor]

namespace Object

variable {cut object : Object H} {d : Descriptor} {v : Value} {n : Nat}

/-- A request for a value is accepted in all its forms while the length is writable. -/
theorem accepts_lowerRequest
    (hs : object.properties.get? lengthKey = some (.data v true false false)) (hd : d.isValid)
    (hv : d.value.isSome) :
    object.accepts lengthKey (ArrayObject.lowerRequest d) ↔ object.accepts lengthKey d := by
  rw [accepts_lengthKey_iff hs hd,
    accepts_lengthKey_iff hs (ArrayObject.lowerRequest_isValid hd hv)]
  unfold ArrayObject.lowerRequest
  split
  · rfl
  · rfl

@[simp] theorem snd_settleLength_none : (cut.settleLength d none).2 = true := by
  rw [settleLength]
  split
  · rfl
  · rfl

theorem get?_settleLength_none
    (hs : cut.properties.get? lengthKey = some (.data v true false false)) (k : PropertyKey) :
    (cut.settleLength d none).1.properties.get? k
      = if k = lengthKey then some (.data v (d.writable.getD true) false false)
        else cut.properties.get? k := by
  by_cases hw : d.writable = some false
  · have ha : cut.accepts lengthKey { writable := some false } :=
      (accepts_lengthKey_iff hs rfl).mpr ⟨⟨rfl, rfl⟩, .inl rfl, .inl rfl⟩
    rw [settleLength, if_pos hw, defined_of_accepts ha, get?_define_lengthKey hs rfl ha, hw]
    rfl
  · rw [settleLength, if_neg hw, getD_true_of_ne hw]
    split
    · next hk => rw [hk, hs]
    · rfl

theorem get?_settleLength_some {i : ArrayIndex}
    (hs : cut.properties.get? lengthKey = some (.data v true false false)) (hd : d.isValid)
    (hv : d.value.isSome)
    (ha : (d.get = none ∧ d.set = none)
      ∧ (d.configurable = none ∨ d.configurable = some false)
      ∧ (d.enumerable = none ∨ d.enumerable = some false)) (k : PropertyKey) :
    (cut.settleLength d (some i)).1.properties.get? k
      = if k = lengthKey then some (.data (.nat (i.val + 1)) (d.writable.getD true) false false)
        else cut.properties.get? k := by
  have hd' := Descriptor.isValid_with_value hd hv (.nat (i.val + 1))
  have ha' := (accepts_lengthKey_iff hs hd').mpr ha
  rw [settleLength, defined_of_accepts ha', get?_define_lengthKey hs hd' ha']
  rfl

section LowerLength

variable {length : Nat} (hlength : object.properties.HasLength length true) (hd : d.isValid)
  (hv : d.value = some (.nat n)) (haccepts : object.accepts lengthKey d)

include hlength hd hv haccepts

/-- The array when the length is written for the first time. -/
theorem get?_define_lowerRequest (k : PropertyKey) :
    (object.define lengthKey (ArrayObject.lowerRequest d)).properties.get? k
      = if k = lengthKey then some (.data (.nat n) true false false)
        else object.properties.get? k := by
  have hsome : d.value.isSome := by rw [hv]; rfl
  have ha := (accepts_lowerRequest hlength.stored hd hsome).mpr haccepts
  have hd' := ArrayObject.lowerRequest_isValid hd hsome
  rw [get?_define_lengthKey hlength.stored hd' ha, ArrayObject.value_lowerRequest, hv,
    ArrayObject.writable_lowerRequest]
  rfl

theorem lowerLength_eq :
    object.lowerLength d n
      = settleLength ((object.define lengthKey (ArrayObject.lowerRequest d)).deleteElements
          (object.properties.descendingFrom n)).1 d
        ((object.define lengthKey (ArrayObject.lowerRequest d)).deleteElements
          (object.properties.descendingFrom n)).2 := by
  have hsome : d.value.isSome := by rw [hv]; rfl
  rw [lowerLength, if_pos ((accepts_lowerRequest hlength.stored hd hsome).mpr haccepts)]

variable (harray : object.kind.isArray)

include harray

theorem deletes_define_lowerRequest (i : ArrayIndex) :
    (object.define lengthKey (ArrayObject.lowerRequest d)).deletes (.index i)
      ↔ object.deletes (.index i) := by
  have hu := unitless_of_isArray harray
  have hu' : (object.define lengthKey (ArrayObject.lowerRequest d)).Unitless := hu
  have hne : PropertyKey.index i ≠ lengthKey := by simp [lengthKey]
  rw [deletes_iff hu', deletes_iff hu, get?_define_lowerRequest hlength hd hv haccepts, if_neg hne]

/-- Where every element from the new length on can be deleted, all of them go. -/
theorem lowerLength_of_forall_deletes (hn : n < length)
    (h : ∀ i : ArrayIndex, n ≤ i.val → object.deletes (.index i)) :
    (object.lowerLength d n).2 = true
      ∧ (object.lowerLength d n).1.properties.HasLength n (d.writable.getD true)
      ∧ object.properties.CutAt (object.lowerLength d n).1.properties n := by
  have hu : (object.define lengthKey (ArrayObject.lowerRequest d)).Unitless :=
    unitless_of_isArray harray
  have hlow := get?_define_lowerRequest hlength hd hv haccepts
  have hdeletes : ∀ i ∈ object.properties.descendingFrom n,
      (object.define lengthKey (ArrayObject.lowerRequest d)).deletes (.index i) := fun i hi =>
    (deletes_define_lowerRequest hlength hd hv haccepts harray i).mpr
      (h i (PropertyMap.mem_descendingFrom.mp hi).1)
  obtain ⟨hnone, hcut⟩ := deleteElements_of_forall_deletes hu
    (object.properties.descendingFrom_pairwise n) hdeletes
  rw [lowerLength_eq hlength hd hv haccepts, hnone]
  refine ⟨snd_settleLength_none, ?_⟩
  have hstored := hcut lengthKey
  rw [if_neg (by simp [lengthKey]), hlow, if_pos rfl] at hstored
  refine PropertyMap.hasLength_and_cutAt (object.properties.descendingFrom n)
    (Nat.lt_trans hn hlength.small) (fun k => ?_) (fun i hi => ?_) (fun i hi hsome => ?_)
  · rw [get?_settleLength_none hstored, hcut, hlow]
    split
    · rfl
    · rfl
  · exact (PropertyMap.mem_descendingFrom.mp hi).1
  · exact PropertyMap.mem_descendingFrom.mpr ⟨hi, hsome⟩

/-- Where some element from the new length on cannot be deleted, those above the last such one
go. -/
theorem lowerLength_of_not_deletes {m : ArrayIndex} (hm : n ≤ m.val)
    (hstays : ¬object.deletes (.index m))
    (h : ∀ i : ArrayIndex, m < i → object.deletes (.index i)) :
    (object.lowerLength d n).2 = false
      ∧ (object.lowerLength d n).1.properties.HasLength (m.val + 1) (d.writable.getD true)
      ∧ object.properties.CutAt (object.lowerLength d n).1.properties (m.val + 1) := by
  have hu : (object.define lengthKey (ArrayObject.lowerRequest d)).Unitless :=
    unitless_of_isArray harray
  have hlow := get?_define_lowerRequest hlength hd hv haccepts
  have hdeletes := deletes_define_lowerRequest hlength hd hv haccepts harray
  have hmem : m ∈ object.properties.descendingFrom n := by
    refine PropertyMap.mem_descendingFrom.mpr ⟨hm, ?_⟩
    rw [deletes_iff (unitless_of_isArray harray)] at hstays
    cases hk : object.properties.get? (.index m) with
    | none => simp [hk] at hstays
    | some _ => rfl
  obtain ⟨hsome, hcut⟩ := deleteElements_of_not_deletes hu
    (object.properties.descendingFrom_pairwise n) hmem (mt (hdeletes m).mp hstays)
    fun i _ hi => (hdeletes i).mpr (h i hi)
  rw [lowerLength_eq hlength hd hv haccepts, hsome]
  refine ⟨rfl, ?_⟩
  have hstored := hcut lengthKey
  rw [if_neg (by simp [lengthKey]), hlow, if_pos rfl] at hstored
  have hparts := (accepts_lengthKey_iff hlength.stored hd).mp haccepts
  refine PropertyMap.hasLength_and_cutAt ((object.properties.descendingFrom n).filter (m < ·))
    (ArrayIndex.succ_lt_twoPow m) (fun k => ?_) (fun i hi => ?_) (fun i hi hisome => ?_)
  · rw [get?_settleLength_some hstored hd (by rw [hv]; rfl) hparts, hcut, hlow]
    split
    · rfl
    · rfl
  · have hlt : m < i := by simpa using (List.mem_filter.mp hi).2
    exact hlt
  · have hmi : m < i := hi
    refine List.mem_filter.mpr ⟨PropertyMap.mem_descendingFrom.mpr ⟨?_, hisome⟩, by simpa using hmi⟩
    omega

end LowerLength

end Object

/-! ### Arrays in order -/

theorem ArrayObject.lengthOf_eq {d : Descriptor} {length : Nat} (h : length < Number.twoPow 32)
    (hd : d.value = some (.nat length)) : ArrayObject.lengthOf d = length := by
  have h53 : length < 2 ^ 53 := Nat.lt_trans h (by decide)
  have hle : length ≤ Number.twoPow 32 - 1 := Nat.le_sub_one_of_lt h
  simp only [ArrayObject.lengthOf, hd, Value.nat, Number.toNat_ofNat h53, Nat.min_eq_left hle]

namespace Object

variable {object : Object H} {d : Descriptor} {length n : Nat} {writable : Bool}

/-- Writing the length keeps an array in order if no index is left above. -/
theorem hasLength_define (hlength : object.properties.HasLength length writable)
    (hd : d.isValid) (ha : object.accepts lengthKey d) (hv : d.value.getD (.nat length) = .nat n)
    (hsmall : n < Number.twoPow 32)
    (hbelow : ∀ i, (object.properties.get? (.index i)).isSome → i.val < n) :
    (object.define lengthKey d).properties.HasLength n (d.writable.getD writable) where
  stored := by rw [get?_define_lengthKey hlength.stored hd ha, if_pos rfl, hv]
  small := hsmall
  below i hi := by
    rw [get?_define_lengthKey hlength.stored hd ha, if_neg (by simp [lengthKey])] at hi
    exact hbelow i hi

/-- Either all elements from some number on can be deleted or there is a last one that cannot. -/
theorem forall_deletes_or_exists_not (object : Object H) (n : Nat) :
    (∀ i : ArrayIndex, n ≤ i.val → object.deletes (.index i))
      ∨ ∃ m : ArrayIndex, n ≤ m.val ∧ ¬object.deletes (.index m)
        ∧ ∀ i : ArrayIndex, m < i → object.deletes (.index i) := by
  by_cases h : ∀ i : ArrayIndex, n ≤ i.val → object.deletes (.index i)
  · exact .inl h
  · obtain ⟨i, hi⟩ := Classical.not_forall.mp h
    obtain ⟨hni, hi⟩ := Classical.not_imp.mp hi
    obtain ⟨m, him, hstays, habove⟩ := ArrayIndex.exists_greatest (object.deletes <| .index ·) hi
    exact .inr ⟨m, Nat.le_trans hni him, hstays, habove⟩

/-- Lowering the length keeps an array in order. -/
theorem exists_hasLength_lowerLength (harray : object.kind.isArray)
    (hlength : object.properties.HasLength length true) (hd : d.isValid)
    (hv : d.value = some (.nat n)) (hn : n < length) :
    ∃ length writable, (object.lowerLength d n).1.properties.HasLength length writable := by
  by_cases ha : object.accepts lengthKey d
  · rcases forall_deletes_or_exists_not object n with h | ⟨m, hm, hstays, habove⟩
    · exact ⟨_, _, (lowerLength_of_forall_deletes hlength hd hv ha harray hn h).2.1⟩
    · exact ⟨_, _, (lowerLength_of_not_deletes hlength hd hv ha harray hm hstays habove).2.1⟩
  · have hrefused : ¬object.accepts lengthKey (ArrayObject.lowerRequest d) := by
      rwa [accepts_lowerRequest hlength.stored hd (by rw [hv]; rfl)]
    rw [lowerLength, if_neg hrefused]
    exact ⟨length, true, hlength⟩

theorem InOrder.of_kind_eq {after : Object H} (hk : after.kind = object.kind)
    (h : object.kind.isArray → ∃ length writable, after.properties.HasLength length writable) :
    after.InOrder :=
  fun ha => h (hk ▸ ha)

/-- A request that does not concern an index, and not the value of the length. -/
theorem InOrder.defined (h : object.InOrder) {k : PropertyKey} (hd : d.isValid)
    (hk : k.index? = none) (hv : k = lengthKey → d.value = none) :
    (object.defined k d).InOrder := by
  refine .of_kind_eq kind_defined fun harray => ?_
  obtain ⟨length, writable, hlength⟩ := h harray
  unfold Object.defined
  split
  · next ha =>
    by_cases heq : k = lengthKey
    · subst heq
      exact ⟨length, _, hasLength_define hlength hd ha (by rw [hv rfl]; rfl) hlength.small
        hlength.below⟩
    · refine ⟨length, writable, ?_, hlength.small, fun i hi => hlength.below i ?_⟩
      · exact (PropertyMap.get?_insert_of_ne (Ne.symm heq) _ _).trans hlength.stored
      · have hne : PropertyKey.index i ≠ k := by
          rintro rfl
          cases hk
        rwa [define, PropertyMap.define, PropertyMap.get?_insert_of_ne hne] at hi
  · exact ⟨length, writable, hlength⟩

theorem InOrder.deleted (h : object.InOrder) (k : PropertyKey) : (object.deleted k).InOrder := by
  refine .of_kind_eq kind_deleted fun harray => ?_
  obtain ⟨length, writable, hlength⟩ := h harray
  refine ⟨length, writable, ?_⟩
  unfold Object.deleted
  split
  · next hany =>
    have hne : lengthKey ≠ k := by
      rintro rfl
      rw [ownProperty?_of_unitProperty?_eq_none (unitless_of_isArray harray lengthKey),
        hlength.stored] at hany
      cases hany
    refine ⟨?_, hlength.small, fun i hi => hlength.below i ?_⟩
    · exact (PropertyMap.get?_erase_of_ne hne _).trans hlength.stored
    · rw [PropertyMap.get?_erase] at hi
      split at hi
      · cases hi
      · exact hi
  · exact hlength

theorem InOrder.setLength {current : Descriptor} (h : object.InOrder)
    (hc : object.properties.get? lengthKey = some current) (hd : d.isValid)
    (hv : d.value.isSome) (hn : n < Number.twoPow 32) :
    (object.setLength current d n).1.InOrder := by
  refine .of_kind_eq (kind_setLength current n) fun harray => ?_
  obtain ⟨length, writable, hlength⟩ := h harray
  obtain rfl : current = .data (.nat length) writable false false :=
    Option.some.inj (hc.symm.trans hlength.stored)
  have hd' := Descriptor.isValid_with_value hd hv (.nat n)
  rw [Object.setLength, ArrayObject.lengthOf_eq hlength.small rfl]
  split
  · next hle =>
    unfold Object.defined
    split
    · next ha =>
      exact ⟨n, _, hasLength_define hlength hd' ha rfl hn fun i hi =>
        Nat.lt_of_lt_of_le (hlength.below i hi) hle⟩
    · exact ⟨length, writable, hlength⟩
  · next hlt =>
    split
    · next hw =>
      obtain rfl : writable = true := hw
      exact exists_hasLength_lowerLength harray hlength hd' rfl (Nat.not_le.mp hlt)
    · exact ⟨length, writable, hlength⟩

theorem InOrder.defineElement {current : Descriptor} {i : ArrayIndex} (h : object.InOrder)
    (hc : object.properties.get? lengthKey = some current) :
    (object.defineElement current i d).1.InOrder := by
  refine .of_kind_eq (kind_defineElement current i) fun harray => ?_
  obtain ⟨length, writable, hlength⟩ := h harray
  obtain rfl : current = .data (.nat length) writable false false :=
    Option.some.inj (hc.symm.trans hlength.stored)
  have hget : ∀ k, (object.define (.index i) d).properties.get? k
      = if k = .index i then some (d.definedOver (object.properties.get? (.index i)))
        else object.properties.get? k := fun k => by
    rw [define, PropertyMap.define, PropertyMap.get?_insert]
  have hstored := hget lengthKey
  rw [if_neg (by simp [lengthKey]), hlength.stored] at hstored
  rw [Object.defineElement, ArrayObject.lengthOf_eq hlength.small rfl]
  split
  · exact ⟨length, writable, hlength⟩
  · next hfull =>
    split
    · split
      · next hle =>
        -- the length is raised to just above the new element
        obtain rfl : writable = true := by
          cases writable
          · exact absurd ⟨hle, rfl⟩ hfull
          · rfl
        have hraised := get?_defined_value hstored rfl rfl (.nat (i.val + 1))
        refine ⟨i.val + 1, true, ?_, ArrayIndex.succ_lt_twoPow i, fun j hj => ?_⟩
        · exact (hraised lengthKey).trans (if_pos rfl)
        · rw [hraised, if_neg (by simp [lengthKey]), hget] at hj
          split at hj
          · next heq =>
            cases heq
            exact Nat.lt_succ_self _
          · exact Nat.lt_succ_of_le (Nat.le_trans (Nat.le_of_lt (hlength.below j hj)) hle)
      · next hlt =>
        refine ⟨length, writable, hstored, hlength.small, fun j hj => ?_⟩
        rw [hget] at hj
        split at hj
        · next heq =>
          cases heq
          exact Nat.not_le.mp hlt
        · exact hlength.below j hj
    · exact ⟨length, writable, hlength⟩

end Object

end ScriptEngine
