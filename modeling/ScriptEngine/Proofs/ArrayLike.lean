import ScriptEngine.Proofs.PropertySearch
import ScriptEngine.Proofs.RelativeIndex

/-!
# Lengths of arrays

An array shows its length as a property, and the operations on array-like objects read it back as
the natural number that it is.

## Main definitions

* `Object.HasCount`: an array and the length that it stores.

## Main results

* `Value.toLength_nat`: a natural number as a length.
* `ObjectId.isArray_gives`, `Object.HasCount.lengthOfArrayLike_gives`: what an array says of itself.
-/

namespace ScriptEngine

open Engine

variable {H : HostTypes} {host : Host H} {bound n : Nat} {s : Surroundings H} {realm : Realm H}
  {o : ObjectId} {object : Object H}

/-- A natural number is read back as a length. -/
theorem Value.toLength_nat (h : n ≤ Number.maxSafe) :
    ((Value.nat n).toLength : Engine H Nat).act s realm = .ok n realm := by
  have hn : n < 2 ^ 53 := Nat.lt_of_le_of_lt h (by decide)
  have hz := Number.isInteger_integerOrInfinity_ofNat hn
  have hinteger : ((Value.nat n).toIntegerOrInfinity : Engine H Float).act s realm
      = .ok (Number.integerOrInfinity (Float.ofNat n)) realm := rfl
  unfold Value.toLength
  rw [Engine.bind_of_ok hinteger]
  split
  · next hle =>
    have hzero := hz.le_zero_iff.mp hle
    obtain rfl : n = 0 := by omega
    rfl
  · have hmost : Number.toNat (Number.atMost (Number.integerOrInfinity (Float.ofNat n))
        (Float.ofNat Number.maxSafe)) = n := by
      rw [hz.toNat_atMost (by decide)]
      omega
    rw [hmost]
    rfl

/-- An object is an array and stores a length. -/
structure Object.HasCount (object : Object H) (count : Nat) : Prop where
  isArray : object.kind = .array
  stored : ∃ w, object.properties.get? lengthKey = some (.data (.nat count) w false false)
  small : count < Number.twoPow 32

/-- The key of a number that is an index. -/
theorem PropertyKey.ofNat_eq_index (h : n ≤ maxIndex) :
    ofNat n = index ⟨n, Nat.lt_succ_of_le h⟩ :=
  dif_pos h

namespace Object.HasCount

variable {count count' : Nat}

/-- An array has one length. -/
theorem unique (h : object.HasCount count) (h' : object.HasCount count') : count = count' := by
  obtain ⟨w, hw⟩ := h.stored
  obtain ⟨w', hw'⟩ := h'.stored
  have hvalue : some (Value.nat count) = some (Value.nat count') :=
    congrArg Descriptor.value (Option.some.inj (hw.symm.trans hw'))
  have hlt {n : Nat} (hn : n < Number.twoPow 32) : n < 2 ^ 53 := Nat.lt_trans hn (by decide)
  exact Number.eq_of_ofNat_eq (hlt h.small) (hlt h'.small)
    (Value.number.inj (Option.some.inj hvalue))

/-- What is below the length of an array is an index. -/
theorem le_maxIndex {i : Nat} (h : object.HasCount count) (hi : i < count) :
    i ≤ PropertyKey.maxIndex := by
  have hsmall := h.small
  have hmax : Number.twoPow 32 = PropertyKey.maxIndex + 2 := by decide
  omega

theorem isPlain (h : object.HasCount count) : object.kind.isPlain := by
  rw [h.isArray]
  rfl

theorem unitProperty?_eq_none (h : object.HasCount count) (k : PropertyKey) :
    object.kind.unitProperty? k = none := by
  rw [h.isArray]
  rfl

/-- The length of an array. -/
theorem lengthOfArrayLike_gives (h : object.HasCount count) (ho : realm.object? o = some object)
    (hl : ¬realm.deeper.AtLimit) :
    Gives 2 bound (o.lengthOfArrayLike.act (.bounded host bound) realm) (.ok count realm) := by
  obtain ⟨w, hw⟩ := h.stored
  have hown : object.ownProperty? lengthKey = some (.data (.nat count) w false false) :=
    (Object.ownProperty?_of_unitProperty?_eq_none (h.unitProperty?_eq_none _)).trans hw
  refine (ObjectId.getFor_gives_of_isData ho h.isPlain hl hown rfl).bindEngine (.of_eq ?_)
  exact Value.toLength_nat (Nat.le_of_lt (Nat.lt_trans h.small (by decide)))

end Object.HasCount

/-- Whether an object is an array, given that it is not a proxy. -/
theorem ObjectId.isArray_gives (ho : realm.object? o = some object) (hp : object.kind.isPlain) :
    Gives 1 bound (o.isArray.act (.bounded host bound) realm) (.ok object.kind.isArray realm) := by
  refine Engine.loop_gives_finish (.of_eq ?_)
  refine (Engine.bind_of_ok (getKind_of_some ho)).trans ?_
  cases hk : object.kind with
  | proxy => simp [hk, ObjectKind.isPlain] at hp
  | _ => rfl

end ScriptEngine
