import ScriptEngine.Builtin.Array.Mutation
import ScriptEngine.Proofs.IntegerPart

/-!
# Relative indices

Arguments that count from the start or from the end of a list are numbers, and the computations on
them are done in doubles. They give the index that the exact integers give, whatever the number is:
the integer part is exact, sums that are not exact lie below zero, and infinities stand for the two
ends.

## Main definitions

* `Number.Integral`, `Number.integral`: an integer or an infinity, and that of a number.
* `Number.Integral.relativeTo`, `Number.Integral.upTo`: the index that it means.

## Main results

* `resolveRelative_eq`: an index that counts from the start or from the end.
* `Number.toNat_clamp`: a count up to a limit.
-/

namespace ScriptEngine

namespace Number

open Float.Model Float.Model.UnpackedFloat

variable {x : Float}

/-! ### Integers and infinities -/

/-- An integer or an infinity. -/
inductive Integral where
  | negInfinity
  | integer (k : Int)
  | infinity
deriving DecidableEq

/-- The integer part of a number; no number counts as zero. -/
def integral (x : Float) : Integral :=
  if x.isNaN then .integer 0
  else if x.isInf then (if signBit x then .negInfinity else .infinity)
  else .integer (Dyadic.ofFloat x).toInt

/-- The index that counts from the start, or from the end of a length if it is negative, and does
not leave the two. -/
def Integral.relativeTo (length : Nat) : Integral → Nat
  | negInfinity => 0
  | integer k => if k < 0 then (max (length + k) 0).toNat else (min k length).toNat
  | infinity => length

/-- The nearest natural number up to a limit. -/
def Integral.upTo (limit : Nat) : Integral → Nat
  | negInfinity => 0
  | integer k => (min (max k 0) limit).toNat
  | infinity => limit

theorem Integral.relativeTo_le (z : Integral) (length : Nat) : z.relativeTo length ≤ length := by
  cases z with
  | negInfinity => exact Nat.zero_le _
  | infinity => exact Nat.le_refl _
  | integer k =>
    rw [relativeTo]
    split <;> omega

theorem Integral.upTo_le (z : Integral) (limit : Nat) : z.upTo limit ≤ limit := by
  cases z with
  | negInfinity => exact Nat.zero_le _
  | infinity => exact Nat.le_refl _
  | integer k =>
    rw [upTo]
    omega

theorem integral_of_isFinite (hf : x.isFinite) :
    integral x = .integer (Dyadic.ofFloat x).toInt := by
  obtain ⟨hnan, hinf⟩ := isNaN_and_isInf_of_isFinite hf
  simp only [integral, hnan, hinf, Bool.false_eq_true, if_false]

/-- A number is infinite, or its integer part has the form of an integer. -/
theorem integral_cases (x : Float) :
    (∃ s, x.toModel.unpack = .infinity s ∧ integerOrInfinity x = x
        ∧ integral x = if isMinus s then .negInfinity else .infinity)
      ∨ ∃ z, IsInteger (integerOrInfinity x).toModel.unpack z ∧ integral x = .integer z := by
  cases h : x.toModel.unpack with
  | notANumber =>
    have hnan : x.isNaN = true := congrArg UnpackedFloat.isNaN h
    refine .inr ⟨0, ?_, by rw [integral, if_pos hnan]⟩
    rw [integerOrInfinity, if_pos hnan]
    exact .zero .positive
  | infinity s =>
    have hnan : x.isNaN = false := congrArg UnpackedFloat.isNaN h
    have hinf : x.isInf = true := congrArg UnpackedFloat.isInf h
    refine .inl ⟨s, rfl, ?_, ?_⟩
    · simp only [integerOrInfinity, hnan, hinf, Bool.false_eq_true, if_false, if_true]
    · simp only [integral, hnan, hinf, Bool.false_eq_true, if_false, if_true,
        signBit_of_unpack (congrArg sign? h)]
  | zero s =>
    have hf : x.isFinite = true := congrArg UnpackedFloat.isFinite h
    exact .inr ⟨_, isInteger_integerOrInfinity hf, integral_of_isFinite hf⟩
  | finite s m e hp =>
    have hf : x.isFinite = true := congrArg UnpackedFloat.isFinite h
    exact .inr ⟨_, isInteger_integerOrInfinity hf, integral_of_isFinite hf⟩

/-! ### Limits -/

variable {n : Nat} {z : Int}

/-- A number lowered to a natural number. -/
theorem IsInteger.toNat_atMost (h : IsInteger x.toModel.unpack z) (hn : n < 2 ^ 53) :
    toNat (atMost x (Float.ofNat n)) = (min z n).toNat := by
  have hiff := h.ofNat_lt_iff hn
  have hnan : x.isNaN = false := (isNaN_and_isInf_of_isFinite h.isFinite).1
  unfold atMost
  rw [hnan, Bool.or_false]
  by_cases hlt : (n : Int) < z
  · rw [if_pos (decide_eq_true (hiff.mpr hlt)), toNat_ofNat hn]
    omega
  · rw [if_neg (by simpa using hiff.not.mpr hlt), h.toNat_eq (by omega)]
    omega

/-- A natural number is below infinity. -/
theorem ofNat_lt_of_infinity (h : x.toModel.unpack = .infinity .positive) (hn : n < 2 ^ 53) :
    Float.ofNat n < x := by
  have hfinite := (isInteger_ofNat hn).isFinite
  rw [lt_iff, h]
  cases hu : (Float.ofNat n).toModel.unpack with
  | infinity s => simp [hu, UnpackedFloat.isFinite] at hfinite
  | notANumber => simp [hu, UnpackedFloat.isFinite] at hfinite
  | zero s => rfl
  | finite s m e hp => cases s <;> rfl

theorem infinity_lt_zero_iff {s : Sign} (h : x.toModel.unpack = .infinity s) :
    x < 0.0 ↔ isMinus s := by
  rw [lt_iff, h, unpack_zero]
  cases s
  · exact iff_of_true rfl rfl
  · simp [UnpackedFloat.compare, isMinus]

theorem toNat_add_negInfinity (h : x.toModel.unpack = .infinity .negative) (hn : n < 2 ^ 53) :
    toNat (Float.ofNat n + x) = 0 := by
  have hfinite := (isInteger_ofNat hn).isFinite
  have hsum : (Float.ofNat n + x).toModel.unpack = .infinity .negative := by
    change (Float.Model.pack (UnpackedFloat.add .binary64 (Float.ofNat n).toModel.unpack
      x.toModel.unpack)).unpack = _
    have hadd : UnpackedFloat.add .binary64 (Float.ofNat n).toModel.unpack (.infinity .negative)
        = .infinity .negative := by
      cases hu : (Float.ofNat n).toModel.unpack with
      | infinity s => simp [hu, UnpackedFloat.isFinite] at hfinite
      | notANumber => simp [hu, UnpackedFloat.isFinite] at hfinite
      | zero s => rfl
      | finite s m e hp => rfl
    rw [h, hadd]
    rfl
  refine toNat_eq_of_toInt ?_ (by decide) (z := 0)
  rw [hsum]
  rfl

/-- A number moved between zero and a limit. -/
theorem toNat_clamp (x : Float) (hn : n < 2 ^ 53) :
    toNat (clamp (integerOrInfinity x) 0.0 (Float.ofNat n)) = (integral x).upTo n := by
  unfold clamp
  rcases integral_cases x with ⟨s, hs, hx, hi⟩ | ⟨z, hz, hi⟩
  · rw [hx, hi]
    cases s with
    | negative =>
      rw [if_pos ((infinity_lt_zero_iff hs).mpr rfl)]
      rfl
    | positive =>
      rw [if_neg ((infinity_lt_zero_iff hs).not.mpr (by decide)),
        if_pos (ofNat_lt_of_infinity hs hn), toNat_ofNat hn]
      rfl
  · rw [hi, Integral.upTo]
    by_cases hneg : z < 0
    · rw [if_pos (hz.lt_zero_iff.mpr hneg)]
      have hzero : toNat 0.0 = 0 := rfl
      omega
    · rw [if_neg (hz.lt_zero_iff.not.mpr hneg)]
      have hiff := hz.ofNat_lt_iff hn
      by_cases hlt : (n : Int) < z
      · rw [if_pos (hiff.mpr hlt), toNat_ofNat hn]
        omega
      · rw [if_neg (hiff.not.mpr hlt), hz.toNat_eq (by omega)]
        omega

end Number

/-- The index that a relative index means is that of the exact integers. -/
theorem resolveRelative_eq (x : Float) {n : Nat} (hn : n < 2 ^ 53) :
    resolveRelative (Number.integerOrInfinity x) n = (Number.integral x).relativeTo n := by
  unfold resolveRelative
  rcases Number.integral_cases x with ⟨s, hs, hx, hi⟩ | ⟨z, hz, hi⟩
  · rw [hx, hi]
    cases s with
    | negative =>
      rw [if_pos ((Number.infinity_lt_zero_iff hs).mpr rfl), Number.toNat_atLeast_zero]
      exact Number.toNat_add_negInfinity hs hn
    | positive =>
      have hlt := Number.ofNat_lt_of_infinity hs hn
      rw [if_neg ((Number.infinity_lt_zero_iff hs).not.mpr (by decide)), Number.atMost,
        decide_eq_true hlt, Bool.true_or, if_pos rfl, Number.toNat_ofNat hn]
      rfl
  · rw [hi, Number.Integral.relativeTo]
    by_cases hneg : z < 0
    · rw [if_pos (hz.lt_zero_iff.mpr hneg), if_pos hneg, Number.toNat_atLeast_zero,
        Number.toNat_add_of_neg hz hneg hn]
      omega
    · rw [if_neg (hz.lt_zero_iff.not.mpr hneg), if_neg hneg, hz.toNat_atMost hn]

end ScriptEngine
