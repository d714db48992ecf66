import Mathlib
import ScriptEngine.Proofs.DecimalReading

/-!
# Exact values and single steps of arithmetic

A number that is finite and not negative has a rational for its exact value. A step of arithmetic on
two such numbers gives the number that the exact result of the step is rounded to; where the exact
result is the value of a number, nothing is rounded. Comparing numbers, cutting off their fraction
and reading them as integers is the same on the numbers and on their values.

## Main definitions

* `Dyadic.toRat`: the rational that a dyadic is.
* `Number.HasValue`: the exact value of a form.
* `Number.RoundsToValue`: the value that a rational is rounded to.

## Main results

* `Number.roundsToValue_self`: what has at most 53 bits in the range of numbers is not rounded.
* `Number.HasValue.compare_eq`: numbers are compared by their values.
* `Number.HasValue.mul`, `Number.HasValue.div`, `Number.HasValue.add`, `Number.HasValue.sub`: one
  step of arithmetic.
* `Number.HasValue.trunc`, `Number.HasValue.magnitude_eq`, `Number.HasValue.toNat_eq`: integer
  parts.
* `Number.hasValue_of_not_lt`, `Number.hasValue_neg_of_lt`: the value of every finite number or of
  its negative.
-/

namespace ScriptEngine

/-- The rational that a dyadic is. -/
def Dyadic.toRat (d : Dyadic) : Rat :=
  (if d.negative then -1 else 1) * (d.mantissa * 2 ^ d.exponent)

namespace Number

open Float.Model Float.Model.UnpackedFloat

/-! ### Values -/

/-- Whether a rational is the exact value of the form of a number that is finite and not negative.
-/
inductive HasValue : UnpackedFloat → Rat → Prop
  | zero (s : Sign) : HasValue (.zero s) 0
  | finite {m : Nat} {e : Int} (hp : 0 < m) (hc : Canonical m e) :
      HasValue (.finite .positive m e hp) (m * 2 ^ e)

/-- Whether a rational that is not negative is rounded to the value of a number. -/
inductive RoundsToValue : Rat → Rat → Prop
  | zero : RoundsToValue 0 0
  | finite {v : Rat} {n : Nat} {k : Int} (hn : 0 < n) (hc : Canonical n k) (hv : RoundsTo v n k) :
      RoundsToValue v (n * 2 ^ k)

variable {x y : Float} {u u' : UnpackedFloat} {a b v w : Rat}

theorem HasValue.nonneg (h : HasValue u v) : 0 ≤ v := by
  cases h with
  | zero => exact le_rfl
  | finite hp hc => positivity

theorem HasValue.isFinite (h : HasValue x.toModel.unpack v) : x.isFinite := by
  change x.toModel.unpack.isFinite = true
  generalize x.toModel.unpack = u at h
  cases h <;> rfl

theorem RoundsToValue.eq_zero (h : RoundsToValue 0 w) : w = 0 := by
  generalize hv : (0 : Rat) = v at h
  cases h with
  | zero => rfl
  | finite hn hc hround => exact absurd hv (hround.pos hn).ne

theorem lt_of_two_zpow_le {m : Nat} {e a : Int} (hm : m < 2 ^ 53) (h : (2 : Rat) ^ a ≤ m * 2 ^ e) :
    a < 53 + e := by
  have hm : (m : Rat) < 2 ^ (53 : Int) := by exact_mod_cast hm
  have hlt := h.trans_lt (mul_lt_mul_of_pos_right hm (zpow_pos two_pos e))
  rw [← zpow_add₀ two_ne_zero] at hlt
  exact (zpow_lt_zpow_iff_right₀ one_lt_two).mp hlt

/-- The range of numbers. -/
theorem HasValue.lt_two_pow (h : HasValue u v) : v < 2 ^ 1024 := by
  cases h with
  | zero => positivity
  | @finite m e hp hc =>
    have hm : (m : Rat) < 2 ^ (53 : Int) := by exact_mod_cast mantissa_lt hc hp
    have he : 53 + e ≤ 1024 := by rcases hc with ⟨-, -, he⟩ | ⟨-, rfl⟩ <;> omega
    calc (m * 2 ^ e : Rat) < 2 ^ (53 : Int) * 2 ^ e :=
          mul_lt_mul_of_pos_right hm (zpow_pos two_pos e)
      _ = 2 ^ (53 + e) := (zpow_add₀ two_ne_zero 53 e).symm
      _ ≤ 2 ^ (1024 : Int) := zpow_le_zpow_right₀ one_le_two he
      _ = 2 ^ 1024 := zpow_natCast 2 1024

/-- Zeros at the end of a mantissa do not change the value. -/
theorem mul_two_pow_mul_zpow (m j : Nat) (e : Int) :
    ((m * 2 ^ j : Nat) * 2 ^ (e - j) : Rat) = m * 2 ^ e := by
  rw [Nat.cast_mul, Nat.cast_pow, Nat.cast_ofNat, mul_assoc, ← zpow_natCast,
    ← zpow_add₀ two_ne_zero, add_sub_cancel]

/-- Every mantissa of at most 53 bits is brought into the form of a number. -/
theorem exists_canonical {m : Nat} {e : Int} (hp : 0 < m) (hm : m < 2 ^ 53) (he : -1074 ≤ e)
    (he' : e ≤ 971) : ∃ n k, 0 < n ∧ Canonical n k ∧ (n * 2 ^ k : Rat) = m * 2 ^ e := by
  have hlog : m.log2 ≤ 52 := log2_le_of_lt hp hm
  rcases le_or_gt (52 - m.log2 : Int) (e + 1074) with hnormal | hsub
  · refine ⟨m * 2 ^ (52 - m.log2), e - (52 - m.log2 : Nat), Nat.mul_pos hp (Nat.two_pow_pos _),
      .inl ⟨?_, by omega, by omega⟩, mul_two_pow_mul_zpow _ _ _⟩
    rw [log2_mul_two_pow hp]
    omega
  · refine ⟨m * 2 ^ (e + 1074).toNat, e - (e + 1074).toNat, Nat.mul_pos hp (Nat.two_pow_pos _),
      .inr ⟨?_, by omega⟩, mul_two_pow_mul_zpow _ _ _⟩
    rw [log2_mul_two_pow hp]
    omega

/-- What has at most 53 bits in the range of numbers is not rounded. -/
theorem roundsToValue_self {m : Nat} {e : Int} (hm : m < 2 ^ 53) (he : -1074 ≤ e) (he' : e ≤ 971) :
    RoundsToValue (m * 2 ^ e) (m * 2 ^ e) := by
  rcases Nat.eq_zero_or_pos m with rfl | hp
  · rw [Nat.cast_zero, zero_mul]
    exact .zero
  · obtain ⟨n, k, hn, hc, hvalue⟩ := exists_canonical hp hm he he'
    rw [← hvalue]
    exact .finite hn hc (roundsTo_self _ _)

/-! ### Comparing -/

/-- A greater exponent makes a greater value. -/
theorem Canonical.lt_of_exponent_lt {m n : Nat} {k l : Int} (hm : 0 < m) (hc : Canonical m k)
    (hc' : Canonical n l) (h : k < l) : (m * 2 ^ k : Rat) < n * 2 ^ l := by
  have hk : -1074 ≤ k := by rcases hc with ⟨-, hk, -⟩ | ⟨-, rfl⟩ <;> omega
  have hn : n.log2 = 52 := by rcases hc' with ⟨hn, -, -⟩ | ⟨-, rfl⟩ <;> omega
  have hn0 : n ≠ 0 := by
    rintro rfl
    exact absurd hn (by decide)
  have hn52 : (2 : Rat) ^ 52 ≤ n := by exact_mod_cast hn ▸ Nat.log2_self_le hn0
  have hm53 : (m : Rat) < 2 ^ 53 := by exact_mod_cast mantissa_lt hc hm
  calc (m * 2 ^ k : Rat) < 2 ^ 53 * 2 ^ k := mul_lt_mul_of_pos_right hm53 (zpow_pos two_pos k)
    _ = 2 ^ 52 * 2 ^ (k + 1) := by rw [zpow_add_one₀ two_ne_zero]; ring
    _ ≤ n * 2 ^ l :=
      mul_le_mul hn52 (zpow_le_zpow_right₀ one_le_two h) (zpow_pos two_pos _).le (by positivity)

theorem compare_canonical {m n : Nat} {k l : Int} (hm : 0 < m) (hn : 0 < n) (hc : Canonical m k)
    (hc' : Canonical n l) :
    (compare k l).then (compare m n) = cmp (m * 2 ^ k : Rat) (n * 2 ^ l) := by
  rcases Int.lt_trichotomy k l with hlt | rfl | hgt
  · rw [Int.compare_eq_lt.mpr hlt, (cmp_eq_lt_iff _ _).mpr (hc.lt_of_exponent_lt hm hc' hlt)]
    rfl
  · rw [Int.compare_eq_eq.mpr rfl, Ordering.eq_then]
    have hpos : (0 : Rat) < 2 ^ k := zpow_pos two_pos k
    rcases Nat.lt_trichotomy m n with hlt | rfl | hgt
    · rw [Nat.compare_eq_lt.mpr hlt, eq_comm, cmp_eq_lt_iff]
      exact mul_lt_mul_of_pos_right (by exact_mod_cast hlt) hpos
    · rw [Nat.compare_eq_eq.mpr rfl, cmp_self_eq_eq]
    · rw [Nat.compare_eq_gt.mpr hgt, eq_comm, cmp_eq_gt_iff]
      exact mul_lt_mul_of_pos_right (by exact_mod_cast hgt) hpos
  · rw [Int.compare_eq_gt.mpr hgt, (cmp_eq_gt_iff _ _).mpr (hc'.lt_of_exponent_lt hn hc hgt)]
    rfl

/-- Numbers are compared by their values. -/
theorem HasValue.compare_eq (hx : HasValue u a) (hy : HasValue u' b) :
    u.compare u' = some (cmp a b) := by
  cases hx with
  | zero =>
    cases hy with
    | zero => rw [cmp_self_eq_eq, UnpackedFloat.compare]
    | finite hp hc => rw [(cmp_eq_lt_iff _ _).mpr (by positivity), UnpackedFloat.compare]
  | finite hp hc =>
    cases hy with
    | zero => rw [(cmp_eq_gt_iff _ _).mpr (by positivity), UnpackedFloat.compare]
    | finite hp' hc' => rw [← compare_canonical hp hp' hc hc', UnpackedFloat.compare]

section Compare

variable (hx : HasValue x.toModel.unpack a) (hy : HasValue y.toModel.unpack b)

include hx hy

theorem HasValue.lt_iff : x < y ↔ a < b := by
  rw [Number.lt_iff, hx.compare_eq hy, Option.some.injEq, cmp_eq_lt_iff]

theorem HasValue.le_iff : x ≤ y ↔ a ≤ b := by
  rw [Number.le_iff, hx.compare_eq hy, Option.any_some, ← not_lt, ← cmp_eq_gt_iff]
  cases cmp a b <;> decide

theorem HasValue.beq_iff : x == y ↔ a = b := by
  have hbeq : (x == y) = (x.toModel.unpack.compare y.toModel.unpack == some .eq) := rfl
  rw [hbeq, beq_iff_eq, hx.compare_eq hy, Option.some.injEq, cmp_eq_eq_iff]

end Compare

/-! ### Rounding the result of a step -/

theorem HasValue.pack (h : HasValue u v) : HasValue (Float.Model.pack u).unpack v := by
  cases h with
  | zero s => cases s <;> exact .zero _
  | finite hp hc =>
    rw [unpack_pack_of_canonical hc]
    exact .finite hp hc

/-- A mantissa is brought to 53 bits before it is rounded. -/
theorem round_eq_finite {m n : Nat} {e k : Int} (hn : 0 < n) (hc : Canonical n k)
    (hv : RoundsTo (m * 2 ^ e) n k) (s : Sign) :
    UnpackedFloat.round .binary64 s m e = .finite s n k hn := by
  generalize ht : max ((m.log2 : Int) + e - 52) (-1074) = t
  have hround : UnpackedFloat.round .binary64 s m e
      = roundWithAccuracy .binary64 s (m * 2 ^ (e - t).toNat) (e - (e - t).toNat) .exact := by
    simp only [UnpackedFloat.round, targetExponent_eq, ht, decreaseExponent, Nat.shiftLeft_eq]
  have hm : 0 < m := by
    refine Nat.pos_of_ne_zero fun hzero => ?_
    have hpos := hv.pos hn
    rw [hzero, Nat.cast_zero, zero_mul] at hpos
    exact lt_irrefl _ hpos
  have hbits : 52 ≤ (m * 2 ^ (e - t).toNat).log2 ∨ e - (e - t).toNat ≤ -1074 := by
    rw [log2_mul_two_pow hm]
    omega
  -- up to here nothing has been rounded: the mantissa has only got zeros at its end
  have hexact : Locates (m * 2 ^ (e - t).toNat) ((m * 2 ^ (e - t).toNat : Nat) : Rat) .exact := rfl
  rw [hround]
  refine roundWithAccuracy_eq hn hc hexact hbits ?_ s
  rwa [mul_two_pow_mul_zpow]

/-- The value of a number is rounded to itself only. -/
theorem HasValue.eq_of_rounds (h : HasValue u v) (hw : RoundsToValue v w) : w = v := by
  cases h with
  | zero => exact hw.eq_zero
  | @finite m e hp hc =>
    generalize hv : (m * 2 ^ e : Rat) = v at hw
    cases hw with
    | zero => rfl
    | finite hn hc' hround =>
      rw [← hv] at hround ⊢
      have hsame := (round_eq_finite hn hc' hround .positive).symm.trans
        (round_eq_finite hp hc (roundsTo_self m e) .positive)
      injection hsame with _ hm he
      rw [hm, he]

/-- What is rounded to the value of a number is made the number. -/
theorem RoundsToValue.normalize {z e : Int} (hz : 0 ≤ z) (h : RoundsToValue (z * 2 ^ e) w) :
    HasValue (Float.Model.pack (UnpackedFloat.normalize .binary64 z e .positive)).unpack w := by
  obtain ⟨m, rfl⟩ := Int.eq_ofNat_of_zero_le hz
  unfold UnpackedFloat.normalize
  rcases Nat.eq_zero_or_pos m with rfl | hm
  · rw [Nat.cast_zero, Int.cast_zero, zero_mul] at h
    rw [h.eq_zero, Int.compare_eq_eq.mpr Nat.cast_zero]
    exact HasValue.pack (.zero .positive)
  · rw [Int.compare_eq_gt.mpr (by omega)]
    rw [Int.cast_natCast] at h
    generalize hv : (m * 2 ^ e : Rat) = v at h
    cases h with
    | zero =>
      have hpos : (0 : Rat) < m * 2 ^ e := by positivity
      exact absurd hv hpos.ne'
    | finite hn hc hround =>
      rw [← hv] at hround
      simp only [Int.toNat_natCast]
      rw [round_eq_finite hn hc hround, unpack_pack_of_canonical hc]
      exact .finite hn hc

/-- Two mantissas with the smaller of their exponents. -/
theorem decreaseExponent_mul_zpow (m : Nat) {e t : Int} (h : t ≤ e) :
    ((decreaseExponent m e t).1 * 2 ^ t : Rat) = m * 2 ^ e := by
  have ht : e - ((e - t).toNat : Int) = t := by omega
  have hvalue := mul_two_pow_mul_zpow m (e - t).toNat e
  rw [ht] at hvalue
  rw [decreaseExponent, Nat.shiftLeft_eq, hvalue]

section Step

variable (hx : HasValue x.toModel.unpack a) (hy : HasValue y.toModel.unpack b)

include hx hy

/-- A sum. -/
theorem HasValue.add (h : RoundsToValue (a + b) w) : HasValue (x + y).toModel.unpack w := by
  change HasValue (Float.Model.pack (UnpackedFloat.add .binary64 x.toModel.unpack
    y.toModel.unpack)).unpack w
  generalize x.toModel.unpack = u at hx
  generalize y.toModel.unpack = u' at hy
  cases hx with
  | zero s =>
    rw [zero_add] at h
    rw [hy.eq_of_rounds h]
    cases hy with
    | zero s' => cases s <;> cases s' <;> exact .zero _
    | finite hp hc => exact (HasValue.finite hp hc).pack
  | @finite m k hp hc =>
    cases hy with
    | zero s' =>
      rw [add_zero] at h
      rw [(HasValue.finite hp hc).eq_of_rounds h]
      exact (HasValue.finite hp hc).pack
    | @finite n l hp' hc' =>
      have hsum : (((decreaseExponent m k (min k l)).1 + (decreaseExponent n l (min k l)).1 : Int)
          * 2 ^ min k l : Rat) = m * 2 ^ k + n * 2 ^ l := by
        push_cast
        rw [add_mul, decreaseExponent_mul_zpow m (min_le_left k l),
          decreaseExponent_mul_zpow n (min_le_right k l)]
      rw [← hsum] at h
      exact h.normalize (Int.add_nonneg (Int.natCast_nonneg _) (Int.natCast_nonneg _))

/-- A difference that is not negative. -/
theorem HasValue.sub (hle : b ≤ a) (h : RoundsToValue (a - b) w) :
    HasValue (x - y).toModel.unpack w := by
  change HasValue (Float.Model.pack (UnpackedFloat.sub .binary64 x.toModel.unpack
    y.toModel.unpack)).unpack w
  generalize x.toModel.unpack = u at hx
  generalize y.toModel.unpack = u' at hy
  cases hy with
  | zero s' =>
    rw [sub_zero] at h
    rw [hx.eq_of_rounds h]
    cases hx with
    | zero s => cases s <;> cases s' <;> exact .zero _
    | finite hp hc => exact (HasValue.finite hp hc).pack
  | @finite n l hp' hc' =>
    cases hx with
    | zero s =>
      have hpos : (0 : Rat) < n * 2 ^ l := by positivity
      exact absurd hle hpos.not_ge
    | @finite m k hp hc =>
      have hdiff : (((decreaseExponent m k (min k l)).1 - (decreaseExponent n l (min k l)).1 : Int)
          * 2 ^ min k l : Rat) = m * 2 ^ k - n * 2 ^ l := by
        push_cast
        rw [sub_mul, decreaseExponent_mul_zpow m (min_le_left k l),
          decreaseExponent_mul_zpow n (min_le_right k l)]
      have hnonneg : (0 : Rat) ≤ ((decreaseExponent m k (min k l)).1
          - (decreaseExponent n l (min k l)).1 : Int) := by
        rw [← sub_nonneg, ← hdiff] at hle
        exact (mul_nonneg_iff_of_pos_right (zpow_pos two_pos _)).mp hle
      rw [← hdiff] at h
      exact h.normalize (Int.cast_nonneg_iff.mp hnonneg)

end Step

theorem hasValue_zero : HasValue (0.0 : Float).toModel.unpack 0 := .zero .positive

theorem hasValue_one : HasValue (1.0 : Float).toModel.unpack 1 := by
  have hunpack : (1.0 : Float).toModel.unpack = .finite .positive (2 ^ 52) (-52) (by decide) := rfl
  have hvalue : ((2 ^ 52 : Nat) * 2 ^ (-52 : Int) : Rat) = 1 := by norm_num
  rw [hunpack, ← hvalue]
  exact .finite _ (.inl ⟨by decide, by decide, by decide⟩)

/-- A natural number of at most 53 bits. -/
theorem hasValue_ofNat {n : Nat} (h : n < 2 ^ 53) : HasValue (Float.ofNat n).toModel.unpack n := by
  rcases Nat.eq_zero_or_pos n with rfl | hn
  · rw [Nat.cast_zero]
    exact hasValue_zero
  · rw [unpack_ofNat hn h, ← fullMantissa_mul_zpow hn h]
    exact .finite _ (canonical_fullMantissa hn h)

section NaturalStep

variable {n : Nat} (hx : HasValue x.toModel.unpack a) (hn : 0 < n) (hlt : n < 2 ^ 53)

include hx hn hlt

/-- A product with a natural number. -/
theorem HasValue.mul (h : RoundsToValue (a * n) w) :
    HasValue (x * Float.ofNat n).toModel.unpack w := by
  change HasValue (Float.Model.pack (UnpackedFloat.mul .binary64 x.toModel.unpack
    (Float.ofNat n).toModel.unpack)).unpack w
  rw [unpack_ofNat hn hlt]
  generalize x.toModel.unpack = u at hx
  cases hx with
  | zero s =>
    rw [zero_mul] at h
    rw [h.eq_zero]
    exact HasValue.pack (.zero (s * Sign.positive))
  | @finite m e hp hc =>
    have hpos : (0 : Rat) < m * 2 ^ e * n := by positivity
    generalize hv : (m * 2 ^ e * n : Rat) = v at h
    cases h with
    | zero => exact absurd hv hpos.ne'
    | finite hk hc' hround =>
      have hlow : 2 ^ 52 ≤ fullMantissa n :=
        log2_fullMantissa hn hlt ▸ Nat.log2_self_le (fullMantissa_pos hn).ne'
      have hbits : 52 ≤ (m * fullMantissa n).log2 :=
        (Nat.le_log2 (Nat.mul_pos hp (fullMantissa_pos hn)).ne').mpr
          (hlow.trans (Nat.le_mul_of_pos_left _ hp))
      rw [← hv, ← fullMantissa_mul_zpow hn hlt] at hround
      rw [mul_eq_finite hp (fullMantissa_pos hn) hk hc' hbits hround, unpack_pack_of_canonical hc']
      exact .finite hk hc'

/-- A quotient by a natural number. -/
theorem HasValue.div (h : RoundsToValue (a / n) w) :
    HasValue (x / Float.ofNat n).toModel.unpack w := by
  change HasValue (Float.Model.pack (UnpackedFloat.div .binary64 x.toModel.unpack
    (Float.ofNat n).toModel.unpack)).unpack w
  rw [unpack_ofNat hn hlt]
  generalize x.toModel.unpack = u at hx
  cases hx with
  | zero s =>
    rw [zero_div] at h
    rw [h.eq_zero]
    exact HasValue.pack (.zero (s / Sign.positive))
  | @finite m e hp hc =>
    have hpos : (0 : Rat) < m * 2 ^ e / n := by positivity
    generalize hv : (m * 2 ^ e / n : Rat) = v at h
    cases h with
    | zero => exact absurd hv hpos.ne'
    | finite hk hc' hround =>
      rw [← hv, ← fullMantissa_mul_zpow hn hlt] at hround
      rw [div_eq_finite hp (fullMantissa_pos hn) hk hc' hround, unpack_pack_of_canonical hc']
      exact .finite hk hc'

end NaturalStep

/-! ### Steps that are exact -/

/-- The integer part of a dyadic. -/
theorem floor_mul_zpow (m : Nat) (e : Int) :
    ⌊(m * 2 ^ e : Rat)⌋₊ = if 0 ≤ e then m * 2 ^ e.toNat else m / 2 ^ (-e).toNat := by
  split
  · next he =>
    rw [← Nat.floor_natCast (R := Rat) (m * 2 ^ e.toNat), Nat.cast_mul, cast_pow_toNat 2 he]
    rfl
  · next he =>
    have hpow : (2 : Rat) ^ e = ((2 ^ (-e).toNat : Nat) : Rat)⁻¹ := by
      rw [cast_pow_toNat_neg 2 he, inv_inv]
      rfl
    rw [hpow, ← div_eq_mul_inv, Nat.floor_div_natCast, Nat.floor_natCast]

/-- A fraction is not rounded. -/
theorem HasValue.rounds_fraction (h : HasValue u v) :
    RoundsToValue (v - ⌊v⌋₊) (v - ⌊v⌋₊) := by
  cases h with
  | zero =>
    rw [Nat.floor_zero, Nat.cast_zero, sub_zero]
    exact .zero
  | @finite m e hp hc =>
    have he : -1074 ≤ e ∧ e ≤ 971 := by rcases hc with ⟨-, he, he'⟩ | ⟨-, rfl⟩ <;> omega
    rw [floor_mul_zpow]
    split
    · next hpos =>
      rw [Nat.cast_mul, cast_pow_toNat 2 hpos, Nat.cast_ofNat, sub_self]
      exact .zero
    · next hneg =>
      have hpow : ((2 ^ (-e).toNat : Nat) : Rat) * 2 ^ e = 1 := by
        rw [cast_pow_toNat_neg 2 hneg, Nat.cast_ofNat,
          inv_mul_cancel₀ (zpow_ne_zero e two_ne_zero)]
      have hmod : (m * 2 ^ e - (m / 2 ^ (-e).toNat : Nat) : Rat)
          = (m % 2 ^ (-e).toNat : Nat) * 2 ^ e := by
        have hsplit : (m : Rat) = (2 ^ (-e).toNat : Nat) * (m / 2 ^ (-e).toNat : Nat)
            + (m % 2 ^ (-e).toNat : Nat) := by
          exact_mod_cast (Nat.div_add_mod m _).symm
        rw [sub_eq_iff_eq_add]
        calc (m * 2 ^ e : Rat)
            = (2 ^ (-e).toNat : Nat) * 2 ^ e * (m / 2 ^ (-e).toNat : Nat)
              + (m % 2 ^ (-e).toNat : Nat) * 2 ^ e := by
              conv_lhs => rw [hsplit]
              ring
          _ = _ := by rw [hpow]; ring
      rw [hmod]
      exact roundsToValue_self ((Nat.mod_le _ _).trans_lt (mantissa_lt hc hp)) he.1 he.2

/-- Multiplying by a power of two is exact up to the range of numbers. -/
theorem HasValue.rounds_mul_two_pow (h : HasValue u v) {k : Nat} (hk : k ≤ 52)
    (hlt : v * 2 ^ k < 2 ^ 1024) :
    RoundsToValue (v * (2 ^ k : Nat)) (v * (2 ^ k : Nat)) := by
  cases h with
  | zero =>
    rw [zero_mul]
    exact .zero
  | @finite m e hp hc =>
    have hexp : (m * 2 ^ e * (2 ^ k : Nat) : Rat) = m * 2 ^ (e + k) := by
      rw [zpow_add₀ two_ne_zero, zpow_natCast]
      push_cast
      ring
    rw [hexp]
    refine roundsToValue_self (mantissa_lt hc hp) ?_ ?_
    · rcases hc with ⟨-, he, -⟩ | ⟨-, rfl⟩ <;> omega
    · rcases hc with ⟨hlog, -, -⟩ | ⟨-, rfl⟩
      · have hm : (2 : Rat) ^ (52 : Int) ≤ m := by
          exact_mod_cast hlog ▸ Nat.log2_self_le hp.ne'
        have hlow : (2 : Rat) ^ (52 + (e + k)) < 2 ^ (1024 : Int) := by
          rw [zpow_add₀ two_ne_zero]
          refine (mul_le_mul_of_nonneg_right hm (zpow_pos two_pos _).le).trans_lt ?_
          rw [← hexp]
          exact_mod_cast hlt
        have hlt := (zpow_lt_zpow_iff_right₀ one_lt_two).mp hlow
        omega
      · omega

/-- Dividing what is not below one by a power of two is exact. -/
theorem HasValue.rounds_div_two_pow (h : HasValue u v) (hone : 1 ≤ v) {k : Nat} (hk : k ≤ 52) :
    RoundsToValue (v / (2 ^ k : Nat)) (v / (2 ^ k : Nat)) := by
  cases h with
  | zero => exact absurd hone (by norm_num)
  | @finite m e hp hc =>
    have hexp : (m * 2 ^ e / (2 ^ k : Nat) : Rat) = m * 2 ^ (e - k) := by
      rw [zpow_sub₀ two_ne_zero, zpow_natCast]
      push_cast
      ring
    have he : 0 < 53 + e := lt_of_two_zpow_le (mantissa_lt hc hp) hone
    have he' : e ≤ 971 := by rcases hc with ⟨-, -, he'⟩ | ⟨-, rfl⟩ <;> omega
    rw [hexp]
    exact roundsToValue_self (mantissa_lt hc hp) (by omega) (by omega)

/-- A number of 53 bits in front of a place has none behind it. -/
theorem HasValue.exists_mul_two_pow (h : HasValue u v) {j : Nat} (hlow : 2 ^ 52 ≤ v * 2 ^ j) :
    ∃ n : Nat, v * 2 ^ j = n := by
  cases h with
  | zero => exact ⟨0, by rw [zero_mul, Nat.cast_zero]⟩
  | @finite m e hp hc =>
    have hexp : (m * 2 ^ e * 2 ^ j : Rat) = m * 2 ^ (e + j) := by
      rw [zpow_add₀ two_ne_zero, zpow_natCast]
      ring
    rw [hexp] at hlow ⊢
    have he : 52 < 53 + (e + j) := lt_of_two_zpow_le (mantissa_lt hc hp) hlow
    refine ⟨m * 2 ^ (e + j).toNat, ?_⟩
    rw [Nat.cast_mul, cast_pow_toNat 2 (by omega)]
    rfl

/-! ### Integer parts -/

/-- Cutting off the fraction is exact. -/
theorem HasValue.trunc (h : HasValue x.toModel.unpack v) :
    HasValue (Number.trunc x).toModel.unpack (⌊v⌋₊ : Nat) := by
  generalize hu : x.toModel.unpack = u at h
  cases h with
  | zero s =>
    obtain ⟨s', hs'⟩ := unpack_trunc_of_zero hu
    rw [hs', Nat.floor_zero, Nat.cast_zero]
    exact .zero s'
  | @finite m e hp hc =>
    rw [floor_mul_zpow]
    split
    · next he =>
      rw [trunc_of_nonneg hu he, hu, Nat.cast_mul, cast_pow_toNat 2 he, Nat.cast_ofNat]
      exact .finite hp hc
    · next he =>
      rw [unpack_trunc_of_neg hu (not_le.mp he)]
      split
      · next hk =>
        have hlt : m / 2 ^ (-e).toNat < 2 ^ 53 := (Nat.div_le_self _ _).trans_lt (mantissa_lt hc hp)
        rw [← fullMantissa_mul_zpow hk hlt]
        exact .finite _ (canonical_fullMantissa hk hlt)
      · next hk =>
        rw [Nat.eq_zero_of_not_pos hk, Nat.cast_zero]
        exact .zero _

/-- The exact value of a number that is not negative. -/
theorem HasValue.toRat_eq (h : HasValue x.toModel.unpack v) : (Dyadic.ofFloat x).toRat = v := by
  generalize hu : x.toModel.unpack = u at h
  cases h with
  | zero s =>
    rw [Dyadic.toRat, Dyadic.mantissa_ofFloat_of_unpack_eq_zero hu, Nat.cast_zero, zero_mul,
      mul_zero]
  | finite hp hc =>
    rw [(form_of_unpack hu).2]
    exact one_mul _

theorem HasValue.magnitude_eq (h : HasValue x.toModel.unpack v) :
    (Dyadic.ofFloat x).magnitude = ⌊v⌋₊ := by
  generalize hu : x.toModel.unpack = u at h
  cases h with
  | zero s =>
    rw [Dyadic.magnitude, Dyadic.mantissa_ofFloat_of_unpack_eq_zero hu, Nat.floor_zero,
      Nat.zero_mul, Nat.zero_div, ite_self]
  | finite hp hc =>
    rw [(form_of_unpack hu).2, floor_mul_zpow]
    rfl

/-- A number whose value is a natural number is read as that number. -/
theorem HasValue.toNat_eq {n : Nat} (h : HasValue x.toModel.unpack n) (hn : n < 2 ^ 53) :
    toNat x = n := by
  refine toNat_eq_of_toInt (z := n) ?_ (by exact_mod_cast hn)
  generalize hv : (n : Rat) = v at h
  generalize x.toModel.unpack = u at h
  cases h with
  | zero s =>
    rw [Nat.cast_eq_zero.mp hv]
    rfl
  | @finite m e hp hc =>
    rw [UnpackedFloat.toInt, roundToInt_eq, ← floor_mul_zpow, ← hv, Nat.floor_natCast]
    rfl

/-! ### All finite numbers -/

/-- A finite number that is not negative has its exact value. -/
theorem hasValue_of_not_lt (hf : x.isFinite) (h : ¬x < 0.0) :
    HasValue x.toModel.unpack (Dyadic.ofFloat x).toRat := by
  have hvalue : ∃ v, HasValue x.toModel.unpack v := by
    have hf' : x.toModel.unpack.isFinite = true := hf
    cases hu : x.toModel.unpack with
    | notANumber => simp [hu, UnpackedFloat.isFinite] at hf'
    | infinity s => simp [hu, UnpackedFloat.isFinite] at hf'
    | zero s => exact ⟨0, .zero s⟩
    | finite s m e hp =>
      cases s with
      | positive => exact ⟨_, .finite hp (form_of_unpack hu).1⟩
      | negative =>
        rw [Number.lt_iff, hu, unpack_zero] at h
        exact absurd rfl h
  obtain ⟨v, hv⟩ := hvalue
  rwa [hv.toRat_eq]

/-- The negative of a finite negative number has the negative value. -/
theorem hasValue_neg_of_lt (hf : x.isFinite) (h : x < 0.0) :
    HasValue (-x).toModel.unpack (-(Dyadic.ofFloat x).toRat) := by
  have hf' : x.toModel.unpack.isFinite = true := hf
  rw [Number.lt_iff, unpack_zero] at h
  match hu : x.toModel.unpack, h, hf' with
  | .finite .negative m e hp, _, _ =>
    have hform := form_of_unpack hu
    rw [unpack_neg hu, hform.2, Dyadic.toRat]
    simp only [isMinus, if_true, neg_one_mul, neg_neg]
    exact .finite hp hform.1

theorem toRat_of_beq_zero (h : x == 0.0) : (Dyadic.ofFloat x).toRat = 0 := by
  obtain ⟨s, hs⟩ := (beq_zero_iff x).mp h
  exact HasValue.toRat_eq (hs ▸ .zero s)

end Number
end ScriptEngine
