import Mathlib
import ScriptEngine.Number.Reader
import ScriptEngine.Proofs.Nearest

/-!
# Decimals read as numbers

A decimal `d * 10 ^ p` is read as the number in whose interval it lies. A short mantissa is
multiplied or divided by a power of ten that is a number itself; otherwise the exact product or
quotient of integers is rounded. Both are one rounding of the exact value.

## Main results

* `Decimal.ten_pow_le`, `Decimal.lt_ten_pow`: the digits of a natural number.
* `Number.RoundsTo.lt_ten_pow`, `Number.RoundsTo.ten_pow_lt`: the size of what rounds to a number.
* `Number.unpack_ofScientific`: a decimal in the interval of a number is read as the number.
-/

namespace ScriptEngine

/-! ### Powers as integers -/

section Power

variable (b : Nat) {e : Int}

/-- A power that is an integer. -/
theorem cast_pow_toNat (he : 0 ≤ e) : ((b ^ e.toNat : Nat) : Rat) = (b : Rat) ^ e := by
  rw [Nat.cast_pow, ← zpow_natCast, Int.toNat_of_nonneg he]

/-- A power of which the inverse is an integer. -/
theorem cast_pow_toNat_neg (he : ¬0 ≤ e) : ((b ^ (-e).toNat : Nat) : Rat) = ((b : Rat) ^ e)⁻¹ := by
  rw [cast_pow_toNat b (by omega), zpow_neg]

end Power

/-! ### The digits of a natural number -/

namespace Decimal

theorem digitCount_pos (n : Nat) : 0 < digitCount n := Nat.length_toDigits_pos

theorem lt_ten_pow (n : Nat) : n < 10 ^ digitCount n :=
  (Nat.length_toDigits_le_iff (by decide) (digitCount_pos n)).mp (Nat.le_refl _)

theorem ten_pow_le {n : Nat} (hn : 0 < n) : 10 ^ (digitCount n - 1) ≤ n := by
  have hpos := digitCount_pos n
  rcases Nat.eq_zero_or_pos (digitCount n - 1) with hzero | hk
  · rw [hzero]
    exact hn
  · refine Nat.not_lt.mp fun hlt => ?_
    have hle : digitCount n ≤ digitCount n - 1 :=
      (Nat.length_toDigits_le_iff (by decide) hk).mpr hlt
    omega

/-- There are no more decimal digits than binary ones. -/
theorem digitCount_le_log2 {n : Nat} (hn : 0 < n) : digitCount n ≤ n.log2 + 1 := by
  have hten : 2 ^ (digitCount n - 1) ≤ n :=
    (Nat.pow_le_pow_left (by decide) _).trans (ten_pow_le hn)
  have hlog := (Nat.le_log2 hn.ne').mpr hten
  omega

variable {d : Nat} (p : Int)

/-- A decimal lies between two powers of ten. -/
theorem ten_zpow_le (hd : 0 < d) : (10 : Rat) ^ ((digitCount d : Int) + p - 1) ≤ d * 10 ^ p := by
  have hpos := digitCount_pos d
  have hexp : (digitCount d : Int) + p - 1 = (digitCount d - 1 : Nat) + p := by omega
  have hle : (10 : Rat) ^ ((digitCount d - 1 : Nat) : Int) ≤ d := by
    exact_mod_cast ten_pow_le hd
  rw [hexp, zpow_add₀ (by norm_num)]
  exact mul_le_mul_of_nonneg_right hle (zpow_nonneg (by norm_num) p)

theorem lt_ten_zpow (d : Nat) : (d * 10 ^ p : Rat) < 10 ^ ((digitCount d : Int) + p) := by
  have hlt : (d : Rat) < 10 ^ (digitCount d : Int) := by exact_mod_cast lt_ten_pow d
  rw [zpow_add₀ (by norm_num)]
  exact mul_lt_mul_of_pos_right hlt (zpow_pos (by norm_num) p)

end Decimal

namespace Number

open Float.Model Float.Model.UnpackedFloat

section Range

variable {v : Rat} {n d : Nat} {k p : Int} (hn : 0 < n) (hc : Canonical n k) (hv : RoundsTo v n k)

include hn hc hv

theorem RoundsTo.lt_ten_pow : v < 10 ^ (309 : Int) := by
  have hk : k ≤ 971 := by
    rcases hc with ⟨-, -, hk⟩ | ⟨-, rfl⟩ <;> omega
  have hn53 : n + 1 ≤ 2 ^ 53 := mantissa_lt hc hn
  have hn53 : (n : Rat) + 1 ≤ 2 ^ (53 : Int) := by exact_mod_cast hn53
  have hscale : (2 : Rat) ^ k ≤ 2 ^ (971 : Int) := zpow_le_zpow_right₀ one_le_two hk
  calc v ≤ (n + 1 / 2) * 2 ^ k := hv.le
    _ ≤ 2 ^ (53 : Int) * 2 ^ (971 : Int) :=
      mul_le_mul (by linarith) hscale (zpow_pos two_pos k).le (by norm_num)
    _ = 2 ^ (1024 : Int) := by rw [← zpow_add₀ two_ne_zero]; rfl
    _ < 10 ^ (309 : Int) := by
      have hlt : (2 : Nat) ^ 1024 < 10 ^ 309 := by decide +kernel
      exact_mod_cast hlt

theorem RoundsTo.ten_pow_lt : (10 : Rat) ^ (-324 : Int) < v := by
  have hk : -1074 ≤ k := by
    rcases hc with ⟨-, hk, -⟩ | ⟨-, rfl⟩ <;> omega
  have hone : (1 : Rat) ≤ n := by exact_mod_cast hn
  have hreach := reachBelow_le n k
  have hscale : (2 : Rat) ^ (-1074 : Int) ≤ 2 ^ k := zpow_le_zpow_right₀ one_le_two hk
  calc (10 : Rat) ^ (-324 : Int) < 2 ^ (-1075 : Int) := by
        have hlt : (2 : Nat) ^ 1075 < 10 ^ 324 := by decide +kernel
        rw [zpow_neg, zpow_neg, inv_lt_inv₀ (by positivity) (by positivity)]
        exact_mod_cast hlt
    _ = 1 / 2 * 2 ^ (-1074 : Int) := by
        rw [one_div, ← zpow_neg_one, ← zpow_add₀ two_ne_zero]
        rfl
    _ ≤ (n - reachBelow n k) * 2 ^ k :=
      mul_le_mul (by linarith) hscale (zpow_pos two_pos _).le (by linarith)
    _ ≤ v := hv.ge

end Range

/-! ### Powers of ten that are numbers -/

/-- In its full form a natural number keeps its value. -/
theorem fullMantissa_mul_zpow {n : Nat} (hn : 0 < n) (h : n < 2 ^ 53) :
    (fullMantissa n * 2 ^ ((n.log2 : Int) - 52) : Rat) = n := by
  have hlog := log2_le_of_lt hn h
  have hexp : (((52 - n.log2 : Nat) : Int) + (n.log2 - 52)) = 0 := by omega
  rw [fullMantissa, Nat.cast_mul, Nat.cast_pow, Nat.cast_ofNat, mul_assoc, ← zpow_natCast,
    ← zpow_add₀ two_ne_zero, hexp, zpow_zero, mul_one]

/-- The powers of ten that are numbers have a power of five for a mantissa. -/
theorem unpack_powerOfTen {k : Nat} (hk : k < Float.exactlyRepresentablePowersOfTen.size) :
    Float.exactlyRepresentablePowersOfTen[k].toModel.unpack
      = .finite .positive (fullMantissa (5 ^ k)) ((5 ^ k).log2 - 52 + k)
        (fullMantissa_pos (Nat.pow_pos (Nat.succ_pos 4))) := by
  rw [Array.getElem_eq_getD 0.0]
  replace hk : k < 23 := hk
  interval_cases k <;> rfl

theorem five_pow_lt {k : Nat} (hk : k ≤ 22) : 5 ^ k < 2 ^ 53 :=
  (Nat.pow_le_pow_right (by decide) hk).trans_lt (by norm_num)

theorem fullMantissa_five_pow_mul_zpow {k : Nat} (hk : k ≤ 22) :
    (fullMantissa (5 ^ k) * 2 ^ (((5 ^ k).log2 : Int) - 52 + k) : Rat) = 10 ^ k := by
  have hvalue := fullMantissa_mul_zpow (Nat.pow_pos (Nat.succ_pos 4)) (five_pow_lt hk)
  rw [zpow_add₀ two_ne_zero, ← mul_assoc, hvalue, zpow_natCast, Nat.cast_pow, ← mul_pow]
  norm_num

/-! ### Reading -/

section Reading

variable {n d : Nat} {k : Int} (hn : 0 < n) (hc : Canonical n k) (hd : 0 < d)

include hn hc hd

/-- A short mantissa is multiplied by a power of ten that is a number. -/
theorem unpack_toFloat_mul {j : Nat} (hlt : d < 2 ^ 53)
    (hj : j < Float.exactlyRepresentablePowersOfTen.size) (hv : RoundsTo (d * 10 ^ j) n k) :
    (d.toUInt64.toFloat * Float.exactlyRepresentablePowersOfTen[j]).toModel.unpack
      = .finite .positive n k hn := by
  have hj' : j ≤ 22 := Nat.le_of_lt_succ hj
  have hfive : 0 < 5 ^ j := Nat.pow_pos (Nat.succ_pos 4)
  change (Float.Model.pack (UnpackedFloat.mul .binary64 _ _)).unpack = _
  rw [unpack_toFloat hlt, dif_pos hd, unpack_powerOfTen hj,
    mul_eq_finite (fullMantissa_pos hd) (fullMantissa_pos hfive) hn hc ?_ ?_,
    unpack_pack_of_canonical hc]
  · have hlow : 2 ^ 52 ≤ fullMantissa d := by
      have hlog := Nat.log2_self_le (fullMantissa_pos hd).ne'
      rwa [log2_fullMantissa hd hlt] at hlog
    refine (Nat.le_log2 (Nat.mul_pos (fullMantissa_pos hd) (fullMantissa_pos hfive)).ne').mpr ?_
    exact hlow.trans (Nat.le_mul_of_pos_right _ (fullMantissa_pos hfive))
  · rwa [fullMantissa_mul_zpow hd hlt, fullMantissa_five_pow_mul_zpow hj']

/-- A short mantissa is divided by a power of ten that is a number. -/
theorem unpack_toFloat_div {j : Nat} (hlt : d < 2 ^ 53)
    (hj : j < Float.exactlyRepresentablePowersOfTen.size) (hv : RoundsTo (d / 10 ^ j) n k) :
    (d.toUInt64.toFloat / Float.exactlyRepresentablePowersOfTen[j]).toModel.unpack
      = .finite .positive n k hn := by
  have hj' : j ≤ 22 := Nat.le_of_lt_succ hj
  change (Float.Model.pack (UnpackedFloat.div .binary64 _ _)).unpack = _
  rw [unpack_toFloat hlt, dif_pos hd, unpack_powerOfTen hj, div_eq_finite _ _ hn hc ?_,
    unpack_pack_of_canonical hc]
  rwa [fullMantissa_mul_zpow hd hlt, fullMantissa_five_pow_mul_zpow hj']

/-- Any other decimal is rounded as a product or a quotient of integers. -/
theorem ofScientific_eq_finite {p : Int} (hle : p ≤ 2048) (hge : -(2048 + d.log2) ≤ p)
    (hv : RoundsTo (d * 10 ^ p) n k) :
    UnpackedFloat.ofScientific .binary64 d p = .finite .positive n k hn := by
  have hlarge : ¬p > 2 ^ Format.binary64.exponentBits := Int.not_lt.mpr hle
  have hsmall : ¬p < -(2 ^ Format.binary64.exponentBits + (d.log2 : Int)) := Int.not_lt.mpr hge
  rw [UnpackedFloat.ofScientific, dif_neg hd.ne', if_neg hlarge, if_neg hsmall]
  split
  · next hp =>
    refine mul_eq_finite _ _ hn hc ?_ ?_
    · have hpow : 0 < 10 ^ p.toNat := Nat.pow_pos (by decide)
      refine (Nat.le_log2 (Nat.mul_pos (Nat.shiftLeft_pos_iff.mpr hd) hpow).ne').mpr ?_
      rw [Nat.shiftLeft_eq]
      calc 2 ^ 52 ≤ 2 ^ 53 := Nat.pow_le_pow_right two_pos (by decide)
        _ ≤ d * 2 ^ 53 := Nat.le_mul_of_pos_left _ hd
        _ ≤ d * 2 ^ 53 * 10 ^ p.toNat := Nat.le_mul_of_pos_right _ hpow
    · have hscale : ((d <<< Format.binary64.mantissaBits : Nat) : Rat)
          * 2 ^ (-(Format.binary64.mantissaBits : Int)) = d := by
        rw [Nat.shiftLeft_eq, Nat.cast_mul, Nat.cast_pow, Nat.cast_ofNat, zpow_neg, zpow_natCast,
          mul_assoc, mul_inv_cancel₀ (pow_ne_zero _ two_ne_zero), mul_one]
      rw [hscale, zpow_zero, mul_one, cast_pow_toNat 10 hp, Nat.cast_ofNat]
      exact hv
  · next hp =>
    refine div_eq_finite _ _ hn hc ?_
    rw [zpow_zero, mul_one, mul_one, cast_pow_toNat_neg 10 hp, Nat.cast_ofNat, div_inv_eq_mul]
    exact hv

/-- A decimal in the interval of a number is read as the number. -/
theorem unpack_ofScientific {p : Int} (hv : RoundsTo (d * 10 ^ p) n k) :
    (ofScientific d p).toModel.unpack = .finite .positive n k hn := by
  have hten : (1 : Rat) < 10 := by norm_num
  have hcount := Decimal.digitCount_pos d
  have hbits := Decimal.digitCount_le_log2 hd
  have hhigh : (Decimal.digitCount d : Int) + p - 1 < 309 := (zpow_lt_zpow_iff_right₀ hten).mp
    ((Decimal.ten_zpow_le p hd).trans_lt (hv.lt_ten_pow hn hc))
  have hlow : -324 < (Decimal.digitCount d : Int) + p := (zpow_lt_zpow_iff_right₀ hten).mp
    ((hv.ten_pow_lt hn hc).trans (Decimal.lt_ten_zpow p d))
  rw [ofScientific, if_neg hd.ne', if_neg (by omega), if_neg (by omega), Float.ofScientific]
  split
  · next hshort =>
    split
    · next hp =>
      have hneg : p = -(p.natAbs : Int) := by
        have hp := of_decide_eq_true hp
        omega
      refine unpack_toFloat_div hn hc hd hshort.1 (Nat.lt_succ_of_le hshort.2) ?_
      rwa [hneg, zpow_neg, zpow_natCast, ← div_eq_mul_inv] at hv
    · next hp =>
      have hpos : p = (p.natAbs : Int) := by
        have hp := mt decide_eq_true hp
        omega
      refine unpack_toFloat_mul hn hc hd hshort.1 (Nat.lt_succ_of_le hshort.2) ?_
      rwa [hpos, zpow_natCast] at hv
  · have hexp : (if decide (p < 0) = true then Int.negOfNat p.natAbs else Int.ofNat p.natAbs)
        = p := by
      split
      · next hp =>
        have hp := of_decide_eq_true hp
        rw [Int.negOfNat_eq, Int.ofNat_eq_natCast]
        omega
      · next hp =>
        have hp := mt decide_eq_true hp
        exact Int.natAbs_of_nonneg (Int.not_lt.mp hp)
    simp only [hexp]
    change (Float.Model.pack (UnpackedFloat.ofScientific .binary64 d p)).unpack = _
    rw [ofScientific_eq_finite hn hc hd (by omega) (by omega) hv, unpack_pack_of_canonical hc]

end Reading

end Number
end ScriptEngine
