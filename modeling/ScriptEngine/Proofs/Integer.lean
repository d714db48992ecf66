import Mathlib
import ScriptEngine.Number.Exact

/-!
# Natural numbers among the numbers

Natural numbers of at most 53 bits are numbers, and the conversions of the language between the two
lose nothing. A number is taken apart here into sign, mantissa and exponent, as the logical model of
doubles has it; a natural number has the form with a mantissa of exactly 53 bits, and this form
passes unchanged through rounding and through the bits of the double.

## Main results

* `Number.unpack_ofNat`: the form of a natural number.
* `Number.toNat_ofNat`: a natural number is read back from its number.
* `Number.toUint32_of_beq`: every number that equals a natural number of 32 bits is converted to it.
-/

namespace ScriptEngine

namespace Number

open Float.Model Float.Model.UnpackedFloat

/-! ### Rounding of what needs none -/

theorem shiftRight_exact (m k : Nat) :
    (⟨m * 2 ^ k, false, false⟩ : ExtendedMantissa) >>> k = ⟨m, false, false⟩ := by
  change k.repeat ExtendedMantissa.shiftRightOne _ = _
  induction k generalizing m with
  | zero => simp [Nat.repeat]
  | succ k ih =>
    rw [Nat.repeat, Nat.pow_succ', ← Nat.mul_assoc, ih]
    simp [ExtendedMantissa.shiftRightOne]

theorem log2_mul_two_pow {m : Nat} (hm : 0 < m) (k : Nat) : (m * 2 ^ k).log2 = m.log2 + k := by
  have hk := Nat.two_pow_pos k
  have hmk : m * 2 ^ k ≠ 0 := Nat.pos_iff_ne_zero.mp (Nat.mul_pos hm hk)
  rw [Nat.log2_eq_iff hmk, Nat.add_right_comm, Nat.pow_add, Nat.pow_add]
  exact ⟨Nat.mul_le_mul_right _ (Nat.log2_self_le (Nat.pos_iff_ne_zero.mp hm)),
    Nat.mul_lt_mul_of_pos_right Nat.lt_log2_self hk⟩

section Normal

-- a mantissa of 53 bits and an exponent in the range of doubles
variable {m : Nat} {e : Int} (hm : m.log2 = 52) (hp : 0 < m) (he : -1074 ≤ e)

include hm hp he

theorem shiftToTargetExponent_exact (k : Nat) :
    shiftToTargetExponent .binary64 (m * 2 ^ k) (e - k) .exact = (⟨m, false, false⟩, e) := by
  have ht : Format.binary64.targetExponent (totalExponent (m * 2 ^ k) (e - k)) = e := by
    simp only [Format.targetExponent, totalExponent, log2_mul_two_pow hp, hm, Format.mantissaBits,
      Format.minExponent]
    omega
  have hk : (e - (e - k)).toNat = k := by omega
  simp only [shiftToTargetExponent, ht, shiftToExponent, hk, ExtendedMantissa.ofMantissaAndAccuracy,
    shiftRight_exact, Int.sub_add_cancel]

theorem roundWithAccuracy_exact (s : Sign) (k : Nat) :
    roundWithAccuracy .binary64 s (m * 2 ^ k) (e - k) .exact = .finite s m e hp := by
  have h := shiftToTargetExponent_exact hm hp he 0
  simp only [Nat.pow_zero, Nat.mul_one, Int.natCast_zero, Int.sub_zero] at h
  simp only [roundWithAccuracy, shiftToTargetExponent_exact hm hp he k,
    ExtendedMantissa.roundedMantissa, ExtendedMantissa.accuracy, Accuracy.roundToNearestEven, h,
    Nat.pos_iff_ne_zero.mp hp, ↓reduceDIte]

end Normal

/-! ### The bits of a double -/

theorem toNat_unpackMantissa (b : BitVec 64) :
    (@unpackMantissa .binary64 b).toNat = b.toNat % 2 ^ 52 := by
  simp [unpackMantissa]

theorem toNat_unpackExponent (b : BitVec 64) :
    (@unpackExponent .binary64 b).toNat = b.toNat / 2 ^ 52 % 2 ^ 11 := by
  simp [unpackExponent, Nat.shiftRight_eq_div_pow]

theorem toNat_unpackSign (b : BitVec 64) : (@unpackSign .binary64 b).toNat = b.toNat / 2 ^ 63 := by
  have hb : b.toNat / 2 ^ 63 < 2 := Nat.div_lt_of_lt_mul b.isLt
  simpa [unpackSign, Nat.shiftRight_eq_div_pow] using hb

theorem toNat_packComponents (s : Sign) (e : BitVec 11) (m : BitVec 52) :
    (packComponents .binary64 s e m).toNat
      = (s.toBitVec.toNat * 2 ^ 11 + e.toNat) * 2 ^ 52 + m.toNat := by
  unfold packComponents
  rw [BitVec.toNat_append, ← Nat.shiftLeft_add_eq_or_of_lt m.isLt, BitVec.toNat_append,
    ← Nat.shiftLeft_add_eq_or_of_lt e.isLt, Nat.shiftLeft_eq, Nat.shiftLeft_eq]

theorem unpackSign_packComponents (s : Sign) (e : BitVec 11) (m : BitVec 52) :
    Sign.ofBitVec (unpackSign (packComponents .binary64 s e m)) = s := by
  have h : unpackSign (packComponents .binary64 s e m) = s.toBitVec := by
    apply BitVec.eq_of_toNat_eq
    rw [toNat_unpackSign, toNat_packComponents]
    omega
  rw [h]
  cases s
  · rfl
  · rfl

/-- The leading bit of the mantissa of a normal number is not stored. -/
theorem toNat_implicit (m : BitVec 52) : (1#1 ++ m).toNat = 2 ^ 52 + m.toNat := by
  rw [BitVec.toNat_append, ← Nat.shiftLeft_add_eq_or_of_lt m.isLt]
  rfl

theorem unpack_pack {m : Nat} {e : Int} (hm : m.log2 = 52) (hp : 0 < m) (he : -1074 ≤ e)
    (he' : e ≤ 971) (s : Sign) :
    (Float.Model.pack (.finite s m e hp)).unpack = .finite s m e hp := by
  obtain ⟨hl, hu⟩ := (Nat.log2_eq_iff (by omega)).mp hm
  have hb : (e + (Format.binary64.exponentBias : Nat) + (52 : Nat)).toNat = (e + 1075).toNat := by
    simp only [Format.exponentBias]
    omega
  -- the biased exponent is neither that of zero nor that of infinity
  have h1 : BitVec.ofNat 11 (e + 1075).toNat ≠ -1#11 := by
    intro h
    have h := congrArg BitVec.toNat h
    simp only [BitVec.toNat_ofNat, BitVec.neg_one_eq_allOnes, BitVec.toNat_allOnes] at h
    omega
  have h0 : BitVec.ofNat 11 (e + 1075).toNat ≠ 0#11 := by
    intro h
    have h := congrArg BitVec.toNat h
    simp only [BitVec.toNat_ofNat, Nat.zero_mod] at h
    omega
  simp only [Float.Model.pack, Float.Model.unpack, UnpackedFloat.pack, hm, hb]
  rw [if_neg (by omega), if_pos (by rfl)]
  simp only [UnpackedFloat.unpack, unpackExponent_packComponents, unpackMantissa_packComponents,
    unpackSign_packComponents, if_neg h1, if_neg h0, toNat_implicit]
  congr 1
  · simp only [BitVec.toNat_ofNat]
    omega
  · simp only [BitVec.toNat_ofNat, Format.exponentBias]
    omega

/-! ### The form of a natural number -/

section Nat

variable {n : Nat}

/-- A natural number with zeros added up to 53 bits. -/
def fullMantissa (n : Nat) : Nat := n * 2 ^ (52 - n.log2)

theorem fullMantissa_pos (hn : 0 < n) : 0 < fullMantissa n := Nat.mul_pos hn (Nat.two_pow_pos _)

/-- A natural number is made a number as a machine integer times one. -/
theorem ofNat_eq_mul_one (h : n < 2 ^ 53) :
    Float.ofNat n = n.toUInt64.toFloat * Float.ofBits 0x3FF0000000000000 := by
  change Float.ofScientific n false 0 = _
  rw [Float.ofScientific, dif_pos ⟨h, by omega⟩]
  rfl

theorem unpack_one : (Float.ofBits 0x3FF0000000000000).toModel.unpack
    = .finite .positive (2 ^ 52) (-52) (by decide) :=
  rfl

variable (hn : 0 < n) (h : n < 2 ^ 53)

include hn h

theorem log2_le_of_lt : n.log2 ≤ 52 :=
  Nat.le_of_lt_succ ((Nat.log2_lt (Nat.pos_iff_ne_zero.mp hn)).mpr h)

theorem log2_fullMantissa : (fullMantissa n).log2 = 52 := by
  have hlog := log2_le_of_lt hn h
  rw [fullMantissa, log2_mul_two_pow hn]
  omega

theorem ofNat_eq_finite : UnpackedFloat.ofNat .binary64 n
    = .finite .positive (fullMantissa n) (n.log2 - 52) (fullMantissa_pos hn) := by
  have hlog := log2_le_of_lt hn h
  have ht : Format.binary64.targetExponent (totalExponent n 0) = n.log2 - 52 := by
    simp only [Format.targetExponent, totalExponent, Format.mantissaBits, Format.minExponent]
    omega
  have hc : compare (n : Int) 0 = .gt := by
    rw [Int.compare_eq_gt]
    omega
  have hs : (0 - ((n.log2 : Int) - 52)).toNat = 52 - n.log2 := by omega
  have he : (0 : Int) - (52 - n.log2 : Nat) = n.log2 - 52 := by omega
  have hround := roundWithAccuracy_exact (log2_fullMantissa hn h) (fullMantissa_pos hn)
    (e := n.log2 - 52) (by omega) .positive 0
  simp only [Nat.pow_zero, Nat.mul_one, Int.natCast_zero, Int.sub_zero] at hround
  simp only [UnpackedFloat.ofNat, UnpackedFloat.ofInt, UnpackedFloat.normalize, hc,
    UnpackedFloat.round, Int.toNat_natCast, ht, decreaseExponent, hs, he, Nat.shiftLeft_eq]
  exact hround

theorem unpack_ofNat : (Float.ofNat n).toModel.unpack
    = .finite .positive (fullMantissa n) (n.log2 - 52) (fullMantissa_pos hn) := by
  have hlog := log2_le_of_lt hn h
  have hm := log2_fullMantissa hn h
  have hp := fullMantissa_pos hn
  have he : (-1074 : Int) ≤ (n.log2 : Int) - 52 := by omega
  have hu : n.toUInt64.toNat = n := by
    rw [Nat.toUInt64, UInt64.toNat_ofNat']
    omega
  have hproduct : (n.log2 : Int) - 52 + -52 = (n.log2 : Int) - 52 - (52 : Nat) := by omega
  rw [ofNat_eq_mul_one h]
  change (Float.Model.pack (UnpackedFloat.mul .binary64
    (Float.Model.pack (UnpackedFloat.ofNat .binary64 n.toUInt64.toNat)).unpack
    (Float.ofBits 0x3FF0000000000000).toModel.unpack)).unpack = _
  rw [hu, ofNat_eq_finite hn h, unpack_pack hm hp he (by omega), unpack_one]
  simp only [UnpackedFloat.mul]
  rw [hproduct, roundWithAccuracy_exact hm hp he, unpack_pack hm hp he (by omega)]
  rfl

/-! ### Reading natural numbers back -/

theorem toInt_unpack_ofNat (low high : Int) :
    (Float.ofNat n).toModel.unpack.toInt low high = n := by
  have hlog := log2_le_of_lt hn h
  have hs : ((n.log2 : Int) - 52 - 0).toNat = 0 := by omega
  have hk : (0 - ((n.log2 : Int) - 52 - (0 : Nat))).toNat = 52 - n.log2 := by omega
  rw [unpack_ofNat hn h]
  simp only [UnpackedFloat.toInt, roundToInt, decreaseExponent, hs, Nat.shiftLeft_zero,
    shiftToExponent, hk, ExtendedMantissa.ofMantissaAndAccuracy, fullMantissa, shiftRight_exact,
    Sign.apply]

end Nat

/-- A natural number of 53 bits is read back from its number. -/
theorem toNat_ofNat {n : Nat} (h : n < 2 ^ 53) : toNat (Float.ofNat n) = n := by
  rcases Nat.eq_zero_or_pos n with rfl | hn
  · rfl
  · change (UInt64.ofNatClamp ((Float.ofNat n).toModel.unpack.toInt 0 _).toNat).toNat = n
    rw [toInt_unpack_ofNat hn h, Int.toNat_natCast, UInt64.ofNatClamp,
      dif_pos (Nat.lt_trans h (by decide)), UInt64.toNat_ofNatLT]

end Number

namespace Dyadic

open Float.Model Float.Model.UnpackedFloat Number

variable {x : Float}

theorem ofFloat_eq_of_bits {b : BitVec 64} (hx : x.toModel.toBits.toBitVec = b) :
    ofFloat x =
      { negative := decide (2 ^ 63 ≤ b.toNat)
        mantissa := if (@unpackExponent .binary64 b).toNat = 0
          then (@unpackMantissa .binary64 b).toNat
          else 2 ^ 52 + (@unpackMantissa .binary64 b).toNat
        exponent := if (@unpackExponent .binary64 b).toNat = 0
          then -1074 else ((@unpackExponent .binary64 b).toNat : Int) - 1075 } := by
  rw [toNat_unpackExponent, toNat_unpackMantissa, ← hx]
  rfl

theorem lt_of_ofBitVec_unpackSign {b : BitVec 64}
    (h : Sign.ofBitVec (@unpackSign .binary64 b) = .positive) : b.toNat < 2 ^ 63 := by
  have hz : @unpackSign .binary64 b = 0#1 := by
    refine Decidable.byContradiction fun hne => ?_
    rw [Sign.ofBitVec, if_neg hne] at h
    cases h
  have hs := toNat_unpackSign b
  rw [hz, BitVec.toNat_ofNat] at hs
  omega

/-- The exact value of a positive number is what the model of doubles takes it apart into. -/
theorem ofFloat_of_unpack_eq_finite {m : Nat} {e : Int} {hp : 0 < m}
    (h : x.toModel.unpack = .finite .positive m e hp) : ofFloat x = ⟨false, m, e⟩ := by
  unfold Float.Model.unpack at h
  generalize hx : x.toModel.toBits.toBitVec = b at h
  rw [ofFloat_eq_of_bits hx]
  unfold UnpackedFloat.unpack at h
  simp only [Format.exponentBias] at h
  split at h
  · split at h <;> cases h
  · split at h
    · next hzero =>
      split at h
      · cases h
      · injection h with hsign hmantissa hexponent
        have hb := lt_of_ofBitVec_unpackSign hsign
        rw [hzero] at hexponent ⊢
        simp only [BitVec.toNat_ofNat, Nat.zero_mod, if_true, hmantissa, Dyadic.mk.injEq,
          decide_eq_false_iff_not]
        simp only [BitVec.toNat_ofNat, Nat.zero_mod] at hexponent
        exact ⟨by omega, trivial, by omega⟩
    · next hnonzero =>
      injection h with hsign hmantissa hexponent
      have hb := lt_of_ofBitVec_unpackSign hsign
      have hne : (@unpackExponent .binary64 b).toNat ≠ 0 := fun hz =>
        hnonzero (BitVec.eq_of_toNat_eq hz)
      rw [toNat_implicit] at hmantissa
      simp only [if_neg hne, hmantissa, Dyadic.mk.injEq, decide_eq_false_iff_not]
      exact ⟨by omega, trivial, by omega⟩

theorem mantissa_ofFloat_of_unpack_eq_zero {s : Sign} (h : x.toModel.unpack = .zero s) :
    (ofFloat x).mantissa = 0 := by
  unfold Float.Model.unpack at h
  generalize hx : x.toModel.toBits.toBitVec = b at h
  rw [ofFloat_eq_of_bits hx]
  unfold UnpackedFloat.unpack at h
  simp only at h
  split at h
  · split at h <;> cases h
  · split at h
    · next hzero =>
      split at h
      · next hmzero =>
        rw [hzero, hmzero]
        rfl
      · cases h
    · cases h

end Dyadic

namespace Number

open Float.Model Float.Model.UnpackedFloat

/-- A number that equals a natural number has the form of that number, up to the sign of zero. -/
theorem unpack_of_beq {n : Nat} {x : Float} (hn : 0 < n) (h : n < 2 ^ 53)
    (heq : Float.ofNat n == x) : x.toModel.unpack
      = .finite .positive (fullMantissa n) (n.log2 - 52) (fullMantissa_pos hn) := by
  have hc : (Float.ofNat n).toModel.unpack.compare x.toModel.unpack = some .eq := eq_of_beq heq
  rw [unpack_ofNat hn h] at hc
  match hx : x.toModel.unpack, hc with
  | .finite .positive m e hp, hc =>
    simp only [UnpackedFloat.compare, Option.some.injEq, Ordering.then_eq_eq,
      Int.compare_eq_eq, Nat.compare_eq_eq] at hc
    obtain ⟨rfl, rfl⟩ := hc
    rfl
  | .infinity .positive, hc => cases hc
  | .infinity .negative, hc => cases hc

theorem unpack_of_zero_beq {x : Float} (h : Float.ofNat 0 == x) :
    ∃ s, x.toModel.unpack = .zero s := by
  have hc : (Float.ofNat 0).toModel.unpack.compare x.toModel.unpack = some .eq := eq_of_beq h
  change (UnpackedFloat.zero .positive).compare x.toModel.unpack = some .eq at hc
  match hx : x.toModel.unpack, hc with
  | .zero s, _ => exact ⟨s, rfl⟩
  | .infinity .positive, hc => cases hc
  | .infinity .negative, hc => cases hc

theorem magnitude_fullMantissa {n : Nat} (hn : 0 < n) (h : n < 2 ^ 53) :
    Dyadic.magnitude ⟨false, fullMantissa n, n.log2 - 52⟩ = n := by
  have hlog := log2_le_of_lt hn h
  simp only [Dyadic.magnitude, fullMantissa, twoPow, Nat.pow_eq]
  split
  · have hk : 52 - n.log2 = 0 := by omega
    have hz : ((n.log2 : Int) - 52).toNat = 0 := by omega
    rw [hk, hz, Nat.pow_zero, Nat.mul_one, Nat.mul_one]
  · have hk : (-((n.log2 : Int) - 52)).toNat = 52 - n.log2 := by omega
    rw [hk, Nat.mul_div_cancel n (Nat.two_pow_pos _)]

/-- Every number that equals a natural number of 32 bits is converted to it. -/
theorem toUint32_of_beq {n : Nat} {x : Float} (h : n < twoPow 32) (heq : Float.ofNat n == x) :
    toUint32 x = n := by
  have h53 : n < 2 ^ 53 := Nat.lt_trans h (by decide)
  rcases Nat.eq_zero_or_pos n with rfl | hn
  · obtain ⟨s, hs⟩ := unpack_of_zero_beq heq
    have hf : x.isFinite = true := congrArg UnpackedFloat.isFinite hs
    have hm := Dyadic.mantissa_ofFloat_of_unpack_eq_zero hs
    simp [toUint32, hf, Dyadic.toInt, Dyadic.magnitude, hm]
  · have hu := unpack_of_beq hn h53 heq
    have hf : x.isFinite = true := congrArg UnpackedFloat.isFinite hu
    have hmod : (n : Int) % (twoPow 32 : Nat) = n := by
      rw [← Int.natCast_emod, Nat.mod_eq_of_lt h]
    simp only [toUint32, hf, if_true, Dyadic.ofFloat_of_unpack_eq_finite hu, Dyadic.toInt,
      Bool.false_eq_true, if_false, magnitude_fullMantissa hn h53, hmod, Int.toNat_natCast]

theorem toUint32_lt (x : Float) : toUint32 x < twoPow 32 := by
  unfold toUint32
  split
  · have hlt := Int.emod_lt_of_pos (Dyadic.ofFloat x).toInt (b := (twoPow 32 : Nat)) (by decide)
    have hnonneg := Int.emod_nonneg (Dyadic.ofFloat x).toInt (b := (twoPow 32 : Nat)) (by decide)
    omega
  · decide

end Number
end ScriptEngine
