import ScriptEngine.Proofs.Integer

/-!
# The integer part of a number

The integer part of a number is a number again, and it is exact: it has the form of the integer that
the exact value of the number is rounded to, towards zero. Integers are compared and added in this
form. An integer of at most 53 bits has a mantissa of exactly 53 bits, any other one has an exponent
above zero.

## Main definitions

* `Number.Canonical`: the mantissas and exponents of doubles.
* `Number.IsInteger`: the form of an integer.

## Main results

* `Number.form_of_unpack`: what the bits of a finite number say of its form.
* `Number.isInteger_integerOrInfinity`: the integer part has the form of an integer.
* `Number.IsInteger.toNat_eq`, `Number.IsInteger.lt_zero_iff`, `Number.IsInteger.ofNat_lt_iff`:
  reading integers back and comparing them.
* `Number.toNat_add_of_neg`: the sum of a natural number and a negative integer.
* `Number.isInteger_sub`, `Number.ofNat_sub_one`: differences of natural numbers.
-/

namespace ScriptEngine.Number

open Float.Model Float.Model.UnpackedFloat

/-! ### Forms of doubles -/

/-- A number is known by its form. -/
theorem eq_of_unpack {x y : Float} (h : x.toModel.unpack = y.toModel.unpack) : x = y := by
  obtain ⟨⟨bits, hbits⟩⟩ := x
  obtain ⟨⟨bits', hbits'⟩⟩ := y
  obtain rfl : bits = bits' := UInt64.toBitVec_inj.mp ((unpack_inj_of_valid hbits hbits').mp h)
  rfl

/-- Whether a sign is that of the negative numbers. -/
def isMinus : Sign → Bool
  | .negative => true
  | .positive => false

/-- A mantissa and an exponent are those that a double has. -/
def Canonical (m : Nat) (e : Int) : Prop :=
  m.log2 = 52 ∧ -1074 ≤ e ∧ e ≤ 971 ∨ m.log2 < 52 ∧ e = -1074

variable {x : Float} {s : Sign} {m : Nat} {e : Int} {hp : 0 < m}

theorem isMinus_ofBitVec (b : BitVec 64) :
    isMinus (Sign.ofBitVec (@unpackSign .binary64 b)) = decide (2 ^ 63 ≤ b.toNat) := by
  have hs := toNat_unpackSign b
  have hb := b.isLt
  unfold Sign.ofBitVec
  split
  · next hz =>
    rw [hz, BitVec.toNat_ofNat] at hs
    symm
    rw [isMinus, decide_eq_false_iff_not]
    omega
  · next hz =>
    have hne : (@unpackSign .binary64 b).toNat ≠ 0 := fun h =>
      hz (BitVec.eq_of_toNat_eq (by simpa using h))
    symm
    rw [isMinus, decide_eq_true_iff]
    omega

/-- What the bits of a finite number say of its form. -/
theorem form_of_unpack (h : x.toModel.unpack = .finite s m e hp) :
    Canonical m e ∧ Dyadic.ofFloat x = ⟨isMinus s, m, e⟩ := by
  unfold Float.Model.unpack at h
  generalize hx : x.toModel.toBits.toBitVec = b at h
  have hexp : (@unpackExponent .binary64 b).toNat < 2 ^ 11 := BitVec.isLt _
  have hman : (@unpackMantissa .binary64 b).toNat < 2 ^ 52 := BitVec.isLt _
  rw [Dyadic.ofFloat_eq_of_bits hx, ← isMinus_ofBitVec]
  unfold UnpackedFloat.unpack at h
  simp only [Format.exponentBias] at h
  split at h
  · split at h <;> cases h
  · next hfinite =>
    have hne1 : (@unpackExponent .binary64 b).toNat ≠ 2047 := fun hz =>
      hfinite (BitVec.eq_of_toNat_eq (by simpa using hz))
    split at h
    · next hzero =>
      split at h
      · cases h
      · next hm0 =>
        injection h with hsign hmantissa hexponent
        rw [hzero] at hexponent ⊢
        simp only [BitVec.toNat_ofNat, Nat.zero_mod] at hexponent
        have he : e = -1074 := by omega
        subst hsign hmantissa
        refine ⟨.inr ⟨?_, he⟩, ?_⟩
        · exact (Nat.log2_lt (Nat.pos_iff_ne_zero.mp hp)).mpr hman
        · simp [he]
    · next hnonzero =>
      injection h with hsign hmantissa hexponent
      have hne : (@unpackExponent .binary64 b).toNat ≠ 0 := fun hz =>
        hnonzero (BitVec.eq_of_toNat_eq hz)
      rw [toNat_implicit] at hmantissa
      subst hsign
      refine ⟨.inl ⟨?_, by omega, by omega⟩, ?_⟩
      · rw [Nat.log2_eq_iff (by omega)]
        omega
      · simp only [if_neg hne, hmantissa, Dyadic.mk.injEq]
        exact ⟨trivial, trivial, by omega⟩

/-! ### Signs -/

/-- The sign bit is that of the form. -/
theorem signBit_eq (x : Float) :
    signBit x = isMinus (Sign.ofBitVec (@unpackSign .binary64 x.toModel.toBits.toBitVec)) := by
  rw [isMinus_ofBitVec]
  rfl

/-- The sign of a form, if it has one. -/
def sign? : UnpackedFloat → Option Sign
  | .notANumber => none
  | .infinity s => some s
  | .zero s => some s
  | .finite s _ _ _ => some s

theorem signBit_of_unpack (h : sign? x.toModel.unpack = some s) : signBit x = isMinus s := by
  rw [signBit_eq]
  unfold Float.Model.unpack UnpackedFloat.unpack at h
  simp only at h
  refine congrArg isMinus (Option.some.inj (Eq.trans ?_ h))
  split at h
  · split at h
    · next hexp hman => rw [if_pos hexp, if_pos hman, sign?]
    · cases h
  · next hfinite =>
    rw [if_neg hfinite]
    split
    · split
      · rfl
      · rfl
    · rfl

/-! ### Rounding and negation -/

/-- The form of a double passes unchanged through its bits. -/
theorem unpack_pack_of_canonical (hc : Canonical m e) (s : Sign) :
    (Float.Model.pack (.finite s m e hp)).unpack = .finite s m e hp := by
  rcases hc with ⟨hm, he, he'⟩ | ⟨hm, rfl⟩
  · exact unpack_pack hm hp he he' s
  · have hlt : m < 2 ^ 52 := (Nat.log2_lt (Nat.pos_iff_ne_zero.mp hp)).mp hm
    have hm0 : BitVec.ofNat 52 m ≠ 0#52 := by
      intro h
      have h := congrArg BitVec.toNat h
      simp only [BitVec.toNat_ofNat, Nat.zero_mod] at h
      omega
    have hbits : m.log2 + 1 ≠ Format.binary64.mantissaBits := by
      simp only [Format.mantissaBits]
      omega
    have hpack : UnpackedFloat.pack .binary64 (.finite s m (-1074) hp)
        = packComponents .binary64 s 0#11 (BitVec.ofNat 52 m) := by
      unfold UnpackedFloat.pack
      have hrange : ¬2 ^ Format.binary64.exponentBits
          ≤ ((-1074 : Int) + Format.binary64.exponentBias
            + Format.binary64.mantissaBitsWithoutImplicit).toNat + 1 := by
        decide
      exact (if_neg hrange).trans (if_neg hbits)
    simp only [Float.Model.pack, Float.Model.unpack, hpack]
    have hzero : (0#11 : BitVec 11) ≠ -1#11 := by decide
    simp only [UnpackedFloat.unpack, unpackExponent_packComponents, unpackMantissa_packComponents,
      unpackSign_packComponents, if_neg hzero, dif_neg hm0, if_true]
    congr 1
    simp only [BitVec.toNat_ofNat]
    omega

theorem unpack_neg (h : x.toModel.unpack = .finite s m e hp) :
    (-x).toModel.unpack = .finite (-s) m e hp := by
  change (Float.Model.pack x.toModel.unpack.neg).unpack = _
  rw [h]
  exact unpack_pack_of_canonical (form_of_unpack h).1 _

theorem unpack_abs (h : x.toModel.unpack = .finite s m e hp) :
    x.abs.toModel.unpack = .finite .positive m e hp := by
  change (Float.Model.pack x.toModel.unpack.abs).unpack = _
  rw [h]
  exact unpack_pack_of_canonical (form_of_unpack h).1 _

theorem mantissa_shiftRight (em : ExtendedMantissa) (k : Nat) :
    (em >>> k).mantissa = em.mantissa / 2 ^ k := by
  change (k.repeat ExtendedMantissa.shiftRightOne em).mantissa = _
  induction k with
  | zero => simp [Nat.repeat]
  | succ k ih =>
    rw [Nat.repeat, Nat.pow_succ, ← Nat.div_div_eq_div_mul, ← ih]
    rfl

/-- The integer part of a form. -/
theorem roundToInt_eq (s : Sign) (m : Nat) (e : Int) :
    roundToInt s m e = s.apply (if 0 ≤ e then m * 2 ^ e.toNat else m / 2 ^ (-e).toNat : Nat) := by
  simp only [roundToInt, decreaseExponent, shiftToExponent, mantissa_shiftRight,
    ExtendedMantissa.ofMantissaAndAccuracy, Nat.shiftLeft_eq]
  split
  · next h =>
    have h0 : (0 - (e - ((e - 0).toNat : Int))).toNat = 0 := by omega
    rw [h0, Nat.pow_zero, Nat.div_one, Int.sub_zero]
  · next h =>
    have h0 : (e - 0).toNat = 0 := by omega
    have h1 : (0 - (e - ((0 : Nat) : Int))).toNat = (-e).toNat := by omega
    rw [h0, h1, Nat.pow_zero, Nat.mul_one]

/-! ### Integer parts -/

/-- The integer whose form a number has. -/
inductive IsInteger : UnpackedFloat → Int → Prop
  | zero (s : Sign) : IsInteger (.zero s) 0
  | small (s : Sign) {k : Nat} (hk : 0 < k) (h : k < 2 ^ 53) :
      IsInteger (.finite s (fullMantissa k) (k.log2 - 52) (fullMantissa_pos hk)) (s.apply k)
  | large (s : Sign) {m : Nat} {e : Int} (hp : 0 < m) (hm : m.log2 = 52) (he : 0 < e)
      (he' : e ≤ 971) : IsInteger (.finite s m e hp) (s.apply (m * 2 ^ e.toNat : Nat))

theorem canonical_fullMantissa {k : Nat} (hk : 0 < k) (h : k < 2 ^ 53) :
    Canonical (fullMantissa k) (k.log2 - 52) := by
  have hlog := log2_le_of_lt hk h
  exact .inl ⟨log2_fullMantissa hk h, by omega, by omega⟩

theorem unpack_limit : (4503599627370496.0 : Float).toModel.unpack
    = .finite .positive (2 ^ 52) 0 (by decide) := by
  rfl

theorem mantissa_lt (h : Canonical m e) (hp : 0 < m) : m < 2 ^ 53 := by
  refine (Nat.log2_lt (Nat.pos_iff_ne_zero.mp hp)).mp ?_
  rcases h with ⟨h, -⟩ | ⟨h, -⟩ <;> omega

theorem lt_iff (x y : Float) :
    x < y ↔ x.toModel.unpack.compare y.toModel.unpack = some .lt :=
  decide_eq_true_iff.trans beq_iff_eq

theorem le_iff (x y : Float) :
    x ≤ y ↔ (x.toModel.unpack.compare y.toModel.unpack).any (·.isLE) :=
  decide_eq_true_iff

theorem zero_le_iff (h : x.isNaN = false) : 0.0 ≤ x ↔ ¬x < 0.0 := by
  have h' : x.toModel.unpack.isNaN = false := h
  have hzero : (0.0 : Float).toModel.unpack = .zero .positive := rfl
  rw [le_iff, lt_iff, hzero]
  cases hu : x.toModel.unpack with
  | notANumber => simp [hu, UnpackedFloat.isNaN] at h'
  | infinity s => cases s <;> simp [UnpackedFloat.compare]
  | zero s => simp [UnpackedFloat.compare]
  | finite s m e hp => cases s <;> simp [UnpackedFloat.compare]

/-- A magnitude has a fractional part, or is below one, if its exponent is negative. -/
theorem abs_lt_limit (h : x.toModel.unpack = .finite s m e hp) :
    x.abs < 4503599627370496.0 ↔ e < 0 := by
  rw [lt_iff, unpack_abs h, unpack_limit, UnpackedFloat.compare]
  rcases (form_of_unpack h).1 with ⟨hm, -, -⟩ | ⟨-, rfl⟩
  · have hle := ((Nat.log2_eq_iff (Nat.pos_iff_ne_zero.mp hp)).mp hm).1
    rcases Int.lt_trichotomy e 0 with hlt | rfl | hgt
    · rw [Int.compare_eq_lt.mpr hlt]
      simpa using hlt
    · rw [Int.compare_eq_eq.mpr rfl]
      simp only [Ordering.then, Option.some.injEq, Nat.compare_eq_lt, Int.lt_irrefl, iff_false]
      exact Nat.not_lt.mpr hle
    · rw [Int.compare_eq_gt.mpr hgt]
      simp [Int.le_of_lt hgt]
  · exact iff_of_true rfl (by decide)

theorem unpack_toFloat {q : Nat} (hq : q < 2 ^ 53) :
    q.toUInt64.toFloat.toModel.unpack = if hk : 0 < q
      then .finite .positive (fullMantissa q) (q.log2 - 52) (fullMantissa_pos hk)
      else .zero .positive := by
  have hu : q.toUInt64.toNat = q := by
    rw [Nat.toUInt64, UInt64.toNat_ofNat']
    omega
  change (Float.Model.pack (UnpackedFloat.ofNat .binary64 q.toUInt64.toNat)).unpack = _
  rw [hu]
  split
  · next hk => rw [ofNat_eq_finite hk hq, unpack_pack_of_canonical (canonical_fullMantissa hk hq)]
  · next hk =>
    obtain rfl : q = 0 := by omega
    rfl

/-- A number with a fractional part loses it. -/
theorem unpack_trunc_of_neg (h : x.toModel.unpack = .finite s m e hp) (he : e < 0) :
    (trunc x).toModel.unpack = if hk : 0 < m / 2 ^ (-e).toNat
      then .finite s (fullMantissa (m / 2 ^ (-e).toNat)) ((m / 2 ^ (-e).toNat).log2 - 52)
        (fullMantissa_pos hk)
      else .zero s := by
  obtain ⟨hc, -⟩ := form_of_unpack h
  have hq : m / 2 ^ (-e).toNat < 2 ^ 53 :=
    Nat.lt_of_le_of_lt (Nat.div_le_self _ _) (mantissa_lt hc hp)
  have hu : x.abs.toUInt64 = (m / 2 ^ (-e).toNat).toUInt64 := by
    change UInt64.ofNatClamp (x.abs.toModel.unpack.toInt 0 _).toNat = _
    rw [unpack_abs h, UnpackedFloat.toInt, roundToInt_eq, if_neg (Int.not_le.mpr he), Sign.apply,
      Int.toNat_natCast, UInt64.ofNatClamp, dif_pos (Nat.lt_trans hq (by decide))]
    refine UInt64.toNat_inj.mp ?_
    rw [UInt64.toNat_ofNatLT, Nat.toUInt64, UInt64.toNat_ofNat',
      Nat.mod_eq_of_lt (Nat.lt_trans hq (by decide))]
  have htoFloat := unpack_toFloat hq
  rw [trunc, if_pos ((abs_lt_limit h).mpr he), hu, copySign, signBit_of_unpack (congrArg sign? h)]
  generalize m / 2 ^ (-e).toNat = q at hq htoFloat
  by_cases hk : 0 < q
  · rw [dif_pos hk] at htoFloat ⊢
    rw [signBit_of_unpack (congrArg sign? htoFloat)]
    cases s with
    | positive => exact htoFloat
    | negative => exact unpack_neg htoFloat
  · rw [dif_neg hk] at htoFloat ⊢
    rw [signBit_of_unpack (congrArg sign? htoFloat)]
    cases s with
    | positive => exact htoFloat
    | negative =>
      change (Float.Model.pack q.toUInt64.toFloat.toModel.unpack.neg).unpack = _
      rw [htoFloat]
      rfl

theorem trunc_of_nonneg (h : x.toModel.unpack = .finite s m e hp) (he : 0 ≤ e) : trunc x = x := by
  rw [trunc, if_neg ((abs_lt_limit h).not.mpr (Int.not_lt.mpr he))]

theorem apply_eq_toInt (s : Sign) (m : Nat) (e : Int) :
    Dyadic.toInt ⟨isMinus s, m, e⟩
      = s.apply (if 0 ≤ e then m * 2 ^ e.toNat else m / 2 ^ (-e).toNat : Nat) := by
  cases s <;> rfl

theorem unpack_zero : (0.0 : Float).toModel.unpack = .zero .positive := by
  rfl

theorem beq_zero_iff (x : Float) : x == 0.0 ↔ ∃ s, x.toModel.unpack = .zero s := by
  have hbeq : (x == 0.0) = true
      ↔ (x.toModel.unpack.compare (.zero .positive) == some .eq) = true := .rfl
  rw [hbeq, beq_iff_eq]
  cases x.toModel.unpack with
  | infinity s => cases s <;> simp [UnpackedFloat.compare]
  | notANumber => simp [UnpackedFloat.compare]
  | zero s => simp [UnpackedFloat.compare]
  | finite s m e hp => cases s <;> simp [UnpackedFloat.compare]

theorem unpack_trunc_of_zero (h : x.toModel.unpack = .zero s) :
    ∃ s', (trunc x).toModel.unpack = .zero s' := by
  have habs : x.abs.toModel.unpack = .zero .positive := by
    change (Float.Model.pack x.toModel.unpack.abs).unpack = _
    rw [h, UnpackedFloat.abs]
    rfl
  have hlt : x.abs < 4503599627370496.0 := by
    rw [lt_iff, habs, unpack_limit]
    rfl
  have hu : x.abs.toUInt64 = 0 := by
    change UInt64.ofNatClamp (x.abs.toModel.unpack.toInt 0 _).toNat = _
    rw [habs]
    rfl
  rw [trunc, if_pos hlt, hu, copySign]
  split
  · exact ⟨.positive, rfl⟩
  · exact ⟨.negative, rfl⟩

theorem isNaN_and_isInf_of_isFinite (hf : x.isFinite) : x.isNaN = false ∧ x.isInf = false := by
  have hf' : x.toModel.unpack.isFinite = true := hf
  change x.toModel.unpack.isNaN = false ∧ x.toModel.unpack.isInf = false
  cases h : x.toModel.unpack with
  | infinity s => simp [h, UnpackedFloat.isFinite] at hf'
  | notANumber => simp [h, UnpackedFloat.isFinite] at hf'
  | zero s => exact ⟨rfl, rfl⟩
  | finite s m e hp => exact ⟨rfl, rfl⟩

/-- A finite number equals itself. -/
theorem beq_self_of_isFinite (hf : x.isFinite) : x == x := by
  have hbeq : (x == x) = (x.toModel.unpack.compare x.toModel.unpack == some .eq) := rfl
  have hf' : x.toModel.unpack.isFinite = true := hf
  rw [hbeq, beq_iff_eq]
  cases h : x.toModel.unpack with
  | infinity s => simp [h, UnpackedFloat.isFinite] at hf'
  | notANumber => simp [h, UnpackedFloat.isFinite] at hf'
  | zero s => rfl
  | finite s m e hp => cases s <;> simp [UnpackedFloat.compare]

/-- What becomes of a number that is finite. -/
theorem integerOrInfinity_of_isFinite (hf : x.isFinite) :
    integerOrInfinity x = if trunc x == 0.0 then 0.0 else trunc x := by
  obtain ⟨hnan, hinf⟩ := isNaN_and_isInf_of_isFinite hf
  simp only [integerOrInfinity, hnan, hinf, Bool.false_eq_true, if_false]

/-- The integer part of a number has the form of an integer, the exact value rounded towards
zero. -/
theorem isInteger_integerOrInfinity (hf : x.isFinite) :
    IsInteger (integerOrInfinity x).toModel.unpack (Dyadic.ofFloat x).toInt := by
  have hf' : x.toModel.unpack.isFinite = true := hf
  rw [integerOrInfinity_of_isFinite hf]
  cases h : x.toModel.unpack with
  | infinity s => simp [h, UnpackedFloat.isFinite] at hf'
  | notANumber => simp [h, UnpackedFloat.isFinite] at hf'
  | zero s =>
    rw [if_pos ((beq_zero_iff _).mpr (unpack_trunc_of_zero h)), unpack_zero, Dyadic.toInt,
      Dyadic.magnitude, Dyadic.mantissa_ofFloat_of_unpack_eq_zero h]
    simpa using IsInteger.zero .positive
  | finite s m e hp =>
    obtain ⟨hc, hd⟩ := form_of_unpack h
    rw [hd, apply_eq_toInt]
    by_cases he : 0 ≤ e
    · have hne : ¬(x == 0.0) = true := by
        rw [beq_zero_iff, h]
        rintro ⟨s', hs⟩
        cases hs
      rw [trunc_of_nonneg h he, if_neg hne, h, if_pos he]
      rcases hc with ⟨hm, -, he'⟩ | ⟨-, rfl⟩
      · rcases Int.lt_or_eq_of_le he with hpos | rfl
        · exact .large s hp hm hpos he'
        · have hsmall := IsInteger.small s hp (mantissa_lt (form_of_unpack h).1 hp)
          simpa [fullMantissa, hm] using hsmall
      · exact absurd he (by decide)
    · have htrunc := unpack_trunc_of_neg h (Int.not_le.mp he)
      rw [if_neg he]
      by_cases hk : 0 < m / 2 ^ (-e).toNat
      · rw [dif_pos hk] at htrunc
        have hne : ¬(trunc x == 0.0) = true := by
          rw [beq_zero_iff, htrunc]
          rintro ⟨s', hs⟩
          cases hs
        rw [if_neg hne, htrunc]
        exact .small s hk (Nat.lt_of_le_of_lt (Nat.div_le_self _ _) (mantissa_lt hc hp))
      · rw [dif_neg hk] at htrunc
        rw [if_pos ((beq_zero_iff _).mpr ⟨s, htrunc⟩), unpack_zero, Nat.eq_zero_of_not_pos hk]
        have hz : s.apply ((0 : Nat) : Int) = 0 := by cases s <;> rfl
        rw [hz]
        exact .zero .positive

/-! ### Comparing integers and reading them back -/

variable {y : Float} {n : Nat} {z : Int}

theorem isInteger_ofNat (h : n < 2 ^ 53) : IsInteger (Float.ofNat n).toModel.unpack n := by
  rcases Nat.eq_zero_or_pos n with rfl | hn
  · exact .zero .positive
  · rw [unpack_ofNat hn h]
    exact .small .positive hn h

theorem IsInteger.isFinite {u : UnpackedFloat} (h : IsInteger u z) : u.isFinite = true := by
  cases h with
  | zero => rfl
  | small => rfl
  | large => rfl

theorem two_pow_le_large (hm : m.log2 = 52) (hp : 0 < m) (he : 0 < e) :
    2 ^ 53 ≤ m * 2 ^ e.toNat := by
  have hle := ((Nat.log2_eq_iff (Nat.pos_iff_ne_zero.mp hp)).mp hm).1
  have hpow : 2 ^ 1 ≤ 2 ^ e.toNat := Nat.pow_le_pow_right (by decide) (by omega)
  exact Nat.mul_le_mul hle hpow

theorem roundToInt_fullMantissa (s : Sign) (hn : 0 < n) (h : n < 2 ^ 53) :
    roundToInt s (fullMantissa n) (n.log2 - 52) = s.apply n := by
  have hlog := log2_le_of_lt hn h
  rw [roundToInt_eq, fullMantissa]
  split
  · have h0 : 52 - n.log2 = 0 := by omega
    have h1 : ((n.log2 : Int) - 52).toNat = 0 := by omega
    rw [h0, h1, Nat.pow_zero, Nat.mul_one, Nat.mul_one]
  · have h1 : (-((n.log2 : Int) - 52)).toNat = 52 - n.log2 := by omega
    rw [h1, Nat.mul_div_cancel _ (Nat.two_pow_pos _)]

theorem IsInteger.toInt_eq {u : UnpackedFloat} (h : IsInteger u z) (low high : Int) :
    u.toInt low high = z := by
  cases h with
  | zero s => rfl
  | small s hk hlt => rw [UnpackedFloat.toInt, roundToInt_fullMantissa s hk hlt]
  | large s hp hm he he' => rw [UnpackedFloat.toInt, roundToInt_eq, if_pos (Int.le_of_lt he)]

theorem toNat_eq_of_toInt {z : Int} (h : x.toModel.unpack.toInt 0 ((UInt64.size : Int) - 1) = z)
    (hz : z < 2 ^ 53) : toNat x = z.toNat := by
  change (UInt64.ofNatClamp (x.toModel.unpack.toInt 0 _).toNat).toNat = _
  have hlt : z.toNat < UInt64.size := by
    have hsize : UInt64.size = 2 ^ 64 := rfl
    omega
  rw [h, UInt64.ofNatClamp, dif_pos hlt, UInt64.toNat_ofNatLT]

/-- An integer is read back from its number; what is below zero gives zero. -/
theorem IsInteger.toNat_eq (h : IsInteger x.toModel.unpack z) (hz : z < 2 ^ 53) :
    toNat x = z.toNat :=
  toNat_eq_of_toInt (h.toInt_eq 0 _) hz

theorem IsInteger.compare_zero {u : UnpackedFloat} (h : IsInteger u z) :
    u.compare (.zero .positive) = some (compare z 0) := by
  -- a number that is not zero is compared with it by its sign
  have hsign (s : Sign) {m k : Nat} {e : Int} (hp : 0 < m) (hk : 0 < k) :
      (UnpackedFloat.finite s m e hp).compare (.zero .positive)
        = some (compare (s.apply k) 0) := by
    cases s with
    | positive =>
      rw [Int.compare_eq_gt.mpr (by rw [Sign.apply]; omega)]
      rfl
    | negative =>
      rw [Int.compare_eq_lt.mpr (by rw [Sign.apply]; omega)]
      rfl
  cases h with
  | zero s => rfl
  | small s hk hlt => exact hsign s _ hk
  | large s hp hm he he' =>
    have hbig := two_pow_le_large hm hp he
    exact hsign s hp (by omega)

theorem IsInteger.lt_zero_iff (h : IsInteger x.toModel.unpack z) : x < 0.0 ↔ z < 0 := by
  rw [lt_iff, unpack_zero, h.compare_zero, Option.some.injEq, Int.compare_eq_lt]

theorem IsInteger.le_zero_iff (h : IsInteger x.toModel.unpack z) : x ≤ 0.0 ↔ z ≤ 0 := by
  rw [le_iff, unpack_zero, h.compare_zero, Option.any_some, Std.isLE_compare]

/-- A natural number is its own exact value and its own integer part. -/
theorem toInt_ofFloat_ofNat (h : n < 2 ^ 53) : (Dyadic.ofFloat (Float.ofNat n)).toInt = n := by
  rcases Nat.eq_zero_or_pos n with rfl | hn
  · have hzero : (Float.ofNat 0).toModel.unpack = .zero .positive := rfl
    rw [Dyadic.toInt, Dyadic.magnitude, Dyadic.mantissa_ofFloat_of_unpack_eq_zero hzero]
    simp
  · rw [(form_of_unpack (unpack_ofNat hn h)).2]
    exact congrArg Nat.cast (magnitude_fullMantissa hn h)

/-- Small natural numbers are different doubles. -/
theorem eq_of_ofNat_eq {m : Nat} (hm : m < 2 ^ 53) (hn : n < 2 ^ 53)
    (h : Float.ofNat m = Float.ofNat n) : m = n := by
  have hint := toInt_ofFloat_ofNat hm
  rw [h, toInt_ofFloat_ofNat hn] at hint
  exact (Int.ofNat.inj hint).symm

theorem isInteger_integerOrInfinity_ofNat (h : n < 2 ^ 53) :
    IsInteger (integerOrInfinity (Float.ofNat n)).toModel.unpack n := by
  have hform := isInteger_integerOrInfinity (x := Float.ofNat n) (isInteger_ofNat h).isFinite
  rwa [toInt_ofFloat_ofNat h] at hform

/-- Numbers of at most 53 bits are compared by their length first. -/
theorem compare_fullMantissa {k : Nat} (hk : 0 < k) (hlt : k < 2 ^ 53) (hn : 0 < n)
    (h : n < 2 ^ 53) :
    (compare ((n.log2 : Int) - 52) (k.log2 - 52)).then (compare (fullMantissa n) (fullMantissa k))
      = compare n k := by
  have hlogk := log2_le_of_lt hk hlt
  have hlogn := log2_le_of_lt hn h
  obtain ⟨hkl, hku⟩ := (Nat.log2_eq_iff (Nat.pos_iff_ne_zero.mp hk)).mp rfl
  obtain ⟨hnl, hnu⟩ := (Nat.log2_eq_iff (Nat.pos_iff_ne_zero.mp hn)).mp rfl
  rcases Nat.lt_trichotomy n.log2 k.log2 with hlog | hlog | hlog
  · have hpow : 2 ^ (n.log2 + 1) ≤ 2 ^ k.log2 := Nat.pow_le_pow_right (by decide) hlog
    have hnk : n < k := by omega
    rw [Int.compare_eq_lt.mpr (by omega), Nat.compare_eq_lt.mpr hnk]
    rfl
  · rw [fullMantissa, fullMantissa, hlog, Int.compare_eq_eq.mpr rfl, Ordering.eq_then]
    have hpos := Nat.two_pow_pos (52 - k.log2)
    rcases Nat.lt_trichotomy n k with hnk | rfl | hnk
    · rw [Nat.compare_eq_lt.mpr hnk, Nat.compare_eq_lt.mpr (Nat.mul_lt_mul_of_pos_right hnk hpos)]
    · rw [Nat.compare_eq_eq.mpr rfl, Nat.compare_eq_eq.mpr rfl]
    · rw [Nat.compare_eq_gt.mpr hnk, Nat.compare_eq_gt.mpr (Nat.mul_lt_mul_of_pos_right hnk hpos)]
  · have hpow : 2 ^ (k.log2 + 1) ≤ 2 ^ n.log2 := Nat.pow_le_pow_right (by decide) hlog
    have hkn : k < n := by omega
    rw [Int.compare_eq_gt.mpr (by omega), Nat.compare_eq_gt.mpr hkn]
    rfl

theorem IsInteger.ofNat_lt_iff (h : IsInteger x.toModel.unpack z) (hn : n < 2 ^ 53) :
    Float.ofNat n < x ↔ (n : Int) < z := by
  rw [lt_iff]
  generalize x.toModel.unpack = u at h
  rcases Nat.eq_zero_or_pos n with rfl | hpos
  · have hzero : (Float.ofNat 0).toModel.unpack = .zero .positive := rfl
    rw [hzero]
    cases h with
    | zero s => simp [UnpackedFloat.compare]
    | small s hk hlt => cases s <;> simp [UnpackedFloat.compare, Sign.apply, hk]
    | large s hp hm he he' =>
      have hbig := two_pow_le_large hm hp he
      cases s with
      | positive =>
        refine iff_of_true rfl ?_
        rw [Sign.apply]
        omega
      | negative => simp [UnpackedFloat.compare, Sign.apply]
  · rw [unpack_ofNat hpos hn]
    cases h with
    | zero s => simp [UnpackedFloat.compare]
    | small s hk hlt =>
      cases s with
      | positive =>
        rw [UnpackedFloat.compare, compare_fullMantissa hk hlt hpos hn, Option.some.injEq,
          Nat.compare_eq_lt, Sign.apply, Int.ofNat_lt]
      | negative =>
        refine iff_of_false (by simp [UnpackedFloat.compare]) ?_
        rw [Sign.apply]
        omega
    | large s hp hm he he' =>
      have hbig := two_pow_le_large hm hp he
      have hlog := log2_le_of_lt hpos hn
      cases s with
      | positive =>
        rw [UnpackedFloat.compare, Int.compare_eq_lt.mpr (by omega), Sign.apply]
        exact iff_of_true rfl (by omega)
      | negative =>
        refine iff_of_false (by simp [UnpackedFloat.compare]) ?_
        rw [Sign.apply]
        omega

/-! ### Sums -/

/-- A natural number with zeros added. -/
theorem round_exact {k j : Nat} (s : Sign) (hk : 0 < k) (hlt : k < 2 ^ 53) :
    UnpackedFloat.round .binary64 s (k * 2 ^ j) (-(j : Int))
      = .finite s (fullMantissa k) (k.log2 - 52) (fullMantissa_pos hk) := by
  have hlog := log2_le_of_lt hk hlt
  have ht : Format.binary64.targetExponent (totalExponent (k * 2 ^ j) (-(j : Int)))
      = k.log2 - 52 := by
    simp only [Format.targetExponent, totalExponent, log2_mul_two_pow hk, Format.mantissaBits,
      Format.minExponent]
    omega
  -- the zeros that are there beyond those of the form
  obtain ⟨extra, hextra⟩ : ∃ extra,
      j + (-(j : Int) - (k.log2 - 52)).toNat = 52 - k.log2 + extra :=
    ⟨j + (-(j : Int) - (k.log2 - 52)).toNat - (52 - k.log2), by omega⟩
  have hm : k * 2 ^ j * 2 ^ (-(j : Int) - (k.log2 - 52)).toNat
      = fullMantissa k * 2 ^ extra := by
    rw [fullMantissa, Nat.mul_assoc, Nat.mul_assoc, ← Nat.pow_add, ← Nat.pow_add, hextra]
  have he : -(j : Int) - ((-(j : Int) - (k.log2 - 52)).toNat : Int)
      = (k.log2 : Int) - 52 - extra := by omega
  simp only [UnpackedFloat.round, ht, decreaseExponent, Nat.shiftLeft_eq]
  rw [hm, he]
  exact roundWithAccuracy_exact (log2_fullMantissa hk hlt) (fullMantissa_pos hk) (by omega) s extra

theorem unpackSign_pack_finite (s : Sign) (hp : 0 < m) :
    Sign.ofBitVec (unpackSign (UnpackedFloat.pack .binary64 (.finite s m e hp))) = s := by
  unfold UnpackedFloat.pack
  simp only
  split
  · exact unpackSign_packComponents s _ _
  · split
    · exact unpackSign_packComponents s _ _
    · exact unpackSign_packComponents s _ _

theorem toInt_unpack_nonpos {b : BitVec 64} (high : Int)
    (hb : Sign.ofBitVec (@unpackSign .binary64 b) = .negative) :
    (UnpackedFloat.unpack .binary64 b).toInt 0 high ≤ 0 := by
  unfold UnpackedFloat.unpack
  simp only [hb]
  split
  · split
    · exact Int.le_refl 0
    · exact Int.le_refl 0
  · split
    · split
      · exact Int.le_refl 0
      · rw [UnpackedFloat.toInt, roundToInt_eq, Sign.apply]
        omega
    · rw [UnpackedFloat.toInt, roundToInt_eq, Sign.apply]
      omega

/-- What is rounded from a negative value is not read as a positive number. -/
theorem toInt_round_negative (m : Nat) (e high : Int) :
    (Float.Model.pack (UnpackedFloat.round .binary64 .negative m e)).unpack.toInt 0 high ≤ 0 := by
  have hsign : ∃ u, UnpackedFloat.round .binary64 .negative m e = u
      ∧ (u = .zero .negative ∨ ∃ m' e', ∃ hp : 0 < m', u = .finite .negative m' e' hp) := by
    refine ⟨_, rfl, ?_⟩
    unfold UnpackedFloat.round roundWithAccuracy
    simp only
    split
    · exact .inl rfl
    · next hne => exact .inr ⟨_, _, Nat.pos_of_ne_zero hne, rfl⟩
  obtain ⟨u, hu, rfl | ⟨m', e', hp, rfl⟩⟩ := hsign
  · rw [hu]
    exact Int.le_refl 0
  · rw [hu]
    exact toInt_unpack_nonpos high (unpackSign_pack_finite .negative hp)

theorem decreaseExponent_fullMantissa (hn : 0 < n) (h : n < 2 ^ 53) {j : Nat}
    (hj : 52 ≤ n.log2 + j) :
    (decreaseExponent (fullMantissa n) (n.log2 - 52) (-(j : Int))).1 = n * 2 ^ j := by
  have hlog := log2_le_of_lt hn h
  have hs : 52 - n.log2 + ((n.log2 : Int) - 52 - -(j : Int)).toNat = j := by omega
  rw [decreaseExponent, fullMantissa, Nat.shiftLeft_eq, Nat.mul_assoc, ← Nat.pow_add, hs]

/-- A difference of natural numbers of at most 53 bits is kept exactly. -/
theorem isInteger_normalize {k : Nat} (hlt : k < 2 ^ 53) (h : n < 2 ^ 53) (j : Nat) :
    IsInteger (Float.Model.pack
      (normalize .binary64 (((n : Int) - k) * (2 ^ j : Nat)) (-(j : Int)) .positive)).unpack
      ((n : Int) - k) := by
  have hpos : (0 : Int) < (2 ^ j : Nat) := by exact_mod_cast Nat.two_pow_pos j
  unfold UnpackedFloat.normalize
  rcases Nat.lt_trichotomy n k with hnk | rfl | hnk
  · have hneg : ((n : Int) - k) * (2 ^ j : Nat) < 0 := Int.mul_neg_of_neg_of_pos (by omega) hpos
    have hm : (-(((n : Int) - k) * (2 ^ j : Nat))).toNat = (k - n) * 2 ^ j := by
      have hc : -(((n : Int) - k) * (2 ^ j : Nat)) = ((k - n) * 2 ^ j : Nat) := by
        rw [← Int.neg_mul, Nat.cast_mul, Nat.cast_sub (Nat.le_of_lt hnk)]
        congr 1
        omega
      rw [hc, Int.toNat_natCast]
    have hsub : 0 < k - n := Nat.sub_pos_of_lt hnk
    have hsmall : k - n < 2 ^ 53 := Nat.lt_of_le_of_lt (Nat.sub_le k n) hlt
    have happly : (n : Int) - k = Sign.negative.apply (k - n : Nat) := by
      rw [Sign.apply]
      omega
    rw [Int.compare_eq_lt.mpr hneg]
    simp only [hm]
    rw [round_exact .negative hsub hsmall,
      unpack_pack_of_canonical (canonical_fullMantissa hsub hsmall), happly]
    exact .small .negative hsub hsmall
  · have hzero : (Float.Model.pack (.zero .positive)).unpack = .zero .positive := rfl
    rw [Int.sub_self, Int.zero_mul, Int.compare_eq_eq.mpr rfl]
    simp only [hzero]
    exact .zero .positive
  · have hgt : 0 < ((n : Int) - k) * (2 ^ j : Nat) := Int.mul_pos (by omega) hpos
    have hm : (((n : Int) - k) * (2 ^ j : Nat)).toNat = (n - k) * 2 ^ j := by
      have hc : ((n : Int) - k) * (2 ^ j : Nat) = ((n - k) * 2 ^ j : Nat) := by
        rw [Nat.cast_mul, Nat.cast_sub (Nat.le_of_lt hnk)]
      rw [hc, Int.toNat_natCast]
    have hsub : 0 < n - k := Nat.sub_pos_of_lt hnk
    have hsmall : n - k < 2 ^ 53 := Nat.lt_of_le_of_lt (Nat.sub_le n k) h
    have happly : (n : Int) - k = Sign.positive.apply (n - k : Nat) := by
      rw [Sign.apply]
      omega
    rw [Int.compare_eq_gt.mpr hgt]
    simp only [hm]
    rw [round_exact .positive hsub hsmall,
      unpack_pack_of_canonical (canonical_fullMantissa hsub hsmall), happly]
    exact .small .positive hsub hsmall

section Exponents

variable {k : Nat}

/-- The smaller of the exponents of two integers of at most 53 bits. -/
theorem exists_min_exponent (hn : 0 < n) (h : n < 2 ^ 53) (hk : 0 < k) (hlt : k < 2 ^ 53) :
    ∃ j : Nat, min ((n.log2 : Int) - 52) (k.log2 - 52) = -(j : Int)
      ∧ 52 ≤ n.log2 + j ∧ 52 ≤ k.log2 + j := by
  have hlogk := log2_le_of_lt hk hlt
  have hlogn := log2_le_of_lt hn h
  exact ⟨52 - min n.log2 k.log2, by omega⟩

/-- The sum of a natural number and a negative integer, both of at most 53 bits. -/
theorem toInt_add_small (hk : 0 < k) (hlt : k < 2 ^ 53) (hn : 0 < n) (h : n < 2 ^ 53)
    (high : Int) :
    (Float.Model.pack (UnpackedFloat.add .binary64
        (.finite .positive (fullMantissa n) (n.log2 - 52) (fullMantissa_pos hn))
        (.finite .negative (fullMantissa k) (k.log2 - 52) (fullMantissa_pos hk)))).unpack.toInt
      0 high = (n : Int) - k := by
  obtain ⟨j, hj, hnj, hkj⟩ := exists_min_exponent hn h hk hlt
  have hsum : UnpackedFloat.add .binary64
      (.finite .positive (fullMantissa n) (n.log2 - 52) (fullMantissa_pos hn))
      (.finite .negative (fullMantissa k) (k.log2 - 52) (fullMantissa_pos hk))
      = normalize .binary64 (((n : Int) - k) * (2 ^ j : Nat)) (-(j : Int)) .positive := by
    simp only [UnpackedFloat.add, hj, Sign.apply]
    rw [decreaseExponent_fullMantissa hn h hnj, decreaseExponent_fullMantissa hk hlt hkj,
      Int.sub_mul]
    push_cast
    rfl
  rw [hsum]
  exact (isInteger_normalize hlt h j).toInt_eq 0 high

/-- The difference of two natural numbers of at most 53 bits. -/
theorem isInteger_sub (hn : 0 < n) (h : n < 2 ^ 53) (hk : 0 < k) (hlt : k < 2 ^ 53) :
    IsInteger (Float.ofNat n - Float.ofNat k).toModel.unpack ((n : Int) - k) := by
  obtain ⟨j, hj, hnj, hkj⟩ := exists_min_exponent hn h hk hlt
  have hdiff : UnpackedFloat.sub .binary64
      (.finite .positive (fullMantissa n) (n.log2 - 52) (fullMantissa_pos hn))
      (.finite .positive (fullMantissa k) (k.log2 - 52) (fullMantissa_pos hk))
      = normalize .binary64 (((n : Int) - k) * (2 ^ j : Nat)) (-(j : Int)) .positive := by
    simp only [UnpackedFloat.sub, hj, Sign.apply]
    rw [decreaseExponent_fullMantissa hn h hnj, decreaseExponent_fullMantissa hk hlt hkj,
      Int.sub_mul]
    push_cast
    rfl
  change IsInteger (Float.Model.pack (UnpackedFloat.sub .binary64 (Float.ofNat n).toModel.unpack
    (Float.ofNat k).toModel.unpack)).unpack _
  rw [unpack_ofNat hk hlt, unpack_ofNat hn h, hdiff]
  exact isInteger_normalize hlt h j

/-- A positive integer of at most 53 bits has the form of the number that it is written as. -/
theorem IsInteger.unpack_eq {u : UnpackedFloat} (h : IsInteger u n) (hn : 0 < n)
    (hlt : n < 2 ^ 53) : u = (Float.ofNat n).toModel.unpack := by
  rw [unpack_ofNat hn hlt]
  generalize hz : (n : Int) = z at h
  cases h with
  | zero s => omega
  | @small s m hm hlt' =>
    cases s with
    | positive =>
      obtain rfl : n = m := Int.ofNat.inj hz
      rfl
    | negative =>
      rw [Sign.apply] at hz
      omega
  | @large s m e hp hm he he' =>
    have hlarge := two_pow_le_large hm hp he
    cases s with
    | positive =>
      rw [Sign.apply] at hz
      omega
    | negative =>
      rw [Sign.apply] at hz
      omega

/-- The number before a positive integer. -/
theorem ofNat_sub_one (hn : 0 < n) (h : n < 2 ^ 53) :
    Float.ofNat n - 1.0 = Float.ofNat (n - 1) := by
  have hone : (1.0 : Float) = Float.ofNat 1 := rfl
  rcases Nat.eq_or_lt_of_le (Nat.succ_le_of_lt hn) with rfl | hlt
  · rfl
  · have hdiff := isInteger_sub hn h Nat.one_pos (by decide)
    rw [← Nat.cast_sub hn] at hdiff
    rw [hone]
    exact eq_of_unpack (hdiff.unpack_eq (Nat.sub_pos_of_lt hlt) (by omega))

end Exponents

theorem zero_add_finite (s' : Sign) (hp : 0 < m) :
    UnpackedFloat.add .binary64 (.zero s') (.finite s m e hp) = .finite s m e hp :=
  rfl

/-- The sum of a natural number and a negative integer of more than 53 bits is not positive. -/
theorem toInt_add_large (hm : m.log2 = 52) (hp : 0 < m) (he : 0 < e) (hn : 0 < n) (h : n < 2 ^ 53)
    (high : Int) :
    (Float.Model.pack (UnpackedFloat.add .binary64
        (.finite .positive (fullMantissa n) (n.log2 - 52) (fullMantissa_pos hn))
        (.finite .negative m e hp))).unpack.toInt 0 high ≤ 0 := by
  have hlog := log2_le_of_lt hn h
  have hfull := mantissa_lt (canonical_fullMantissa hn h) (fullMantissa_pos hn)
  have hmin : min ((n.log2 : Int) - 52) e = n.log2 - 52 := Int.min_eq_left (by omega)
  have hshift : ((n.log2 : Int) - 52 - (n.log2 - 52)).toNat = 0 := by omega
  -- the second mantissa is the greater one, for its exponent is positive
  have hbig : fullMantissa n < m * 2 ^ (e - (n.log2 - 52)).toNat := by
    have hlarge := two_pow_le_large hm hp he
    have hpow : 2 ^ e.toNat ≤ 2 ^ (e - (n.log2 - 52)).toNat :=
      Nat.pow_le_pow_right (by decide) (by omega)
    have hmul := Nat.mul_le_mul_left m hpow
    omega
  simp only [UnpackedFloat.add, hmin, decreaseExponent, hshift, Nat.shiftLeft_eq, Nat.pow_zero,
    Nat.mul_one, Sign.apply]
  unfold UnpackedFloat.normalize
  rw [Int.compare_eq_lt.mpr (by omega)]
  exact toInt_round_negative _ _ _

/-- A negative integer is added to a natural number: the sum is read as it is, and as zero below
zero. -/
theorem toNat_add_of_neg (h : IsInteger x.toModel.unpack z) (hz : z < 0) (hn : n < 2 ^ 53) :
    toNat (Float.ofNat n + x) = (n + z).toNat := by
  have hsum : (Float.ofNat n + x).toModel.unpack = (Float.Model.pack (UnpackedFloat.add .binary64
      (Float.ofNat n).toModel.unpack x.toModel.unpack)).unpack := rfl
  have hread : ∃ w, (Float.ofNat n + x).toModel.unpack.toInt 0 ((UInt64.size : Int) - 1) = w
      ∧ w < 2 ^ 53 ∧ w.toNat = (n + z).toNat := by
    rw [hsum]
    rcases Nat.eq_zero_or_pos n with rfl | hpos
    · have hzero : (Float.ofNat 0).toModel.unpack = .zero .positive := rfl
      rw [hzero]
      generalize x.toModel.unpack = u at h
      cases h with
      | zero s => exact absurd hz (Int.lt_irrefl 0)
      | small s hk hlt =>
        refine ⟨_, rfl, ?_⟩
        rw [zero_add_finite, unpack_pack_of_canonical (canonical_fullMantissa hk hlt),
          UnpackedFloat.toInt, roundToInt_fullMantissa s hk hlt]
        omega
      | large s hp hm he he' =>
        refine ⟨_, rfl, ?_⟩
        rw [zero_add_finite, unpack_pack_of_canonical (.inl ⟨hm, by omega, he'⟩),
          UnpackedFloat.toInt, roundToInt_eq, if_pos (Int.le_of_lt he)]
        omega
    · rw [unpack_ofNat hpos hn]
      generalize x.toModel.unpack = u at h
      cases h with
      | zero s => exact absurd hz (Int.lt_irrefl 0)
      | @small s k hk hlt =>
        cases s with
        | positive =>
          rw [Sign.apply] at hz
          omega
        | negative =>
          refine ⟨_, toInt_add_small hk hlt hpos hn _, ?_⟩
          rw [Sign.apply]
          omega
      | @large s m e hp hm he he' =>
        have hbig := two_pow_le_large hm hp he
        cases s with
        | positive =>
          rw [Sign.apply] at hz
          omega
        | negative =>
          have hle := toInt_add_large hm hp he hpos hn ((UInt64.size : Int) - 1)
          refine ⟨_, rfl, ?_⟩
          rw [Sign.apply]
          omega
  obtain ⟨w, hw, hlt, hwz⟩ := hread
  rw [toNat_eq_of_toInt hw hlt, hwz]

theorem toNat_atLeast_zero (x : Float) : toNat (atLeast x 0.0) = toNat x := by
  unfold atLeast
  split
  · next h =>
    -- what is below zero or no number is read as zero
    have hle : x.toModel.unpack.toInt 0 ((UInt64.size : Int) - 1) ≤ 0 := by
      rw [Bool.or_eq_true, decide_eq_true_iff, lt_iff, unpack_zero] at h
      have hnan : x.isNaN = x.toModel.unpack.isNaN := rfl
      rw [hnan] at h
      generalize x.toModel.unpack = u at h
      rcases h with h | h
      · cases u with
        | infinity s => cases s <;> simp_all [UnpackedFloat.compare, UnpackedFloat.toInt]
        | notANumber => simp [UnpackedFloat.compare] at h
        | zero s => simp [UnpackedFloat.compare] at h
        | finite s m e hp =>
          cases s with
          | positive => simp [UnpackedFloat.compare] at h
          | negative =>
            rw [UnpackedFloat.toInt, roundToInt_eq, Sign.apply]
            omega
      · cases u with
        | notANumber => exact Int.le_refl 0
        | _ => cases h
    rw [toNat_eq_of_toInt rfl (Int.lt_of_le_of_lt hle (by decide)), Int.toNat_eq_zero.mpr hle]
    rfl
  · rfl

end ScriptEngine.Number
