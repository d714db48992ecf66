import Mathlib
import ScriptEngine.Proofs.ExactValue
import ScriptEngine.Proofs.NumberText

/-!
# Keys of natural numbers and of numbers

A property is named by a string, by a natural number or by a number, and each way of making a key
has its own test for an array index: digits are read, natural numbers are compared, and of a number
it is asked in doubles whether it is an integer of the range. All of them give the key of the same
text. For the numbers this needs that the shortest digits of an integer of the range are its decimal
digits, and that no other number has the text of one.

## Main results

* `PropertyKey.parseIndex?_eq_some_iff`: the strings that spell an index.
* `Number.toText_of_hasValue`: the text of a small integer.
* `PropertyKey.ofNumber_eq`: the key of a number is that of its text.
* `keys_made_alike`: all ways of making a key agree.
-/

namespace ScriptEngine

/-! ### Strings and natural numbers -/

namespace PropertyKey

/-- The strings that spell an index are the decimal texts of the indices. -/
theorem parseIndex?_eq_some_iff {s : String} {i : Nat} :
    parseIndex? s = some i ↔ s = Nat.repr i ∧ i ≤ maxIndex := by
  constructor
  · exact fun h => ⟨(repr_of_parseIndex? h).symm, parseIndex?_le h⟩
  · rintro ⟨rfl, hi⟩
    exact parseIndex?_repr hi

/-- The key of a natural number is that of its decimal text. -/
theorem ofString_repr (n : Nat) : ofString (Nat.repr n) = ofNat n := by
  by_cases hn : n ≤ maxIndex
  · rw [ofString_of_some (parseIndex?_repr hn), ofNat, dif_pos hn]
  · have hnone : parseIndex? (Nat.repr n) = none := by
      refine Option.eq_none_iff_forall_ne_some.mpr fun i hi => hn ?_
      obtain ⟨hrepr, hle⟩ := parseIndex?_eq_some_iff.mp hi
      rwa [Nat.repr_inj.mp hrepr]
    rw [ofString_of_none hnone, ofNat, dif_neg hn]

end PropertyKey

/-! ### The text of a small integer -/

namespace Decimal

variable {d : Decimal} {n : Nat}

/-- Zeros at the end of the digits of a number. -/
theorem repr_append_zeros {q : Nat} (hq : 0 < q) (j : Nat) :
    Nat.repr q ++ Number.zeros j = Nat.repr (q * 10 ^ j) := by
  have hall : (List.replicate j '0').all Char.isDigit :=
    List.all_eq_true.mpr Number.isDigit_of_mem_zeros
  refine String.toList_inj.mp ?_
  rw [String.toList_append, Number.toList_zeros, Nat.toList_repr, Nat.toList_repr,
    toDigits_append_eq hq hall, Nat.ofDigitChars_replicate_zero, Nat.mul_comm]

/-- A decimal near a natural number that has no more digits is the number: with a fraction it would
have more of them. -/
theorem exists_eq_mul_of_near (hn : 0 < n) (hlow : n - 1 / 10 < d.toRat)
    (hhigh : d.toRat < n + 1 / 10) (hcount : digitCount d.digits ≤ digitCount n) :
    ∃ j : Nat, n = d.digits * 10 ^ j ∧ d.exponent = j + (digitCount d.digits - 1 : Int) := by
  rw [toRat] at hlow hhigh
  generalize hp : d.exponent - (digitCount d.digits - 1 : Int) = p at hlow hhigh
  rcases Int.lt_or_le p 0 with hneg | hnonneg
  · -- the digits without their point are at least ten times the number
    obtain ⟨k, rfl⟩ : ∃ k : Nat, p = -((k : Int) + 1) := ⟨(-p - 1).toNat, by omega⟩
    have hpow : (0 : Rat) < 10 ^ (k + 1) := by positivity
    have hten : (10 : Rat) ≤ 10 ^ (k + 1) := by
      exact_mod_cast Nat.pow_le_pow_right (by decide : 1 ≤ 10) (Nat.le_add_left 1 k)
    have hone : (1 : Rat) ≤ n := by exact_mod_cast hn
    rw [zpow_neg, ← Nat.cast_succ, zpow_natCast, ← div_eq_mul_inv, lt_div_iff₀ hpow] at hlow
    have hlarge : (10 * n : Nat) < (d.digits + 1 : Rat) := by
      push_cast
      nlinarith
    have hle : 10 * n ≤ d.digits := by
      have hlt : 10 * n < d.digits + 1 := by exact_mod_cast hlarge
      omega
    have hdigits : 10 ^ digitCount n ≤ 10 * n := by
      have hpos := digitCount_pos n
      rw [← Nat.sub_add_cancel hpos, Nat.pow_succ, Nat.mul_comm]
      exact Nat.mul_le_mul_left 10 (ten_pow_le hn)
    have hlt := (hdigits.trans hle).trans_lt (lt_ten_pow d.digits)
    have hmore := (Nat.pow_lt_pow_iff_right (by decide)).mp hlt
    omega
  · -- without a fraction both are natural numbers
    obtain ⟨j, rfl⟩ := Int.eq_ofNat_of_zero_le hnonneg
    refine ⟨j, ?_, by omega⟩
    rw [zpow_natCast] at hlow hhigh
    have hle : n < d.digits * 10 ^ j + 1 := by
      have hcast : (n : Rat) < (d.digits * 10 ^ j + 1 : Nat) := by
        push_cast
        linarith
      exact_mod_cast hcast
    have hge : d.digits * 10 ^ j < n + 1 := by
      have hcast : ((d.digits * 10 ^ j : Nat) : Rat) < (n + 1 : Nat) := by
        push_cast
        linarith
      exact_mod_cast hcast
    omega

/-- The layout of a decimal that is a natural number is its decimal text. -/
theorem layout_of_eq_mul {j : Nat} (hn : 0 < n) (hlt : n < 2 ^ 32) (hd : n = d.digits * 10 ^ j)
    (he : d.exponent = j + (digitCount d.digits - 1 : Int)) : Number.layout d = Nat.repr n := by
  have hpos : 0 < d.digits := by
    refine Nat.pos_of_ne_zero fun hzero => ?_
    rw [hzero, Nat.zero_mul] at hd
    omega
  have hcount := digitCount_pos d.digits
  have hfew : digitCount d.digits - 1 + j < 10 := by
    have hle : 10 ^ (digitCount d.digits - 1 + j) ≤ n := by
      rw [hd, Nat.pow_add]
      exact Nat.mul_le_mul_right _ (ten_pow_le hpos)
    exact (Nat.pow_lt_pow_iff_right (by decide)).mp (hle.trans_lt (hlt.trans (by decide)))
  have hpositional : Number.isPositional d.exponent := by
    rw [Number.isPositional, Bool.and_eq_true, decide_eq_true_iff, decide_eq_true_iff]
    omega
  have hzeros : (d.exponent + 1 - digitCount d.digits).toNat = j := by omega
  rw [Number.layout, if_pos hpositional, Number.layoutPositional, Number.length_repr,
    if_pos (by omega), hzeros, repr_append_zeros hpos, ← hd]

end Decimal

namespace Number

open Float.Model Float.Model.UnpackedFloat

variable {x : Float} {n : Nat}

/-- The interval of a small integer is narrow. -/
theorem near_of_roundsTo {m : Nat} {e : Int} {v : Rat} (hp : 0 < m) (hc : Canonical m e)
    (hvalue : (m * 2 ^ e : Rat) = n) (hn : n < 2 ^ 32) (hv : RoundsTo v m e) :
    n - 1 / 10 < v ∧ v < n + 1 / 10 := by
  have hpos : (0 : Rat) < 2 ^ e := zpow_pos two_pos e
  have hnarrow : (2 : Rat) ^ e < 1 / 10 := by
    rcases hc with ⟨hm, -, -⟩ | ⟨-, rfl⟩
    · have hlow : 2 ^ 52 ≤ m := ((Nat.log2_eq_iff hp.ne').mp hm).1
      have hlow : (2 ^ 52 : Rat) ≤ m := by exact_mod_cast hlow
      have hlt : (m * 2 ^ e : Rat) < 2 ^ 32 := by
        rw [hvalue]
        exact_mod_cast hn
      nlinarith
    · calc (2 : Rat) ^ (-1074 : Int) < 2 ^ (-4 : Int) :=
          zpow_lt_zpow_right₀ one_lt_two (by decide)
        _ < 1 / 10 := by norm_num
  have hreach := reachBelow_le m e
  constructor
  · calc (n - 1 / 10 : Rat) < m * 2 ^ e - 1 / 2 * 2 ^ e := by linarith
      _ ≤ (m - reachBelow m e) * 2 ^ e := by nlinarith
      _ ≤ v := hv.ge
  · calc v ≤ (m + 1 / 2) * 2 ^ e := hv.le
      _ = n + 1 / 2 * 2 ^ e := by rw [add_mul, hvalue]
      _ < n + 1 / 10 := by linarith

/-- The text of a number that is a small integer is the decimal text of the integer. -/
theorem toText_of_hasValue (h : HasValue x.toModel.unpack n) (hn : n < 2 ^ 32) :
    toText x = Nat.repr n := by
  generalize hu : x.toModel.unpack = u at h
  generalize hv : (n : Rat) = v at h
  cases h with
  | zero s =>
    obtain rfl := Nat.cast_eq_zero.mp hv
    have hnan : x.isNaN = false := congrArg UnpackedFloat.isNaN hu
    rw [toText, hnan, if_neg Bool.false_ne_true, if_pos ((beq_zero_iff x).mpr ⟨s, hu⟩)]
    rfl
  | @finite m e hp hc =>
    have hpos : 0 < n := by
      have hvalue : (0 : Rat) < n := by
        rw [hv]
        positivity
      exact_mod_cast hvalue
    have hself : RoundsTo (n * 10 ^ (0 : Int)) m e := by
      rw [zpow_zero, mul_one, hv]
      exact roundsTo_self m e
    obtain ⟨hrounds, -⟩ := Decimal.shortest_spec hu
    obtain ⟨hlow, hhigh⟩ := near_of_roundsTo hp hc hv.symm hn hrounds
    obtain ⟨j, hd, he⟩ :=
      Decimal.exists_eq_mul_of_near hpos hlow hhigh (Decimal.digitCount_shortest_le hu hself)
    rw [toText_of_unpack hu]
    exact Decimal.layout_of_eq_mul hpos hn hd he

/-- A number with the decimal text of a small integer is the integer. -/
theorem hasValue_of_toText (h : toText x = Nat.repr n) (hn : n < 2 ^ 32) :
    HasValue x.toModel.unpack n := by
  have hof := hasValue_ofNat (hn.trans (by decide))
  have hnegZero : HasValue negZero.toModel.unpack 0 := .zero .negative
  by_cases hnan : x.isNaN
  · -- the text of no number is not made of digits
    rw [toText, if_pos hnan] at h
    have hmem : 'N' ∈ Nat.toDigits 10 n := by
      rw [← Nat.toList_repr, ← h]
      decide
    exact absurd (isDigit_of_mem_toDigits 'N' hmem) (by decide)
  by_cases hzero : x = negZero
  · have htext : toText negZero = Nat.repr 0 :=
      toText_of_hasValue (by simpa using hnegZero) (by decide)
    rw [hzero, htext] at h
    rw [hzero, ← Nat.repr_inj.mp h, Nat.cast_zero]
    exact hnegZero
  -- every other number is read back from its text
  have hne : Float.ofNat n ≠ negZero := by
    intro heq
    have hvalue := hof.toRat_eq
    rw [heq, hnegZero.toRat_eq] at hvalue
    obtain rfl := Nat.cast_eq_zero.mp hvalue.symm
    exact absurd heq (by decide +kernel)
  have hread := ofText_toText (isNaN_and_isInf_of_isFinite hof.isFinite).1 hne
  rw [toText_of_hasValue hof hn, ← h, ofText_toText (by simpa using hnan) hzero] at hread
  rwa [hread]

/-! ### The key of a number -/

/-- The test of a number for an index, in doubles, says what it is meant to say. -/
theorem isIndex_iff (x : Float) : (0.0 ≤ x && x ≤ 4294967294.0 && isIntegral x) = true
    ↔ ∃ n ≤ PropertyKey.maxIndex, HasValue x.toModel.unpack n := by
  have hmax : HasValue (4294967294.0 : Float).toModel.unpack (PropertyKey.maxIndex : Nat) := by
    have hliteral : (4294967294.0 : Float) = Float.ofNat 4294967294 := by decide +kernel
    rw [hliteral]
    exact hasValue_ofNat (by decide)
  simp only [isIntegral, Bool.and_eq_true, decide_eq_true_iff]
  constructor
  · rintro ⟨⟨hnonneg, hle⟩, hf, hint⟩
    have hv := hasValue_of_not_lt hf ((zero_le_iff (isNaN_and_isInf_of_isFinite hf).1).mp hnonneg)
    have hfloor := (hv.trunc.beq_iff hv).mp hint
    rw [← hfloor] at hv
    exact ⟨_, by exact_mod_cast (hv.le_iff hmax).mp hle, hv⟩
  · rintro ⟨n, hn, hv⟩
    have hfloor := hv.trunc
    rw [Nat.floor_natCast] at hfloor
    exact ⟨⟨(hasValue_zero.le_iff hv).mpr (Nat.cast_nonneg n),
      (hv.le_iff hmax).mpr (by exact_mod_cast hn)⟩, hv.isFinite, (hfloor.beq_iff hv).mpr rfl⟩

end Number

/-- The key of a number is that of its text. -/
theorem PropertyKey.ofNumber_eq (x : Float) : ofNumber x = ofString (Number.toText x) := by
  have hmax {n : Nat} (hn : n ≤ maxIndex) : n < 2 ^ 32 := Nat.lt_of_le_of_lt hn (by decide)
  unfold ofNumber
  split
  · next h =>
    obtain ⟨n, hn, hv⟩ := (Number.isIndex_iff x).mp h
    rw [hv.toNat_eq ((hmax hn).trans (by decide)), Number.toText_of_hasValue hv (hmax hn),
      ofString_repr]
  · next h =>
    have hnone : parseIndex? (Number.toText x) = none := by
      refine Option.eq_none_iff_forall_ne_some.mpr fun n hn => h ((Number.isIndex_iff x).mpr ?_)
      obtain ⟨htext, hle⟩ := parseIndex?_eq_some_iff.mp hn
      exact ⟨n, hle, Number.hasValue_of_toText htext (hmax hle)⟩
    rw [ofString_of_none hnone]

/-- A key that is no symbol is its text as a value. -/
theorem PropertyKey.toValue_of_not_isSymbol {k : PropertyKey} (hs : k.isSymbol = false) :
    k.toValue = .string k.text := by
  cases k with
  | string s => rfl
  | index i => rfl
  | symbol s => cases hs

/-- Canonical keys that are the same value are the same key. -/
theorem PropertyKey.eq_of_toValue_eq {k k' : PropertyKey} (hk : k.isCanonical)
    (hk' : k'.isCanonical) (h : k.toValue = k'.toValue) : k = k' := by
  match hs : k.isSymbol, hs' : k'.isSymbol with
  | false, false =>
    rw [toValue_of_not_isSymbol hs, toValue_of_not_isSymbol hs', Value.string.injEq] at h
    rw [← ofString_text hk hs, h, ofString_text hk' hs']
  | false, true =>
    rw [toValue_of_not_isSymbol hs] at h
    cases k' <;> cases hs'
    cases h
  | true, false =>
    rw [toValue_of_not_isSymbol hs'] at h
    cases k <;> cases hs
    cases h
  | true, true =>
    cases k <;> cases hs
    cases k' <;> cases hs'
    exact congrArg symbol (Value.symbol.inj h)

/-- All ways of making a property key agree. The strings that spell an index are the decimal texts,
without leading zeros, of the natural numbers up to `2 ^ 32 - 2`. The key of a natural number of any
size is that of its decimal text, and the key of a number, also of negative zero, a fraction or what
is no number, is that of its text. A canonical key that is no symbol is made again from the string
that it is as a value; canonical keys that are the same value are the same key. -/
theorem keys_made_alike :
    (∀ (s : String) (i : Nat),
      PropertyKey.parseIndex? s = some i ↔ s = Nat.repr i ∧ i ≤ 2 ^ 32 - 2)
    ∧ (∀ n : Nat, PropertyKey.ofNat n = PropertyKey.ofString (Nat.repr n))
    ∧ (∀ x : Float, PropertyKey.ofNumber x = PropertyKey.ofString (Number.toText x))
    ∧ (∀ k : PropertyKey, k.isCanonical → k.isSymbol = false →
      ∃ s, k.toValue = .string s ∧ PropertyKey.ofString s = k)
    ∧ ∀ k k' : PropertyKey, k.isCanonical → k'.isCanonical → k.toValue = k'.toValue → k = k' :=
  ⟨fun _ _ => PropertyKey.parseIndex?_eq_some_iff,
    fun n => (PropertyKey.ofString_repr n).symm,
    PropertyKey.ofNumber_eq,
    fun k hk hs => ⟨k.text, PropertyKey.toValue_of_not_isSymbol hs,
      PropertyKey.ofString_text hk hs⟩,
    fun _ _ => PropertyKey.eq_of_toValue_eq⟩

end ScriptEngine
