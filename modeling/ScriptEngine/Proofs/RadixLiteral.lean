import Mathlib
import ScriptEngine.Proofs.ExactValue
import ScriptEngine.Proofs.NumberText
import ScriptEngine.Proofs.RadixDigits

/-!
# Literals in a radix

The digits of a literal in a radix are accumulated in doubles, with a rounding after every digit. In
a radix that is a power of two nothing is lost up to 53 bits. The first digit with which there are
more is the last one that counts: the number that is there is rounded, and every further digit is
too small to move it. Hence the literal is rounded after its last digits have been cut off, and this
is the nearest number, unless what is left lies half way between two numbers and the digits that
were cut off are not all zero.

## Main definitions

* `Number.roundBits`: a natural number rounded to 53 bits.
* `Number.cutBits`, `Number.roundCut`: a natural number rounded to 53 bits without its last digits.
* `Number.AboveTie`: the natural numbers that this does not round to the nearest number.

## Main results

* `Number.roundBits_push`: rounding after one more digit.
* `Number.roundCut_eq_roundBits_iff`: when the digits that are cut off do not matter.
* `Number.hasValue_foldl_pushDigit`: the number that digits are accumulated to.
* `Number.radixLiteral_rounded`: the value of a literal.
-/

namespace ScriptEngine.Number

open Float.Model Float.Model.UnpackedFloat

/-! ### Rounding to 53 bits -/

/-- A natural number rounded to 53 significant bits, a half going to the even side. -/
def roundBits (n : Nat) : Nat := Decimal.divRound n (2 ^ (n.log2 - 52)) * 2 ^ (n.log2 - 52)

section Quotient

variable (num : Nat) {den : Nat}

theorem divRound_cases (den : Nat) : Decimal.divRound num den = num / den
    ∨ Decimal.divRound num den = num / den + 1 := by
  unfold Decimal.divRound
  dsimp only
  split
  · exact .inl rfl
  · split
    · exact .inr rfl
    · split
      · exact .inl rfl
      · exact .inr rfl

theorem push_div {n d : Nat} (hd : d < den) : (n * den + d) / den = n := by
  rw [Nat.add_comm, Nat.add_mul_div_right _ _ (by omega), Nat.div_eq_of_lt hd, Nat.zero_add]

theorem push_lt {n m d : Nat} (hn : n < m) (hd : d < den) : n * den + d < m * den := by
  rwa [← Nat.div_lt_iff_lt_mul (by omega), push_div hd]

/-- Less than half of the divisor is rounded away. -/
theorem divRound_add {q d : Nat} (h : 2 * d < den) : Decimal.divRound (q * den + d) den = q := by
  have hmod : (q * den + d) % den = d := by
    rw [Nat.mul_add_mod_self_right, Nat.mod_eq_of_lt (by omega)]
  rw [Decimal.divRound, push_div (by omega), hmod]
  exact if_pos h

/-- Cutting off what comes behind a quotient matters above a half that goes to the lower side. -/
theorem divRound_cut {a b e r s : Nat} (hb : b < 2 * e) (hr : r < s) :
    Decimal.divRound (a * (2 * e) + b) (2 * e)
        = Decimal.divRound ((a * (2 * e) + b) * s + r) (2 * e * s)
      ↔ ¬(b = e ∧ a % 2 = 0 ∧ 0 < r) := by
  have hlong : (a * (2 * e) + b) * s + r = a * (2 * e * s) + (b * s + r) := by ring
  have hbs : b * s + r < 2 * e * s := push_lt hb hr
  have hmod : (a * (2 * e) + b) % (2 * e) = b := by
    rw [Nat.mul_add_mod_self_right, Nat.mod_eq_of_lt hb]
  have hmod' : (a * (2 * e * s) + (b * s + r)) % (2 * e * s) = b * s + r := by
    rw [Nat.mul_add_mod_self_right, Nat.mod_eq_of_lt hbs]
  have hassoc : 2 * e * s = 2 * (e * s) := Nat.mul_assoc 2 e s
  rw [hlong, Decimal.divRound, Decimal.divRound, push_div hb, push_div hbs, hmod, hmod', hassoc]
  rcases Nat.lt_trichotomy b e with hlt | rfl | hgt
  · have hlow : b * s + r < e * s := push_lt hlt hr
    rw [if_pos (by omega), if_pos (by omega)]
    exact iff_of_true rfl fun h => hlt.ne h.1
  · rw [if_neg (lt_irrefl _), if_neg (lt_irrefl _)]
    split_ifs <;> omega
  · have hhigh : e * s < b * s := Nat.mul_lt_mul_of_pos_right hgt (by omega)
    rw [if_neg (by omega), if_pos (by omega), if_neg (by omega), if_pos (by omega)]
    exact iff_of_true rfl fun h => hgt.ne' h.1

/-- A quotient is rounded to the integer nearest to it. -/
theorem isNearest_divRound (hden : 0 < den) :
    IsNearest (Decimal.divRound num den) ((num : Rat) / den) := by
  have hden' : (0 : Rat) < den := by exact_mod_cast hden
  have hnum : (num : Rat) = den * (num / den : Nat) + (num % den : Nat) := by
    exact_mod_cast (Nat.div_add_mod num den).symm
  have hquotient : (num : Rat) / den = (num / den : Nat) + (num % den : Nat) / den := by
    rw [hnum, add_div, mul_div_cancel_left₀ _ hden'.ne']
  have hnonneg : (0 : Rat) ≤ (num % den : Nat) / den := by positivity
  have hone : ((num % den : Nat) : Rat) / den < 1 :=
    (div_lt_one hden').mpr (by exact_mod_cast Nat.mod_lt num hden)
  have hsucc : ((num / den + 1 : Nat) : Rat) = (num / den : Nat) + 1 := Nat.cast_succ _
  rw [hquotient]
  unfold Decimal.divRound
  dsimp only
  split
  · next hlow =>
    have hhalf : ((num % den : Nat) : Rat) / den < 1 / 2 := by
      have hlow : (2 : Rat) * (num % den : Nat) < den := by exact_mod_cast hlow
      rw [div_lt_div_iff₀ hden' two_pos]
      linarith
    exact ⟨by linarith, by linarith, fun _ => ⟨by linarith, by linarith⟩⟩
  · split
    · next hhigh =>
      have hhalf : 1 / 2 < ((num % den : Nat) : Rat) / den := by
        have hhigh : (den : Rat) < 2 * (num % den : Nat) := by exact_mod_cast hhigh
        rw [div_lt_div_iff₀ two_pos hden']
        linarith
      refine ⟨?_, ?_, fun _ => ⟨?_, ?_⟩⟩ <;> rw [hsucc] <;> linarith
    · next hlow hhigh =>
      have hhalf : ((num % den : Nat) : Rat) / den = 1 / 2 := by
        have heq : 2 * (num % den) = den := by omega
        have heq : (2 : Rat) * (num % den : Nat) = den := by exact_mod_cast heq
        rw [div_eq_div_iff hden'.ne' two_ne_zero]
        linarith
      rw [hhalf]
      split
      · next heven =>
        exact ⟨by linarith, by linarith, fun hodd => absurd hodd (by omega)⟩
      · next heven =>
        refine ⟨?_, ?_, fun hodd => absurd hodd (by omega)⟩ <;> rw [hsucc] <;> linarith

end Quotient

/-! ### The bits of a natural number -/

section Bits

variable {n b : Nat}

theorem pos_of_le_log2 (hb : 0 < b) (h : b ≤ n.log2) : 0 < n := by
  refine Nat.pos_of_ne_zero ?_
  rintro rfl
  exact hb.not_ge h

theorem log2_lt_iff (hb : 0 < b) : n.log2 < b ↔ n < 2 ^ b := by
  rcases Nat.eq_zero_or_pos n with rfl | hn
  · exact iff_of_true hb (Nat.two_pow_pos b)
  · exact Nat.log2_lt hn.ne'

/-- The bits in front of the last ones that are cut off when a number is rounded. -/
theorem log2_bounds (h : 52 ≤ n.log2) :
    2 ^ 52 * 2 ^ (n.log2 - 52) ≤ n ∧ n < 2 ^ 53 * 2 ^ (n.log2 - 52) := by
  have hsum : 53 + (n.log2 - 52) = n.log2 + 1 := by omega
  rw [← Nat.pow_add, ← Nat.pow_add, Nat.add_sub_cancel' h, hsum]
  exact ⟨Nat.log2_self_le (pos_of_le_log2 (Nat.succ_pos 51) h).ne', Nat.lt_log2_self⟩

/-- Bits that are put behind a number. -/
theorem log2_push {k d : Nat} (hn : 0 < n) (hd : d < 2 ^ k) :
    (n * 2 ^ k + d).log2 = n.log2 + k := by
  have hpos : 0 < n * 2 ^ k := Nat.mul_pos hn (Nat.two_pow_pos k)
  rw [Nat.log2_eq_iff (by omega), Nat.add_right_comm, Nat.pow_add, Nat.pow_add]
  have hlow := Nat.mul_le_mul_right (2 ^ k) (Nat.log2_self_le hn.ne')
  exact ⟨hlow.trans (Nat.le_add_right _ _), push_lt Nat.lt_log2_self hd⟩

theorem add_lt_of_mul_two_pow_lt {a j : Nat} (hlow : 2 ^ a ≤ n) (hlt : n * 2 ^ j < 2 ^ b) :
    a + j < b := by
  refine (Nat.pow_lt_pow_iff_right Nat.one_lt_two).mp ?_
  rw [Nat.pow_add]
  exact (Nat.mul_le_mul_right _ hlow).trans_lt hlt

end Bits

/-! ### The rounded number -/

section Round

variable {n : Nat}

theorem roundBits_of_lt (h : n < 2 ^ 53) : roundBits n = n := by
  have hbits := (log2_lt_iff (Nat.succ_pos 52)).mpr h
  have hlog : n.log2 - 52 = 0 := by omega
  rw [roundBits, hlog, Nat.pow_zero, Nat.mul_one]
  unfold Decimal.divRound
  simp [Nat.mod_one]

/-- The quotient of a number of 53 bits or more is rounded to 53 bits or to the next power of two.
-/
theorem divRound_bounds (h : 52 ≤ n.log2) : 2 ^ 52 ≤ Decimal.divRound n (2 ^ (n.log2 - 52))
    ∧ Decimal.divRound n (2 ^ (n.log2 - 52)) ≤ 2 ^ 53 := by
  obtain ⟨hlow, hhigh⟩ := log2_bounds h
  have hpos := Nat.two_pow_pos (n.log2 - 52)
  have hle := (Nat.le_div_iff_mul_le hpos).mpr hlow
  have hlt := (Nat.div_lt_iff_lt_mul hpos).mpr hhigh
  rcases divRound_cases n (2 ^ (n.log2 - 52)) with heq | heq
  · rw [heq]
    exact ⟨hle, hlt.le⟩
  · rw [heq]
    exact ⟨hle.trans (Nat.le_succ _), hlt⟩

theorem roundBits_le (n : Nat) : roundBits n ≤ 2 ^ (n.log2 + 1) := by
  rcases Nat.lt_or_ge n.log2 52 with hlog | hlog
  · rw [roundBits_of_lt ((log2_lt_iff (Nat.succ_pos 52)).mp (by omega))]
    exact Nat.lt_log2_self.le
  · have hsum : 53 + (n.log2 - 52) = n.log2 + 1 := by omega
    rw [roundBits, ← hsum, Nat.pow_add]
    exact Nat.mul_le_mul_right _ (divRound_bounds hlog).2

section Nearest

variable {q j : Nat} (hn : 2 ^ 52 * 2 ^ j ≤ n) (hn' : n < 2 ^ 53 * 2 ^ j)

include hn in
/-- A nearest integer of 53 bits is the mantissa. -/
theorem IsNearest.roundsTo_mantissa (hq : IsNearest q ((n : Rat) / (2 ^ j : Nat))) :
    RoundsTo n q j := by
  have hpow : (0 : Rat) < (2 ^ j : Nat) := by positivity
  have hzpow : (2 : Rat) ^ (j : Int) = (2 ^ j : Nat) := by
    rw [zpow_natCast, Nat.cast_pow]
    rfl
  rcases eq_or_ne q (2 ^ 52) with rfl | hne
  -- below a power of two there are numbers twice as close, but none of them is as small as that
  · have hreach := reachBelow_pos (2 ^ 52) j
    have hn : ((2 ^ 52 : Nat) : Rat) * (2 ^ j : Nat) ≤ n := by exact_mod_cast hn
    refine ⟨?_, hzpow ▸ (div_le_iff₀ hpow).mp hq.le, fun hodd => absurd hodd (by decide)⟩
    rw [hzpow]
    exact (mul_le_mul_of_nonneg_right (sub_le_self _ hreach.le) hpow.le).trans hn
  · have hreach : reachBelow q j = 1 / 2 := if_neg fun h => hne h.1
    refine ⟨?_, hzpow ▸ (div_le_iff₀ hpow).mp hq.le, fun hodd => ⟨?_, ?_⟩⟩
    · rw [hreach, hzpow]
      exact (le_div_iff₀ hpow).mp hq.ge
    · rw [hreach, hzpow]
      exact (lt_div_iff₀ hpow).mp (hq.strict hodd).1
    · rw [hzpow]
      exact (div_lt_iff₀ hpow).mp (hq.strict hodd).2

include hn' in
/-- A nearest integer of one bit more carries into the exponent. -/
theorem IsNearest.roundsTo_carry (hq : IsNearest (2 ^ 53) ((n : Rat) / (2 ^ j : Nat))) :
    RoundsTo n (2 ^ 52) ((j + 1 : Nat) : Int) := by
  have hge : (((2 ^ 53 : Nat) : Rat) - 1 / 2) * (2 ^ j : Nat) ≤ n :=
    (le_div_iff₀ (by positivity)).mp hq.ge
  have hlt : (n : Rat) < (2 ^ 53 : Nat) * (2 ^ j : Nat) := by exact_mod_cast hn'
  have hreach : reachBelow (2 ^ 52) ((j + 1 : Nat) : Int) = 1 / 4 := if_pos ⟨rfl, by omega⟩
  have hzpow : (2 : Rat) ^ ((j + 1 : Nat) : Int) = (2 ^ j : Nat) * 2 := by
    rw [zpow_natCast, pow_succ, Nat.cast_pow]
    rfl
  have hpos : (0 : Rat) < (2 ^ j : Nat) := by positivity
  refine ⟨?_, ?_, fun hodd => absurd hodd (by decide)⟩
  · rw [hreach, hzpow]
    push_cast at hge ⊢
    linarith
  · rw [hzpow]
    push_cast at hlt hpos ⊢
    linarith

include hn hn' in
/-- The integer nearest to what is left of a natural number without its last bits. -/
theorem IsNearest.roundsToValue (hq : IsNearest q ((n : Rat) / (2 ^ j : Nat))) (hlow : 2 ^ 52 ≤ q)
    (hhigh : q ≤ 2 ^ 53) (hlt : q * 2 ^ j < 2 ^ 1024) : RoundsToValue n (q * 2 ^ j : Nat) := by
  rcases hhigh.lt_or_eq with hq53 | rfl
  · have hj := add_lt_of_mul_two_pow_lt hlow hlt
    have hlog : q.log2 = 52 := (Nat.log2_eq_iff (by omega)).mpr ⟨hlow, hq53⟩
    have hvalue : ((q * 2 ^ j : Nat) : Rat) = q * 2 ^ (j : Int) := by
      rw [Nat.cast_mul, zpow_natCast, Nat.cast_pow]
      rfl
    rw [hvalue]
    exact .finite (by omega) (.inl ⟨hlog, by omega, by omega⟩) (hq.roundsTo_mantissa hn)
  · have hj := add_lt_of_mul_two_pow_lt (Nat.le_refl _) hlt
    have hvalue : ((2 ^ 53 * 2 ^ j : Nat) : Rat) = (2 ^ 52 : Nat) * 2 ^ ((j + 1 : Nat) : Int) := by
      rw [zpow_natCast]
      push_cast
      ring
    rw [hvalue]
    exact .finite (by decide) (.inl ⟨by decide, by omega, by omega⟩) (hq.roundsTo_carry hn')

end Nearest

/-- A natural number is rounded to 53 bits as it is rounded to a number. -/
theorem roundsToValue_roundBits (hlt : roundBits n < 2 ^ 1024) : RoundsToValue n (roundBits n) := by
  rcases Nat.lt_or_ge n (2 ^ 53) with hsmall | hlarge
  · have hself := roundsToValue_self (e := 0) hsmall (by decide) (by decide)
    rw [zpow_zero, mul_one] at hself
    rwa [roundBits_of_lt hsmall]
  · have hlog : 53 ≤ n.log2 := (Nat.le_log2 (by omega)).mpr hlarge
    obtain ⟨hn, hn'⟩ := log2_bounds (by omega : 52 ≤ n.log2)
    obtain ⟨hlow, hhigh⟩ := divRound_bounds (by omega : 52 ≤ n.log2)
    exact (isNearest_divRound n (Nat.two_pow_pos _)).roundsToValue hn hn' hlow hhigh hlt

/-- What is less than half a unit behind 53 bits is rounded away. -/
theorem roundBits_add {q j d : Nat} (hlow : 2 ^ 52 ≤ q) (hhigh : q ≤ 2 ^ 53) (hd : 2 * d < 2 ^ j) :
    roundBits (q * 2 ^ j + d) = q * 2 ^ j := by
  have hbelow {q j : Nat} (hlow : 2 ^ 52 ≤ q) (hhigh : q < 2 ^ 53) (hd : 2 * d < 2 ^ j) :
      roundBits (q * 2 ^ j + d) = q * 2 ^ j := by
    have hlog : q.log2 = 52 := (Nat.log2_eq_iff (by omega)).mpr ⟨hlow, hhigh⟩
    have hexp : (q * 2 ^ j + d).log2 - 52 = j := by
      rw [log2_push (by omega) (by omega), hlog]
      omega
    rw [roundBits, hexp, divRound_add hd]
  rcases hhigh.lt_or_eq with hlt | rfl
  · exact hbelow hlow hlt hd
  · have hdouble : 2 ^ 53 * 2 ^ j = 2 ^ 52 * 2 ^ (j + 1) := by ring
    rw [hdouble]
    refine hbelow (Nat.le_refl _) (by decide) ?_
    rw [Nat.pow_succ]
    omega

end Round

/-! ### Digits that are cut off -/

section Cut

variable {k n d : Nat}

/-- The bits of the digits that come after the first digit with which there are more than 53 bits.
-/
def cutBits (k n : Nat) : Nat := k * ((n.log2 - 53) / k)

/-- A natural number rounded to 53 bits after its last digits have been made zero. -/
def roundCut (k n : Nat) : Nat := roundBits (n / 2 ^ cutBits k n) * 2 ^ cutBits k n

theorem cutBits_le (k n : Nat) : cutBits k n ≤ n.log2 - 53 := Nat.mul_div_le _ _

/-- The first digit with which there are more than 53 bits is not cut off. -/
theorem roundCut_of_lt (h : n.log2 - 53 < k) : roundCut k n = roundBits n := by
  rw [roundCut, cutBits, Nat.div_eq_of_lt h, Nat.mul_zero, Nat.pow_zero, Nat.div_one, Nat.mul_one]

/-- Up to 53 bits nothing is rounded. -/
theorem roundCut_of_le (hk : 0 < k) (h : n ≤ 2 ^ 53) : roundCut k n = n := by
  rcases h.lt_or_eq with hlt | rfl
  · have hlog := (log2_lt_iff (Nat.succ_pos 52)).mpr hlt
    rw [roundCut_of_lt (by omega), roundBits_of_lt hlt]
  · rw [roundCut_of_lt (by rwa [Nat.log2_two_pow])]
    decide

theorem cutBits_push (hk : 0 < k) (hlog : 53 ≤ n.log2) (hd : d < 2 ^ k) :
    cutBits k (n * 2 ^ k + d) = cutBits k n + k := by
  have hn := pos_of_le_log2 (Nat.succ_pos 52) hlog
  have hsub : n.log2 + k - 53 = n.log2 - 53 + k := by omega
  rw [cutBits, cutBits, log2_push hn hd, hsub, Nat.add_div_right _ hk, Nat.mul_succ]

theorem roundCut_push (hk : 0 < k) (hlog : 53 ≤ n.log2) (hd : d < 2 ^ k) :
    roundCut k (n * 2 ^ k + d) = roundCut k n * 2 ^ k := by
  rw [roundCut, roundCut, cutBits_push hk hlog hd, Nat.add_comm (cutBits k n), Nat.pow_add,
    ← Nat.div_div_eq_div_mul, push_div hd, Nat.mul_assoc, Nat.mul_comm (2 ^ k)]

theorem log2_cut (hn : 0 < n) : (n / 2 ^ cutBits k n).log2 = n.log2 - cutBits k n := by
  have hcut := cutBits_le k n
  have hpos : 0 < n / 2 ^ cutBits k n := by
    refine Nat.div_pos ?_ (Nat.two_pow_pos _)
    exact (Nat.pow_le_pow_right two_pos (by omega)).trans (Nat.log2_self_le hn.ne')
  have hlog := log2_push hpos (Nat.mod_lt n (Nat.two_pow_pos (cutBits k n)))
  rw [Nat.div_add_mod'] at hlog
  omega

/-- One more digit: the number that has been rounded is rounded again, and a digit that follows the
first one with which there are more than 53 bits is lost. -/
theorem roundBits_push (hk : 0 < k) (hd : d < 2 ^ k) :
    roundBits (roundCut k n * 2 ^ k + d) = roundCut k (n * 2 ^ k + d) := by
  rcases Nat.lt_or_ge n.log2 53 with hlog | hlog
  -- so far nothing has been rounded, and nothing is cut off with this digit either
  · have hn := (log2_lt_iff (Nat.succ_pos 52)).mp hlog
    have hnext : (n * 2 ^ k + d).log2 < 53 + k := by
      refine (log2_lt_iff (by omega)).mpr ?_
      rw [Nat.pow_add]
      exact push_lt hn hd
    rw [roundCut_of_lt (by omega), roundCut_of_lt (by omega), roundBits_of_lt hn]
  -- what is held is a multiple of at least twice the radix, so that the digit is less than half a
  -- unit
  · have hn := pos_of_le_log2 (Nat.succ_pos 52) hlog
    have hcut := cutBits_le k n
    have hlog' : 53 ≤ (n / 2 ^ cutBits k n).log2 := by
      rw [log2_cut hn]
      omega
    have hcuts : roundCut k n = roundBits (n / 2 ^ cutBits k n) * 2 ^ cutBits k n := rfl
    rw [roundCut_push hk hlog hd, hcuts]
    generalize n / 2 ^ cutBits k n = p at hlog'
    obtain ⟨hlow, hhigh⟩ := divRound_bounds (by omega : 52 ≤ p.log2)
    have hexp : roundBits p * 2 ^ cutBits k n * 2 ^ k
        = Decimal.divRound p (2 ^ (p.log2 - 52)) * 2 ^ (p.log2 - 52 + cutBits k n + k) := by
      rw [roundBits]
      ring
    have hpow : 2 ^ (k + 1) ≤ 2 ^ (p.log2 - 52 + cutBits k n + k) :=
      Nat.pow_le_pow_right two_pos (by omega)
    rw [Nat.pow_succ] at hpow
    rw [hexp]
    exact roundBits_add hlow hhigh (by omega)

theorem roundCut_le (k n : Nat) : roundCut k n ≤ 2 ^ (n.log2 + 1) := by
  rcases Nat.eq_zero_or_pos n with rfl | hn
  · rw [roundCut, Nat.zero_div, roundBits_of_lt (Nat.two_pow_pos 53), Nat.zero_mul]
    exact Nat.zero_le _
  · have hcut := cutBits_le k n
    have hsum : (n / 2 ^ cutBits k n).log2 + 1 + cutBits k n = n.log2 + 1 := by
      rw [log2_cut hn]
      omega
    rw [roundCut, ← hsum, Nat.pow_add]
    exact Nat.mul_le_mul_right _ (roundBits_le _)

/-- Whether a natural number lies above the half way between two numbers of 53 bits of which the
lower one is even, and so close to it that only the digits that are cut off tell. -/
def AboveTie (k n : Nat) : Prop :=
  ∃ m, m % 2 = 0 ∧ (2 * m + 1) * 2 ^ (n.log2 - 53) < n
    ∧ n < (2 * m + 1) * 2 ^ (n.log2 - 53) + 2 ^ cutBits k n

/-- The bits of such a number: a one that is followed by zeros only as far as the digits are kept.
-/
theorem aboveTie_iff {a b e r s : Nat} (hb : b < 2 * e) (hr : r < s) :
    (∃ m, m % 2 = 0 ∧ (2 * m + 1) * (e * s) < (a * (2 * e) + b) * s + r
        ∧ (a * (2 * e) + b) * s + r < (2 * m + 1) * (e * s) + s)
      ↔ b = e ∧ a % 2 = 0 ∧ 0 < r := by
  have hmid (m : Nat) : (2 * m + 1) * (e * s) = (m * (2 * e) + e) * s := by ring
  constructor
  · rintro ⟨m, heven, hlow, hhigh⟩
    rw [hmid] at hlow hhigh
    have hkept : a * (2 * e) + b = m * (2 * e) + e := by
      rw [← push_div hr (n := a * (2 * e) + b)]
      refine Nat.div_eq_of_lt_le hlow.le ?_
      rwa [Nat.succ_mul (m * (2 * e) + e)]
    have ha : a = m := by
      rw [← push_div hb (n := a), hkept, push_div (by omega)]
    rw [hkept] at hlow
    rw [ha] at hkept ⊢
    exact ⟨by omega, heven, by omega⟩
  · rintro ⟨rfl, heven, hpos⟩
    refine ⟨a, heven, ?_, ?_⟩ <;> rw [hmid] <;> omega

/-- The digits that are cut off do not matter except above a half that goes to the lower side. -/
theorem roundCut_eq_roundBits_iff (k n : Nat) : roundCut k n = roundBits n ↔ ¬AboveTie k n := by
  rcases Nat.lt_or_ge n.log2 53 with hlog | hlog
  · have hcut : cutBits k n = 0 := Nat.eq_zero_of_le_zero ((cutBits_le k n).trans (by omega))
    have hhalf : n.log2 - 53 = 0 := by omega
    rw [roundCut, AboveTie, hcut, hhalf, Nat.pow_zero, Nat.div_one, Nat.mul_one]
    refine iff_of_true rfl ?_
    rintro ⟨m, -, hlow, hhigh⟩
    omega
  · have hn := pos_of_le_log2 (Nat.succ_pos 52) hlog
    have hcut := cutBits_le k n
    have hlog' := log2_cut (k := k) hn
    have hr := Nat.mod_lt n (Nat.two_pow_pos (cutBits k n))
    have hsplit := Nat.div_add_mod' n (2 ^ cutBits k n)
    rw [roundCut, roundBits, roundBits, AboveTie, hlog']
    generalize hc : cutBits k n = c at *
    generalize n / 2 ^ c = p at *
    generalize n % 2 ^ c = r at *
    generalize he : 2 ^ (n.log2 - 53 - c) = e
    have hpos : 0 < 2 * e := Nat.mul_pos two_pos (he ▸ Nat.two_pow_pos _)
    have hb := Nat.mod_lt p hpos
    have hsplit' := Nat.div_add_mod' p (2 * e)
    generalize p / (2 * e) = a at *
    generalize p % (2 * e) = b at *
    have hhalf : 2 ^ (n.log2 - 53) = e * 2 ^ c := by
      rw [← he, ← Nat.pow_add]
      congr 1
      omega
    have hunit : 2 ^ (n.log2 - c - 52) = 2 * e := by
      rw [← he, ← Nat.pow_succ']
      congr 1
      omega
    have hunit' : 2 ^ (n.log2 - 52) = 2 * e * 2 ^ c := by
      rw [Nat.mul_assoc, ← hhalf, ← Nat.pow_succ']
      congr 1
      omega
    rw [hhalf, hunit, hunit', Nat.mul_assoc, Nat.mul_right_cancel_iff (Nat.mul_pos hpos (by omega)),
      ← hsplit, ← hsplit', divRound_cut hb hr, aboveTie_iff hb hr]

theorem roundCut_lt {a b : Nat} (ha : 0 < a) (hab : a < b) (h : n < 2 ^ a) :
    roundCut k n < 2 ^ b := by
  have hlog := (log2_lt_iff ha).mpr h
  exact (roundCut_le k n).trans_lt (Nat.pow_lt_pow_right Nat.one_lt_two (by omega))

theorem roundCut_mul_lt {a b : Nat} (ha : 0 < a) (hab : a < b) (hk : 0 < k) (hd : d < 2 ^ k)
    (h : n * 2 ^ k + d < 2 ^ a) : roundCut k n * 2 ^ k < 2 ^ b := by
  rcases Nat.lt_or_ge n.log2 53 with hlog | hlog
  · rw [roundCut_of_lt (by omega), roundBits_of_lt ((log2_lt_iff (Nat.succ_pos 52)).mp hlog)]
    exact (Nat.le_add_right _ d).trans_lt (h.trans (Nat.pow_lt_pow_right Nat.one_lt_two hab))
  · rw [← roundCut_push hk hlog hd]
    exact roundCut_lt ha hab h

end Cut

/-! ### Accumulating digits -/

section Accumulate

variable {k : Nat} {x : Float}

/-- The sum with one more digit is rounded, the product is not. -/
theorem HasValue.pushDigit {a d : Nat} (hx : HasValue x.toModel.unpack a) (hk : k ≤ 52)
    (hd : d < 2 ^ k) (hmul : a * 2 ^ k < 2 ^ 1024) (hlt : roundBits (a * 2 ^ k + d) < 2 ^ 1024) :
    HasValue (pushDigit (2 ^ k) x d).toModel.unpack (roundBits (a * 2 ^ k + d)) := by
  have hk53 : 2 ^ k < 2 ^ 53 := Nat.pow_lt_pow_right Nat.one_lt_two (by omega)
  have hround := hx.rounds_mul_two_pow hk (by exact_mod_cast hmul)
  have hproduct := hx.mul (Nat.two_pow_pos k) hk53 hround
  refine hproduct.add (hasValue_ofNat (hd.trans hk53)) ?_
  rw [← Nat.cast_mul, ← Nat.cast_add]
  exact roundsToValue_roundBits hlt

/-- Digits are accumulated to what they stand for together, rounded to 53 bits without those that
are cut off. -/
theorem hasValue_foldl_pushDigit (hk : 0 < k) (hk' : k ≤ 52) {ds : List Nat}
    (hds : ∀ d ∈ ds, d < 2 ^ k) {n : Nat} (hx : HasValue x.toModel.unpack (roundCut k n))
    (hlt : ds.foldl (fun n d => n * 2 ^ k + d) n < 2 ^ 1023) :
    HasValue (ds.foldl (Number.pushDigit (2 ^ k)) x).toModel.unpack
      (roundCut k (ds.foldl (fun n d => n * 2 ^ k + d) n)) := by
  -- after each digit `x` is what the digits so far stand for, rounded without those that are cut
  -- off
  induction ds generalizing n x with
  | nil => exact hx
  | cons d ds ih =>
    obtain ⟨hd, hds⟩ := List.forall_mem_cons.mp hds
    have hnext : n * 2 ^ k + d < 2 ^ 1023 :=
      (le_foldl_digits (Nat.two_pow_pos k) ds _).trans_lt hlt
    have hpos : 0 < 1023 := Nat.succ_pos 1022
    have hbound : 1023 < 1024 := Nat.lt_succ_self 1023
    have hround := roundCut_lt (k := k) hpos hbound hnext
    have hmul := roundCut_mul_lt hpos hbound hk hd hnext
    refine ih hds ?_ hlt
    rw [← roundBits_push hk hd]
    refine hx.pushDigit hk' hd hmul ?_
    rwa [roundBits_push hk hd]

end Accumulate

/-! ### Literals -/

section Literal

variable {radix : Nat} {cs : List Char}

/-- No digit of a radix up to 32 is the letter of a radix. -/
theorem stripHexPrefix?_eq_none (hradix : radix ≤ 32)
    (h : ∀ c ∈ cs, ∃ v, digitValue? radix c = some v) : stripHexPrefix? cs = none := by
  unfold stripHexPrefix?
  split
  · next c rest =>
    obtain ⟨v, hv⟩ := h c (List.mem_cons_of_mem _ List.mem_cons_self)
    refine if_neg ?_
    rintro (rfl | rfl)
    all_goals
      have hpoint := digitValue?_eq_some_iff.mp hv
      simp at hpoint
      omega
  · rfl

/-- What is read after the letter of a radix. -/
theorem ofText_radixLiteral {letter : Char} {x : Float} (hletter : (letter, radix) ∈ radixLetters)
    (hne : cs ≠ []) (h : ∀ c ∈ cs, ∃ v, digitValue? radix c = some v)
    (hx : ofRadixDigits? radix cs = some x) : ofText (String.ofList ('0' :: letter :: cs)) = x := by
  have hblank : Text.isBlank letter = false := by
    simp only [radixLetters, List.mem_cons, Prod.mk.injEq, List.not_mem_nil, or_false] at hletter
    rcases hletter with ⟨rfl, -⟩ | ⟨rfl, -⟩ | ⟨rfl, -⟩ | ⟨rfl, -⟩ | ⟨rfl, -⟩ | ⟨rfl, -⟩
    all_goals rfl
  have hblanks : ∀ c ∈ '0' :: letter :: cs, Text.isBlank c = false := by
    refine List.forall_mem_cons.mpr ⟨rfl, List.forall_mem_cons.mpr ⟨hblank, fun c hc => ?_⟩⟩
    obtain ⟨v, hv⟩ := h c hc
    exact (ne_of_digitValue? hv).2.2.2
  rw [ofText, trim_of_forall (by rwa [String.toList_ofList]), String.toList_ofList, ofTrimmed,
    splitRadixPrefix?_eq_some_iff.mpr ⟨letter, hletter, rfl, hne⟩]
  simp only [hx, Option.getD_some]
  exact if_neg Bool.false_ne_true

/-- What is read in a radix other than ten. -/
theorem parseInt_ofList {x : Float} (h2 : 2 ≤ radix) (h32 : radix ≤ 32) (h10 : radix ≠ 10)
    (hne : cs ≠ []) (h : ∀ c ∈ cs, ∃ v, digitValue? radix c = some v)
    (hx : ofRadixDigits? radix cs = some x) : parseInt (String.ofList cs) radix = x := by
  have hblanks : ∀ c ∈ cs, Text.isBlank c = false := fun c hc =>
    (ne_of_digitValue? (h c hc).choose_spec).2.2.2
  have hsign : splitSign cs = (false, cs) := splitSign_eq_self fun c hc =>
    have hne := ne_of_digitValue? (h c (List.mem_of_mem_head? hc)).choose_spec
    ⟨hne.1, hne.2.1⟩
  have hdigits : cs.takeWhile (fun c => (digitValue? radix c).isSome) = cs :=
    List.takeWhile_eq_self_iff.mpr fun c hc => Option.isSome_iff_exists.mpr (h c hc)
  have hzero : (radix : Int) ≠ 0 := by omega
  unfold parseInt
  rw [trim_of_forall (by rwa [String.toList_ofList]), String.toList_ofList, hsign]
  simp only [stripHexPrefix?_eq_none h32 h, ite_self, Int.toNat_natCast, if_neg hzero, hdigits]
  rw [if_neg (by omega), if_neg (by rwa [List.isEmpty_iff]), if_neg h10, hx]
  rfl

end Literal

/-- A literal in a radix that is a power of two is rounded to 53 bits after the digits that are cut
off have been made zero. This is the number nearest to the literal, a half going to the even side,
unless the literal lies so closely above a half that only these digits tell; up to 53 bits it is the
literal itself. -/
theorem radixLiteral_rounded {k : Nat} (hk : 0 < k) (hk' : k ≤ 5) {cs : List Char} (hne : cs ≠ [])
    {n : Nat} (hn : digitsValue? (2 ^ k) cs = some n) (hlt : n < 2 ^ 1023) :
    ∃ x, ofRadixDigits? (2 ^ k) cs = some x
      ∧ parseInt (String.ofList cs) (2 ^ k : Nat) = x
      ∧ (∀ letter, (letter, 2 ^ k) ∈ radixLetters →
        ofText (String.ofList ('0' :: letter :: cs)) = x)
      ∧ x.isFinite ∧ (Dyadic.ofFloat x).toRat = roundCut k n
      ∧ ((Dyadic.ofFloat x).toRat = roundBits n ↔ ¬AboveTie k n)
      ∧ (n ≤ 2 ^ 53 → (Dyadic.ofFloat x).toRat = n) := by
  obtain ⟨ds, hds, rfl⟩ := Option.map_eq_some_iff.mp hn
  have hread := mapM_digitValue?_iff.mp hds
  have hdigits := exists_of_forall₂ hread
  have hzero : HasValue (0.0 : Float).toModel.unpack (roundCut k 0 : Nat) := by
    rw [roundCut_of_le hk (Nat.zero_le _), Nat.cast_zero]
    exact .zero .positive
  have hvalue := hasValue_foldl_pushDigit hk (by omega) (lt_of_forall₂ hread) hzero hlt
  have hx := ofRadixDigits?_eq_some hne hds
  generalize ds.foldl (pushDigit (2 ^ k)) 0.0 = x at hvalue hx
  have hradix : 2 ≤ 2 ^ k ∧ 2 ^ k ≤ 32 ∧ 2 ^ k ≠ 10 := by
    interval_cases k <;> decide
  refine ⟨x, hx, parseInt_ofList hradix.1 hradix.2.1 hradix.2.2 hne hdigits hx,
    fun letter hletter => ofText_radixLiteral hletter hne hdigits hx, hvalue.isFinite,
    hvalue.toRat_eq, ?_, fun hsmall => ?_⟩
  · rw [hvalue.toRat_eq, Nat.cast_inj]
    exact roundCut_eq_roundBits_iff k _
  · rw [hvalue.toRat_eq, Nat.cast_inj]
    exact roundCut_of_le hk hsmall

/-- A literal of one unit above a half: the last digit is cut off and the half goes down. -/
theorem radixLiteral_rounded_aboveTie :
    digitsValue? (2 ^ 4) "200000000000011".toList = some (2 ^ 57 + 17)
      ∧ ∃ x, ofRadixDigits? (2 ^ 4) "200000000000011".toList = some x
        ∧ (Dyadic.ofFloat x).toRat = roundCut 4 (2 ^ 57 + 17)
        ∧ roundCut 4 (2 ^ 57 + 17) = 2 ^ 57 ∧ roundBits (2 ^ 57 + 17) = 2 ^ 57 + 32 := by
  have hn : digitsValue? (2 ^ 4) "200000000000011".toList = some (2 ^ 57 + 17) := by decide
  have hlow : 2 ^ 57 + 17 < 2 ^ 58 := by decide
  have hlt : 2 ^ 57 + 17 < 2 ^ 1023 :=
    hlow.trans_le (pow_le_pow_right₀ one_le_two (by decide))
  obtain ⟨x, hx, -, -, -, hvalue, -⟩ := radixLiteral_rounded (k := 4) (by decide) (by decide)
    (by decide) hn hlt
  exact ⟨hn, x, hx, hvalue, by decide, by decide⟩

end ScriptEngine.Number
