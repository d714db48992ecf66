import Mathlib
import ScriptEngine.Proofs.DecimalReading

/-!
# Digits that stand for a number

The shortest digits of a positive number are searched for on decimal grids, each one ten times finer
than the one before. The search ends at seventeen digits at the latest, because the grid is then
finer than the interval of the number is wide. What it finds is a decimal in the interval, without
zeros at its end, and no decimal with fewer digits lies in the interval.

## Main definitions

* `Decimal.toRat`: the rational that a decimal denotes.
* `RoundingInterval.Describes`: the interval of a number over a common denominator.
* `Decimal.leadingOf`: the exponent of the first digit of a number.

## Main results

* `Decimal.toRat_ofScaled`, `Decimal.digits_ofScaled`: dropping zeros keeps the rational.
* `Decimal.leadingExponent_spec`: the power of ten of the leading digit of a fraction.
* `RoundingInterval.Describes.contains_iff`: membership in the interval.
* `Decimal.onGrid?_ne_none`: a grid of seventeen digits has a point in the interval.
* `Decimal.shortest_spec`: the shortest digits round to the number.
* `Decimal.digitCount_shortest_le`: no decimal with fewer digits does.
-/

namespace ScriptEngine

open Number

/-! ### Decimals -/

namespace Decimal

/-- The rational that a decimal denotes. -/
def toRat (d : Decimal) : Rat := d.digits * 10 ^ (d.exponent - (digitCount d.digits - 1))

/-- One more digit at the end of a number. -/
theorem digitCount_of_ten_le {n : Nat} (hn : 10 ≤ n) : digitCount n = digitCount (n / 10) + 1 := by
  rw [digitCount, Nat.toDigits_of_base_le (by decide) hn, List.length_append, List.length_singleton]
  rfl

/-- Dropping zeros takes a power of ten out of a number. -/
theorem exists_stripZeros {fuel n : Nat} (hn : 0 < n) (hfuel : n < 10 ^ fuel) :
    ∃ j, n = stripZeros fuel n * 10 ^ j ∧ digitCount n = digitCount (stripZeros fuel n) + j
      ∧ stripZeros fuel n % 10 ≠ 0 := by
  induction fuel generalizing n with
  | zero =>
    rw [Nat.pow_zero] at hfuel
    omega
  | succ fuel ih =>
    rw [stripZeros]
    split
    · next hzero =>
      have hten : 10 ≤ n := by omega
      obtain ⟨j, hvalue, hcount, hlast⟩ :=
        ih (n := n / 10) (by omega) (by rw [Nat.pow_succ] at hfuel; omega)
      refine ⟨j + 1, ?_, ?_, hlast⟩
      · rw [Nat.pow_succ, ← Nat.mul_assoc, ← hvalue]
        omega
      · rw [digitCount_of_ten_le hten, hcount, Nat.add_assoc]
    · next hlast => exact ⟨0, by omega, rfl, fun hzero => hlast ⟨hzero, by omega⟩⟩

section Scaled

variable {n : Nat} (hn : 0 < n) (p : Int)

include hn

/-- A decimal keeps its value without the zeros at its end. -/
theorem toRat_ofScaled : (ofScaled n p).toRat = n * 10 ^ (-p) := by
  obtain ⟨j, hvalue, hcount, -⟩ := exists_stripZeros hn (lt_ten_pow n)
  have hexp : (digitCount n : Int) - 1 - p - (digitCount (stripZeros (digitCount n) n) - 1)
      = j + -p := by omega
  have hcast : (n : Rat) = stripZeros (digitCount n) n * 10 ^ (j : Int) := by exact_mod_cast hvalue
  rw [toRat, ofScaled, hexp, zpow_add₀ (by norm_num), ← mul_assoc, ← hcast]

theorem digits_ofScaled : (ofScaled n p).digits % 10 ≠ 0 := by
  obtain ⟨j, -, -, hlast⟩ := exists_stripZeros hn (lt_ten_pow n)
  exact hlast

end Scaled

/-- Without its zeros a number has no more digits than a power of ten above it has zeros. -/
theorem digitCount_ofScaled_le {n k : Nat} (hn : 0 < n) (hle : n ≤ 10 ^ (k + 1)) (p : Int) :
    digitCount (ofScaled n p).digits ≤ k + 1 := by
  obtain ⟨j, hvalue, hcount, hlast⟩ := exists_stripZeros hn (lt_ten_pow n)
  change digitCount (stripZeros (digitCount n) n) ≤ k + 1
  rcases Nat.eq_or_lt_of_le hle with heq | hlt
  · have hmore : digitCount n ≤ k + 2 := by
      refine (Nat.length_toDigits_le_iff (by decide) (Nat.succ_pos _)).mpr ?_
      rw [heq]
      exact Nat.pow_lt_pow_right (by decide) (Nat.lt_succ_self _)
    have hzero : n % 10 = 0 := by
      rw [heq, Nat.pow_succ, Nat.mul_mod_left]
    -- the power of ten itself loses a zero at least
    have hj : j ≠ 0 := by
      rintro rfl
      rw [Nat.pow_zero, Nat.mul_one] at hvalue
      rw [← hvalue] at hlast
      exact hlast hzero
    omega
  · have hless : digitCount n ≤ k + 1 :=
      (Nat.length_toDigits_le_iff (by decide) (Nat.succ_pos _)).mpr hlt
    omega

section Leading

variable {num den : Nat} (hnum : 0 < num) (hden : 0 < den)

include hden

/-- The exponent of the leading digit is the difference of the counts of digits, or one less. -/
theorem leadingExponent_eq : leadingExponent num den
    = if (10 : Rat) ^ ((digitCount num : Int) - digitCount den) ≤ num / den
      then (digitCount num : Int) - digitCount den
      else (digitCount num : Int) - digitCount den - 1 := by
  have hden' : (0 : Rat) < den := by exact_mod_cast hden
  rw [leadingExponent]
  generalize (digitCount num : Int) - digitCount den = e
  split
  · next he =>
    have hiff : den * tenPow e.toNat ≤ num ↔ (10 : Rat) ^ e ≤ num / den := by
      rw [le_div_iff₀ hden', mul_comm, ← Nat.cast_le (α := Rat), Nat.cast_mul, tenPow, Nat.pow_eq,
        cast_pow_toNat 10 he, Nat.cast_ofNat]
    simp only [hiff]
  · next he =>
    have hiff : den ≤ num * tenPow (-e).toNat ↔ (10 : Rat) ^ e ≤ num / den := by
      rw [le_div_iff₀ hden', ← Nat.cast_le (α := Rat), Nat.cast_mul, tenPow, Nat.pow_eq,
        cast_pow_toNat_neg 10 he, Nat.cast_ofNat, ← div_eq_mul_inv, le_div_iff₀ (by positivity),
        mul_comm]
    simp only [hiff]

include hnum

/-- The counts of digits tell the size of a fraction up to two powers of ten. -/
theorem ten_zpow_le_div_lt : (10 : Rat) ^ ((digitCount num : Int) - digitCount den - 1) < num / den
    ∧ (num / den : Rat) < 10 ^ ((digitCount num : Int) - digitCount den + 1) := by
  have hden' : (0 : Rat) < den := by exact_mod_cast hden
  have hlow := ten_zpow_le 0 hnum
  have hhigh := lt_ten_zpow 0 den
  have hlow' := ten_zpow_le 0 hden
  have hhigh' := lt_ten_zpow 0 num
  rw [zpow_zero, mul_one, add_zero] at hlow hhigh hlow' hhigh'
  rw [lt_div_iff₀ hden', div_lt_iff₀ hden']
  constructor
  · have hexp : (digitCount num : Int) - digitCount den - 1 + digitCount den
        = (digitCount num : Int) - 1 := by ring
    calc (10 : Rat) ^ ((digitCount num : Int) - digitCount den - 1) * den
        < 10 ^ ((digitCount num : Int) - digitCount den - 1) * 10 ^ (digitCount den : Int) :=
          mul_lt_mul_of_pos_left hhigh (zpow_pos (by norm_num) _)
      _ = 10 ^ ((digitCount num : Int) - 1) := by rw [← zpow_add₀ (by norm_num), hexp]
      _ ≤ num := hlow
  · have hexp : (digitCount num : Int) - digitCount den + 1 + (digitCount den - 1)
        = (digitCount num : Int) := by ring
    calc (num : Rat) < 10 ^ (digitCount num : Int) := hhigh'
      _ = 10 ^ ((digitCount num : Int) - digitCount den + 1)
          * 10 ^ ((digitCount den : Int) - 1) := by rw [← zpow_add₀ (by norm_num), hexp]
      _ ≤ 10 ^ ((digitCount num : Int) - digitCount den + 1) * den :=
          mul_le_mul_of_nonneg_left hlow' (zpow_pos (by norm_num) _).le

/-- A fraction lies between the power of ten of its leading digit and the next one. -/
theorem leadingExponent_spec : (10 : Rat) ^ leadingExponent num den ≤ num / den
    ∧ (num / den : Rat) < 10 ^ (leadingExponent num den + 1) := by
  obtain ⟨hlow, hhigh⟩ := ten_zpow_le_div_lt hnum hden
  rw [leadingExponent_eq hden]
  split
  · next hle => exact ⟨hle, hhigh⟩
  · next hlt =>
    rw [sub_add_cancel]
    exact ⟨hlow.le, not_le.mp hlt⟩

end Leading

end Decimal

/-! ### Intervals over a common denominator -/

namespace RoundingInterval

/-- Whether an interval is that of the number `m * 2 ^ e`, multiplied by a factor. -/
structure Describes (i : RoundingInterval) (factor : Rat) (m : Nat) (e : Int) : Prop where
  den : 0 < i.den
  factor_pos : 0 < factor
  low : (i.low : Rat) / i.den = (m - reachBelow m e) * 2 ^ e * factor
  value : (i.value : Rat) / i.den = m * 2 ^ e * factor
  high : (i.high : Rat) / i.den = (m + 1 / 2) * 2 ^ e * factor
  closed : i.closed = (m % 2 == 0)

section Describes

variable {i : RoundingInterval} {factor : Rat} {m : Nat} {e : Int}

/-- The interval of a double is the one that its exact value has. -/
theorem describes_ofFloat {x : Float} {hp : 0 < m}
    (h : x.toModel.unpack = .finite .positive m e hp) : (ofFloat x).Describes 1 m e := by
  have hreach : ((if m = twoPow 52 ∧ -1074 < e then 1 else 2 : Nat) : Rat)
      = 4 * reachBelow m e := by
    by_cases hc : m = twoPow 52 ∧ -1074 < e
    · rw [if_pos hc, reachBelow, if_pos (by exact hc)]
      norm_num
    · rw [if_neg hc, reachBelow, if_neg (by exact hc)]
      norm_num
  have hle : (if m = twoPow 52 ∧ -1074 < e then 1 else 2) ≤ 4 * m := by
    split <;> omega
  have hquarter : (2 : Rat) ^ e = 4 * 2 ^ (e - 2) := by
    rw [zpow_sub₀ two_ne_zero]
    norm_num
    ring
  simp only [ofFloat, Dyadic.ofFloat_of_unpack_eq_finite h]
  generalize (if m = twoPow 52 ∧ -1074 < e then 1 else 2) = down at hreach hle
  -- the scale over the denominator is a quarter of a unit in the last place
  suffices hunits : ∀ scale den : Nat, 0 < den → (scale : Rat) / den = 2 ^ (e - 2) →
      Describes ⟨(4 * m - down) * scale, 4 * m * scale, (4 * m + 2) * scale, den, m % 2 == 0⟩
        1 m e by
    split
    · next he =>
      refine hunits _ _ Nat.one_pos ?_
      rw [Nat.cast_one, div_one, twoPow, Nat.pow_eq, cast_pow_toNat 2 he, Nat.cast_ofNat]
    · next he =>
      refine hunits _ _ (Nat.pow_pos two_pos) ?_
      rw [Nat.cast_one, one_div, twoPow, Nat.pow_eq, cast_pow_toNat_neg 2 he, Nat.cast_ofNat,
        inv_inv]
  intro scale den hden hunit
  refine ⟨hden, one_pos, ?_, ?_, ?_, rfl⟩
  · rw [Nat.cast_mul, mul_div_assoc, hunit, Nat.cast_sub hle, hreach, hquarter]
    push_cast
    ring
  · rw [Nat.cast_mul, mul_div_assoc, hunit, hquarter]
    push_cast
    ring
  · rw [Nat.cast_mul, mul_div_assoc, hunit, hquarter]
    push_cast
    ring

/-- Multiplying every point by a factor. -/
theorem Describes.multiplied {j : RoundingInterval} (h : i.Describes 1 m e)
    (hfactor : 0 < factor) (hden : 0 < j.den)
    (hlow : (j.low : Rat) / j.den = i.low / i.den * factor)
    (hvalue : (j.value : Rat) / j.den = i.value / i.den * factor)
    (hhigh : (j.high : Rat) / j.den = i.high / i.den * factor) (hclosed : j.closed = i.closed) :
    j.Describes factor m e where
  den := hden
  factor_pos := hfactor
  low := by rw [hlow, h.low, mul_one]
  value := by rw [hvalue, h.value, mul_one]
  high := by rw [hhigh, h.high, mul_one]
  closed := hclosed.trans h.closed

theorem Describes.scale (h : i.Describes 1 m e) (p : Int) :
    (i.scale p).Describes (10 ^ p) m e := by
  have hfactor : (0 : Rat) < 10 ^ p := zpow_pos (by norm_num) p
  rw [RoundingInterval.scale]
  split
  · next hp =>
    have hpow (n : Nat) : ((n * tenPow p.toNat : Nat) : Rat) / i.den = n / i.den * 10 ^ p := by
      rw [Nat.cast_mul, tenPow, Nat.pow_eq, cast_pow_toNat 10 hp, Nat.cast_ofNat,
        mul_div_right_comm]
    exact h.multiplied hfactor h.den (hpow _) (hpow _) (hpow _) rfl
  · next hp =>
    have hpow (n : Nat) : (n : Rat) / (i.den * tenPow (-p).toNat : Nat) = n / i.den * 10 ^ p := by
      rw [Nat.cast_mul, tenPow, Nat.pow_eq, cast_pow_toNat_neg 10 hp, Nat.cast_ofNat, ← div_div,
        div_inv_eq_mul]
    exact h.multiplied hfactor (Nat.mul_pos h.den (Nat.pow_pos (by decide))) (hpow _) (hpow _)
      (hpow _) rfl

theorem contains_eq_true (i : RoundingInterval) (n : Nat) : i.contains n = true ↔
    (i.low < n ∧ n < i.high) ∨ i.closed = true ∧ (n = i.low ∨ n = i.high) := by
  simp [contains]

/-- The points over the common denominator that belong to the interval. -/
theorem Describes.contains_iff (h : i.Describes factor m e) (n : Nat) :
    i.contains n = true ↔ RoundsTo (n / i.den / factor) m e := by
  have hden : (0 : Rat) < i.den := by exact_mod_cast h.den
  have hlow : (m - reachBelow m e) * 2 ^ e = i.low / i.den / factor := by
    rw [h.low, mul_div_cancel_right₀ _ h.factor_pos.ne']
  have hhigh : (m + 1 / 2) * 2 ^ e = i.high / i.den / factor := by
    rw [h.high, mul_div_cancel_right₀ _ h.factor_pos.ne']
  have hlt (a b : Nat) : (a : Rat) / i.den / factor < b / i.den / factor ↔ a < b := by
    rw [div_lt_div_iff_of_pos_right h.factor_pos, div_lt_div_iff_of_pos_right hden, Nat.cast_lt]
  have hle (a b : Nat) : (a : Rat) / i.den / factor ≤ b / i.den / factor ↔ a ≤ b := by
    rw [div_le_div_iff_of_pos_right h.factor_pos, div_le_div_iff_of_pos_right hden, Nat.cast_le]
  have hends : i.low < i.high := by
    have hreach := reachBelow_pos m e
    rw [← hlt, ← hlow, ← hhigh]
    exact mul_lt_mul_of_pos_right (by linarith) (zpow_pos two_pos e)
  have hrounds : RoundsTo (n / i.den / factor) m e
      ↔ i.low ≤ n ∧ n ≤ i.high ∧ (m % 2 = 1 → i.low < n ∧ n < i.high) := by
    constructor
    · rintro ⟨hge, hle', hstrict⟩
      rw [hlow] at hge hstrict
      rw [hhigh] at hle' hstrict
      rw [hle] at hge hle'
      rw [hlt, hlt] at hstrict
      exact ⟨hge, hle', hstrict⟩
    · rintro ⟨hge, hle', hstrict⟩
      refine ⟨?_, ?_, ?_⟩
      · rwa [hlow, hle]
      · rwa [hhigh, hle]
      · rwa [hlow, hhigh, hlt, hlt]
  rw [contains_eq_true, hrounds, h.closed, beq_iff_eq]
  omega

/-- Where a unit in the last place is not much more than one, one of the integers around the value
lies in the interval. -/
theorem Describes.contains_neighbour (h : i.Describes factor m e) (hm : m < 2 ^ 53)
    (hlarge : 10 ^ 16 ≤ m * 2 ^ e * factor) :
    i.contains (i.value / i.den * i.den) = true
      ∨ i.contains ((i.value / i.den + 1) * i.den) = true := by
  have hden : (0 : Rat) < i.den := by exact_mod_cast h.den
  have hfactor := h.factor_pos
  have hreach := reachBelow_pos m e
  have hlow := (div_eq_iff hden.ne').mp h.low
  have hvalue := (div_eq_iff hden.ne').mp h.value
  have hhigh := (div_eq_iff hden.ne').mp h.high
  have hlt_value : i.low < i.value := by
    have hlt : (i.low : Rat) < i.value := by
      rw [hlow, hvalue]
      gcongr
      linarith
    exact_mod_cast hlt
  have hvalue_lt : i.value < i.high := by
    have hlt : (i.value : Rat) < i.high := by
      rw [hvalue, hhigh]
      gcongr
      linarith
    exact_mod_cast hlt
  have hfloor : i.value / i.den * i.den ≤ i.value := Nat.div_mul_le_self _ _
  have hceil : i.value < (i.value / i.den + 1) * i.den := by
    rw [Nat.mul_comm]
    exact Nat.lt_mul_div_succ _ h.den
  generalize i.value / i.den = c at hfloor hceil
  rw [contains_eq_true, contains_eq_true]
  by_contra hnone
  have hbelow : c * i.den ≤ i.low := by
    by_contra hlt
    exact hnone (.inl (.inl ⟨by omega, by omega⟩))
  have habove : i.high ≤ (c + 1) * i.den := by
    by_contra hlt
    exact hnone (.inr (.inl ⟨by omega, by omega⟩))
  -- both ends of the interval lie between the two integers
  have hbelow : (c : Rat) ≤ (m - reachBelow m e) * (2 ^ e * factor) := by
    rw [← mul_assoc, ← h.low, le_div_iff₀ hden]
    exact_mod_cast hbelow
  have habove : (m + 1 / 2) * (2 ^ e * factor) ≤ (c : Rat) + 1 := by
    rw [← mul_assoc, ← h.high, div_le_iff₀ hden]
    exact_mod_cast habove
  rw [mul_assoc] at hlarge
  generalize (2 : Rat) ^ e * factor = unit at hbelow habove hlarge
  have hm : (m : Rat) < 2 ^ 53 := by exact_mod_cast hm
  unfold reachBelow at hbelow
  split at hbelow
  · next hpower =>
    have hpower : (m : Rat) = 2 ^ 52 := by exact_mod_cast hpower.1
    rw [hpower] at hbelow habove hlarge
    linarith
  · have hunit : unit ≤ 1 := by linarith
    have hle : m * unit ≤ m := mul_le_of_le_one_right (Nat.cast_nonneg m) hunit
    linarith

end Describes
end RoundingInterval

/-! ### The search -/

namespace Decimal

section Search

variable {i : RoundingInterval} {p : Int} {d : Decimal}

/-- What is found on a grid is one of the multiples around the value, and lies in the interval. -/
theorem exists_of_onGrid? (h : onGrid? i p = some d) :
    ∃ n ≤ (i.scale p).value / (i.scale p).den + 1, d = ofScaled n p
      ∧ (i.scale p).contains (n * (i.scale p).den) = true := by
  simp only [onGrid?] at h
  split at h
  · next hbelow habove =>
    split at h
    · exact ⟨_, Nat.le_succ _, (Option.some.inj h).symm, hbelow⟩
    · exact ⟨_, Nat.le_refl _, (Option.some.inj h).symm, habove⟩
  · next hbelow _ => exact ⟨_, Nat.le_succ _, (Option.some.inj h).symm, hbelow⟩
  · next _ habove => exact ⟨_, Nat.le_refl _, (Option.some.inj h).symm, habove⟩
  · cases h

theorem not_contains_of_onGrid? (h : onGrid? i p = none) :
    (i.scale p).contains ((i.scale p).value / (i.scale p).den * (i.scale p).den) = false
      ∧ (i.scale p).contains (((i.scale p).value / (i.scale p).den + 1) * (i.scale p).den)
        = false := by
  simp only [onGrid?] at h
  split at h
  · split at h <;> cases h
  · cases h
  · cases h
  · next hbelow habove => exact ⟨hbelow, habove⟩

/-- A search that comes to a grid with a point ends with a point of that grid or of a coarser
one. -/
theorem exists_onGrid?_of_search {leading : Int} {fuel k j : Nat} (hj : j < fuel)
    (hfound : onGrid? i ((k + j : Nat) - leading) ≠ none) :
    ∃ k' ≤ k + j, onGrid? i ((k' : Nat) - leading) = some (search i leading fuel k) := by
  induction fuel generalizing k j with
  | zero => exact absurd hj (Nat.not_lt_zero _)
  | succ fuel ih =>
    rw [search]
    split
    · next d hd => exact ⟨k, Nat.le_add_right _ _, hd⟩
    · next hnone =>
      cases j with
      | zero => exact absurd hnone hfound
      | succ j =>
        have hnext : k + 1 + j = k + (j + 1) := by omega
        rw [← hnext] at hfound ⊢
        exact ih (Nat.lt_of_succ_lt_succ hj) hfound

end Search

section Shortest

variable {x : Float} {m : Nat} {e : Int} {hp : 0 < m}
  (h : x.toModel.unpack = .finite .positive m e hp)

/-- The exponent of the first digit of a positive number. -/
def leadingOf (x : Float) : Int :=
  leadingExponent (RoundingInterval.ofFloat x).value (RoundingInterval.ofFloat x).den

include h

theorem leadingOf_spec :
    (10 : Rat) ^ leadingOf x ≤ m * 2 ^ e ∧ (m * 2 ^ e : Rat) < 10 ^ (leadingOf x + 1) := by
  have hinterval := RoundingInterval.describes_ofFloat h
  have hvalue := hinterval.value
  rw [mul_one] at hvalue
  have hpos : 0 < (RoundingInterval.ofFloat x).value := by
    refine Nat.pos_of_ne_zero fun hzero => ?_
    have hm : (0 : Rat) < m * 2 ^ e := mul_pos (by exact_mod_cast hp) (zpow_pos two_pos e)
    rw [← hvalue, hzero, Nat.cast_zero, zero_div] at hm
    exact lt_irrefl _ hm
  rw [← hvalue]
  exact leadingExponent_spec hpos hinterval.den

/-- A multiple of a power of ten belongs to the scaled interval if it rounds to the number. -/
theorem contains_scale_iff (p : Int) (n : Nat) :
    ((RoundingInterval.ofFloat x).scale p).contains
      (n * ((RoundingInterval.ofFloat x).scale p).den) = true ↔ RoundsTo (n * 10 ^ (-p)) m e := by
  have hscaled := (RoundingInterval.describes_ofFloat h).scale p
  have hden : ((RoundingInterval.ofFloat x).scale p).den ≠ (0 : Rat) := by
    exact_mod_cast hscaled.den.ne'
  rw [hscaled.contains_iff, Nat.cast_mul, mul_div_cancel_right₀ _ hden, div_eq_mul_inv, ← zpow_neg]

/-- The multiples of a power of ten around the number. -/
theorem scale_floor_spec (p : Int) :
    let c := ((RoundingInterval.ofFloat x).scale p).value
      / ((RoundingInterval.ofFloat x).scale p).den
    (c : Rat) ≤ m * 2 ^ e * 10 ^ p ∧ (m * 2 ^ e * 10 ^ p : Rat) < c + 1 := by
  have hscaled := (RoundingInterval.describes_ofFloat h).scale p
  have hden : (0 : Rat) < ((RoundingInterval.ofFloat x).scale p).den := by
    exact_mod_cast hscaled.den
  intro c
  rw [← hscaled.value, le_div_iff₀ hden, div_lt_iff₀ hden]
  constructor
  · exact_mod_cast Nat.div_mul_le_self _ _
  · rw [mul_comm]
    exact_mod_cast Nat.lt_mul_div_succ _ hscaled.den

/-- If any multiple of a power of ten rounds to the number, one of those around it does. -/
theorem onGrid?_ne_none_of_roundsTo {p : Int} {n : Nat} (hn : RoundsTo (n * 10 ^ (-p)) m e) :
    onGrid? (.ofFloat x) p ≠ none := by
  intro hnone
  obtain ⟨hbelow, habove⟩ := not_contains_of_onGrid? hnone
  rw [← Bool.not_eq_true, contains_scale_iff h] at hbelow habove
  obtain ⟨hfloor, hceil⟩ := scale_floor_spec h p
  generalize ((RoundingInterval.ofFloat x).scale p).value
    / ((RoundingInterval.ofFloat x).scale p).den = c at hbelow habove hfloor hceil
  have hscale : (0 : Rat) < 10 ^ (-p) := zpow_pos (by norm_num) _
  have hback : (m * 2 ^ e : Rat) = m * 2 ^ e * 10 ^ p * 10 ^ (-p) := by
    rw [mul_assoc, ← zpow_add₀ (by norm_num), add_neg_cancel, zpow_zero, mul_one]
  rcases Nat.lt_or_ge c n with hlt | hle
  · refine habove ((roundsTo_self m e).between hn ?_ ?_)
    · rw [hback]
      push_cast
      exact mul_le_mul_of_nonneg_right hceil.le hscale.le
    · exact mul_le_mul_of_nonneg_right (by exact_mod_cast hlt) hscale.le
  · refine hbelow (hn.between (roundsTo_self m e) ?_ ?_)
    · exact mul_le_mul_of_nonneg_right (by exact_mod_cast hle) hscale.le
    · rw [hback]
      exact mul_le_mul_of_nonneg_right hfloor hscale.le

/-- With seventeen digits the neighbours on the grid cannot both lie outside of the interval. -/
theorem onGrid?_ne_none : onGrid? (.ofFloat x) ((16 : Nat) - leadingOf x) ≠ none := by
  intro hnone
  have hlarge : (10 : Rat) ^ 16 ≤ m * 2 ^ e * 10 ^ (((16 : Nat) : Int) - leadingOf x) := by
    have hpow : (0 : Rat) < 10 ^ (((16 : Nat) : Int) - leadingOf x) := zpow_pos (by norm_num) _
    calc (10 : Rat) ^ 16 = 10 ^ leadingOf x * 10 ^ (((16 : Nat) : Int) - leadingOf x) := by
          rw [← zpow_add₀ (by norm_num), add_sub_cancel, zpow_natCast]
      _ ≤ _ := mul_le_mul_of_nonneg_right (leadingOf_spec h).1 hpow.le
  obtain ⟨hbelow, habove⟩ := not_contains_of_onGrid? hnone
  rcases ((RoundingInterval.describes_ofFloat h).scale _).contains_neighbour
    (mantissa_lt (form_of_unpack h).1 hp) hlarge with hin | hin
  · exact Bool.false_ne_true (hbelow.symm.trans hin)
  · exact Bool.false_ne_true (habove.symm.trans hin)

/-- The search ends on the grid of some count of digits if that one has a point in the interval. -/
theorem exists_shortest {j : Nat} (hj : j < 17)
    (hfound : onGrid? (.ofFloat x) ((j : Nat) - leadingOf x) ≠ none) :
    ∃ k ≤ j, ∃ n : Nat, 0 < n ∧ n ≤ 10 ^ (k + 1) ∧ shortest x = ofScaled n ((k : Nat) - leadingOf x)
      ∧ RoundsTo (n * 10 ^ (-((k : Nat) - leadingOf x))) m e := by
  have hfound' : onGrid? (.ofFloat x) ((0 + j : Nat) - leadingOf x) ≠ none := by
    rwa [Nat.zero_add]
  obtain ⟨k, hk, hgrid⟩ := exists_onGrid?_of_search hj hfound'
  obtain ⟨n, hle, hn, hcontains⟩ := exists_of_onGrid? hgrid
  have hrounds := (contains_scale_iff h _ n).mp hcontains
  have hpos : 0 < n := by
    refine Nat.pos_of_ne_zero fun hzero => ?_
    have hpos := hrounds.pos hp
    rw [hzero, Nat.cast_zero, zero_mul] at hpos
    exact lt_irrefl _ hpos
  refine ⟨k, by omega, n, hpos, hle.trans (Nat.succ_le_of_lt ?_), hn, hrounds⟩
  have hpow : (0 : Rat) < 10 ^ (((k : Nat) : Int) - leadingOf x) := zpow_pos (by norm_num) _
  have hlt := (scale_floor_spec h ((k : Nat) - leadingOf x)).1.trans_lt
    (mul_lt_mul_of_pos_right (leadingOf_spec h).2 hpow)
  have hexp : leadingOf x + 1 + ((k : Nat) - leadingOf x) = ((k + 1 : Nat) : Int) := by omega
  rw [← zpow_add₀ (by norm_num), hexp, zpow_natCast] at hlt
  exact_mod_cast hlt

/-- The shortest digits round to the number and have no zeros at their end. -/
theorem shortest_spec : RoundsTo (shortest x).toRat m e ∧ (shortest x).digits % 10 ≠ 0 := by
  have hlast : 16 < 17 := by decide
  obtain ⟨k, -, n, hpos, -, hshortest, hrounds⟩ := exists_shortest h hlast (onGrid?_ne_none h)
  rw [hshortest, toRat_ofScaled hpos]
  exact ⟨hrounds, digits_ofScaled hpos _⟩

/-- If a decimal rounds to the number, so does a multiple on every grid with as many digits. -/
theorem onGrid?_ne_none_of_digitCount_le {n j : Nat} {p : Int} (hn : RoundsTo (n * 10 ^ p) m e)
    (hj : digitCount n ≤ j + 1) : onGrid? (.ofFloat x) ((j : Nat) - leadingOf x) ≠ none := by
  rcases Int.lt_or_le (digitCount n - 1 + p) (leadingOf x) with hbelow | habove
  · -- a decimal with a smaller leading power: that power lies between it and the number
    have hlt : (n * 10 ^ p : Rat) < 10 ^ leadingOf x :=
      (lt_ten_zpow p n).trans_le (zpow_le_zpow_right₀ (by norm_num) (by omega))
    have hpower := hn.between (roundsTo_self m e) hlt.le (leadingOf_spec h).1
    have hexp : leadingOf x = (j : Int) + -((j : Nat) - leadingOf x) := by omega
    rw [hexp, zpow_add₀ (by norm_num), zpow_natCast] at hpower
    exact onGrid?_ne_none_of_roundsTo h (n := 10 ^ j) (by exact_mod_cast hpower)
  · -- otherwise it is a multiple itself
    have hcast : (((p + (j - leadingOf x)).toNat : Nat) : Int) = p + (j - leadingOf x) :=
      Int.toNat_of_nonneg (by omega)
    generalize (p + (j - leadingOf x)).toNat = t at hcast
    have hexp : p = (t : Int) + -((j : Nat) - leadingOf x) := by omega
    rw [hexp, zpow_add₀ (by norm_num), zpow_natCast, ← mul_assoc] at hn
    exact onGrid?_ne_none_of_roundsTo h (n := n * 10 ^ t) (by exact_mod_cast hn)

/-- No decimal with fewer digits rounds to the number. -/
theorem digitCount_shortest_le {n : Nat} {p : Int} (hn : RoundsTo (n * 10 ^ p) m e) :
    digitCount (shortest x).digits ≤ digitCount n := by
  have hcount := digitCount_pos n
  obtain ⟨j, hj, hle, hfound⟩ : ∃ j < 17, j + 1 ≤ digitCount n
      ∧ onGrid? (.ofFloat x) ((j : Nat) - leadingOf x) ≠ none := by
    rcases Nat.lt_or_ge (digitCount n) 17 with hfew | hmany
    · exact ⟨digitCount n - 1, by omega, by omega,
        onGrid?_ne_none_of_digitCount_le h hn (by omega)⟩
    · exact ⟨16, by decide, hmany, onGrid?_ne_none h⟩
  obtain ⟨k, hk, n', hpos, hbound, hshortest, -⟩ := exists_shortest h hj hfound
  rw [hshortest]
  exact (digitCount_ofScaled_le hpos hbound _).trans (by omega)

end Shortest
end Decimal
end ScriptEngine
