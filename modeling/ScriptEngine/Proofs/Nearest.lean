import Mathlib
import ScriptEngine.Proofs.IntegerPart

/-!
# The number nearest to a rational

Every positive number stands for an interval of rationals, those that are nearer to it than to its
neighbours. A product or a quotient of two numbers is rounded to the number in whose interval the
exact result lies. The exact result is never known to the rounding, which sees the bits of a
mantissa and whether what is cut off lies below, at or above one half.

## Main definitions

* `Number.Locates`: what a mantissa and the accuracy of it say about a value.
* `Number.IsNearest`: the integer that a value is rounded to.
* `Number.RoundsTo`: the interval of a mantissa and an exponent.
* `Number.RoundsToFloat`: the interval of a positive finite number.

## Main results

* `Number.roundWithAccuracy_eq`: what is located in the interval of a number is rounded to it.
* `Number.mul_eq_finite`, `Number.div_eq_finite`: products and quotients.
-/

namespace ScriptEngine.Number

open Float.Model Float.Model.UnpackedFloat

/-! ### Mantissas and what is cut off -/

/-- Whether a value lies at a mantissa, or above it as the accuracy tells. -/
def Locates (m : Nat) (q : Rat) : Accuracy → Prop
  | .exact => q = m
  | .inexact .lt => m < q ∧ q < m + 1 / 2
  | .inexact .eq => q = m + 1 / 2
  | .inexact .gt => m + 1 / 2 < q ∧ q < m + 1

section Locates

variable {m : Nat} {a : Accuracy} {q : Rat}

theorem Locates.le (h : Locates m q a) : (m : Rat) ≤ q := by
  match a, h with
  | .exact, h => exact h.ge
  | .inexact .lt, h => exact h.1.le
  | .inexact .eq, h =>
    have h : q = m + 1 / 2 := h
    linarith
  | .inexact .gt, h =>
    have h := h.1
    linarith

theorem Locates.lt (h : Locates m q a) : q < m + 1 := by
  match a, h with
  | .exact, h =>
    have h : q = m := h
    linarith
  | .inexact .lt, h =>
    have h := h.2
    linarith
  | .inexact .eq, h =>
    have h : q = m + 1 / 2 := h
    linarith
  | .inexact .gt, h => exact h.2

/-- Halving a value moves the last bit of the mantissa to the bits that are cut off. -/
theorem Locates.shiftRightOne {em : ExtendedMantissa} (h : Locates em.mantissa q em.accuracy) :
    Locates em.shiftRightOne.mantissa (q / 2) em.shiftRightOne.accuracy := by
  obtain ⟨m, r, s⟩ := em
  obtain ⟨k, rfl | rfl⟩ := Nat.even_or_odd' m
  · have hhalf : 2 * k / 2 = k := by omega
    have hbit : (2 * k % 2 != 0) = false := by simp
    cases r <;> cases s <;>
      simp only [Locates, ExtendedMantissa.accuracy, ExtendedMantissa.shiftRightOne, hhalf, hbit,
        Bool.or_self, Bool.or_true, Bool.or_false, Nat.cast_mul, Nat.cast_ofNat] at h ⊢ <;>
      first | linarith | exact ⟨by linarith, by linarith⟩
  · have hhalf : (2 * k + 1) / 2 = k := by omega
    have hbit : ((2 * k + 1) % 2 != 0) = true := by
      rw [bne_iff_ne]
      omega
    cases r <;> cases s <;>
      simp only [Locates, ExtendedMantissa.accuracy, ExtendedMantissa.shiftRightOne, hhalf, hbit,
        Bool.or_self, Bool.or_true, Bool.or_false, Nat.cast_mul, Nat.cast_ofNat, Nat.cast_add,
        Nat.cast_one] at h ⊢ <;>
      first | linarith | exact ⟨by linarith, by linarith⟩

theorem Locates.shiftRight {em : ExtendedMantissa} (h : Locates em.mantissa q em.accuracy)
    (k : Nat) : Locates (em >>> k).mantissa (q / 2 ^ k) (em >>> k).accuracy := by
  change Locates (k.repeat ExtendedMantissa.shiftRightOne em).mantissa _
    (k.repeat ExtendedMantissa.shiftRightOne em).accuracy
  induction k with
  | zero => rwa [pow_zero, div_one]
  | succ k ih =>
    rw [pow_succ, ← div_div]
    exact ih.shiftRightOne

theorem Locates.ofMantissaAndAccuracy (h : Locates m q a) :
    Locates (ExtendedMantissa.ofMantissaAndAccuracy m a).mantissa q
      (ExtendedMantissa.ofMantissaAndAccuracy m a).accuracy := by
  match a with
  | .exact | .inexact .lt | .inexact .eq | .inexact .gt => exact h

/-- A quotient of integers is located by the integral quotient and the remainder. -/
theorem locates_div (n : Nat) {d : Nat} (hd : 0 < d) :
    Locates (n / d) ((n : Rat) / d) (accuracyOfFraction (n % d) d) := by
  have hd' : (0 : Rat) < d := by exact_mod_cast hd
  have hn : (n : Rat) = d * (n / d : Nat) + (n % d : Nat) := by
    exact_mod_cast (Nat.div_add_mod n d).symm
  have hq : (n : Rat) / d = (n / d : Nat) + (n % d : Nat) / d := by
    rw [hn, add_div, mul_div_cancel_left₀ _ hd'.ne']
  have hlt : ((n % d : Nat) : Rat) < d := by exact_mod_cast Nat.mod_lt n hd
  generalize n / d = m at hq
  generalize n % d = r at hq hlt
  rw [hq]
  unfold accuracyOfFraction
  split
  · next hr =>
    rw [hr, Nat.cast_zero, zero_div, add_zero]
    rfl
  · next hr =>
    have hpos : 0 < (r : Rat) / d := by
      have hr : (0 : Rat) < r := by exact_mod_cast Nat.pos_of_ne_zero hr
      positivity
    have hone : (r : Rat) / d < 1 := (div_lt_one hd').mpr hlt
    rcases Nat.lt_trichotomy (2 * r) d with h | h | h
    · have hhalf : (r : Rat) / d < 1 / 2 := by
        rw [div_lt_div_iff₀ hd' two_pos]
        have h : (2 : Rat) * r < d := by exact_mod_cast h
        linarith
      rw [Nat.compare_eq_lt.mpr h]
      exact ⟨by linarith, by linarith⟩
    · have hhalf : (r : Rat) / d = 1 / 2 := by
        rw [div_eq_div_iff hd'.ne' two_ne_zero]
        have h : (2 : Rat) * r = d := by exact_mod_cast h
        linarith
      rw [Nat.compare_eq_eq.mpr h, hhalf]
      rfl
    · have hhalf : 1 / 2 < (r : Rat) / d := by
        rw [div_lt_div_iff₀ two_pos hd']
        have h : (d : Rat) < 2 * r := by exact_mod_cast h
        linarith
      rw [Nat.compare_eq_gt.mpr h]
      exact ⟨by linarith, by linarith⟩

end Locates

/-- Whether an integer is nearest to a value; half way between two integers it is the even one. -/
structure IsNearest (n : Nat) (q : Rat) : Prop where
  ge : (n : Rat) - 1 / 2 ≤ q
  le : q ≤ n + 1 / 2
  strict : n % 2 = 1 → (n : Rat) - 1 / 2 < q ∧ q < n + 1 / 2

theorem Locates.roundToNearestEven {m n : Nat} {q : Rat} {a : Accuracy} (h : Locates m q a)
    (hn : IsNearest n q) : a.roundToNearestEven m = n := by
  have hlow := hn.ge
  have hhigh := hn.le
  match a, h with
  | .exact, h =>
    have h : q = m := h
    have h₁ : (m : Rat) < n + 1 := by linarith
    have h₂ : (n : Rat) < m + 1 := by linarith
    norm_cast at h₁ h₂
    change m = n
    omega
  | .inexact .lt, ⟨_, _⟩ =>
    have h₁ : (m : Rat) < n + 1 := by linarith
    have h₂ : (n : Rat) < m + 1 := by linarith
    norm_cast at h₁ h₂
    change m = n
    omega
  | .inexact .eq, h =>
    have h : q = m + 1 / 2 := h
    have h₁ : (m : Rat) ≤ n := by linarith
    have h₂ : (n : Rat) ≤ m + 1 := by linarith
    have heven : n % 2 = 0 := by
      refine (Nat.mod_two_eq_zero_or_one n).resolve_right fun hodd => ?_
      have hstrict := hn.strict hodd
      have h₁ : (m : Rat) < n := by linarith
      have h₂ : (n : Rat) < m + 1 := by linarith
      norm_cast at h₁ h₂
      omega
    norm_cast at h₁ h₂
    change m + m % 2 = n
    omega
  | .inexact .gt, ⟨_, _⟩ =>
    have h₁ : (m : Rat) < n := by linarith
    have h₂ : (n : Rat) < m + 2 := by linarith
    norm_cast at h₁ h₂
    change m + 1 = n
    omega

/-! ### Intervals of numbers -/

/-- How far the interval of a number reaches down, in units of the last place. The neighbour below a
power of two is twice as near. -/
def reachBelow (m : Nat) (e : Int) : Rat := if m = 2 ^ 52 ∧ -1074 < e then 1 / 4 else 1 / 2

/-- Whether a rational lies in the interval of the number `m * 2 ^ e`. The ends belong to the
interval of an even mantissa. -/
structure RoundsTo (v : Rat) (m : Nat) (e : Int) : Prop where
  ge : (m - reachBelow m e) * 2 ^ e ≤ v
  le : v ≤ (m + 1 / 2) * 2 ^ e
  strict : m % 2 = 1 → (m - reachBelow m e) * 2 ^ e < v ∧ v < (m + 1 / 2) * 2 ^ e

/-- Whether a rational lies in the interval of a positive finite number. -/
def RoundsToFloat (v : Rat) (x : Float) : Prop :=
  ∃ m e hp, x.toModel.unpack = .finite .positive m e hp ∧ RoundsTo v m e

theorem reachBelow_pos (m : Nat) (e : Int) : 0 < reachBelow m e := by
  unfold reachBelow
  split <;> norm_num

theorem reachBelow_le (m : Nat) (e : Int) : reachBelow m e ≤ 1 / 2 := by
  unfold reachBelow
  split <;> norm_num

section RoundsTo

variable {v : Rat} {m : Nat} {e : Int}

theorem RoundsTo.pos (h : RoundsTo v m e) (hm : 0 < m) : 0 < v := by
  have hone : (1 : Rat) ≤ m := by exact_mod_cast hm
  have hreach := reachBelow_le m e
  exact (mul_pos (by linarith) (zpow_pos two_pos e)).trans_le h.ge

/-- The interval of a number has no gaps. -/
theorem RoundsTo.between {a b : Rat} (ha : RoundsTo a m e) (hb : RoundsTo b m e) (hav : a ≤ v)
    (hvb : v ≤ b) : RoundsTo v m e :=
  ⟨ha.ge.trans hav, hvb.trans hb.le, fun hodd =>
    ⟨(ha.strict hodd).1.trans_le hav, hvb.trans_lt (hb.strict hodd).2⟩⟩

theorem roundsTo_self (m : Nat) (e : Int) : RoundsTo (m * 2 ^ e) m e := by
  have hpos : (0 : Rat) < 2 ^ e := zpow_pos two_pos e
  have hreach := reachBelow_pos m e
  have hlow : (m - reachBelow m e) * 2 ^ e < m * 2 ^ e :=
    mul_lt_mul_of_pos_right (by linarith) hpos
  have hhigh : (m : Rat) * 2 ^ e < (m + 1 / 2) * 2 ^ e :=
    mul_lt_mul_of_pos_right (by linarith) hpos
  exact ⟨hlow.le, hhigh.le, fun _ => ⟨hlow, hhigh⟩⟩

/-- In units of the last place a value is rounded to the mantissa. -/
theorem RoundsTo.isNearest (h : RoundsTo v m e) : IsNearest m (v / 2 ^ e) := by
  have hpos : (0 : Rat) < 2 ^ e := zpow_pos two_pos e
  have hreach := reachBelow_le m e
  have hge := (le_div_iff₀ hpos).mpr h.ge
  refine ⟨by linarith, (div_le_iff₀ hpos).mpr h.le, fun hodd => ?_⟩
  obtain ⟨hlow, hhigh⟩ := h.strict hodd
  have hlow := (lt_div_iff₀ hpos).mpr hlow
  exact ⟨by linarith, (div_lt_iff₀ hpos).mpr hhigh⟩

end RoundsTo

/-! ### Rounding -/

/-- The exponent that the rounding moves a mantissa to. -/
theorem targetExponent_eq (m : Nat) (e : Int) :
    Format.binary64.targetExponent (totalExponent m e) = max (m.log2 + e - 52) (-1074) := by
  simp only [Format.targetExponent, totalExponent, Format.mantissaBits, Format.minExponent]
  omega

/-- The form of a double needs no rounding. -/
theorem shiftToTargetExponent_canonical {m : Nat} {e : Int} (hc : Canonical m e) :
    shiftToTargetExponent .binary64 m e .exact = (⟨m, false, false⟩, e) := by
  have hshift : (max ((m.log2 : Int) + e - 52) (-1074) - e).toNat = 0 := by
    rcases hc with ⟨hm, he, -⟩ | ⟨hm, rfl⟩ <;> omega
  rw [shiftToTargetExponent, targetExponent_eq, shiftToExponent, hshift]
  exact Prod.ext rfl (Int.add_zero e)

section Round

variable {m : Nat} {e : Int} {a : Accuracy} {q : Rat}

/-- Rounding moves a mantissa, rounds it, and moves the result once more. -/
theorem roundWithAccuracy_of_rounded {em : ExtendedMantissa} {t k : Int} {r n : Nat} (hn : 0 < n)
    (hshift : shiftToTargetExponent .binary64 m e a = (em, t)) (hround : em.roundedMantissa = r)
    (hagain : shiftToTargetExponent .binary64 r t .exact = (⟨n, false, false⟩, k)) (s : Sign) :
    roundWithAccuracy .binary64 s m e a = .finite s n k hn := by
  simp only [roundWithAccuracy, hshift, hround, hagain, Nat.pos_iff_ne_zero.mp hn, ↓reduceDIte]

/-- A mantissa with enough bits is moved to an exponent that is not below its own, with what is cut
off located. -/
theorem shiftToTargetExponent_locates (h : Locates m q a) (hm : 52 ≤ m.log2 ∨ e ≤ -1074) :
    ∃ em, shiftToTargetExponent .binary64 m e a = (em, max (m.log2 + e - 52) (-1074))
      ∧ Locates em.mantissa (q * 2 ^ e / 2 ^ max (m.log2 + e - 52 : Int) (-1074)) em.accuracy := by
  rw [shiftToTargetExponent, targetExponent_eq, shiftToExponent]
  generalize ht : max ((m.log2 : Int) + e - 52) (-1074) = t
  have hshift : e + ((t - e).toNat : Int) = t := by omega
  rw [hshift]
  refine ⟨_, rfl, ?_⟩
  have hq : q * 2 ^ e / 2 ^ t = q / 2 ^ (t - e).toNat := by
    rw [← zpow_natCast, ← hshift, zpow_add₀ two_ne_zero, ← div_div, hshift,
      mul_div_cancel_right₀ _ (zpow_ne_zero e two_ne_zero)]
  rw [hq]
  exact h.ofMantissaAndAccuracy.shiftRight _

/-- A mantissa that is located has as many bits as the value. -/
theorem Locates.lt_two_zpow (h : Locates m q a) (e : Int) : q * 2 ^ e < 2 ^ (m.log2 + e + 1) := by
  have hlt : m + 1 ≤ 2 ^ (m.log2 + 1) := Nat.lt_log2_self
  have hlt : ((m : Rat) + 1) ≤ 2 ^ (m.log2 + 1 : Int) := by exact_mod_cast hlt
  have hexp : (m.log2 : Int) + e + 1 = (m.log2 + 1) + e := by ring
  rw [hexp, zpow_add₀ two_ne_zero]
  exact mul_lt_mul_of_pos_right (h.lt.trans_le hlt) (zpow_pos two_pos e)

theorem Locates.two_zpow_le (h : Locates m q a) (hm : m ≠ 0) (e : Int) :
    2 ^ (m.log2 + e) ≤ q * 2 ^ e := by
  have hle : ((2 : Rat) ^ (m.log2 : Int)) ≤ m := by exact_mod_cast Nat.log2_self_le hm
  rw [zpow_add₀ two_ne_zero]
  exact mul_le_mul_of_nonneg_right (hle.trans h.le) (zpow_pos two_pos e).le

variable {n : Nat} {k : Int} (hn : 0 < n) (hc : Canonical n k) (h : Locates m q a)
  (hm : 52 ≤ m.log2 ∨ e ≤ -1074) (hv : RoundsTo (q * 2 ^ e) n k)

include hn hc h hm hv

/-- A mantissa is not moved above the exponent of the number in whose interval the value lies. -/
theorem RoundsTo.target_le : max (m.log2 + e - 52 : Int) (-1074) ≤ k := by
  have hk : -1074 ≤ k := by
    rcases hc with ⟨-, hk, -⟩ | ⟨-, rfl⟩ <;> omega
  rcases eq_or_ne m 0 with rfl | hm0
  · have hlog : Nat.log2 0 = 0 := rfl
    rw [hlog] at hm ⊢
    omega
  · have hn53 : n + 1 ≤ 2 ^ 53 := mantissa_lt hc hn
    have hn53 : (n : Rat) + 1 ≤ 2 ^ (53 : Int) := by exact_mod_cast hn53
    have hlt : (2 : Rat) ^ (m.log2 + e : Int) < 2 ^ (53 + k) := by
      refine (h.two_zpow_le hm0 e).trans_lt (hv.le.trans_lt ?_)
      rw [zpow_add₀ two_ne_zero]
      exact mul_lt_mul_of_pos_right (by linarith) (zpow_pos two_pos k)
    have hlog := (zpow_lt_zpow_iff_right₀ one_lt_two).mp hlt
    omega

/-- It is moved to that exponent, or to the one below if the value is rounded up to a power of
two. -/
theorem RoundsTo.target_cases : max (m.log2 + e - 52 : Int) (-1074) = k
    ∨ n = 2 ^ 52 ∧ -1074 < k ∧ max (m.log2 + e - 52 : Int) (-1074) = k - 1 := by
  have hle := hv.target_le hn hc h hm
  rcases hc with ⟨hlog, hk, -⟩ | ⟨-, rfl⟩
  · have hlow : 2 ^ 52 ≤ n := hlog ▸ Nat.log2_self_le (Nat.pos_iff_ne_zero.mp hn)
    have hscale : (0 : Rat) < 2 ^ k := zpow_pos two_pos k
    have hvalue : (n - reachBelow n k) * 2 ^ k < 2 ^ (m.log2 + e + 1 : Int) :=
      hv.ge.trans_lt (h.lt_two_zpow e)
    rcases Nat.eq_or_lt_of_le hlow with rfl | hlow
    · have hlt : (2 : Rat) ^ (51 + k) < 2 ^ (m.log2 + e + 1 : Int) := by
        refine lt_trans ?_ hvalue
        rw [zpow_add₀ two_ne_zero]
        refine mul_lt_mul_of_pos_right ?_ hscale
        have hreach := reachBelow_le (2 ^ 52) k
        norm_num at hreach ⊢
        linarith
      have hexp := (zpow_lt_zpow_iff_right₀ one_lt_two).mp hlt
      omega
    · have hlt : (2 : Rat) ^ (52 + k) < 2 ^ (m.log2 + e + 1 : Int) := by
        refine lt_trans ?_ hvalue
        rw [zpow_add₀ two_ne_zero]
        refine mul_lt_mul_of_pos_right ?_ hscale
        have hreach := reachBelow_le n k
        have hlow : (2 : Rat) ^ 52 + 1 ≤ n := by exact_mod_cast hlow
        have hpow : (2 : Rat) ^ (52 : Int) = 2 ^ 52 := by norm_num
        linarith
      have hexp := (zpow_lt_zpow_iff_right₀ one_lt_two).mp hlt
      omega
  · omega

/-- What is located in the interval of a number is rounded to the number. -/
theorem roundWithAccuracy_eq (s : Sign) :
    roundWithAccuracy .binary64 s m e a = .finite s n k hn := by
  obtain ⟨em, hshift, hem⟩ := shiftToTargetExponent_locates h hm
  rcases hv.target_cases hn hc h hm with ht | ⟨rfl, hk, ht⟩
  · rw [ht] at hshift hem
    exact roundWithAccuracy_of_rounded hn hshift (hem.roundToNearestEven hv.isNearest)
      (shiftToTargetExponent_canonical hc) s
  · have hlt := h.lt_two_zpow e
    rw [ht] at hshift hem
    have hnearest : IsNearest (2 ^ 52 * 2 ^ 1) (q * 2 ^ e / 2 ^ (k - 1)) := by
      have hscale : (0 : Rat) < 2 ^ (k - 1) := zpow_pos two_pos _
      refine ⟨(le_div_iff₀ hscale).mpr ?_, (div_le_iff₀ hscale).mpr ?_, fun hodd => ?_⟩
      · have hge := hv.ge
        have hdouble : (2 : Rat) ^ k = 2 * 2 ^ (k - 1) := by
          rw [← zpow_one_add₀ two_ne_zero, add_sub_cancel]
        rw [reachBelow, if_pos ⟨rfl, hk⟩, hdouble] at hge
        push_cast at hge ⊢
        linarith
      · have hpow : (2 : Rat) ^ (m.log2 + e + 1 : Int) ≤ 2 ^ (53 + (k - 1)) :=
          zpow_le_zpow_right₀ one_le_two (by omega)
        rw [zpow_add₀ two_ne_zero 53] at hpow
        refine hlt.le.trans (hpow.trans (mul_le_mul_of_nonneg_right ?_ hscale.le))
        norm_num
      · norm_num at hodd
    have hagain := shiftToTargetExponent_exact (Nat.log2_two_pow (n := 52)) hn hk.le 1
    exact roundWithAccuracy_of_rounded hn hshift (hem.roundToNearestEven hnearest) hagain s

end Round

/-! ### Products and quotients -/

/-- A quotient has enough bits if the dividend was shifted so far. -/
theorem log2_divCore {m₁ m₂ shift : Nat} (h₁ : 0 < m₁) (h₂ : 0 < m₂)
    (hshift : m₂.log2 + 53 ≤ m₁.log2 + shift) : 52 ≤ ((m₁ <<< shift) / m₂).log2 := by
  have hnum : 2 ^ m₁.log2 ≤ m₁ := Nat.log2_self_le (Nat.pos_iff_ne_zero.mp h₁)
  have hden : m₂ ≤ 2 ^ (m₂.log2 + 1) := Nat.le_of_lt Nat.lt_log2_self
  have hquotient : 2 ^ 52 ≤ (m₁ <<< shift) / m₂ := by
    rw [Nat.le_div_iff_mul_le h₂, Nat.shiftLeft_eq]
    calc 2 ^ 52 * m₂ ≤ 2 ^ 52 * 2 ^ (m₂.log2 + 1) := Nat.mul_le_mul_left _ hden
      _ = 2 ^ (m₂.log2 + 53) := by rw [← Nat.pow_add]; congr 1; omega
      _ ≤ 2 ^ (m₁.log2 + shift) := Nat.pow_le_pow_right two_pos hshift
      _ = 2 ^ m₁.log2 * 2 ^ shift := Nat.pow_add _ _ _
      _ ≤ m₁ * 2 ^ shift := Nat.mul_le_mul_right _ hnum
  have hpos : (m₁ <<< shift) / m₂ ≠ 0 := fun hzero => by rw [hzero] at hquotient; cases hquotient
  exact (Nat.le_log2 hpos).mpr hquotient

section Operation

variable {m₁ m₂ n : Nat} {e₁ e₂ k : Int} (h₁ : 0 < m₁) (h₂ : 0 < m₂) (hn : 0 < n)
  (hc : Canonical n k)

include hc

/-- A product with enough bits is rounded to the number in whose interval it lies. -/
theorem mul_eq_finite (hbits : 52 ≤ (m₁ * m₂).log2)
    (hv : RoundsTo (m₁ * 2 ^ e₁ * (m₂ * 2 ^ e₂)) n k) :
    UnpackedFloat.mul .binary64 (.finite .positive m₁ e₁ h₁) (.finite .positive m₂ e₂ h₂)
      = .finite .positive n k hn := by
  have hproduct : (m₁ * 2 ^ e₁ * (m₂ * 2 ^ e₂) : Rat) = (m₁ * m₂ : Nat) * 2 ^ (e₁ + e₂) := by
    rw [zpow_add₀ two_ne_zero, Nat.cast_mul]
    ring
  rw [hproduct] at hv
  have hexact : Locates (m₁ * m₂) ((m₁ * m₂ : Nat) : Rat) .exact := rfl
  exact roundWithAccuracy_eq hn hc hexact (.inl hbits) hv .positive

/-- A quotient is rounded to the number in whose interval it lies. -/
theorem div_eq_finite (hv : RoundsTo (m₁ * 2 ^ e₁ / (m₂ * 2 ^ e₂)) n k) :
    UnpackedFloat.div .binary64 (.finite .positive m₁ e₁ h₁) (.finite .positive m₂ e₂ h₂)
      = .finite .positive n k hn := by
  have htotal : totalExponent m₁ e₁ - totalExponent m₂ e₂
      = (m₁.log2 : Int) - m₂.log2 + (e₁ - e₂) := by
    unfold totalExponent
    ring
  have htarget : Format.binary64.targetExponent (totalExponent m₁ e₁ - totalExponent m₂ e₂)
      = max ((m₁.log2 : Int) - m₂.log2 + (e₁ - e₂) - 53) (-1074) := by
    rw [htotal]
    simp only [Format.targetExponent, Format.mantissaBits, Format.minExponent]
    omega
  generalize ht : min (e₁ - e₂) (max ((m₁.log2 : Int) - m₂.log2 + (e₁ - e₂) - 53) (-1074)) = t
  have hdiv : UnpackedFloat.div .binary64 (.finite .positive m₁ e₁ h₁)
      (.finite .positive m₂ e₂ h₂)
      = roundWithAccuracy .binary64 .positive ((m₁ <<< (e₁ - e₂ - t).toNat) / m₂) t
        (accuracyOfFraction ((m₁ <<< (e₁ - e₂ - t).toNat) % m₂) m₂) := by
    simp only [UnpackedFloat.div, divCore, htarget, ht]
    rfl
  have hbits : 52 ≤ ((m₁ <<< (e₁ - e₂ - t).toNat) / m₂).log2 ∨ t ≤ -1074 := by
    rcases Int.lt_or_le (-1074) t with hlt | hle
    · exact .inl (log2_divCore h₁ h₂ (by omega))
    · exact .inr hle
  have hvalue : (m₁ * 2 ^ e₁ / (m₂ * 2 ^ e₂) : Rat)
      = (m₁ <<< (e₁ - e₂ - t).toNat : Nat) / m₂ * 2 ^ t := by
    have hshift : (((e₁ - e₂ - t).toNat : Nat) : Int) = e₁ - e₂ - t := by omega
    have hpow : (2 : Rat) ^ e₁ = 2 ^ (e₁ - e₂ - t) * 2 ^ t * 2 ^ e₂ := by
      rw [← zpow_add₀ two_ne_zero, ← zpow_add₀ two_ne_zero]
      congr 1
      ring
    rw [Nat.shiftLeft_eq, Nat.cast_mul, Nat.cast_pow, Nat.cast_ofNat, ← zpow_natCast, hshift, hpow]
    have hne : (2 : Rat) ^ e₂ ≠ 0 := zpow_ne_zero _ two_ne_zero
    have hm₂ : (m₂ : Rat) ≠ 0 := by exact_mod_cast h₂.ne'
    field_simp
  rw [hdiv]
  rw [hvalue] at hv
  exact roundWithAccuracy_eq hn hc (locates_div _ h₂) hbits hv .positive

end Operation

end ScriptEngine.Number
