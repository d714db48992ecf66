import Mathlib
import ScriptEngine.Proofs.ExactValue
import ScriptEngine.Proofs.RadixDigits

/-!
# Numbers in a radix

In a radix that is a power of two every step of writing a number is exact: dividing an integer and
cutting off its fraction, and multiplying a fraction and taking away its integer part. The digits of
the integer part are all of them. Of the digits of the fraction at most 52 are written, so that the
text denotes the number if and only if no more are needed, as in every number that is not below one.

## Main definitions

* `Number.numeral?`: the rational that a text in a radix denotes.
* `Number.cutPlaces`: a rational without what comes after 52 places.

## Main results

* `Number.integerDigits_eq`: the digits of an integer.
* `Number.fractionDigits_eq`: the digits of a fraction.
* `Number.toRadixText_denotes`: what the text of a number denotes.
-/

namespace ScriptEngine.Number

/-! ### Numerals -/

/-- The rational that a text in a radix denotes: an optional sign, at least one digit, and the
digits of a fraction after a point. -/
def numeral? (radix : Nat) (cs : List Char) : Option Rat :=
  let (negative, cs) := splitSign cs
  let whole := cs.takeWhile (· ≠ '.')
  let fraction := (cs.dropWhile (· ≠ '.')).tail
  if whole.isEmpty then none
  else do
    let n ← digitsValue? radix whole
    let f ← digitsValue? radix fraction
    return (if negative then -1 else 1) * (n + f / radix ^ fraction.length)

/-- A rational without what comes after its first 52 places in a radix. -/
def cutPlaces (radix : Nat) (v : Rat) : Rat :=
  (if v < 0 then -1 else 1) * (⌊|v| * radix ^ 52⌋₊ / radix ^ 52)

section Numeral

variable {radix : Nat} {ds fs : List Nat}

theorem digitChar_ne {d : Nat} (hd : d < 36) :
    digitChar d ≠ '-' ∧ digitChar d ≠ '+' ∧ digitChar d ≠ '.' := by
  have h := ne_of_digitValue? (digitValue?_digitChar hd hd)
  exact ⟨h.1, h.2.1, h.2.2.1⟩

/-- What digits denote, with the digits of a fraction or without. -/
theorem numeral?_map_digitChar (h36 : radix ≤ 36) (hds : ∀ d ∈ ds, d < radix) (hne : ds ≠ [])
    (hfs : ∀ d ∈ fs, d < radix) {rest : List Char}
    (hrest : rest = '.' :: fs.map digitChar ∨ rest = [] ∧ fs = []) (negative : Bool) :
    numeral? radix ((if negative then ['-'] else []) ++ (ds.map digitChar ++ rest))
      = some ((if negative then -1 else 1 : Rat)
        * (horner radix ds + horner radix fs / radix ^ fs.length)) := by
  have hchars {c : Char} (hc : c ∈ ds.map digitChar) : c ≠ '-' ∧ c ≠ '+' ∧ c ≠ '.' := by
    obtain ⟨d, hd, rfl⟩ := List.mem_map.mp hc
    exact digitChar_ne ((hds d hd).trans_le h36)
  have hwhole : (ds.map digitChar ++ rest).takeWhile (· ≠ '.') = ds.map digitChar := by
    rw [List.takeWhile_append_of_pos fun c hc => decide_eq_true (hchars hc).2.2]
    rcases hrest with rfl | ⟨rfl, -⟩
    · exact List.append_nil _
    · exact List.append_nil _
  have hfraction : ((ds.map digitChar ++ rest).dropWhile (· ≠ '.')).tail = fs.map digitChar := by
    rw [List.dropWhile_append_of_pos fun c hc => decide_eq_true (hchars hc).2.2]
    rcases hrest with rfl | ⟨rfl, rfl⟩ <;> rfl
  have hsign : splitSign ((if negative then ['-'] else []) ++ (ds.map digitChar ++ rest))
      = (negative, ds.map digitChar ++ rest) := by
    cases negative with
    | true => rfl
    | false =>
      refine splitSign_eq_self fun c hc => ?_
      have hc : c ∈ ds.map digitChar := by
        rw [if_neg Bool.false_ne_true, List.nil_append,
          List.head?_append_of_ne_nil _ (mt List.map_eq_nil_iff.mp hne)] at hc
        exact List.mem_of_mem_head? hc
      exact ⟨(hchars hc).1, (hchars hc).2.1⟩
  unfold numeral?
  rw [hsign]
  simp only [hwhole, hfraction, digitsValue?_map_digitChar h36 hds,
    digitsValue?_map_digitChar h36 hfs, List.length_map]
  rw [if_neg (by simpa using hne)]
  rfl

end Numeral

/-! ### Digits -/

/-- The places of a number are those of its integer part and of its fraction. -/
theorem floor_mul_pow {v : Rat} (hv : 0 ≤ v) (radix n : Nat) :
    ⌊v * radix ^ n⌋₊ = ⌊(v - ⌊v⌋₊) * radix ^ n⌋₊ + ⌊v⌋₊ * radix ^ n := by
  have hfraction : 0 ≤ (v - ⌊v⌋₊) * radix ^ n :=
    mul_nonneg (sub_nonneg.mpr (Nat.floor_le hv)) (by positivity)
  rw [← Nat.floor_add_natCast hfraction]
  congr 1
  push_cast
  ring

section Digits

variable {radix k : Nat} (hradix : radix = 2 ^ k) (hk : 0 < k) (hk' : k ≤ 52) {x : Float}

include hradix hk hk'

theorem radix_bounds : 2 ≤ radix ∧ radix < 2 ^ 53 := by
  rw [hradix]
  exact ⟨Nat.pow_le_pow_right two_pos hk, Nat.pow_lt_pow_right Nat.one_lt_two (by omega)⟩

/-- The digits of an integer stand for it. -/
theorem integerDigits_eq {fuel n : Nat} (acc : List Char) (hx : HasValue x.toModel.unpack n)
    (hn : n < 2 ^ fuel) :
    ∃ ds, integerDigits radix fuel x acc = ds.map digitChar ++ acc ∧ (∀ d ∈ ds, d < radix)
      ∧ horner radix ds = n := by
  obtain ⟨hlow, hhigh⟩ := radix_bounds hradix hk hk'
  -- the last digit is written first; what is left is a number below half of the bound
  induction fuel generalizing n x acc with
  | zero =>
    obtain rfl : n = 0 := by omega
    exact ⟨[], rfl, List.forall_mem_nil _, rfl⟩
  | succ fuel ih =>
    rw [integerDigits]
    split
    · next hone =>
      have hone : (1 : Rat) ≤ n := (hasValue_one.le_iff hx).mp hone
      have hround := hx.rounds_div_two_pow hone hk'
      rw [← hradix] at hround
      have hquotient := (hx.div (by omega) hhigh hround).trunc
      rw [Nat.floor_div_natCast, Nat.floor_natCast] at hquotient
      have hlt : n / radix < 2 ^ fuel := by
        rw [Nat.div_lt_iff_lt_mul (by omega)]
        refine hn.trans_le ?_
        rw [Nat.pow_succ]
        exact Nat.mul_le_mul_left _ hlow
      obtain ⟨ds, hds, hdigits, hvalue⟩ := ih (digitChar (n % radix) :: acc) hquotient hlt
      refine ⟨ds ++ [n % radix], ?_, ?_, ?_⟩
      · rw [hx.magnitude_eq, Nat.floor_natCast]
        simp only [hds, List.map_append, List.map_cons, List.map_nil, List.append_assoc,
          List.singleton_append]
      · refine List.forall_mem_append.mpr ⟨hdigits, List.forall_mem_singleton.mpr ?_⟩
        exact Nat.mod_lt n (by omega)
      · rw [horner_concat, hvalue, Nat.div_add_mod']
    · next hone =>
      have hone : ¬1 ≤ n := fun h => hone ((hasValue_one.le_iff hx).mpr (by exact_mod_cast h))
      obtain rfl : n = 0 := by omega
      exact ⟨[], rfl, List.forall_mem_nil _, rfl⟩

/-- The digits of a fraction stand for it as far as they go. -/
theorem fractionDigits_eq {n : Nat} {v : Rat} (hx : HasValue x.toModel.unpack v) (hv : v < 1) :
    ∃ ds, fractionDigits radix n x = ds.map digitChar ∧ (∀ d ∈ ds, d < radix)
      ∧ (horner radix ds / radix ^ ds.length : Rat) = ⌊v * radix ^ n⌋₊ / radix ^ n := by
  obtain ⟨hlow, hhigh⟩ := radix_bounds hradix hk hk'
  have hpos : (0 : Rat) < radix := by exact_mod_cast two_pos.trans_le hlow
  have hnil : (horner radix [] / radix ^ ([] : List Nat).length : Rat) = 0 := by simp [horner]
  -- the rest after one digit is again a fraction, and its places are those of `v` but for the first
  induction n generalizing x v with
  | zero =>
    refine ⟨[], rfl, List.forall_mem_nil _, ?_⟩
    rw [hnil, pow_zero, mul_one, div_one, Nat.floor_eq_zero.mpr hv, Nat.cast_zero]
  | succ n ih =>
    rw [fractionDigits]
    split
    · have hlt : v * 2 ^ k < 2 ^ 1024 := by
        refine (mul_lt_of_lt_one_left (by positivity) hv).trans ?_
        exact pow_lt_pow_right₀ one_lt_two (by omega)
      have hround := hx.rounds_mul_two_pow hk' hlt
      rw [← hradix] at hround
      have hscaled := hx.mul (by omega) hhigh hround
      generalize x * Float.ofNat radix = y at hscaled
      have hnonneg := hscaled.nonneg
      have hwhole : ⌊v * radix⌋₊ < radix := by
        rw [Nat.floor_lt hnonneg]
        exact mul_lt_of_lt_one_left hpos hv
      have hrest := hscaled.sub hscaled.trunc (Nat.floor_le hnonneg) hscaled.rounds_fraction
      have hbelow : v * radix - ⌊v * radix⌋₊ < 1 :=
        sub_lt_iff_lt_add'.mpr (Nat.lt_floor_add_one _)
      have hdigit := hscaled.trunc.toNat_eq (hwhole.trans hhigh)
      obtain ⟨ds, hds, hdigits, hvalue⟩ := ih hrest hbelow
      rw [pow_succ' _ n, ← mul_assoc, floor_mul_pow hnonneg]
      generalize ⌊v * radix⌋₊ = w at *
      refine ⟨w :: ds, ?_, List.forall_mem_cons.mpr ⟨hwhole, hdigits⟩, ?_⟩
      · rw [List.map_cons, ← hds, ← hdigit]
      · rw [div_eq_div_iff (by positivity) (by positivity)] at hvalue ⊢
        rw [horner_cons, List.length_cons, pow_succ, Nat.cast_add, Nat.cast_add, Nat.cast_mul,
          Nat.cast_mul, Nat.cast_pow _ ds.length, Nat.cast_pow _ n]
        linear_combination radix * hvalue
    · next hzero =>
      rw [hasValue_zero.lt_iff hx, not_lt] at hzero
      refine ⟨[], rfl, List.forall_mem_nil _, ?_⟩
      rw [hnil, le_antisymm hzero hx.nonneg, zero_mul, Nat.floor_zero, Nat.cast_zero, zero_div]

/-- The digits of a number that is not negative stand for it without what comes after 52 places. -/
theorem radixMagnitude_eq {v : Rat} (hx : HasValue x.toModel.unpack v) :
    ∃ ds fs rest, radixMagnitude x radix = String.ofList (ds.map digitChar ++ rest)
      ∧ ds ≠ [] ∧ (∀ d ∈ ds, d < radix) ∧ (∀ d ∈ fs, d < radix)
      ∧ (rest = '.' :: fs.map digitChar ∨ rest = [] ∧ fs = [])
      ∧ (horner radix ds + horner radix fs / radix ^ fs.length : Rat)
        = ⌊v * radix ^ 52⌋₊ / radix ^ 52 := by
  obtain ⟨hlow, hhigh⟩ := radix_bounds hradix hk hk'
  have hpow : (0 : Rat) < radix ^ 52 := pow_pos (by exact_mod_cast two_pos.trans_le hlow) 52
  have hwhole := hx.trunc
  have hfraction := hx.sub hwhole (Nat.floor_le hx.nonneg) hx.rounds_fraction
  obtain ⟨ds, hds, hne, hdigits, hvalue⟩ : ∃ ds : List Nat,
      (if trunc x == 0.0 then ['0'] else integerDigits radix 1100 (trunc x) [])
        = ds.map digitChar ∧ ds ≠ [] ∧ (∀ d ∈ ds, d < radix) ∧ horner radix ds = ⌊v⌋₊ := by
    split
    · next hzero =>
      rw [hwhole.beq_iff hasValue_zero, Nat.cast_eq_zero] at hzero
      refine ⟨[0], rfl, List.cons_ne_nil _ _, List.forall_mem_singleton.mpr (by omega), ?_⟩
      rw [hzero, horner_cons, Nat.zero_mul]
      rfl
    · next hzero =>
      rw [hwhole.beq_iff hasValue_zero, Nat.cast_eq_zero] at hzero
      have hlt : ⌊v⌋₊ < 2 ^ 1100 := by
        rw [Nat.floor_lt hx.nonneg, Nat.cast_pow]
        exact hx.lt_two_pow.trans (pow_lt_pow_right₀ one_lt_two (by decide))
      obtain ⟨ds, hds, hdigits, hvalue⟩ := integerDigits_eq hradix hk hk' [] hwhole hlt
      refine ⟨ds, hds.trans (List.append_nil _), ?_, hdigits, hvalue⟩
      rintro rfl
      exact hzero hvalue.symm
  unfold radixMagnitude
  dsimp only
  rw [hds, floor_mul_pow hx.nonneg, Nat.cast_add, add_div, Nat.cast_mul, Nat.cast_pow,
    mul_div_cancel_right₀ _ hpow.ne', add_comm (_ / _)]
  split
  · obtain ⟨fs, hfs, hdigits', hvalue'⟩ := fractionDigits_eq hradix hk hk' (n := 52) hfraction
      (sub_lt_iff_lt_add'.mpr (Nat.lt_floor_add_one v))
    exact ⟨ds, fs, _, by rw [hfs], hne, hdigits, hdigits', .inl rfl, by rw [hvalue, hvalue']⟩
  · next hzero =>
    rw [hasValue_zero.lt_iff hfraction, not_lt] at hzero
    refine ⟨ds, [], [], by rw [List.append_nil], hne, hdigits, List.forall_mem_nil _,
      .inr ⟨rfl, rfl⟩, ?_⟩
    rw [hvalue, le_antisymm hzero hfraction.nonneg]
    simp [horner]

end Digits

/-! ### Texts -/

section Text

variable {radix : Nat} {v : Rat}

theorem cutPlaces_of_nonneg (hv : 0 ≤ v) : cutPlaces radix v = ⌊v * radix ^ 52⌋₊ / radix ^ 52 := by
  rw [cutPlaces, if_neg hv.not_gt, one_mul, abs_of_nonneg hv]

theorem cutPlaces_neg (v : Rat) : cutPlaces radix (-v) = -cutPlaces radix v := by
  rcases lt_trichotomy v 0 with hv | rfl | hv
  · rw [cutPlaces, cutPlaces, abs_neg, if_neg (by linarith), if_pos hv, neg_one_mul, neg_neg,
      one_mul]
  · simp [cutPlaces]
  · rw [cutPlaces, cutPlaces, abs_neg, if_pos (by linarith), if_neg hv.not_gt, neg_one_mul, one_mul]

/-- Nothing comes after 52 places in a multiple of the last one. -/
theorem cutPlaces_eq_iff (hradix : 0 < radix) :
    cutPlaces radix v = v ↔ ∃ z : Int, v * radix ^ 52 = z := by
  have hpow : (0 : Rat) < radix ^ 52 := pow_pos (by exact_mod_cast hradix) 52
  have hnonneg {v : Rat} (hv : 0 ≤ v) : cutPlaces radix v = v ↔ ∃ z : Int, v * radix ^ 52 = z := by
    rw [cutPlaces_of_nonneg hv, div_eq_iff hpow.ne']
    refine ⟨fun h => ⟨⌊v * radix ^ 52⌋₊, h.symm⟩, ?_⟩
    rintro ⟨z, hz⟩
    have hz0 : 0 ≤ z := by
      have hmul := mul_nonneg hv hpow.le
      rw [hz] at hmul
      exact_mod_cast hmul
    obtain ⟨n, rfl⟩ := Int.eq_ofNat_of_zero_le hz0
    rw [hz, Int.cast_natCast, Nat.floor_natCast]
  rcases le_total 0 v with hv | hv
  · exact hnonneg hv
  · have hneg := hnonneg (neg_nonneg.mpr hv)
    rw [cutPlaces_neg, neg_inj] at hneg
    rw [hneg]
    constructor
    all_goals
      rintro ⟨z, hz⟩
      refine ⟨-z, ?_⟩
      rw [Int.cast_neg, ← hz]
      ring

/-- What the digits of a number denote with a sign. -/
theorem numeral?_radixMagnitude {k : Nat} (hradix : radix = 2 ^ k) (hk : 0 < k) (hk' : k ≤ 5)
    {x : Float} (hx : HasValue x.toModel.unpack v) (negative : Bool) :
    numeral? radix ((if negative then ['-'] else []) ++ (radixMagnitude x radix).toList)
      = some ((if negative then -1 else 1) * cutPlaces radix v) := by
  obtain ⟨ds, fs, rest, htext, hne, hds, hfs, hrest, hvalue⟩ :=
    radixMagnitude_eq hradix hk (by omega) hx
  have h32 : radix ≤ 2 ^ 5 := hradix ▸ Nat.pow_le_pow_right two_pos hk'
  rw [htext, String.toList_ofList, numeral?_map_digitChar (by omega) hds hne hfs hrest, hvalue,
    cutPlaces_of_nonneg hx.nonneg]

section Radix

variable {k : Nat} (hradix : radix = 2 ^ k) (hk : 0 < k) (hk' : k ≤ 5) {x : Float} (hf : x.isFinite)
  (hv : (Dyadic.ofFloat x).toRat = v)

include hradix hk hk' hf hv

/-- What the text of a number denotes. -/
theorem numeral?_toRadixText :
    numeral? radix (toRadixText x radix).toList = some (cutPlaces radix v) := by
  have h10 : radix ≠ 10 := by
    rw [hradix]
    interval_cases k <;> decide
  rw [toRadixText, if_neg (by simp [h10, hf])]
  split
  · next hzero =>
    have hpos : 0 < radix := hradix ▸ Nat.two_pow_pos k
    have h32 : radix ≤ 2 ^ 5 := hradix ▸ Nat.pow_le_pow_right two_pos hk'
    have hdigit := numeral?_map_digitChar (by omega) (List.forall_mem_singleton.mpr hpos)
      (List.cons_ne_nil 0 []) (List.forall_mem_nil _) (.inr ⟨rfl, rfl⟩) false
    rw [← hv, toRat_of_beq_zero hzero, cutPlaces_of_nonneg le_rfl, zero_mul, Nat.floor_zero]
    refine hdigit.trans (congrArg some ?_)
    simp [horner]
  · rw [withSign]
    split
    · next hneg =>
      have hvalue := hasValue_neg_of_lt hf hneg
      rw [hv] at hvalue
      have htext := numeral?_radixMagnitude hradix hk hk' hvalue true
      rw [cutPlaces_neg, if_pos rfl, if_pos rfl, neg_one_mul, neg_neg] at htext
      rw [String.toList_append]
      exact htext
    · next hneg =>
      have hvalue := hasValue_of_not_lt hf hneg
      rw [hv] at hvalue
      have htext := numeral?_radixMagnitude hradix hk hk' hvalue false
      rwa [if_neg Bool.false_ne_true, if_neg Bool.false_ne_true, one_mul] at htext

omit hk hk' in
/-- A number of 53 bits in front of the last place is a multiple of it. -/
theorem exists_mul_pow_eq (hlow : 2 ^ 52 ≤ |v| * radix ^ 52) : ∃ z : Int, v * radix ^ 52 = z := by
  have hplaces : (radix : Rat) ^ 52 = 2 ^ (k * 52) := by
    rw [hradix, Nat.cast_pow, ← pow_mul]
    rfl
  rw [hplaces] at hlow ⊢
  by_cases hneg : x < 0.0
  · have hvalue := hasValue_neg_of_lt hf hneg
    rw [hv] at hvalue
    rw [abs_of_nonpos (neg_nonneg.mp hvalue.nonneg)] at hlow
    obtain ⟨n, hn⟩ := hvalue.exists_mul_two_pow hlow
    refine ⟨-n, ?_⟩
    rw [Int.cast_neg, Int.cast_natCast, ← hn]
    ring
  · have hvalue := hasValue_of_not_lt hf hneg
    rw [hv] at hvalue
    rw [abs_of_nonneg hvalue.nonneg] at hlow
    obtain ⟨n, hn⟩ := hvalue.exists_mul_two_pow hlow
    exact ⟨n, hn⟩

end Radix

end Text

/-- The text of a finite number in a radix that is a power of two denotes the number without what
comes after 52 places. This is the number if and only if it is a multiple of the last place, as are
all numbers that are not below one. -/
theorem toRadixText_denotes {x : Float} (hf : x.isFinite) {radix : Nat}
    (hradix : radix ∈ [2, 4, 8, 16, 32]) {v : Rat} (hv : (Dyadic.ofFloat x).toRat = v) :
    numeral? radix (toRadixText x radix).toList = some (cutPlaces radix v)
      ∧ (numeral? radix (toRadixText x radix).toList = some v ↔ ∃ z : Int, v * radix ^ 52 = z)
      ∧ (2 ^ 52 ≤ |v| * radix ^ 52 → numeral? radix (toRadixText x radix).toList = some v) := by
  simp only [List.mem_cons, List.not_mem_nil, or_false] at hradix
  obtain ⟨k, hk, hk', hpow⟩ : ∃ k, 0 < k ∧ k ≤ 5 ∧ radix = 2 ^ k := by
    rcases hradix with rfl | rfl | rfl | rfl | rfl
    exacts [⟨1, by decide⟩, ⟨2, by decide⟩, ⟨3, by decide⟩, ⟨4, by decide⟩, ⟨5, by decide⟩]
  have hdenotes := numeral?_toRadixText hpow hk hk' hf hv
  have hexact : numeral? radix (toRadixText x radix).toList = some v
      ↔ ∃ z : Int, v * radix ^ 52 = z := by
    rw [hdenotes, Option.some.injEq, cutPlaces_eq_iff (by omega)]
  exact ⟨hdenotes, hexact, fun hlow => hexact.mpr (exists_mul_pow_eq hpow hf hv hlow)⟩

/-- A half of the last place: the number is not zero, and its text denotes zero. -/
theorem toRadixText_denotes_halfPlace :
    (Float.ofBits 0x3CA0000000000000).isFinite
      ∧ (Dyadic.ofFloat (Float.ofBits 0x3CA0000000000000)).toRat = 1 / 2 ^ 53
      ∧ numeral? 2 (toRadixText (Float.ofBits 0x3CA0000000000000) 2).toList
        = some (cutPlaces 2 (1 / 2 ^ 53))
      ∧ cutPlaces 2 (1 / 2 ^ 53) = 0 := by
  have hf : (Float.ofBits 0x3CA0000000000000).isFinite := by decide +kernel
  have hv : (Dyadic.ofFloat (Float.ofBits 0x3CA0000000000000)).toRat = 1 / 2 ^ 53 := by
    have hform : Dyadic.ofFloat (Float.ofBits 0x3CA0000000000000) = ⟨false, 2 ^ 52, -105⟩ := by
      decide +kernel
    rw [hform, Dyadic.toRat]
    norm_num
  refine ⟨hf, hv, (toRadixText_denotes hf List.mem_cons_self hv).1, ?_⟩
  rw [cutPlaces_of_nonneg (by positivity)]
  norm_num

end ScriptEngine.Number
