import ScriptEngine.Proofs.CodeUnits

/-!
# Surrogates in text

Every string has code units, but not every list of code units is that of a string: one half of a
pair may stand without the other. Reading such a list puts the replacement character in the place of
each half that stands alone, and changes nothing else. Every unit keeps its place, so that the text
is as long as the list.

## Main definitions

* `Text.IsUnpaired`: a surrogate that is no half of a pair.

## Main results

* `Text.length_reread`: reading a list of units keeps its length.
* `Text.reread_eq_self_iff`: which lists of units are those of a string.
* `units_view_strings`: the view of strings as lists of units.
-/

namespace ScriptEngine

namespace Text

/-! ### Surrogates without a partner -/

/-- The unit at a position is a surrogate that is no half of a pair: a first half that no second one
follows, or a second half that does not come right after a first one. -/
def IsUnpaired (us : List UInt16) (i : Nat) : Prop :=
  us[i]?.any isLeading ∧ ¬us[i + 1]?.any isTrailing
    ∨ us[i]?.any isTrailing ∧ ∀ j, j + 1 = i → ¬us[j]?.any isLeading

section Unpaired

variable {u v : UInt16} {us : List UInt16} {i : Nat}

theorem isLeading_eq_false_of_isTrailing (h : isTrailing u) : isLeading u = false := by
  rw [isTrailing_iff] at h
  rw [Bool.eq_false_iff, ne_eq, isLeading_iff]
  omega

/-- What comes before a unit does not matter to those that come after it. -/
theorem isUnpaired_cons_add_two : IsUnpaired (u :: us) (i + 2) ↔ IsUnpaired us (i + 1) := by
  simp [IsUnpaired]

/-- Only a first half matters to the unit that follows it. -/
theorem isUnpaired_cons_succ (hu : isLeading u = false) :
    IsUnpaired (u :: us) (i + 1) ↔ IsUnpaired us i := by
  cases i with
  | zero => simp [IsUnpaired, hu]
  | succ i => exact isUnpaired_cons_add_two

theorem isUnpaired_cons_zero : IsUnpaired (u :: us) 0
    ↔ isLeading u ∧ ¬us.head?.any isTrailing ∨ isTrailing u := by
  simp [IsUnpaired, List.head?_eq_getElem?]

theorem not_isUnpaired_nil : ¬IsUnpaired [] i := by
  simp [IsUnpaired]

/-- The halves of a pair have each other. -/
theorem exists_isUnpaired_pair (hu : isLeading u) (hv : isTrailing v) :
    (∃ i, IsUnpaired (u :: v :: us) i) ↔ ∃ i, IsUnpaired us i := by
  have hv' := isLeading_eq_false_of_isTrailing hv
  have hu' : isTrailing u = false := by
    refine Bool.eq_false_iff.mpr fun h => ?_
    rw [isLeading_eq_false_of_isTrailing h] at hu
    cases hu
  constructor
  · rintro ⟨i, hi⟩
    match i, hi with
    | 0, hi => simp [isUnpaired_cons_zero, hv, hu'] at hi
    | 1, hi => simp [IsUnpaired, hu, hv'] at hi
    | i + 2, hi => exact ⟨i, (isUnpaired_cons_succ hv').mp (isUnpaired_cons_add_two.mp hi)⟩
  · rintro ⟨i, hi⟩
    exact ⟨i + 2, isUnpaired_cons_add_two.mpr ((isUnpaired_cons_succ hv').mpr hi)⟩

/-- A unit that does not start a pair is a surrogate without a partner, or none that matters to
those that follow it. -/
theorem exists_isUnpaired_cons (h : ¬(isLeading u ∧ us.head?.any isTrailing)) :
    (∃ i, IsUnpaired (u :: us) i)
      ↔ (isLeading u || isTrailing u) = true ∨ ∃ i, IsUnpaired us i := by
  rw [Bool.or_eq_true]
  by_cases hu : isLeading u
  · refine iff_of_true ⟨0, isUnpaired_cons_zero.mpr (.inl ⟨hu, fun hv => h ⟨hu, hv⟩⟩)⟩
      (.inl (.inl hu))
  · have hu' : isLeading u = false := by simpa using hu
    constructor
    · rintro ⟨i, hi⟩
      match i, hi with
      | 0, hi =>
        rcases isUnpaired_cons_zero.mp hi with ⟨hlead, -⟩ | htrail
        · exact absurd hlead hu
        · exact .inl (.inr htrail)
      | i + 1, hi => exact .inr ⟨i, (isUnpaired_cons_succ hu').mp hi⟩
    · rintro ((hlead | htrail) | ⟨i, hi⟩)
      · exact absurd hlead hu
      · exact ⟨0, isUnpaired_cons_zero.mpr (.inr htrail)⟩
      · exact ⟨i + 1, (isUnpaired_cons_succ hu').mpr hi⟩

end Unpaired

/-! ### Reading units and writing them again -/

section Reread

variable {u v : UInt16}

theorem toNat_ofNat_of_isValidChar {n : Nat} (h : n.isValidChar) : (Char.ofNat n).toNat = n := by
  rw [Char.ofNat, dif_pos h]
  rfl

/-- A unit that is no surrogate is that of its character. -/
theorem charUnits_ofNat (h : (isLeading u || isTrailing u) = false) :
    charUnits (Char.ofNat u.toNat) = [u] := by
  rw [Bool.or_eq_false_iff, Bool.eq_false_iff, Bool.eq_false_iff, ne_eq, ne_eq, isLeading_iff,
    isTrailing_iff] at h
  have hlt := u.toNat_lt
  have hvalid : u.toNat.isValidChar := by
    unfold Nat.isValidChar
    omega
  rw [charUnits, toNat_ofNat_of_isValidChar hvalid, if_pos (by omega), UInt16.ofNat_toNat]

/-- A pair is that of its character. -/
theorem charUnits_pairValue (hu : isLeading u) (hv : isTrailing v) :
    charUnits (Char.ofNat (pairValue u v)) = [u, v] := by
  rw [isLeading_iff] at hu
  rw [isTrailing_iff] at hv
  have hvalid : (pairValue u v).isValidChar := by
    unfold Nat.isValidChar pairValue
    omega
  have hfirst : 0xD800 + (pairValue u v - 0x10000) / 0x400 = u.toNat := by
    unfold pairValue
    omega
  have hsecond : 0xDC00 + (pairValue u v - 0x10000) % 0x400 = v.toNat := by
    unfold pairValue
    omega
  have hlarge : ¬pairValue u v < 0x10000 := by
    unfold pairValue
    omega
  rw [charUnits, toNat_ofNat_of_isValidChar hvalid, if_neg hlarge, hfirst, hsecond,
    UInt16.ofNat_toNat, UInt16.ofNat_toNat]

theorem length_charUnits_loneChar (u : UInt16) : (charUnits (loneChar u)).length = 1 := by
  unfold loneChar
  split
  · rfl
  · next h => rw [charUnits_ofNat (by simpa using h), List.length_singleton]

/-- The replacement character is none of the surrogates that it stands for. -/
theorem charUnits_loneChar_eq_iff (u : UInt16) :
    charUnits (loneChar u) = [u] ↔ (isLeading u || isTrailing u) = false := by
  unfold loneChar
  split
  · next h =>
    refine iff_of_false (fun heq => ?_) (by simp [h])
    obtain rfl : (0xFFFD : UInt16) = u := List.head_eq_of_cons_eq heq
    cases h
  · next h =>
    have hu : (isLeading u || isTrailing u) = false := by simpa using h
    exact iff_of_true (charUnits_ofNat hu) hu

end Reread

/-- Every unit keeps its place when a list of units is read. -/
theorem length_reread (us : List UInt16) :
    ((decode us).flatMap charUnits).length = us.length := by
  fun_induction decode us with
  | case1 => rfl
  | case2 u => simp [length_charUnits_loneChar]
  | case3 u v rest hpair ih =>
    rw [Bool.and_eq_true] at hpair
    rw [List.flatMap_cons, charUnits_pairValue hpair.1 hpair.2, List.length_append, ih]
    simp only [List.length_cons, List.length_nil]
    omega
  | case4 u v rest hpair ih =>
    rw [List.flatMap_cons, List.length_append, ih, length_charUnits_loneChar]
    simp only [List.length_cons]
    omega

/-- The characters of a list of units have the same units exactly if no surrogate is without its
partner. -/
theorem reread_eq_self_iff (us : List UInt16) :
    (decode us).flatMap charUnits = us ↔ ¬∃ i, IsUnpaired us i := by
  -- the first unit, where it stands alone, and the others
  have hcons (u : UInt16) (us : List UInt16) (h : ¬(isLeading u ∧ us.head?.any isTrailing))
      (ih : (decode us).flatMap charUnits = us ↔ ¬∃ i, IsUnpaired us i) :
      charUnits (loneChar u) ++ (decode us).flatMap charUnits = u :: us
        ↔ ¬∃ i, IsUnpaired (u :: us) i := by
    rw [exists_isUnpaired_cons h, not_or, ← ih, Bool.not_eq_true, ← charUnits_loneChar_eq_iff,
      ← List.singleton_append]
    exact ⟨fun h => List.append_inj h (length_charUnits_loneChar u), fun h => h.1 ▸ congrArg _ h.2⟩
  fun_induction decode us with
  | case1 => exact iff_of_true rfl fun ⟨_, hi⟩ => not_isUnpaired_nil hi
  | case2 u =>
    exact hcons u [] (by simp) (iff_of_true rfl fun ⟨_, hi⟩ => not_isUnpaired_nil hi)
  | case3 u v rest hpair ih =>
    rw [Bool.and_eq_true] at hpair
    rw [exists_isUnpaired_pair hpair.1 hpair.2, List.flatMap_cons,
      charUnits_pairValue hpair.1 hpair.2]
    exact (List.append_right_inj [u, v]).trans ih
  | case4 u v rest hpair ih =>
    exact hcons u (v :: rest) (by simpa using hpair) ih

end Text

/-- Strings are lists of 16-bit units of which no surrogate is without its partner. The units of a
string spell the string, and its length is their number. Whatever list of units is read, the string
is as long as the list; its units are those of the list exactly if no surrogate of the list is
without its partner. The order of strings is the lexicographic one of their units; it is total, and
only equal strings are equal in it. -/
theorem units_view_strings :
    (∀ s : String, Text.ofUnits (Text.units s) = s
      ∧ Text.unitLength s = (Text.units s).length)
    ∧ (∀ us : List UInt16, Text.unitLength (Text.ofUnits us) = us.length
      ∧ (Text.units (Text.ofUnits us) = us ↔ ¬∃ i, Text.IsUnpaired us i))
    ∧ (∀ s t : String,
      Text.compareUnits s t = List.compareLex compare (Text.units s) (Text.units t)
      ∧ Text.compareUnits t s = (Text.compareUnits s t).swap
      ∧ (Text.compareUnits s t = .eq ↔ s = t))
    ∧ ∀ r s t : String, Text.compareUnits r s ≠ .gt → Text.compareUnits s t ≠ .gt →
      Text.compareUnits r t ≠ .gt := by
  have hunits (us : List UInt16) :
      Text.units (Text.ofUnits us) = (Text.decode us).flatMap Text.charUnits := by
    rw [Text.units, Text.ofUnits, String.toList_ofList]
  refine ⟨fun s => ⟨Text.ofUnits_units s, (Text.length_units s).symm⟩, fun us => ⟨?_, ?_⟩,
    fun s t => ⟨Text.compareUnits_eq s t, Std.OrientedCmp.eq_swap,
      Std.LawfulEqCmp.compare_eq_iff_eq⟩, fun r s t hrs hst => ?_⟩
  · rw [← Text.length_units, hunits, Text.length_reread]
  · rw [hunits, Text.reread_eq_self_iff]
  · exact Ordering.isLE_iff_ne_gt.mp (Std.TransCmp.isLE_trans (Ordering.isLE_iff_ne_gt.mpr hrs)
      (Ordering.isLE_iff_ne_gt.mpr hst))

/-- The second of two first halves has its partner, and the first one has none. -/
example : Text.units (Text.ofUnits [0xD834, 0xD834, 0xDD1E]) = [0xFFFD, 0xD834, 0xDD1E] := by decide

end ScriptEngine
