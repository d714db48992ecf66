import Mathlib
import ScriptEngine.Number.Reader

/-!
# Digits in a radix

The digits that are read in a radix up to 36 are those that are written, with letters of either
case. The characters of a text of digits stand for numbers below the radix, and together, the first
one being the highest, for one natural number.

## Main definitions

* `Number.IsRadixDigit`: the digits of a radix.
* `Number.horner`: the number that digits stand for.
* `Number.digitsValue?`: the number that a text of digits stands for.
* `Number.radixLetters`: the letters that announce a radix.

## Main results

* `Number.isSome_digitValue?_iff`: the digits that are read.
* `Number.digitValue?_digitChar`: a digit that is written is read back.
* `Number.mapM_digitValue?_iff`: how a text of digits is read.
-/

namespace ScriptEngine.Number

/-! ### Single digits -/

variable {radix v : Nat} {c : Char}

theorem toNat_digitChar (hv : v < 36) :
    (digitChar v).toNat = if v < 10 then 48 + v else 87 + v := by
  revert v
  decide

theorem toNat_toUpper_digitChar (hv : v < 36) :
    (digitChar v).toUpper.toNat = if v < 10 then 48 + v else 55 + v := by
  revert v
  decide

/-- The characters that are read as digits, by their code points. -/
theorem digitValue?_eq_some_iff : digitValue? radix c = some v ↔ v < radix
    ∧ (48 ≤ c.toNat ∧ c.toNat ≤ 57 ∧ v = c.toNat - 48
      ∨ 97 ≤ c.toNat ∧ c.toNat ≤ 122 ∧ v = c.toNat - 87
      ∨ 65 ≤ c.toNat ∧ c.toNat ≤ 90 ∧ v = c.toNat - 55) := by
  have hdigit : c.isDigit ↔ 48 ≤ c.toNat ∧ c.toNat ≤ 57 := Char.isDigit_iff_toNat
  have hlower : (decide ('a' ≤ c) && decide (c ≤ 'z')) = true ↔ 97 ≤ c.toNat ∧ c.toNat ≤ 122 := by
    rw [Bool.and_eq_true, decide_eq_true_iff, decide_eq_true_iff]
    exact .rfl
  have hupper : (decide ('A' ≤ c) && decide (c ≤ 'Z')) = true ↔ 65 ≤ c.toNat ∧ c.toNat ≤ 90 := by
    rw [Bool.and_eq_true, decide_eq_true_iff, decide_eq_true_iff]
    exact .rfl
  simp only [digitValue?, hdigit, hlower, hupper]
  split
  · simp only [Option.bind_some]
    split <;> simp only [Option.some.injEq, reduceCtorEq, false_iff] <;> omega
  · split
    · simp only [Option.bind_some]
      split <;> simp only [Option.some.injEq, reduceCtorEq, false_iff] <;> omega
    · split
      · simp only [Option.bind_some]
        split <;> simp only [Option.some.injEq, reduceCtorEq, false_iff] <;> omega
      · simp only [Option.bind_none, reduceCtorEq, false_iff]
        omega

theorem lt_of_digitValue? (h : digitValue? radix c = some v) : v < radix :=
  (digitValue?_eq_some_iff.mp h).1

/-- A digit that is written is read back. -/
theorem digitValue?_digitChar (hv : v < radix) (h36 : v < 36) :
    digitValue? radix (digitChar v) = some v := by
  have hchar := toNat_digitChar h36
  rw [digitValue?_eq_some_iff]
  split at hchar <;> omega

/-- Whether a character is a digit of a radix, a letter of either case. -/
def IsRadixDigit (radix : Nat) (c : Char) : Prop :=
  ∃ v < radix, c = digitChar v ∨ c = (digitChar v).toUpper

/-- The digits that are read are those that are written, with letters of either case. -/
theorem isSome_digitValue?_iff (h36 : radix ≤ 36) :
    (digitValue? radix c).isSome ↔ IsRadixDigit radix c := by
  rw [Option.isSome_iff_exists]
  refine exists_congr fun v => ?_
  rw [digitValue?_eq_some_iff]
  refine and_congr_right fun hv => ?_
  have hchar := toNat_digitChar (hv.trans_le h36)
  have hupper := toNat_toUpper_digitChar (hv.trans_le h36)
  rw [← Char.toNat_inj, ← Char.toNat_inj, hchar, hupper]
  split <;> omega

/-- No visible character is a blank. -/
theorem isBlank_eq_false (h : 33 ≤ c.toNat ∧ c.toNat ≤ 126) : Text.isBlank c = false := by
  simp only [Text.isBlank, Bool.or_eq_false_iff, Bool.and_eq_false_iff, beq_eq_false_iff_ne,
    decide_eq_false_iff_not]
  omega

/-- No sign, point or blank is a digit. -/
theorem ne_of_digitValue? (h : digitValue? radix c = some v) :
    c ≠ '-' ∧ c ≠ '+' ∧ c ≠ '.' ∧ Text.isBlank c = false := by
  have hrange : 48 ≤ c.toNat ∧ c.toNat ≤ 57 ∨ 65 ≤ c.toNat ∧ c.toNat ≤ 122 := by
    obtain ⟨-, h⟩ := digitValue?_eq_some_iff.mp h
    omega
  refine ⟨?_, ?_, ?_, isBlank_eq_false (by omega)⟩
  all_goals
    rintro rfl
    exact absurd hrange (by decide)

/-- A text that does not start with a sign has none. -/
theorem splitSign_eq_self {cs : List Char} (h : ∀ c ∈ cs.head?, c ≠ '-' ∧ c ≠ '+') :
    splitSign cs = (false, cs) := by
  unfold splitSign
  split
  · exact absurd rfl (h '-' rfl).1
  · exact absurd rfl (h '+' rfl).2
  · rfl

/-! ### Texts of digits -/

/-- The number that digits stand for, the first one being the highest. -/
def horner (radix : Nat) (ds : List Nat) : Nat := ds.foldl (fun n d => n * radix + d) 0

/-- The number that a text of digits stands for, `none` if a character is no digit. -/
def digitsValue? (radix : Nat) (cs : List Char) : Option Nat :=
  (cs.mapM (digitValue? radix)).map (horner radix)

/-- The letters that announce a radix. -/
def radixLetters : List (Char × Nat) :=
  [('x', 16), ('X', 16), ('o', 8), ('O', 8), ('b', 2), ('B', 2)]

/-- What follows a zero and the letter of a radix has to be something. -/
theorem splitRadixPrefix?_eq_some_iff {cs digits : List Char} :
    splitRadixPrefix? cs = some (radix, digits)
      ↔ ∃ letter, (letter, radix) ∈ radixLetters ∧ cs = '0' :: letter :: digits ∧ digits ≠ [] := by
  simp only [radixLetters, List.mem_cons, Prod.mk.injEq, List.not_mem_nil, or_false]
  constructor
  · intro h
    unfold splitRadixPrefix? at h
    split at h
    · next c d rest =>
      split_ifs at h with hx ho hb
      all_goals
        cases h
        refine ⟨c, ?_, rfl, List.cons_ne_nil _ _⟩
      · rcases hx with rfl | rfl <;> simp
      · rcases ho with rfl | rfl <;> simp
      · rcases hb with rfl | rfl <;> simp
    · cases h
  · rintro ⟨letter, hletter, rfl, hne⟩
    obtain ⟨d, rest, rfl⟩ := List.exists_cons_of_ne_nil hne
    rcases hletter with ⟨rfl, rfl⟩ | ⟨rfl, rfl⟩ | ⟨rfl, rfl⟩ | ⟨rfl, rfl⟩ | ⟨rfl, rfl⟩ | ⟨rfl, rfl⟩
    all_goals rfl

theorem splitRadixPrefix?_eq_none {cs : List Char} (h : ∀ c ∈ cs, c ∉ radixLetters.map Prod.fst) :
    splitRadixPrefix? cs = none := by
  cases hsplit : splitRadixPrefix? cs with
  | none => rfl
  | some found =>
    obtain ⟨letter, hletter, rfl, -⟩ := splitRadixPrefix?_eq_some_iff.mp hsplit
    exact absurd (List.mem_map_of_mem hletter)
      (h letter (List.mem_cons_of_mem _ List.mem_cons_self))

/-- A text of digits is read character by character. -/
theorem mapM_digitValue?_iff {cs : List Char} {ds : List Nat} :
    cs.mapM (digitValue? radix) = some ds
      ↔ List.Forall₂ (fun c d => digitValue? radix c = some d) cs ds := by
  induction cs generalizing ds with
  | nil =>
    rw [List.mapM_nil, List.forall₂_nil_left_iff]
    exact ⟨fun h => (Option.some.inj h).symm, fun h => h ▸ rfl⟩
  | cons c cs ih =>
    rw [List.mapM_cons, List.forall₂_cons_left_iff]
    constructor
    · intro h
      obtain ⟨d, hd, h⟩ := Option.bind_eq_some_iff.mp h
      obtain ⟨ds', hds, h⟩ := Option.bind_eq_some_iff.mp h
      exact ⟨d, ds', hd, ih.mp hds, (Option.some.inj h).symm⟩
    · rintro ⟨d, ds', hd, hds, rfl⟩
      rw [hd, ih.mpr hds]
      rfl

theorem lt_of_forall₂ {cs : List Char} {ds : List Nat}
    (h : List.Forall₂ (fun c d => digitValue? radix c = some d) cs ds) : ∀ d ∈ ds, d < radix := by
  induction h with
  | nil => exact List.forall_mem_nil _
  | cons hd _ ih => exact List.forall_mem_cons.mpr ⟨lt_of_digitValue? hd, ih⟩

theorem exists_of_forall₂ {cs : List Char} {ds : List Nat}
    (h : List.Forall₂ (fun c d => digitValue? radix c = some d) cs ds) :
    ∀ c ∈ cs, ∃ d, digitValue? radix c = some d := by
  induction h with
  | nil => exact List.forall_mem_nil _
  | cons hd _ ih => exact List.forall_mem_cons.mpr ⟨⟨_, hd⟩, ih⟩

/-- A text is read if all its characters are digits. -/
theorem exists_mapM_digitValue?_iff {cs : List Char} (h36 : radix ≤ 36) :
    (∃ ds, cs.mapM (digitValue? radix) = some ds) ↔ ∀ c ∈ cs, IsRadixDigit radix c := by
  simp only [← isSome_digitValue?_iff h36, Option.isSome_iff_exists]
  constructor
  · rintro ⟨ds, hds⟩
    exact exists_of_forall₂ (mapM_digitValue?_iff.mp hds)
  · intro h
    induction cs with
    | nil => exact ⟨[], rfl⟩
    | cons c cs ih =>
      obtain ⟨⟨d, hd⟩, h⟩ := List.forall_mem_cons.mp h
      obtain ⟨ds, hds⟩ := ih h
      exact ⟨d :: ds, mapM_digitValue?_iff.mpr (.cons hd (mapM_digitValue?_iff.mp hds))⟩

theorem ofRadixDigits?_eq_some {cs : List Char} {ds : List Nat} (hne : cs ≠ [])
    (hds : cs.mapM (digitValue? radix) = some ds) :
    ofRadixDigits? radix cs = some (ds.foldl (pushDigit radix) 0.0) := by
  rw [ofRadixDigits?, hds, if_neg (by rwa [List.isEmpty_iff])]
  rfl

/-- Digits that are written are read back. -/
theorem digitsValue?_map_digitChar {ds : List Nat} (h36 : radix ≤ 36) (hds : ∀ d ∈ ds, d < radix) :
    digitsValue? radix (ds.map digitChar) = some (horner radix ds) := by
  have hread : List.Forall₂ (fun c d => digitValue? radix c = some d) (ds.map digitChar) ds := by
    rw [List.forall₂_map_left_iff, List.forall₂_same]
    exact fun d hd => digitValue?_digitChar (hds d hd) ((hds d hd).trans_le h36)
  rw [digitsValue?, mapM_digitValue?_iff.mpr hread]
  rfl

theorem horner_concat (radix : Nat) (ds : List Nat) (d : Nat) :
    horner radix (ds ++ [d]) = horner radix ds * radix + d := by
  rw [horner, List.foldl_append]
  rfl

theorem foldl_digits (radix n : Nat) (ds : List Nat) :
    ds.foldl (fun n d => n * radix + d) n = n * radix ^ ds.length + horner radix ds := by
  induction ds using List.reverseRecOn with
  | nil => exact (Nat.mul_one n).symm
  | append_singleton ds d ih =>
    have hlength : (ds ++ [d]).length = ds.length + 1 := List.length_append
    rw [horner_concat, List.foldl_append, ih, hlength, Nat.pow_succ]
    simp only [List.foldl_cons, List.foldl_nil]
    ring

theorem horner_cons (radix d : Nat) (ds : List Nat) :
    horner radix (d :: ds) = d * radix ^ ds.length + horner radix ds := by
  rw [horner, List.foldl_cons, foldl_digits, Nat.zero_mul, Nat.zero_add]

/-- What has been read grows with every digit. -/
theorem le_foldl_digits (hradix : 0 < radix) (ds : List Nat) (n : Nat) :
    n ≤ ds.foldl (fun n d => n * radix + d) n := by
  induction ds generalizing n with
  | nil => exact Nat.le_refl n
  | cons d ds ih =>
    refine Nat.le_trans ?_ (ih (n * radix + d))
    exact Nat.le_add_right_of_le (Nat.le_mul_of_pos_right n hradix)

end ScriptEngine.Number
