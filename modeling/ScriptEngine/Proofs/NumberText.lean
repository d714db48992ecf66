import Mathlib
import ScriptEngine.Proofs.KeyText
import ScriptEngine.Proofs.ShortestDigits

/-!
# The text of a number

The digits of a number are laid out in one of four ways, with zeros after them, with a point among
them, with zeros in front, or with an exponent. Each of them spells a decimal literal that denotes
the decimal exactly and has no zero at the end of its fraction. Since the shortest digits of a
number lie in its interval, the literal is read as the number again.

## Main definitions

* `Number.DecimalLiteral.toRat`: the rational that a literal denotes.
* `Number.Spells`: how a text spells a literal.

## Main results

* `Number.Spells.scanDecimal?_eq`: the literal that a text spells is scanned from it.
* `Number.layout_spells`: the text of a decimal spells a literal that denotes it.
* `Number.ofText_layout`: a decimal in the interval of a number is read as the number.
* `Number.ofText_toText`: a number is read back from its text.
* `Number.toText_denotes_and_reads_back`: the layout of all decimals and the text of all numbers.
-/

namespace ScriptEngine.Number

open Float.Model Float.Model.UnpackedFloat

/-! ### The value of digits -/

theorem ofDigits_eq (cs : List Char) : ofDigits cs = Nat.ofDigitChars 10 cs 0 :=
  PropertyKey.foldl_eq_ofDigitChars cs 0

theorem ofDigits_append (cs cs' : List Char) :
    ofDigits (cs ++ cs') = ofDigits cs * 10 ^ cs'.length + ofDigits cs' := by
  rw [ofDigits_eq, ofDigits_eq, ofDigits_eq, Nat.ofDigitChars_append,
    Nat.ofDigitChars_eq_ofDigitChars_zero, Nat.mul_comm]

theorem ofDigits_zeros (k : Nat) : ofDigits (List.replicate k '0') = 0 := by
  rw [ofDigits_eq, Nat.ofDigitChars_replicate_zero, Nat.mul_zero]

theorem ofDigits_toDigits (n : Nat) : ofDigits (Nat.toDigits 10 n) = n := by
  rw [ofDigits_eq, Nat.ofDigitChars_ten_toDigits]

theorem isDigit_of_mem_toDigits {n : Nat} : ∀ c ∈ Nat.toDigits 10 n, c.isDigit = true :=
  fun _ hc => Nat.isDigit_of_mem_toDigits (by decide) (by decide) hc

theorem isDigit_of_mem_zeros {k : Nat} : ∀ c ∈ List.replicate k '0', c.isDigit = true :=
  fun _ hc => List.eq_of_mem_replicate hc ▸ rfl

/-- What is no digit is not among digits. -/
theorem not_mem_of_isDigit {c : Char} {cs : List Char} (hc : c.isDigit = false)
    (hcs : ∀ c ∈ cs, c.isDigit) : c ∉ cs := fun hmem =>
  Bool.false_ne_true (hc.symm.trans (hcs c hmem))

/-- The last digit of a number that is no multiple of ten is not zero. -/
theorem getLast?_toDigits {n : Nat} (hn : n % 10 ≠ 0) :
    (Nat.toDigits 10 n).getLast? ≠ some '0' := by
  rcases Nat.lt_or_ge n 10 with hlt | hge
  · rw [Nat.toDigits_of_lt_base hlt, List.getLast?_singleton, ne_eq, Option.some.injEq,
      Nat.digitChar_eq_zero]
    omega
  · rw [Nat.toDigits_of_base_le (by decide) hge, List.getLast?_append, List.getLast?_singleton,
      Option.some_or, ne_eq, Option.some.injEq, Nat.digitChar_eq_zero]
    exact hn

/-! ### Literals and the texts that spell them -/

/-- The rational that a literal denotes: its digits at their places, moved by the exponent. -/
def DecimalLiteral.toRat (l : DecimalLiteral) : Rat :=
  (ofDigits l.whole + ofDigits l.fraction / 10 ^ l.fraction.length) * 10 ^ l.exponent

theorem DecimalLiteral.toRat_eq (l : DecimalLiteral) :
    l.toRat = ofDigits (l.whole ++ l.fraction) * 10 ^ (l.exponent - l.fraction.length) := by
  have hten : (10 : Rat) ^ l.fraction.length ≠ 0 := by positivity
  rw [toRat, ofDigits_append, zpow_sub₀ (by norm_num), zpow_natCast]
  push_cast
  field_simp

/-- A point and the digits after it, if there are any. -/
def pointPart (fraction : List Char) : List Char :=
  if fraction = [] then [] else '.' :: fraction

/-- The exponent in scientific notation. -/
def exponentPart (scientific : Bool) (e : Int) : List Char :=
  if scientific then (exponentText e).toList else []

/-- Whether a text spells a literal: digits, a point and digits if there is a fraction, and an
exponent with its sign in scientific notation. -/
structure Spells (text : List Char) (l : DecimalLiteral) (scientific : Bool) : Prop where
  whole_ne_nil : l.whole ≠ []
  whole : ∀ c ∈ l.whole, c.isDigit
  fraction : ∀ c ∈ l.fraction, c.isDigit
  exponent : scientific = false → l.exponent = 0
  text : text = l.whole ++ (pointPart l.fraction ++ exponentPart scientific l.exponent)

/-- Digits before something else are scanned up to it. -/
theorem takeWhile_dropWhile_digits {cs : List Char} (hcs : ∀ c ∈ cs, c.isDigit)
    (rest : List Char) (hrest : ∀ c ∈ rest.head?, c.isDigit = false) :
    (cs ++ rest).takeWhile Char.isDigit = cs ∧ (cs ++ rest).dropWhile Char.isDigit = rest := by
  rw [List.takeWhile_append_of_pos hcs, List.dropWhile_append_of_pos hcs]
  cases rest with
  | nil => simp
  | cons c rest => simp [hrest c rfl]

theorem toList_exponentText (e : Int) : (exponentText e).toList
    = 'e' :: (if e < 0 then '-' else '+') :: Nat.toDigits 10 e.natAbs := by
  rw [exponentText, String.toList_append, Nat.toList_repr]
  split <;> rfl

/-- The exponent is scanned from its text. -/
theorem scanExponent_exponentText (e : Int) :
    scanExponent (exponentText e).toList = (e, []) := by
  have hdigits : (Nat.toDigits 10 e.natAbs).takeWhile Char.isDigit = Nat.toDigits 10 e.natAbs
      ∧ (Nat.toDigits 10 e.natAbs).dropWhile Char.isDigit = [] := by
    have h := takeWhile_dropWhile_digits (isDigit_of_mem_toDigits (n := e.natAbs)) []
      (fun c hc => nomatch hc)
    rwa [List.append_nil] at h
  have hne : (Nat.toDigits 10 e.natAbs).isEmpty = false :=
    List.isEmpty_eq_false_iff.mpr Nat.toDigits_ne_nil
  have hscan : scanSignedDigits? ((if e < 0 then '-' else '+') :: Nat.toDigits 10 e.natAbs)
      = some (e, []) := by
    split
    · next hneg =>
      simp only [scanSignedDigits?, hdigits.1, hdigits.2, hne, ofDigits_toDigits]
      simp only [Bool.false_eq_true, if_false, if_true, Option.some.injEq, Prod.mk.injEq, and_true]
      omega
    · next hpos =>
      simp only [scanSignedDigits?, hdigits.1, hdigits.2, hne, ofDigits_toDigits]
      simp only [Bool.false_eq_true, if_false, Option.some.injEq, Prod.mk.injEq, and_true]
      omega
  rw [toList_exponentText, scanExponent, if_pos (.inl rfl), hscan]
  rfl

section Spells

variable {text : List Char} {l : DecimalLiteral} {scientific : Bool}

theorem head?_exponentPart (scientific : Bool) (e : Int) :
    ∀ c ∈ (exponentPart scientific e).head?, c = 'e' := by
  intro c hc
  cases scientific with
  | false => cases hc
  | true =>
    rw [exponentPart, if_pos rfl, toList_exponentText] at hc
    exact (Option.some.inj hc).symm

theorem scanFraction_eq (fraction : List Char) {rest : List Char}
    (hfraction : ∀ c ∈ fraction, c.isDigit) (hrest : ∀ c ∈ rest.head?, c = 'e') :
    scanFraction (pointPart fraction ++ rest) = (fraction, rest) := by
  unfold pointPart
  split
  · next hnil =>
    rw [hnil, List.nil_append]
    cases rest with
    | nil => rfl
    | cons c rest =>
      rw [hrest c rfl]
      rfl
  · have hscan := takeWhile_dropWhile_digits hfraction rest fun c hc => by rw [hrest c hc]; rfl
    rw [List.cons_append, scanFraction, hscan.1, hscan.2]

/-- The literal that a text spells is scanned from it, up to its end. -/
theorem Spells.scanDecimal?_eq (h : Spells text l scientific) :
    scanDecimal? text = some (l, []) := by
  have htail := head?_exponentPart scientific l.exponent
  have hexponent : scanExponent (exponentPart scientific l.exponent) = (l.exponent, []) := by
    cases scientific with
    | false =>
      rw [h.exponent rfl]
      rfl
    | true => exact scanExponent_exponentText l.exponent
  have hwhole := takeWhile_dropWhile_digits h.whole
    (pointPart l.fraction ++ exponentPart scientific l.exponent) fun c hc => by
      unfold pointPart at hc
      split at hc
      · rw [htail c hc]
        rfl
      · rw [← Option.some.inj hc]
        rfl
  have hne : l.whole.isEmpty = false := List.isEmpty_eq_false_iff.mpr h.whole_ne_nil
  rw [scanDecimal?, h.text, hwhole.1, hwhole.2, scanFraction_eq l.fraction h.fraction htail, hne]
  simp only [hexponent, Bool.false_and, Bool.false_eq_true, if_false]

/-- The characters of a text that spells a literal. -/
theorem Spells.mem (h : Spells text l scientific) {c : Char} (hc : c ∈ text) :
    c.isDigit ∨ c = '.' ∨ c = 'e' ∨ c = '+' ∨ c = '-' := by
  rw [h.text, List.mem_append, List.mem_append] at hc
  rcases hc with hc | hc | hc
  · exact .inl (h.whole c hc)
  · unfold pointPart at hc
    split at hc
    · cases hc
    · rcases List.mem_cons.mp hc with hc | hc
      · exact .inr (.inl hc)
      · exact .inl (h.fraction c hc)
  · unfold exponentPart at hc
    split at hc
    · rw [toList_exponentText, List.mem_cons, List.mem_cons] at hc
      rcases hc with hc | hc | hc
      · exact .inr (.inr (.inl hc))
      · split at hc
        · exact .inr (.inr (.inr (.inr hc)))
        · exact .inr (.inr (.inr (.inl hc)))
      · exact .inl (isDigit_of_mem_toDigits c hc)
    · cases hc

/-- The letter of an exponent is written in scientific notation only. -/
theorem Spells.mem_letter_iff (h : Spells text l scientific) : 'e' ∈ text ↔ scientific = true := by
  have hmiddle : 'e' ∉ pointPart l.fraction := by
    unfold pointPart
    split
    · exact List.not_mem_nil
    · rw [List.mem_cons, not_or]
      exact ⟨by decide, not_mem_of_isDigit rfl h.fraction⟩
  rw [h.text, List.mem_append, List.mem_append, or_iff_right (not_mem_of_isDigit rfl h.whole),
    or_iff_right hmiddle]
  cases scientific with
  | false => exact iff_of_false List.not_mem_nil Bool.false_ne_true
  | true =>
    rw [exponentPart, if_pos rfl, toList_exponentText]
    exact iff_of_true List.mem_cons_self rfl

/-- A point is written if there is a fraction. -/
theorem Spells.mem_point_iff (h : Spells text l scientific) : '.' ∈ text ↔ l.fraction ≠ [] := by
  have htail : '.' ∉ exponentPart scientific l.exponent := by
    unfold exponentPart
    split
    · rw [toList_exponentText, List.mem_cons, List.mem_cons, not_or, not_or]
      refine ⟨by decide, ?_, not_mem_of_isDigit rfl isDigit_of_mem_toDigits⟩
      split <;> decide
    · exact List.not_mem_nil
  rw [h.text, List.mem_append, List.mem_append, or_iff_right (not_mem_of_isDigit rfl h.whole),
    or_iff_left htail, pointPart]
  split
  · next hnil => exact iff_of_false List.not_mem_nil (not_not_intro hnil)
  · next hne => exact iff_of_true List.mem_cons_self hne

end Spells

/-! ### The layouts -/

theorem toList_zeros (k : Nat) : (zeros k).toList = List.replicate k '0' := String.toList_ofList

theorem toList_insertPoint (digits : String) (j : Nat) :
    (insertPoint digits j).toList = digits.toList.take j ++ '.' :: digits.toList.drop j := by
  rw [insertPoint, String.toList_append, String.toList_append, String.toList_ofList,
    String.toList_ofList, String.toList_ofList, List.append_assoc, List.singleton_append]

theorem length_repr (n : Nat) : (Nat.repr n).length = Decimal.digitCount n := by
  rw [← String.length_toList, Nat.toList_repr, Decimal.digitCount]

/-- What a layout has to spell: a literal that denotes the digits at their place, without a zero at
the end of its fraction and without a needless one in front. -/
def SpellsDecimal (text : List Char) (d : Decimal) (scientific : Bool) : Prop :=
  ∃ l : DecimalLiteral, Spells text l scientific ∧ l.toRat = d.toRat
    ∧ l.fraction.getLast? ≠ some '0' ∧ (l.whole.head? = some '0' → l.whole = ['0'])

section Layout

variable {n : Nat} (e : Int) (hn : n % 10 ≠ 0)
include hn

/-- Zeros after the digits. -/
theorem spellsDecimal_zeros (h : (Decimal.digitCount n : Int) ≤ e + 1) :
    SpellsDecimal (Nat.toDigits 10 n
      ++ List.replicate (e + 1 - Decimal.digitCount n).toNat '0') ⟨n, e⟩ false := by
  generalize hj : (e + 1 - Decimal.digitCount n).toNat = j
  refine ⟨⟨Nat.toDigits 10 n ++ List.replicate j '0', [], 0⟩, ⟨?_, ?_, ?_, fun _ => rfl, ?_⟩, ?_,
    ?_, ?_⟩
  · exact List.append_ne_nil_of_left_ne_nil Nat.toDigits_ne_nil _
  · intro c hc
    rcases List.mem_append.mp hc with hc | hc
    · exact isDigit_of_mem_toDigits c hc
    · exact isDigit_of_mem_zeros c hc
  · exact List.forall_mem_nil _
  · exact (List.append_nil _).symm
  · have hexp : e - (Decimal.digitCount n - 1) = (j : Int) := by omega
    rw [DecimalLiteral.toRat_eq, List.append_nil, ofDigits_append, ofDigits_zeros,
      ofDigits_toDigits, List.length_replicate, Decimal.toRat, hexp, zpow_natCast]
    simp
  · exact (Option.some_ne_none '0').symm
  · intro hzero
    rw [List.head?_append_of_ne_nil _ Nat.toDigits_ne_nil] at hzero
    exact absurd hzero (head?_toDigits (by omega))

/-- A point among the digits, or none if it would come after the last one. -/
theorem spellsDecimal_point (j : Nat) (hj : 0 < j) (scientific : Bool) (exponent : Int)
    (hexponent : scientific = false → exponent = 0)
    (he : e - (Decimal.digitCount n - 1) = exponent - (Decimal.digitCount n - j : Nat)) :
    SpellsDecimal ((Nat.toDigits 10 n).take j
      ++ (pointPart ((Nat.toDigits 10 n).drop j) ++ exponentPart scientific exponent)) ⟨n, e⟩
      scientific := by
  refine ⟨⟨(Nat.toDigits 10 n).take j, (Nat.toDigits 10 n).drop j, exponent⟩,
    ⟨?_, ?_, ?_, hexponent, rfl⟩, ?_, ?_, ?_⟩
  · rw [ne_eq, List.take_eq_nil_iff, not_or]
    exact ⟨hj.ne', Nat.toDigits_ne_nil⟩
  · exact fun c hc => isDigit_of_mem_toDigits c (List.mem_of_mem_take hc)
  · exact fun c hc => isDigit_of_mem_toDigits c (List.mem_of_mem_drop hc)
  · rw [DecimalLiteral.toRat_eq, List.take_append_drop, ofDigits_toDigits, List.length_drop,
      Decimal.toRat, he]
    rfl
  · rw [List.getLast?_drop]
    split
    · exact (Option.some_ne_none '0').symm
    · exact getLast?_toDigits hn
  · intro hzero
    rw [List.head?_take, if_neg hj.ne'] at hzero
    exact absurd hzero (head?_toDigits (by omega))

/-- Zeros between the point and the digits. -/
theorem spellsDecimal_small (h : e < 0) :
    SpellsDecimal ('0' :: '.' :: (List.replicate (-(e + 1)).toNat '0' ++ Nat.toDigits 10 n)) ⟨n, e⟩
      false := by
  generalize hj : (-(e + 1)).toNat = j
  have hne : List.replicate j '0' ++ Nat.toDigits 10 n ≠ [] :=
    List.append_ne_nil_of_right_ne_nil _ Nat.toDigits_ne_nil
  refine ⟨⟨['0'], List.replicate j '0' ++ Nat.toDigits 10 n, 0⟩, ⟨?_, ?_, ?_, fun _ => rfl, ?_⟩,
    ?_, ?_, fun _ => rfl⟩
  · exact List.cons_ne_nil _ _
  · exact fun c hc => List.mem_singleton.mp hc ▸ rfl
  · intro c hc
    rcases List.mem_append.mp hc with hc | hc
    · exact isDigit_of_mem_zeros c hc
    · exact isDigit_of_mem_toDigits c hc
  · rw [pointPart, if_neg hne]
    exact (List.append_nil _).symm
  · have hpos := Decimal.digitCount_pos n
    have hexp : e - (Decimal.digitCount n - 1) = 0 - (j + Decimal.digitCount n : Nat) := by omega
    rw [DecimalLiteral.toRat_eq, ofDigits_append, ofDigits_append, ofDigits_zeros,
      ofDigits_toDigits, List.length_append, List.length_replicate, Decimal.toRat, hexp]
    simp [ofDigits, Decimal.digitCount]
  · rw [List.getLast?_append_of_ne_nil _ Nat.toDigits_ne_nil]
    exact getLast?_toDigits hn

end Layout

/-- The text of a decimal spells a literal that denotes it, with an exponent exactly where the
decimal is not written positionally. -/
theorem layout_spells {d : Decimal} (hd : d.digits % 10 ≠ 0) :
    SpellsDecimal (layout d).toList d (!isPositional d.exponent) := by
  obtain ⟨n, e⟩ := d
  replace hd : n % 10 ≠ 0 := hd
  have hpos := Decimal.digitCount_pos n
  have hlength : (Nat.toDigits 10 n).length = Decimal.digitCount n := rfl
  unfold layout
  dsimp only
  split
  · next hpositional =>
    rw [hpositional]
    unfold layoutPositional
    dsimp only
    rw [length_repr]
    split
    · next h =>
      rw [String.toList_append, toList_zeros, Nat.toList_repr]
      exact spellsDecimal_zeros e hd h
    · split
      · next h =>
        have hpoint := spellsDecimal_point e hd (e + 1).toNat (by omega) false 0 (fun _ => rfl)
          (by omega)
        have hne : (Nat.toDigits 10 n).drop (e + 1).toNat ≠ [] := by
          rw [ne_eq, List.drop_eq_nil_iff]
          omega
        rw [toList_insertPoint, Nat.toList_repr]
        rwa [pointPart, if_neg hne, exponentPart, if_neg Bool.false_ne_true, List.append_nil]
          at hpoint
      · next h =>
        rw [String.toList_append, String.toList_append, toList_zeros, Nat.toList_repr,
          List.append_assoc]
        exact spellsDecimal_small e hd (by omega)
  · next hscientific =>
    rw [Bool.not_eq_true] at hscientific
    rw [hscientific]
    have hpoint := spellsDecimal_point e hd 1 Nat.one_pos true e (fun h => nomatch h) (by omega)
    unfold layoutExponent
    rw [String.toList_append, length_repr]
    split
    · next h =>
      have hdrop : (Nat.toDigits 10 n).drop 1 = [] := List.drop_eq_nil_iff.mpr (by omega)
      have htake : (Nat.toDigits 10 n).take 1 = Nat.toDigits 10 n :=
        List.take_of_length_le (by omega)
      rw [Nat.toList_repr]
      rwa [hdrop, htake] at hpoint
    · next h =>
      have hdrop : (Nat.toDigits 10 n).drop 1 ≠ [] := by
        rw [ne_eq, List.drop_eq_nil_iff]
        omega
      rw [toList_insertPoint, Nat.toList_repr, List.append_assoc]
      rwa [pointPart, if_neg hdrop] at hpoint

/-! ### Reading -/

/-- Nothing is trimmed off a text without blanks. -/
theorem trim_of_forall {s : String} (h : ∀ c ∈ s.toList, Text.isBlank c = false) :
    Text.trim s = s := by
  have hdrop {cs : List Char} (hcs : ∀ c ∈ cs, Text.isBlank c = false) :
      Text.dropBlank cs = cs := by
    cases cs with
    | nil => rfl
    | cons c cs =>
      rw [Text.dropBlank, List.dropWhile_cons_of_neg]
      rw [hcs c List.mem_cons_self]
      exact Bool.false_ne_true
  rw [Text.trim, hdrop h, Text.dropBlankEnd, hdrop fun c hc => h c (List.mem_reverse.mp hc),
    List.reverse_reverse, String.ofList_toList]

/-- The letters of a radix stand for none of the characters. -/
theorem splitRadixPrefix?_of_forall {cs : List Char}
    (h : ∀ c ∈ cs, c.isDigit ∨ c = '.' ∨ c = 'e' ∨ c = '+' ∨ c = '-') :
    splitRadixPrefix? cs = none := by
  unfold splitRadixPrefix?
  split
  · next c d rest =>
    have hc := h c (List.mem_cons_of_mem _ List.mem_cons_self)
    have hne {letter : Char} (hletter : ¬(letter.isDigit ∨ letter = '.' ∨ letter = 'e'
        ∨ letter = '+' ∨ letter = '-')) : c ≠ letter := fun heq => hletter (heq ▸ hc)
    rw [if_neg, if_neg, if_neg]
    all_goals
      rw [not_or]
      exact ⟨hne (by decide), hne (by decide)⟩
  · rfl

section Spelled

variable {l : DecimalLiteral} {scientific : Bool} {text : List Char}

theorem Spells.not_isBlank (h : Spells text l scientific) {c : Char} (hc : c ∈ text) :
    Text.isBlank c = false := by
  rcases h.mem hc with hc | rfl | rfl | rfl | rfl
  · have hrange : 48 ≤ c.toNat ∧ c.toNat ≤ 57 := Char.isDigit_iff_toNat.mp hc
    simp only [Text.isBlank, Bool.or_eq_false_iff, Bool.and_eq_false_iff, beq_eq_false_iff_ne,
      decide_eq_false_iff_not]
    omega
  all_goals rfl

/-- A text that spells a literal starts with a digit. -/
theorem Spells.exists_cons (h : Spells text l scientific) :
    ∃ c cs, text = c :: cs ∧ c.isDigit := by
  obtain ⟨c, cs, hcs⟩ := List.exists_cons_of_ne_nil h.whole_ne_nil
  have hc : c.isDigit := h.whole c (hcs ▸ List.mem_cons_self)
  rw [h.text, hcs]
  exact ⟨c, _, rfl, hc⟩

/-- After its sign a text that spells a literal is neither the name of infinity nor anything else
than the literal. -/
theorem Spells.ofTrimmed_signed (h : Spells text l scientific) (negative : Bool) :
    ofTrimmed (if negative then '-' :: text else text) = applySign negative l.value := by
  obtain ⟨c, cs, hcs, hc⟩ := h.exists_cons
  have hnotSign : c ≠ '-' ∧ c ≠ '+' := by
    constructor
    all_goals
      rintro rfl
      exact Bool.false_ne_true hc
  have hname : text ≠ infinityName := by
    rw [hcs]
    intro heq
    rw [(List.cons.inj heq).1] at hc
    exact Bool.false_ne_true hc
  have hprefix : splitRadixPrefix? (if negative then '-' :: text else text) = none := by
    cases negative with
    | true => rfl
    | false => exact splitRadixPrefix?_of_forall fun c hc => h.mem hc
  have hsign : splitSign (if negative then '-' :: text else text) = (negative, text) := by
    cases negative with
    | true => rfl
    | false =>
      rw [if_neg Bool.false_ne_true, hcs]
      unfold splitSign
      split
      · next heq => exact absurd (List.cons.inj heq).1 hnotSign.1
      · next heq => exact absurd (List.cons.inj heq).1 hnotSign.2
      · rfl
  have hempty : (if negative then '-' :: text else text).isEmpty = false := by
    cases negative with
    | true => rfl
    | false =>
      rw [if_neg Bool.false_ne_true, hcs]
      rfl
  unfold ofTrimmed
  rw [hempty, hprefix, hsign]
  simp only [Bool.false_eq_true, if_false, hname, h.scanDecimal?_eq]

theorem ofText_of_spells {s : String} (h : Spells s.toList l scientific) :
    ofText s = l.value := by
  rw [ofText, trim_of_forall fun c hc => h.not_isBlank hc]
  exact h.ofTrimmed_signed false

theorem ofText_neg_of_spells {s : String} (h : Spells s.toList l scientific) :
    ofText ("-" ++ s) = -l.value := by
  have hlist : ("-" ++ s).toList = '-' :: s.toList := by
    rw [String.toList_append]
    rfl
  have hblank : ∀ c ∈ ("-" ++ s).toList, Text.isBlank c = false := by
    intro c hc
    rw [hlist] at hc
    rcases List.mem_cons.mp hc with rfl | hc
    · rfl
    · exact h.not_isBlank hc
  rw [ofText, trim_of_forall hblank, hlist]
  exact h.ofTrimmed_signed true

/-- A literal that denotes something in the interval of a number has the number for its value. -/
theorem DecimalLiteral.unpack_value {m : Nat} {e : Int} (hp : 0 < m) (hc : Canonical m e)
    (hv : RoundsTo l.toRat m e) : l.value.toModel.unpack = .finite .positive m e hp := by
  have hpos := hv.pos hp
  rw [toRat_eq] at hv hpos
  have hdigits : 0 < ofDigits (l.whole ++ l.fraction) := by
    refine Nat.pos_of_ne_zero fun hzero => ?_
    rw [hzero, Nat.cast_zero, zero_mul] at hpos
    exact lt_irrefl _ hpos
  exact unpack_ofScientific hp hc hdigits hv

end Spelled

/-! ### The text of all numbers -/

section Text

variable {x : Float} {m : Nat} {e : Int} {hp : 0 < m}

theorem isFinite_of_unpack {s : Sign} (h : x.toModel.unpack = .finite s m e hp) :
    x.isFinite := by
  change x.toModel.unpack.isFinite = true
  rw [h]
  rfl

theorem lt_zero_iff_of_unpack {s : Sign} (h : x.toModel.unpack = .finite s m e hp) :
    x < 0.0 ↔ isMinus s := by
  rw [lt_iff, h, unpack_zero]
  cases s <;> simp [UnpackedFloat.compare, isMinus]

theorem exists_unpack_of_pos (hx : 0.0 < x) (hf : x.isFinite) :
    ∃ m e hp, x.toModel.unpack = .finite .positive m e hp := by
  have hf' : x.toModel.unpack.isFinite = true := hf
  rw [lt_iff, unpack_zero] at hx
  match h : x.toModel.unpack, hx, hf' with
  | .finite .positive m e hp, _, _ => exact ⟨m, e, hp, rfl⟩

/-- The text of a finite number that is not zero is the layout of the shortest digits of its
magnitude, after a sign. -/
theorem toText_of_unpack {s : Sign} (h : x.toModel.unpack = .finite s m e hp) :
    toText x = if isMinus s then "-" ++ layout (Decimal.shortest (-x))
      else layout (Decimal.shortest x) := by
  obtain ⟨hnan, hinf⟩ := isNaN_and_isInf_of_isFinite (isFinite_of_unpack h)
  have hzero : ¬(x == 0.0) = true := by
    rw [beq_zero_iff]
    rintro ⟨s', hzero⟩
    rw [h] at hzero
    cases hzero
  rw [toText, hnan, hinf, if_neg Bool.false_ne_true, if_neg hzero, if_neg Bool.false_ne_true,
    withSign]
  simp only [lt_zero_iff_of_unpack h]

theorem neg_neg_of_unpack {s : Sign} (h : x.toModel.unpack = .finite s m e hp) : -(-x) = x := by
  refine eq_of_unpack ?_
  rw [unpack_neg (unpack_neg h), h]
  cases s <;> rfl

/-- A decimal in the interval of a number is read as the number, with a sign as its negative. -/
theorem ofText_layout {d : Decimal} (hd : d.digits % 10 ≠ 0) (hv : RoundsToFloat d.toRat x) :
    ofText (layout d) = x ∧ ofText ("-" ++ layout d) = -x := by
  obtain ⟨m, e, hp, h, hv⟩ := hv
  obtain ⟨l, hspells, hvalue, -⟩ := layout_spells hd
  have hx : l.value = x := by
    refine eq_of_unpack ?_
    rw [h]
    exact l.unpack_value hp (form_of_unpack h).1 (hvalue ▸ hv)
  exact ⟨(ofText_of_spells hspells).trans hx, (ofText_neg_of_spells hspells).trans (hx ▸ rfl)⟩

end Text

/-- The text of every number but negative zero is read as the number. -/
theorem ofText_toText {x : Float} (hnan : x.isNaN = false) (hzero : x ≠ negZero) :
    ofText (toText x) = x := by
  have hnan' : x.toModel.unpack.isNaN = false := hnan
  cases h : x.toModel.unpack with
  | notANumber =>
    rw [h] at hnan'
    cases hnan'
  | infinity s =>
    cases s with
    | positive =>
      obtain rfl : x = infinity := eq_of_unpack h
      decide +kernel
    | negative =>
      obtain rfl : x = negInfinity := eq_of_unpack h
      decide +kernel
  | zero s =>
    cases s with
    | positive =>
      obtain rfl : x = 0.0 := eq_of_unpack h
      decide +kernel
    | negative => exact absurd (eq_of_unpack h) hzero
  | finite s m e hp =>
    rw [toText_of_unpack h]
    cases s with
    | positive =>
      obtain ⟨hv, hd⟩ := Decimal.shortest_spec h
      exact (ofText_layout hd ⟨m, e, hp, h, hv⟩).1
    | negative =>
      have hneg := unpack_neg h
      obtain ⟨hv, hd⟩ := Decimal.shortest_spec hneg
      exact (ofText_layout hd ⟨m, e, hp, hneg, hv⟩).2.trans (neg_neg_of_unpack h)

/-- Digits `d₁ d₂ … dₖ` with a last one that is not zero, and an exponent `e`, are laid out as a
decimal literal that denotes `d₁.d₂…dₖ * 10 ^ e`. It is written without an exponent exactly where
`-7 < e ≤ 20`, and with a point only before digits of which the last one is not zero. The text of a
finite number is the layout of such digits, after a minus if it is negative. These round to the
number, and no fewer digits do. Whatever digits round to a number are read as the number, so that
every number but negative zero is read back from its text. -/
theorem toText_denotes_and_reads_back :
    (∀ d : Decimal, d.digits % 10 ≠ 0 → ∃ l : DecimalLiteral,
      scanDecimal? (layout d).toList = some (l, []) ∧ isDecimalLiteral (layout d).toList
        ∧ l.toRat = d.toRat
        ∧ ('e' ∉ (layout d).toList ↔ -7 < d.exponent ∧ d.exponent ≤ 20)
        ∧ ('.' ∈ (layout d).toList ↔ l.fraction ≠ [])
        ∧ l.fraction.getLast? ≠ some '0')
    ∧ (∀ x : Float, 0.0 < x → x.isFinite → ∃ d : Decimal, d.digits % 10 ≠ 0
      ∧ toText x = layout d ∧ toText (-x) = "-" ++ layout d ∧ RoundsToFloat d.toRat x
      ∧ ∀ d' : Decimal, RoundsToFloat d'.toRat x →
        Decimal.digitCount d.digits ≤ Decimal.digitCount d'.digits)
    ∧ (∀ (x : Float) (d : Decimal), d.digits % 10 ≠ 0 → RoundsToFloat d.toRat x →
      ofText (layout d) = x ∧ ofText ("-" ++ layout d) = -x)
    ∧ ∀ x : Float, x.isNaN = false → x ≠ negZero → ofText (toText x) = x := by
  refine ⟨fun d hd => ?_, fun x hx hf => ?_, fun x d => ofText_layout, fun x => ofText_toText⟩
  · obtain ⟨l, hspells, hvalue, hlast, -⟩ := layout_spells hd
    have hscan := hspells.scanDecimal?_eq
    refine ⟨l, hscan, ?_, hvalue, ?_, hspells.mem_point_iff, hlast⟩
    · rw [isDecimalLiteral, hscan]
      rfl
    · rw [hspells.mem_letter_iff, Bool.not_eq_true, Bool.not_eq_false', isPositional,
        Bool.and_eq_true, decide_eq_true_iff, decide_eq_true_iff]
      omega
  · obtain ⟨m, e, hp, h⟩ := exists_unpack_of_pos hx hf
    obtain ⟨hv, hd⟩ := Decimal.shortest_spec h
    refine ⟨Decimal.shortest x, hd, (toText_of_unpack h).trans (if_neg Bool.false_ne_true), ?_,
      ⟨m, e, hp, h, hv⟩, ?_⟩
    · rw [toText_of_unpack (unpack_neg h), neg_neg_of_unpack h]
      rfl
    · rintro d' ⟨m', e', hp', h', hv'⟩
      exact Decimal.digitCount_shortest_le h' hv'

/-- Beyond both ends of positional notation. -/
theorem toText_denotes_and_reads_back_ends :
    (∃ l : DecimalLiteral, scanDecimal? (layout ⟨15, -7⟩).toList = some (l, [])
      ∧ l.toRat = Decimal.toRat ⟨15, -7⟩ ∧ 'e' ∈ (layout ⟨15, -7⟩).toList)
    ∧ (∃ d : Decimal, toText (-1e21) = "-" ++ layout d ∧ RoundsToFloat d.toRat 1e21)
    ∧ ofText (toText (-1e21)) = -1e21 := by
  obtain ⟨hlayout, htext, -, hread⟩ := toText_denotes_and_reads_back
  obtain ⟨l, hscan, -, hvalue, hletter, -, -⟩ := hlayout ⟨15, -7⟩ (by decide)
  obtain ⟨d, -, -, hminus, hrounds, -⟩ := htext 1e21 (by decide +kernel) (by decide +kernel)
  refine ⟨⟨l, hscan, hvalue, Decidable.not_not.mp fun hplain => ?_⟩, ⟨d, hminus, hrounds⟩,
    hread (-1e21) (by decide +kernel) (by decide +kernel)⟩
  exact absurd (hletter.mp hplain) (by decide)

end ScriptEngine.Number
