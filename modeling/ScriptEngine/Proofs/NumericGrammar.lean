import Mathlib
import ScriptEngine.Proofs.RadixDigits

/-!
# The grammar of numeric texts

A decimal literal has digits, a point with digits or without, and an exponent; all but one digit in
front of the exponent may be missing. There are two scanners. One takes the parts of a literal one
after the other: what it takes is a literal, and it takes no less than any literal that the text
starts with. The other searches for the longest literal at the start of a text and remembers where
the last one that it saw ended; it finds what the first one takes, up to a point at the end that has
no digits after it.

## Main definitions

* `Number.SignText`, `Number.ExponentText`, `Number.PointText`, `Number.DecimalText`: the parts of
  decimal literals.
* `Number.NumericText`: the texts that are numbers.
* `Number.IsLongestPrefix`: the longest list of a kind that another one starts with.

## Main results

* `Number.isDecimalLiteral_iff`: which texts are literals from end to end.
* `Number.isLongestPrefix_of_scanDecimal?`, `Number.scanDecimal?_eq_none_iff`: which literal is
  found at the start of a text.
* `Number.literalRest?_scan`: the search finds what the scanner takes.
-/

namespace ScriptEngine.Number

/-! ### The grammar -/

/-- A sign or nothing, and whether it is a minus. -/
inductive SignText : List Char → Bool → Prop
  | none : SignText [] false
  | plus : SignText ['+'] false
  | minus : SignText ['-'] true

/-- An exponent with its letter, or nothing; it has at least one digit. -/
inductive ExponentText : List Char → Int → Prop
  | none : ExponentText [] 0
  | some {letter : Char} {sign digits : List Char} {negative : Bool}
      (hletter : letter = 'e' ∨ letter = 'E') (hsign : SignText sign negative)
      (hdigits : ∀ c ∈ digits, c.isDigit) (hne : digits ≠ []) :
      ExponentText (letter :: (sign ++ digits))
        (if negative then -(ofDigits digits : Int) else ofDigits digits)

/-- A point and the digits after it, or nothing. -/
inductive PointText : List Char → List Char → Prop
  | none : PointText [] []
  | some {digits : List Char} (hdigits : ∀ c ∈ digits, c.isDigit) : PointText ('.' :: digits) digits

/-- An unsigned decimal literal; it has at least one digit before or after the point. -/
inductive DecimalText : List Char → DecimalLiteral → Prop
  | intro {whole point fraction exponent : List Char} {e : Int}
      (hwhole : ∀ c ∈ whole, c.isDigit) (hpoint : PointText point fraction)
      (hne : whole ≠ [] ∨ fraction ≠ []) (hexponent : ExponentText exponent e) :
      DecimalText (whole ++ (point ++ exponent)) ⟨whole, fraction, e⟩

/-- Whether a text is an unsigned decimal literal. -/
def IsDecimal (cs : List Char) : Prop := ∃ l, DecimalText cs l

/-- The texts that are numbers: nothing, digits after the letter of a radix, or, after a sign or
none, the name of infinity or a decimal literal. -/
inductive NumericText : List Char → Prop
  | empty : NumericText []
  | radix {letter : Char} {radix : Nat} {digits : List Char}
      (hletter : (letter, radix) ∈ radixLetters) (hne : digits ≠ [])
      (hdigits : ∀ c ∈ digits, IsRadixDigit radix c) : NumericText ('0' :: letter :: digits)
  | infinity {sign : List Char} {negative : Bool} (hsign : SignText sign negative) :
      NumericText (sign ++ infinityName)
  | decimal {sign text : List Char} {negative : Bool} (hsign : SignText sign negative)
      (htext : IsDecimal text) : NumericText (sign ++ text)

/-- Whether a list is the longest one of a kind that another list starts with. -/
structure IsLongestPrefix (P : List Char → Prop) (p cs : List Char) : Prop where
  isPrefix : p <+: cs
  holds : P p
  longest : ∀ q, q <+: cs → P q → q <+: p

/-! ### Signs -/

section Sign

variable {sign cs : List Char} {negative : Bool}

/-- A sign is split off, unless there is none and another one follows. -/
theorem splitSign_append (hsign : SignText sign negative)
    (h : sign = [] → ∀ c ∈ cs.head?, c ≠ '-' ∧ c ≠ '+') :
    splitSign (sign ++ cs) = (negative, cs) := by
  cases hsign with
  | none => exact splitSign_eq_self (h rfl)
  | plus => rfl
  | minus => rfl

theorem exists_signText (cs : List Char) :
    ∃ sign, SignText sign (splitSign cs).1 ∧ cs = sign ++ (splitSign cs).2 := by
  unfold splitSign
  split
  · exact ⟨_, .minus, rfl⟩
  · exact ⟨_, .plus, rfl⟩
  · exact ⟨_, .none, rfl⟩

end Sign

/-! ### Parts of a literal -/

section Scan

variable {cs rest : List Char}

theorem ne_sign_of_isDigit {c : Char} (h : c.isDigit) : c ≠ '-' ∧ c ≠ '+' := by
  constructor
  all_goals
    rintro rfl
    exact absurd h (by decide)

theorem scanSignedDigits?_eq (cs : List Char) : scanSignedDigits? cs
    = if ((splitSign cs).2.takeWhile Char.isDigit).isEmpty then none
      else some (
        if (splitSign cs).1 then -(ofDigits ((splitSign cs).2.takeWhile Char.isDigit) : Int)
          else ofDigits ((splitSign cs).2.takeWhile Char.isDigit),
        (splitSign cs).2.dropWhile Char.isDigit) := rfl

/-- What is taken for an exponent is one. -/
theorem exists_exponentText (cs : List Char) :
    ∃ text, ExponentText text (scanExponent cs).1 ∧ cs = text ++ (scanExponent cs).2 := by
  cases cs with
  | nil => exact ⟨_, .none, rfl⟩
  | cons c cs =>
    rw [scanExponent]
    split
    · next hletter =>
      rw [scanSignedDigits?_eq]
      split
      · exact ⟨_, .none, rfl⟩
      · next hne =>
        obtain ⟨sign, hsign, hcs⟩ := exists_signText cs
        refine ⟨_, .some hletter hsign (fun c hc => List.mem_takeWhile_imp hc)
          (by rwa [List.isEmpty_iff] at hne), ?_⟩
        rw [Option.getD_some, List.cons_append, List.append_assoc, List.takeWhile_append_dropWhile,
          ← hcs]
    · exact ⟨_, .none, rfl⟩

/-- What is taken for a point with its digits is one. -/
theorem exists_pointText (cs : List Char) :
    ∃ text, PointText text (scanFraction cs).1 ∧ cs = text ++ (scanFraction cs).2 := by
  unfold scanFraction
  split
  · refine ⟨_, .some fun c hc => List.mem_takeWhile_imp hc, ?_⟩
    rw [List.cons_append, List.takeWhile_append_dropWhile]
  · exact ⟨_, .none, rfl⟩

/-- What is taken for a literal is one. -/
theorem exists_decimalText {l : DecimalLiteral} (h : scanDecimal? cs = some (l, rest)) :
    ∃ text, DecimalText text l ∧ cs = text ++ rest := by
  obtain ⟨point, hpoint, hcs⟩ := exists_pointText (cs.dropWhile Char.isDigit)
  obtain ⟨exponent, hexponent, hcs'⟩ :=
    exists_exponentText (scanFraction (cs.dropWhile Char.isDigit)).2
  unfold scanDecimal? at h
  dsimp only at h
  split at h
  · cases h
  · next hne =>
    cases h
    refine ⟨_, .intro (fun c hc => List.mem_takeWhile_imp hc) hpoint ?_ hexponent, ?_⟩
    · simpa [Classical.or_iff_not_imp_left] using hne
    · rw [List.append_assoc, List.append_assoc, ← hcs', ← hcs, List.takeWhile_append_dropWhile]

/-! ### Nothing less is taken -/

variable {text : List Char} {e : Int}

theorem scanExponent_suffix (cs : List Char) : (scanExponent cs).2 <:+ cs := by
  obtain ⟨text, -, hcs⟩ := exists_exponentText cs
  exact ⟨text, hcs.symm⟩

theorem scanFraction_suffix (cs : List Char) : (scanFraction cs).2 <:+ cs := by
  obtain ⟨text, -, hcs⟩ := exists_pointText cs
  exact ⟨text, hcs.symm⟩

/-- An exponent is taken with the digits that follow it. -/
theorem scanExponent_append {letter : Char} {sign digits : List Char} {negative : Bool}
    (hletter : letter = 'e' ∨ letter = 'E') (hsign : SignText sign negative)
    (hdigits : ∀ c ∈ digits, c.isDigit) (hne : digits ≠ []) (rest : List Char) :
    scanExponent (letter :: (sign ++ (digits ++ rest)))
      = (if negative then -(ofDigits (digits ++ rest.takeWhile Char.isDigit) : Int)
          else ofDigits (digits ++ rest.takeWhile Char.isDigit), rest.dropWhile Char.isDigit) := by
  have hhead : ∀ c ∈ (digits ++ rest).head?, c ≠ '-' ∧ c ≠ '+' := by
    intro c hc
    rw [List.head?_append_of_ne_nil _ hne] at hc
    exact ne_sign_of_isDigit (hdigits c (List.mem_of_mem_head? hc))
  rw [scanExponent, if_pos hletter, scanSignedDigits?_eq, splitSign_append hsign fun _ => hhead,
    List.takeWhile_append_of_pos hdigits, List.dropWhile_append_of_pos hdigits,
    if_neg (by simp [hne]), Option.getD_some]

/-- What follows the digits in front of an exponent is scanned up to the exponent or further. -/
theorem ExponentText.scan (h : ExponentText text e) (rest : List Char) :
    (scanExponent ((text ++ rest).dropWhile Char.isDigit)).2 <:+ rest
      ∧ (rest = [] → (text ++ rest).takeWhile Char.isDigit = []
        ∧ (scanExponent ((text ++ rest).dropWhile Char.isDigit)).1 = e) := by
  cases h with
  | none =>
    refine ⟨(scanExponent_suffix _).trans (List.dropWhile_suffix _), ?_⟩
    rintro rfl
    exact ⟨rfl, rfl⟩
  | @some letter sign digits negative hletter hsign hdigits hne =>
    have hletter' : ¬letter.isDigit := by
      rcases hletter with rfl | rfl <;> decide
    rw [List.cons_append, List.dropWhile_cons_of_neg hletter', List.takeWhile_cons_of_neg hletter',
      List.append_assoc, scanExponent_append hletter hsign hdigits hne]
    refine ⟨List.dropWhile_suffix _, ?_⟩
    rintro rfl
    rw [List.takeWhile_nil, List.append_nil]
    exact ⟨rfl, rfl⟩

theorem PointText.scan {point fraction exponent : List Char} (hpoint : PointText point fraction)
    (hexponent : ExponentText exponent e) (rest : List Char) :
    ∃ more left, scanFraction ((point ++ (exponent ++ rest)).dropWhile Char.isDigit)
        = (fraction ++ more, left) ∧ (scanExponent left).2 <:+ rest
      ∧ (rest = [] → (point ++ (exponent ++ rest)).takeWhile Char.isDigit = [] ∧ more = []
        ∧ (scanExponent left).1 = e) := by
  obtain ⟨hsuffix, hend⟩ := hexponent.scan rest
  cases hpoint with
  | none =>
    cases hexponent with
    -- nothing but digits so far: what follows may still bring a point and an exponent
    | none =>
      refine ⟨_, _, rfl, ?_, ?_⟩
      · exact (scanExponent_suffix _).trans
          ((scanFraction_suffix _).trans (List.dropWhile_suffix _))
      · rintro rfl
        exact ⟨rfl, rfl, rfl⟩
    | @some letter sign digits negative hletter hsign hdigits hne =>
      have hletter' : ¬letter.isDigit ∧ letter ≠ '.' := by
        rcases hletter with rfl | rfl <;> decide
      refine ⟨[], _, ?_, hsuffix, fun h => ⟨(hend h).1, rfl, (hend h).2⟩⟩
      rw [List.nil_append, List.cons_append, List.dropWhile_cons_of_neg hletter'.1, scanFraction]
      · rfl
      · rintro _ ⟨rfl, -⟩
        exact hletter'.2 rfl
  | some hdigits =>
    refine ⟨(exponent ++ rest).takeWhile Char.isDigit, _, ?_, hsuffix,
      fun h => ⟨rfl, (hend h).1, (hend h).2⟩⟩
    rw [List.cons_append, List.dropWhile_cons_of_neg (by decide), scanFraction,
      List.takeWhile_append_of_pos hdigits, List.dropWhile_append_of_pos hdigits]

/-- Of a text that starts with a literal, the literal is taken or more. -/
theorem DecimalText.scan {l : DecimalLiteral} (h : DecimalText text l) (rest : List Char) :
    ∃ l' left, scanDecimal? (text ++ rest) = some (l', left) ∧ left <:+ rest
      ∧ (rest = [] → l' = l) := by
  obtain ⟨hwhole, hpoint, hne, hexponent⟩ := h
  next whole point fraction exponent e =>
  obtain ⟨more, left, hscan, hsuffix, hend⟩ := hpoint.scan hexponent rest
  refine ⟨⟨whole ++ (point ++ (exponent ++ rest)).takeWhile Char.isDigit, fraction ++ more,
    (scanExponent left).1⟩, (scanExponent left).2, ?_, hsuffix, fun h => ?_⟩
  · unfold scanDecimal?
    rw [List.append_assoc, List.append_assoc, List.takeWhile_append_of_pos hwhole,
      List.dropWhile_append_of_pos hwhole, hscan]
    refine if_neg ?_
    rcases hne with hne | hne <;> simp [hne]
  · obtain ⟨hnone, rfl, he⟩ := hend h
    rw [hnone, List.append_nil, List.append_nil, he]

end Scan

/-! ### Literals -/

section Literal

variable {cs rest text : List Char} {l : DecimalLiteral}

/-- A literal is taken from end to end. -/
theorem scanDecimal?_of_decimalText (h : DecimalText text l) :
    scanDecimal? text = some (l, []) := by
  obtain ⟨l', left, hscan, hleft, hend⟩ := h.scan []
  rwa [List.append_nil, hend rfl, List.suffix_nil.mp hleft] at hscan

/-- The texts that are taken from end to end are the literals. -/
theorem isDecimalLiteral_iff : isDecimalLiteral cs ↔ IsDecimal cs := by
  rw [isDecimalLiteral]
  constructor
  · intro h
    split at h
    · next l rest hscan =>
      obtain ⟨text, htext, rfl⟩ := exists_decimalText hscan
      rw [List.isEmpty_iff.mp h, List.append_nil]
      exact ⟨l, htext⟩
    · cases h
  · rintro ⟨l, htext⟩
    rw [scanDecimal?_of_decimalText htext]
    rfl

/-- What is found at the start of a text is the longest literal there. -/
theorem isLongestPrefix_of_scanDecimal? (h : scanDecimal? cs = some (l, rest)) :
    ∃ text, DecimalText text l ∧ IsLongestPrefix IsDecimal text cs := by
  obtain ⟨text, htext, rfl⟩ := exists_decimalText h
  refine ⟨text, htext, ⟨List.prefix_append _ _, ⟨l, htext⟩, ?_⟩⟩
  rintro q ⟨after, hq⟩ ⟨l', hl'⟩
  obtain ⟨l'', left, hscan, ⟨more, rfl⟩, -⟩ := hl'.scan after
  rw [hq, h] at hscan
  cases hscan
  rw [← List.append_assoc] at hq
  exact ⟨more, List.append_cancel_right hq⟩

/-- Nothing is found if and only if no literal is at the start of a text. -/
theorem scanDecimal?_eq_none_iff : scanDecimal? cs = none ↔ ∀ q, q <+: cs → ¬IsDecimal q := by
  constructor
  · rintro h q ⟨after, rfl⟩ ⟨l, hl⟩
    obtain ⟨l', left, hscan, -⟩ := hl.scan after
    rw [h] at hscan
    cases hscan
  · intro h
    cases hscan : scanDecimal? cs with
    | none => rfl
    | some found =>
      obtain ⟨text, -, hlongest⟩ := isLongestPrefix_of_scanDecimal? hscan
      exact absurd hlongest.holds (h text hlongest.isPrefix)

theorem SignText.mem {sign : List Char} {negative : Bool} (h : SignText sign negative) {c : Char}
    (hc : c ∈ sign) : c = '+' ∨ c = '-' := by
  cases h with
  | none => cases hc
  | plus => exact .inl (List.mem_singleton.mp hc)
  | minus => exact .inr (List.mem_singleton.mp hc)

/-- The characters of a literal. -/
theorem DecimalText.mem (h : DecimalText text l) {c : Char} (hc : c ∈ text) :
    c.isDigit ∨ c = '.' ∨ c = 'e' ∨ c = 'E' ∨ c = '+' ∨ c = '-' := by
  obtain ⟨hwhole, hpoint, -, hexponent⟩ := h
  rcases List.mem_append.mp hc with hc | hc
  · exact .inl (hwhole c hc)
  · rcases List.mem_append.mp hc with hc | hc
    · cases hpoint with
      | none => cases hc
      | some hdigits =>
        rcases List.mem_cons.mp hc with rfl | hc
        · exact .inr (.inl rfl)
        · exact .inl (hdigits c hc)
    · cases hexponent with
      | none => cases hc
      | some hletter hsign hdigits =>
        rcases List.mem_cons.mp hc with rfl | hc
        · exact .inr (.inr (hletter.imp_right .inl))
        · rcases List.mem_append.mp hc with hc | hc
          · exact .inr (.inr (.inr (.inr (hsign.mem hc))))
          · exact .inl (hdigits c hc)

/-- A literal starts with a digit or the point. -/
theorem DecimalText.exists_cons (h : DecimalText text l) :
    ∃ c cs, text = c :: cs ∧ (c.isDigit ∨ c = '.') := by
  obtain ⟨hwhole, hpoint, hne, -⟩ := h
  next whole point fraction exponent e =>
  cases whole with
  | cons c whole => exact ⟨c, _, rfl, .inl (hwhole c List.mem_cons_self)⟩
  | nil =>
    cases hpoint with
    | none => simp at hne
    | some => exact ⟨_, _, rfl, .inr rfl⟩

end Literal

/-! ### The search for the longest literal -/

section Search

variable {w r : List Char} {seenPoint seenDigit : Bool} {best : Option (List Char)}

/-- Among digits, what follows the last of them is remembered. -/
theorem literalRest?_append (hw : ∀ c ∈ w, c.isDigit) :
    literalRest? seenPoint seenDigit best (w ++ r) = literalRest? seenPoint
      (seenDigit || !w.isEmpty) (if w.isEmpty then best else some r) r := by
  induction w generalizing seenDigit best with
  | nil => simp
  | cons c w ih =>
    rw [List.cons_append, literalRest?, if_pos (hw c List.mem_cons_self),
      ih fun c hc => hw c (List.mem_cons_of_mem _ hc)]
    cases w <;> simp

/-- If neither a digit nor a first point comes next, nothing but an exponent is looked for. -/
theorem literalRest?_exponent (hend : ∀ c ∈ r.head?, ¬c.isDigit ∧ (c = '.' → seenPoint))
    (best : Option (List Char)) :
    literalRest? seenPoint false best r = best
      ∧ (literalRest? seenPoint true best r = best ∧ (scanExponent r).1 = 0
        ∨ literalRest? seenPoint true best r = some (scanExponent r).2) := by
  cases r with
  | nil => exact ⟨rfl, .inl ⟨rfl, rfl⟩⟩
  | cons c r =>
    obtain ⟨hdigit, hpoint⟩ := hend c rfl
    have hpoint : ¬(c = '.' ∧ !seenPoint) := fun h => by simp [hpoint h.1] at h
    rw [literalRest?, literalRest?, if_neg hdigit, if_neg hdigit, if_neg hpoint, if_neg hpoint,
      scanExponent]
    refine ⟨if_neg (by simp), ?_⟩
    split
    · next hletter =>
      rw [if_pos hletter.1]
      cases scanSignedDigits? r with
      | none => exact .inl ⟨rfl, rfl⟩
      | some found => exact .inr rfl
    · next hletter =>
      rw [if_neg (by simpa using hletter)]
      exact .inl ⟨rfl, rfl⟩

theorem forall_head?_dropWhile (cs : List Char) :
    ∀ c ∈ (cs.dropWhile Char.isDigit).head?, ¬c.isDigit := by
  intro c hc
  have hhead := List.head?_dropWhile_not Char.isDigit cs
  rw [Option.mem_def.mp hc] at hhead
  simpa using hhead

/-- A point is passed with the digits after it, if there is one. -/
theorem exists_literalRest?_fraction (hr : ∀ c ∈ r.head?, ¬c.isDigit) (seenDigit : Bool)
    (best : Option (List Char)) :
    ∃ (point : List Char) (seenPoint : Bool), PointText point (scanFraction r).1
      ∧ r = point ++ (scanFraction r).2
      ∧ (∀ c ∈ (scanFraction r).2.head?, ¬c.isDigit ∧ (c = '.' → seenPoint))
      ∧ literalRest? false seenDigit best r
        = literalRest? seenPoint (seenDigit || !(scanFraction r).1.isEmpty)
          (if (scanFraction r).1.isEmpty then best else some (scanFraction r).2)
          (scanFraction r).2 := by
  unfold scanFraction
  split
  · next r =>
    have hdigits : ∀ c ∈ r.takeWhile Char.isDigit, c.isDigit := fun c hc =>
      List.mem_takeWhile_imp hc
    refine ⟨_, true, .some hdigits, ?_,
      fun c hc => ⟨forall_head?_dropWhile r c hc, fun _ => rfl⟩, ?_⟩
    · rw [List.cons_append, List.takeWhile_append_dropWhile]
    · rw [literalRest?, if_neg (by decide), if_pos (by decide), ← literalRest?_append hdigits,
        List.takeWhile_append_dropWhile]
  · next hpoint =>
    refine ⟨[], false, .none, rfl, fun c hc => ⟨hr c hc, ?_⟩, by simp⟩
    rintro rfl
    obtain ⟨r, rfl⟩ := List.head?_eq_some_iff.mp hc
    exact (hpoint r rfl).elim

section Mantissa

variable {whole point fraction : List Char} (hwhole : ∀ c ∈ whole, c.isDigit)
  (hpoint : PointText point fraction) (hne : whole ≠ [] ∨ fraction ≠ [])

include hwhole hpoint hne

/-- In front of the exponent all but a point at the end is remembered, which spells the same. -/
theorem exists_mantissaText (r : List Char) :
    ∃ text left, (if fraction.isEmpty then if whole.isEmpty then none else some (point ++ r)
        else some r) = some left
      ∧ whole ++ (point ++ r) = text ++ left ∧ DecimalText text ⟨whole, fraction, 0⟩ := by
  by_cases hfraction : fraction = []
  -- a point without digits is passed, and what was remembered before it stays
  · subst hfraction
    have hsome : whole ≠ [] := by simpa using hne
    refine ⟨whole, point ++ r, by simp [hsome], rfl, ?_⟩
    simpa using DecimalText.intro hwhole .none hne .none
  · refine ⟨whole ++ point, r, by simp [hfraction], (List.append_assoc _ _ _).symm, ?_⟩
    simpa using DecimalText.intro hwhole hpoint hne .none

/-- Past the digits and the point, what the search finds has the exponent that is there. -/
theorem exists_literalRest?_exponent (hend : ∀ c ∈ r.head?, ¬c.isDigit ∧ (c = '.' → seenPoint)) :
    ∃ text left, literalRest? seenPoint true (if fraction.isEmpty then
        if whole.isEmpty then none else some (point ++ r) else some r) r = some left
      ∧ whole ++ (point ++ r) = text ++ left
      ∧ DecimalText text ⟨whole, fraction, (scanExponent r).1⟩ := by
  obtain ⟨text, left, hbest, hleft, htext⟩ := exists_mantissaText hwhole hpoint hne r
  rw [hbest]
  rcases (literalRest?_exponent hend (some left)).2 with ⟨hsearch, hzero⟩ | hsearch
  · exact ⟨text, left, hsearch, hleft, hzero ▸ htext⟩
  · obtain ⟨exponent, hexponent, hr⟩ := exists_exponentText r
    refine ⟨_, _, hsearch, ?_, .intro hwhole hpoint hne hexponent⟩
    rw [List.append_assoc, List.append_assoc, ← hr]

end Mantissa

/-- The search finds a literal if the scanner takes one, and one that spells the same. -/
theorem literalRest?_scan (cs : List Char) :
    match scanDecimal? cs with
    | some (l, _) => ∃ text left, literalRest? false false none cs = some left ∧ cs = text ++ left
        ∧ DecimalText text l
    | none => literalRest? false false none cs = none := by
  have hwhole : ∀ c ∈ cs.takeWhile Char.isDigit, c.isDigit := fun c hc => List.mem_takeWhile_imp hc
  have hcs : cs = cs.takeWhile Char.isDigit ++ cs.dropWhile Char.isDigit :=
    List.takeWhile_append_dropWhile.symm
  have hsearch : literalRest? false false none cs = literalRest? false _ _ _ :=
    (congrArg _ hcs).trans (literalRest?_append hwhole)
  obtain ⟨point, seenPoint, hpoint, hr, hend, hfraction⟩ :=
    exists_literalRest?_fraction (forall_head?_dropWhile cs) _ _
  rw [hfraction, Bool.false_or] at hsearch
  unfold scanDecimal?
  dsimp only
  -- from here on the text is its digits, the point with its digits, and the rest
  generalize cs.takeWhile Char.isDigit = whole at *
  generalize cs.dropWhile Char.isDigit = r at *
  generalize (scanFraction r).1 = fraction at *
  generalize (scanFraction r).2 = rest at *
  subst hr hcs
  split_ifs with hempty
  · obtain ⟨rfl, rfl⟩ : whole = [] ∧ fraction = [] := by simpa using hempty
    exact hsearch.trans (literalRest?_exponent hend _).1
  · have hne : whole ≠ [] ∨ fraction ≠ [] := by
      simpa [Classical.or_iff_not_imp_left] using hempty
    have hdigit : (!whole.isEmpty || !fraction.isEmpty) = true := by
      simpa [Classical.or_iff_not_imp_left] using hempty
    rw [hdigit] at hsearch
    rw [hsearch]
    exact exists_literalRest?_exponent hwhole hpoint hne hend

end Search

end ScriptEngine.Number
