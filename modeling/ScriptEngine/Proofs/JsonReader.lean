import ScriptEngine.Proofs.CodeUnits
import ScriptEngine.Proofs.History
import ScriptEngine.Proofs.JsonGrammar

/-!
# Reading JSON texts

The reader is right about the grammar: it reads every text of a tree as the tree, up to how numbers
are represented, as long as the number of a literal is the nearest double. By induction on the tree
each text is read wherever it stands, unless a digit or something else that could belong to a number
follows.

## Main definitions

* `Json.EndsNumber`: nothing that follows a number could belong to it.
* `Json.NumberLiteral.IsNearest`: literals become the doubles that they round to.
* `Json.Reads`: a text is read as a tree wherever it stands.

## Main results

* `Json.readString?_of_spells`: a string is read from its text.
* `Json.Spells.reads`: a tree is read from its text.
* `Json.Library.correct_reading`: the library of the reader is correct.
-/

namespace ScriptEngine.Json

variable {cs rest blank text : List Char} {depth fuel : Nat}

/-! ### Blanks -/

theorem skipSpace_append (h : IsBlank blank) (cs : List Char) :
    skipSpace (blank ++ cs) = skipSpace cs := by
  induction blank with
  | nil => rfl
  | cons c blank ih =>
    obtain ⟨hc, h⟩ := List.forall_mem_cons.mp h
    rw [List.cons_append, skipSpace, List.dropWhile_cons_of_pos hc]
    exact ih h

theorem skipSpace_cons {c : Char} (hc : isSpace c = false) (cs : List Char) :
    skipSpace (c :: cs) = c :: cs := by
  rw [skipSpace, List.dropWhile_cons_of_neg (by rw [hc]; exact Bool.false_ne_true)]

/-! ### Numbers -/

/-- What follows a number does not belong to it. -/
def EndsNumber (rest : List Char) : Prop :=
  ∀ c ∈ rest.head?, c.isDigit = false ∧ c ≠ '.' ∧ c ≠ 'e' ∧ c ≠ 'E'

theorem endsNumber_cons {c : Char} (hc : (c.isDigit || c = '.' || c = 'e' || c = 'E') = false)
    (cs : List Char) : EndsNumber (c :: cs) := by
  rintro c' hc'
  cases Option.some.inj hc'
  simpa [and_assoc] using hc

/-- Blanks do not belong to a number. -/
theorem EndsNumber.blank_append (h : IsBlank blank) (hrest : EndsNumber rest) :
    EndsNumber (blank ++ rest) := by
  cases blank with
  | nil => exact hrest
  | cons c blank =>
    have hc : isSpace c := h c List.mem_cons_self
    simp only [isSpace, Bool.or_eq_true, decide_eq_true_eq] at hc
    rcases hc with ((rfl | rfl) | rfl) | rfl <;> exact endsNumber_cons rfl _

section Literal

open Number

variable {whole point fraction exponent tail : List Char} {e : Int} {l : DecimalLiteral} {x : Float}

theorem readWhole?_append (hne : whole ≠ []) (hwhole : ∀ c ∈ whole, c.isDigit)
    (hzero : whole.head? = some '0' → whole = ['0'])
    (htail : ∀ c ∈ tail.head?, c.isDigit = false) :
    readWhole? (whole ++ tail) = some (whole, tail) := by
  obtain ⟨htake, hdrop⟩ := takeWhile_dropWhile_digits hwhole tail htail
  unfold readWhole?
  rw [htake, hdrop]
  dsimp only
  split
  · exact absurd rfl hne
  · cases hzero rfl
  · rfl

theorem readFraction?_append (hpoint : PointText point fraction)
    (hfraction : fraction = [] → point = [])
    (htail : ∀ c ∈ tail.head?, c.isDigit = false ∧ c ≠ '.') :
    readFraction? (point ++ tail) = some (fraction, tail) := by
  cases hpoint with
  | none =>
    rw [List.nil_append]
    unfold readFraction?
    split
    · exact absurd rfl (htail '.' rfl).2
    · rfl
  | some hdigits =>
    obtain ⟨htake, hdrop⟩ := takeWhile_dropWhile_digits hdigits tail fun c hc => (htail c hc).1
    have hne : fraction.isEmpty = false :=
      List.isEmpty_eq_false_iff.mpr fun hnil => List.cons_ne_nil _ _ (hfraction hnil)
    rw [List.cons_append, readFraction?, htake, hdrop, hne]
    rfl

/-- An exponent is read, or none where there is none. -/
theorem readExponent?_append (h : ExponentText exponent e) (hrest : EndsNumber rest) :
    (startsExponent (exponent ++ rest)
        ∧ readExponent? ((exponent ++ rest).drop 1) = some (e, rest))
      ∨ startsExponent (exponent ++ rest) = false ∧ exponent = [] ∧ e = 0 := by
  cases h with
  | none =>
    refine .inr ⟨?_, rfl, rfl⟩
    cases rest with
    | nil => rfl
    | cons c rest => simp [startsExponent, hrest c rfl]
  | @some letter sign digits negative hletter hsign hdigits hne =>
    refine .inl ⟨by simp [startsExponent, hletter], ?_⟩
    obtain ⟨htake, hdrop⟩ := takeWhile_dropWhile_digits hdigits rest fun c hc => (hrest c hc).1
    have hhead : ∀ c ∈ (digits ++ rest).head?, c ≠ '-' ∧ c ≠ '+' := by
      intro c hc
      rw [List.head?_append_of_ne_nil _ hne] at hc
      exact ne_sign_of_isDigit (hdigits c (List.mem_of_mem_head? hc))
    have hdigits' : digits.isEmpty = false := List.isEmpty_eq_false_iff.mpr hne
    rw [List.cons_append, List.drop_one, List.tail_cons, List.append_assoc]
    refine (scanSignedDigits?_eq _).trans ?_
    rw [splitSign_append hsign fun _ => hhead, htake, hdrop, hdigits']
    rfl

theorem head?_exponent_append (h : ExponentText exponent e) (hrest : EndsNumber rest) :
    ∀ c ∈ (exponent ++ rest).head?, c.isDigit = false ∧ c ≠ '.' := by
  intro c hc
  cases h with
  | none => exact ⟨(hrest c hc).1, (hrest c hc).2.1⟩
  | some hletter =>
    cases Option.some.inj hc
    rcases hletter with rfl | rfl <;> decide

theorem head?_point_append (h : PointText point fraction)
    (htail : ∀ c ∈ tail.head?, c.isDigit = false ∧ c ≠ '.') :
    ∀ c ∈ (point ++ tail).head?, c.isDigit = false := by
  intro c hc
  cases h with
  | none => exact (htail c hc).1
  | some =>
    cases Option.some.inj hc
    rfl

/-- A literal is read up to what does not belong to it. -/
theorem UnsignedText.read (h : UnsignedText text l) (hrest : EndsNumber rest) (negative : Bool) :
    ∃ isInteger, readUnsigned? negative (text ++ rest) = some (⟨negative, l, isInteger⟩, rest) := by
  obtain ⟨hne, hwhole, hzero, hpoint, hfraction, hexponent⟩ := h
  next whole point fraction exponent e =>
  have htail := head?_exponent_append hexponent hrest
  have hread := readWhole?_append hne hwhole hzero (head?_point_append hpoint htail)
  unfold readUnsigned?
  rw [List.append_assoc, List.append_assoc, hread]
  simp only [Option.bind_eq_bind, Option.bind_some, readFraction?_append hpoint hfraction htail]
  rcases readExponent?_append hexponent hrest with ⟨hstarts, hread⟩ | ⟨hstarts, rfl, rfl⟩
  · rw [if_pos hstarts, hread]
    exact ⟨false, rfl⟩
  · rw [if_neg (by rw [hstarts]; exact Bool.false_ne_true)]
    exact ⟨fraction.isEmpty, rfl⟩

/-- A literal starts with a digit. -/
theorem UnsignedText.exists_cons (h : UnsignedText text l) :
    ∃ c cs, text = c :: cs ∧ c.isDigit := by
  obtain ⟨hne, hwhole⟩ := h
  next whole point fraction exponent e =>
  obtain ⟨c, cs, rfl⟩ := List.exists_cons_of_ne_nil hne
  exact ⟨c, _, rfl, hwhole c List.mem_cons_self⟩

/-- Each literal becomes the double that it rounds to. -/
def NumberLiteral.IsNearest (number? : NumberLiteral → Option JsonNumber) : Prop :=
  ∀ (l : NumberLiteral) (x : Float), l.digits.RoundsTo x →
    ∃ n, number? l = some n ∧ n.toFloat = applySign l.negative x

/-- The value of a literal is the number that it rounds to. -/
theorem value_of_roundsTo (h : l.RoundsTo x) : l.value = x := by
  rcases h with ⟨hzero, rfl⟩ | ⟨m, e, hp, hx, hv⟩
  · rw [DecimalLiteral.toRat_eq, mul_eq_zero, Nat.cast_eq_zero] at hzero
    have hdigits := hzero.resolve_right (zpow_ne_zero _ (by norm_num))
    rw [DecimalLiteral.value, hdigits]
    rfl
  · refine eq_of_unpack ?_
    rw [hx]
    exact l.unpack_value hp (form_of_unpack hx).1 hv

theorem NumberLiteral.isNearest_nearest : IsNearest nearest? := by
  intro l x h
  refine ⟨_, rfl, ?_⟩
  rw [value_of_roundsTo h]
  rfl

variable {number? : NumberLiteral → Option JsonNumber}

/-- A number is read up to what does not belong to it. -/
theorem SpellsNumber.read (h : SpellsNumber text x) (hnumber : NumberLiteral.IsNearest number?)
    (hrest : EndsNumber rest) :
    ∃ n, readNumber? number? (text ++ rest) = some (n, rest) ∧ n.toFloat = x := by
  cases h with
  | positive htext hx =>
    obtain ⟨isInteger, hread⟩ := htext.read hrest false
    obtain ⟨n, hn, hfloat⟩ := hnumber ⟨false, _, isInteger⟩ _ hx
    obtain ⟨c, cs, hcs, hc⟩ := htext.exists_cons
    have hliteral : readLiteral? (text ++ rest) = readUnsigned? false (text ++ rest) := by
      rw [hcs, List.cons_append, readLiteral?]
      rintro _ ⟨rfl, -⟩
      exact Bool.false_ne_true hc
    refine ⟨n, ?_, hfloat⟩
    rw [readNumber?, hliteral, hread]
    simp only [Option.bind_eq_bind, Option.bind_some, hn]
  | negative htext hx =>
    obtain ⟨isInteger, hread⟩ := htext.read hrest true
    obtain ⟨n, hn, hfloat⟩ := hnumber ⟨true, _, isInteger⟩ _ hx
    refine ⟨n, ?_, hfloat⟩
    rw [List.cons_append, readNumber?, readLiteral?, hread]
    simp only [Option.bind_eq_bind, Option.bind_some, hn]

/-- A number starts with a minus or a digit. -/
theorem SpellsNumber.exists_cons (h : SpellsNumber text x) :
    ∃ c cs, text = c :: cs ∧ (c = '-' ∨ c.isDigit) := by
  cases h with
  | positive htext =>
    obtain ⟨c, cs, hcs, hc⟩ := htext.exists_cons
    exact ⟨c, cs, hcs, .inr hc⟩
  | negative => exact ⟨'-', _, rfl, .inl rfl⟩

end Literal

/-! ### Strings -/

section String

variable {c : Char} {acc : List Char}

/-- A code unit is read from its digits. -/
theorem SpellsUnit.read {u : UInt16} (h : SpellsUnit text u) (rest : List Char) :
    ∃ digits, text = '\\' :: 'u' :: digits ∧ readHex? (digits ++ rest) = some (u.toNat, rest) := by
  cases h with
  | intro ha hb hc hd hu =>
    refine ⟨_, rfl, ?_⟩
    simp only [List.cons_append, List.nil_append, readHex?, ha, hb, hc, hd, hu,
      Option.bind_eq_bind, Option.bind_some]

theorem readPoint?_unit (h : readHex? cs = some (c.toNat, rest)) :
    readPoint? cs = some (c, rest) := by
  have hvalid : c.toNat < 0xD800 ∨ 0xDFFF < c.toNat ∧ c.toNat < 0x110000 := c.valid
  rw [readPoint?, h]
  simp only [Option.bind_eq_bind, Option.bind_some]
  rw [if_neg (by omega), if_neg (by omega), Char.ofNat_toNat]

theorem readPoint?_pair {lead trail : Nat} {low : List Char} (hlarge : 0x10000 ≤ c.toNat)
    (hlead : lead = 0xD800 + (c.toNat - 0x10000) / 0x400)
    (htrail : trail = 0xDC00 + (c.toNat - 0x10000) % 0x400)
    (hhigh : readHex? cs = some (lead, '\\' :: 'u' :: low))
    (hlow : readHex? low = some (trail, rest)) : readPoint? cs = some (c, rest) := by
  have hvalid : c.toNat < 0xD800 ∨ 0xDFFF < c.toNat ∧ c.toNat < 0x110000 := c.valid
  have hvalue : 0x10000 + (lead - 0xD800) * 0x400 + (trail - 0xDC00) = c.toNat := by omega
  rw [readPoint?, hhigh]
  simp only [Option.bind_eq_bind, Option.bind_some, hlow]
  rw [if_neg (by omega), if_pos (by omega), if_pos (by omega), hvalue, Char.ofNat_toNat]

/-- A character is read from the digits of its code units. -/
theorem readPoint?_of_units {texts : List (List Char)}
    (h : List.Forall₂ SpellsUnit texts (Text.charUnits c)) (rest : List Char) :
    ∃ cs, texts.flatten = '\\' :: 'u' :: cs ∧ readPoint? (cs ++ rest) = some (c, rest) := by
  have hvalid : c.toNat < 0xD800 ∨ 0xDFFF < c.toNat ∧ c.toNat < 0x110000 := c.valid
  unfold Text.charUnits at h
  split at h
  · next hsmall =>
    obtain ⟨text, _, hunit, hnil, rfl⟩ := List.forall₂_cons_right_iff.mp h
    cases hnil
    obtain ⟨digits, rfl, hread⟩ := hunit.read rest
    have hu : (UInt16.ofNat c.toNat).toNat = c.toNat := by
      rw [UInt16.toNat_ofNat']
      omega
    exact ⟨digits, by simp, readPoint?_unit (hu ▸ hread)⟩
  · next hlarge =>
    obtain ⟨lead, _, hlead, hrest, rfl⟩ := List.forall₂_cons_right_iff.mp h
    obtain ⟨trail, _, htrail, hnil, rfl⟩ := List.forall₂_cons_right_iff.mp hrest
    cases hnil
    obtain ⟨low, rfl, hlow⟩ := htrail.read rest
    obtain ⟨high, rfl, hhigh⟩ := hlead.read ('\\' :: 'u' :: (low ++ rest))
    have hu : (UInt16.ofNat (0xD800 + (c.toNat - 0x10000) / 0x400)).toNat
        = 0xD800 + (c.toNat - 0x10000) / 0x400 := by
      rw [UInt16.toNat_ofNat']
      omega
    have hv : (UInt16.ofNat (0xDC00 + (c.toNat - 0x10000) % 0x400)).toNat
        = 0xDC00 + (c.toNat - 0x10000) % 0x400 := by
      rw [UInt16.toNat_ofNat']
      omega
    refine ⟨high ++ '\\' :: 'u' :: low, by simp, ?_⟩
    rw [List.append_assoc, List.cons_append, List.cons_append]
    exact readPoint?_pair (Nat.not_lt.mp hlarge) hu hv hhigh hlow

theorem readChars?_escape {cs : List Char} (h : readEscape? cs = some (c, rest)) (fuel : Nat)
    (acc : List Char) :
    readChars? (fuel + 1) acc ('\\' :: cs) = readChars? fuel (c :: acc) rest := by
  rw [readChars?, h]
  rfl

/-- A character is read from what stands for it. -/
theorem SpellsChar.read (h : SpellsChar text c) (fuel : Nat) (acc rest : List Char) :
    readChars? (fuel + 1) acc (text ++ rest) = readChars? fuel (c :: acc) rest := by
  cases h with
  | plain hquote hslash hcontrol =>
    rw [List.singleton_append, readChars?, if_neg (Nat.not_lt.mpr hcontrol)]
    · exact hquote
    · exact hslash
  | letter hmem =>
    refine readChars?_escape ?_ fuel acc
    simp only [escapeLetters, List.mem_cons, Prod.mk.injEq, List.not_mem_nil, or_false] at hmem
    rcases hmem with ⟨rfl, rfl⟩ | ⟨rfl, rfl⟩ | ⟨rfl, rfl⟩ | ⟨rfl, rfl⟩ | ⟨rfl, rfl⟩ | ⟨rfl, rfl⟩ |
      ⟨rfl, rfl⟩ | ⟨rfl, rfl⟩
    all_goals rfl
  | units h =>
    obtain ⟨cs, hcs, hread⟩ := readPoint?_of_units h rest
    have hescape : readEscape? ('u' :: (cs ++ rest)) = some (c, rest) := hread
    rw [hcs]
    exact readChars?_escape hescape fuel acc

theorem readChars?_of_spells {texts : List (List Char)} {s : List Char}
    (h : List.Forall₂ SpellsChar texts s) (acc rest : List Char) (hfuel : s.length < fuel) :
    readChars? fuel acc (texts.flatten ++ '"' :: rest)
      = some (String.ofList (acc.reverse ++ s), rest) := by
  induction h generalizing acc fuel with
  | nil =>
    obtain ⟨fuel, rfl⟩ := Nat.exists_eq_succ_of_ne_zero (Nat.ne_of_gt hfuel)
    rw [List.append_nil]
    rfl
  | cons hc _ ih =>
    obtain ⟨fuel, rfl⟩ := Nat.exists_eq_succ_of_ne_zero (Nat.ne_of_gt (Nat.zero_lt_of_lt hfuel))
    rw [List.flatten_cons, List.append_assoc, Nat.succ_eq_add_one, hc.read,
      ih _ (by simpa using hfuel), List.reverse_cons, List.append_assoc, List.singleton_append]

/-- Something stands for each character. -/
theorem SpellsChar.length_pos (h : SpellsChar text c) : 0 < text.length := by
  cases h with
  | plain => exact Nat.one_pos
  | letter => exact Nat.two_pos
  | units h =>
    obtain ⟨cs, hcs, -⟩ := readPoint?_of_units h []
    rw [hcs]
    exact Nat.succ_pos _

theorem length_le_of_spells {texts : List (List Char)} {s : List Char}
    (h : List.Forall₂ SpellsChar texts s) : s.length ≤ texts.flatten.length := by
  induction h with
  | nil => exact Nat.le_refl 0
  | cons hc _ ih =>
    have hpos := hc.length_pos
    rw [List.flatten_cons, List.length_append, List.length_cons]
    omega

/-- A string is read from its text. -/
theorem readString?_of_spells {s : String} (h : SpellsString text s) (rest : List Char) :
    ∃ inside, text = '"' :: inside ∧ readString? (inside ++ rest) = some (s, rest) := by
  cases h with
  | @intro texts _ h =>
    refine ⟨_, rfl, ?_⟩
    have hle := length_le_of_spells h
    rw [readString?, List.append_assoc, List.singleton_append, readChars?_of_spells h [] rest]
    · rw [List.reverse_nil, List.nil_append, String.ofList_toList]
    · rw [List.length_append]
      omega

/-! ### Quoting -/

theorem digitValue?_hexDigit : ∀ n < 32,
    Number.digitValue? 16 (hexDigit (n / 16)) = some (n / 16)
      ∧ Number.digitValue? 16 (hexDigit n) = some (n % 16) := by
  decide

/-- What a character is escaped to stands for the character. -/
theorem spellsChar_escape (c : Char) : SpellsChar (escape c) c := by
  have hnamed {n : Nat} (h : c.toNat = n) : c = Char.ofNat n := by rw [← h, Char.ofNat_toNat]
  unfold escape
  split_ifs with hquote hslash hn hr ht hb hf hcontrol
  · rw [hquote]
    exact .letter (by decide)
  · rw [hslash]
    exact .letter (by decide)
  · rw [hn]
    exact .letter (by decide)
  · rw [hr]
    exact .letter (by decide)
  · rw [ht]
    exact .letter (by decide)
  · rw [hnamed hb]
    exact .letter (by decide)
  · rw [hnamed hf]
    exact .letter (by decide)
  · obtain ⟨hhigh, hlow⟩ := digitValue?_hexDigit c.toNat hcontrol
    have hunits : Text.charUnits c = [UInt16.ofNat c.toNat] := if_pos (by omega)
    have hu : (UInt16.ofNat c.toNat).toNat
        = ((0 * 16 + 0) * 16 + c.toNat / 16) * 16 + c.toNat % 16 := by
      rw [UInt16.toNat_ofNat']
      omega
    have hunit := SpellsUnit.intro (a := '0') (b := '0') rfl rfl hhigh hlow hu
    have hchar := SpellsChar.units (hunits ▸ List.Forall₂.cons hunit .nil)
    rwa [List.flatten_singleton] at hchar
  · exact .plain hquote hslash (Nat.not_lt.mp hcontrol)

/-- A quoted string spells the string. -/
theorem spellsString_quote (s : String) : SpellsString (quote s).toList s := by
  have hchars : List.Forall₂ SpellsChar (s.toList.map escape) s.toList :=
    List.forall₂_map_left_iff.mpr (List.forall₂_same.mpr fun c _ => spellsChar_escape c)
  have htext : (quote s).toList = '"' :: ((s.toList.map escape).flatten ++ ['"']) := by
    simp [quote, List.flatMap]
  exact htext ▸ .intro hchars

end String

/-! ### Values -/

variable {number? : NumberLiteral → Option JsonNumber}

/-- A text is read as a tree wherever it stands, and no more than blanks are left of it. -/
def Reads (number? : NumberLiteral → Option JsonNumber) (depth : Nat) (text : List Char)
    (t : Json) : Prop :=
  ∀ rest, EndsNumber rest → ∃ t' left, readValue? number? depth (text ++ rest) = some (t', left)
    ∧ skipSpace left = skipSpace rest ∧ t'.floats = t.floats

theorem readValue?_append (h : IsBlank blank) (depth : Nat) (cs : List Char) :
    readValue? number? depth (blank ++ cs) = readValue? number? depth cs := by
  rw [← readValue?_skipSpace, skipSpace_append h, readValue?_skipSpace]

theorem not_isSpace_of_number {c : Char} (hc : c = '-' ∨ c.isDigit) : isSpace c = false := by
  cases h : isSpace c with
  | false => rfl
  | true =>
    simp only [isSpace, Bool.or_eq_true, decide_eq_true_eq] at h
    rcases h with ((rfl | rfl) | rfl) | rfl <;> simp at hc

/-- What starts like a number is read as one. -/
theorem readValue?_of_number {c : Char} (hc : c = '-' ∨ c.isDigit) (depth : Nat)
    (cs : List Char) : readValue? number? depth (c :: cs)
      = (readNumber? number? (c :: cs)).map fun (n, rest) => (.number n, rest) := by
  have hne {c' : Char} (h : (c' == '-' || c'.isDigit) = false) : c ≠ c' := by
    rintro rfl
    simp at h
    simp [h] at hc
  unfold readValue?
  rw [skipSpace_cons (not_isSpace_of_number hc)]
  split
  · next h => exact absurd (List.cons.inj h).1 (hne rfl)
  · next h => exact absurd (List.cons.inj h).1 (hne rfl)
  · next h => exact absurd (List.cons.inj h).1 (hne rfl)
  · next h => exact absurd (List.cons.inj h).1 (hne rfl)
  · next h => exact absurd (List.cons.inj h).1 (hne rfl)
  · next h => exact absurd (List.cons.inj h).1 (hne rfl)
  · rfl

namespace Reads

variable {t : Json}

theorem word (word : String) {c : Char} {cs : List Char} (hcs : word.toList = c :: cs)
    (hread : ∀ rest, readValue? number? depth (c :: rest) = readWord? word t (c :: rest)) :
    Reads number? depth word.toList t := by
  refine fun rest _ => ⟨t, rest, ?_, rfl, rfl⟩
  rw [hcs, List.cons_append, hread, readWord?, ← List.cons_append, ← hcs, if_pos]
  · rw [← String.length_toList, List.drop_left]
  · exact List.isPrefixOf_iff_prefix.mpr (List.prefix_append _ _)

theorem null : Reads number? depth "null".toList .null := by
  refine word "null" (c := 'n') rfl fun rest => ?_
  unfold readValue?
  rfl

theorem bool (b : Bool) : Reads number? depth (if b then "true" else "false").toList (.bool b) := by
  cases b with
  | true =>
    refine word "true" (c := 't') rfl fun rest => ?_
    unfold readValue?
    rfl
  | false =>
    refine word "false" (c := 'f') rfl fun rest => ?_
    unfold readValue?
    rfl

theorem number {n : JsonNumber} (hnumber : NumberLiteral.IsNearest number?)
    (h : SpellsNumber text n.toFloat) : Reads number? depth text (.number n) := by
  intro rest hrest
  obtain ⟨n', hread, hfloat⟩ := h.read hnumber hrest
  obtain ⟨c, cs, rfl, hc⟩ := h.exists_cons
  refine ⟨.number n', rest, ?_, rfl, congrArg (fun x => Json.number (.float x)) hfloat⟩
  rw [List.cons_append] at hread ⊢
  rw [readValue?_of_number hc, hread]
  rfl

theorem string {s : String} (h : SpellsString text s) : Reads number? depth text (.string s) := by
  intro rest _
  obtain ⟨inside, rfl, hread⟩ := readString?_of_spells h rest
  have hvalue (cs : List Char) : readValue? number? depth ('"' :: cs)
      = (readString? cs).map fun r => (.string r.1, r.2) := by
    unfold readValue?
    rfl
  refine ⟨.string s, rest, ?_, rfl, rfl⟩
  rw [List.cons_append, hvalue, hread]
  rfl

theorem blanks {before after : List Char} (hbefore : IsBlank before)
    (h : Reads number? depth text t) (hafter : IsBlank after) :
    Reads number? depth (before ++ (text ++ after)) t := by
  intro rest hrest
  obtain ⟨t', left, hread, hskip, hfloats⟩ := h (after ++ rest) (.blank_append hafter hrest)
  refine ⟨t', left, ?_, hskip.trans (skipSpace_append hafter rest), hfloats⟩
  rw [List.append_assoc, List.append_assoc, readValue?_append hbefore, hread]

end Reads

/-! ### Containers -/

section Steps

variable {item : List Char → Option (Json × List Char)} {left left' next : List Char} {j : Json}
  {js : List Json} {name : String} {before members : List (String × Json)}

theorem readItems?_last (h : item cs = some (j, left)) (hskip : skipSpace left = ']' :: rest) :
    readItems? item (fuel + 1) cs = some ([j], rest) := by
  simp only [readItems?, h, Option.bind_eq_bind, Option.bind_some, hskip]

theorem readItems?_next (h : item cs = some (j, left)) (hskip : skipSpace left = ',' :: left')
    (hrest : readItems? item fuel left' = some (js, rest)) :
    readItems? item (fuel + 1) cs = some (j :: js, rest) := by
  simp only [readItems?, h, Option.bind_eq_bind, Option.bind_some, hskip, hrest]

theorem readMembers?_last (hname : readName? cs = some (name, left'))
    (h : item left' = some (j, left)) (hskip : skipSpace left = '}' :: rest) :
    readMembers? item (fuel + 1) before cs = some (OrderedMap.put name j before, rest) := by
  simp only [readMembers?, hname, h, Option.bind_eq_bind, Option.bind_some, hskip]

theorem readMembers?_next (hname : readName? cs = some (name, left'))
    (h : item left' = some (j, left)) (hskip : skipSpace left = ',' :: next)
    (hrest : readMembers? item fuel (OrderedMap.put name j before) next = some (members, rest)) :
    readMembers? item (fuel + 1) before cs = some (members, rest) := by
  simp only [readMembers?, hname, h, Option.bind_eq_bind, Option.bind_some, hskip, hrest]

/-- The name of a member is read up to its colon. -/
theorem SpellsName.read (h : SpellsName text name) (rest : List Char) :
    readName? (text ++ ':' :: rest) = some (name, rest) := by
  cases h with
  | @intro blank text blank' _ hbefore h hafter =>
    obtain ⟨inside, rfl, hread⟩ := readString?_of_spells h (blank' ++ ':' :: rest)
    have hskip : skipSpace (blank ++ ('"' :: inside ++ blank') ++ ':' :: rest)
        = '"' :: (inside ++ (blank' ++ ':' :: rest)) := by
      rw [List.append_assoc, List.append_assoc, skipSpace_append hbefore]
      exact skipSpace_cons rfl _
    have hcolon : skipSpace (blank' ++ ':' :: rest) = ':' :: rest := by
      rw [skipSpace_append hafter]
      exact skipSpace_cons rfl _
    simp only [readName?, hskip, hread, hcolon, Option.bind_eq_bind, Option.bind_some]

/-- A name starts with a quote. -/
theorem SpellsName.skipSpace_eq (h : SpellsName text name) (rest : List Char) :
    ∃ inside, skipSpace (text ++ rest) = '"' :: inside := by
  cases h with
  | @intro blank text blank' _ hbefore h hafter =>
    obtain ⟨inside, rfl, -⟩ := readString?_of_spells h []
    refine ⟨inside ++ (blank' ++ rest), ?_⟩
    rw [List.append_assoc, List.append_assoc, skipSpace_append hbefore]
    exact skipSpace_cons rfl _

end Steps

/-- Texts with commas in between are no shorter than they are many, but for the last one. -/
theorem length_le_intercalate (texts : List (List Char)) :
    texts.length ≤ ([','].intercalate texts).length + 1 := by
  induction texts with
  | nil => exact Nat.zero_le _
  | cons text texts ih =>
    cases texts with
    | nil => exact Nat.succ_le_succ (Nat.zero_le _)
    | cons next texts =>
      rw [List.intercalate_cons_cons, List.length_append, List.length_append, List.length_cons,
        List.length_singleton]
      omega

section Containers

variable {items : List (List Char × Json)} {members : List MemberText}

/-- The items of an array are read one after the other. -/
theorem readItems?_intercalate (hblank : IsBlank blank) (i : List Char × Json)
    (h : ∀ j ∈ i :: items, Reads number? depth j.1 j.2) (rest : List Char)
    (hfuel : items.length < fuel) :
    ∃ js, readItems? (readValue? number? depth) fuel
        ([','].intercalate ((i :: items).map Prod.fst) ++ (blank ++ ']' :: rest))
        = some (js, rest)
      ∧ js.map floats = ((i :: items).map Prod.snd).map floats := by
  induction items generalizing i fuel with
  | nil =>
    obtain ⟨fuel, rfl⟩ := Nat.exists_eq_succ_of_ne_zero (Nat.ne_of_gt hfuel)
    obtain ⟨j, left, hread, hskip, hj⟩ := h i List.mem_cons_self (blank ++ ']' :: rest)
      (.blank_append hblank (endsNumber_cons rfl rest))
    rw [List.map_singleton, List.intercalate_singleton]
    refine ⟨[j], readItems?_last hread ?_, ?_⟩
    · rw [hskip, skipSpace_append hblank, skipSpace_cons rfl]
    · rw [List.map_singleton, List.map_singleton, List.map_singleton, hj]
  | cons next items ih =>
    obtain ⟨fuel, rfl⟩ := Nat.exists_eq_succ_of_ne_zero (Nat.ne_of_gt (Nat.zero_lt_of_lt hfuel))
    obtain ⟨hi, h⟩ := List.forall_mem_cons.mp h
    obtain ⟨js, hreads, hjs⟩ := ih next h (Nat.lt_of_succ_lt_succ hfuel)
    obtain ⟨j, left, hread, hskip, hj⟩ := hi (',' :: ([','].intercalate
      ((next :: items).map Prod.fst) ++ (blank ++ ']' :: rest))) (endsNumber_cons rfl _)
    rw [List.map_cons, List.map_cons, List.intercalate_cons_cons, ← List.map_cons,
      List.append_assoc, List.append_assoc, List.singleton_append]
    refine ⟨j :: js, readItems?_next hread (hskip.trans (skipSpace_cons rfl _)) hreads, ?_⟩
    rw [List.map_cons, List.map_cons, List.map_cons, hj, hjs]

/-- The members of an object are read one after the other, each after those with other names. -/
theorem readMembers?_intercalate (hblank : IsBlank blank) (m : MemberText)
    (hname : ∀ m' ∈ m :: members, SpellsName m'.nameText m'.name)
    (h : ∀ m' ∈ m :: members, Reads number? depth m'.valueText m'.value)
    (before : List (String × Json))
    (hnames : (before.map Prod.fst ++ (m :: members).map MemberText.name).Nodup)
    (rest : List Char) (hfuel : members.length < fuel) :
    ∃ ms, readMembers? (readValue? number? depth) fuel before
        ([','].intercalate ((m :: members).map MemberText.text) ++ (blank ++ '}' :: rest))
        = some (before ++ ms, rest)
      ∧ ms.map (fun m => (m.1, m.2.floats))
        = (m :: members).map fun m => (m.name, m.value.floats) := by
  have hnew : m.name ∉ before.map Prod.fst :=
    fun hmem => (List.nodup_append.mp hnames).2.2 _ hmem _ List.mem_cons_self rfl
  induction members generalizing m before fuel with
  | nil =>
    obtain ⟨fuel, rfl⟩ := Nat.exists_eq_succ_of_ne_zero (Nat.ne_of_gt hfuel)
    obtain ⟨j, left, hread, hskip, hj⟩ := h m List.mem_cons_self (blank ++ '}' :: rest)
      (.blank_append hblank (endsNumber_cons rfl rest))
    refine ⟨[(m.name, j)], ?_, by rw [List.map_singleton, List.map_singleton, hj]⟩
    rw [← OrderedMap.put_of_notMem hnew, List.map_singleton, List.intercalate_singleton,
      MemberText.text, List.append_assoc, List.cons_append]
    refine readMembers?_last ((hname m List.mem_cons_self).read _) hread ?_
    rw [hskip, skipSpace_append hblank, skipSpace_cons rfl]
  | cons next members ih =>
    obtain ⟨fuel, rfl⟩ := Nat.exists_eq_succ_of_ne_zero (Nat.ne_of_gt (Nat.zero_lt_of_lt hfuel))
    obtain ⟨hm, hname⟩ := List.forall_mem_cons.mp hname
    obtain ⟨hvalue, h⟩ := List.forall_mem_cons.mp h
    obtain ⟨j, left, hread, hskip, hj⟩ := hvalue (',' :: ([','].intercalate
      ((next :: members).map MemberText.text) ++ (blank ++ '}' :: rest))) (endsNumber_cons rfl _)
    have hnames' : ((before ++ [(m.name, j)]).map Prod.fst
        ++ (next :: members).map MemberText.name).Nodup := by
      rw [List.map_append, List.append_assoc]
      exact hnames
    obtain ⟨ms, hreads, hms⟩ := ih next hname h (before ++ [(m.name, j)]) hnames'
      (Nat.lt_of_succ_lt_succ hfuel)
      fun hmem => (List.nodup_append.mp hnames').2.2 _ hmem _ List.mem_cons_self rfl
    refine ⟨(m.name, j) :: ms, ?_, by rw [List.map_cons, List.map_cons, hj, hms]⟩
    rw [List.append_assoc before, List.singleton_append, ← OrderedMap.put_of_notMem hnew] at hreads
    rw [List.map_cons, List.map_cons, List.intercalate_cons_cons, ← List.map_cons,
      List.append_assoc, List.append_assoc, List.singleton_append, MemberText.text,
      List.append_assoc, List.cons_append]
    exact readMembers?_next (hm.read _) hread (hskip.trans (skipSpace_cons rfl _)) hreads

/-! #### Brackets -/

theorem readValue?_array_nil (h : skipSpace cs = ']' :: rest) (depth : Nat) :
    readValue? number? (depth + 1) ('[' :: cs) = some (.array [], rest) := by
  have hskip : skipSpace ('[' :: cs) = '[' :: cs := skipSpace_cons rfl cs
  simp only [readValue?, hskip, h]

theorem readValue?_array (h : ∀ rest, skipSpace cs ≠ ']' :: rest) (depth : Nat) :
    readValue? number? (depth + 1) ('[' :: cs)
      = (readItems? (readValue? number? depth) (cs.length + 1) cs).map
          fun (js, rest) => (.array js, rest) := by
  have hskip : skipSpace ('[' :: cs) = '[' :: cs := skipSpace_cons rfl cs
  simp only [readValue?, hskip]

theorem readValue?_object_nil (h : skipSpace cs = '}' :: rest) (depth : Nat) :
    readValue? number? (depth + 1) ('{' :: cs) = some (.object [], rest) := by
  have hskip : skipSpace ('{' :: cs) = '{' :: cs := skipSpace_cons rfl cs
  simp only [readValue?, hskip, h]

theorem readValue?_object (h : ∀ rest, skipSpace cs ≠ '}' :: rest) (depth : Nat) :
    readValue? number? (depth + 1) ('{' :: cs)
      = (readMembers? (readValue? number? depth) (cs.length + 1) [] cs).map
          fun (members, rest) => (.object members, rest) := by
  have hskip : skipSpace ('{' :: cs) = '{' :: cs := skipSpace_cons rfl cs
  simp only [readValue?, hskip]

/-- No value starts with a closing bracket. -/
theorem skipSpace_ne_of_readValue? {t : Json} {left : List Char}
    (h : readValue? number? depth cs = some (t, left)) (rest : List Char) :
    skipSpace cs ≠ ']' :: rest := by
  intro hskip
  unfold readValue? at h
  rw [hskip] at h
  cases h

namespace Reads

/-- An array is read from the texts of its items. -/
theorem array (h : ∀ i ∈ items, Reads number? depth i.1 i.2) (hblank : IsBlank blank) :
    Reads number? (depth + 1)
      ('[' :: ([','].intercalate (items.map Prod.fst) ++ (blank ++ [']'])))
      (.array (items.map Prod.snd)) := by
  intro rest _
  rw [List.cons_append, List.append_assoc, List.append_assoc, List.singleton_append]
  cases items with
  | nil =>
    have hskip : skipSpace ([','].intercalate [] ++ (blank ++ ']' :: rest)) = ']' :: rest :=
      (skipSpace_append hblank _).trans (skipSpace_cons rfl rest)
    exact ⟨_, rest, readValue?_array_nil hskip depth, rfl, rfl⟩
  | cons i items =>
    have hfuel : items.length < ([','].intercalate ((i :: items).map Prod.fst)
        ++ (blank ++ ']' :: rest)).length + 1 := by
      have hle := length_le_intercalate ((i :: items).map Prod.fst)
      rw [List.length_map, List.length_cons] at hle
      rw [List.length_append]
      omega
    obtain ⟨js, hreads, hjs⟩ := readItems?_intercalate hblank i h rest hfuel
    have hitem : ∃ j left, readValue? number? depth ([','].intercalate
        ((i :: items).map Prod.fst) ++ (blank ++ ']' :: rest)) = some (j, left) := by
      rw [readItems?] at hreads
      obtain ⟨⟨j, left⟩, hread, -⟩ := Option.bind_eq_some_iff.mp hreads
      exact ⟨j, left, hread⟩
    obtain ⟨j, left, hread⟩ := hitem
    refine ⟨.array js, rest, ?_, rfl, by rw [floats_array, floats_array, hjs]⟩
    rw [readValue?_array (skipSpace_ne_of_readValue? hread), hreads]
    rfl

/-- An object is read from the texts of its members. -/
theorem object (hnames : (members.map MemberText.name).Nodup)
    (hname : ∀ m ∈ members, SpellsName m.nameText m.name)
    (h : ∀ m ∈ members, Reads number? depth m.valueText m.value) (hblank : IsBlank blank) :
    Reads number? (depth + 1)
      ('{' :: ([','].intercalate (members.map MemberText.text) ++ (blank ++ ['}'])))
      (.object (members.map fun m => (m.name, m.value))) := by
  intro rest _
  rw [List.cons_append, List.append_assoc, List.append_assoc, List.singleton_append]
  cases members with
  | nil =>
    have hskip : skipSpace ([','].intercalate [] ++ (blank ++ '}' :: rest)) = '}' :: rest :=
      (skipSpace_append hblank _).trans (skipSpace_cons rfl rest)
    exact ⟨_, rest, readValue?_object_nil hskip depth, rfl, rfl⟩
  | cons m members =>
    have hfuel : members.length < ([','].intercalate ((m :: members).map MemberText.text)
        ++ (blank ++ '}' :: rest)).length + 1 := by
      have hle := length_le_intercalate ((m :: members).map MemberText.text)
      rw [List.length_map, List.length_cons] at hle
      rw [List.length_append]
      omega
    obtain ⟨ms, hreads, hms⟩ :=
      readMembers?_intercalate hblank m hname h [] hnames rest hfuel
    have hquote : ∃ inside, skipSpace ([','].intercalate ((m :: members).map MemberText.text)
        ++ (blank ++ '}' :: rest)) = '"' :: inside := by
      obtain ⟨more, hmore⟩ : ∃ more, [','].intercalate ((m :: members).map MemberText.text)
          = m.nameText ++ more := by
        cases members with
        | nil => exact ⟨_, List.intercalate_singleton⟩
        | cons next members =>
          rw [List.map_cons, List.map_cons, List.intercalate_cons_cons, MemberText.text,
            List.append_assoc, List.append_assoc]
          exact ⟨_, rfl⟩
      rw [hmore, List.append_assoc]
      exact (hname m List.mem_cons_self).skipSpace_eq _
    obtain ⟨inside, hquote⟩ := hquote
    refine ⟨.object ms, rest, ?_, rfl, ?_⟩
    · rw [readValue?_object (by rw [hquote]; exact nofun), hreads]
      rfl
    · rw [floats_object, floats_object, hms, List.map_map]
      rfl

end Reads

end Containers

/-! ### The library -/

/-- Every text of a tree is read as the tree. -/
theorem Spells.reads {t : Json} (h : Spells depth text t)
    (hnumber : NumberLiteral.IsNearest number?) : Reads number? depth text t := by
  induction h with
  | null => exact .null
  | bool b => exact .bool b
  | number h => exact .number hnumber h
  | string h => exact .string h
  | array _ hblank ih => exact .array ih hblank
  | object hnames hname _ hblank ih => exact .object hnames hname ih hblank
  | blanks hbefore _ hafter ih => exact .blanks hbefore ih hafter

/-- The library of the reader is correct if the number of a literal is the nearest double. -/
theorem Library.correct_reading (hnumber : NumberLiteral.IsNearest number?) :
    (Library.reading number?).Correct maxDepth where
  parse text t h := by
    obtain ⟨t', left, hread, hskip, hfloats⟩ := h.reads hnumber [] fun c hc => by cases hc
    have hparse : parseWithin? number? maxDepth text = some t' := by
      rw [List.append_nil] at hread
      rw [parseWithin?, hread]
      simp only [Option.bind_eq_bind, Option.bind_some, hskip]
      rfl
    refine ⟨t', ?_, hfloats⟩
    unfold reading
    simp only [hparse]
  quote := spellsString_quote

end ScriptEngine.Json
