import Mathlib
import ScriptEngine.Proofs.ExactValue
import ScriptEngine.Proofs.NumberText
import ScriptEngine.Proofs.NumericGrammar

/-!
# Reading numeric texts

A text is read as a number if and only if it is a numeric text; no literal, however long its digits
and however large its exponent, is read as anything that is not a number. What is read off the start
of a text is the number that the longest literal there is read as on its own.

## Main results

* `Number.isNaN_ofScientific`, `Number.isNaN_foldl_pushDigit`: reading digits gives a number.
* `Number.isNaN_ofTrimmed_iff`: which texts are read as numbers.
* `Number.ofText_decimal`: a literal with its sign.
* `Number.numericText_read`: which texts are read as numbers, and what is read off the start of a
  text.
-/

namespace ScriptEngine.Number

open Float.Model Float.Model.UnpackedFloat

/-! ### Arithmetic that gives a number -/

section Arithmetic

variable {u : UnpackedFloat}

/-- Bits with the greatest exponent stand for a number if their mantissa is zero. -/
theorem isNaN_unpack {b : BitVec 64}
    (h : @unpackExponent .binary64 b = -1#11 → @unpackMantissa .binary64 b = 0#52) :
    (UnpackedFloat.unpack .binary64 b).isNaN = false := by
  unfold UnpackedFloat.unpack
  dsimp only
  split
  · next hexponent =>
    rw [if_pos (h hexponent)]
    rfl
  · split
    · split <;> rfl
    · rfl

/-- Packing a number gives one. -/
theorem isNaN_unpack_pack (h : u.isNaN = false) : (Float.Model.pack u).unpack.isNaN = false := by
  refine isNaN_unpack (b := UnpackedFloat.pack .binary64 u) fun hexponent => ?_
  cases u with
  | notANumber => cases h
  | infinity s => exact unpackMantissa_packComponents
  | zero s => exact unpackMantissa_packComponents
  | finite s m e hp =>
    unfold UnpackedFloat.pack at hexponent ⊢
    dsimp only at hexponent ⊢
    split_ifs at hexponent ⊢ with hlarge hnormal
    · exact unpackMantissa_packComponents
    · have hbits := congrArg BitVec.toNat (unpackExponent_packComponents.symm.trans hexponent)
      simp only [BitVec.toNat_ofNat, BitVec.neg_one_eq_allOnes, BitVec.toNat_allOnes] at hbits
      omega
    · exact absurd (unpackExponent_packComponents.symm.trans hexponent) (by decide)

theorem isNaN_roundWithAccuracy (s : Sign) (m : Nat) (e : Int) (a : Accuracy) :
    (roundWithAccuracy .binary64 s m e a).isNaN = false := by
  unfold roundWithAccuracy
  dsimp only
  split <;> rfl

theorem isNaN_normalize (z e : Int) (s : Sign) :
    (UnpackedFloat.normalize .binary64 z e s).isNaN = false := by
  unfold UnpackedFloat.normalize
  split
  · exact isNaN_roundWithAccuracy _ _ _ _
  · rfl
  · exact isNaN_roundWithAccuracy _ _ _ _

section Unpacked

variable {u u' : UnpackedFloat} (h : u.isNaN = false)

include h

/-- A sum with a finite number. -/
theorem isNaN_unpackedAdd (h' : u'.isFinite = true) :
    (UnpackedFloat.add .binary64 u u').isNaN = false := by
  cases u with
  | notANumber => cases h
  | infinity s => cases u' <;> first | rfl | cases h'
  | zero s =>
    cases u' with
    | zero s' => cases s <;> cases s' <;> rfl
    | finite => rfl
    | _ => cases h'
  | finite s m e hp =>
    cases u' with
    | zero => rfl
    | finite => exact isNaN_normalize _ _ _
    | _ => cases h'

/-- A product with a positive finite number. -/
theorem isNaN_unpackedMul {s : Sign} {m : Nat} {e : Int} (hp : 0 < m) :
    (UnpackedFloat.mul .binary64 u (.finite s m e hp)).isNaN = false := by
  cases u with
  | notANumber => cases h
  | finite => exact isNaN_roundWithAccuracy _ _ _ _
  | _ => rfl

/-- A quotient by a positive finite number. -/
theorem isNaN_unpackedDiv {s : Sign} {m : Nat} {e : Int} (hp : 0 < m) :
    (UnpackedFloat.div .binary64 u (.finite s m e hp)).isNaN = false := by
  cases u with
  | notANumber => cases h
  | finite => exact isNaN_roundWithAccuracy _ _ _ _
  | _ => rfl

end Unpacked

theorem isNaN_unpackedOfScientific (m : Nat) (e : Int) :
    (UnpackedFloat.ofScientific .binary64 m e).isNaN = false := by
  unfold UnpackedFloat.ofScientific
  split_ifs
  · rfl
  · rfl
  · rfl
  · exact isNaN_unpackedMul rfl _
  · exact isNaN_unpackedDiv rfl _

variable {x : Float}

theorem isNaN_applySign (h : x.isNaN = false) (negative : Bool) :
    (applySign negative x).isNaN = false := by
  cases negative with
  | false => exact h
  | true =>
    refine isNaN_unpack_pack (u := UnpackedFloat.neg x.toModel.unpack) ?_
    have h : x.toModel.unpack.isNaN = false := h
    generalize x.toModel.unpack = u at h
    cases u with
    | notANumber => cases h
    | _ => rfl

/-- A decimal is read as a number, infinity at most. -/
theorem isNaN_ofScientific (m : Nat) (e : Int) : (ofScientific m e).isNaN = false := by
  unfold ofScientific
  split
  · rfl
  · dsimp only
    split
    · rfl
    · split
      · rfl
      · unfold Float.ofScientific
        split
        · next hshort =>
          have hfinite : m.toUInt64.toFloat.toModel.unpack.isNaN = false := by
            rw [unpack_toFloat hshort.1]
            split <;> rfl
          dsimp only
          split
          · refine isNaN_unpack_pack (u := UnpackedFloat.div .binary64 _ _) ?_
            rw [unpack_powerOfTen]
            exact isNaN_unpackedDiv hfinite _
          · refine isNaN_unpack_pack (u := UnpackedFloat.mul .binary64 _ _) ?_
            rw [unpack_powerOfTen]
            exact isNaN_unpackedMul hfinite _
        · exact isNaN_unpack_pack (isNaN_unpackedOfScientific _ _)

/-- Digits are accumulated to a number, infinity at most. -/
theorem isNaN_foldl_pushDigit {radix : Nat} (hpos : 0 < radix) (hlt : radix < 2 ^ 53)
    {ds : List Nat} (hds : ∀ d ∈ ds, d < radix) (hx : x.isNaN = false) :
    (ds.foldl (pushDigit radix) x).isNaN = false := by
  induction ds generalizing x with
  | nil => exact hx
  | cons d ds ih =>
    obtain ⟨hd, hds⟩ := List.forall_mem_cons.mp hds
    refine ih hds ?_
    refine isNaN_unpack_pack (u := UnpackedFloat.add .binary64 _ _) (isNaN_unpackedAdd ?_ ?_)
    · refine isNaN_unpack_pack (u := UnpackedFloat.mul .binary64 _ _) ?_
      rw [unpack_ofNat hpos hlt]
      exact isNaN_unpackedMul hx _
    · exact (hasValue_ofNat (hd.trans hlt)).isFinite

end Arithmetic

/-! ### Texts from end to end -/

section Trimmed

variable {sign cs text digits : List Char} {negative : Bool} {radix : Nat} {l : DecimalLiteral}

theorem DecimalText.mem_signed (hsign : SignText sign negative) (h : DecimalText text l) {c : Char}
    (hc : c ∈ sign ++ text) : c.isDigit ∨ c = '.' ∨ c = 'e' ∨ c = 'E' ∨ c = '+' ∨ c = '-' := by
  rcases List.mem_append.mp hc with hc | hc
  · exact .inr (.inr (.inr (.inr (hsign.mem hc))))
  · exact h.mem hc

theorem DecimalText.splitRadixPrefix?_eq_none (hsign : SignText sign negative)
    (h : DecimalText text l) : splitRadixPrefix? (sign ++ text) = none := by
  refine Number.splitRadixPrefix?_eq_none fun c hc => ?_
  have hchar := h.mem_signed hsign hc
  simp only [radixLetters, List.map_cons, List.map_nil, List.mem_cons, List.not_mem_nil, or_false]
  rintro (rfl | rfl | rfl | rfl | rfl | rfl)
  all_goals exact absurd hchar (by decide)

theorem forall_head?_infinityName : ∀ c ∈ infinityName.head?, c ≠ '-' ∧ c ≠ '+' := by
  have hhead : infinityName.head? = some 'I' := rfl
  intro c hc
  rw [hhead] at hc
  cases hc
  decide

theorem splitRadixPrefix?_infinityName (hsign : SignText sign negative) :
    splitRadixPrefix? (sign ++ infinityName) = none := by
  cases hsign <;> rfl

theorem DecimalText.splitSign_eq (hsign : SignText sign negative) (h : DecimalText text l) :
    splitSign (sign ++ text) = (negative, text) := by
  obtain ⟨c, cs, rfl, hc⟩ := h.exists_cons
  refine splitSign_append hsign fun _ d hd => ?_
  cases hd
  rcases hc with hc | rfl
  · exact ne_sign_of_isDigit hc
  · decide

/-- After the letter of a radix come its digits. -/
theorem NumericText.of_radixPrefix (h : NumericText cs)
    (hsplit : splitRadixPrefix? cs = some (radix, digits)) :
    ∀ c ∈ digits, IsRadixDigit radix c := by
  cases h with
  | empty => cases hsplit
  | radix hletter hne hdigits =>
    rw [splitRadixPrefix?_eq_some_iff.mpr ⟨_, hletter, rfl, hne⟩] at hsplit
    cases hsplit
    exact hdigits
  | infinity hsign =>
    rw [splitRadixPrefix?_infinityName hsign] at hsplit
    cases hsplit
  | decimal hsign htext =>
    obtain ⟨l, hl⟩ := htext
    rw [hl.splitRadixPrefix?_eq_none hsign] at hsplit
    cases hsplit

/-- Without the letter of a radix, the name of infinity or a literal comes after the sign. -/
theorem NumericText.of_signed (h : NumericText cs) (hne : cs ≠ [])
    (hsplit : splitRadixPrefix? cs = none) :
    (splitSign cs).2 = infinityName ∨ IsDecimal (splitSign cs).2 := by
  cases h with
  | empty => exact absurd rfl hne
  | radix hletter hdigits =>
    rw [splitRadixPrefix?_eq_some_iff.mpr ⟨_, hletter, rfl, hdigits⟩] at hsplit
    cases hsplit
  | infinity hsign =>
    left
    rw [splitSign_append hsign fun _ => forall_head?_infinityName]
  | decimal hsign htext =>
    obtain ⟨l, hl⟩ := htext
    rw [hl.splitSign_eq hsign]
    exact .inr ⟨l, hl⟩

/-- What comes after the letter of a radix is read as a number if and only if all of it is digits. -/
theorem isNaN_ofRadixDigits?_iff (hne : digits ≠ []) (hpos : 0 < radix) (hle : radix ≤ 16) :
    ((ofRadixDigits? radix digits).getD nan).isNaN = false
      ↔ ∀ c ∈ digits, IsRadixDigit radix c := by
  rw [← exists_mapM_digitValue?_iff (by omega)]
  cases hread : digits.mapM (digitValue? radix) with
  | none =>
    have hnone : ofRadixDigits? radix digits = none := by
      rw [ofRadixDigits?, hread, if_neg (by rwa [List.isEmpty_iff])]
      rfl
    rw [hnone]
    refine iff_of_false (by decide) ?_
    rintro ⟨ds, hds⟩
    cases hds
  | some ds =>
    rw [ofRadixDigits?_eq_some hne hread, Option.getD_some]
    refine iff_of_true ?_ ⟨ds, rfl⟩
    exact isNaN_foldl_pushDigit hpos (by omega) (lt_of_forall₂ (mapM_digitValue?_iff.mp hread)) rfl

/-- A text with the letter of a radix is read as a number if and only if it is a numeric text. -/
theorem isNaN_ofTrimmed_iff_of_radixPrefix (hsplit : splitRadixPrefix? cs = some (radix, digits)) :
    (ofTrimmed cs).isNaN = false ↔ NumericText cs := by
  obtain ⟨letter, hletter, hcs, hdigits⟩ := splitRadixPrefix?_eq_some_iff.mp hsplit
  have hradix : 0 < radix ∧ radix ≤ 16 := by
    have hall : ∀ entry ∈ radixLetters, 0 < entry.2 ∧ entry.2 ≤ 16 := by decide
    exact hall _ hletter
  have hread : ofTrimmed cs = (ofRadixDigits? radix digits).getD nan := by
    rw [ofTrimmed, hsplit, if_neg (by simp [hcs])]
  rw [hread, isNaN_ofRadixDigits?_iff hdigits hradix.1 hradix.2]
  exact ⟨fun h => hcs ▸ .radix hletter hdigits h, fun h => h.of_radixPrefix hsplit⟩

/-- A trimmed text is read as a number if and only if it is a numeric text. -/
theorem isNaN_ofTrimmed_iff (cs : List Char) : (ofTrimmed cs).isNaN = false ↔ NumericText cs := by
  cases hsplit : splitRadixPrefix? cs with
  | some prefixed => exact isNaN_ofTrimmed_iff_of_radixPrefix hsplit
  | none =>
    unfold ofTrimmed
    split
    · next hempty =>
      rw [List.isEmpty_iff.mp hempty]
      exact iff_of_true rfl .empty
    · next hne =>
      rw [List.isEmpty_iff] at hne
      obtain ⟨sign, hsign, hcs⟩ := exists_signText cs
      simp only [hsplit]
      split
      · next hname =>
        rw [hname] at hcs
        exact iff_of_true (isNaN_applySign rfl _) (hcs ▸ .infinity hsign)
      · next hname =>
        split
        · next l hscan =>
          obtain ⟨text, htext, hrest⟩ := exists_decimalText hscan
          rw [hrest, List.append_nil] at hcs
          exact iff_of_true (isNaN_applySign (isNaN_ofScientific _ _) _)
            (hcs ▸ .decimal hsign ⟨l, htext⟩)
        · next hscan =>
          refine iff_of_false (by decide) fun h => ?_
          rcases h.of_signed hne hsplit with h | ⟨l, hl⟩
          · exact hname h
          · exact hscan l (scanDecimal?_of_decimalText hl)

theorem DecimalText.ne_infinityName (h : DecimalText text l) : text ≠ infinityName := by
  obtain ⟨c, cs, rfl, hc⟩ := h.exists_cons
  intro heq
  obtain rfl : c = 'I' := (List.cons.inj heq).1
  exact absurd hc (by decide)

/-- A literal is read with its sign. -/
theorem ofTrimmed_decimal (hsign : SignText sign negative) (h : DecimalText text l) :
    ofTrimmed (sign ++ text) = applySign negative l.value := by
  have hne : ¬(sign ++ text).isEmpty := by
    obtain ⟨c, cs, rfl, -⟩ := h.exists_cons
    simp
  unfold ofTrimmed
  rw [if_neg hne, h.splitRadixPrefix?_eq_none hsign, h.splitSign_eq hsign]
  dsimp only
  rw [if_neg h.ne_infinityName, scanDecimal?_of_decimalText h]

theorem ofText_decimal (hsign : SignText sign negative) (h : DecimalText text l) :
    ofText (String.ofList (sign ++ text)) = applySign negative l.value := by
  have hblank : ∀ c ∈ sign ++ text, Text.isBlank c = false := by
    intro c hc
    refine isBlank_eq_false ?_
    rcases h.mem_signed hsign hc with hc | rfl | rfl | rfl | rfl | rfl
    · have hrange : 48 ≤ c.toNat ∧ c.toNat ≤ 57 := Char.isDigit_iff_toNat.mp hc
      omega
    all_goals decide
  rw [ofText, trim_of_forall (by rwa [String.toList_ofList]), String.toList_ofList,
    ofTrimmed_decimal hsign h]

end Trimmed

/-! ### The start of a text -/

section Start

variable {s : String} {sign u : List Char} {negative : Bool}

theorem parseFloat_eq (hs : (Text.trim s).toList = sign ++ u) (hsign : SignText sign negative)
    (hhead : sign = [] → ∀ c ∈ u.head?, c ≠ '-' ∧ c ≠ '+') (hname : ¬infinityName <+: u) :
    parseFloat s = match scanDecimal? u with
      | some (literal, _) => applySign negative literal.value
      | none => nan := by
  unfold parseFloat
  rw [hs, splitSign_append hsign hhead]
  dsimp only
  rw [if_neg (by rwa [List.isPrefixOf_iff_prefix])]
  have hsearch := literalRest?_scan u
  cases hscan : scanDecimal? u with
  | none =>
    rw [hscan] at hsearch
    rw [hsearch]
  | some found =>
    rw [hscan] at hsearch
    -- the literal that the search found is scanned once more, on its own
    obtain ⟨text, left, hleft, hu, htext⟩ := hsearch
    have htake : u.take (u.length - left.length) = text := by
      rw [hu, List.length_append, Nat.add_sub_cancel, List.take_left]
    rw [hleft]
    dsimp only
    rw [htake, scanDecimal?_of_decimalText htext]

end Start

/-- A string is read as a number if and only if it is a numeric text once it is trimmed, and the
literals among these are told by their own scanner. Off the start of a string, behind a sign or none
and if it is not the name of infinity, the longest literal is read, as the number that it is read as
on its own; if there is none, the result is not a number. -/
theorem numericText_read (s : String) :
    ((ofText s).isNaN = false ↔ NumericText (Text.trim s).toList)
      ∧ (∀ cs, isDecimalLiteral cs ↔ IsDecimal cs)
      ∧ ∀ (sign u : List Char) (negative : Bool), SignText sign negative →
        (Text.trim s).toList = sign ++ u → (sign = [] → ∀ c ∈ u.head?, c ≠ '-' ∧ c ≠ '+') →
        ¬infinityName <+: u →
        ((parseFloat s).isNaN ↔ ∀ p, p <+: u → ¬IsDecimal p)
        ∧ ((parseFloat s).isNaN = false → ∃ p, IsLongestPrefix IsDecimal p u
          ∧ parseFloat s = ofText (String.ofList (sign ++ p))
          ∧ parseFloat s = applySign negative (ofText (String.ofList p))) := by
  refine ⟨isNaN_ofTrimmed_iff _, fun cs => isDecimalLiteral_iff, ?_⟩
  intro sign u negative hsign hs hhead hname
  rw [parseFloat_eq hs hsign hhead hname, ← scanDecimal?_eq_none_iff]
  cases hscan : scanDecimal? u with
  | none =>
    dsimp only
    have hnan : nan.isNaN = true := rfl
    rw [hnan]
    exact ⟨iff_of_true rfl rfl, fun h => absurd h.symm Bool.false_ne_true⟩
  | some found =>
    obtain ⟨l, rest⟩ := found
    dsimp only
    obtain ⟨p, hp, hlongest⟩ := isLongestPrefix_of_scanDecimal? hscan
    have hnumber : (applySign negative l.value).isNaN = false :=
      isNaN_applySign (isNaN_ofScientific _ _) _
    have halone := ofText_decimal .none hp
    rw [List.nil_append, applySign, if_neg Bool.false_ne_true] at halone
    rw [hnumber]
    refine ⟨iff_of_false Bool.false_ne_true (Option.some_ne_none _),
      fun _ => ⟨p, hlongest, (ofText_decimal hsign hp).symm, ?_⟩⟩
    rw [halone]

/-- An exponent without digits does not belong to the literal. -/
theorem numericText_read_brokenExponent :
    (Text.trim " -1.5e+x").toList = ['-'] ++ "1.5e+x".toList
      ∧ ¬infinityName <+: "1.5e+x".toList
      ∧ IsLongestPrefix IsDecimal "1.5".toList "1.5e+x".toList
      ∧ parseFloat " -1.5e+x" = ofText (String.ofList ('-' :: "1.5".toList)) := by
  have hs : (Text.trim " -1.5e+x").toList = ['-'] ++ "1.5e+x".toList := by decide
  have hname : ¬infinityName <+: "1.5e+x".toList := by decide
  have hnumber : (parseFloat " -1.5e+x").isNaN = false := by decide +kernel
  obtain ⟨p, hlongest, hread, -⟩ := ((numericText_read " -1.5e+x").2.2 ['-'] "1.5e+x".toList true
    .minus hs (fun h => absurd h (List.cons_ne_nil _ _)) hname).2 hnumber
  have hp : p = "1.5".toList := by
    have htake := List.prefix_iff_eq_take.mp hlongest.isPrefix
    have hlow := (hlongest.longest "1.5".toList (by decide)
      (isDecimalLiteral_iff.mp (by decide))).length_le
    have hhigh := hlongest.isPrefix.length_le
    have hliteral := isDecimalLiteral_iff.mpr hlongest.holds
    rw [htake] at hliteral ⊢
    generalize p.length = n at *
    replace hlow : 3 ≤ n := hlow
    replace hhigh : n ≤ 6 := hhigh
    interval_cases n
    · rfl
    all_goals exact absurd hliteral (by decide)
  rw [hp] at hlongest hread
  exact ⟨hs, hname, hlongest, hread⟩

end ScriptEngine.Number
