import ScriptEngine.Proofs.JsonGrammar
import ScriptEngine.Proofs.JsonText

/-!
# What a serializer writes is JSON

Where strings are quoted well and the indentation is blank, the text of a tree spells the tree. The
line break before a part and the blanks after a colon are blanks around values.

## Main results

* `Json.spellsNumber_toText`: the text of a number spells the number.
* `Serializer.spells_text`: the text of a tree spells the tree.
-/

namespace ScriptEngine

/-! ### Numbers -/

namespace Json

open Number

variable {text : List Char} {l : DecimalLiteral} {scientific : Bool}

theorem pointText_pointPart {fraction : List Char} (h : ∀ c ∈ fraction, c.isDigit) :
    PointText (pointPart fraction) fraction := by
  unfold pointPart
  split
  · next hnil => exact hnil ▸ .none
  · exact .some h

theorem exponentText_exponentPart {e : Int} (h : scientific = false → e = 0) :
    ExponentText (exponentPart scientific e) e := by
  cases scientific with
  | false => exact h rfl ▸ .none
  | true =>
    have hletter : 'e' = 'e' ∨ 'e' = 'E' := .inl rfl
    have hdigits := isDigit_of_mem_toDigits (n := e.natAbs)
    rw [exponentPart, if_pos rfl, toList_exponentText]
    by_cases hneg : e < 0
    · have htext := ExponentText.some hletter .minus hdigits Nat.toDigits_ne_nil
      rw [ofDigits_toDigits, if_pos rfl, Int.ofNat_natAbs_of_nonpos (Int.le_of_lt hneg),
        Int.neg_neg] at htext
      rw [if_pos hneg]
      exact htext
    · have htext := ExponentText.some hletter .plus hdigits Nat.toDigits_ne_nil
      rw [ofDigits_toDigits, if_neg Bool.false_ne_true,
        Int.natAbs_of_nonneg (Int.not_lt.mp hneg)] at htext
      rw [if_neg hneg]
      exact htext

/-- The literal of a text that was laid out. -/
theorem unsignedText_of_spells (h : Number.Spells text l scientific)
    (hzero : l.whole.head? = some '0' → l.whole = ['0']) : UnsignedText text l := by
  rw [h.text]
  exact .intro h.whole_ne_nil h.whole hzero (pointText_pointPart h.fraction)
    (fun hnil => if_pos hnil) (exponentText_exponentPart h.exponent)

/-- The layout of the shortest digits of a positive number rounds to the number. -/
theorem exists_unsignedText_shortest {x : Float} {m : Nat} {e : Int} {hp : 0 < m}
    (h : x.toModel.unpack = .finite .positive m e hp) :
    ∃ l : DecimalLiteral, UnsignedText (layout (Decimal.shortest x)).toList l ∧ l.RoundsTo x := by
  obtain ⟨hv, hd⟩ := Decimal.shortest_spec h
  obtain ⟨l, hspells, hvalue, -, hzero⟩ := layout_spells hd
  exact ⟨l, unsignedText_of_spells hspells hzero, .inr ⟨m, e, hp, h, hvalue ▸ hv⟩⟩

/-- The text of a finite number other than negative zero spells the number. -/
theorem spellsNumber_toText {x : Float} (hx : x.isFinite) (hne : x ≠ negZero) :
    SpellsNumber (toText x).toList x := by
  have hfinite : x.toModel.unpack.isFinite = true := hx
  cases h : x.toModel.unpack with
  | notANumber =>
    rw [h] at hfinite
    cases hfinite
  | infinity s =>
    rw [h] at hfinite
    cases hfinite
  | zero s =>
    cases s with
    | positive =>
      obtain rfl : x = 0.0 := eq_of_unpack h
      have hzero : UnsignedText ['0'] ⟨['0'], [], 0⟩ :=
        .intro (List.cons_ne_nil _ _) (List.forall_mem_singleton.mpr rfl) (fun _ => rfl) .none
          (fun _ => rfl) .none
      have htext : (toText 0.0).toList = ['0'] := by decide +kernel
      rw [htext]
      exact .positive hzero (.inl ⟨by norm_num [DecimalLiteral.toRat, ofDigits], rfl⟩)
    | negative => exact absurd (eq_of_unpack h) hne
  | finite s m e hp =>
    rw [toText_of_unpack h]
    cases s with
    | positive =>
      obtain ⟨l, htext, hl⟩ := exists_unsignedText_shortest h
      exact .positive htext hl
    | negative =>
      obtain ⟨l, htext, hl⟩ := exists_unsignedText_shortest (unpack_neg h)
      have hneg := SpellsNumber.negative htext hl
      rw [neg_neg_of_unpack h] at hneg
      have hminus : isMinus .negative = true := rfl
      rw [if_pos hminus, String.toList_append]
      exact hneg

end Json

/-! ### Trees -/

namespace Serializer

open Json

variable {s : Serializer} {indent : String}

/-- The line break before something at an indentation, if there is to be one. -/
def lineBreak (s : Serializer) (indent : String) : List Char :=
  if s.gap.isEmpty then [] else '\n' :: indent.toList

/-- The blanks between the colon and the value of a member. -/
def colonBlanks (s : Serializer) : List Char := if s.gap.isEmpty then [] else [' ']

theorem isBlank_nil : IsBlank [] := fun _ hc => by cases hc

theorem isBlank_lineBreak (h : IsBlank indent.toList) : IsBlank (s.lineBreak indent) := by
  unfold lineBreak
  split
  · exact isBlank_nil
  · exact List.forall_mem_cons.mpr ⟨rfl, h⟩

theorem isBlank_colonBlanks (s : Serializer) : IsBlank s.colonBlanks := by
  unfold colonBlanks
  split
  · exact isBlank_nil
  · exact List.forall_mem_singleton.mpr rfl

/-- The line breaks after the commas and the one in front each stand before a part. -/
theorem append_intercalate (lead part : List Char) (parts : List (List Char)) :
    lead ++ (',' :: lead).intercalate (part :: parts)
      = [','].intercalate ((part :: parts).map (lead ++ ·)) := by
  induction parts generalizing part with
  | nil => rw [List.intercalate_singleton, List.map_singleton, List.intercalate_singleton]
  | cons next parts ih =>
    rw [List.intercalate_cons_cons, List.map_cons, List.map_cons, List.intercalate_cons_cons,
      ← List.map_cons, ← ih next]
    simp only [List.append_assoc, List.cons_append, List.nil_append]

/-- The text of a container: its parts after line breaks, and a line break at the end if there are
parts. -/
theorem wrap_toList (s : Serializer) (indent : String) {opening closing : String} {o c : Char}
    (ho : opening.toList = [o]) (hc : closing.toList = [c]) (parts : List String) :
    (s.wrap indent opening closing parts).toList
      = o :: ([','].intercalate
          (parts.map fun part => s.lineBreak (indent ++ s.gap) ++ part.toList)
        ++ ((if parts.isEmpty then [] else s.lineBreak indent) ++ [c])) := by
  cases parts with
  | nil =>
    rw [wrap, List.isEmpty_nil, if_pos rfl, String.toList_append, ho, hc]
    rfl
  | cons part parts =>
    have hlead (lead : List Char) : [','].intercalate
        ((part :: parts).map fun part => lead ++ part.toList)
        = lead ++ (',' :: lead).intercalate ((part :: parts).map String.toList) := by
      rw [List.map_cons (f := String.toList), append_intercalate, ← List.map_cons, List.map_map]
      rfl
    rw [hlead]
    unfold wrap lineBreak
    rw [List.isEmpty_cons, if_neg Bool.false_ne_true, if_neg Bool.false_ne_true]
    split
    · rw [String.toList_append, String.toList_append, String.toList_intercalate, ho, hc]
      rfl
    · simp only [String.toList_append, String.toList_intercalate, ho, hc, List.append_assoc,
        List.cons_append, List.nil_append]
      rfl

theorem isBlank_closing (h : IsBlank indent.toList) (parts : List String) :
    IsBlank (if parts.isEmpty then [] else s.lineBreak indent) := by
  split
  · exact isBlank_nil
  · exact isBlank_lineBreak h

/-- The text of a member, after blanks. -/
def memberText (s : Serializer) (lead : List Char) (indent : String) (m : String × Json) :
    MemberText where
  name := m.1
  nameText := lead ++ ((s.quote m.1).toList ++ [])
  value := m.2
  valueText := s.colonBlanks ++ ((s.text indent m.2).toList ++ [])

theorem member_toList (s : Serializer) (lead : List Char) (indent : String) (m : String × Json) :
    lead ++ (s.member (.ofString m.1) (s.text indent m.2)).toList
      = (s.memberText lead indent m).text := by
  rw [member, PropertyKey.text_ofString, MemberText.text, memberText, colonBlanks]
  split <;> simp

section Containers

variable {depth : Nat} {items : List Json} {members : List (String × Json)}
  (hquote : ∀ t, SpellsString (s.quote t).toList t) (hgap : IsBlank s.gap.toList)
  (hindent : IsBlank indent.toList)
include hgap hindent

theorem isBlank_deeper : IsBlank (indent ++ s.gap).toList := by
  rw [String.toList_append]
  exact List.forall_mem_append.mpr ⟨hindent, hgap⟩

/-- An array is spelled by the texts of its items. -/
theorem spells_array (h : ∀ j ∈ items, Spells depth (s.text (indent ++ s.gap) j).toList j) :
    Spells (depth + 1) (s.text indent (.array items)).toList (.array items) := by
  have hlead := isBlank_lineBreak (s := s) (isBlank_deeper hgap hindent)
  let item (j : Json) : List Char × Json :=
    (s.lineBreak (indent ++ s.gap) ++ (s.text (indent ++ s.gap) j).toList, j)
  have hitems : ∀ i ∈ items.map item, Spells depth i.1 i.2 := by
    intro i hi
    obtain ⟨j, hj, rfl⟩ := List.mem_map.mp hi
    have hspells := Spells.blanks hlead (h j hj) isBlank_nil
    rwa [List.append_nil] at hspells
  have harray := Spells.array hitems
    (isBlank_closing (s := s) hindent (items.map (s.text (indent ++ s.gap))))
  have htrees : Prod.snd ∘ item = id := rfl
  rw [List.map_map, List.map_map, htrees, List.map_id] at harray
  rw [text, itemTexts_eq, wrap_toList s indent (o := '[') (c := ']') rfl rfl, List.map_map]
  exact harray

include hquote in
/-- An object is spelled by the texts of its members. -/
theorem spells_object (hnames : (members.map Prod.fst).Nodup)
    (h : ∀ m ∈ members, Spells depth (s.text (indent ++ s.gap) m.2).toList m.2) :
    Spells (depth + 1) (s.text indent (.object members)).toList (.object members) := by
  have hlead := isBlank_lineBreak (s := s) (isBlank_deeper hgap hindent)
  let member (m : String × Json) : MemberText :=
    s.memberText (s.lineBreak (indent ++ s.gap)) (indent ++ s.gap) m
  have hname : ∀ m ∈ members.map member, SpellsName m.nameText m.name := by
    intro m hm
    obtain ⟨m, -, rfl⟩ := List.mem_map.mp hm
    exact .intro hlead (hquote m.1) isBlank_nil
  have hvalue : ∀ m ∈ members.map member, Spells depth m.valueText m.value := by
    intro m hm
    obtain ⟨m, hmem, rfl⟩ := List.mem_map.mp hm
    exact .blanks (isBlank_colonBlanks s) (h m hmem) isBlank_nil
  have hobject := Spells.object (by rwa [List.map_map]) hname hvalue
    (isBlank_closing (s := s) hindent (s.memberTexts (indent ++ s.gap) members))
  have htrees : (fun m : MemberText => (m.name, m.value)) ∘ member = id := rfl
  rw [List.map_map, List.map_map, htrees, List.map_id] at hobject
  have htexts : (fun part : String => s.lineBreak (indent ++ s.gap) ++ part.toList)
      ∘ (fun m : String × Json => s.member (.ofString m.1) (s.text (indent ++ s.gap) m.2))
        = MemberText.text ∘ member := funext fun m => member_toList s _ _ m
  rw [text, wrap_toList s indent (o := '{') (c := '}') rfl rfl]
  rw [memberTexts_eq] at hobject ⊢
  rw [List.map_map, htexts]
  exact hobject

end Containers

/-- Where strings are quoted well and the indentation is blank, the text of a tree spells the
tree. -/
theorem spells_text {depth : Nat} {t : Json} (hquote : ∀ t, SpellsString (s.quote t).toList t)
    (hgap : IsBlank s.gap.toList) (hindent : IsBlank indent.toList)
    (h : t.WellFormed (fun x => x.isFinite ∧ x ≠ Number.negZero) depth) :
    Spells depth (s.text indent t.floats).toList t.floats := by
  induction h generalizing indent with
  | null => exact .null
  | bool b => exact .bool b
  | @number depth n hn =>
    have htext : s.text indent (Json.number n).floats = Number.toText n.toFloat := if_pos hn.1
    rw [htext]
    exact .number (spellsNumber_toText hn.1 hn.2)
  | string t => exact .string (hquote t)
  | array _ _ ih =>
    rw [floats_array]
    refine spells_array hgap hindent fun j hj => ?_
    obtain ⟨j, hmem, rfl⟩ := List.mem_map.mp hj
    exact ih j hmem (isBlank_deeper hgap hindent)
  | object hnames _ ih =>
    rw [floats_object]
    refine spells_object hquote hgap hindent (by rwa [List.map_map]) fun m hm => ?_
    obtain ⟨m, hmem, rfl⟩ := List.mem_map.mp hm
    exact ih m hmem (isBlank_deeper hgap hindent)

end Serializer
end ScriptEngine
