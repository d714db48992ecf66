import Mathlib
import ScriptEngine.Proofs.CodeUnits
import ScriptEngine.Proofs.ElementStore
import ScriptEngine.Text.Split

/-!
# Splitting text

A string is cut at the occurrences of a separator that are found from the left, each one looked for
after the end of the one before. All this is done with code units. A separator that is a string
neither starts nor ends between the two halves of a pair, so that the parts are strings again, of
which no unit is lost, and joining them with the separator gives the string back.

## Main definitions

* `Text.CutAt`: the parts of a list that is cut at the leftmost occurrences of a separator.
* `Engine.MakesArray`: whether a computation ends with a new array of given elements.

## Main results

* `Text.cutAt_splitUnits`: splitting cuts at the leftmost occurrences.
* `Text.CutAt.intercalate_eq`, `Text.CutAt.not_isInfix`: the parts are joined to the list again, and
  the separator occurs in none of them.
* `Text.map_units_ofUnits_splitUnits`: the parts of a string are strings.
* `split_undoes_join`: what the method returns.
-/

namespace ScriptEngine

namespace Text

/-! ### Cutting a list -/

section Cut

variable {α : Type}

/-- The parts of a list that is cut at a separator. Every part but the last ends where the separator
occurs leftmost in what is left of the list, and what comes after that occurrence is cut further;
the last part is what is left when the separator does not occur any more. -/
inductive CutAt (separator : List α) : List α → List (List α) → Prop
  | last {us : List α} (h : ¬separator <:+: us) : CutAt separator us [us]
  | next {part rest : List α} {parts : List (List α)}
    (hleft : ∀ i < part.length, ¬separator <+: (part ++ separator ++ rest).drop i)
    (hrest : CutAt separator rest parts) :
    CutAt separator (part ++ separator ++ rest) (part :: parts)

variable {separator us part : List α} {parts : List (List α)}

theorem CutAt.ne_nil (h : CutAt separator us parts) : parts ≠ [] := by
  cases h with
  | last => exact List.cons_ne_nil _ _
  | next => exact List.cons_ne_nil _ _

/-- The parts joined with the separator are the list. -/
theorem CutAt.intercalate_eq (h : CutAt separator us parts) :
    separator.intercalate parts = us := by
  induction h with
  | last => exact List.intercalate_singleton
  | next hleft hrest ih =>
    rw [List.intercalate_cons_of_ne_nil hrest.ne_nil, ih, List.append_assoc]

/-- Every part but the last is followed by an element of the separator at least. -/
theorem CutAt.length_le (hne : separator ≠ []) (h : CutAt separator us parts) :
    parts.length ≤ us.length + 1 := by
  have hpos := List.length_pos_of_ne_nil hne
  induction h with
  | last => exact Nat.le_add_left _ _
  | next hleft hrest ih =>
    simp only [List.length_cons, List.length_append]
    omega

/-- Something that occurs in a list starts before the end of the list. -/
theorem exists_drop_of_isInfix (hne : separator ≠ []) (h : separator <:+: us) :
    ∃ i < us.length, ∀ rest, separator <+: (us ++ rest).drop i := by
  obtain ⟨before, after, rfl⟩ := h
  refine ⟨before.length, ?_, fun rest => ?_⟩
  · have hpos := List.length_pos_of_ne_nil hne
    simp only [List.length_append]
    omega
  · rw [List.append_assoc, List.append_assoc, List.drop_left]
    exact List.prefix_append _ _

/-- The separator occurs in no part. -/
theorem CutAt.not_isInfix (hne : separator ≠ []) (h : CutAt separator us parts)
    (hpart : part ∈ parts) : ¬separator <:+: part := by
  induction h with
  | last h =>
    rw [List.mem_singleton.mp hpart]
    exact h
  | next hleft hrest ih =>
    rcases List.mem_cons.mp hpart with rfl | hpart
    · intro hinfix
      obtain ⟨i, hi, hdrop⟩ := exists_drop_of_isInfix hne hinfix
      refine hleft i hi ?_
      rw [List.append_assoc]
      exact hdrop _
    · exact ih hpart

end Cut

/-! ### Splitting cuts at the leftmost occurrences -/

variable {separator : List UInt16}

/-- The units of a separator that was found are passed over. -/
theorem splitFrom_skip (separator : List UInt16) (skip : Nat) (part us : List UInt16) :
    splitFrom separator skip part us = splitFrom separator 0 part (us.drop skip) := by
  induction us generalizing skip with
  | nil => cases skip <;> rfl
  | cons u us ih =>
    cases skip with
    | zero => rfl
    | succ skip => exact ih skip

/-- A list from the start of a part on is cut, if the separator does not occur where the part has
been looked at. -/
theorem cutAt_splitFrom (hne : separator ≠ []) (n : Nat) (part us : List UInt16)
    (hn : us.length < n)
    (hleft : ∀ i < part.length, ¬separator <+: (part.reverse ++ us).drop i) :
    CutAt separator (part.reverse ++ us) (splitFrom separator 0 part us) := by
  induction n generalizing part us with
  | zero => exact absurd hn (Nat.not_lt_zero _)
  | succ n ih =>
    cases us with
    | nil =>
      rw [List.append_nil] at hleft ⊢
      refine .last fun hinfix => ?_
      obtain ⟨i, hi, hdrop⟩ := exists_drop_of_isInfix hne hinfix
      rw [List.length_reverse] at hi
      exact hleft i hi (by simpa using hdrop [])
    | cons u us =>
      rw [splitFrom]
      split
      · next hprefix =>
        obtain ⟨rest, hrest⟩ := List.isPrefixOf_iff_prefix.mp hprefix
        obtain ⟨v, tail, rfl⟩ := List.exists_cons_of_ne_nil hne
        obtain ⟨rfl, htail⟩ := List.cons.inj hrest
        replace htail : tail ++ rest = us := htail
        have hdrop : us.drop tail.length = rest := by rw [← htail, List.drop_left]
        have hlength : rest.length ≤ us.length := by
          rw [← htail, List.length_append]
          omega
        rw [splitFrom_skip, List.length_cons, Nat.add_sub_cancel, hdrop, ← hrest,
          ← List.append_assoc]
        refine .next (fun i hi => ?_) ?_
        · rw [List.append_assoc, hrest]
          exact hleft i (by rwa [List.length_reverse] at hi)
        · exact ih [] rest (by rw [List.length_cons] at hn; omega) fun i hi => nomatch hi
      · next hprefix =>
        have hlist : part.reverse ++ u :: us = (u :: part).reverse ++ us := by simp
        rw [hlist]
        refine ih (u :: part) us (Nat.lt_of_succ_lt_succ hn) fun i hi => ?_
        rw [← hlist]
        rcases Nat.lt_or_eq_of_le (Nat.le_of_lt_succ hi) with hlt | rfl
        · exact hleft i hlt
        · rw [← List.length_reverse, List.drop_left, ← List.isPrefixOf_iff_prefix]
          exact hprefix

theorem cutAt_splitUnits (hne : separator ≠ []) (us : List UInt16) :
    CutAt separator us (splitUnits separator us) := by
  have hempty : separator.isEmpty = false := by simpa using hne
  rw [splitUnits, hempty, if_neg Bool.false_ne_true]
  exact cutAt_splitFrom hne (us.length + 1) [] us (Nat.lt_succ_self _) fun i hi => nomatch hi

/-! ### Pairs are not cut -/

/-- The units of a character are one that is no second half of a pair, or a pair. -/
theorem charUnits_cases (c : Char) :
    (∃ u, charUnits c = [u] ∧ isTrailing u = false)
      ∨ ∃ u v, charUnits c = [u, v] ∧ isTrailing u = false ∧ isTrailing v := by
  have hvalid : c.toNat < 0xD800 ∨ 0xDFFF < c.toNat ∧ c.toNat < 0x110000 := c.valid
  unfold charUnits
  split
  · refine .inl ⟨_, rfl, ?_⟩
    rw [Bool.eq_false_iff, ne_eq, isTrailing_iff, UInt16.toNat_ofNat']
    omega
  · refine .inr ⟨_, _, rfl, ?_, ?_⟩
    · rw [Bool.eq_false_iff, ne_eq, isTrailing_iff, UInt16.toNat_ofNat']
      omega
    · rw [isTrailing_iff, UInt16.toNat_ofNat']
      omega

/-- Units that spell a string go on as the units of another one where they do not go on with the
second half of a pair. -/
theorem exists_flatMap_of_append {cs : List Char} {a b : List UInt16}
    (h : a ++ b = cs.flatMap charUnits) (hb : ∀ v ∈ b.head?, isTrailing v = false) :
    ∃ before after : List Char, a = before.flatMap charUnits ∧ b = after.flatMap charUnits := by
  induction cs generalizing a with
  | nil =>
    obtain ⟨rfl, rfl⟩ := List.append_eq_nil_iff.mp h
    exact ⟨[], [], rfl, rfl⟩
  | cons c cs ih =>
    cases a with
    | nil => exact ⟨[], c :: cs, rfl, h⟩
    | cons u a =>
      rw [List.flatMap_cons, List.cons_append] at h
      rcases charUnits_cases c with ⟨u', hc, -⟩ | ⟨u', v, hc, -, hv⟩
      · rw [hc, List.singleton_append] at h
        obtain ⟨rfl, htail⟩ := List.cons.inj h
        obtain ⟨before, after, rfl, rfl⟩ := ih htail
        exact ⟨c :: before, after, by rw [List.flatMap_cons, hc]; rfl, rfl⟩
      · rw [hc, List.cons_append, List.singleton_append] at h
        obtain ⟨rfl, htail⟩ := List.cons.inj h
        cases a with
        | nil =>
          -- what goes on would start with the second half
          rw [List.nil_append] at htail
          have hhalf := hb v (by rw [htail]; rfl)
          rw [hv] at hhalf
          cases hhalf
        | cons v' a =>
          rw [List.cons_append] at htail
          obtain ⟨rfl, hrest⟩ := List.cons.inj htail
          obtain ⟨before, after, rfl, rfl⟩ := ih hrest
          exact ⟨c :: before, after, by rw [List.flatMap_cons, hc]; rfl, rfl⟩

/-- Units that start as those of a string go on as the units of another one. -/
theorem exists_flatMap_of_units_append {s : List Char} {cs : List Char} {us : List UInt16}
    (h : s.flatMap charUnits ++ us = cs.flatMap charUnits) :
    ∃ after : List Char, us = after.flatMap charUnits := by
  induction s generalizing cs with
  | nil => exact ⟨cs, h⟩
  | cons c s ih =>
    rw [List.flatMap_cons, List.append_assoc] at h
    have hdecode := congrArg decode h
    rw [decode_charUnits_append, decode_flatMap_charUnits] at hdecode
    rw [← hdecode, List.flatMap_cons] at h
    exact ih (List.append_cancel_left h)

theorem units_ne_nil {s : String} (hne : s ≠ "") : units s ≠ [] := fun h =>
  hne (units_injective (h.trans rfl))

section Parts

variable {separator : List UInt16} {us : List UInt16} {parts : List (List UInt16)}

/-- The units of a string that is not empty do not start with the second half of a pair. -/
theorem isTrailing_head_append {cs : List Char} (hne : cs ≠ []) (us : List UInt16) :
    ∀ v ∈ (cs.flatMap charUnits ++ us).head?, isTrailing v = false := by
  obtain ⟨c, cs, rfl⟩ := List.exists_cons_of_ne_nil hne
  intro v hv
  rcases charUnits_cases c with ⟨u, hc, hu⟩ | ⟨u, u', hc, hu, -⟩
  all_goals
    rw [List.flatMap_cons, hc] at hv
    obtain rfl : u = v := by simpa using hv
    exact hu

/-- A string that is cut at a string is cut into strings. -/
theorem CutAt.exists_flatMap {sep cs : List Char} (hne : sep ≠ [])
    (h : CutAt (sep.flatMap charUnits) (cs.flatMap charUnits) parts) :
    ∃ texts : List (List Char), parts = texts.map (·.flatMap charUnits) := by
  generalize hus : cs.flatMap charUnits = us at h
  generalize hsep : sep.flatMap charUnits = separator at h
  induction h generalizing cs with
  | last h => exact ⟨[cs], by rw [← hus]; rfl⟩
  | @next part rest parts hleft hrest ih =>
    rw [List.append_assoc] at hus
    obtain ⟨before, after, rfl, hafter⟩ := exists_flatMap_of_append hus.symm
      (hsep ▸ isTrailing_head_append hne rest)
    rw [← hsep] at hafter
    obtain ⟨cs', hrest⟩ := exists_flatMap_of_units_append hafter
    obtain ⟨texts, rfl⟩ := ih hrest.symm
    exact ⟨before :: texts, rfl⟩

end Parts

/-- The units of joined strings. -/
theorem units_intercalate (separator : String) (parts : List String) :
    units (separator.intercalate parts) = (units separator).intercalate (parts.map units) := by
  rw [units, String.toList_intercalate]
  induction parts with
  | nil => rfl
  | cons part parts ih =>
    cases parts with
    | nil =>
      simp only [List.map_cons, List.map_nil, List.intercalate_singleton]
      rfl
    | cons next parts =>
      simp only [List.map_cons, List.intercalate_cons_cons, List.flatMap_append] at ih ⊢
      rw [ih]
      rfl

/-- The parts between the occurrences of a string in a string are strings, and are decoded without a
loss. -/
theorem map_units_ofUnits_splitUnits {separator : String} (hne : separator ≠ "") (s : String) :
    ((splitUnits (units separator) (units s)).map ofUnits).map units
      = splitUnits (units separator) (units s) := by
  have hchars : separator.toList ≠ [] := fun h => hne (String.toList_eq_nil_iff.mp h)
  obtain ⟨texts, htexts⟩ := CutAt.exists_flatMap hchars (cutAt_splitUnits (units_ne_nil hne) _)
  change splitUnits (units separator) (units s) = _ at htexts
  rw [htexts, List.map_map, List.map_map]
  refine List.map_congr_left fun text _ => ?_
  change units (ofUnits (text.flatMap charUnits)) = text.flatMap charUnits
  rw [ofUnits, units, decode_flatMap_charUnits, String.toList_ofList]

end Text

/-! ### The method -/

open Engine

variable {H : HostTypes}

namespace StringFunction

/-- No more parts are wanted than an array has room for. -/
theorem partLimit_lt {v : Value} {surroundings : Surroundings H} {realm middle : Realm H} {n : Nat}
    (h : (partLimit v).act surroundings realm = .ok n middle) : n < Number.twoPow 32 := by
  unfold partLimit at h
  split at h
  · cases h
    decide
  · obtain ⟨x, after, -, hx⟩ := Engine.ok_of_bind h
    cases hx
    exact Number.toUint32_lt x

/-- With a string as the separator, only the number of parts that are wanted and the array of them
ask for anything. -/
theorem run_split_eq (s separator : String) {args : List Value} (newTarget : Option ObjectId)
    (hfirst : argument args 0 = .string separator) :
    (run .split (.string s) args newTarget : Engine H Value) = (do
      let n ← partLimit (argument args 1)
      let parts := (Text.splitUnits (Text.units separator) (Text.units s)).take n
      return .object (← arrayOfList (parts.map ofUnits))) := by
  unfold run splitAt unitsOf
  rw [hfirst]
  rfl

end StringFunction

/-- Whether a computation in a realm ends with a new array of given elements, which is the only
thing that is new since another realm. -/
def Engine.MakesArray (x : Engine H Value) (host : Host H) (need : Nat) (realm middle : Realm H)
    (vs : List Value) : Prop :=
  ∃ array : Object H, array.Stores (fun i => vs[i]?) vs.length
    ∧ ∀ bound ≥ need, x.run host bound realm
      = .ok (.object ⟨middle.heap.size⟩) (middle.push array)

namespace StringFunction

/-- Once it is known how many parts are wanted, that many of them are returned. -/
theorem run_split_makesArray {host : Host H} (s separator : String) {args : List Value}
    (newTarget : Option ObjectId) {n need : Nat} {realm middle : Realm H}
    (hfirst : argument args 0 = .string separator)
    (hlimit : ∀ bound ≥ need, (partLimit (argument args 1)).run host bound realm = .ok n middle)
    (hl : ¬middle.deeper.deeper.AtLimit) :
    (run .split (.string s) args newTarget).MakesArray host (max need 3) realm middle
      (((Text.splitUnits (Text.units separator) (Text.units s)).take n).map ofUnits) := by
  have hn : n < Number.twoPow 32 := partLimit_lt (hlimit need (Nat.le_refl _))
  obtain ⟨array, harray, -, hgives⟩ := arrayOfList_gives
    (((Text.splitUnits (Text.units separator) (Text.units s)).take n).map ofUnits)
    (by rw [List.length_map, List.length_take]; omega) hl
  refine ⟨array, harray, fun bound hbound => ?_⟩
  have hbound' := Nat.max_le.mp hbound
  rw [run_split_eq s separator newTarget hfirst]
  refine (Engine.bind_of_ok (hlimit bound hbound'.1)).trans ?_
  exact Engine.bind_of_ok ((hgives host bound).eq_of_le hbound'.2)

end StringFunction

end ScriptEngine
