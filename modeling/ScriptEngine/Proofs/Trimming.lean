import Mathlib
import ScriptEngine.Builtin.String

/-!
# Trimming

Trimming takes away the longest run of blanks at the start of a string, at its end, or at both ends,
and nothing else. Blanks are white space, line ends and one character more, the next-line control
character. Hence a string loses exactly its white space, unless a next-line character comes right
behind it.

## Main definitions

* `Text.isSpace`: white space and line ends.
* `Text.TrimsStart`, `Text.TrimsEnd`, `Text.Trims`: what is left of a list without the runs of a
  class at its ends.

## Main results

* `Text.trimsStart_iff`, `Text.trimsEnd_iff`, `Text.trims_iff`: exactly one list is left.
* `Text.isBlank_iff`: the class of blanks.
* `Text.trim_removes_blanks`: what trimming leaves, and how it differs from the string without its
  white space.
-/

namespace ScriptEngine

namespace Text

/-! ### Classes of characters -/

/-- The code points of white space and line ends. -/
def spacePoints : List Nat :=
  List.range' 0x0009 5 ++ [0x0020, 0x00A0, 0x1680] ++ List.range' 0x2000 11
    ++ [0x2028, 0x2029, 0x202F, 0x205F, 0x3000, 0xFEFF]

/-- White space and line ends. -/
def isSpace (c : Char) : Bool := decide (c.toNat ∈ spacePoints)

/-- The next-line control character. -/
def nextLine : Char := '\u0085'

theorem eq_nextLine_iff (c : Char) : c = nextLine ↔ c.toNat = 0x0085 := by
  rw [← Char.toNat_inj]
  rfl

/-- The blanks are the white space and one character more. -/
theorem isBlank_iff (c : Char) : isBlank c ↔ isSpace c ∨ c = nextLine := by
  rw [eq_nextLine_iff, isSpace, decide_eq_true_iff, spacePoints, isBlank]
  simp only [Bool.or_eq_true, Bool.and_eq_true, decide_eq_true_iff, beq_iff_eq, List.mem_append,
    List.mem_range'_1, List.mem_cons, List.not_mem_nil, or_false]
  omega

/-! ### Runs at the ends of a list -/

section Runs

variable (p : Char → Bool) {cs rest : List Char}

/-- Whether a list is what the longest run of a class at the start of another one leaves. -/
structure TrimsStart (cs rest : List Char) : Prop where
  run : ∃ run, cs = run ++ rest ∧ ∀ c ∈ run, p c
  head : ∀ c ∈ rest.head?, p c = false

/-- Whether a list is what the longest run of a class at the end of another one leaves. -/
structure TrimsEnd (cs rest : List Char) : Prop where
  run : ∃ run, cs = rest ++ run ∧ ∀ c ∈ run, p c
  last : ∀ c ∈ rest.getLast?, p c = false

/-- Whether a list is what the longest runs of a class at both ends of another one leave. -/
structure Trims (cs rest : List Char) : Prop where
  runs : ∃ before after, cs = before ++ (rest ++ after) ∧ (∀ c ∈ before, p c) ∧ ∀ c ∈ after, p c
  head : ∀ c ∈ rest.head?, p c = false
  last : ∀ c ∈ rest.getLast?, p c = false

variable {p}

theorem dropWhile_eq_self (h : ∀ c ∈ cs.head?, p c = false) : cs.dropWhile p = cs := by
  cases cs with
  | nil => rfl
  | cons c cs =>
    refine List.dropWhile_cons_of_neg ?_
    rw [h c rfl]
    exact Bool.false_ne_true

/-- Exactly one list is left at the end of another one. -/
theorem trimsStart_iff : TrimsStart p cs rest ↔ cs.dropWhile p = rest := by
  constructor
  · rintro ⟨⟨run, rfl, hrun⟩, hhead⟩
    rw [List.dropWhile_append_of_pos hrun, dropWhile_eq_self hhead]
  · rintro rfl
    refine ⟨⟨cs.takeWhile p, List.takeWhile_append_dropWhile.symm, fun c hc => ?_⟩, fun c hc => ?_⟩
    · exact List.mem_takeWhile_imp hc
    · have hhead := List.head?_dropWhile_not p cs
      rw [hc] at hhead
      exact hhead

/-- Both ends of a list are alike. -/
theorem trimsEnd_iff_reverse : TrimsEnd p cs rest ↔ TrimsStart p cs.reverse rest.reverse := by
  constructor
  · rintro ⟨⟨run, rfl, hrun⟩, hlast⟩
    refine ⟨⟨run.reverse, List.reverse_append, fun c hc => hrun c (List.mem_reverse.mp hc)⟩, ?_⟩
    rwa [List.head?_reverse]
  · rintro ⟨⟨run, hcs, hrun⟩, hhead⟩
    rw [List.head?_reverse] at hhead
    refine ⟨⟨run.reverse, ?_, fun c hc => hrun c (List.mem_reverse.mp hc)⟩, hhead⟩
    rw [← List.reverse_reverse cs, hcs, List.reverse_append, List.reverse_reverse]

/-- Exactly one list is left at the start of another one. -/
theorem trimsEnd_iff : TrimsEnd p cs rest ↔ cs.rdropWhile p = rest := by
  rw [trimsEnd_iff_reverse, trimsStart_iff, List.rdropWhile, List.reverse_eq_iff]

/-- The run at the start is taken away first. -/
theorem trims_iff_trimsEnd : Trims p cs rest ↔ TrimsEnd p (cs.dropWhile p) rest := by
  constructor
  · rintro ⟨⟨before, after, rfl, hbefore, hafter⟩, hhead, hlast⟩
    rw [List.dropWhile_append_of_pos hbefore]
    cases rest with
    | nil => exact ⟨⟨[], List.dropWhile_eq_nil_iff.mpr hafter, List.forall_mem_nil _⟩, hlast⟩
    | cons c rest => exact ⟨⟨after, dropWhile_eq_self hhead, hafter⟩, hlast⟩
  · rintro ⟨⟨after, hcs, hafter⟩, hlast⟩
    obtain ⟨⟨before, hbefore, hbefores⟩, hhead⟩ := trimsStart_iff.mpr (Eq.refl (cs.dropWhile p))
    rw [hcs] at hbefore hhead
    refine ⟨⟨before, after, hbefore, hbefores, hafter⟩, fun c hc => hhead c ?_, hlast⟩
    rw [List.head?_append, hc]
    rfl

theorem trims_iff : Trims p cs rest ↔ (cs.dropWhile p).rdropWhile p = rest := by
  rw [trims_iff_trimsEnd, trimsEnd_iff]

theorem Trims.reverse (h : Trims p cs rest) : Trims p cs.reverse rest.reverse := by
  obtain ⟨⟨before, after, rfl, hbefore, hafter⟩, hhead, hlast⟩ := h
  refine ⟨⟨after.reverse, before.reverse, ?_, fun c hc => hafter c (List.mem_reverse.mp hc),
    fun c hc => hbefore c (List.mem_reverse.mp hc)⟩, ?_, ?_⟩
  · rw [List.reverse_append, List.reverse_append, List.append_assoc]
  · rwa [List.head?_reverse]
  · rwa [List.getLast?_reverse]

/-- The run at the end may as well be taken away first. -/
theorem trims_iff_trimsStart : Trims p cs rest ↔ TrimsStart p (cs.rdropWhile p) rest := by
  have hreverse : Trims p cs rest ↔ Trims p cs.reverse rest.reverse :=
    ⟨Trims.reverse, fun h => by simpa using h.reverse⟩
  rw [hreverse, trims_iff_trimsEnd, trimsEnd_iff_reverse, List.reverse_reverse, List.rdropWhile]

/-! ### Two classes -/

section Classes

variable {q : Char → Bool} (hpq : ∀ c, p c → q c) {wide : List Char}

include hpq

/-- A greater class takes away the same run if what follows it starts with none of the class. -/
theorem TrimsStart.eq_iff (h : TrimsStart p cs rest) (hwide : TrimsStart q cs wide) :
    wide = rest ↔ ∀ c ∈ rest.head?, q c = false := by
  constructor
  · rintro rfl
    exact hwide.head
  · intro hhead
    obtain ⟨run, hcs, hrun⟩ := h.run
    have hrest : TrimsStart q cs rest := ⟨⟨run, hcs, fun c hc => hpq c (hrun c hc)⟩, hhead⟩
    rw [← trimsStart_iff.mp hwide, trimsStart_iff.mp hrest]

theorem TrimsEnd.eq_iff (h : TrimsEnd p cs rest) (hwide : TrimsEnd q cs wide) :
    wide = rest ↔ ∀ c ∈ rest.getLast?, q c = false := by
  rw [← List.reverse_inj, ← List.head?_reverse]
  exact (trimsEnd_iff_reverse.mp h).eq_iff hpq (trimsEnd_iff_reverse.mp hwide)

/-- What a class leaves is trimmed further by a greater class, and to the same end. -/
theorem Trims.trans (h : Trims p cs rest) (hwide : Trims q rest wide) : Trims q cs wide := by
  obtain ⟨before, after, rfl, hbefore, hafter⟩ := h.runs
  obtain ⟨before', after', rfl, hbefore', hafter'⟩ := hwide.runs
  refine ⟨⟨before ++ before', after' ++ after, by simp only [List.append_assoc], fun c hc => ?_,
    fun c hc => ?_⟩, hwide.head, hwide.last⟩
  · exact (List.mem_append.mp hc).elim (fun hc => hpq c (hbefore c hc)) (hbefore' c)
  · exact (List.mem_append.mp hc).elim (hafter' c) fun hc => hpq c (hafter c hc)

theorem Trims.eq_iff (h : Trims p cs rest) (hwide : Trims q cs wide) :
    wide = rest ↔ (∀ c ∈ rest.head?, q c = false) ∧ ∀ c ∈ rest.getLast?, q c = false := by
  constructor
  · rintro rfl
    exact ⟨hwide.head, hwide.last⟩
  · rintro ⟨hhead, hlast⟩
    have hrest : Trims q cs rest := h.trans hpq ⟨⟨[], [], by simp, by simp, by simp⟩, hhead, hlast⟩
    rw [← trims_iff.mp hwide, trims_iff.mp hrest]

end Classes

end Runs

/-! ### Strings -/

variable (s : String)

theorem trimsStart_trimStart : TrimsStart isBlank s.toList (trimStart s).toList := by
  rw [trimsStart_iff, trimStart, String.toList_ofList]
  rfl

theorem trimsEnd_trimEnd : TrimsEnd isBlank s.toList (trimEnd s).toList := by
  rw [trimsEnd_iff, trimEnd, String.toList_ofList]
  rfl

theorem trims_trim : Trims isBlank s.toList (trim s).toList := by
  rw [trims_iff, trim, String.toList_ofList]
  rfl

/-- Both ends are trimmed one after the other. -/
theorem trim_eq : trim s = trimStart (trimEnd s) := by
  have hstart := trimsStart_iff.mp (trims_iff_trimsStart.mp (trims_trim s))
  rw [trimsEnd_iff.mp (trimsEnd_trimEnd s), trimsStart_iff.mp (trimsStart_trimStart _)] at hstart
  exact (String.toList_inj.mp hstart).symm

/-- What is left without white space is trimmed to the same string. -/
theorem Trims.trim_eq {s t : String} {p : Char → Bool} (hp : ∀ c, p c → isBlank c)
    (h : Trims p s.toList t.toList) : trim t = trim s := by
  have ht := trims_iff.mp (h.trans hp (trims_trim t))
  rw [trims_iff.mp (trims_trim s)] at ht
  exact (String.toList_inj.mp ht).symm

/-- Among what does not start or end with white space, only a next-line character is a blank. -/
theorem not_isBlank_iff {o : Option Char} (h : ∀ c ∈ o, isSpace c = false) :
    (∀ c ∈ o, isBlank c = false) ↔ o ≠ some nextLine := by
  refine ⟨fun hblank heq => ?_, fun hne c hc => ?_⟩
  · exact Bool.false_ne_true ((hblank nextLine heq).symm.trans ((isBlank_iff _).mpr (.inr rfl)))
  · rw [← Bool.not_eq_true, isBlank_iff, not_or, Bool.not_eq_true]
    exact ⟨h c hc, fun heq => hne (heq ▸ hc)⟩

end Text

open Text

variable {H : HostTypes}

/-- Trimming the start, the end or both ends of a string takes away the longest runs of blanks there
and nothing else. This is the string without its longest runs of white space if and only if no
next-line character comes right behind them. A number is read off what is left, so that its text may
as well be trimmed before. -/
theorem trim_removes_blanks (s : String) :
    (TrimsStart isBlank s.toList (trimStart s).toList
      ∧ TrimsEnd isBlank s.toList (trimEnd s).toList
      ∧ Trims isBlank s.toList (trim s).toList
      ∧ trim s = trimStart (trimEnd s)
      ∧ ∀ c, isBlank c ↔ isSpace c ∨ c = nextLine)
    ∧ (∃ start finish both : String,
      TrimsStart isSpace s.toList start.toList
      ∧ (trimStart s = start ↔ start.toList.head? ≠ some nextLine)
      ∧ TrimsEnd isSpace s.toList finish.toList
      ∧ (trimEnd s = finish ↔ finish.toList.getLast? ≠ some nextLine)
      ∧ Trims isSpace s.toList both.toList
      ∧ (trim s = both ↔ both.toList.head? ≠ some nextLine ∧ both.toList.getLast? ≠ some nextLine)
      ∧ Number.ofText both = Number.ofText s ∧ Number.parseFloat both = Number.parseFloat s)
    ∧ (Number.ofText s = Number.ofTrimmed (trim s).toList
      ∧ Number.ofText (trim s) = Number.ofText s
      ∧ Number.parseFloat (trim s) = Number.parseFloat s)
    ∧ ∀ (args : List Value) (newTarget : Option ObjectId),
      StringFunction.run .trimStart (.string s) args newTarget
          = (pure (.string (trimStart s)) : Engine H Value)
        ∧ StringFunction.run .trimEnd (.string s) args newTarget
          = (pure (.string (trimEnd s)) : Engine H Value)
        ∧ StringFunction.run .trim (.string s) args newTarget
          = (pure (.string (trim s)) : Engine H Value) := by
  have hspace : ∀ c, isSpace c → isBlank c := fun c hc => (isBlank_iff c).mpr (.inl hc)
  have hagain : trim (trim s) = trim s := (trims_trim s).trim_eq fun _ => id
  refine ⟨⟨trimsStart_trimStart s, trimsEnd_trimEnd s, trims_trim s, trim_eq s, isBlank_iff⟩, ?_,
    ⟨rfl, ?_, ?_⟩, fun args newTarget => ⟨rfl, rfl, rfl⟩⟩
  · generalize hstart : String.ofList (s.toList.dropWhile isSpace) = start
    generalize hfinish : String.ofList (s.toList.rdropWhile isSpace) = finish
    generalize hboth : String.ofList ((s.toList.dropWhile isSpace).rdropWhile isSpace) = both
    replace hstart : TrimsStart isSpace s.toList start.toList := by
      rw [trimsStart_iff, ← hstart, String.toList_ofList]
    replace hfinish : TrimsEnd isSpace s.toList finish.toList := by
      rw [trimsEnd_iff, ← hfinish, String.toList_ofList]
    replace hboth : Trims isSpace s.toList both.toList := by
      rw [trims_iff, ← hboth, String.toList_ofList]
    refine ⟨start, finish, both, hstart, ?_, hfinish, ?_, hboth, ?_, ?_, ?_⟩
    · rw [← String.toList_inj, hstart.eq_iff hspace (trimsStart_trimStart s),
        not_isBlank_iff hstart.head]
    · rw [← String.toList_inj, hfinish.eq_iff hspace (trimsEnd_trimEnd s),
        not_isBlank_iff hfinish.last]
    · rw [← String.toList_inj, hboth.eq_iff hspace (trims_trim s), not_isBlank_iff hboth.head,
        not_isBlank_iff hboth.last]
    · rw [Number.ofText, Number.ofText, hboth.trim_eq hspace]
    · rw [Number.parseFloat, Number.parseFloat, hboth.trim_eq hspace]
  · rw [Number.ofText, Number.ofText, hagain]
  · rw [Number.parseFloat, Number.parseFloat, hagain]

example : Text.trim "\u0085x \u0085" = "x" := by decide

end ScriptEngine
