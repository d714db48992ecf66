import ScriptEngine.Realm

/-!
# The balance of contexts

Whoever puts a context on the stack takes it off again, and then the contexts below are as they
were: each is where it was, and runs or is suspended as before. How long it ran does not matter for
that, and neither does what the engine keeps in it.

## Main definitions

* `Mark`, `ContextStack.marks`: what the balance of contexts is about.
* `Mark.push`, `Mark.pop`: what becomes of the marks.

## Main results

* `Mark.pop_push`: a context that is taken off again leaves no trace.
-/

namespace ScriptEngine

/-- What the balance of contexts is about: which context it is, whether it is suspended, and whether
it suspended its caller, which is to run on when it is taken off. -/
structure Mark where
  id : Nat
  suspended : Bool
  suspendedCaller : Bool
deriving DecidableEq

namespace Mark

/-- The marks of a stack with one more context on top, which runs. -/
def push (id : Nat) : List Mark → List Mark
  | [] => [⟨id, false, false⟩]
  | caller :: rest => ⟨id, false, !caller.suspended⟩ :: { caller with suspended := true } :: rest

/-- The marks of a stack without its top. -/
def pop : List Mark → List Mark
  | top :: caller :: rest =>
    (if top.suspendedCaller then { caller with suspended := false } else caller) :: rest
  | _ => []

/-- A context that is taken off again leaves no trace. -/
@[simp] theorem pop_push (id : Nat) (marks : List Mark) : pop (push id marks) = marks := by
  cases marks with
  | nil => rfl
  | cons caller rest =>
    obtain ⟨callerId, suspended, suspendedCaller⟩ := caller
    cases suspended with
    | false => rfl
    | true => rfl

end Mark

/-- What the balance needs to know of a context. -/
def Context.mark {φ : Type} (c : Context φ) : Mark := ⟨c.id, c.suspended, c.suspendedCaller⟩

namespace ContextStack

variable {φ : Type} {s s' : ContextStack φ} {c : Context φ} {now : Nat}

/-- The marks of the contexts of a stack, the top first. -/
def marks (s : ContextStack φ) : List Mark := s.contexts.map Context.mark

@[simp] theorem marks_push (s : ContextStack φ) (c : Context φ) (now : Nat) :
    (s.push c now).marks = Mark.push c.id s.marks := by
  obtain ⟨contexts, lastId, retired⟩ := s
  cases contexts with
  | nil => rfl
  | cons caller rest =>
    simp only [push, marks, List.map_cons, Mark.push]
    cases hs : caller.suspended with
    | true => simp [Context.mark, Context.start, hs]
    | false => simp [Context.mark, Context.start, Context.stop, hs]

theorem marks_of_pop (h : s.pop now = .ok (c, s')) : s'.marks = Mark.pop s.marks := by
  obtain ⟨contexts, lastId, retired⟩ := s
  match contexts, h with
  | [top], h =>
    cases h
    rfl
  | top :: caller :: below, h =>
    cases h
    by_cases hs : top.suspendedCaller
    · simp [marks, Mark.pop, Context.mark, Context.stop, Context.start, hs]
    · simp [marks, Mark.pop, Context.mark, Context.stop, hs]

/-- Only an empty stack has no top to take off. -/
theorem marks_of_pop_error {f : Failure} (h : s.pop now = .error f) : s.marks = [] := by
  obtain ⟨contexts, lastId, retired⟩ := s
  cases contexts with
  | nil => rfl
  | cons top rest => cases h

theorem marks_modifyTop (s : ContextStack φ) {f : Context φ → Context φ}
    (hf : ∀ c, (f c).mark = c.mark) : (s.modifyTop f).marks = s.marks := by
  obtain ⟨contexts, lastId, retired⟩ := s
  cases contexts with
  | nil => rfl
  | cons top rest => simp only [modifyTop, marks, List.map_cons, hf]

end ContextStack

/-- The marks of the contexts of a realm, the top first. -/
def Realm.marks {H : HostTypes} (realm : Realm H) : List Mark := realm.contexts.marks

end ScriptEngine
