import ScriptEngine.Failure

/-!
# Execution contexts

A context is a unit of running code. Contexts form a stack of which only the top may run; pushing
one suspends its caller and popping it lets the caller go on. The stack charges to the current
evaluation the time during which its top was running: each context accumulates its own time, and
what a popped context used is kept as retired time.

## Main definitions

* `Context`: a context with its clock accounting and what the engine keeps in it.
* `ContextStack`: the stack, the time of popped contexts and the supply of identities.
* `ContextStack.push`, `ContextStack.pop`, `ContextStack.suspend`, `ContextStack.resume`.
* `ContextStack.elapsed`, `ContextStack.resetAccounting`: the time charged since the last reset.
-/

namespace ScriptEngine

/-- A unit of running code. Times are readings of the clock and differences of them. -/
structure Context (φ : Type) where
  id : Nat
  /-- What the engine keeps with the context. -/
  frame : φ
  suspended : Bool := true
  /-- The time run before the last start. -/
  active : Nat := 0
  /-- The last start, while running. -/
  resumedAt : Option Nat := none
  /-- The part of the active time that belongs to earlier evaluations. -/
  activeAtPush : Nat := 0
  /-- Whether pushing this context suspended its caller. -/
  suspendedCaller : Bool := false

namespace Context

variable {φ : Type}

/-- The time run so far. -/
def activeTime (c : Context φ) (now : Nat) : Nat :=
  match c.resumedAt with
  | some since => if c.suspended then c.active else c.active + (now - since)
  | none => c.active

/-- The time charged to the current evaluation. -/
def charged (c : Context φ) (now : Nat) : Nat := c.activeTime now - c.activeAtPush

/-- The context running from now on. -/
def start (c : Context φ) (now : Nat) : Context φ :=
  { c with suspended := false, resumedAt := some now }

/-- The context suspended, its running time added up. -/
def stop (c : Context φ) (now : Nat) : Context φ :=
  { c with active := c.activeTime now, suspended := true, resumedAt := none }

end Context

/-- A stack of contexts, the top first. -/
structure ContextStack (φ : Type) where
  contexts : List (Context φ) := []
  /-- The identity given out last. -/
  lastId : Nat := 0
  /-- The time charged by contexts that have been popped. -/
  retired : Nat := 0

namespace ContextStack

variable {φ : Type}

instance : Inhabited (ContextStack φ) := ⟨{}⟩

/-- A new context, not yet on the stack. -/
def newContext (s : ContextStack φ) (frame : φ) : Context φ × ContextStack φ :=
  ({ id := s.lastId + 1, frame }, { s with lastId := s.lastId + 1 })

/-- The context on top. -/
def top? (s : ContextStack φ) : Option (Context φ) := s.contexts.head?

/-- Whether the stack has a top that is running. -/
def isRunning (s : ContextStack φ) : Bool := s.top?.any fun c => !c.suspended

/-- The number of contexts. -/
def size (s : ContextStack φ) : Nat := s.contexts.length

/-- Changes the context on top. -/
def modifyTop (s : ContextStack φ) (f : Context φ → Context φ) : ContextStack φ :=
  match s.contexts with
  | top :: rest => { s with contexts := f top :: rest }
  | [] => s

/-- Puts a context on top and lets it run; a running caller is suspended. -/
def push (s : ContextStack φ) (c : Context φ) (now : Nat) : ContextStack φ :=
  match s.contexts with
  | caller :: rest =>
    let started := ({ c with
      suspendedCaller := !caller.suspended, activeAtPush := c.active } : Context φ).start now
    let caller := if caller.suspended then caller else caller.stop now
    { s with contexts := started :: caller :: rest }
  | [] =>
    let started := ({ c with suspendedCaller := false, activeAtPush := c.active } : Context φ).start
      now
    { s with contexts := [started] }

/-- Takes the top context off; a caller that it suspended runs on. -/
def pop (s : ContextStack φ) (now : Nat) : Except Failure (Context φ × ContextStack φ) :=
  match s.contexts with
  | [] => .error (.internal "execution context stack underflow")
  | c :: rest =>
    let c := c.stop now
    let rest :=
      match rest with
      | caller :: below => if c.suspendedCaller then caller.start now :: below else rest
      | [] => []
    .ok (c, { s with contexts := rest, retired := s.retired + (c.active - c.activeAtPush) })

/-- The top context and those below it, if the top has the given identity. -/
def splitTop (s : ContextStack φ) (id : Nat) (verb : String) :
    Except Failure (Context φ × List (Context φ)) :=
  let wrong : Failure := .internal
    (verb ++ " of context " ++ Nat.repr id ++ " which is not on top of the stack")
  match s.contexts with
  | [] => .error wrong
  | top :: rest => if top.id = id then .ok (top, rest) else .error wrong

/-- Suspends the top context, which has to be the given one and running. -/
def suspend (s : ContextStack φ) (id now : Nat) : Except Failure (ContextStack φ) := do
  let (top, rest) ← s.splitTop id "suspend"
  if top.suspended then
    throw (.internal ("context " ++ Nat.repr id ++ " is already suspended"))
  return { s with contexts := top.stop now :: rest }

/-- Lets the top context run, which has to be the given one and suspended. -/
def resume (s : ContextStack φ) (id now : Nat) : Except Failure (ContextStack φ) := do
  let (top, rest) ← s.splitTop id "resume"
  if !top.suspended then
    throw (.internal ("context " ++ Nat.repr id ++ " is not suspended"))
  return { s with contexts := top.start now :: rest }

/-- The stack is split only at a top with the given identity. -/
theorem splitTop_eq_ok {s : ContextStack φ} {id : Nat} {verb : String} {top : Context φ}
    {rest : List (Context φ)} :
    s.splitTop id verb = .ok (top, rest) ↔ s.contexts = top :: rest ∧ top.id = id := by
  unfold splitTop
  cases hs : s.contexts with
  | nil => simp
  | cons c below =>
    by_cases hid : c.id = id
    · simp only [hid, if_true, Except.ok.injEq, Prod.mk.injEq, List.cons.injEq]
      exact ⟨fun h => ⟨h, h.1 ▸ hid⟩, fun h => h.1⟩
    · simp only [hid, if_false, reduceCtorEq, List.cons.injEq, false_iff]
      exact fun h => hid (h.1.1 ▸ h.2)

/-- Only a running top can be suspended. -/
theorem suspend_eq_ok {s s' : ContextStack φ} {id now : Nat} : s.suspend id now = .ok s' ↔
    ∃ top rest, s.contexts = top :: rest ∧ top.id = id ∧ top.suspended = false
      ∧ s' = { s with contexts := top.stop now :: rest } := by
  unfold suspend
  constructor
  · intro h
    cases hsplit : s.splitTop id "suspend" with
    | error e => simp [hsplit, bind, Except.bind] at h
    | ok split =>
      obtain ⟨top, rest⟩ := split
      obtain ⟨hs, hid⟩ := splitTop_eq_ok.mp hsplit
      cases hr : top.suspended with
      | true => simp [hsplit, hr, bind, Except.bind, throw, throwThe, MonadExceptOf.throw] at h
      | false =>
        refine ⟨top, rest, hs, hid, hr, ?_⟩
        simpa [hsplit, hr, bind, Except.bind, pure, Except.pure] using h.symm
  · rintro ⟨top, rest, hs, hid, hr, rfl⟩
    simp [splitTop_eq_ok.mpr ⟨hs, hid⟩, hr, bind, Except.bind, pure, Except.pure]

/-- Only a suspended top can be resumed. -/
theorem resume_eq_ok {s s' : ContextStack φ} {id now : Nat} : s.resume id now = .ok s' ↔
    ∃ top rest, s.contexts = top :: rest ∧ top.id = id ∧ top.suspended = true
      ∧ s' = { s with contexts := top.start now :: rest } := by
  unfold resume
  constructor
  · intro h
    cases hsplit : s.splitTop id "resume" with
    | error e => simp [hsplit, bind, Except.bind] at h
    | ok split =>
      obtain ⟨top, rest⟩ := split
      obtain ⟨hs, hid⟩ := splitTop_eq_ok.mp hsplit
      cases hr : top.suspended with
      | false => simp [hsplit, hr, bind, Except.bind, throw, throwThe, MonadExceptOf.throw] at h
      | true =>
        refine ⟨top, rest, hs, hid, hr, ?_⟩
        simpa [hsplit, hr, bind, Except.bind, pure, Except.pure] using h.symm
  · rintro ⟨top, rest, hs, hid, hr, rfl⟩
    simp [splitTop_eq_ok.mpr ⟨hs, hid⟩, hr, bind, Except.bind, pure, Except.pure]

/-- The time charged since the last reset. -/
def elapsed (s : ContextStack φ) (now : Nat) : Nat :=
  s.contexts.foldl (fun total c => total + c.charged now) s.retired

/-- Starts a new account: nothing run so far is charged any more. -/
def resetAccounting (s : ContextStack φ) (now : Nat) : ContextStack φ :=
  { s with
    retired := 0
    contexts := s.contexts.map fun c => { c with activeAtPush := c.activeTime now } }

/-- Drops every context. -/
def clear (s : ContextStack φ) : ContextStack φ := { s with contexts := [], retired := 0 }

end ContextStack
end ScriptEngine
