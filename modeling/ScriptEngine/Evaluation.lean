import ScriptEngine.Operation.Promise
import ScriptEngine.Scope.Binding

/-!
# Evaluations

The host runs code inside an evaluation, which has its own account of time and leaves the stack of
contexts as it found it. Jobs run in an evaluation of their own. A realm that is disposed of loses
everything and takes no further evaluations.

## Main definitions

* `execute`: runs a computation as an evaluation.
* `runNextJob`, `runJobs`: runs the jobs that wait, and those that they add.
* `dispose`: empties a realm.
* `Engine.enrich`: records where a failure arose.
* `createModule`, `ModuleId.setExport`: modules whose exports the host sets.
-/

namespace ScriptEngine

open Engine

variable {H : HostTypes} {α : Type}

/-! ### Running code -/

namespace Realm

/-- Lets the root run, which has to be on top of the stack and suspended. -/
def wakeRoot (realm : Realm H) : Except Failure Unit × Realm H :=
  realm.changeContexts fun contexts now => (contexts.resume realm.rootContext now).map ((), ·)

/-- Suspends the root, which has to be on top of the stack and running. -/
def parkRoot (realm : Realm H) : Except Failure Unit × Realm H :=
  realm.changeContexts fun contexts now => (contexts.suspend realm.rootContext now).map ((), ·)

/-- Takes contexts off the stack, at most as many as said. -/
def popMany (realm : Realm H) : Nat → Realm H
  | 0 => realm
  | count + 1 => popMany (realm.changeContexts ContextStack.pop).2 count

/-- Takes contexts off the stack until only the one at the bottom is left. -/
def unwind (realm : Realm H) : Realm H := realm.popMany (realm.contexts.size - 1)

/-- The realm with a new account of time. -/
def resetAccounting (realm : Realm H) : Realm H :=
  { realm with checkpoints := 0, contexts := realm.contexts.resetAccounting realm.clock }

/-- Starts an evaluation: it has a new account of time and wakes the root. A realm that is disposed
of or stopped refuses. -/
def enterEvaluation (realm : Realm H) : Except Failure Unit × Realm H :=
  if realm.disposed then (.error (.internal "realm has been disposed"), realm)
  else
    match realm.aborted with
    | some elapsed => (.error (.timeout realm.config.timeoutMs elapsed), realm)
    | none => realm.resetAccounting.wakeRoot

/-- Ends an evaluation: contexts are taken off the stack until only the root is left, which is
suspended. A failure of the evaluation wins over one of that. -/
def leaveEvaluation (realm : Realm H) (outcome : Except Failure α) : Except Failure α × Realm H :=
  let (parked, realm) := realm.unwind.parkRoot
  (do let a ← outcome; parked; return a, realm)

variable {realm middle : Realm H}

/-- Changing the contexts changes nothing else, except that the clock is looked at. -/
theorem exists_changeContexts (realm : Realm H)
    (f : ContextStack (Frame H) → Nat → Except Failure (α × ContextStack (Frame H))) :
    ∃ contexts time, (realm.changeContexts f).2 = { realm with contexts, time } := by
  unfold changeContexts
  split
  · exact ⟨_, _, rfl⟩
  · exact ⟨_, _, rfl⟩

theorem exists_popMany (realm : Realm H) (count : Nat) :
    ∃ contexts time, realm.popMany count = { realm with contexts, time } := by
  induction count generalizing realm with
  | zero => exact ⟨_, _, rfl⟩
  | succ count ih =>
    obtain ⟨contexts, time, hpop⟩ := realm.exists_changeContexts ContextStack.pop
    rw [popMany, hpop]
    exact ih _

/-- So does taking off all contexts but one. -/
theorem exists_unwind (realm : Realm H) :
    ∃ contexts time, realm.unwind = { realm with contexts, time } :=
  realm.exists_popMany _

/-- A context that is alone on the stack stays there. -/
theorem unwind_of_outline {top : Outline} (h : realm.contexts.outline = [top]) :
    realm.unwind = realm := by
  have hsize : realm.contexts.size = 1 := by
    simpa [ContextStack.outline, ContextStack.size] using congrArg List.length h
  rw [unwind, hsize]
  rfl

theorem beside_unwind (realm : Realm H) : realm.Beside realm.unwind := by
  obtain ⟨contexts, time, h⟩ := realm.exists_unwind
  rw [h]
  exact ⟨rfl, rfl, rfl⟩

theorem untimed_unwind (realm : Realm H) : realm.Untimed realm.unwind := by
  obtain ⟨contexts, time, h⟩ := realm.exists_unwind
  rw [h]
  exact ⟨rfl, rfl, rfl⟩

theorem ledger_unwind (realm : Realm H) : realm.unwind.ledger = realm.ledger := by
  obtain ⟨contexts, time, h⟩ := realm.exists_unwind
  rw [h]
  rfl

theorem beside_wakeRoot (realm : Realm H) : realm.Beside realm.wakeRoot.2 :=
  realm.beside_changeContexts _

theorem beside_parkRoot (realm : Realm H) : realm.Beside realm.parkRoot.2 :=
  realm.beside_changeContexts _

theorem untimed_wakeRoot (realm : Realm H) : realm.Untimed realm.wakeRoot.2 :=
  realm.untimed_changeContexts _

theorem untimed_parkRoot (realm : Realm H) : realm.Untimed realm.parkRoot.2 :=
  realm.untimed_changeContexts _

theorem ledger_wakeRoot (realm : Realm H) : realm.wakeRoot.2.ledger = realm.ledger :=
  realm.ledger_changeContexts _

theorem ledger_parkRoot (realm : Realm H) : realm.parkRoot.2.ledger = realm.ledger :=
  realm.ledger_changeContexts _

theorem control_wakeRoot (realm : Realm H) : realm.wakeRoot.2.control = realm.control :=
  control_changeContexts fun contexts contexts' _ now h => by
    cases hr : contexts.resume realm.rootContext now with
    | error f =>
      rw [hr] at h
      cases h
    | ok resumed =>
      rw [hr] at h
      cases h
      exact ⟨(ContextStack.outline_of_resume hr).1, (ContextStack.outline_of_resume hr).2.1⟩

theorem control_parkRoot (realm : Realm H) : realm.parkRoot.2.control = realm.control :=
  control_changeContexts fun contexts contexts' _ now h => by
    cases hr : contexts.suspend realm.rootContext now with
    | error f =>
      rw [hr] at h
      cases h
    | ok suspended =>
      rw [hr] at h
      cases h
      exact ContextStack.outline_of_suspend hr

theorem control_resetAccounting (realm : Realm H) :
    realm.resetAccounting.control = realm.control := by
  simp only [control, resetAccounting, ContextStack.outline_resetAccounting,
    ContextStack.lastId_resetAccounting]
  rfl

/-- Where the root can be woken it is alone on the stack. -/
theorem stack_of_wakeRoot (hr : realm.control.Tidy) (h : realm.wakeRoot.1 = .ok ()) :
    ∃ top, realm.control.stack = [top] := by
  have hresume : ∃ resumed, realm.contexts.resume realm.rootContext realm.clock = .ok resumed := by
    cases heq : realm.contexts.resume realm.rootContext realm.clock with
    | ok resumed => exact ⟨resumed, rfl⟩
    | error f =>
      simp only [wakeRoot, changeContexts, heq, Except.map] at h
      cases h
  obtain ⟨resumed, hresume⟩ := hresume
  have htop := (ContextStack.outline_of_resume hresume).2.2
  cases hstack : realm.control.stack with
  | nil =>
    rw [show realm.contexts.outline = [] from hstack] at htop
    cases htop
  | cons top rest =>
    rw [show realm.contexts.outline = top :: rest from hstack] at htop
    have hid : top.id = realm.rootContext := by simpa using htop
    rw [hr.rest_of_root hstack hid]
    exact ⟨top, rfl⟩

/-- A realm in use, which was not stopped, starts a new account of time and then wakes the root. -/
theorem enterEvaluation_of_usable (hd : realm.disposed = false) (ha : realm.aborted = none) :
    realm.enterEvaluation = realm.resetAccounting.wakeRoot := by
  unfold enterEvaluation
  rw [if_neg (Bool.eq_false_iff.mp hd)]
  split
  · next elapsed haborted => cases haborted.symm.trans ha
  · rfl

/-- Any other realm refuses the evaluation and is left as it is. -/
theorem enterEvaluation_cases (realm : Realm H) :
    (∃ f, realm.enterEvaluation = (.error f, realm))
      ∨ realm.disposed = false ∧ realm.aborted = none
        ∧ realm.enterEvaluation = realm.resetAccounting.wakeRoot := by
  cases hd : realm.disposed with
  | true => exact .inl ⟨_, if_pos hd⟩
  | false =>
    cases ha : realm.aborted with
    | none => exact .inr ⟨rfl, rfl, enterEvaluation_of_usable hd ha⟩
    | some elapsed =>
      refine .inl ⟨.timeout realm.config.timeoutMs elapsed, ?_⟩
      simp [enterEvaluation, hd, ha]

theorem steps_enterEvaluation (realm : Realm H) : realm.Steps realm.enterEvaluation.2 := by
  rcases realm.enterEvaluation_cases with ⟨_, h⟩ | ⟨_, _, h⟩ <;> rw [h]
  · exact .refl realm
  · have hreset : realm.Beside realm.resetAccounting := ⟨rfl, rfl, rfl⟩
    exact hreset.steps.trans (beside_wakeRoot _).steps

theorem steps_leaveEvaluation (realm : Realm H) (outcome : Except Failure α) :
    realm.Steps (realm.leaveEvaluation outcome).2 :=
  realm.beside_unwind.steps.trans (beside_parkRoot _).steps

/-- Checkpoints count anew from the start of an evaluation on. -/
theorem restarts_enterEvaluation (realm : Realm H) : realm.Restarts realm.enterEvaluation.2 := by
  rcases realm.enterEvaluation_cases with ⟨_, h⟩ | ⟨_, _, h⟩ <;> rw [h]
  · exact (Untimed.refl realm).restarts
  · have hwake := realm.resetAccounting.untimed_wakeRoot
    exact ⟨hwake.config, .inr hwake.checkpoints, hwake.aborted⟩

theorem untimed_leaveEvaluation (realm : Realm H) (outcome : Except Failure α) :
    realm.Untimed (realm.leaveEvaluation outcome).2 :=
  realm.untimed_unwind.trans (untimed_parkRoot _)

/-- Starting an evaluation has to do with the account of time only. -/
theorem aside_enterEvaluation (realm : Realm H) :
    realm.enterEvaluation.2.disposed = realm.disposed
      ∧ realm.enterEvaluation.2.ledger = realm.ledger
      ∧ realm.enterEvaluation.2.control = realm.control := by
  rcases realm.enterEvaluation_cases with ⟨_, h⟩ | ⟨_, _, h⟩ <;> rw [h]
  · exact ⟨rfl, rfl, rfl⟩
  · exact ⟨(beside_wakeRoot _).disposed, ledger_wakeRoot _,
      (control_wakeRoot _).trans (control_resetAccounting realm)⟩

/-- An evaluation starts where the root is alone on the stack. -/
theorem stack_of_enterEvaluation (hr : realm.control.Tidy)
    (h : realm.enterEvaluation.1 = .ok ()) : ∃ top, realm.control.stack = [top] := by
  rcases realm.enterEvaluation_cases with ⟨_, heq⟩ | ⟨_, _, heq⟩ <;> rw [heq] at h
  · cases h
  · rw [← control_resetAccounting] at hr ⊢
    exact stack_of_wakeRoot hr h

theorem conducts_enterEvaluation (realm : Realm H) : realm.Conducts realm.enterEvaluation.2 :=
  have h := realm.aside_enterEvaluation
  .of_eq h.1 h.2.1 fun _ => h.2.2

/-- A computation between the start of an evaluation and its end. -/
theorem Conducts.leaveEvaluation (hr : realm.Tidy) (h : realm.enterEvaluation.1 = .ok ())
    (hm : realm.enterEvaluation.2.Conducts middle) (outcome : Except Failure α) :
    realm.Conducts (middle.leaveEvaluation outcome).2 := by
  have hfirst := realm.conducts_enterEvaluation.trans hm
  have hd : (middle.leaveEvaluation outcome).2.disposed = middle.disposed :=
    (beside_parkRoot _).disposed.trans middle.beside_unwind.disposed
  have hl : (middle.leaveEvaluation outcome).2.ledger = middle.ledger :=
    (ledger_parkRoot _).trans middle.ledger_unwind
  refine hfirst.trans (.of_control hd hl fun hmoves hdisposed => ?_)
  -- the root was alone on the stack, and it is so again
  obtain ⟨top, hstack⟩ := stack_of_enterEvaluation (hr.control hmoves (hfirst.usable hdisposed)) h
  have hmiddle : middle.contexts.outline = [top] :=
    (hfirst.control hmoves hdisposed).stack.trans hstack
  have hsame : (middle.leaveEvaluation outcome).2.control = middle.control := by
    refine (control_parkRoot _).trans ?_
    rw [unwind_of_outline hmiddle]
  rw [hsame]
  exact .refl _

end Realm

/-- Starts an evaluation and ends it. -/
def evaluationBracket : Bracket H Unit α α where
  enter := ⟨Realm.enterEvaluation, Realm.steps_enterEvaluation, Realm.restarts_enterEvaluation⟩
  leave := fun _ outcome =>
    { apply := fun realm => realm.leaveEvaluation outcome
      steps := fun realm => realm.steps_leaveEvaluation outcome
      restarts := fun realm => (realm.untimed_leaveEvaluation outcome).restarts }
  refused := fun realm _ _ _ => realm.conducts_enterEvaluation
  advances := fun realm _ _ _ => realm.conducts_enterEvaluation.advances
  conducts := fun _ _ _ outcome hr h hm => hm.leaveEvaluation hr h outcome

/-- Runs a computation as an evaluation. -/
def execute (x : Routine H α) : Routine H α := .bracket evaluationBracket fun _ => x

/-! ### Jobs -/

/-- Runs the next job, given how many have run, or finishes with that number where no job waits. A
failure that code could catch ends only its own job. -/
def runNextJob (ran : Nat) : Engine H (Round Nat Nat) := do
  match ← nextTask? with
  | none => return .finish ran
  | some task =>
    match ← attempt task.run with
    | .ok () => return .again (ran + 1)
    | .error f => if f.isFatal then fail f else return .again (ran + 1)

/-- Runs the jobs that wait, and those that they add; how many ran. -/
def runJobs : Routine H Nat := execute (loop runNextJob 0).toRoutine

/-! ### The end of a realm -/

/-- A realm without contents. -/
def Realm.emptied (realm : Realm H) : Realm H :=
  { realm with
    contexts := realm.contexts.clear
    jobs := []
    namespaces := {}
    symbols := {}
    environments := #[]
    heap := #[]
    disposed := true }

/-- Empties a realm. -/
def dispose : Routine H Unit where
  act := fun _ realm => .ok () (if realm.disposed then realm else realm.emptied)
  lawful := fun _ _ realm _ => by
    dsimp only [Realm.Allows]
    split
    · exact .refl realm
    · next hd =>
      have h : Realm.Step realm realm.emptied := .dispose (by simpa using hd) rfl rfl rfl
      exact h.leads rfl
  blind := fun _ _ _ => by
    refine ⟨fun realm => ?_, fun realm _ depth => ?_⟩
    · dsimp only [outcomeRealm]
      split
      · rfl
      · rfl
    · change EStateM.Result.ok () (if realm.disposed then realm.atDepth depth
        else (realm.atDepth depth).emptied) = _
      by_cases hd : realm.disposed
      · simp [hd, outcomeAtDepth]
      · simp [hd, outcomeAtDepth, Realm.emptied, Realm.atDepth]
  conducted := fun _ _ realm _ => by
    dsimp only [Realm.Directs]
    split
    · exact .refl realm
    · exact .of_disposed rfl
  timed := .own _ (fun _ _ _ => rfl) fun _ realm => by
    dsimp only [outcomeRealm]
    split
    · exact .refl realm
    · exact ⟨rfl, rfl, rfl⟩

/-- Records where a failure arose, unless that is known. -/
def Engine.enrich (f : Failure) (nodePath : String) : Engine H Failure :=
  return f.withTraceIfAbsent { nodePath, frames := (← getRealm).stackFrames }

/-! ### Modules of the host -/

/-- A new module whose exports are undefined at first. -/
def createModule (names : List String) : Engine H ModuleId := do
  let scope ← newEnvironment (some (← getRealm).globalEnvironment) .module
  names.forM fun name => do
    scope.createMutableBinding name false
    scope.initializeBinding name .undefined
  newModule fun self => .ofOwnNames self scope names

/-- Sets the value of an export. -/
def ModuleId.setExport (m : ModuleId) (name : String) (v : Value) : Engine H Unit := do
  let record ← getModule m
  if !record.exportedNames.contains name then
    referenceError ("module does not export '" ++ name ++ "'")
  match record.environment with
  | some scope => scope.setMutableBinding name v true
  | none => referenceError ("Cannot assign '" ++ name ++ "': module environment is gone")

end ScriptEngine
