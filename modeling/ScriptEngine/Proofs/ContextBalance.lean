import ScriptEngine.Evaluation
import ScriptEngine.Proofs.Conduct
import ScriptEngine.Proofs.Lawful

/-!
# Contexts in balance

Calls and the resumption of generators put contexts on the stack and take them off again, whatever
they come to. The engine's own part of that is in the type of its computations. The code of the host
that runs in between may do otherwise, and whether it does shows when each piece of it is guarded:
the guard gives up where a piece leaves the contexts out of balance. Where the guard changes nothing
about a call, the contexts and the depth of calls are in the end as they were.

An evaluation may leave contexts behind. They are taken off at its end, and since each of them
suspended the one below, the root runs again at last and can be suspended.

## Main definitions

* `Host.guarded`: the host with a guard around each piece of its code.
* `Engine.Balanced`: a computation leaves the contexts as they were, if the code of the host does.
* `Mark.Worked`, `Realm.Works`: contexts are pushed and popped, but never the lowest one.
* `Realm.Parked`: the root is alone on the stack and suspended.

## Main results

* `Surroundings.bounded_steady`: requests leave the contexts in balance, if the code of the host
  does.
* `Host.bounded_guarded`: a host whose code leaves them in balance does not notice the guard.
* `execute_run`: an evaluation has the outcome of the computation that it runs, and parks the root.
* `calls_balance_contexts`: both for calls, constructions, generators and evaluations.
* `not_execute_returns`: a realm that was stopped refuses evaluations.
-/

namespace ScriptEngine

open Engine

variable {H : HostTypes} {α : Type} {host : Host H} {bound : Nat} {realm middle after : Realm H}

/-! ### Requests -/

theorem Action.closed_steady : Action.Closed (fun {_} (x : Action H _) => x.Steady) where
  engine x := x.steady
  modifyObject o f _ := Action.steady_modifyObject o f
  andThen hx hf := hx.andThen hf
  nested hx := hx.nested

/-- Whatever a request does, it leaves the contexts in balance, if the code of the host does. -/
theorem Surroundings.bounded_steady (hh : ∀ request, (host request).act.Steady) (bound : Nat) :
    (Surroundings.bounded host bound).Steady := by
  -- the bound decreases at every level of nesting
  induction bound with
  | zero => exact fun _ _ => trivial
  | succ bound ih => exact fun r => Action.closed_steady.respond hh r (.bounded host bound) ih

theorem Realm.Balances.marks {outcome : EStateM.Result Stop (Realm H) α}
    (h : realm.Balances outcome) (he : EndsIn outcome after) : after.marks = realm.marks := by
  rcases he with ⟨a, rfl⟩ | ⟨f, rfl⟩
  · exact h
  · exact h

theorem Engine.marks_run {x : Engine H α} (hh : ∀ request, (host request).act.Steady)
    (he : EndsIn (x.run host bound realm) after) : after.marks = realm.marks :=
  (x.steady _ (Surroundings.bounded_steady hh bound) realm).marks he

theorem Routine.callDepth_run {x : Routine H α} (hr : realm.Sound)
    (he : EndsIn (x.run host bound realm) after) : after.callDepth = realm.callDepth :=
  ((x.lawful _ (Surroundings.bounded_lawful host bound) realm hr).leads he).callDepth

/-! ### The code of the host -/

/-- An outcome, or giving up where it leaves the contexts out of balance. -/
def Realm.guard (realm : Realm H) (outcome : EStateM.Result Stop (Realm H) α) :
    EStateM.Result Stop (Realm H) α :=
  if (outcomeRealm outcome).marks = realm.marks then outcome
  else .error .exhausted (outcomeRealm outcome)

theorem Realm.guard_cases (realm : Realm H) (outcome : EStateM.Result Stop (Realm H) α) :
    realm.guard outcome = outcome ∧ (outcomeRealm outcome).marks = realm.marks
      ∨ realm.guard outcome = .error .exhausted (outcomeRealm outcome) := by
  by_cases h : (outcomeRealm outcome).marks = realm.marks
  · exact .inl ⟨if_pos h, h⟩
  · exact .inr (if_neg h)

theorem outcomeRealm_atDepth (depth : Nat) (outcome : EStateM.Result Stop (Realm H) α) :
    outcomeRealm (outcomeAtDepth depth outcome) = (outcomeRealm outcome).atDepth depth := by
  cases outcome with
  | ok a after => rfl
  | error stop after => rfl

theorem Realm.guard_atDepth (realm : Realm H) (depth : Nat)
    (outcome : EStateM.Result Stop (Realm H) α) :
    (realm.atDepth depth).guard (outcomeAtDepth depth outcome)
      = outcomeAtDepth depth (realm.guard outcome) := by
  have hmarks (after : Realm H) : (after.atDepth depth).marks = after.marks := rfl
  simp only [guard, outcomeRealm_atDepth, hmarks]
  split
  · rfl
  · rfl

/-- The end of a guarded computation: its outcome, or giving up. -/
def Action.guardEnd (marks : List Mark) (outcome : Except Failure α) : Action H α := fun _ realm =>
  if realm.marks = marks then
    match outcome with
    | .ok a => .ok a realm
    | .error f => .error (.failure f) realm
  else .error .exhausted realm

/-- To guard a computation is to remember the marks, and to look at them again in the end. -/
theorem Action.guard_eq (x : Action H α) :
    (fun surroundings realm => realm.guard (x surroundings realm))
      = andThen (fun _ realm => .ok realm.marks realm) fun marks =>
          x.attempt.andThen fun outcome => guardEnd marks outcome := by
  funext surroundings realm
  simp only [andThen, attempt, guardEnd, Realm.guard]
  cases x surroundings realm with
  | ok a after => rfl
  | error stop after =>
    cases stop with
    | failure f => rfl
    | exhausted => exact ite_self _

theorem Action.timed_guard {x : Action H α} {evaluates : Bool} (hx : x.Timed evaluates) :
    Action.Timed evaluates fun surroundings realm => realm.guard (x surroundings realm) := by
  rw [guard_eq]
  refine .andThen (.own _ (fun _ _ _ => rfl) fun _ realm => .refl realm) fun marks =>
    .andThen hx.attempt fun outcome => .own _ (fun _ _ _ => rfl) fun _ realm => ?_
  unfold guardEnd
  split
  · cases outcome with
    | ok a => exact .refl realm
    | error f => exact .refl realm
  · exact .refl realm

/-- A piece of code that gives up where it would leave the contexts out of balance. -/
def Routine.guarded (x : Routine H α) : Routine H α where
  act := fun surroundings realm => realm.guard (x.act surroundings realm)
  lawful := by
    intro surroundings hs realm hr
    have h := x.lawful surroundings hs realm hr
    dsimp only
    rcases realm.guard_cases (x.act surroundings realm) with ⟨heq, -⟩ | heq
    · rwa [heq]
    · rw [heq]
      trivial
  blind := by
    intro hd surroundings hs
    obtain ⟨hconfig, hsame⟩ := x.blind hd surroundings hs
    refine ⟨fun realm => ?_, fun realm hz depth => ?_⟩
    · dsimp only
      rcases realm.guard_cases (x.act surroundings realm) with ⟨heq, -⟩ | heq
      · rw [heq]
        exact hconfig realm
      · rw [heq]
        exact hconfig realm
    · exact (congrArg _ (hsame realm hz depth)).trans (realm.guard_atDepth depth _)
  conducted := by
    intro surroundings hs realm hr
    have h := x.conducted surroundings hs realm hr
    dsimp only
    rcases realm.guard_cases (x.act surroundings realm) with ⟨heq, -⟩ | heq
    · rwa [heq]
    · rw [heq]
      trivial
  timed := Action.timed_guard x.timed

theorem Routine.steady_guarded (x : Routine H α) : x.guarded.act.Steady := by
  intro surroundings _ realm
  change realm.Balances (realm.guard (x.act surroundings realm))
  rcases realm.guard_cases (x.act surroundings realm) with ⟨heq, hmarks⟩ | heq
  · rw [heq]
    match x.act surroundings realm, hmarks with
    | .ok _ _, hmarks => exact hmarks
    | .error (.failure _) _, hmarks => exact hmarks
    | .error .exhausted _, _ => trivial
  · rw [heq]
    trivial

/-- The host with a guard around each piece of its code. -/
def Host.guarded (host : Host H) : Host H := fun request => (host request).guarded

/-- A host none of whose code leaves the contexts out of balance does not notice the guard. -/
theorem Host.bounded_guarded
    (hh : ∀ request bound realm after, EndsIn ((host request).run host bound realm) after →
      after.marks = realm.marks) (bound : Nat) :
    Surroundings.bounded host.guarded bound = .bounded host bound := by
  have hanswer (bound : Nat) : @answer H host.guarded bound = answer host bound := by
    induction bound with
    | zero => rfl
    | succ bound ih =>
      funext r realm
      change respond host.guarded r { fuel := bound, perform := answer host.guarded bound } realm
        = respond host r { fuel := bound, perform := answer host bound } realm
      rw [ih]
      cases r with
      | host request =>
        change realm.guard ((host request).run host bound realm)
          = (host request).run host bound realm
        match hx : (host request).run host bound realm with
        | .ok a after => exact if_pos (hh request bound realm after (hx ▸ .inl ⟨a, rfl⟩))
        | .error (.failure f) after =>
          exact if_pos (hh request bound realm after (hx ▸ .inr ⟨f, rfl⟩))
        | .error .exhausted after => exact ite_self _
      | _ => rfl
  simp only [Surroundings.bounded, hanswer]

/-- However the computation ends, the contexts and the depth of calls are as before, if no piece of
the host's code that runs would be stopped by a guard. -/
def Engine.Balanced (x : Engine H α) (host : Host H) (realm : Realm H) : Prop :=
  ∀ bound after, x.run host.guarded bound realm = x.run host bound realm →
    EndsIn (x.run host bound realm) after →
    after.marks = realm.marks ∧ after.callDepth = realm.callDepth

theorem Engine.balanced (x : Engine H α) (host : Host H) (hr : realm.Sound) :
    x.Balanced host realm := by
  intro bound after hguard he
  refine ⟨?_, Routine.callDepth_run hr he⟩
  rw [← hguard] at he
  exact Engine.marks_run (fun request => (host request).steady_guarded) he

/-! ### Pushing and popping -/

namespace Mark

/-- Contexts are pushed and popped, but never the lowest one. -/
inductive Worked (marks : List Mark) : List Mark → Prop
  | refl : Worked marks marks
  | push {after : List Mark} (h : Worked marks after) (id : Nat) : Worked marks (push id after)
  | pop {after : List Mark} (h : Worked marks after) (hl : 1 < after.length) :
      Worked marks (pop after)

variable {marks after : List Mark} {root : Nat} {flag : Bool}

/-- The marks of a running root and of contexts that were pushed on top of it. -/
inductive Grown (root : Nat) (flag : Bool) : List Mark → Prop
  | root : Grown root flag [⟨root, false, flag⟩]
  | push {marks : List Mark} (h : Grown root flag marks) (id : Nat) :
      Grown root flag (push id marks)

theorem length_push (id : Nat) (marks : List Mark) : (push id marks).length = marks.length + 1 := by
  cases marks with
  | nil => rfl
  | cons caller rest => rfl

theorem Grown.length_pos (h : Grown root flag marks) : 0 < marks.length := by
  cases h with
  | root => exact Nat.one_pos
  | push _ id => exact length_push id _ ▸ Nat.succ_pos _

/-- What was pushed last is what is popped first. -/
theorem Worked.grown (h : Worked marks after) (hg : Grown root flag marks) :
    Grown root flag after := by
  induction h with
  | refl => exact hg
  | push _ id ih => exact ih.push id
  | pop _ hl ih =>
    cases ih with
    | root => exact absurd hl (Nat.lt_irrefl 1)
    | push h id => exact (pop_push id _).symm ▸ h

/-- Once the contexts on top are popped, the root runs. -/
theorem Grown.unwound (h : Grown root flag marks) :
    pop^[marks.length - 1] marks = [⟨root, false, flag⟩] := by
  induction h with
  | root => rfl
  | push h id ih =>
    rw [length_push, Nat.add_sub_cancel, ← Nat.sub_add_cancel h.length_pos,
      Function.iterate_succ_apply, pop_push]
    exact ih

end Mark

namespace ContextStack

variable {φ : Type} {s : ContextStack φ} {id : Nat}

theorem marks_resetAccounting (s : ContextStack φ) (now : Nat) :
    (s.resetAccounting now).marks = s.marks := by
  simp only [marks, resetAccounting, List.map_map]
  rfl

/-- A context alone on the stack that is suspended can be resumed. -/
theorem resume_alone {flag : Bool} (h : s.marks = [⟨id, true, flag⟩]) (now : Nat) :
    ∃ s', s.resume id now = .ok s' ∧ s'.marks = [⟨id, false, flag⟩] := by
  obtain ⟨top, hs, htop⟩ := List.map_eq_singleton_iff.mp h
  obtain ⟨hid, hsuspended, hflag⟩ := Mark.mk.inj htop
  refine ⟨_, resume_eq_ok.mpr ⟨top, [], hs, hid, hsuspended, rfl⟩, ?_⟩
  simp [marks, Context.mark, Context.start, hid, hflag]

/-- A context alone on the stack that runs can be suspended. -/
theorem suspend_alone {flag : Bool} (h : s.marks = [⟨id, false, flag⟩]) (now : Nat) :
    ∃ s', s.suspend id now = .ok s' ∧ s'.marks = [⟨id, true, flag⟩] := by
  obtain ⟨top, hs, htop⟩ := List.map_eq_singleton_iff.mp h
  obtain ⟨hid, hsuspended, hflag⟩ := Mark.mk.inj htop
  refine ⟨_, suspend_eq_ok.mpr ⟨top, [], hs, hid, hsuspended, rfl⟩, ?_⟩
  simp [marks, Context.mark, Context.stop, hid, hflag]

end ContextStack

/-! ### Evaluations -/

namespace Realm

/-- The root is alone on the stack and suspended. -/
def Parked (realm : Realm H) : Prop := ∃ flag, realm.marks = [⟨realm.rootContext, true, flag⟩]

/-- Contexts are pushed and popped, but never the root. -/
structure Works (realm after : Realm H) : Prop where
  root : after.rootContext = realm.rootContext
  marks : Mark.Worked realm.marks after.marks

theorem Works.refl (realm : Realm H) : realm.Works realm := ⟨rfl, .refl⟩

theorem marks_popMany (realm : Realm H) (count : Nat) :
    (realm.popMany count).marks = Mark.pop^[count] realm.marks := by
  induction count generalizing realm with
  | zero => rfl
  | succ count ih =>
    rw [popMany, ih, Function.iterate_succ_apply]
    congr 1
    unfold changeContexts
    split
    · next hpop => exact ContextStack.marks_of_pop hpop
    · next hpop =>
      have hnone : realm.marks = [] := ContextStack.marks_of_pop_error hpop
      rw [hnone]
      rfl

theorem marks_unwind {root : Nat} {flag : Bool} (h : Mark.Grown root flag realm.marks) :
    realm.unwind.marks = [⟨root, false, flag⟩] := by
  have hsize : realm.contexts.size = realm.marks.length := (List.length_map _).symm
  rw [unwind, marks_popMany, hsize]
  exact h.unwound

/-- A root that is alone on the stack and suspended can be woken. -/
theorem Parked.resume (hp : realm.Parked) :
    ∃ flag contexts,
      (realm.contexts.resetAccounting realm.clock).resume realm.rootContext realm.clock
          = .ok contexts
        ∧ contexts.marks = [⟨realm.rootContext, false, flag⟩] := by
  obtain ⟨flag, hmarks⟩ := hp
  obtain ⟨contexts, hresume, hrunning⟩ := ContextStack.resume_alone
    ((realm.contexts.marks_resetAccounting realm.clock).trans hmarks) realm.clock
  exact ⟨flag, contexts, hresume, hrunning⟩

theorem enterEvaluation_of_resume {contexts : ContextStack (Frame H)} (hd : realm.disposed = false)
    (ha : realm.aborted = none)
    (h : (realm.contexts.resetAccounting realm.clock).resume realm.rootContext realm.clock
      = .ok contexts) :
    realm.enterEvaluation = (.ok (), { realm.looked with checkpoints := 0, contexts }) := by
  rw [enterEvaluation_of_usable hd ha]
  have hresume : realm.resetAccounting.contexts.resume realm.resetAccounting.rootContext
      realm.resetAccounting.clock = .ok contexts := h
  simp only [wakeRoot, changeContexts, hresume, Except.map]
  rfl

/-- The depth of calls, which code may not see, is nothing to an evaluation. -/
theorem enterEvaluation_seen (realm : Realm H) :
    realm.seen.enterEvaluation.1 = realm.enterEvaluation.1
      ∧ realm.seen.enterEvaluation.2.atDepth realm.callDepth = realm.enterEvaluation.2 := by
  have hsame : realm.seen.disposed = realm.disposed ∧ realm.seen.aborted = realm.aborted :=
    ⟨rfl, rfl⟩
  unfold enterEvaluation
  rw [hsame.1, hsame.2]
  split
  · exact ⟨rfl, rfl⟩
  split
  · exact ⟨rfl, rfl⟩
  · have hresume : realm.seen.resetAccounting.contexts.resume realm.seen.resetAccounting.rootContext
        realm.seen.resetAccounting.clock = realm.resetAccounting.contexts.resume
          realm.resetAccounting.rootContext realm.resetAccounting.clock := rfl
    simp only [wakeRoot, changeContexts, hresume]
    cases realm.resetAccounting.contexts.resume realm.resetAccounting.rootContext
        realm.resetAccounting.clock with
    | ok contexts => exact ⟨rfl, rfl⟩
    | error failure => exact ⟨rfl, rfl⟩

/-- An evaluation that only pushed and popped contexts ends with its outcome and the root parked. -/
theorem leaveEvaluation_eq {flag : Bool} (h : Mark.Grown realm.rootContext flag realm.marks)
    (outcome : Except Failure α) :
    ∃ contexts time, contexts.marks = [⟨realm.rootContext, true, flag⟩]
      ∧ realm.leaveEvaluation outcome = (outcome, { realm with contexts, time }) := by
  obtain ⟨unwound, time, hunwind⟩ := realm.exists_unwind
  have hmarks : unwound.marks = [⟨realm.rootContext, false, flag⟩] := by
    have hunwound := marks_unwind h
    rwa [hunwind] at hunwound
  obtain ⟨contexts, hsuspend, hparked⟩ := ContextStack.suspend_alone hmarks time.now
  refine ⟨contexts, time.looked, hparked, ?_⟩
  unfold leaveEvaluation
  rw [hunwind]
  simp only [parkRoot, changeContexts, clock, looked, hsuspend, Except.map]
  cases outcome with
  | ok a => rfl
  | error f => rfl

end Realm

/-- The outcome of a computation that comes to a change of the realm. -/
theorem Action.attempt_of_transition {x : Action H α} {surroundings : Surroundings H}
    {change : Realm H → Except Failure α × Realm H}
    (hx : x surroundings realm = transition change surroundings middle) :
    x.attempt surroundings realm
      = .ok (change middle.seen).1 ((change middle.seen).2.atDepth middle.callDepth) := by
  match h : change middle.seen with
  | (.ok a, after) => simp only [attempt, hx, transition, h]
  | (.error f, after) => simp only [attempt, hx, transition, h]

section Execute

variable {x : Routine H α} {outcome : Except Failure α}

/-- An evaluation that is not refused runs what it is given after its start, and then ends. -/
theorem execute_of_enter (x : Routine H α) (h : realm.enterEvaluation.1 = .ok ()) :
    (execute x).run host bound realm
      = x.act.attempt.andThen
          (fun outcome => Action.transition fun realm => realm.leaveEvaluation outcome)
          (.bounded host bound) realm.enterEvaluation.2 := by
  obtain ⟨hseen, hstart⟩ := realm.enterEvaluation_seen
  refine (Routine.bracket_of_enter (hseen.trans h)).trans ?_
  change Action.andThen _ _ _ (realm.seen.enterEvaluation.2.atDepth realm.callDepth) = _
  rw [hstart]
  rfl

/-- An evaluation of a realm whose root is parked runs what it is given after the root was woken,
and then ends. -/
theorem execute_eq (x : Routine H α) (hp : realm.Parked) (hd : realm.disposed = false)
    (ha : realm.aborted = none) :
    (execute x).run host bound realm
      = x.act.attempt.andThen
          (fun outcome => Action.transition fun realm => realm.leaveEvaluation outcome)
          (.bounded host bound) realm.enterEvaluation.2 := by
  obtain ⟨-, contexts, hresume, -⟩ := hp.resume
  exact execute_of_enter x (congrArg Prod.fst (Realm.enterEvaluation_of_resume hd ha hresume))

/-- Once the computation has an outcome, the evaluation is ended. -/
theorem execute_of_outcome (hp : realm.Parked) (hd : realm.disposed = false)
    (ha : realm.aborted = none)
    (hx : x.attempt.run host bound realm.enterEvaluation.2 = .ok outcome middle) :
    (execute x).attempt.run host bound realm
      = .ok (middle.seen.leaveEvaluation outcome).1
          ((middle.seen.leaveEvaluation outcome).2.atDepth middle.callDepth) := by
  have hrun : (execute x).act (.bounded host bound) realm
      = Action.transition (fun realm => realm.leaveEvaluation outcome) (.bounded host bound)
          middle := by
    refine (execute_eq x hp hd ha).trans ?_
    have hx' : x.act.attempt (.bounded host bound) realm.enterEvaluation.2
      = .ok outcome middle := hx
    simp only [Action.andThen, hx']
  exact Action.attempt_of_transition hrun

/-- There is an outcome of an evaluation only if there is one of the computation. -/
theorem exists_of_execute {result : Except Failure α} (hp : realm.Parked)
    (hd : realm.disposed = false) (ha : realm.aborted = none)
    (h : (execute x).attempt.run host bound realm = .ok result after) :
    ∃ outcome middle, x.attempt.run host bound realm.enterEvaluation.2 = .ok outcome middle := by
  match hx : x.act.attempt (.bounded host bound) realm.enterEvaluation.2 with
  | .ok outcome middle => exact ⟨outcome, middle, hx⟩
  | .error (.failure f) middle => exact absurd hx Action.attempt_ne_error
  | .error .exhausted middle =>
    have hrun : (execute x).act (.bounded host bound) realm = .error .exhausted middle := by
      refine (execute_eq x hp hd ha).trans ?_
      simp only [Action.andThen, hx]
    simp only [Routine.run, Routine.attempt, Action.attempt, hrun] at h
    cases h

/-- An evaluation of a realm whose root is parked has the outcome of the computation that it runs,
which may leave contexts behind, and parks the root again. -/
theorem execute_run (hp : realm.Parked) (hd : realm.disposed = false) (ha : realm.aborted = none)
    (hx : x.attempt.run host bound realm.enterEvaluation.2 = .ok outcome middle)
    (hw : realm.enterEvaluation.2.Works middle) :
    ∃ contexts time,
      (execute x).attempt.run host bound realm = .ok outcome { middle with contexts, time }
        ∧ Realm.Parked { middle with contexts, time } := by
  have hgrown : ∃ flag, Mark.Grown middle.rootContext flag middle.marks := by
    obtain ⟨flag, contexts, hresume, hrunning⟩ := hp.resume
    rw [Realm.enterEvaluation_of_resume hd ha hresume] at hw
    have hstart : Realm.marks { realm.looked with checkpoints := 0, contexts }
        = [⟨realm.rootContext, false, flag⟩] := hrunning
    exact ⟨flag, hw.root ▸ hw.marks.grown (hstart ▸ .root)⟩
  obtain ⟨flag, hgrown⟩ := hgrown
  obtain ⟨contexts, time, hparked, hleave⟩ := middle.seen.leaveEvaluation_eq hgrown outcome
  refine ⟨contexts, time, (execute_of_outcome hp hd ha hx).trans ?_, flag, hparked⟩
  rw [hleave]
  rfl

end Execute

/-- Whatever calling, constructing or resuming a generator comes to, the contexts and the depth of
calls are as before, if each piece of the host's code that runs leaves the contexts as it found
them. An evaluation of a realm whose root is parked and which was not stopped has the outcome of
what it runs, if that only pushes and pops contexts, and the root is parked in the end. -/
theorem calls_balance_contexts (host : Host H) (hr : realm.Reachable) :
    (∀ f this args, (callFunction nativeBehaviour f this args).Balanced host realm)
      ∧ (∀ f args newTarget,
        (constructFunction nativeBehaviour f args newTarget).Balanced host realm)
      ∧ (∀ generator v : Value, (generator.resumeGenerator v).Balanced host realm)
      ∧ (∀ (generator : Value) completion,
        (generator.resumeGeneratorAbruptly completion).Balanced host realm)
      ∧ ∀ {α : Type} (x : Routine H α) bound outcome middle,
        realm.Parked → realm.disposed = false → realm.aborted = none →
        x.attempt.run host bound realm.enterEvaluation.2 = .ok outcome middle →
        realm.enterEvaluation.2.Works middle →
        ∃ after, (execute x).attempt.run host bound realm = .ok outcome after ∧ after.Parked := by
  refine ⟨fun f this args => ?_, fun f args newTarget => ?_, fun generator v => ?_,
    fun generator completion => ?_, fun x bound outcome middle hp hd ha hx hw => ?_⟩
  · exact Engine.balanced _ host hr.sound
  · exact Engine.balanced _ host hr.sound
  · exact Engine.balanced _ host hr.sound
  · exact Engine.balanced _ host hr.sound
  · obtain ⟨contexts, time, hrun, hparked⟩ := execute_run hp hd ha hx hw
    exact ⟨_, hrun, hparked⟩

/-! ### Contexts that come and go -/

/-- Puts a context on the stack. -/
def pushEmpty : Routine HostTypes.bare Unit :=
  changeContexts fun contexts now =>
    let (context, contexts) := contexts.newContext {}
    .ok ((), contexts.push context now)

/-- A host whose functions put a context on the stack and take it off again. -/
def movingHost : Host HostTypes.bare
  | .native .. => do
    pushEmpty
    let _ ← changeContexts ContextStack.pop
    return .undefined
  | r => Host.bare r

/-- A function of the host. -/
def hostFunction : Object HostTypes.bare := .ofKind none (.function (.native (.host ()) false))

/-- A realm with that function and a parked root. -/
def parkedRealm : Realm HostTypes.bare :=
  { heap := #[hostFunction]
    contexts := { contexts := [{ id := 1, frame := {} }], lastId := 1 }
    rootContext := 1
    store := () }

theorem parkedRealm_reachable : parkedRealm.Reachable := by
  have empty : Realm.Reachable ({ parkedRealm with heap := #[] } : Realm HostTypes.bare) :=
    .empty rfl
  exact empty.step (.allocate _ hostFunction (.ofKind none _) (.of_not_isArray rfl))

/-- A call of the function leaves the contexts as they were, and an evaluation that leaves a context
behind parks the root. -/
theorem calls_balance_contexts_parkedRealm :
    (∃ after, (callFunction nativeBehaviour (.object ⟨0⟩) .undefined []).run movingHost 2
          parkedRealm = .ok .undefined after
        ∧ after.marks = parkedRealm.marks ∧ after.callDepth = parkedRealm.callDepth)
      ∧ ∃ after, (execute pushEmpty).attempt.run movingHost 2 parkedRealm = .ok (.ok ()) after
        ∧ after.Parked := by
  obtain ⟨hcall, -, -, -, hexecute⟩ := calls_balance_contexts movingHost parkedRealm_reachable
  refine ⟨⟨_, rfl, ?_⟩, ?_⟩
  · exact hcall (.object ⟨0⟩) .undefined [] 2 _ rfl (.inl ⟨_, rfl⟩)
  · exact hexecute pushEmpty 2 (.ok ()) _ ⟨false, rfl⟩ rfl rfl rfl ⟨rfl, Mark.Worked.refl.push 2⟩

/-- A realm that was stopped refuses evaluations although its root is parked. -/
theorem not_execute_returns :
    ¬∀ (host : Host HostTypes.bare) (bound : Nat) (realm : Realm HostTypes.bare)
      (x : Routine HostTypes.bare Nat) (outcome : Except Failure Nat)
      (middle : Realm HostTypes.bare),
      realm.Reachable → realm.Parked →
      x.attempt.run host bound realm.enterEvaluation.2 = .ok outcome middle →
      realm.enterEvaluation.2.Works middle →
      ∃ after, (execute x).attempt.run host bound realm = .ok outcome after ∧ after.Parked := by
  intro h
  have hr : Realm.Reachable ({ parkedRealm with aborted := some 50 } : Realm HostTypes.bare) :=
    parkedRealm_reachable.step (.beside ⟨rfl, rfl, rfl⟩)
  obtain ⟨after, hrun, -⟩ := h Host.bare 0 _ (pure 7) (.ok 7) _ hr ⟨false, rfl⟩ rfl (.refl _)
  cases hrun

end ScriptEngine
