import Mathlib.Data.List.Infix
import ScriptEngine.Evaluation
import ScriptEngine.Proofs.PromiseSettlement

/-!
# The order of reactions

Reactions to a pending promise wait with it, in two lists, and go to the queue of jobs when it is
settled; reactions to a settled promise go to the queue at once. Every reaction is attached by one
move, so that the history of a realm tells the order in which they were attached, and whatever else
happens in between: each has its job queued once, in that order, and the jobs start in that order. A
round of running the jobs starts the next one, and a reaction that is started calls its handler.

## Main definitions

* `thenReactions`: the reactions that `ObjectId.performThen` attaches.
* `History.Delivers`: the reactions to a promise are queued and started as a history tells.
* `Reaction.settle`: what becomes of a reaction whose handler has come to an outcome.
* `Realm.Starts`: a round of running the jobs starts a job.

## Main results

* `ObjectId.performThen_moves`: attaching reactions is one move.
* `reactions_run_once_in_order`: every realm of a run has a history, and all its histories deliver.
-/

namespace ScriptEngine

open Engine

variable {H : HostTypes} {host : Host H} {bound : Nat} {realm after : Realm H} {p : ObjectId}

/-! ### Attaching reactions and starting jobs -/

/-- The reactions to fulfillment and to rejection that handlers make, if they can be called. -/
def thenReactions (realm : Realm H) (onFulfilled onRejected : Value)
    (capability : Option Capability) : Reaction × Reaction :=
  let handler (v : Value) := if realm.isCallable v then some v else none
  ({ capability, isReject := false, handler := handler onFulfilled },
    { capability, isReject := true, handler := handler onRejected })

theorem Engine.isCallable_eq (v : Value) (s : Surroundings H) (realm : Realm H) :
    (isCallable v).act s realm = .ok (realm.isCallable v) realm :=
  rfl

/-- Attaching reactions to a promise is one move, and nothing happens where it is none. -/
theorem ObjectId.performThen_moves (host : Host H) (bound : Nat) (realm : Realm H) (p : ObjectId)
    (onFulfilled onRejected : Value) (capability : Option Capability) :
    let reactions := thenReactions realm onFulfilled onRejected capability
    (∃ data after, realm.ledger.promise? p = some data
        ∧ (p.performThen onFulfilled onRejected capability).run host bound realm
          = .ok ((capability.map fun c => Value.object c.promise).getD .undefined) after
        ∧ realm.ledger.Move (.register p reactions.1 reactions.2
            (data.registrationJobs reactions.1 reactions.2)) after.ledger)
      ∨ realm.ledger.promise? p = none
        ∧ ∃ f, (p.performThen onFulfilled onRejected capability).run host bound realm
          = .error (.failure f) realm := by
  intro reactions
  unfold Routine.run ObjectId.performThen
  rw [Engine.bind_of_ok (isCallable_eq onFulfilled _ realm),
    Engine.bind_of_ok (isCallable_eq onRejected _ realm)]
  rcases realm.seen.register_cases p reactions.1 reactions.2 with
    ⟨hnone, f, hregister⟩ | ⟨data, hp, hregister⟩
  · have hrun : (p.register reactions.1 reactions.2).act (.bounded host bound) realm
        = .error (.failure f) (realm.seen.atDepth realm.callDepth) := by
      simp only [ObjectId.register, Engine.transition, Routine.transition, Action.transition,
        hregister]
    exact .inr ⟨hnone, f, Engine.bind_of_error hrun⟩
  · generalize hafter : (realm.seen.setPromise p _).queue _ = after at hregister
    have hrun : (p.register reactions.1 reactions.2).act (.bounded host bound) realm
        = .ok () (after.atDepth realm.callDepth) := by
      simp only [ObjectId.register, Engine.transition, Routine.transition, Action.transition,
        hregister]
    refine .inl ⟨data, after.atDepth realm.callDepth, hp, (Engine.bind_of_ok hrun).trans ?_, ?_⟩
    · cases capability <;> rfl
    · change realm.ledger.Move _ after.ledger
      rw [← hafter, Realm.ledger_queue, realm.seen.ledger_setPromise hp]
      exact .register realm.ledger p data _ _ hp

theorem nextTask?_eq (s : Surroundings H) (realm : Realm H) :
    nextTask?.act s realm = .ok realm.startJob.1 realm.startJob.2 := by
  have hseen : realm.seen.startJob
      = (realm.startJob.1, realm.startJob.2.atDepth realm.seen.callDepth) := by
    have hjobs : realm.seen.jobs = realm.jobs := rfl
    unfold Realm.startJob
    rw [hjobs]
    cases realm.jobs with
    | nil => rfl
    | cons job rest => rfl
  have hdepth : realm.startJob.2.callDepth = realm.callDepth := by
    rcases realm.startJob_cases with ⟨_, h⟩ | ⟨_, _, _, h⟩ <;> rw [h]
  simp only [nextTask?, Engine.transition, Routine.transition, Action.transition, hseen]
  rw [← hdepth]
  rfl

/-- Going on with the next job is one move, and there is none if no job waits. -/
theorem nextTask?_moves (host : Host H) (bound : Nat) (realm : Realm H) :
    (∃ job rest after, realm.jobs = job :: rest
        ∧ (nextTask? : Engine H (Option (Task H))).run host bound realm
          = .ok (some (job.task realm.latches.size)) after
        ∧ realm.ledger.Move (.start job) after.ledger)
      ∨ realm.jobs = []
        ∧ (nextTask? : Engine H (Option (Task H))).run host bound realm = .ok none realm := by
  have hnext := nextTask?_eq (.bounded host bound) realm
  rcases realm.startJob_cases with ⟨hjobs, h⟩ | ⟨job, rest, hjobs, h⟩
  · rw [h] at hnext
    exact .inr ⟨hjobs, hnext⟩
  · rw [h] at hnext
    exact .inl ⟨job, rest, _, hjobs, hnext, .start realm.ledger job rest hjobs⟩

/-! ### Running the jobs -/

/-- What becomes of a reaction whose handler has come to an outcome. -/
def Reaction.settle (r : Reaction) : Except Failure Value → Engine H Unit
  | .ok v =>
    match r.capability with
    | none => pure ()
    | some capability => do let _ ← capability.resolve.call .undefined [v]
  | .error f =>
    match r.capability with
    | none => fail f
    | some capability => do let _ ← capability.reject.call .undefined [← f.toValue]

/-- A reaction runs its handler before anything else. -/
theorem Reaction.run_of_handle {s : Surroundings H} {r : Reaction} {argument : Value}
    {outcome : Except Failure Value}
    (h : (attempt (r.handle argument)).act s realm = .ok outcome after) :
    (r.run argument).act s realm = (r.settle outcome).act s after := by
  unfold Reaction.run Reaction.settle
  match hx : (r.handle argument).act s realm with
  | .ok v middle =>
    cases (attempt_of_ok hx).symm.trans h
    cases r.capability with
    | none => exact Engine.bind_of_ok hx
    | some => exact Engine.bind_of_ok h
  | .error (.failure f) middle =>
    cases (attempt_of_failure hx).symm.trans h
    cases r.capability with
    | none => exact Engine.bind_of_error hx
    | some => exact Engine.bind_of_ok h
  | .error .exhausted middle => cases (attempt_of_exhausted hx).symm.trans h

/-- A round of running the jobs starts a job: it is taken off the queue and runs. If it is a
reaction with a handler, the handler is called with the argument, and then the promise that the
reaction has, if any, is settled with the outcome of the call. -/
structure Realm.Starts (host : Host H) (bound : Nat) (realm : Realm H) (job : Job H)
    (started : Realm H) : Prop where
  move : realm.ledger.Move (.start job) started.ledger
  round : ∀ count, (runNextJob count).run host bound realm
    = (attempt (job.task realm.latches.size).run >>= fun outcome =>
        match outcome with
        | .ok () => pure (.again (count + 1))
        | .error f => if f.isFatal then fail f else pure (.again (count + 1)) :
        Engine H (Round Nat Nat)).run host bound started
  calls : ∀ r argument handler, job = .reaction r argument → r.handler = some handler →
    ∀ outcome called,
      (attempt (handler.call .undefined [argument])).run host bound started = .ok outcome called →
      (job.task realm.latches.size).run.run host bound started
        = (r.settle outcome).run host bound called

namespace Realm

variable {job : Job H} {rest : List (Job H)}

theorem startJob_of_cons (h : realm.jobs = job :: rest) :
    realm.startJob = (some (job.task realm.latches.size),
      { realm with jobs := rest, latches := realm.latches ++ job.latches }) := by
  simp only [startJob, h]

end Realm

theorem runNextJob_of_empty {s : Surroundings H} (h : realm.jobs = []) (count : Nat) :
    (runNextJob count).act s realm = .ok (.finish count) realm := by
  have hnext : nextTask?.act s realm = .ok none realm := by
    rw [nextTask?_eq, Realm.startJob, h]
  exact Engine.bind_of_ok hnext

/-- A round of the loop runs the next job and ends as that does, unless code could catch its
failure. -/
theorem runNextJob_of_job {s : Surroundings H} {job : Job H} {rest : List (Job H)}
    (h : realm.jobs = job :: rest) (count : Nat) :
    (runNextJob count).act s realm
      = ((attempt (job.task realm.latches.size).run >>= fun outcome =>
          match outcome with
          | .ok () => pure (.again (count + 1))
          | .error f => if f.isFatal then fail f else pure (.again (count + 1)) :
          Engine H (Round Nat Nat))).act s realm.startJob.2 := by
  have hnext : nextTask?.act s realm
      = .ok (some (job.task realm.latches.size)) realm.startJob.2 := by
    rw [nextTask?_eq, Realm.startJob_of_cons h]
  exact Engine.bind_of_ok hnext

/-- The first job that waits is started. -/
theorem Realm.starts_of_cons {job : Job H} {rest : List (Job H)} (h : realm.jobs = job :: rest) :
    realm.Starts host bound job realm.startJob.2 where
  move := by
    rw [startJob_of_cons h]
    exact .start realm.ledger job rest h
  round := runNextJob_of_job h
  calls r argument handler hjob hhandler outcome called hcall := by
    subst hjob
    refine Reaction.run_of_handle ?_
    rw [Reaction.handle, hhandler]
    exact hcall

theorem Realm.starts_or_finishes (host : Host H) (bound : Nat) (realm : Realm H) :
    (∃ job rest started, realm.jobs = job :: rest ∧ realm.Starts host bound job started)
      ∨ realm.jobs = []
        ∧ ∀ count, (runNextJob count).run host bound realm = .ok (.finish count) realm := by
  cases hjobs : realm.jobs with
  | nil => exact .inr ⟨rfl, runNextJob_of_empty hjobs⟩
  | cons job rest => exact .inl ⟨job, rest, _, rfl, starts_of_cons hjobs⟩

/-! ### Histories that deliver -/

/-- The reactions to a promise are queued and started as a history tells. -/
structure History.Delivers (events : History H) (p : ObjectId) (data : PromiseData) : Prop where
  recorded : data.Recorded p events
  /-- A settlement queues a job for each reaction that has been attached, and there was none. -/
  atSettlement : ∀ (first last : History H) rejected v jobs,
    events = first ++ .settle p rejected v jobs :: last →
    reactionsTo p first.queued = []
      ∧ jobs = (first.registrations p).map (reactionJob (rejected, v))
  /-- Attaching reactions queues a job if the promise has been settled, and none before. -/
  atRegistration : ∀ (first last : History H) fulfill reject jobs,
    events = first ++ .register p fulfill reject jobs :: last →
    jobs = (first.settlements p).map (reactionJob · (fulfill, reject))
  /-- The jobs that have been started are the first ones, in the order of their reactions. -/
  inOrder : ∀ settlement, data.settlement? = some settlement →
    reactionsTo p (events.queued.take events.started.length)
      <+: (events.registrations p).map (reactionJob settlement)

theorem Ledger.Path.delivers {events : History H} {l : Ledger H}
    (h : ({} : Ledger H).Path events l) (p : ObjectId) : events.Delivers p (l.promise p) where
  recorded := h.recorded p
  atSettlement first last rejected v jobs heq := by
    subst heq
    obtain ⟨before, middle, hpath, hmove⟩ := h.exists_move
    have hrecorded := hpath.recorded p
    cases hmove with
    | settle _ data _ _ hp hs hc =>
      rw [Ledger.promise_of_some hp] at hrecorded
      exact ⟨(hrecorded.waiting (PromiseData.settlement?_eq_none.mpr hs)).2.2,
        (hrecorded.settled hs rejected v).1⟩
  atRegistration first last fulfill reject jobs heq := by
    subst heq
    obtain ⟨before, middle, hpath, hmove⟩ := h.exists_move
    have hrecorded := hpath.recorded p
    cases hmove with
    | register _ data _ _ hp =>
      rw [Ledger.promise_of_some hp] at hrecorded
      rw [hrecorded.settlements]
      exact (hrecorded.registered fulfill reject).1
  inOrder settlement hs := by
    rw [← (h.recorded p).queued settlement hs]
    exact ((events.queued.take_prefix events.started.length).filter _).map Prod.snd

/-- What has been started and what waits are the jobs that were queued, the first ones first. -/
theorem Ledger.Path.started_eq {events : History H} {l : Ledger H}
    (h : ({} : Ledger H).Path events l) :
    events.started = (events.queued.take events.started.length).map Prod.snd
      ∧ l.jobs = (events.queued.drop events.started.length).map Prod.snd := by
  have hall := h.started_append_jobs
  rw [List.map_take, List.map_drop, ← hall, List.take_left, List.drop_left]
  exact ⟨rfl, rfl⟩

/-- Every realm of a run has a history, and in every history of it the jobs start in the order in
which they were queued. No job is queued for a reaction to a pending promise. For every time that
reactions were attached to a promise that is settled, one job has been queued: for those before the
settlement at the settlement, in that order, for those after it at once, each for the reaction to
the settlement and with the result of the promise; and the jobs that have been started are those for
the reactions that were attached first. Attaching reactions is one move, and so is starting the next
job. A round of running the jobs starts the next one, which calls the handler of a reaction with the
argument, and ends them where none waits. -/
theorem reactions_run_once_in_order (host : Host H) (hr : realm.Arises host)
    (hd : realm.disposed = false) :
    (∃ events, ({} : Ledger H).Path events realm.ledger)
      ∧ (∀ events : History H, ({} : Ledger H).Path events realm.ledger →
        events.started = (events.queued.take events.started.length).map Prod.snd
          ∧ realm.jobs = (events.queued.drop events.started.length).map Prod.snd
          ∧ ∀ p, events.Delivers p (realm.ledger.promise p))
      ∧ (∀ (p : ObjectId) onFulfilled onRejected capability bound,
        let reactions := thenReactions realm onFulfilled onRejected capability
        (∃ data after, realm.ledger.promise? p = some data
            ∧ (p.performThen onFulfilled onRejected capability).run host bound realm
              = .ok ((capability.map fun c => Value.object c.promise).getD .undefined) after
            ∧ realm.ledger.Move (.register p reactions.1 reactions.2
                (data.registrationJobs reactions.1 reactions.2)) after.ledger)
          ∨ realm.ledger.promise? p = none
            ∧ ∃ f, (p.performThen onFulfilled onRejected capability).run host bound realm
              = .error (.failure f) realm)
      ∧ (∀ bound, (∃ job rest after, realm.jobs = job :: rest
            ∧ nextTask?.run host bound realm = .ok (some (job.task realm.latches.size)) after
            ∧ realm.ledger.Move (.start job) after.ledger)
          ∨ realm.jobs = [] ∧ nextTask?.run host bound realm = .ok none realm)
      ∧ ∀ bound, (∃ job rest started, realm.jobs = job :: rest
            ∧ realm.Starts host bound job started)
          ∨ realm.jobs = []
            ∧ ∀ count, (runNextJob count).run host bound realm = .ok (.finish count) realm :=
  ⟨hr.exists_history hd,
    fun _ h => ⟨h.started_eq.1, h.started_eq.2, fun p => h.delivers p⟩,
    fun p onFulfilled onRejected capability bound =>
      p.performThen_moves host bound realm onFulfilled onRejected capability,
    fun bound => nextTask?_moves host bound realm,
    fun bound => Realm.starts_or_finishes host bound realm⟩

/-! ### Reactions before and after a settlement -/

/-- A capability for a promise, without functions. -/
def plainCapability (promise : Nat) : Capability :=
  { promise := ⟨promise⟩, resolve := .undefined, reject := .undefined }

/-- Attaches two reactions, resolves the promise with one, attaches another reaction and starts a
job. -/
def attachAround : Engine HostTypes.bare Unit := do
  let _ ← ObjectId.performThen ⟨0⟩ .undefined .undefined (some (plainCapability 1))
  let _ ← ObjectId.performThen ⟨0⟩ .undefined .undefined (some (plainCapability 2))
  let _ ← resolveWith 0 (.nat 1)
  let _ ← ObjectId.performThen ⟨0⟩ .undefined .undefined (some (plainCapability 3))
  let _ ← nextTask?

/-- What is left to be done then. -/
def attachedRealm : Realm HostTypes.bare :=
  let reaction (promise : Nat) : Reaction :=
    { capability := some (plainCapability promise), isReject := false, handler := none }
  { promiseRealm { state := .fulfilled, result := .nat 1, isHandled := true } true with
    jobs := [.reaction (reaction 2) (.nat 1), .reaction (reaction 3) (.nat 1)] }

/-- The jobs for all reactions have been queued, and those that wait are not the first. -/
theorem reactions_run_once_in_order_attachedRealm :
    attachedRealm.Arises Host.bare ∧ attachedRealm.disposed = false
      ∧ ∃ events : History HostTypes.bare,
        ({} : Ledger HostTypes.bare).Path events attachedRealm.ledger
        ∧ events.settlements ⟨0⟩ = [(false, .nat 1)]
        ∧ History.reactionsTo ⟨0⟩ events.queued
          = (events.registrations ⟨0⟩).map (reactionJob (false, .nat 1))
        ∧ attachedRealm.jobs = (events.queued.drop events.started.length).map Prod.snd := by
  have hattach : attachAround.run Host.bare 0 (promiseRealm {} false) = .ok () attachedRealm := rfl
  have hr : attachedRealm.Arises Host.bare :=
    promiseRealm_arises.proceeds (.run .refl 0 attachAround.toRoutine (.inl ⟨_, hattach⟩))
  obtain ⟨⟨events, hpath⟩, hall, -⟩ := reactions_run_once_in_order Host.bare hr rfl
  obtain ⟨-, hjobs, hdelivers⟩ := hall events hpath
  have hrecorded := (hdelivers ⟨0⟩).recorded
  exact ⟨hr, rfl, events, hpath, hrecorded.settlements, hrecorded.queued _ rfl, hjobs⟩

end ScriptEngine
