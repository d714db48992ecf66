import Mathlib.Logic.Relation
import ScriptEngine.Proofs.ContextBalance
import ScriptEngine.Proofs.ReactionOrder

/-!
# Draining the queue of jobs

Running the jobs takes them from the front of the queue while each of them may add more at its end.
So the jobs that ran, with those that are left, are the jobs that waited at first, with those that
were added on the way, in the order in which they came. The queue is drained when none is left, or
when a job fails in a way that no code can catch. What jobs do besides is up to them; only the root
has to be where it was for their number to be the result.

## Main definitions

* `Ran`: a job that ran, how it ended and what it added to the queue.
* `Realm.Serves`: the next job runs.
* `Realm.Drains`: jobs run until none is left or one fails for good.
* `Realm.JobsAdd`: what jobs do to the queue is to add to it.
* `Realm.Drained`: what is to be said of the jobs that ran.
* `Chore`, `choreHost`: jobs that put others in the queue, and a host that does them.

## Main results

* `Realm.Drains.order`: jobs run in the order in which they were put in the queue.
* `Realm.Drains.starts`: each of them is started as the history of the realm has it.
* `runNextJob_of_serves`, `runNextJob_of_fatal`: one round of the loop serves the queue.
* `drains_of_loop`, `loop_of_drains`: the loop drains the queue, and ends if that comes to an end.
* `jobs_drain_in_order`: both for running the jobs of a realm.
-/

namespace ScriptEngine

open Engine

variable {H : HostTypes} {host : Host H} {bound : Nat} {realm middle after : Realm H}

/-! ### Jobs that ran -/

/-- A job that ran: how it ended, and what it added to the queue. -/
structure Ran (H : HostTypes) where
  job : Job H
  outcome : Except Failure Unit
  added : List (Job H)

/-- The failure of a job that no code can catch. -/
def Ran.fatal? (ran : Ran H) : Option Failure :=
  match ran.outcome with
  | .ok () => none
  | .error f => if f.isFatal then some f else none

theorem Ran.fatal?_eq_some {ran : Ran H} {f : Failure} :
    ran.fatal? = some f ↔ ran.outcome = .error f ∧ f.isFatal = true := by
  unfold fatal?
  cases ran.outcome with
  | ok => simp
  | error f' =>
    simp only [Option.ite_none_right_eq_some, Option.some.injEq, Except.error.injEq]
    exact ⟨fun ⟨hf, h⟩ => ⟨h, h ▸ hf⟩, fun ⟨h, hf⟩ => ⟨h ▸ hf, h⟩⟩

theorem Ran.fatal?_eq_none {ran : Ran H} : ran.fatal? = none ↔
    ran.outcome = .ok () ∨ ∃ f : Failure, ran.outcome = .error f ∧ f.isFatal = false := by
  unfold fatal?
  cases ran.outcome with
  | ok => simp
  | error f => simp

/-- What draining the queue comes to: the number of jobs, or the failure that stopped it. -/
def drainResult (ran : Nat) : Option Failure → Except Failure Nat
  | none => .ok ran
  | some f => .error f

namespace Realm

/-- The next job runs, and adds to the queue. -/
structure Serves (host : Host H) (bound : Nat) (realm : Realm H) (ran : Ran H) (after : Realm H) :
    Prop where
  starts : realm.jobs = ran.job :: realm.startJob.2.jobs
  run : (attempt (ran.job.task realm.latches.size).run).run host bound realm.startJob.2
    = .ok ran.outcome after
  adds : after.jobs = realm.startJob.2.jobs ++ ran.added

/-- Jobs run one after the other until none is left or one fails for good. -/
inductive Drains (host : Host H) (bound : Nat) :
    Realm H → List (Ran H) → Option Failure → Realm H → Prop
  | empty {realm : Realm H} (h : realm.jobs = []) : Drains host bound realm [] none realm
  | next {realm middle after : Realm H} {ran : Ran H} {rest : List (Ran H)}
      {fatal? : Option Failure} (h : realm.Serves host bound ran middle) (hf : ran.fatal? = none)
      (hrest : Drains host bound middle rest fatal? after) :
      Drains host bound realm (ran :: rest) fatal? after
  | fatal {realm after : Realm H} {ran : Ran H} {f : Failure}
      (h : realm.Serves host bound ran after) (hf : ran.fatal? = some f) :
      Drains host bound realm [ran] (some f) after

/-- What a job that runs on the way does to the queue is to add to it. -/
def JobsAdd (host : Host H) (bound : Nat) (realm : Realm H) : Prop :=
  ∀ middle, Relation.ReflTransGen (fun a b => ∃ ran, a.Serves host bound ran b) realm middle →
    ∀ job rest outcome after, middle.jobs = job :: rest →
      (attempt (job.task middle.latches.size).run).run host bound middle.startJob.2
        = .ok outcome after →
      ∃ added, after.jobs = rest ++ added

/-- What is to be said of the jobs that ran. Those that waited and those that were added ran in that
order, as far as they do not wait still. None of them failed for good and none waits, or the last
one was the first to fail so. -/
structure Drained (realm : Realm H) (trace : List (Ran H)) (fatal? : Option Failure)
    (after : Realm H) : Prop where
  order : realm.jobs ++ trace.flatMap Ran.added = trace.map Ran.job ++ after.jobs
  ends : fatal? = none → after.jobs = [] ∧ ∀ ran ∈ trace, ran.fatal? = none
  stops : ∀ f, fatal? = some f → ∃ first last,
    trace = first ++ [last] ∧ last.fatal? = some f ∧ ∀ ran ∈ first, ran.fatal? = none

variable {trace : List (Ran H)} {ran : Ran H} {fatal? : Option Failure} {f : Failure}

/-- Jobs run in the order in which they were put in the queue, each once. -/
theorem Drains.order (h : realm.Drains host bound trace fatal? after) :
    realm.jobs ++ trace.flatMap Ran.added = trace.map Ran.job ++ after.jobs := by
  induction h with
  | empty h => rw [h]; rfl
  | @next realm middle after ran rest fatal? h hf hrest ih =>
    calc realm.jobs ++ (ran :: rest).flatMap Ran.added
        = ran.job :: (realm.startJob.2.jobs ++ ran.added ++ rest.flatMap Ran.added) := by
          rw [h.starts, List.flatMap_cons, List.cons_append, List.append_assoc]
      _ = ran.job :: (middle.jobs ++ rest.flatMap Ran.added) := by rw [h.adds]
      _ = (ran :: rest).map Ran.job ++ after.jobs := by rw [ih]; rfl
  | @fatal realm after ran f h hf =>
    rw [h.starts, h.adds, List.flatMap_singleton]
    rfl

/-- Each job that runs is started so. -/
theorem Drains.starts (h : realm.Drains host bound trace fatal? after) : ∀ ran ∈ trace,
    ∃ start next : Realm H, start.Serves host bound ran next
      ∧ start.Starts host bound ran.job start.startJob.2 := by
  induction h with
  | empty =>
    intro ran hran
    cases hran
  | @next realm middle after ran rest fatal? h _ _ ih =>
    exact List.forall_mem_cons.mpr ⟨⟨realm, middle, h, starts_of_cons h.starts⟩, ih⟩
  | @fatal realm after ran f h _ =>
    exact List.forall_mem_singleton.mpr ⟨realm, after, h, starts_of_cons h.starts⟩

theorem Drains.drained (h : realm.Drains host bound trace fatal? after) :
    realm.Drained trace fatal? after := by
  refine ⟨h.order, ?_, ?_⟩
  · induction h with
    | empty h => exact fun _ => ⟨h, fun _ hran => nomatch hran⟩
    | next _ hf _ ih =>
      intro hnone
      exact ⟨(ih hnone).1, List.forall_mem_cons.mpr ⟨hf, (ih hnone).2⟩⟩
    | fatal => exact fun hnone => nomatch hnone
  · induction h with
    | empty => exact fun f hsome => nomatch hsome
    | @next _ _ _ ran _ _ _ hf _ ih =>
      intro f hsome
      obtain ⟨first, last, rfl, hlast, hfirst⟩ := ih f hsome
      exact ⟨ran :: first, last, rfl, hlast, List.forall_mem_cons.mpr ⟨hf, hfirst⟩⟩
    | @fatal _ _ ran _ _ hf =>
      intro f hsome
      exact ⟨[], ran, rfl, hf.trans hsome, fun _ hran => nomatch hran⟩

theorem JobsAdd.of_serves (hj : realm.JobsAdd host bound)
    (h : realm.Serves host bound ran middle) : middle.JobsAdd host bound :=
  fun last hreach => hj last (.head ⟨ran, h⟩ hreach)

/-- A job that runs serves the queue. -/
theorem JobsAdd.serves {job : Job H} {rest : List (Job H)} {outcome : Except Failure Unit}
    (hj : realm.JobsAdd host bound) (hjobs : realm.jobs = job :: rest)
    (hrun : (attempt (job.task realm.latches.size).run).run host bound realm.startJob.2
      = .ok outcome after) :
    ∃ added, realm.Serves host bound ⟨job, outcome, added⟩ after := by
  obtain ⟨added, hadded⟩ := hj realm .refl job rest outcome after hjobs hrun
  have hrest : realm.startJob.2.jobs = rest := by rw [startJob_of_cons hjobs]
  exact ⟨added, hrest ▸ hjobs, hrun, hrest ▸ hadded⟩

end Realm

/-! ### The loop -/

section Loop

variable {s : Surroundings H} {ran : Ran H} {trace : List (Ran H)} {fatal? : Option Failure}

theorem runNextJob_of_serves (h : realm.Serves host bound ran after) (hf : ran.fatal? = none)
    (count : Nat) :
    (runNextJob count).act (.bounded host bound) realm = .ok (.again (count + 1)) after := by
  rw [runNextJob_of_job h.starts, Engine.bind_of_ok h.run]
  rcases Ran.fatal?_eq_none.mp hf with hok | ⟨f, herror, hcaught⟩
  · rw [hok]
    rfl
  · simp only [herror, hcaught]
    rfl

theorem runNextJob_of_fatal {f : Failure} (h : realm.Serves host bound ran after)
    (hf : ran.fatal? = some f) (count : Nat) :
    (runNextJob count).act (.bounded host bound) realm = .error (.failure f) after := by
  obtain ⟨herror, hfatal⟩ := Ran.fatal?_eq_some.mp hf
  rw [runNextJob_of_job h.starts, Engine.bind_of_ok h.run]
  simp only [herror, hfatal]
  rfl

theorem loopFor_of_serves (h : realm.Serves host bound ran middle) (hf : ran.fatal? = none)
    (fuel count : Nat) :
    (attempt (loopFor runNextJob (fuel + 1) count)).run host bound realm
      = (attempt (loopFor runNextJob fuel (count + 1))).run host bound middle := by
  have hround : (loopFor runNextJob (fuel + 1) count).act (.bounded host bound) realm
      = (loopFor runNextJob fuel (count + 1)).act (.bounded host bound) middle :=
    Engine.bind_of_ok (runNextJob_of_serves h hf count)
  simp only [Routine.run, attempt, Routine.attempt, Action.attempt, hround]

theorem loopFor_of_fatal {f : Failure} (h : realm.Serves host bound ran after)
    (hf : ran.fatal? = some f) (fuel count : Nat) :
    (attempt (loopFor runNextJob (fuel + 1) count)).run host bound realm = .ok (.error f) after :=
  Engine.attempt_of_failure (Engine.bind_of_error (runNextJob_of_fatal h hf count))

theorem loopFor_of_empty (h : realm.jobs = []) (fuel count : Nat) :
    (attempt (loopFor runNextJob (fuel + 1) count)).run host bound realm = .ok (.ok count) realm :=
  Engine.attempt_of_ok (Engine.bind_of_ok (runNextJob_of_empty h count))

/-- The loop drains the queue, if there is an end to that. -/
theorem loop_of_drains (h : realm.Drains host bound trace fatal? after) {fuel : Nat}
    (hfuel : trace.length < fuel) (count : Nat) :
    (attempt (loopFor runNextJob fuel count)).run host bound realm
      = .ok (drainResult (count + trace.length) fatal?) after := by
  induction h generalizing fuel count with
  | empty h =>
    obtain ⟨fuel, rfl⟩ := Nat.exists_eq_succ_of_ne_zero (Nat.ne_of_gt hfuel)
    exact loopFor_of_empty h fuel count
  | @next realm middle after ran rest fatal? h hf _ ih =>
    obtain ⟨fuel, rfl⟩ := Nat.exists_eq_succ_of_ne_zero (Nat.ne_of_gt (Nat.zero_lt_of_lt hfuel))
    rw [loopFor_of_serves h hf, ih (Nat.lt_of_succ_lt_succ hfuel), List.length_cons,
      Nat.add_right_comm, Nat.add_assoc]
  | fatal h hf =>
    obtain ⟨fuel, rfl⟩ := Nat.exists_eq_succ_of_ne_zero (Nat.ne_of_gt (Nat.zero_lt_of_lt hfuel))
    exact loopFor_of_fatal h hf fuel count

/-- A job that runs without a result leaves the loop without one. -/
theorem loopFor_of_exhausted {job : Job H} {rest : List (Job H)} (hjobs : realm.jobs = job :: rest)
    (h : (attempt (job.task realm.latches.size).run).run host bound realm.startJob.2
      = .error .exhausted after) (fuel count : Nat) :
    (attempt (loopFor runNextJob (fuel + 1) count)).run host bound realm
      = .error .exhausted after := by
  refine Engine.attempt_of_exhausted (Engine.bind_of_error ?_)
  rw [runNextJob_of_job hjobs]
  exact Engine.bind_of_error h

/-- What the loop comes to is what draining the queue comes to. -/
theorem drains_of_loop {fuel count : Nat} {result : Except Failure Nat}
    (hj : realm.JobsAdd host bound)
    (h : (attempt (loopFor runNextJob fuel count)).run host bound realm = .ok result after) :
    ∃ trace fatal?, realm.Drains host bound trace fatal? after
      ∧ result = drainResult (count + trace.length) fatal? := by
  induction fuel generalizing realm count with
  | zero => cases h
  | succ fuel ih =>
    cases hjobs : realm.jobs with
    | nil =>
      cases (loopFor_of_empty hjobs fuel count).symm.trans h
      exact ⟨[], none, .empty hjobs, rfl⟩
    | cons job rest =>
      match hrun : (attempt (job.task realm.latches.size).run).run host bound realm.startJob.2 with
      | .error (.failure f) middle => exact absurd hrun Action.attempt_ne_error
      | .error .exhausted middle => cases (loopFor_of_exhausted hjobs hrun fuel count).symm.trans h
      | .ok outcome middle =>
        obtain ⟨added, hserves⟩ := hj.serves hjobs hrun
        cases hf : Ran.fatal? ⟨job, outcome, added⟩ with
        | some f =>
          cases (loopFor_of_fatal hserves hf fuel count).symm.trans h
          exact ⟨_, some f, .fatal hserves hf, rfl⟩
        | none =>
          rw [loopFor_of_serves hserves hf] at h
          obtain ⟨trace, fatal?, hdrains, hresult⟩ := ih (hj.of_serves hserves) h
          refine ⟨_, fatal?, .next hserves hf hdrains, ?_⟩
          rw [hresult, List.length_cons, Nat.add_right_comm, Nat.add_assoc]

end Loop

/-! ### The evaluation -/

namespace Realm

theorem jobs_enterEvaluation (realm : Realm H) : realm.enterEvaluation.2.jobs = realm.jobs :=
  congrArg Ledger.jobs realm.aside_enterEvaluation.2.1

theorem jobs_leaveEvaluation {α : Type} (realm : Realm H) (outcome : Except Failure α) :
    (realm.leaveEvaluation outcome).2.jobs = realm.jobs :=
  congrArg Ledger.jobs ((ledger_parkRoot realm.unwind).trans realm.ledger_unwind)

end Realm

/-- What is to be said of the jobs that ran depends on the queue only. -/
theorem Realm.Drained.of_jobs {start last : Realm H} {trace : List (Ran H)}
    {fatal? : Option Failure} (h : realm.Drained trace fatal? after)
    (hstart : start.jobs = realm.jobs) (hlast : last.jobs = after.jobs) :
    start.Drained trace fatal? last where
  order := by rw [hstart, hlast, h.order]
  ends hnone := hlast ▸ h.ends hnone
  stops := h.stops

/-- The jobs run in an evaluation. That may fail in the end although no job did, but only where a
job has moved the root. -/
theorem runJobs_of_drains {trace : List (Ran H)} {fatal? : Option Failure} (hp : realm.Parked)
    (hd : realm.disposed = false) (ha : realm.aborted = none)
    (h : realm.enterEvaluation.2.Drains host bound trace fatal? middle)
    (hx : (attempt (loopFor runNextJob bound 0)).run host bound realm.enterEvaluation.2
      = .ok (drainResult trace.length fatal?) middle) :
    ∃ result after, runJobs.attempt.run host bound realm = .ok result after
      ∧ realm.Drained trace fatal? after
      ∧ ((fatal? = none → realm.enterEvaluation.2.Works middle)
        → result = drainResult trace.length fatal?) := by
  have hrun : runJobs.attempt.run host bound realm = _ := execute_of_outcome hp hd ha hx
  refine ⟨_, _, hrun, ?_, fun hworks => ?_⟩
  · exact h.drained.of_jobs realm.jobs_enterEvaluation.symm (Realm.jobs_leaveEvaluation _ _)
  · cases fatal? with
    | some f => rfl
    | none =>
      obtain ⟨contexts, time, hrun', -⟩ := execute_run hp hd ha hx (hworks rfl)
      exact (EStateM.Result.ok.inj (hrun.symm.trans hrun')).1

/-- Running the jobs of a realm that was not stopped and whose root is parked, where jobs only add
to the queue. If there is a result, the jobs ran one after the other in the order in which they were
put in the queue, until none was left or one failed for good; if there is an end to that, there is a
result. It is the number of jobs, or the failure of the last one. -/
theorem jobs_drain_in_order (host : Host H) (bound : Nat) (hp : realm.Parked)
    (hd : realm.disposed = false) (ha : realm.aborted = none)
    (hj : realm.enterEvaluation.2.JobsAdd host bound) :
    (∀ result after, runJobs.attempt.run host bound realm = .ok result after →
        ∃ trace fatal? middle, realm.enterEvaluation.2.Drains host bound trace fatal? middle
          ∧ realm.Drained trace fatal? after
          ∧ ((fatal? = none → realm.enterEvaluation.2.Works middle)
            → result = drainResult trace.length fatal?))
      ∧ ∀ trace fatal? middle, realm.enterEvaluation.2.Drains host bound trace fatal? middle →
        trace.length < bound →
        ∃ result after, runJobs.attempt.run host bound realm = .ok result after
          ∧ realm.Drained trace fatal? after
          ∧ ((fatal? = none → realm.enterEvaluation.2.Works middle)
            → result = drainResult trace.length fatal?) := by
  refine ⟨fun result after hrun => ?_, fun trace fatal? middle hdrains hbound => ?_⟩
  · obtain ⟨outcome, middle, hx⟩ := exists_of_execute hp hd ha hrun
    replace hx : (attempt (loopFor runNextJob bound 0)).run host bound realm.enterEvaluation.2
      = .ok outcome middle := hx
    obtain ⟨trace, fatal?, hdrains, houtcome⟩ := drains_of_loop hj hx
    rw [Nat.zero_add] at houtcome
    obtain ⟨result', after', hrun', hdrained, hresult⟩ :=
      runJobs_of_drains hp hd ha hdrains (houtcome ▸ hx)
    cases hrun'.symm.trans hrun
    exact ⟨trace, fatal?, middle, hdrains, hdrained, hresult⟩
  · have hx := loop_of_drains hdrains hbound 0
    rw [Nat.zero_add] at hx
    exact runJobs_of_drains hp hd ha hdrains hx

/-! ### Chores -/

/-- A job that puts others in the queue and then ends. -/
inductive Chore where
  | mk (next : List Chore) (outcome : Except Failure Unit)

/-- The types of a host with such jobs. -/
def HostTypes.chores : HostTypes := { HostTypes.bare with Job := Chore }

/-- A job of the host. -/
def Chore.job (chore : Chore) : Job HostTypes.chores := .host chore

/-- Does a job. -/
def Chore.perform : Chore → Engine HostTypes.chores Unit
  | mk next outcome => do
    next.forM fun chore => enqueue (H := HostTypes.chores) chore
    ofExcept outcome

/-- A host that does the jobs. -/
def choreHost : Host HostTypes.chores
  | .job chore => (Chore.perform chore).toRoutine
  | r => Host.idle () r

namespace Chore

variable {realm after : Realm HostTypes.chores} {next chores : List Chore} {bound latch : Nat}
  {outcome : Except Failure Unit} {rest : List (Job HostTypes.chores)}

theorem enqueue_all (next : List Chore) (s : Surroundings HostTypes.chores)
    (realm : Realm HostTypes.chores) :
    (next.forM fun chore => enqueue (H := HostTypes.chores) chore).act s realm
      = .ok () (realm.queue (next.map job)) := by
  induction next generalizing realm with
  | nil =>
    rw [List.map_nil, Realm.queue, List.append_nil]
    rfl
  | cons chore next ih =>
    have henqueue : (enqueue (H := HostTypes.chores) chore).act s realm
        = .ok () (realm.queue [job chore]) := rfl
    refine (Engine.bind_of_ok henqueue).trans ((ih _).trans ?_)
    rw [Realm.queue, Realm.queue, List.append_assoc]
    rfl

/-- A job puts others in the queue, whatever it comes to. -/
theorem run_eq (next : List Chore) (outcome : Except Failure Unit) (bound latch : Nat)
    (realm : Realm HostTypes.chores) :
    (attempt ((mk next outcome).job.task latch).run).run choreHost (bound + 1) realm
      = .ok outcome (realm.queue (next.map job)) := by
  have hrun (s : Surroundings HostTypes.chores) : (mk next outcome).perform.act s realm
      = (ofExcept outcome).act s (realm.queue (next.map job)) :=
    Engine.bind_of_ok (enqueue_all next s realm)
  cases outcome with
  | ok => exact Engine.attempt_of_ok (hrun _)
  | error f => exact Engine.attempt_of_failure (hrun _)

theorem serves (h : realm.jobs = (mk next outcome).job :: rest) :
    realm.Serves choreHost (bound + 1) ⟨(mk next outcome).job, outcome, next.map job⟩
      (realm.startJob.2.queue (next.map job)) where
  starts := by rw [Realm.startJob_of_cons h, h]
  run := run_eq next outcome bound _ _
  adds := rfl

theorem adds_of_run {chore : Chore}
    (h : (attempt (chore.job.task latch).run).run choreHost bound realm = .ok outcome after) :
    ∃ next : List Chore, after.jobs = realm.jobs ++ next.map job := by
  cases bound with
  | zero => cases h
  | succ bound =>
    cases chore with
    | mk next outcome =>
      cases (run_eq next outcome bound latch realm).symm.trans h
      exact ⟨next, rfl⟩

/-- Such jobs do no more to the queue than to add to it. -/
theorem jobsAdd (h : realm.jobs = chores.map job) : realm.JobsAdd choreHost bound := by
  intro middle hreach first rest outcome after hjobs hrun
  -- only jobs of the host are in the queue, at any time
  have hchores : ∃ chores : List Chore, middle.jobs = chores.map job := by
    clear hjobs hrun
    induction hreach with
    | refl => exact ⟨chores, h⟩
    | @tail middle last _ hserves ih =>
      obtain ⟨ran, hserves⟩ := hserves
      obtain ⟨chores, hchores⟩ := ih
      obtain ⟨chore, rest, -, hjob, hrest⟩ :=
        List.map_eq_cons_iff.mp (hchores.symm.trans hserves.starts)
      obtain ⟨next, hnext⟩ := adds_of_run (hjob ▸ hserves.run)
      exact ⟨rest ++ next, by rw [hnext, ← hrest, List.map_append]⟩
  obtain ⟨chores, hchores⟩ := hchores
  obtain ⟨chore, rest', -, rfl, -⟩ := List.map_eq_cons_iff.mp (hchores.symm.trans hjobs)
  obtain ⟨next, hnext⟩ := adds_of_run hrun
  refine ⟨next.map job, ?_⟩
  rw [hnext, Realm.startJob_of_cons hjobs]

end Chore

/-- A realm with a parked root and such jobs. -/
def choreRealm (chores : List Chore) : Realm HostTypes.chores :=
  { contexts := { contexts := [{ id := 1, frame := {} }], lastId := 1 }
    rootContext := 1
    jobs := chores.map Chore.job
    store := () }

/-- A job that puts another one in the queue runs before one that fails, and that one before the
other. A job that fails for good leaves those that wait. -/
theorem jobs_drain_in_order_choreRealm :
    let leaf : Chore := .mk [] (.ok ())
    let parent : Chore := .mk [leaf] (.ok ())
    let careless : Chore := .mk [] (.error (.typeError "careless"))
    let fatal : Chore := .mk [leaf] (.error (.internal "fatal"))
    (∃ after, runJobs.attempt.run choreHost 4 (choreRealm [parent, careless]) = .ok (.ok 3) after
        ∧ after.jobs = [])
      ∧ ∃ after, runJobs.attempt.run choreHost 4 (choreRealm [parent, fatal, careless])
          = .ok (.error (.internal "fatal")) after
        ∧ after.jobs = [careless, leaf, leaf].map Chore.job := by
  intro leaf parent careless fatal
  have hparked (chores : List Chore) : (choreRealm chores).Parked := ⟨false, rfl⟩
  have hdrain (chores : List Chore) :=
    (jobs_drain_in_order choreHost 4 (hparked chores) rfl rfl (Chore.jobsAdd rfl)).2
  refine ⟨?_, ?_⟩
  · obtain ⟨result, after, hrun, hdrained, hresult⟩ := hdrain [parent, careless] _ _ _
      (.next (Chore.serves rfl) rfl (.next (Chore.serves rfl) rfl
        (.next (Chore.serves rfl) rfl (.empty rfl)))) (by decide)
    cases hresult fun _ => ⟨rfl, .refl⟩
    exact ⟨after, hrun, (hdrained.ends rfl).1⟩
  · obtain ⟨result, after, hrun, hdrained, hresult⟩ := hdrain [parent, fatal, careless] _ _ _
      (.next (Chore.serves rfl) rfl (.fatal (Chore.serves rfl) rfl)) (by decide)
    cases hresult fun h => nomatch h
    have horder : [parent, fatal].map Chore.job ++ [careless, leaf, leaf].map Chore.job
        = [parent, fatal].map Chore.job ++ after.jobs := hdrained.order
    exact ⟨after, hrun, (List.append_cancel_left horder).symm⟩

end ScriptEngine
