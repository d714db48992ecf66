import ScriptEngine.Operation.ArrayLike
import ScriptEngine.Operation.ErrorObject
import ScriptEngine.Operation.Function

/-!
# Promises

A promise is settled once, by one of a pair of resolving functions that share a latch. Its reactions
run as jobs, never at once. A thenable that resolves a promise gets a new pair of functions in a job
of its own.

## Main definitions

* `Realm.createPromise`, `Realm.takeLatch`, `Realm.settle`, `Realm.conclude`,
  `Realm.register`, `Realm.startJob`: the changes of promises and jobs.
* `Settlement`, `ObjectId.settlement`: what is to become of a promise that is resolved.
* `concluding`: settling a promise by the use of a latch.
* `resolvingFunctions`, `resolveWith`, `rejectWith`: the pair and what it does.
* `Value.newCapability`: a promise of a constructor with the functions that settle it.
* `ObjectId.performThen`: attaching reactions.
* `Task`, `Reaction.run`, `runThenable`: the jobs.
-/

namespace ScriptEngine

open Engine

variable {H : HostTypes}

/-- What is to become of a promise that is resolved. -/
inductive Settlement where
  | fulfill (v : Value)
  | reject (reason : Value)
  /-- Leaves it to a thenable. -/
  | follow (thenable : ObjectId) (then_ : Value)
deriving DecidableEq

/-- A job that has been started. A thenable has a latch for the functions that it gets. -/
inductive Task (H : HostTypes) where
  | reaction (reaction : Reaction) (argument : Value)
  | thenable (latch : Nat) (thenable : ObjectId) (then_ : Value)
  | host (job : H.Job)

/-- What a job does when it is started, given the latch that it gets if it needs one. -/
def Job.task (latch : Nat) : Job H → Task H
  | reaction r argument => .reaction r argument
  | thenable _ o then_ => .thenable latch o then_
  | host job => .host job

/-! ### The changes of promises and jobs -/

namespace Realm

/-- The data of an object that has to be a promise. -/
def promiseData (realm : Realm H) (p : ObjectId) : Except Failure PromiseData :=
  match realm.object? p with
  | none => .error (.internal ("dangling object handle " ++ p.text))
  | some object =>
    match object.kind with
    | .promise data => .ok data
    | _ => .error (.typeError "not a promise")

/-- Makes a promise with a latch for its resolving functions. -/
def createPromise (realm : Realm H) (prototype : ObjectId) : (ObjectId × Nat) × Realm H :=
  let p : ObjectId := ⟨realm.heap.size⟩
  ((p, realm.latches.size),
    { realm with
      heap := realm.heap.push (.ofKind (some prototype) (.promise {}))
      latches := realm.latches.push { promise := p } })

/-- Uses a latch; the promise that it belongs to, if it had not been used before. -/
def takeLatch (realm : Realm H) (latch : Nat) : Option ObjectId × Realm H :=
  match realm.latches[latch]? with
  | some { promise := p, used := false } =>
    (some p,
      { realm with latches := realm.latches.setIfInBounds latch { promise := p, used := true } })
  | _ => (none, realm)

/-- The realm with more jobs in the queue. -/
def queue (realm : Realm H) (jobs : List (Job H)) : Realm H :=
  { realm with jobs := realm.jobs ++ jobs }

/-- Settles a pending promise and queues the reactions to the settlement. -/
def settle (realm : Realm H) (p : ObjectId) (rejected : Bool) (v : Value) :
    Except Failure Unit × Realm H :=
  match realm.promiseData p with
  | .error f => (.error f, realm)
  | .ok data =>
    if data.state = .pending then
      (.ok (),
        (realm.setPromise p (data.settled rejected v)).queue (data.settlementJobs rejected v))
    else (.error (.internal "settling a promise that is already settled"), realm)

/-- Settles a promise, or leaves that to a thenable. -/
def conclude (realm : Realm H) (p : ObjectId) : Settlement → Except Failure Unit × Realm H
  | .fulfill v => realm.settle p false v
  | .reject reason => realm.settle p true reason
  | .follow thenable then_ => (.ok (), realm.queue [.thenable p thenable then_])

/-- Attaches reactions to a promise; a settled one queues the reaction at once. -/
def register (realm : Realm H) (p : ObjectId) (fulfill reject : Reaction) :
    Except Failure Unit × Realm H :=
  match realm.promiseData p with
  | .error f => (.error f, realm)
  | .ok data =>
    (.ok (), (realm.setPromise p (data.registered fulfill reject)).queue
      (data.registrationJobs fulfill reject))

/-- Takes the next job from the queue. -/
def startJob (realm : Realm H) : Option (Task H) × Realm H :=
  match realm.jobs with
  | [] => (none, realm)
  | job :: jobs =>
    (some (job.task realm.latches.size),
      { realm with jobs, latches := realm.latches ++ job.latches })

variable {realm middle : Realm H} {p : ObjectId} {data : PromiseData} {latch : Nat}

theorem promiseData_eq_ok :
    realm.promiseData p = .ok data ↔ realm.ledger.promise? p = some data := by
  simp only [promiseData, ledger, view]
  cases realm.object? p with
  | none => simp
  | some object => cases hk : object.kind <;> simp [hk, ObjectKind.promise?]

/-- A latch that can be used gives its promise, and is used from then on. -/
theorem takeLatch_cases (realm : Realm H) (latch : Nat) :
    realm.takeLatch latch = (none, realm)
      ∨ ∃ p, realm.ledger.latches[latch]? = some { promise := p }
        ∧ realm.takeLatch latch = (some p, { realm with
          latches := realm.latches.setIfInBounds latch { promise := p, used := true } }) := by
  unfold takeLatch
  split
  · next p hlatch => exact .inr ⟨p, hlatch, rfl⟩
  · exact .inl rfl

/-- Only a pending promise is settled. -/
theorem settle_cases (realm : Realm H) (p : ObjectId) (rejected : Bool) (v : Value) :
    (∃ f, realm.settle p rejected v = (.error f, realm))
      ∨ ∃ data, realm.ledger.promise? p = some data ∧ data.state = .pending
        ∧ realm.settle p rejected v = (.ok (), (realm.setPromise p
          (data.settled rejected v)).queue (data.settlementJobs rejected v)) := by
  unfold settle
  split
  · exact .inl ⟨_, rfl⟩
  next data hdata =>
  split
  · next hs => exact .inr ⟨data, promiseData_eq_ok.mp hdata, hs, rfl⟩
  · exact .inl ⟨_, rfl⟩

/-- Reactions are attached to any promise, and to nothing else. -/
theorem register_cases (realm : Realm H) (p : ObjectId) (fulfill reject : Reaction) :
    (realm.ledger.promise? p = none
        ∧ ∃ f, realm.register p fulfill reject = (.error f, realm))
      ∨ ∃ data, realm.ledger.promise? p = some data
        ∧ realm.register p fulfill reject = (.ok (), (realm.setPromise p
          (data.registered fulfill reject)).queue (data.registrationJobs fulfill reject)) := by
  unfold register
  cases hdata : realm.promiseData p with
  | error f =>
    refine .inl ⟨?_, f, rfl⟩
    cases hp : realm.ledger.promise? p with
    | none => rfl
    | some data => cases hdata.symm.trans (promiseData_eq_ok.mpr hp)
  | ok data => exact .inr ⟨data, promiseData_eq_ok.mp hdata, rfl⟩

/-- The first job of the queue is started, with the latches that it needs. -/
theorem startJob_cases (realm : Realm H) :
    (realm.ledger.jobs = [] ∧ realm.startJob = (none, realm))
      ∨ ∃ job jobs, realm.ledger.jobs = job :: jobs
        ∧ realm.startJob = (some (job.task realm.latches.size),
          { realm with jobs, latches := realm.latches ++ job.latches }) := by
  unfold startJob
  split
  · next hjobs => exact .inl ⟨hjobs, rfl⟩
  · next job jobs hjobs => exact .inr ⟨job, jobs, hjobs, rfl⟩

@[simp] theorem ledger_queue (realm : Realm H) (jobs : List (Job H)) :
    (realm.queue jobs).ledger = realm.ledger.queueing jobs :=
  rfl

theorem steps_queue (realm : Realm H) (jobs : List (Job H)) : realm.Steps (realm.queue jobs) :=
  Beside.steps ⟨rfl, rfl, rfl⟩

theorem steps_createPromise (realm : Realm H) (prototype : ObjectId) :
    realm.Steps (realm.createPromise prototype).2 := by
  have allocate := Step.allocate realm (.ofKind (some prototype) (.promise {}))
    (.ofKind (some prototype) _) (.of_not_isArray rfl)
  exact allocate.steps.trans (Beside.steps ⟨rfl, rfl, rfl⟩)

theorem steps_takeLatch (realm : Realm H) (latch : Nat) :
    realm.Steps (realm.takeLatch latch).2 := by
  rcases realm.takeLatch_cases latch with h | ⟨_, _, h⟩ <;> rw [h]
  · exact .refl realm
  · exact Beside.steps ⟨rfl, rfl, rfl⟩

theorem steps_settle (realm : Realm H) (p : ObjectId) (rejected : Bool) (v : Value) :
    realm.Steps (realm.settle p rejected v).2 := by
  rcases realm.settle_cases p rejected v with ⟨_, h⟩ | ⟨_, _, _, h⟩ <;> rw [h]
  · exact .refl realm
  · exact (realm.steps_setPromise p _).trans (steps_queue _ _)

theorem steps_conclude (realm : Realm H) (p : ObjectId) (settlement : Settlement) :
    realm.Steps (realm.conclude p settlement).2 := by
  cases settlement with
  | fulfill v => exact realm.steps_settle p false v
  | reject reason => exact realm.steps_settle p true reason
  | follow thenable then_ => exact realm.steps_queue _

theorem steps_register (realm : Realm H) (p : ObjectId) (fulfill reject : Reaction) :
    realm.Steps (realm.register p fulfill reject).2 := by
  rcases realm.register_cases p fulfill reject with ⟨_, _, h⟩ | ⟨_, _, h⟩ <;> rw [h]
  · exact .refl realm
  · exact (realm.steps_setPromise p _).trans (steps_queue _ _)

theorem steps_startJob (realm : Realm H) : realm.Steps realm.startJob.2 := by
  rcases realm.startJob_cases with ⟨_, h⟩ | ⟨_, _, _, h⟩ <;> rw [h]
  · exact .refl realm
  · exact Beside.steps ⟨rfl, rfl, rfl⟩

theorem ledger_createPromise (realm : Realm H) (prototype : ObjectId) :
    (realm.createPromise prototype).2.ledger = realm.ledger.created ⟨realm.heap.size⟩ := by
  simp only [ledger, createPromise, Ledger.created, Ledger.withPromise, Ledger.mk.injEq, and_true]
  funext q
  exact view_push realm (.ofKind (some prototype) (.promise {})) q

theorem conducts_createPromise (realm : Realm H) (prototype : ObjectId) :
    realm.Conducts (realm.createPromise prototype).2 := by
  refine .of_ledger rfl ?_ fun _ => ?_
  · exact realm.control_push rfl
  · rw [ledger_createPromise]
    exact Ledger.conducts_created (view_size realm)

theorem conducts_register (realm : Realm H) (p : ObjectId) (fulfill reject : Reaction) :
    realm.Conducts (realm.register p fulfill reject).2 := by
  rcases realm.register_cases p fulfill reject with ⟨_, _, h⟩ | ⟨data, hp, h⟩ <;> rw [h]
  · exact .refl realm
  · refine .of_ledger rfl (realm.control_setPromise p _) fun _ => ?_
    rw [ledger_queue, realm.ledger_setPromise hp]
    exact Ledger.conducts_registered hp fulfill reject

theorem conducts_startJob (realm : Realm H) : realm.Conducts realm.startJob.2 := by
  rcases realm.startJob_cases with ⟨_, h⟩ | ⟨_, _, hjobs, h⟩ <;> rw [h]
  · exact .refl realm
  · exact .of_ledger rfl rfl fun _ => Ledger.conducts_started hjobs

/-! ### Settling by the use of a latch -/

theorem disposed_settle (realm : Realm H) (p : ObjectId) (rejected : Bool) (v : Value) :
    (realm.settle p rejected v).2.disposed = realm.disposed := by
  rcases realm.settle_cases p rejected v with ⟨_, h⟩ | ⟨_, _, _, h⟩ <;> rw [h]
  rfl

theorem control_settle (realm : Realm H) (p : ObjectId) (rejected : Bool) (v : Value) :
    (realm.settle p rejected v).2.control = realm.control := by
  rcases realm.settle_cases p rejected v with ⟨_, h⟩ | ⟨_, _, _, h⟩ <;> rw [h]
  exact realm.control_setPromise p _

theorem settle_of_pending (rejected : Bool) (v : Value) (hp : realm.ledger.promise? p = some data)
    (hs : data.state = .pending) :
    (realm.settle p rejected v).1 = .ok ()
      ∧ (realm.settle p rejected v).2.ledger = realm.ledger.settled p data rejected v := by
  unfold settle
  rw [promiseData_eq_ok.mpr hp]
  simp only [if_pos hs, ledger_queue, realm.ledger_setPromise hp]
  exact ⟨trivial, rfl⟩

theorem disposed_conclude (realm : Realm H) (p : ObjectId) (settlement : Settlement) :
    (realm.conclude p settlement).2.disposed = realm.disposed := by
  cases settlement with
  | fulfill v => exact realm.disposed_settle p false v
  | reject reason => exact realm.disposed_settle p true reason
  | follow => rfl

theorem control_conclude (realm : Realm H) (p : ObjectId) (settlement : Settlement) :
    (realm.conclude p settlement).2.control = realm.control := by
  cases settlement with
  | fulfill v => exact realm.control_settle p false v
  | reject reason => exact realm.control_settle p true reason
  | follow => rfl

/-- A pending promise without claims is settled, or left to a thenable, and no other is touched. -/
theorem conclude_of_pending (settlement : Settlement) (hp : realm.ledger.promise? p = some data)
    (hs : data.state = .pending) (hc : realm.ledger.claims p = 0) :
    (realm.conclude p settlement).1 = .ok ()
      ∧ (∃ event, realm.ledger.Move event (realm.conclude p settlement).2.ledger)
      ∧ ∀ q, q ≠ p →
        (realm.conclude p settlement).2.ledger.promise? q = realm.ledger.promise? q
          ∧ (realm.conclude p settlement).2.ledger.claims q = realm.ledger.claims q := by
  have settle (rejected : Bool) (v : Value) :
      (realm.settle p rejected v).1 = .ok ()
        ∧ (∃ event, realm.ledger.Move event (realm.settle p rejected v).2.ledger)
        ∧ ∀ q, q ≠ p →
          (realm.settle p rejected v).2.ledger.promise? q = realm.ledger.promise? q
            ∧ (realm.settle p rejected v).2.ledger.claims q = realm.ledger.claims q := by
    obtain ⟨hok, hledger⟩ := settle_of_pending rejected v hp hs
    rw [hledger]
    refine ⟨hok, ⟨_, .settle realm.ledger p data rejected v hp hs hc⟩, fun q hne => ?_⟩
    exact ⟨if_neg hne, Ledger.claims_settled _ p data rejected v q⟩
  cases settlement with
  | fulfill v => exact settle false v
  | reject reason => exact settle true reason
  | follow thenable then_ =>
    refine ⟨rfl, ⟨_, .follow realm.ledger p thenable then_ data hp hs hc⟩, fun q hne => ⟨rfl, ?_⟩⟩
    exact (Ledger.claims_followed realm.ledger p thenable then_ q).trans (by rw [if_neg hne]; rfl)

/-- What is done with the outcome of deciding on the settlement of a promise. A latch that had been
used before gives no promise. -/
def finish (realm : Realm H) (p? : Option ObjectId)
    (outcome : Except Failure (Option Settlement)) : Except Failure Unit × Realm H :=
  match outcome, p? with
  | .error f, _ => (.error f, realm)
  | .ok (some settlement), some p => realm.conclude p settlement
  | .ok _, _ => (.ok (), realm)

theorem steps_finish (realm : Realm H) (p? : Option ObjectId)
    (outcome : Except Failure (Option Settlement)) : realm.Steps (realm.finish p? outcome).2 := by
  unfold finish
  split
  · exact .refl realm
  · exact realm.steps_conclude _ _
  · exact .refl realm

theorem conducts_takeLatch (realm : Realm H) (latch : Nat) :
    realm.Conducts (realm.takeLatch latch).2 := by
  rcases realm.takeLatch_cases latch with h | ⟨_, hlatch, h⟩ <;> rw [h]
  · exact .refl realm
  · exact .of_ledger rfl rfl fun _ => Ledger.conducts_taken hlatch

/-- The use of a latch that can be used is one move of the ledger. -/
theorem ledger_takeLatch (h : (realm.takeLatch latch).1 = some p) :
    realm.ledger.latches[latch]? = some { promise := p }
      ∧ (realm.takeLatch latch).2.ledger = realm.ledger.taken latch p := by
  rcases realm.takeLatch_cases latch with heq | ⟨_, hlatch, heq⟩ <;> rw [heq] at h ⊢
  · cases h
  · cases h
    exact ⟨hlatch, rfl⟩

/-- After the use of a latch, whatever is done then leaves the settlement of its promise to it. -/
theorem pending_of_takeLatch (hr : realm.Tidy) (h : (realm.takeLatch latch).1 = some p)
    (hm : (realm.takeLatch latch).2.Conducts middle) (hd : middle.disposed = false) :
    middle.ledger.claims p = 0
      ∧ ∃ data, middle.ledger.promise? p = some data ∧ data.state = .pending := by
  obtain ⟨hlatch, hledger⟩ := ledger_takeLatch h
  have hmiddle := hm.ledger hd
  rw [hledger] at hmiddle
  have htidy := hr.ledger ((realm.conducts_takeLatch latch).usable (hm.usable hd))
  exact Ledger.pending_of_taken htidy hlatch hmiddle

/-- A computation between the use of a latch and the settlement that it decides on. -/
theorem Conducts.finish (hr : realm.Tidy)
    (hm : (realm.takeLatch latch).2.Conducts middle)
    (outcome : Except Failure (Option Settlement)) :
    realm.Conducts (middle.finish (realm.takeLatch latch).1 outcome).2 := by
  unfold Realm.finish
  split
  · exact (realm.conducts_takeLatch latch).trans hm
  · next settlement p htaken =>
    obtain ⟨hlatch, hledger⟩ := ledger_takeLatch htaken
    have hfirst := realm.conducts_takeLatch latch
    have hd : (middle.conclude p settlement).2.disposed = false → middle.disposed = false :=
      fun h => middle.disposed_conclude p settlement ▸ h
    refine ⟨fun h => hfirst.usable (hm.usable (hd h)), fun h => ?_, fun hmoves h => ?_⟩
    · have hmiddle := hm.ledger (hd h)
      rw [hledger] at hmiddle
      obtain ⟨hzero, data, hp, hs⟩ := pending_of_takeLatch hr htaken hm (hd h)
      obtain ⟨-, ⟨event, hmove⟩, hothers⟩ := conclude_of_pending settlement hp hs hzero
      exact hmiddle.concluded hlatch hmove (fun q hne => (hothers q hne).1)
        fun q hne => (hothers q hne).2
    · rw [middle.control_conclude p settlement]
      exact (hfirst.trans hm).control hmoves (hd h)
  · exact (realm.conducts_takeLatch latch).trans hm

/-! ### The time limit and the contexts, which promises do not touch -/

theorem untimed_startJob (realm : Realm H) : realm.Untimed realm.startJob.2 := by
  rcases realm.startJob_cases with ⟨_, h⟩ | ⟨_, _, _, h⟩ <;> rw [h]
  · exact .refl realm
  · exact ⟨rfl, rfl, rfl⟩

theorem untimed_register (realm : Realm H) (p : ObjectId) (fulfill reject : Reaction) :
    realm.Untimed (realm.register p fulfill reject).2 := by
  rcases realm.register_cases p fulfill reject with ⟨_, _, h⟩ | ⟨_, _, h⟩ <;> rw [h]
  · exact .refl realm
  · exact ⟨rfl, rfl, rfl⟩

theorem untimed_takeLatch (realm : Realm H) (latch : Nat) :
    realm.Untimed (realm.takeLatch latch).2 := by
  rcases realm.takeLatch_cases latch with h | ⟨_, _, h⟩ <;> rw [h]
  · exact .refl realm
  · exact ⟨rfl, rfl, rfl⟩

theorem untimed_settle (realm : Realm H) (p : ObjectId) (rejected : Bool) (v : Value) :
    realm.Untimed (realm.settle p rejected v).2 := by
  rcases realm.settle_cases p rejected v with ⟨_, h⟩ | ⟨_, _, _, h⟩ <;> rw [h]
  · exact .refl realm
  · exact ⟨rfl, rfl, rfl⟩

theorem untimed_finish (realm : Realm H) (p? : Option ObjectId)
    (outcome : Except Failure (Option Settlement)) :
    realm.Untimed (realm.finish p? outcome).2 := by
  unfold finish
  split
  · exact .refl realm
  · next settlement p =>
    cases settlement with
    | fulfill v => exact realm.untimed_settle p false v
    | reject reason => exact realm.untimed_settle p true reason
    | follow => exact ⟨rfl, rfl, rfl⟩
  · exact .refl realm

theorem contexts_startJob (realm : Realm H) : realm.startJob.2.contexts = realm.contexts := by
  rcases realm.startJob_cases with ⟨_, h⟩ | ⟨_, _, _, h⟩ <;> rw [h]

theorem contexts_register (realm : Realm H) (p : ObjectId) (fulfill reject : Reaction) :
    (realm.register p fulfill reject).2.contexts = realm.contexts := by
  rcases realm.register_cases p fulfill reject with ⟨_, _, h⟩ | ⟨_, _, h⟩ <;> rw [h]
  rfl

theorem contexts_takeLatch (realm : Realm H) (latch : Nat) :
    (realm.takeLatch latch).2.contexts = realm.contexts := by
  rcases realm.takeLatch_cases latch with h | ⟨_, _, h⟩ <;> rw [h]

theorem contexts_settle (realm : Realm H) (p : ObjectId) (rejected : Bool) (v : Value) :
    (realm.settle p rejected v).2.contexts = realm.contexts := by
  rcases realm.settle_cases p rejected v with ⟨_, h⟩ | ⟨_, _, _, h⟩ <;> rw [h]
  rfl

theorem contexts_conclude (realm : Realm H) (p : ObjectId) (settlement : Settlement) :
    (realm.conclude p settlement).2.contexts = realm.contexts := by
  cases settlement with
  | fulfill v => exact realm.contexts_settle p false v
  | reject reason => exact realm.contexts_settle p true reason
  | follow => rfl

theorem contexts_finish (realm : Realm H) (p? : Option ObjectId)
    (outcome : Except Failure (Option Settlement)) :
    (realm.finish p? outcome).2.contexts = realm.contexts := by
  unfold finish
  split
  · rfl
  · exact realm.contexts_conclude _ _
  · rfl

end Realm

/-! ### The data of promises -/

/-- The data of an object that has to be a promise. -/
def ObjectId.promiseData (p : ObjectId) : Engine H PromiseData := do
  ofExcept ((← getRealm).promiseData p)

/-- Whether a value is a promise. -/
def Value.isPromise : Value → Engine H Bool
  | .object o => return (← getKind o).isPromise
  | _ => return false

/-- Makes a promise; its handle and the latch for its resolving functions. -/
def newPromise (prototype : ObjectId) : Engine H (ObjectId × Nat) :=
  transition
    { apply := fun realm =>
        let (pair, after) := realm.createPromise prototype
        (.ok pair, after)
      steps := fun realm => realm.steps_createPromise prototype }
    (fun realm _ => realm.conducts_createPromise prototype) (fun _ => rfl)
    fun _ => ⟨rfl, rfl, rfl⟩

/-! ### Resolving functions -/

/-- Uses a latch and, in the end, settles the promise that it belongs to. -/
def latchBracket (latch : Nat) : Bracket H (Option ObjectId) (Option Settlement) Unit where
  enter :=
    { apply := fun realm =>
        let (p?, after) := realm.takeLatch latch
        (.ok p?, after)
      steps := fun realm => realm.steps_takeLatch latch
      restarts := fun realm => (realm.untimed_takeLatch latch).restarts }
  leave := fun p? outcome =>
    { apply := fun realm => realm.finish p? outcome
      steps := fun realm => realm.steps_finish p? outcome
      restarts := fun realm => (realm.untimed_finish p? outcome).restarts }
  refused := fun _ _ _ h => by cases h
  advances := fun realm _ _ _ => (realm.conducts_takeLatch latch).advances
  conducts := fun _ _ _ outcome hr h hm => by
    cases h
    exact hm.finish hr outcome

theorem latchBracket_steady (latch : Nat) : (latchBracket (H := H) latch).Steady where
  refused _ _ h := by cases h
  balanced realm p? middle outcome _ hm :=
    (congrArg ContextStack.marks (middle.contexts_finish p? outcome)).trans
      (hm.trans (congrArg ContextStack.marks (realm.contexts_takeLatch latch)))

theorem latchBracket_untimed (latch : Nat) : (latchBracket (H := H) latch).Untimed where
  enter realm := realm.untimed_takeLatch latch
  leave p? outcome realm := realm.untimed_finish p? outcome

/-- Settles the promise of a latch as is decided for it, unless the latch has been used. -/
def concluding (latch : Nat) (decide : ObjectId → Engine H Settlement) : Engine H Unit :=
  bracket (latchBracket latch) (latchBracket_steady latch) (latchBracket_untimed latch) fun p? =>
    p?.mapM decide

/-- What is to become of a promise that is resolved with a value: an object with a `then` method is
left to settle the promise, and anything else fulfills it. -/
def ObjectId.settlement (p : ObjectId) (resolution : Value) : Engine H Settlement := do
  if resolution.sameValue (.object p) then
    let cycle : Failure := .typeError "Chaining cycle detected for promise"
    return .reject (← cycle.toValue)
  else
    match resolution with
    | .object thenable =>
      match ← attempt (thenable.getNamed "then") with
      | .error f => return .reject (← f.toValue)
      | .ok then_ =>
        return if ← isCallable then_ then .follow thenable then_ else .fulfill (.object thenable)
    | v => return .fulfill v

/-- What the resolving function of a promise does. -/
def resolveWith (latch : Nat) (resolution : Value) : Engine H Value := do
  concluding latch fun p => p.settlement resolution
  return .undefined

/-- What the rejecting function of a promise does. -/
def rejectWith (latch : Nat) (reason : Value) : Engine H Value := do
  concluding latch fun _ => return .reject reason
  return .undefined

/-- A pair of functions that resolve and reject the promise of a latch. -/
def resolvingFunctions (latch : Nat) : Engine H (ObjectId × ObjectId) := do
  let resolve ← internalFunction (.promiseResolve latch) 1
  let reject ← internalFunction (.promiseReject latch) 1
  return (resolve, reject)

/-! ### Capabilities -/

/-- The functions that an executor received, `undefined` before. -/
def getSlots (slots : Nat) : Engine H CapabilitySlots :=
  return (← getRealm).capabilitySlots.getD slots {}

/-- What the executor of a capability does: it stores the two functions, once. -/
def executeCapability (slots : Nat) (args : List Value) : Engine H Value := do
  let known ← getSlots slots
  if !known.resolve.isUndefined || !known.reject.isUndefined then
    typeError "Promise executor has already been invoked"
  let received : CapabilitySlots :=
    { resolve := argument args 0, reject := argument args 1 }
  adjust fun realm =>
    { realm with capabilitySlots := realm.capabilitySlots.modify slots fun _ => received }
  return .undefined

/-- A new promise of a constructor with the functions that settle it. -/
def Value.newCapability (constructor : Value) : Engine H Capability := do
  match constructor with
  | .object c =>
    if !(← isConstructor constructor) then typeError "Promise capability requires a constructor"
    let slots ← adjustGet fun realm =>
      (realm.capabilitySlots.size,
       { realm with capabilitySlots := realm.capabilitySlots.push {} })
    let executor ← internalFunction (.capabilityExecutor slots) 2
    let promise ← c.construct [.object executor]
    let received ← getSlots slots
    if !(← isCallable received.resolve) then typeError "Promise resolve function is not callable"
    if !(← isCallable received.reject) then typeError "Promise reject function is not callable"
    return { promise, resolve := received.resolve, reject := received.reject }
  | _ => typeError "Promise capability requires a constructor"

/-- A value as a promise of a constructor: itself if it is one, else a new one resolved with it. -/
def ObjectId.promiseResolve (c : ObjectId) (v : Value) : Engine H ObjectId := do
  if ← v.isPromise then
    match v with
    | .object p =>
      if (← p.getNamed "constructor").sameValue (.object c) then return p
    | _ => pure ()
  let capability ← (Value.object c).newCapability
  let _ ← capability.resolve.call .undefined [v]
  return capability.promise

/-- Attaches a reaction to each settlement of a promise. -/
def ObjectId.register (p : ObjectId) (fulfill reject : Reaction) : Engine H Unit :=
  transition
    { apply := fun realm => realm.register p fulfill reject
      steps := fun realm => realm.steps_register p fulfill reject
      restarts := fun realm => (realm.untimed_register p fulfill reject).restarts }
    (fun realm _ => realm.conducts_register p fulfill reject)
    (fun realm => congrArg ContextStack.marks (realm.contexts_register p fulfill reject))
    fun realm => realm.untimed_register p fulfill reject

/-- Attaches reactions to a promise. -/
def ObjectId.performThen (p : ObjectId) (onFulfilled onRejected : Value)
    (capability : Option Capability) : Engine H Value := do
  let fulfillHandler := if ← isCallable onFulfilled then some onFulfilled else none
  let rejectHandler := if ← isCallable onRejected then some onRejected else none
  let fulfill : Reaction := { capability, isReject := false, handler := fulfillHandler }
  let reject : Reaction := { capability, isReject := true, handler := rejectHandler }
  p.register fulfill reject
  match capability with
  | some c => return .object c.promise
  | none => return .undefined

/-! ### Jobs -/

/-- What the handler of a reaction makes of a settlement; without one it is passed on. -/
def Reaction.handle (r : Reaction) (argument : Value) : Engine H Value :=
  match r.handler with
  | some handler => handler.call .undefined [argument]
  | none => if r.isReject then fail (.throwing argument) else pure argument

/-- Runs a reaction and settles the promise of its capability with the outcome. -/
def Reaction.run (r : Reaction) (argument : Value) : Engine H Unit := do
  match r.capability with
  | none => let _ ← r.handle argument
  | some capability =>
    match ← attempt (r.handle argument) with
    | .ok v => let _ ← capability.resolve.call .undefined [v]
    | .error f => let _ ← capability.reject.call .undefined [← f.toValue]

/-- Calls a function that may settle a promise through a pair of resolving functions; if it fails,
the promise is rejected. -/
def callWithResolvers (f this : Value) (resolve reject : ObjectId) : Engine H Unit := do
  match ← attempt (f.call this [.object resolve, .object reject]) with
  | .ok _ => pure ()
  | .error failure =>
    let _ ← (Value.object reject).call .undefined [← failure.toValue]

/-- Lets a thenable settle the promise of a latch. -/
def runThenable (latch : Nat) (thenable : ObjectId) (then_ : Value) : Engine H Unit := do
  let (resolve, reject) ← resolvingFunctions latch
  callWithResolvers then_ (.object thenable) resolve reject

/-- Runs a job. -/
def Task.run : Task H → Engine H Unit
  | reaction r argument => r.run argument
  | thenable latch o then_ => runThenable latch o then_
  | host job => askHost (.job job)

/-- Takes the next job from the queue. -/
def nextTask? : Engine H (Option (Task H)) :=
  transition
    { apply := fun realm =>
        let (task?, after) := realm.startJob
        (.ok task?, after)
      steps := fun realm => realm.steps_startJob
      restarts := fun realm => realm.untimed_startJob.restarts }
    (fun realm _ => realm.conducts_startJob)
    (fun realm => congrArg ContextStack.marks realm.contexts_startJob)
    fun realm => realm.untimed_startJob

end ScriptEngine
