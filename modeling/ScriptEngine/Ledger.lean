import ScriptEngine.Step

/-!
# The ledger of promises

What a realm keeps of its promises is their data, the latches of their resolving functions and the
queue of jobs. A promise can be settled by whoever first uses a latch of it, and by a thenable whose
job waits: these are the claims on it. Whoever uses up the last claim may settle the promise, or may
leave that to a thenable, which is a claim again. All that a computation does to promises is a
sequence of such moves.

## Main definitions

* `Ledger`, `Realm.ledger`: the promises, the latches and the jobs.
* `Ledger.claims`: the ways in which a promise can still be settled.
* `Event`, `Ledger.Move`, `Ledger.Path`: what can happen to promises and jobs.
* `Ledger.Tidy`: at most one claim on a promise, and none once it is settled.
* `Ledger.Spares`: a promise without claims is left to whoever used up the last one.

## Main results

* `Ledger.Path.tidy`: moves keep a ledger tidy.
-/

namespace ScriptEngine

variable {H : HostTypes}

/-! ### Promises and jobs -/

namespace PromiseData

/-- The promise settled. -/
def settled (data : PromiseData) (rejected : Bool) (v : Value) : PromiseData :=
  { data with
    state := if rejected then .rejected else .fulfilled
    result := v
    fulfillReactions := []
    rejectReactions := [] }

/-- The jobs for the reactions to a settlement. -/
def settlementJobs (data : PromiseData) (rejected : Bool) (v : Value) : List (Job H) :=
  (if rejected then data.rejectReactions else data.fulfillReactions).map (.reaction · v)

/-- The promise with one more reaction to each settlement, if it is pending. -/
def registered (data : PromiseData) (fulfill reject : Reaction) : PromiseData :=
  match data.state with
  | .pending =>
    { data with
      isHandled := true
      fulfillReactions := data.fulfillReactions ++ [fulfill]
      rejectReactions := data.rejectReactions ++ [reject] }
  | _ => { data with isHandled := true }

/-- The job for a new reaction, if the promise is settled. -/
def registrationJobs (data : PromiseData) (fulfill reject : Reaction) : List (Job H) :=
  match data.state with
  | .pending => []
  | .fulfilled => [.reaction fulfill data.result]
  | .rejected => [.reaction reject data.result]

@[simp] theorem state_registered (data : PromiseData) (fulfill reject : Reaction) :
    (data.registered fulfill reject).state = data.state := by
  unfold registered
  split <;> rfl

@[simp] theorem result_registered (data : PromiseData) (fulfill reject : Reaction) :
    (data.registered fulfill reject).result = data.result := by
  unfold registered
  split <;> rfl

end PromiseData

/-- Whether a latch can still be used to settle a promise. -/
def Latch.opens (p : ObjectId) (latch : Latch) : Bool := latch.promise = p && !latch.used

namespace Job

/-- Whether a job lets a thenable settle a promise. -/
def follows (p : ObjectId) : Job H → Bool
  | thenable q _ _ => q = p
  | _ => false

/-- The latch that a job needs when it starts. -/
def latches : Job H → Array Latch
  | thenable p _ _ => #[{ promise := p }]
  | _ => #[]

end Job

/-! ### The ledger -/

/-- What a realm keeps of its promises. -/
structure Ledger (H : HostTypes) where
  promise? : ObjectId → Option PromiseData := fun _ => none
  latches : Array Latch := #[]
  jobs : List (Job H) := []

/-- What can happen to promises and jobs. -/
inductive Event (H : HostTypes) where
  /-- A promise is made, with a pair of resolving functions. -/
  | create (p : ObjectId)
  /-- One of a pair of resolving functions is called for the first time. -/
  | take (p : ObjectId)
  /-- A promise is settled, and jobs are queued for the reactions. -/
  | settle (p : ObjectId) (rejected : Bool) (v : Value) (queued : List (Job H))
  /-- The settlement of a promise is left to a thenable. -/
  | follow (p thenable : ObjectId) (then_ : Value)
  /-- Reactions are attached to a promise; a settled one queues a job. -/
  | register (p : ObjectId) (fulfill reject : Reaction) (queued : List (Job H))
  /-- The host queues a job. -/
  | enqueue (job : H.Job)
  /-- A job is taken from the queue and starts. -/
  | start (job : Job H)

namespace Ledger

variable {l middle after : Ledger H} {p q : ObjectId} {data : PromiseData}

/-- The ledger with a promise in the place of that of a handle. -/
def withPromise (l : Ledger H) (p : ObjectId) (data : PromiseData) : Ledger H :=
  { l with promise? := fun q => if q = p then some data else l.promise? q }

/-- The ledger with a new promise and its latch. -/
def created (l : Ledger H) (p : ObjectId) : Ledger H :=
  { l.withPromise p {} with latches := l.latches.push { promise := p } }

/-- The ledger after the first use of a latch. -/
def taken (l : Ledger H) (i : Nat) (p : ObjectId) : Ledger H :=
  { l with latches := l.latches.setIfInBounds i { promise := p, used := true } }

/-- The ledger with more jobs. -/
def queueing (l : Ledger H) (jobs : List (Job H)) : Ledger H := { l with jobs := l.jobs ++ jobs }

/-- The ledger with a promise settled. -/
def settled (l : Ledger H) (p : ObjectId) (data : PromiseData) (rejected : Bool) (v : Value) :
    Ledger H :=
  (l.withPromise p (data.settled rejected v)).queueing (data.settlementJobs rejected v)

/-- The ledger with reactions attached to a promise. -/
def registered (l : Ledger H) (p : ObjectId) (data : PromiseData) (fulfill reject : Reaction) :
    Ledger H :=
  (l.withPromise p (data.registered fulfill reject)).queueing
    (data.registrationJobs fulfill reject)

/-- The ledger after the start of its next job. -/
def started (l : Ledger H) (job : Job H) (rest : List (Job H)) : Ledger H :=
  { l with jobs := rest, latches := l.latches ++ job.latches }

/-- In how many ways a promise can still be settled: by the use of latches, and by thenables whose
job waits. -/
def claims (l : Ledger H) (p : ObjectId) : Nat :=
  l.latches.countP (Latch.opens p) + l.jobs.countP (Job.follows p)

/-- One thing that happens to promises and jobs. Only a pending promise without claims is settled or
left to a thenable. -/
inductive Move : Ledger H → Event H → Ledger H → Prop
  | create (l : Ledger H) (p : ObjectId) (h : l.promise? p = none) :
      Move l (.create p) (l.created p)
  | take (l : Ledger H) (i : Nat) (p : ObjectId) (h : l.latches[i]? = some { promise := p }) :
      Move l (.take p) (l.taken i p)
  | settle (l : Ledger H) (p : ObjectId) (data : PromiseData) (rejected : Bool) (v : Value)
      (hp : l.promise? p = some data) (hs : data.state = .pending) (hc : l.claims p = 0) :
      Move l (.settle p rejected v (data.settlementJobs rejected v)) (l.settled p data rejected v)
  | follow (l : Ledger H) (p thenable : ObjectId) (then_ : Value) (data : PromiseData)
      (hp : l.promise? p = some data) (hs : data.state = .pending) (hc : l.claims p = 0) :
      Move l (.follow p thenable then_) (l.queueing [.thenable p thenable then_])
  | register (l : Ledger H) (p : ObjectId) (data : PromiseData) (fulfill reject : Reaction)
      (hp : l.promise? p = some data) :
      Move l (.register p fulfill reject (data.registrationJobs fulfill reject))
        (l.registered p data fulfill reject)
  | enqueue (l : Ledger H) (job : H.Job) : Move l (.enqueue job) (l.queueing [.host job])
  | start (l : Ledger H) (job : Job H) (rest : List (Job H)) (h : l.jobs = job :: rest) :
      Move l (.start job) (l.started job rest)

/-- Things that happen one after the other. -/
inductive Path : Ledger H → List (Event H) → Ledger H → Prop
  | refl (l : Ledger H) : Path l [] l
  | tail {l middle after : Ledger H} {events : List (Event H)} {event : Event H}
      (first : Path l events middle) (last : Move middle event after) :
      Path l (events ++ [event]) after

theorem Move.path {event : Event H} (h : Move l event after) : Path l [event] after :=
  .tail (.refl l) h

theorem Path.trans {first last : List (Event H)} (h : Path l first middle)
    (h' : Path middle last after) : Path l (first ++ last) after := by
  induction h' with
  | refl => rwa [List.append_nil]
  | tail _ move ih =>
    rw [← List.append_assoc]
    exact ih.tail move

/-! ### Claims -/

@[simp] theorem promise?_withPromise (l : Ledger H) (p q : ObjectId) (data : PromiseData) :
    (l.withPromise p data).promise? q = if q = p then some data else l.promise? q :=
  rfl

@[simp] theorem claims_withPromise (l : Ledger H) (p q : ObjectId) (data : PromiseData) :
    (l.withPromise p data).claims q = l.claims q :=
  rfl

theorem claims_created (l : Ledger H) (p q : ObjectId) :
    (l.created p).claims q = l.claims q + if q = p then 1 else 0 := by
  have hopens : Latch.opens q { promise := p } = decide (q = p) := by
    simp [Latch.opens, eq_comm]
  simp only [claims, created, withPromise, Array.countP_push, hopens, decide_eq_true_eq]
  omega

theorem claims_taken {i : Nat} (h : l.latches[i]? = some { promise := p }) (q : ObjectId) :
    l.claims q = (l.taken i p).claims q + if q = p then 1 else 0 := by
  obtain ⟨hlt, hget⟩ := Array.getElem?_eq_some_iff.mp h
  have hbefore : Latch.opens q l.latches[i] = decide (q = p) := by
    simp [hget, Latch.opens, eq_comm]
  have hafter : Latch.opens q { promise := p, used := true } = false := by
    simp [Latch.opens]
  have hpos : (if q = p then 1 else 0) ≤ l.latches.countP (Latch.opens q) := by
    split
    · next heq =>
      refine Array.countP_pos_iff.mpr ⟨l.latches[i], Array.getElem_mem hlt, ?_⟩
      rw [hbefore, decide_eq_true heq]
    · exact Nat.zero_le _
  simp only [claims, taken, Array.setIfInBounds_def, dif_pos hlt, Array.countP_set, hbefore,
    decide_eq_true_eq, hafter]
  simp only [Bool.false_eq_true, if_false]
  omega

theorem claims_queueing (l : Ledger H) (jobs : List (Job H)) (q : ObjectId) :
    (l.queueing jobs).claims q = l.claims q + jobs.countP (Job.follows q) := by
  simp only [claims, queueing, List.countP_append]
  omega

theorem countP_settlementJobs (data : PromiseData) (rejected : Bool) (v : Value) (q : ObjectId) :
    (data.settlementJobs rejected v : List (Job H)).countP (Job.follows q) = 0 := by
  rw [PromiseData.settlementJobs, List.countP_eq_zero]
  intro job hjob
  obtain ⟨reaction, -, rfl⟩ := List.mem_map.mp hjob
  exact Bool.false_ne_true

theorem countP_registrationJobs (data : PromiseData) (fulfill reject : Reaction) (q : ObjectId) :
    (data.registrationJobs fulfill reject : List (Job H)).countP (Job.follows q) = 0 := by
  unfold PromiseData.registrationJobs
  split <;> rfl

@[simp] theorem claims_settled (l : Ledger H) (p : ObjectId) (data : PromiseData)
    (rejected : Bool) (v : Value) (q : ObjectId) :
    (l.settled p data rejected v).claims q = l.claims q := by
  rw [settled, claims_queueing, countP_settlementJobs, claims_withPromise, Nat.add_zero]

@[simp] theorem claims_registered (l : Ledger H) (p : ObjectId) (data : PromiseData)
    (fulfill reject : Reaction) (q : ObjectId) :
    (l.registered p data fulfill reject).claims q = l.claims q := by
  rw [registered, claims_queueing, countP_registrationJobs, claims_withPromise, Nat.add_zero]

theorem claims_followed (l : Ledger H) (p thenable : ObjectId) (then_ : Value) (q : ObjectId) :
    (l.queueing [.thenable p thenable then_]).claims q = l.claims q + if q = p then 1 else 0 := by
  simp only [claims_queueing, List.countP_singleton, Job.follows, decide_eq_true_eq,
    eq_comm (a := p)]

@[simp] theorem claims_enqueued (l : Ledger H) (job : H.Job) (q : ObjectId) :
    (l.queueing [.host job]).claims q = l.claims q := by
  rw [claims_queueing]
  rfl

/-- A job that starts has its latch in the place of its claim. -/
theorem claims_started {job : Job H} {rest : List (Job H)} (h : l.jobs = job :: rest)
    (q : ObjectId) : (l.started job rest).claims q = l.claims q := by
  have hjob : job.latches.countP (Latch.opens q) = if job.follows q then 1 else 0 := by
    cases job with
    | thenable p thenable then_ => simp [Job.latches, Job.follows, Latch.opens]
    | _ => rfl
  simp only [claims, started, Array.countP_append, hjob, h, List.countP_cons]
  omega

/-! ### Tidy ledgers -/

/-- At most one claim on every promise, and none on one that is settled or that does not exist. -/
structure Tidy (l : Ledger H) : Prop where
  claims_le : ∀ p, l.claims p ≤ 1
  of_settled : ∀ p data, l.promise? p = some data → data.state ≠ .pending → l.claims p = 0
  of_none : ∀ p, l.promise? p = none → l.claims p = 0

theorem tidy_empty : ({} : Ledger H).Tidy :=
  ⟨fun _ => Nat.zero_le _, fun _ _ _ _ => rfl, fun _ _ => rfl⟩

/-- A promise with a claim on it is pending. -/
theorem Tidy.pending_of_claims (h : l.Tidy) (hc : 0 < l.claims p) :
    ∃ data, l.promise? p = some data ∧ data.state = .pending := by
  cases hp : l.promise? p with
  | none => exact absurd (h.of_none p hp) (Nat.ne_of_gt hc)
  | some data =>
    refine ⟨data, rfl, ?_⟩
    cases hs : data.state with
    | pending => rfl
    | _ => exact absurd (h.of_settled p data hp (by simp [hs])) (Nat.ne_of_gt hc)

theorem Tidy.withPromise (h : l.Tidy)
    (hs : data.state ≠ .pending → l.claims p = 0) : (l.withPromise p data).Tidy where
  claims_le := h.claims_le
  of_settled q data' hq hne := by
    rw [promise?_withPromise] at hq
    split at hq
    · next heq =>
      cases hq
      rw [claims_withPromise, heq]
      exact hs hne
    · exact h.of_settled q data' hq hne
  of_none q hq := by
    rw [promise?_withPromise] at hq
    split at hq
    · cases hq
    · exact h.of_none q hq

theorem Tidy.of_claims_eq (h : l.Tidy) (hp : after.promise? = l.promise?)
    (hc : ∀ q, after.claims q = l.claims q) : after.Tidy where
  claims_le q := hc q ▸ h.claims_le q
  of_settled q data hq hs := (hc q).trans (h.of_settled q data (hp ▸ hq) hs)
  of_none q hq := (hc q).trans (h.of_none q (hp ▸ hq))

/-- A pending promise without claims may get one. -/
theorem Tidy.of_claim (h : l.Tidy) (hp : l.promise? p = some data) (hs : data.state = .pending)
    (hc : l.claims p = 0) (hp' : after.promise? = l.promise?)
    (hc' : ∀ q, after.claims q = l.claims q + if q = p then 1 else 0) : after.Tidy where
  claims_le q := by
    rw [hc']
    split
    · next heq => simp [heq, hc]
    · exact h.claims_le q
  of_settled q data' hq hne := by
    rw [hp'] at hq
    rw [hc', if_neg fun heq => ?_]
    · exact h.of_settled q data' hq hne
    · rw [heq, hp] at hq
      cases hq
      exact hne hs
  of_none q hq := by
    rw [hp'] at hq
    rw [hc', if_neg fun heq => ?_]
    · exact h.of_none q hq
    · rw [heq, hp] at hq
      cases hq

theorem Tidy.created (h : l.Tidy) (hp : l.promise? p = none) : (l.created p).Tidy := by
  have hwith : (l.withPromise p {}).Tidy := h.withPromise fun hne => absurd rfl hne
  have hnew : (l.withPromise p {}).promise? p = some {} := by rw [promise?_withPromise, if_pos rfl]
  exact hwith.of_claim hnew rfl (h.of_none p hp) rfl (claims_created l p)

theorem Tidy.taken (h : l.Tidy) {i : Nat} (hi : l.latches[i]? = some { promise := p }) :
    (l.taken i p).Tidy where
  claims_le q := by
    have hle := h.claims_le q
    have heq := claims_taken hi q
    omega
  of_settled q data hq hs := by
    have hzero := h.of_settled q data hq hs
    have heq := claims_taken hi q
    omega
  of_none q hq := by
    have hzero := h.of_none q hq
    have heq := claims_taken hi q
    omega

theorem Move.tidy {event : Event H} (hm : Move l event after) (h : l.Tidy) : after.Tidy := by
  cases hm with
  | create p hp => exact h.created hp
  | take i p hi => exact h.taken hi
  | settle p data rejected v hp hs hc =>
    have hwith : (l.withPromise p (data.settled rejected v)).Tidy := h.withPromise fun _ => hc
    exact hwith.of_claims_eq rfl (claims_settled l p data rejected v)
  | follow p thenable then_ data hp hs hc =>
    exact h.of_claim hp hs hc rfl (claims_followed l p thenable then_)
  | register p data fulfill reject hp =>
    have hwith : (l.withPromise p (data.registered fulfill reject)).Tidy :=
      h.withPromise fun hne => h.of_settled p data hp (by simpa using hne)
    exact hwith.of_claims_eq rfl (claims_registered l p data fulfill reject)
  | enqueue job => exact h.of_claims_eq rfl (claims_enqueued l job)
  | start job rest hj => exact h.of_claims_eq rfl (claims_started hj)

/-- Moves keep a ledger tidy. -/
theorem Path.tidy {events : List (Event H)} (hp : Path l events after) (h : l.Tidy) :
    after.Tidy := by
  induction hp with
  | refl => exact h
  | tail _ last ih => exact last.tidy ih

/-! ### Promises without claims -/

/-- Promises without claims have been left as they were. Whoever used up the last claim on a promise
can rely on that. -/
def Spares (l after : Ledger H) : Prop :=
  ∀ p data, l.promise? p = some data → l.claims p = 0 →
    after.claims p = 0
      ∧ ∃ data', after.promise? p = some data' ∧ data'.state = data.state
        ∧ data'.result = data.result

theorem Spares.refl (l : Ledger H) : l.Spares l :=
  fun _ data hp hc => ⟨hc, data, hp, rfl, rfl⟩

theorem Spares.trans (h : l.Spares middle) (h' : middle.Spares after) : l.Spares after := by
  intro p data hp hc
  obtain ⟨hc', data', hp', hs', hr'⟩ := h p data hp hc
  obtain ⟨hc'', data'', hp'', hs'', hr''⟩ := h' p data' hp' hc'
  exact ⟨hc'', data'', hp'', hs''.trans hs', hr''.trans hr'⟩

/-- Where promises and claims are the same, all is spared. -/
theorem Spares.of_eq (hp : after.promise? = l.promise?) (hc : ∀ q, after.claims q = l.claims q) :
    l.Spares after :=
  fun p data hq hz => ⟨(hc p).trans hz, data, hp ▸ hq, rfl, rfl⟩

theorem spares_created (hp : l.promise? p = none) : l.Spares (l.created p) := by
  intro q data hq hz
  have hne : q ≠ p := fun heq => by simp [heq, hp] at hq
  rw [claims_created, if_neg hne]
  exact ⟨hz, data, (if_neg hne).trans hq, rfl, rfl⟩

theorem spares_registered (hp : l.promise? p = some data) (fulfill reject : Reaction) :
    l.Spares (l.registered p data fulfill reject) := by
  intro q data' hq hz
  rw [claims_registered]
  by_cases heq : q = p
  · subst heq
    obtain rfl : data' = data := Option.some.inj (hq.symm.trans hp)
    exact ⟨hz, data'.registered fulfill reject, if_pos rfl, by simp, by simp⟩
  · exact ⟨hz, data', (if_neg heq).trans hq, rfl, rfl⟩

theorem spares_taken {i : Nat} (hi : l.latches[i]? = some { promise := p }) :
    l.Spares (l.taken i p) := by
  intro q data hq hz
  have heq := claims_taken hi q
  exact ⟨by omega, data, hq, rfl, rfl⟩

end Ledger

/-- What a realm keeps of its promises. -/
def Realm.ledger (realm : Realm H) : Ledger H :=
  { promise? := realm.view ObjectKind.promise?, latches := realm.latches, jobs := realm.jobs }

end ScriptEngine
