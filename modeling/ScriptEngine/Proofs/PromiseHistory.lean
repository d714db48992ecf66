import ScriptEngine.Ledger

/-!
# The history of promises

The moves by which a ledger came about from the empty one are a history. It tells how often a
promise was settled, which reactions were attached to it, and which jobs were queued for them; and
what the ledger keeps of a promise is what the history tells.

## Main definitions

* `History.settlements`, `History.registrations`, `History.queued`, `History.started`: what a
  history tells.
* `PromiseData.Recorded`: what is kept of a promise is what a history tells.

## Main results

* `Ledger.Path.recorded`: it is so for every history.
* `Ledger.Path.started_append_jobs`: jobs start in the order in which they were queued.
* `Ledger.Path.settlement?_eq`: the settlement of a promise stays.
-/

namespace ScriptEngine

variable {H : HostTypes}

/-! ### Events -/

/-- How a promise has been settled: whether it was rejected, and the result. -/
def PromiseData.settlement? (data : PromiseData) : Option (Bool × Value) :=
  match data.state with
  | .pending => none
  | .fulfilled => some (false, data.result)
  | .rejected => some (true, data.result)

/-- The job for the reaction to a settlement, out of the reactions to each. -/
def reactionJob (settlement : Bool × Value) (reactions : Reaction × Reaction) : Job H :=
  .reaction (if settlement.1 then reactions.2 else reactions.1) settlement.2

namespace Event

/-- The settlement of a promise. -/
def settlement? (p : ObjectId) : Event H → Option (Bool × Value)
  | settle q rejected v _ => if q = p then some (rejected, v) else none
  | _ => none

/-- The reactions that are attached to a promise. -/
def registration? (p : ObjectId) : Event H → Option (Reaction × Reaction)
  | register q fulfill reject _ => if q = p then some (fulfill, reject) else none
  | _ => none

/-- The jobs that are queued, each with the promise that it is a reaction to. -/
def queued : Event H → List (Option ObjectId × Job H)
  | settle p _ _ jobs => jobs.map (some p, ·)
  | register p _ _ jobs => jobs.map (some p, ·)
  | follow p thenable then_ => [(none, .thenable p thenable then_)]
  | enqueue job => [(none, .host job)]
  | _ => []

/-- The job that starts. -/
def started? : Event H → Option (Job H)
  | start job => some job
  | _ => none

end Event

/-- Events in the order in which they happened. -/
abbrev History (H : HostTypes) := List (Event H)

namespace History

variable {events : History H} {event : Event H} {p : ObjectId}

/-- The settlements of a promise. -/
def settlements (events : History H) (p : ObjectId) : List (Bool × Value) :=
  events.filterMap (Event.settlement? p)

/-- The reactions that were attached to a promise. -/
def registrations (events : History H) (p : ObjectId) : List (Reaction × Reaction) :=
  events.filterMap (Event.registration? p)

/-- The jobs that were queued, each with the promise that it is a reaction to. -/
def queued (events : History H) : List (Option ObjectId × Job H) := events.flatMap Event.queued

/-- The jobs that have been started. -/
def started (events : History H) : List (Job H) := events.filterMap Event.started?

/-- The jobs of a list that are reactions to a promise. -/
def reactionsTo (p : ObjectId) (jobs : List (Option ObjectId × Job H)) : List (Job H) :=
  (jobs.filter (·.1 = some p)).map Prod.snd

@[simp] theorem settlements_concat (events : History H) (event : Event H) (p : ObjectId) :
    settlements (events ++ [event]) p = events.settlements p ++ (event.settlement? p).toList := by
  cases h : event.settlement? p <;> simp [settlements, h]

@[simp] theorem registrations_concat (events : History H) (event : Event H) (p : ObjectId) :
    registrations (events ++ [event]) p
      = events.registrations p ++ (event.registration? p).toList := by
  cases h : event.registration? p <;> simp [registrations, h]

@[simp] theorem queued_concat (events : History H) (event : Event H) :
    queued (events ++ [event]) = events.queued ++ event.queued := by
  simp [queued]

@[simp] theorem started_concat (events : History H) (event : Event H) :
    started (events ++ [event]) = events.started ++ event.started?.toList := by
  cases h : event.started? <;> simp [started, h]

@[simp] theorem reactionsTo_append (p : ObjectId) (jobs jobs' : List (Option ObjectId × Job H)) :
    reactionsTo p (jobs ++ jobs') = reactionsTo p jobs ++ reactionsTo p jobs' := by
  simp [reactionsTo]

theorem reactionsTo_map (p q : ObjectId) (jobs : List (Job H)) :
    reactionsTo p (jobs.map (some q, ·)) = if q = p then jobs else [] := by
  split
  · next h => simp [reactionsTo, h, List.filter_map, Function.comp_def]
  · next h => simp [reactionsTo, h, List.filter_map, Function.comp_def]

theorem reactionsTo_settle (p q : ObjectId) (rejected : Bool) (v : Value) (jobs : List (Job H)) :
    reactionsTo p (Event.settle q rejected v jobs).queued = if q = p then jobs else [] :=
  reactionsTo_map p q jobs

theorem reactionsTo_register (p q : ObjectId) (fulfill reject : Reaction) (jobs : List (Job H)) :
    reactionsTo p (Event.register q fulfill reject jobs).queued = if q = p then jobs else [] :=
  reactionsTo_map p q jobs

end History

/-! ### What is kept of a promise -/

namespace PromiseData

variable {data : PromiseData} {p : ObjectId} {events : History H}

/-- The promise is settled as the history tells. While it is pending the reactions wait that have
been attached, and no job has been queued for them; once it is settled one job has been queued for
each, in the order in which they were attached. -/
structure Recorded (data : PromiseData) (p : ObjectId) (events : History H) : Prop where
  settlements : events.settlements p = data.settlement?.toList
  waiting : data.settlement? = none →
    data.fulfillReactions = (events.registrations p).map Prod.fst
      ∧ data.rejectReactions = (events.registrations p).map Prod.snd
      ∧ History.reactionsTo p events.queued = []
  queued : ∀ settlement, data.settlement? = some settlement →
    History.reactionsTo p events.queued
      = (events.registrations p).map (reactionJob settlement)

@[simp] theorem settlement?_settled (data : PromiseData) (rejected : Bool) (v : Value) :
    (data.settled rejected v).settlement? = some (rejected, v) := by
  cases rejected <;> rfl

@[simp] theorem settlement?_registered (data : PromiseData) (fulfill reject : Reaction) :
    (data.registered fulfill reject).settlement? = data.settlement? := by
  simp [settlement?]

theorem settlement?_eq_none : data.settlement? = none ↔ data.state = .pending := by
  unfold settlement?
  cases data.state <;> simp

/-- An event that is not about the promise. -/
theorem Recorded.concat {event : Event H} (h : data.Recorded p events)
    (hs : event.settlement? p = none) (hr : event.registration? p = none)
    (hq : History.reactionsTo p event.queued = []) : data.Recorded p (events ++ [event]) := by
  refine ⟨?_, fun hnone => ?_, fun settlement hsome => ?_⟩
  · rw [History.settlements_concat, hs]
    exact (List.append_nil _).trans h.settlements
  · obtain ⟨hfulfill, hreject, hqueued⟩ := h.waiting hnone
    rw [History.registrations_concat, hr, History.queued_concat, History.reactionsTo_append, hq]
    simpa using ⟨hfulfill, hreject, hqueued⟩
  · rw [History.registrations_concat, hr, History.queued_concat, History.reactionsTo_append, hq]
    simpa using h.queued settlement hsome

/-- A pending promise that is settled queues the reactions that waited. -/
theorem Recorded.settled (h : data.Recorded p events) (hs : data.state = .pending)
    (rejected : Bool) (v : Value) :
    (data.settlementJobs rejected v : List (Job H))
        = (events.registrations p).map (reactionJob (rejected, v))
      ∧ (data.settled rejected v).Recorded p
        (events ++ [.settle p rejected v (data.settlementJobs rejected v)]) := by
  obtain ⟨hfulfill, hreject, hqueued⟩ := h.waiting (settlement?_eq_none.mpr hs)
  have hjobs : (data.settlementJobs rejected v : List (Job H))
      = (events.registrations p).map (reactionJob (rejected, v)) := by
    cases rejected <;> simp [settlementJobs, hfulfill, hreject, reactionJob]
  refine ⟨hjobs, ?_, fun hnone => ?_, fun settlement hsome => ?_⟩
  · rw [History.settlements_concat, h.settlements, settlement?_eq_none.mpr hs]
    simp [Event.settlement?]
  · simp at hnone
  · obtain rfl : (rejected, v) = settlement := by simpa using hsome
    rw [History.queued_concat, History.reactionsTo_append, hqueued, History.reactionsTo_settle]
    simp [Event.registration?, hjobs]

/-- Reactions attached to a pending promise wait, and one to a settled promise is queued. -/
theorem Recorded.registered (h : data.Recorded p events) (fulfill reject : Reaction) :
    (data.registrationJobs fulfill reject : List (Job H))
        = data.settlement?.toList.map (reactionJob · (fulfill, reject))
      ∧ (data.registered fulfill reject).Recorded p
        (events ++ [.register p fulfill reject (data.registrationJobs fulfill reject)]) := by
  have hjobs : (data.registrationJobs fulfill reject : List (Job H))
      = data.settlement?.toList.map (reactionJob · (fulfill, reject)) := by
    unfold registrationJobs settlement?
    cases data.state <;> simp [reactionJob]
  refine ⟨hjobs, ?_, fun hnone => ?_, fun settlement hsome => ?_⟩
  · rw [History.settlements_concat, h.settlements]
    simp [Event.settlement?]
  · rw [settlement?_registered] at hnone
    obtain ⟨hfulfill, hreject, hqueued⟩ := h.waiting hnone
    have hs := settlement?_eq_none.mp hnone
    rw [History.queued_concat, History.reactionsTo_append, hqueued, History.reactionsTo_register]
    simp [Event.registration?, hjobs, hnone, PromiseData.registered, hs, hfulfill, hreject]
  · rw [settlement?_registered] at hsome
    rw [History.queued_concat, History.reactionsTo_append, h.queued settlement hsome,
      History.reactionsTo_register]
    simp [Event.registration?, hjobs, hsome]

end PromiseData

/-! ### Histories of a ledger -/

namespace Ledger

variable {l middle after : Ledger H} {p : ObjectId} {data : PromiseData} {events : History H}
  {event : Event H}

/-- What is kept of a promise; a new one has it all before it. -/
def promise (l : Ledger H) (p : ObjectId) : PromiseData := (l.promise? p).getD {}

theorem promise_of_some (h : l.promise? p = some data) : l.promise p = data := by
  rw [promise, h, Option.getD_some]

theorem promise_withPromise (l : Ledger H) (p q : ObjectId) (data : PromiseData) :
    (l.withPromise p data).promise q = if q = p then data else l.promise q := by
  unfold promise
  rw [promise?_withPromise]
  split <;> rfl

/-- A move records what it does to a promise. -/
theorem Move.recorded (hm : l.Move event after) (h : (l.promise p).Recorded p events) :
    (after.promise p).Recorded p (events ++ [event]) := by
  cases hm with
  | create q hq =>
    have hsame : (l.created q).promise p = l.promise p := by
      refine (promise_withPromise l q p {}).trans ?_
      split
      · next heq => rw [promise, heq, hq]; rfl
      · rfl
    rw [hsame]
    exact h.concat rfl rfl rfl
  | take => exact h.concat rfl rfl rfl
  | settle q data rejected v hq hs hc =>
    refine (promise_withPromise l q p _).symm ▸ ?_
    split
    · next heq =>
      subst heq
      rw [promise_of_some hq] at h
      exact (h.settled hs rejected v).2
    · next hne =>
      have hne' : q ≠ p := fun heq => hne heq.symm
      exact h.concat (if_neg hne') rfl
        ((History.reactionsTo_settle p q ..).trans (if_neg hne'))
  | follow => exact h.concat rfl rfl rfl
  | register q data fulfill reject hq =>
    refine (promise_withPromise l q p _).symm ▸ ?_
    split
    · next heq =>
      subst heq
      rw [promise_of_some hq] at h
      exact (h.registered fulfill reject).2
    · next hne =>
      have hne' : q ≠ p := fun heq => hne heq.symm
      exact h.concat rfl (if_neg hne')
        ((History.reactionsTo_register p q ..).trans (if_neg hne'))
  | enqueue => exact h.concat rfl rfl rfl
  | start => exact h.concat rfl rfl rfl

/-- What a ledger keeps of a promise is what its history tells. -/
theorem Path.recorded (h : ({} : Ledger H).Path events after) (p : ObjectId) :
    (after.promise p).Recorded p events := by
  generalize hl : ({} : Ledger H) = l at h
  induction h with
  | refl =>
    subst hl
    exact ⟨rfl, fun _ => ⟨rfl, rfl, rfl⟩, nofun⟩
  | tail _ last ih => exact last.recorded ih

/-- Jobs start in the order in which they were queued. -/
theorem Path.started_append_jobs (h : ({} : Ledger H).Path events after) :
    events.started ++ after.jobs = events.queued.map Prod.snd := by
  generalize hl : ({} : Ledger H) = l at h
  induction h with
  | refl =>
    subst hl
    rfl
  | @tail middle after events event _ last ih =>
    rw [History.started_concat, History.queued_concat, List.map_append, ← ih]
    cases last with
    | create => simp [Event.started?, Event.queued, created, withPromise]
    | take => simp [Event.started?, Event.queued, taken]
    | settle =>
      simp [Event.started?, Event.queued, settled, queueing, withPromise, Function.comp_def]
    | follow => simp [Event.started?, Event.queued, queueing]
    | register =>
      simp [Event.started?, Event.queued, registered, queueing, withPromise, Function.comp_def]
    | enqueue => simp [Event.started?, Event.queued, queueing]
    | start job rest hj => simp [Event.started?, Event.queued, started, hj]

/-- A promise stays one, and if it is settled its settlement stays. -/
theorem Move.settlement?_eq (hm : l.Move event after) (hp : l.promise? p = some data) :
    ∃ data', after.promise? p = some data'
      ∧ ∀ settlement, data.settlement? = some settlement → data'.settlement? = some settlement := by
  have replace {q : ObjectId} {before data' : PromiseData} (hq : l.promise? q = some before)
      (h : ∀ settlement, before.settlement? = some settlement →
        data'.settlement? = some settlement) :
      ∃ data'', (l.withPromise q data').promise? p = some data''
        ∧ ∀ settlement, data.settlement? = some settlement →
          data''.settlement? = some settlement := by
    by_cases heq : p = q
    · subst heq
      obtain rfl : data = before := Option.some.inj (hp.symm.trans hq)
      exact ⟨data', if_pos rfl, h⟩
    · exact ⟨data, (if_neg heq).trans hp, fun _ => id⟩
  cases hm with
  | create q hq =>
    have hne : p ≠ q := fun heq => by simp [heq, hq] at hp
    exact ⟨data, (if_neg hne).trans hp, fun _ => id⟩
  | take => exact ⟨data, hp, fun _ => id⟩
  | settle q before rejected v hq hs =>
    refine replace hq fun settlement hsome => ?_
    rw [PromiseData.settlement?_eq_none.mpr hs] at hsome
    cases hsome
  | follow => exact ⟨data, hp, fun _ => id⟩
  | register q before fulfill reject hq =>
    exact replace hq fun settlement hsome =>
      (before.settlement?_registered fulfill reject).trans hsome
  | enqueue => exact ⟨data, hp, fun _ => id⟩
  | start => exact ⟨data, hp, fun _ => id⟩

theorem Path.settlement?_eq (h : l.Path events after) (hp : l.promise? p = some data) :
    ∃ data', after.promise? p = some data'
      ∧ ∀ settlement, data.settlement? = some settlement → data'.settlement? = some settlement := by
  induction h with
  | refl => exact ⟨data, hp, fun _ => id⟩
  | tail _ last ih =>
    obtain ⟨data', hp', hs'⟩ := ih
    obtain ⟨data'', hp'', hs''⟩ := last.settlement?_eq hp'
    exact ⟨data'', hp'', fun settlement hsome => hs'' settlement (hs' settlement hsome)⟩

/-- An event in the midst of a history is a move. -/
theorem Path.exists_move {first last : History H} (h : l.Path (first ++ event :: last) after) :
    ∃ before middle, l.Path first before ∧ before.Move event middle := by
  generalize hall : first ++ event :: last = events at h
  induction h generalizing last with
  | refl => simp at hall
  | @tail middle after events event' path move ih =>
    rcases List.eq_nil_or_concat last with rfl | ⟨last, event'', rfl⟩
    · obtain ⟨rfl, heq⟩ := List.append_inj' hall rfl
      obtain rfl : event = event' := by simpa using heq
      exact ⟨middle, after, path, move⟩
    · have hcut : (first ++ event :: last) ++ [event''] = events ++ [event'] := by
        simpa using hall
      exact ih (List.append_inj' hcut rfl).1

end Ledger

end ScriptEngine
