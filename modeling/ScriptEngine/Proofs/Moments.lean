import ScriptEngine.Evaluation
import ScriptEngine.Proofs.Answer

/-!
# What happens in the course of a computation

Of all that a computation does, three things have to do with the time limit: the checkpoints that it
passes, the requests that it sends, since the answers pass checkpoints too, and the evaluations that
it starts and ends. They are written down here in the order in which they happen, each with the
realm in which it happens. Every computation has such a record. Between two of the moments of a
record nothing changes that checkpoints go by, beside the time used.

## Main definitions

* `Moment`: one of these things, in a realm.
* `Action.Passes`, `Request.Passes`, `Routine.Passes`: the records of a computation.
* `Realm.Along`: the ways from realm to realm on which given things happen.

## Main results

* `Routine.exists_passes`: every computation has a record, without evaluations if neither it nor the
  host starts any.
* `Routine.Passes.along`: a computation goes along its record.
-/

namespace ScriptEngine

open Engine

variable {H : HostTypes} {α β : Type}

/-- Something that happens in a realm and has to do with the time limit. -/
inductive Moment (H : HostTypes) where
  | checkpoint (realm : Realm H)
  | request (r : Request H) (realm : Realm H)
  /-- The account of time starts anew or ends, as where an evaluation starts or ends. -/
  | evaluation (realm : Realm H)

namespace Moment

/-- The realm in which something happens. -/
def realm : Moment H → Realm H
  | .checkpoint realm => realm
  | .request _ realm => realm
  | .evaluation realm => realm

/-- Whether an evaluation is started or ended. -/
def isEvaluation : Moment H → Bool
  | .evaluation _ => true
  | _ => false

end Moment

/-! ### Records -/

/-- The records of a computation that starts in a realm, in given surroundings and with given
records of the answers to requests. -/
inductive Action.Passes (asked : Request H → Realm H → List (Moment H) → Prop)
    (s : Surroundings H) : {α : Type} → Action H α → Realm H → List (Moment H) → Prop
  | own {α : Type} (x : Action H α) (alone : x.Alone)
      (untimed : ∀ s (realm : Realm H), realm.Untimed (outcomeRealm (x s realm)))
      (realm : Realm H) : Passes asked s x realm []
  | checkpoint (realm : Realm H) : Passes asked s checkpoint realm [.checkpoint realm]
  | evaluation {α : Type} (f : Realm H → Except Failure α × Realm H)
      (restarts : ∀ realm : Realm H, realm.Restarts (f realm).2) (realm : Realm H) :
      Passes asked s (transition f) realm [.evaluation realm]
  | ask {r : Request H} {realm : Realm H} {log : List (Moment H)} (h : asked r realm log) :
      Passes asked s (fun s => s.perform r) realm (.request r realm :: log)
  | andThen {α β : Type} {x : Action H α} {f : α → Action H β} {realm middle : Realm H} {a : α}
      {log rest : List (Moment H)} (hx : Passes asked s x realm log) (h : x s realm = .ok a middle)
      (hf : Passes asked s (f a) middle rest) : Passes asked s (x.andThen f) realm (log ++ rest)
  | stopped {α β : Type} {x : Action H α} {f : α → Action H β} {realm after : Realm H}
      {stop : Stop} {log : List (Moment H)} (hx : Passes asked s x realm log)
      (h : x s realm = .error stop after) : Passes asked s (x.andThen f) realm log
  | attempt {α : Type} {x : Action H α} {realm : Realm H} {log : List (Moment H)}
      (hx : Passes asked s x realm log) : Passes asked s x.attempt realm log
  | nested {α : Type} {x : Action H α} {realm : Realm H} {log : List (Moment H)}
      (h : ¬realm.AtLimit) (hx : Passes asked s x realm.deeper log) :
      Passes asked s x.nested realm log
  | tooDeep {α : Type} {x : Action H α} {realm : Realm H} (h : realm.AtLimit) :
      Passes asked s x.nested realm []

/-- The records of the answer to a request, where requests are nested less than `bound` deep. -/
def Request.Passes (host : Host H) :
    (bound : Nat) → Request H → Realm H → List (Moment H) → Prop
  | 0, _, _, log => log = []
  | bound + 1, r, realm, log =>
    (respond host r).Passes (Request.Passes host bound) (.bounded host bound) realm log

/-- The records of a computation that starts in a realm, with a bound on the nesting of its
requests. -/
def Routine.Passes (host : Host H) (bound : Nat) (x : Routine H α) (realm : Realm H)
    (log : List (Moment H)) : Prop :=
  x.act.Passes (Request.Passes host bound) (.bounded host bound) realm log

/-- The record of one computation after another. -/
theorem Engine.passes_bind {host : Host H} {bound : Nat} {x : Engine H α} {f : α → Engine H β}
    {realm middle : Realm H} {a : α} {log rest : List (Moment H)}
    (hx : x.Passes host bound realm log) (h : x.run host bound realm = .ok a middle)
    (hf : (f a).Passes host bound middle rest) :
    (x >>= f).Passes host bound realm (log ++ rest) :=
  .andThen hx h hf

/-! ### Every computation has a record -/

section Existence

variable {P : Moment H → Prop} {evaluates : Bool}

/-- A computation has a record, if the answers to its requests have one. What holds of checkpoints
and requests, and of evaluations if there may be any, holds of all that is written down. -/
theorem Action.Timed.exists_passes {asked : Request H → Realm H → List (Moment H) → Prop}
    {s : Surroundings H} {x : Action H α} (h : x.Timed evaluates)
    (hcheck : ∀ realm, P (.checkpoint realm)) (hrequest : ∀ r realm, P (.request r realm))
    (hevaluation : evaluates = true → ∀ realm, P (.evaluation realm))
    (hasked : ∀ r realm, ∃ log, asked r realm log ∧ ∀ m ∈ log, P m) (realm : Realm H) :
    ∃ log, x.Passes asked s realm log ∧ ∀ m ∈ log, P m := by
  induction h generalizing realm with
  | own x alone untimed => exact ⟨[], .own x alone untimed realm, List.forall_mem_nil P⟩
  | checkpoint =>
    exact ⟨_, .checkpoint realm, List.forall_mem_singleton.mpr (hcheck realm)⟩
  | restart f he restarts =>
    exact ⟨_, .evaluation f restarts realm, List.forall_mem_singleton.mpr (hevaluation he realm)⟩
  | ask r =>
    obtain ⟨log, hlog, hall⟩ := hasked r realm
    exact ⟨_, .ask hlog, List.forall_mem_cons.mpr ⟨hrequest r realm, hall⟩⟩
  | @andThen α β x f hx hf ihx ihf =>
    obtain ⟨log, hlog, hall⟩ := ihx realm
    match ho : x s realm with
    | .ok a middle =>
      obtain ⟨rest, hrest, hallRest⟩ := ihf a middle
      exact ⟨_, .andThen hlog ho hrest, List.forall_mem_append.mpr ⟨hall, hallRest⟩⟩
    | .error stop after => exact ⟨log, .stopped hlog ho, hall⟩
  | attempt _ ih =>
    obtain ⟨log, hlog, hall⟩ := ih realm
    exact ⟨log, .attempt hlog, hall⟩
  | nested _ ih =>
    by_cases hl : realm.AtLimit
    · exact ⟨[], .tooDeep hl, List.forall_mem_nil P⟩
    · obtain ⟨log, hlog, hall⟩ := ih realm.deeper
      exact ⟨log, .nested hl hlog, hall⟩

theorem Action.closed_timed (evaluates : Bool) :
    Action.Closed fun x => Action.Timed (H := H) evaluates x where
  engine x := by
    cases evaluates with
    | false => exact x.within
    | true => exact x.timed
  modifyObject o f _ := timed_modifyObject o f
  andThen := .andThen
  nested := .nested

theorem Request.exists_passes {host : Host H} (hh : ∀ request, (host request).act.Timed evaluates)
    (hcheck : ∀ realm, P (.checkpoint realm)) (hrequest : ∀ r realm, P (.request r realm))
    (hevaluation : evaluates = true → ∀ realm, P (.evaluation realm)) (bound : Nat)
    (r : Request H) (realm : Realm H) :
    ∃ log, r.Passes host bound realm log ∧ ∀ m ∈ log, P m := by
  induction bound generalizing r realm with
  | zero => exact ⟨[], rfl, List.forall_mem_nil P⟩
  | succ bound ih =>
    exact ((Action.closed_timed evaluates).respond hh r).exists_passes hcheck hrequest hevaluation
      ih realm

/-- Every computation has a record. If neither it nor the host starts evaluations, there are none in
the record. -/
theorem Routine.exists_passes (host : Host H) (bound : Nat) (x : Routine H α) (realm : Realm H) :
    (∃ log, x.Passes host bound realm log)
      ∧ (x.act.Timed false → (∀ request, (host request).act.Timed false) →
        ∃ log, x.Passes host bound realm log ∧ ∀ m ∈ log, m.isEvaluation = false) := by
  constructor
  · have hall (request : HostRequest H) : (host request).act.Timed true := (host request).timed
    have hrequests := Request.exists_passes (P := fun _ => True) hall (fun _ => trivial)
      (fun _ _ => trivial) (fun _ _ => trivial) bound
    obtain ⟨log, hlog, -⟩ := x.timed.exists_passes (P := fun _ => True)
      (fun _ => trivial) (fun _ _ => trivial) (fun _ _ => trivial) hrequests realm
    exact ⟨log, hlog⟩
  · intro hx hh
    have hrequests := Request.exists_passes (P := fun m : Moment H => m.isEvaluation = false)
      hh (fun _ => rfl) (fun _ _ => rfl) nofun bound
    exact hx.exists_passes (P := fun m : Moment H => m.isEvaluation = false)
      (fun _ => rfl) (fun _ _ => rfl) nofun hrequests realm

end Existence

/-! ### A computation goes along its record -/

namespace Realm

variable {realm middle after : Realm H} {log rest : List (Moment H)}

/-- The ways from realm to realm on which given things happen, and nothing else that has to do with
checkpoints. -/
inductive Along : Realm H → List (Moment H) → Realm H → Prop
  | nil {realm after : Realm H} (h : realm.Untimed after) : Along realm [] after
  | checkpoint {realm middle after : Realm H} {log : List (Moment H)} (h : realm.Untimed middle)
      (rest : Along middle.passCheckpoint.2 log after) :
      Along realm (.checkpoint middle :: log) after
  | request {realm middle after : Realm H} {r : Request H} {log : List (Moment H)}
      (h : realm.Untimed middle) (rest : Along middle log after) :
      Along realm (.request r middle :: log) after
  | evaluation {realm middle next after : Realm H} {log : List (Moment H)}
      (h : realm.Untimed middle) (hr : middle.Restarts next) (rest : Along next log after) :
      Along realm (.evaluation middle :: log) after

theorem Along.untimed_head (h : realm.Untimed middle) (hp : middle.Along log after) :
    realm.Along log after := by
  cases hp with
  | nil h' => exact .nil (h.trans h')
  | checkpoint h' rest => exact .checkpoint (h.trans h') rest
  | request h' rest => exact .request (h.trans h') rest
  | evaluation h' hr rest => exact .evaluation (h.trans h') hr rest

theorem Along.append (hp : realm.Along log middle) (hq : middle.Along rest after) :
    realm.Along (log ++ rest) after := by
  induction hp with
  | nil h => exact hq.untimed_head h
  | checkpoint h _ ih => exact .checkpoint h (ih hq)
  | request h _ ih => exact .request h (ih hq)
  | evaluation h hr _ ih => exact .evaluation h hr (ih hq)

theorem Along.of_append (hp : realm.Along (log ++ rest) after) :
    ∃ middle, realm.Along log middle ∧ middle.Along rest after := by
  induction log generalizing realm with
  | nil => exact ⟨realm, .nil (.refl realm), hp⟩
  | cons m log ih =>
    cases hp with
    | checkpoint h hp =>
      obtain ⟨middle, hlog, hrest⟩ := ih hp
      exact ⟨middle, .checkpoint h hlog, hrest⟩
    | request h hp =>
      obtain ⟨middle, hlog, hrest⟩ := ih hp
      exact ⟨middle, .request h hlog, hrest⟩
    | evaluation h hr hp =>
      obtain ⟨middle, hlog, hrest⟩ := ih hp
      exact ⟨middle, .evaluation h hr hlog, hrest⟩

theorem Along.untimed_last (hp : realm.Along log middle) (h : middle.Untimed after) :
    realm.Along log after :=
  log.append_nil ▸ hp.append (.nil h)

/-- The limits stay as they are. -/
theorem Along.config (hp : realm.Along log after) : after.config = realm.config := by
  induction hp with
  | nil h => exact h.config
  | @checkpoint realm middle after log h _ ih =>
    have hcheckpoint : middle.passCheckpoint.2.config = middle.config := by
      rcases middle.passCheckpoint_cases with ⟨n, time, hpass⟩ | ⟨elapsed, n, time, hpass⟩
      · rw [hpass]
      · rw [hpass]
    exact ih.trans (hcheckpoint.trans h.config)
  | request h _ ih => exact ih.trans h.config
  | evaluation h hr _ ih => exact ih.trans (hr.config.trans h.config)

theorem untimed_atDepth (realm : Realm H) (depth : Nat) : realm.Untimed (realm.atDepth depth) :=
  ⟨rfl, rfl, rfl⟩

end Realm

section Course

variable {asked : Request H → Realm H → List (Moment H) → Prop} {s : Surroundings H}
  {x : Action H α} {realm : Realm H} {log : List (Moment H)}

theorem outcomeRealm_checkpoint (s : Surroundings H) (realm : Realm H) :
    outcomeRealm (Action.checkpoint s realm) = realm.passCheckpoint.2 := by
  unfold Action.checkpoint
  match realm.passCheckpoint with
  | (.ok (), after) => rfl
  | (.error f, after) => rfl

theorem outcomeRealm_attempt (x : Action H α) (s : Surroundings H) (realm : Realm H) :
    outcomeRealm (x.attempt s realm) = outcomeRealm (x s realm) := by
  unfold Action.attempt
  match x s realm with
  | .ok a after => rfl
  | .error (.failure f) after => rfl
  | .error .exhausted after => rfl

theorem outcomeRealm_shallower (outcome : EStateM.Result Stop (Realm H) α) :
    outcomeRealm (outcomeShallower outcome)
      = (outcomeRealm outcome).atDepth ((outcomeRealm outcome).callDepth - 1) := by
  cases outcome with
  | ok a after => rfl
  | error stop after => rfl

/-- A computation goes along its record, if the answers to its requests go along theirs. -/
theorem Action.Passes.along (h : x.Passes asked s realm log)
    (hasked : ∀ r realm log, asked r realm log →
      realm.Along log (outcomeRealm (s.perform r realm))) :
    realm.Along log (outcomeRealm (x s realm)) := by
  induction h with
  | own x alone untimed realm => exact .nil (untimed s realm)
  | checkpoint realm =>
    rw [outcomeRealm_checkpoint]
    exact .checkpoint (.refl realm) (.nil (.refl _))
  | evaluation f restarts realm =>
    rw [outcomeRealm_transition]
    have hr := restarts realm.seen
    exact .evaluation (.refl realm) ⟨hr.config, hr.checkpoints, hr.aborted⟩
      (.nil (Realm.untimed_atDepth _ _))
  | ask h => exact .request (.refl _) (hasked _ _ _ h)
  | andThen hx ho _ ihx ihf =>
    rw [ho] at ihx
    simp only [Action.andThen, ho]
    exact ihx.append ihf
  | stopped hx ho ih =>
    rw [ho] at ih
    simp only [Action.andThen, ho]
    exact ih
  | attempt _ ih => exact (outcomeRealm_attempt _ _ _).symm ▸ ih
  | @nested α x realm log hl _ ih =>
    rw [Action.nested_of_not_atLimit hl, outcomeRealm_shallower]
    have hdeeper : realm.Untimed realm.deeper := ⟨rfl, rfl, rfl⟩
    exact (ih.untimed_head hdeeper).untimed_last (Realm.untimed_atDepth _ _)
  | tooDeep hl =>
    rw [Action.nested_of_atLimit hl]
    exact .nil (.refl _)

theorem Request.Passes.along {host : Host H} {bound : Nat} {r : Request H}
    (h : r.Passes host bound realm log) :
    realm.Along log (outcomeRealm (answer host bound r realm)) := by
  induction bound generalizing r realm log with
  | zero =>
    obtain rfl : log = [] := h
    exact .nil (.refl realm)
  | succ bound ih => exact Action.Passes.along h fun _ _ _ h => ih h

/-- A computation goes along its record. -/
theorem Routine.Passes.along {host : Host H} {bound : Nat} {x : Routine H α}
    (h : x.Passes host bound realm log) : realm.Along log (outcomeRealm (x.run host bound realm)) :=
  Action.Passes.along h fun _ _ _ h => h.along

end Course

end ScriptEngine
