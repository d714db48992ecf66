import ScriptEngine.Proofs.Conduct
import ScriptEngine.Proofs.Moments
import ScriptEngine.Proofs.RefusedEvaluation

/-!
# The time limit is looked at every so often and is final

Of the checkpoints of an evaluation those count at which the top context is running. At every so
many of these the clock is looked at, whatever happens in between. The first look that comes too
late stops the realm: every later checkpoint fails in the same way, and so does every call, every
construction and every further evaluation, and none of them has an effect.

The clock is that of the host and moves on while the engine runs: its looks at the clock may show
any times that do not go back.

## Main definitions

* `Clock.showing`: the clock whose looks show given times.
* `counted`: the checkpoints of a record that count.
* `Realm.LateBy`: the clock was looked at too late.
* `Realm.Stopped`: what a stopped realm remembers.
* `Realm.Halted`: nothing can be run in the realm.

## Main results

* `Clock.now_showing`: any times that do not go back are those of a clock.
* `Realm.Along.sampled`: which checkpoints fail along a record.
* `Realm.Stopped.along`, `Realm.Stopped.proceeds`: a realm that was stopped stays so.
* `time_limit_sampled_and_final`: both, for an evaluation and all that comes after it.
-/

namespace ScriptEngine

open Engine

variable {H : HostTypes} {α : Type} {host : Host H} {bound : Nat}

/-! ### Looking at the clock -/

namespace Clock

/-- The clock whose looks show given times, one after the other. -/
def showing (readings : Nat → Nat) : Clock where
  now := readings 0
  pace n := readings (n + 1) - readings n

/-- The clock does not go back. -/
theorem now_le_looked (c : Clock) : c.now ≤ c.looked.now := Nat.le_add_right _ _

/-- Any times that do not go back are what a clock shows. -/
theorem now_showing {readings : Nat → Nat} (h : Monotone readings) (n : Nat) :
    (looked^[n] (showing readings)).now = readings n := by
  -- after some looks the clock shows the rest of the times
  have hrest (n : Nat) : looked^[n] (showing readings) = showing fun i => readings (n + i) := by
    induction n with
    | zero => simp only [Nat.zero_add, Function.iterate_zero_apply]
    | succ n ih =>
      rw [Function.iterate_succ_apply', ih]
      simp only [looked, showing, Nat.add_zero, Nat.zero_add, Nat.add_right_comm n 1,
        Nat.add_sub_cancel' (h (Nat.le_succ n))]
      rfl
  rw [hrest]
  rfl

end Clock

/-- The checkpoints that count, each as the realm in which it was passed: the top context is
running. -/
def counted (log : List (Moment H)) : List (Realm H) :=
  log.filterMap fun
    | .checkpoint realm => if realm.contexts.isRunning then some realm else none
    | _ => none

theorem counted_checkpoint (realm : Realm H) (log : List (Moment H)) :
    counted (.checkpoint realm :: log)
      = if realm.contexts.isRunning then realm :: counted log else counted log := by
  unfold counted
  rw [List.filterMap_cons]
  by_cases h : realm.contexts.isRunning
  · simp only [if_pos h]
  · simp only [if_neg h]

theorem counted_request (r : Request H) (realm : Realm H) (log : List (Moment H)) :
    counted (.request r realm :: log) = counted log := rfl

theorem checkpoint_mem_of_counted {realm : Realm H} {log : List (Moment H)}
    (h : realm ∈ counted log) : .checkpoint realm ∈ log := by
  obtain ⟨m, hm, h⟩ := List.mem_filterMap.mp h
  cases m with
  | checkpoint r =>
    obtain rfl := Option.some.inj (Option.ite_none_right_eq_some.mp h).2
    exact hm
  | request r realm => cases h
  | evaluation realm => cases h

namespace Realm

variable {realm after : Realm H} {log : List (Moment H)} {f : Failure}
  {limit every passed elapsed : Nat}

/-- Among some checkpoints up to the given one, of which every so many look at the clock, there is
one that did so too late, where a number of checkpoints was passed before. -/
def LateBy (limit every passed : Nat) (checkpoints : List (Realm H)) (i : Nat) : Prop :=
  ∃ j ≤ i, ∃ realm, checkpoints[j]? = some realm ∧ every ∣ passed + (j + 1)
    ∧ limit < realm.elapsedMs

theorem lateBy_zero {rest : List (Realm H)} : LateBy limit every passed (realm :: rest) 0 ↔
    every ∣ passed + 1 ∧ limit < realm.elapsedMs := by
  simp [LateBy]

theorem lateBy_succ {rest : List (Realm H)} {i : Nat} :
    LateBy limit every passed (realm :: rest) (i + 1) ↔
      (every ∣ passed + 1 ∧ limit < realm.elapsedMs) ∨ LateBy limit every (passed + 1) rest i := by
  have shift (j : Nat) : passed + (j + 1 + 1) = passed + 1 + (j + 1) := by omega
  constructor
  · rintro ⟨j, hj, r, hr, hd, hl⟩
    cases j with
    | zero =>
      obtain rfl : realm = r := by simpa using hr
      exact .inl ⟨hd, hl⟩
    | succ j => exact .inr ⟨j, by omega, r, by simpa using hr, shift j ▸ hd, hl⟩
  · rintro (⟨hd, hl⟩ | ⟨j, hj, r, hr, hd, hl⟩)
    · exact ⟨0, by omega, realm, rfl, hd, hl⟩
    · exact ⟨j + 1, by omega, r, by simpa using hr, shift j ▸ hd, hl⟩

/-- After a look at the clock checkpoints count anew. -/
theorem lateBy_every {checkpoints : List (Realm H)} {i : Nat} :
    LateBy limit every every checkpoints i ↔ LateBy limit every 0 checkpoints i := by
  simp only [LateBy, Nat.dvd_add_right (Nat.dvd_refl every), Nat.zero_add]

/-! ### Realms that were stopped -/

/-- A realm that was stopped remembers when. -/
structure Stopped (limit elapsed : Nat) (realm : Realm H) : Prop where
  limit : realm.config.timeoutMs = limit
  aborted : realm.aborted = some elapsed

theorem Stopped.restarts (h : realm.Stopped limit elapsed) (hr : realm.Restarts after) :
    after.Stopped limit elapsed :=
  ⟨hr.config ▸ h.limit, hr.aborted.trans h.aborted⟩

theorem Stopped.untimed (h : realm.Stopped limit elapsed) (hu : realm.Untimed after) :
    after.Stopped limit elapsed :=
  h.restarts hu.restarts

theorem Stopped.passCheckpoint (h : realm.Stopped limit elapsed) :
    realm.passCheckpoint = (.error (.timeout limit elapsed), realm) :=
  h.limit ▸ passCheckpoint_of_stopped h.aborted

/-- A checkpoint at which the time is up stops the realm. -/
theorem stopped_of_passCheckpoint (h : realm.passCheckpoint.1 = .error f) :
    ∃ elapsed, f = .timeout realm.config.timeoutMs elapsed
      ∧ realm.passCheckpoint.2.Stopped realm.config.timeoutMs elapsed := by
  rcases realm.passCheckpoint_cases with ⟨n, time, hpass⟩ | ⟨elapsed, n, time, hpass⟩
  · rw [hpass] at h
    cases h
  · rw [hpass] at h ⊢
    cases h
    exact ⟨elapsed, rfl, rfl, rfl⟩

/-- A realm that was stopped stays so, whatever happens. -/
theorem Stopped.along (h : realm.Stopped limit elapsed) (hp : realm.Along log after) :
    (∀ m ∈ log, m.realm.Stopped limit elapsed) ∧ after.Stopped limit elapsed := by
  induction hp with
  | nil hu => exact ⟨List.forall_mem_nil _, h.untimed hu⟩
  | checkpoint hu _ ih =>
    have hmiddle := h.untimed hu
    rw [hmiddle.passCheckpoint] at ih
    exact ⟨List.forall_mem_cons.mpr ⟨hmiddle, (ih hmiddle).1⟩, (ih hmiddle).2⟩
  | request hu _ ih =>
    have hmiddle := h.untimed hu
    exact ⟨List.forall_mem_cons.mpr ⟨hmiddle, (ih hmiddle).1⟩, (ih hmiddle).2⟩
  | evaluation hu hr _ ih =>
    have hmiddle := h.untimed hu
    have hnext := ih (hmiddle.restarts hr)
    exact ⟨List.forall_mem_cons.mpr ⟨hmiddle, hnext.1⟩, hnext.2⟩

/-! ### Running along a record -/

/-- A checkpoint that counts stops the realm if it is time to look at the clock and too late.
Otherwise it passes, and the later ones go on as if it were counted. -/
theorem passCheckpoint_of_running (hl : realm.config.timeoutMs ≠ 0) (ha : realm.aborted = none)
    (hr : realm.contexts.isRunning) (hevery : max realm.config.checkInterval 1 = every)
    (hc : realm.checkpoints < every) :
    ((every ∣ realm.checkpoints + 1 ∧ realm.config.timeoutMs < realm.elapsedMs)
        ∧ ∃ f, realm.passCheckpoint.1 = .error f)
      ∨ ¬(every ∣ realm.checkpoints + 1 ∧ realm.config.timeoutMs < realm.elapsedMs)
        ∧ ∃ n < every, ∃ time,
          realm.passCheckpoint = (.ok (), { realm with checkpoints := n, time })
          ∧ ∀ limit (later : List (Realm H)) i,
            LateBy limit every (realm.checkpoints + 1) later i ↔ LateBy limit every n later i := by
  have hi : ¬(realm.config.timeoutMs = 0 ∨ !realm.contexts.isRunning) := by simp [hl, hr]
  by_cases he : realm.checkpoints + 1 < max realm.config.checkInterval 1
  · -- it is not yet time to look at the clock
    have hdvd : ¬every ∣ realm.checkpoints + 1 :=
      Nat.not_dvd_of_pos_of_lt (Nat.succ_pos _) (hevery ▸ he)
    exact .inr ⟨fun h => hdvd h.1, _, hevery ▸ he, _, passCheckpoint_of_early ha hi he,
      fun _ _ _ => Iff.rfl⟩
  · have heq : realm.checkpoints + 1 = every := by omega
    by_cases hlate : realm.config.timeoutMs < realm.elapsedMs
    · exact .inl ⟨⟨heq ▸ Nat.dvd_refl _, hlate⟩, _,
        congrArg Prod.fst (passCheckpoint_of_late ha hi he hlate)⟩
    · refine .inr ⟨fun h => hlate h.2, 0, by omega, _,
        passCheckpoint_of_inTime ha hi he hlate, ?_⟩
      intro limit later i
      rw [heq]
      exact lateBy_every

/-- Which checkpoints fail on the way from a realm that was not stopped: those by which the clock
was looked at too late. -/
theorem Along.sampled (hp : realm.Along log after) (hlog : ∀ m ∈ log, m.isEvaluation = false)
    (hlimit : realm.config.timeoutMs = limit) (hl : limit ≠ 0)
    (hevery : max realm.config.checkInterval 1 = every) (ha : realm.aborted = none)
    (hc : realm.checkpoints < every) {i : Nat} {r : Realm H} (hi : (counted log)[i]? = some r) :
    (∃ f, r.passCheckpoint.1 = .error f)
      ↔ LateBy limit every realm.checkpoints (counted log) i := by
  induction hp generalizing i with
  | nil => cases hi
  | @checkpoint realm middle after log hu rest ih =>
    rw [← hu.config] at hlimit hevery
    rw [← hu.checkpoints] at hc ⊢
    rw [← hu.aborted] at ha
    replace ih := ih (List.forall_mem_cons.mp hlog).2
    rw [counted_checkpoint] at hi ⊢
    by_cases hr : middle.contexts.isRunning
    · rw [if_pos hr] at hi ⊢
      rcases passCheckpoint_of_running (hlimit ▸ hl) ha hr hevery hc with
        ⟨hlate, hfails⟩ | ⟨hnot, n, hn, time, hpass, hshift⟩
      · rw [hlimit] at hlate
        cases i with
        | zero =>
          obtain rfl : middle = r := by simpa using hi
          exact iff_of_true hfails (lateBy_zero.mpr hlate)
        | succ i =>
          -- the realm has been stopped, so the later checkpoint fails too
          obtain ⟨f, hf⟩ := hfails
          obtain ⟨elapsed, -, hstopped⟩ := stopped_of_passCheckpoint hf
          have hmem := checkpoint_mem_of_counted (List.mem_of_getElem? hi)
          have hr := (hstopped.along rest).1 _ hmem
          exact iff_of_true ⟨_, congrArg Prod.fst hr.passCheckpoint⟩ (lateBy_succ.mpr (.inl hlate))
      · rw [hpass] at ih
        rw [hlimit] at hnot
        cases i with
        | zero =>
          obtain rfl : middle = r := by simpa using hi
          refine iff_of_false ?_ (fun h => hnot (lateBy_zero.mp h))
          rintro ⟨f, hf⟩
          rw [hpass] at hf
          cases hf
        | succ i =>
          rw [lateBy_succ, or_iff_right hnot, hshift]
          exact ih hlimit hevery ha hn hi
    · rw [if_neg hr] at hi ⊢
      have hidle := passCheckpoint_of_idle ha (.inr (by simpa using hr))
      rw [hidle] at ih
      exact ih hlimit hevery ha hc hi
  | request hu _ ih =>
    rw [← hu.config] at hlimit hevery
    rw [← hu.checkpoints] at hc ⊢
    rw [← hu.aborted] at ha
    rw [counted_request] at hi ⊢
    exact ih (List.forall_mem_cons.mp hlog).2 hlimit hevery ha hc hi
  | evaluation => cases (List.forall_mem_cons.mp hlog).1

/-! ### The rest of its life -/

theorem Stopped.run (h : realm.Stopped limit elapsed) (bound : Nat) (x : Routine H α) :
    (outcomeRealm (x.run host bound realm)).Stopped limit elapsed := by
  obtain ⟨log, hlog⟩ := (x.exists_passes host bound realm).1
  exact (h.along hlog.along).2

theorem outcomeRealm_of_endsIn {outcome : EStateM.Result Stop (Realm H) α}
    (he : EndsIn outcome after) : outcomeRealm outcome = after := by
  rcases he with ⟨a, rfl⟩ | ⟨f, rfl⟩
  · rfl
  · rfl

/-- A realm that was stopped stays so for the rest of its life. -/
theorem Stopped.proceeds (h : realm.Stopped limit elapsed) (hp : realm.Proceeds host after) :
    after.Stopped limit elapsed := by
  induction hp with
  | refl => exact h
  | run _ bound x he ih => exact outcomeRealm_of_endsIn he ▸ ih.run bound x
  | write _ bound o f hf he ih =>
    have hu := Action.untimed_modifyObject o f (.bounded host bound)
    exact outcomeRealm_of_endsIn he ▸ ih.untimed (hu _)
  | enter _ bracket he ih => exact ih.restarts (bracket.enter.restarts _)
  | atDepth _ depth ih => exact ih.untimed (untimed_atDepth _ depth)
  | @root middle _ outcome hc ih =>
    cases outcome with
    | ok => exact ⟨ih.limit, ih.aborted⟩
    | error f =>
      refine ⟨ih.limit, ?_⟩
      change some (middle.aborted.getD 0) = _
      rw [ih.aborted]
      rfl

/-! ### Nothing can be run -/

/-- Whatever is attempted fails in the same way and without effect: passing a checkpoint, calling
what can be called, constructing with what can be constructed and, in a realm that has not been
disposed of, an evaluation. -/
structure Halted (f : Failure) (realm : Realm H) : Prop where
  checkpoint (host : Host H) (bound : Nat) :
    checkTimeout.run host bound realm = .error (.failure f) realm
  call (host : Host H) (bound : Nat) {v : Value} (hv : realm.isCallable v) (this : Value)
    (args : List Value) : (v.call this args).run host (bound + 1) realm = .error (.failure f) realm
  construct (host : Host H) (bound : Nat) {o : ObjectId} (ho : realm.isConstructor (.object o))
    (args : List Value) (newTarget : Option ObjectId) :
    (o.construct args newTarget).run host (bound + 1) realm = .error (.failure f) realm
  execute (host : Host H) (bound : Nat) (hd : realm.disposed = false) {α : Type}
    (x : Routine H α) : (execute x).run host bound realm = .error (.failure f) realm

theorem isConstructor_atDepth (realm : Realm H) (depth : Nat) (v : Value) :
    (realm.atDepth depth).isConstructor v = realm.isConstructor v := by
  have within (fuel : Nat) (o : ObjectId) :
      (realm.atDepth depth).isConstructorWithin fuel o = realm.isConstructorWithin fuel o := by
    induction fuel generalizing o with
    | zero => rfl
    | succ fuel ih =>
      simp only [isConstructorWithin, ih]
      rfl
  cases v with
  | object o => exact within _ o
  | _ => rfl

section Entries

variable {s : Surroundings H} (h : realm.Stopped limit elapsed)
include h

theorem Stopped.checkTimeout_act :
    checkTimeout.act s realm = .error (.failure (.timeout limit elapsed)) realm := by
  change Action.checkpoint s realm = _
  simp only [Action.checkpoint, h.passCheckpoint]

theorem Stopped.callFunction_act {v : Value} (hv : realm.isCallable v) (this : Value)
    (args : List Value) : (callFunction nativeBehaviour v this args).act s realm
      = .error (.failure (.timeout limit elapsed)) realm := by
  cases v with
  | object o =>
    obtain ⟨kind, hk, hcallable⟩ := (Option.any_eq_true _ _).mp hv
    obtain ⟨object, ho, rfl⟩ := Option.map_eq_some_iff.mp hk
    rw [ScriptEngine.callFunction_act ho hcallable]
    exact Engine.bind_of_error h.checkTimeout_act
  | _ => cases hv

theorem Stopped.constructFunction_act {o : ObjectId} (ho : realm.isConstructor (.object o))
    (args : List Value) (newTarget : ObjectId) :
    (constructFunction nativeBehaviour o args newTarget).act s realm
      = .error (.failure (.timeout limit elapsed)) realm := by
  have hconstructor : (Engine.isConstructor (.object o)).act s realm = .ok true realm := by
    unfold Engine.isConstructor
    rw [Engine.bind_of_ok (getRealm_eq s realm), Realm.seen, isConstructor_atDepth, ho]
    rfl
  unfold constructFunction
  rw [Engine.bind_of_ok hconstructor]
  exact Engine.bind_of_error h.checkTimeout_act

end Entries

/-- In a realm that was stopped nothing can be run. -/
theorem Stopped.halted (h : realm.Stopped limit elapsed) :
    realm.Halted (.timeout limit elapsed) where
  checkpoint host bound := h.checkTimeout_act
  call host bound v hv this args := h.callFunction_act hv this args
  construct host bound o ho args newTarget := h.constructFunction_act ho args _
  execute host bound hd α x := by
    have hrefuses : realm.Refuses (.timeout limit elapsed) := h.limit ▸ .stopped hd h.aborted
    have hsame : realm.afterRefusal = realm := if_pos (.inr (by simp [h.aborted]))
    rw [execute_of_refuses host bound hrefuses x, hsame]

end Realm

/-! ### Evaluations -/

section Evaluation

variable {realm start : Realm H}

/-- What an evaluation leaves behind does not differ from what the computation that it runs left, as
far as checkpoints are concerned. -/
theorem untimed_execute (x : Routine H α) (h : realm.enterEvaluation = (.ok (), start)) :
    (outcomeRealm (x.run host bound start)).Untimed
      (outcomeRealm ((execute x).run host bound realm)) := by
  have hstart : realm.enterEvaluation.2 = start := congrArg Prod.snd h
  rw [execute_of_enter x (congrArg Prod.fst h), hstart, Routine.run, ← outcomeRealm_attempt]
  cases hx : x.act.attempt (.bounded host bound) start with
  | ok outcome middle =>
    simp only [Action.andThen, hx, Action.outcomeRealm_transition]
    have hleave := middle.seen.untimed_leaveEvaluation outcome
    exact ⟨hleave.config, hleave.checkpoints, hleave.aborted⟩
  | error stop middle =>
    simp only [Action.andThen, hx]
    exact .refl middle

/-- Of the checkpoints that an evaluation passes, those of calls and constructions among them, let
those be numbered at which the top context is running. As long as no other evaluation is attempted,
one of them fails exactly if at it, or at one before it, the time used was above the limit and its
number is a multiple of the interval. Once one has failed nothing can be run, neither in the rest of
the evaluation nor in the rest of the realm's life, and each attempt fails with the limit and the
time of that failure. -/
theorem time_limit_sampled_and_final (host : Host H) (bound : Nat) (x : Routine H α)
    (hstart : realm.enterEvaluation = (.ok (), start)) :
    (∃ log, x.Passes host bound start log)
      ∧ ∀ log, x.Passes host bound start log →
        (realm.config.timeoutMs ≠ 0 → (∀ m ∈ log, m.isEvaluation = false) →
          ∀ i r, (counted log)[i]? = some r →
            ((∃ f, r.passCheckpoint.1 = .error f) ↔
              ∃ j ≤ i, ∃ earlier, (counted log)[j]? = some earlier
                ∧ max realm.config.checkInterval 1 ∣ j + 1
                ∧ realm.config.timeoutMs < earlier.elapsedMs))
        ∧ ∀ first r rest f, log = first ++ .checkpoint r :: rest →
          r.passCheckpoint.1 = .error f →
            (∃ elapsed, f = .timeout realm.config.timeoutMs elapsed)
              ∧ (∀ m ∈ rest, m.realm.Halted f)
              ∧ ∀ later, (outcomeRealm ((execute x).run host bound realm)).Proceeds host later →
                later.Halted f := by
  obtain ⟨-, ha, contexts, -, rfl⟩ := Realm.enterEvaluation_eq_ok.mp hstart
  refine ⟨(x.exists_passes host bound _).1, fun log hlog => ⟨fun hl hno i r hi => ?_, ?_⟩⟩
  · have hpos : 0 < max realm.config.checkInterval 1 :=
      Nat.lt_of_lt_of_le Nat.one_pos (Nat.le_max_right _ _)
    have hsampled : (∃ f, r.passCheckpoint.1 = .error f) ↔ Realm.LateBy realm.config.timeoutMs
        (max realm.config.checkInterval 1) 0 (counted log) i :=
      hlog.along.sampled hno rfl hl rfl ha hpos hi
    simpa only [Realm.LateBy, Nat.zero_add] using hsampled
  · rintro first r rest f rfl hf
    obtain ⟨middle, hfirst, hrest⟩ := hlog.along.of_append
    cases hrest with
    | checkpoint hu hrest =>
      have hconfig : r.config = realm.config := hu.config.trans hfirst.config
      obtain ⟨elapsed, rfl, hstopped⟩ := Realm.stopped_of_passCheckpoint hf
      rw [hconfig] at hstopped ⊢
      obtain ⟨hmoments, hend⟩ := hstopped.along hrest
      refine ⟨⟨elapsed, rfl⟩, fun m hm => (hmoments m hm).halted, fun later hlater => ?_⟩
      exact ((hend.untimed (untimed_execute x hstart)).proceeds hlater).halted

end Evaluation

/-- The realm with the parked root, with ten milliseconds for an evaluation and a look at the clock
at every second checkpoint. Each look is six milliseconds after the one before. -/
def timedRealm : Realm HostTypes.bare :=
  { parkedRealm with
    config := { timeoutMs := 10, checkInterval := 2 }
    time := .showing fun n => 6000000 * n }

/-- Five checkpoints, of which the fourth may fail. -/
def fiveChecks : Engine HostTypes.bare Unit := do
  checkTimeout
  checkTimeout
  checkTimeout
  let _ ← attempt checkTimeout
  checkTimeout

/-- The realm of an evaluation after so many checkpoints. -/
def checkedRealm (n : Nat) : Realm HostTypes.bare :=
  (fun realm => realm.passCheckpoint.2)^[n] timedRealm.enterEvaluation.2

/-- The five checkpoints. -/
def fiveMoments : List (Moment HostTypes.bare) :=
  (List.range 5).map fun n => .checkpoint (checkedRealm n)

theorem fiveChecks_passes (bound : Nat) :
    fiveChecks.Passes Host.bare bound timedRealm.enterEvaluation.2 fiveMoments := by
  have check (n : Nat) : checkTimeout.Passes Host.bare bound (checkedRealm n)
      [.checkpoint (checkedRealm n)] := .checkpoint _
  have fourth : checkTimeout.attempt.Passes Host.bare bound (checkedRealm 3)
      [.checkpoint (checkedRealm 3)] := .attempt (check 3)
  exact passes_bind (check 0) rfl <| passes_bind (check 1) rfl <| passes_bind (check 2) rfl <|
    passes_bind fourth rfl (check 4)

/-- The look at the second checkpoint comes after six milliseconds and that at the fourth, after
twelve, stops the realm. From then on nothing can be run. -/
theorem time_limit_timedRealm :
    (¬∃ f, (checkedRealm 1).passCheckpoint.1 = .error f)
      ∧ (∃ f, (checkedRealm 3).passCheckpoint.1 = .error f)
      ∧ (checkedRealm 4).Halted (.timeout 10 12)
      ∧ (outcomeRealm ((execute fiveChecks.toRoutine).run Host.bare 0 timedRealm)).Halted
          (.timeout 10 12) := by
  have hstart : timedRealm.enterEvaluation = (.ok (), timedRealm.enterEvaluation.2) := rfl
  obtain ⟨-, h⟩ := time_limit_sampled_and_final Host.bare 0 fiveChecks.toRoutine hstart
  obtain ⟨hsampled, hfinal⟩ := h fiveMoments (fiveChecks_passes 0)
  have hl : timedRealm.config.timeoutMs ≠ 0 := by decide
  have hno : ∀ m ∈ fiveMoments, m.isEvaluation = false := by
    unfold fiveMoments
    simp [Moment.isEvaluation]
  obtain ⟨-, hmoments, hlater⟩ := hfinal ((List.range 3).map fun n => .checkpoint (checkedRealm n))
    (checkedRealm 3) [.checkpoint (checkedRealm 4)] (.timeout 10 12) rfl rfl
  refine ⟨fun h => ?_, ?_, hmoments _ (List.mem_singleton_self _), hlater _ .refl⟩
  · obtain ⟨j, hj, r, hr, hdvd, hlate⟩ := (hsampled hl hno 1 _ rfl).mp h
    obtain rfl | rfl : j = 0 ∨ j = 1 := by omega
    · exact absurd hdvd (by decide)
    · cases hr
      exact absurd hlate (by decide)
  · exact (hsampled hl hno 3 (checkedRealm 3) rfl).mpr
      ⟨3, Nat.le_refl 3, checkedRealm 3, rfl, by decide, by decide⟩

end ScriptEngine
