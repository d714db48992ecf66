import ScriptEngine.Proofs.ContextBalance
import ScriptEngine.Proofs.ContextTime

/-!
# Evaluations that are refused

A realm refuses an evaluation when it has been disposed of, when it was stopped for good, and when
its root is not a suspended context on top of the stack, as in the middle of another evaluation. The
first two refusals leave the realm alone. The third comes after the new account of time has been
started: the evaluation in whose middle the attempt is made goes on with the account at zero, and
so with the whole of its time before it.

## Main definitions

* `Realm.Refuses`: why an evaluation does not start.
* `Realm.afterRefusal`: the realm in which a refusal leaves everything.

## Main results

* `Realm.enterEvaluation_eq_error`: an evaluation is refused in these cases and no others.
* `execute_of_refuses`: what is refused is not run, whatever it is.
* `refused_evaluation`: the exact effect of a refused attempt, and when it has none.
-/

namespace ScriptEngine

open Engine

variable {H : HostTypes} {α : Type} {host : Host H} {bound : Nat} {realm : Realm H} {f : Failure}

namespace ContextStack

variable {φ : Type} {s : ContextStack φ} {id now : Nat}

/-- A new account of time is nothing to a context that cannot be resumed. -/
theorem resume_resetAccounting_eq_error :
    (s.resetAccounting now).resume id now = .error f ↔ s.resume id now = .error f := by
  obtain ⟨contexts, lastId, retired⟩ := s
  cases contexts with
  | nil => rfl
  | cons top rest =>
    by_cases hid : top.id = id
    · cases hs : top.suspended with
      | true =>
        simp [resume, splitTop, resetAccounting, hid, hs, bind, Except.bind, pure, Except.pure]
      | false =>
        simp [resume, splitTop, resetAccounting, hid, hs, bind, Except.bind, throw, throwThe,
          MonadExceptOf.throw]
    · simp [resume, splitTop, resetAccounting, hid, bind, Except.bind]

/-- While the top runs nothing can be resumed. -/
theorem exists_resume_eq_error (h : s.isRunning) (id now : Nat) :
    ∃ f, s.resume id now = .error f := by
  match hr : s.resume id now with
  | .error f => exact ⟨f, rfl⟩
  | .ok resumed =>
    obtain ⟨top, rest, hs, -, hsuspended, -⟩ := resume_eq_ok.mp hr
    simp [isRunning, top?, hs, hsuspended] at h

/-- A new account of time is no news to a stack that has used none. -/
theorem resetAccounting_eq_self : s.resetAccounting now = s ↔
    s.retired = 0 ∧ ∀ c ∈ s.contexts, c.activeAtPush = c.activeTime now := by
  obtain ⟨contexts, lastId, retired⟩ := s
  have same : (contexts.map fun c => { c with activeAtPush := c.activeTime now }) = contexts
      ↔ ∀ c ∈ contexts, c.activeAtPush = c.activeTime now := by
    constructor
    · intro h c hc
      exact (congrArg Context.activeAtPush
        (List.map_inj_left.mp (h.trans (List.map_id contexts).symm) c hc)).symm
    · intro h
      refine (List.map_congr_left fun c hc => ?_).trans (List.map_id contexts)
      rw [← h c hc]
      rfl
  simp only [resetAccounting, mk.injEq, true_and, same]
  exact ⟨fun h => ⟨h.2.symm, h.1⟩, fun h => ⟨h.2, h.1.symm⟩⟩

/-- After the start of a new account the time used before it is missing. -/
theorem Accounted.elapsed_resetAccounting {later : Nat} (h : s.Accounted now) (hle : now ≤ later) :
    (s.resetAccounting now).elapsed later = s.elapsed later - s.elapsed now := by
  obtain ⟨hreset, hzero⟩ := h.resetAccounting
  have hrunning : (s.resetAccounting now).isRunning = s.isRunning := by
    obtain ⟨contexts, lastId, retired⟩ := s
    cases contexts with
    | nil => rfl
    | cons top rest => rfl
  rw [hreset.elapsed_later hle, hzero, hrunning, h.elapsed_later hle, Nat.zero_add,
    Nat.add_sub_cancel_left]

end ContextStack

namespace Realm

/-! ### Refusals -/

/-- Why an evaluation does not start: the realm has been disposed of, it was stopped, or its root
cannot be woken. -/
inductive Refuses (realm : Realm H) : Failure → Prop
  | disposed (hd : realm.disposed = true) : Refuses realm (.internal "realm has been disposed")
  | stopped {elapsed : Nat} (hd : realm.disposed = false) (ha : realm.aborted = some elapsed) :
      Refuses realm (.timeout realm.config.timeoutMs elapsed)
  | busy {f : Failure} (hd : realm.disposed = false) (ha : realm.aborted = none)
      (hr : realm.contexts.resume realm.rootContext realm.clock = .error f) : Refuses realm f

/-- The realm after an evaluation that was refused. -/
def afterRefusal (realm : Realm H) : Realm H :=
  if realm.disposed ∨ realm.aborted.isSome then realm else realm.resetAccounting

theorem afterRefusal_of_usable (hd : realm.disposed = false) (ha : realm.aborted = none) :
    realm.afterRefusal = realm.resetAccounting :=
  if_neg (by simp [hd, ha])

/-- A realm that refuses an evaluation does so before anything is run. -/
theorem enterEvaluation_of_refuses (h : realm.Refuses f) :
    realm.enterEvaluation = (.error f, realm.afterRefusal) := by
  cases h with
  | disposed hd => simp [enterEvaluation, afterRefusal, hd]
  | stopped hd ha => simp [enterEvaluation, afterRefusal, hd, ha]
  | busy hd ha hr =>
    have hreset : (realm.contexts.resetAccounting realm.clock).resume realm.rootContext realm.clock
        = .error f := ContextStack.resume_resetAccounting_eq_error.mpr hr
    rw [enterEvaluation_of_usable hd ha, afterRefusal_of_usable hd ha]
    have hresume : realm.resetAccounting.contexts.resume realm.resetAccounting.rootContext
        realm.resetAccounting.clock = .error f := hreset
    simp only [wakeRoot, changeContexts, hresume, Except.map]

/-- A realm refuses an evaluation unless its root can be woken. -/
theorem refuses_or_resumes (realm : Realm H) :
    (∃ f, realm.Refuses f) ∨ realm.disposed = false ∧ realm.aborted = none ∧ ∃ contexts,
      (realm.contexts.resetAccounting realm.clock).resume realm.rootContext realm.clock
        = .ok contexts := by
  by_cases hd : realm.disposed
  · exact .inl ⟨_, .disposed hd⟩
  replace hd := Bool.eq_false_iff.mpr hd
  obtain ha | ⟨elapsed, ha⟩ := realm.aborted.eq_none_or_eq_some
  · match hr : (realm.contexts.resetAccounting realm.clock).resume realm.rootContext
      realm.clock with
    | .ok contexts => exact .inr ⟨hd, ha, contexts, rfl⟩
    | .error f => exact .inl ⟨f, .busy hd ha (ContextStack.resume_resetAccounting_eq_error.mp hr)⟩
  · exact .inl ⟨_, .stopped hd ha⟩

/-- An evaluation is refused in the cases that are named and in no others. -/
theorem enterEvaluation_eq_error : realm.enterEvaluation.1 = .error f ↔ realm.Refuses f := by
  refine ⟨fun h => ?_, fun h => congrArg Prod.fst (enterEvaluation_of_refuses h)⟩
  rcases realm.refuses_or_resumes with ⟨f', hf⟩ | ⟨hd, ha, contexts, hr⟩
  · rw [enterEvaluation_of_refuses hf] at h
    cases h
    exact hf
  · rw [enterEvaluation_of_resume hd ha hr] at h
    cases h

/-- An evaluation that is not refused starts with the root running and a new account of time. -/
theorem enterEvaluation_eq_ok {start : Realm H} : realm.enterEvaluation = (.ok (), start) ↔
    realm.disposed = false ∧ realm.aborted = none ∧ ∃ contexts,
      (realm.contexts.resetAccounting realm.clock).resume realm.rootContext realm.clock
          = .ok contexts
        ∧ start = { realm.looked with checkpoints := 0, contexts } := by
  constructor
  · intro h
    rcases realm.refuses_or_resumes with ⟨f, hf⟩ | ⟨hd, ha, contexts, hr⟩
    · cases h.symm.trans (enterEvaluation_of_refuses hf)
    · rw [enterEvaluation_of_resume hd ha hr] at h
      exact ⟨hd, ha, contexts, hr, (Prod.mk.inj h).2.symm⟩
  · rintro ⟨hd, ha, contexts, hr, rfl⟩
    exact enterEvaluation_of_resume hd ha hr

/-- In the middle of an evaluation, where a context runs, a realm that was not stopped refuses
another one. -/
theorem exists_refuses (hd : realm.disposed = false) (ha : realm.aborted = none)
    (h : realm.contexts.isRunning) : ∃ f, realm.Refuses f := by
  obtain ⟨f, hf⟩ := ContextStack.exists_resume_eq_error h realm.rootContext realm.clock
  exact ⟨f, .busy hd ha hf⟩

/-- A new account of time is nothing to a realm that has used none. -/
theorem resetAccounting_eq_self : realm.resetAccounting = realm ↔
    realm.checkpoints = 0 ∧ realm.contexts.retired = 0
      ∧ ∀ c ∈ realm.contexts.contexts, c.activeAtPush = c.activeTime realm.clock := by
  rw [← ContextStack.resetAccounting_eq_self]
  constructor
  · intro h
    exact ⟨(congrArg Realm.checkpoints h).symm, congrArg Realm.contexts h⟩
  · rintro ⟨hcheckpoints, hcontexts⟩
    simp only [resetAccounting, hcontexts, ← hcheckpoints]

end Realm

/-! ### Attempts to start an evaluation -/

/-- An evaluation that is refused does not run what it is given. -/
theorem execute_of_refuses (host : Host H) (bound : Nat) (h : realm.Refuses f) (x : Routine H α) :
    (execute x).run host bound realm = .error (.failure f) realm.afterRefusal := by
  obtain ⟨hseen, hback⟩ := realm.enterEvaluation_seen
  rw [Realm.enterEvaluation_of_refuses h] at hseen hback
  have henter : realm.seen.enterEvaluation = (.error f, realm.seen.enterEvaluation.2) :=
    Prod.ext hseen rfl
  change Action.bracket Realm.enterEvaluation _ _ _ realm = _
  simp only [Action.bracket, Action.andThen, Action.transition]
  rw [henter]
  exact congrArg _ hback

/-- An attempt to run something, or the jobs that wait, as an evaluation is refused in exactly the
cases that are named, and what was to run is not run. A realm that has been disposed of or was
stopped is left alone. Any other is left with a new account of time: it is as before only if it had
used no time and passed no checkpoint. In the middle of an evaluation, where the attempt is always
refused, the time used so far is missing from the account from then on. -/
theorem refused_evaluation (host : Host H) (bound : Nat) (realm : Realm H) :
    (∀ f, realm.enterEvaluation.1 = .error f ↔ realm.Refuses f)
      ∧ (∀ f, realm.Refuses f →
        (∀ {α : Type} (x : Routine H α),
          (execute x).run host bound realm = .error (.failure f) realm.afterRefusal)
        ∧ runJobs.run host bound realm = .error (.failure f) realm.afterRefusal)
      ∧ (realm.disposed ∨ realm.aborted.isSome → realm.afterRefusal = realm)
      ∧ (realm.disposed = false → realm.aborted = none →
        realm.afterRefusal = realm.resetAccounting
        ∧ (realm.afterRefusal = realm ↔
          realm.checkpoints = 0 ∧ realm.contexts.retired = 0
            ∧ ∀ c ∈ realm.contexts.contexts, c.activeAtPush = c.activeTime realm.clock)
        ∧ (realm.contexts.isRunning → ∃ f, realm.Refuses f)
        ∧ (realm.contexts.Accounted realm.clock → ∀ later, realm.clock ≤ later →
          realm.afterRefusal.contexts.elapsed later
            = realm.contexts.elapsed later - realm.contexts.elapsed realm.clock)) := by
  refine ⟨fun f => Realm.enterEvaluation_eq_error, fun f h => ⟨fun x => ?_, ?_⟩,
    fun h => if_pos h, fun hd ha => ?_⟩
  · exact execute_of_refuses host bound h x
  · exact execute_of_refuses host bound h _
  · rw [Realm.afterRefusal_of_usable hd ha]
    refine ⟨rfl, Realm.resetAccounting_eq_self, Realm.exists_refuses hd ha, ?_⟩
    intro hcontexts later hle
    exact hcontexts.elapsed_resetAccounting hle

/-- The realm with the parked root in the middle of an evaluation. -/
def busyRealm : Realm HostTypes.bare :=
  { parkedRealm.enterEvaluation.2 with time := { now := 8 }, checkpoints := 5 }

/-- An attempt in the middle of an evaluation makes the account forget the eight units of time that
the evaluation has used. -/
theorem refused_evaluation_busyRealm :
    (execute (pure 7 : Routine HostTypes.bare Nat)).run Host.bare 0 busyRealm
        = .error (.failure (.internal "context 1 is not suspended")) busyRealm.afterRefusal
      ∧ busyRealm.afterRefusal ≠ busyRealm
      ∧ busyRealm.contexts.elapsed 10 = 10
      ∧ busyRealm.afterRefusal.contexts.elapsed 10 = 2 := by
  obtain ⟨-, hrefused, -, hused⟩ := refused_evaluation Host.bare 0 busyRealm
  obtain ⟨-, hsame, -, helapsed⟩ := hused rfl rfl
  have hbusy : busyRealm.Refuses (.internal "context 1 is not suspended") := .busy rfl rfl rfl
  have haccounted : busyRealm.contexts.Accounted busyRealm.clock :=
    ⟨nofun, fun c hc => by
      obtain rfl := List.mem_singleton.mp hc
      exact ⟨Nat.zero_le _, fun _ => ⟨0, rfl, Nat.zero_le _⟩⟩⟩
  refine ⟨(hrefused _ hbusy).1 (pure 7), fun h => ?_, rfl, ?_⟩
  · exact absurd (hsame.mp h).1 (by decide)
  · exact helapsed haccounted 10 (by decide)

end ScriptEngine
