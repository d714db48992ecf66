import ScriptEngine.Proofs.GeneratorTurns
import ScriptEngine.Proofs.Lawful

/-!
# What generators yield

When the body of a generator yields, its context is parked before the object is made that reports
the value. Making that object takes two more levels of calls. Where they are not there, resuming
the generator fails although it lives on, and the value is lost; everywhere else the caller gets
what was yielded. Any other failure leaves the generator completed, or it was running all along.

## Main definitions

* `Resumption`: the three ways to resume a generator.
* `Realm.Yields`: resuming a generator runs its body, which yields a value.

## Main results

* `ObjectId.runGenerator_endsIn`: how running a suspended generator ends.
* `resumption_reports_yield`: what becomes of a yielded value, and of a generator that fails.
-/

namespace ScriptEngine

open Engine

variable {H : HostTypes} {host : Host H} {bound : Nat} {s : Surroundings H}
  {realm middle after : Realm H} {g : ObjectId} {data : GeneratorData H}

/-! ### Resumptions -/

/-- The ways to resume a generator. -/
inductive Resumption where
  | next (v : Value)
  | return (v : Value)
  | throw (v : Value)

namespace Resumption

/-- What the body of the generator gets. -/
def completion : Resumption → Completion
  | next v => .normal v
  | .return v => .return v
  | throw v => .throw v

/-- Resumes a generator. -/
def on (r : Resumption) (g : ObjectId) : Engine H Value :=
  match r with
  | next v => (Value.object g).resumeGenerator v
  | .return v => (Value.object g).resumeGeneratorAbruptly (.return v)
  | throw v => (Value.object g).resumeGeneratorAbruptly (.throw v)

/-- Whether the body of a generator in a state is run. -/
def runs : Resumption → GeneratorState → Bool
  | _, .suspendedYield => true
  | next _, .suspendedStart => true
  | _, _ => false

theorem isSuspended_of_runs {r : Resumption} {state : GeneratorState} (h : r.runs state) :
    state.isSuspended := by
  cases state with
  | suspendedYield => rfl
  | suspendedStart => rfl
  | _ => cases r <;> cases h

theorem on_of_runs {r : Resumption} (hg : realm.control.generator? g = some data)
    (hr : r.runs data.state) :
    (r.on g).act s realm = (g.runGenerator r.completion).act s realm := by
  have hne : data.state ≠ .executing := fun h => by cases r <;> simp [h, runs] at hr
  have hvalidate := Value.validateGenerator_eq (s := s) hg hne
  cases hs : data.state with
  | suspendedYield =>
    rw [hs] at hvalidate
    cases r <;> exact Engine.bind_of_ok hvalidate
  | suspendedStart =>
    rw [hs] at hvalidate
    cases r with
    | next v => exact Engine.bind_of_ok hvalidate
    | _ => simp [hs, runs] at hr
  | _ => cases r <;> simp [hs, runs] at hr

end Resumption

/-! ### Running the body -/

/-- The body of a generator is run and yields a value. -/
def Realm.Yields (host : Host H) (bound : Nat) (realm : Realm H) (g : ObjectId) (r : Resumption)
    (x : Value) : Prop :=
  (∃ data, realm.control.generator? g = some data ∧ r.runs data.state)
    ∧ ∃ body rest inner, (realm.enterGenerator g).1 = .ok body
      ∧ (body.resume g r.completion).run host bound (realm.enterGenerator g).2
        = .ok (.yield x, rest) inner

namespace GeneratorStep

/-- The value of a step. -/
def value : GeneratorStep → Value
  | yield v => v
  | .return v => v

/-- Whether a step is the last. -/
def done : GeneratorStep → Bool
  | yield _ => false
  | .return _ => true

/-- What the caller gets for a step. -/
def report (step : GeneratorStep) : Engine H Value := do
  return .object (← iteratorResult step.value step.done)

/-- Reporting a step, in a realm that is as deep as another one. -/
theorem report_endsIn {step : GeneratorStep}
    (he : EndsIn (step.report.run host bound realm) after) :
    after.control = realm.control
      ∧ if realm.deeper.AtLimit then step.report.run host bound realm = .error .overflow after
        else ∃ o, step.report.run host bound realm = .ok (.object o) after
          ∧ after.object? o = some (after.resultObject step.value step.done) := by
  have heq : step.report.run host bound realm = realm.resultOutcome step.value step.done :=
    (iteratorResult_gives realm step.value step.done).eq_of_endsIn he
  have hcontrol (object : Object H) (ho : object.kind = .ordinary) :
      (realm.withObject object).control = realm.control :=
    realm.control_push (by rw [ho]; rfl)
  rw [heq] at he ⊢
  unfold Realm.resultOutcome at he ⊢
  split at he
  · next hl =>
    obtain rfl := EndsIn.realm_eq_of_error he
    exact ⟨hcontrol _ rfl, by rw [if_pos hl, if_pos hl]⟩
  · next hl =>
    obtain rfl := EndsIn.realm_eq he
    refine ⟨hcontrol _ rfl, ?_⟩
    rw [if_neg hl, if_neg hl]
    exact ⟨_, rfl, realm.object?_withObject _⟩

end GeneratorStep

theorem ObjectId.runGenerator_eq (g : ObjectId) (completion : Completion) :
    (g.runGenerator completion : Engine H Value)
      = g.inGenerator (fun body => body.resume g completion) >>= GeneratorStep.report := by
  unfold ObjectId.runGenerator
  congr 1
  funext step
  cases step <;> rfl

/-- How running a suspended generator ends, given how its body did. -/
theorem ObjectId.runGenerator_endsIn {completion : Completion} (hm : H.movesContexts = false)
    (hr : realm.Tidy) (hs : realm.Sound) (hg : realm.control.generator? g = some data)
    (hsuspended : data.state.isSuspended)
    (he : EndsIn ((g.runGenerator completion).run host bound realm) after)
    (hd : after.disposed = false) :
    ∃ body outcome inner, (realm.enterGenerator g).1 = .ok body
      ∧ (attempt (body.resume g completion)).run host bound (realm.enterGenerator g).2
        = .ok outcome inner
      ∧ after.control.state? g = some (GeneratorState.leftWith outcome)
      ∧ match outcome with
        | .error f => (g.runGenerator completion).run host bound realm = .error (.failure f) after
        | .ok (step, _) =>
          if realm.deeper.AtLimit then
            (g.runGenerator completion).run host bound realm = .error .overflow after
          else ∃ o, (g.runGenerator completion).run host bound realm = .ok (.object o) after
            ∧ after.object? o = some (after.resultObject step.value step.done) := by
  rw [ObjectId.runGenerator_eq] at he ⊢
  obtain ⟨middle, hin⟩ := he.of_bind
  have hleads := ((g.inGenerator fun body => body.resume g completion).lawful _
    (Surroundings.bounded_lawful host bound) realm hs).leads hin
  have hconducts := Routine.conducts_run hr hin
  rcases hin with ⟨step, hin⟩ | ⟨f, hin⟩
  · have hrun : (g.inGenerator (fun body => body.resume g completion) >>= GeneratorStep.report).run
        host bound realm = step.report.run host bound middle := Engine.bind_of_ok hin
    rw [hrun] at he ⊢
    have hmd := (Routine.conducts_run (hconducts.tidy hr) he).usable hd
    obtain ⟨body, outcome, inner, hbody, hx, hout, hstate⟩ :=
      ObjectId.inGenerator_endsIn hm hr hg hsuspended (.inl ⟨step, hin⟩) hmd
    obtain ⟨hcontrol, hreport⟩ := GeneratorStep.report_endsIn he
    refine ⟨body, outcome, inner, hbody, hx, hcontrol ▸ hstate, ?_⟩
    have hfst : outcome.map Prod.fst = .ok step :=
      (EStateM.Result.ok.inj (hout.symm.trans (Engine.attempt_of_ok hin))).1
    match outcome, hfst with
    | .ok (step', rest), hfst =>
      obtain rfl : step' = step := Except.ok.inj hfst
      simpa only [hleads.deeper_atLimit] using hreport
  · have hrun : (g.inGenerator (fun body => body.resume g completion) >>= GeneratorStep.report).run
        host bound realm = .error (.failure f) middle := Engine.bind_of_error hin
    rw [hrun] at he ⊢
    obtain rfl := EndsIn.realm_eq_of_error he
    obtain ⟨body, outcome, inner, hbody, hx, hout, hstate⟩ :=
      ObjectId.inGenerator_endsIn hm hr hg hsuspended (.inr ⟨f, hin⟩) hd
    refine ⟨body, outcome, inner, hbody, hx, hstate, ?_⟩
    have hfst : outcome.map Prod.fst = .error f :=
      (EStateM.Result.ok.inj (hout.symm.trans (Engine.attempt_of_failure hin))).1
    match outcome, hfst with
    | .error f', hfst =>
      obtain rfl : f' = f := Except.error.inj hfst
      rfl

/-! ### Resuming -/

namespace Resumption

/-- What the caller gets where the generator has completed. -/
def afterwards : Resumption → Engine H Value
  | next _ => (GeneratorStep.return .undefined).report
  | .return v => (GeneratorStep.return v).report
  | throw v => fail (.throwing v)

theorem afterwards_eq_error {r : Resumption} {f : Failure}
    (h : r.afterwards.run host bound realm = .error (.failure f) after) :
    after.control = realm.control := by
  cases r with
  | throw v =>
    cases h
    rfl
  | _ => exact (GeneratorStep.report_endsIn (.inr ⟨f, h⟩)).1

theorem on_of_completed {r : Resumption} (hg : realm.control.generator? g = some data)
    (hs : data.state = .completed) : (r.on g).act s realm = r.afterwards.act s realm := by
  cases r with
  | next v => exact (Value.resume_of_completed hg hs v).1
  | «return» v => exact (Value.resume_of_completed hg hs v).2.1
  | throw v => exact (Value.resume_of_completed hg hs v).2.2

/-- Before its first step a generator is completed by a return or a throw. -/
theorem on_of_start {r : Resumption} (hg : realm.control.generator? g = some data)
    (hs : data.state = .suspendedStart) (hr : r.runs data.state = false) :
    (r.on g).act s realm
      = r.afterwards.act s (realm.setGenerator g { state := .completed }) := by
  have hvalidate : (Value.object g).validateGenerator.act s realm
      = .ok (g, .suspendedStart) realm := hs ▸ Value.validateGenerator_eq hg (by simp [hs])
  have hcancel : g.cancelGenerator.act s realm
      = .ok () (realm.setGenerator g { state := .completed }) := by
    have hdata : realm.seen.generatorData g = .ok data := Realm.generatorData_eq_ok.mpr hg
    have hchange : realm.seen.cancelGenerator g
        = (.ok (), realm.seen.setGenerator g { state := .completed }) := by
      simp only [Realm.cancelGenerator, hdata, if_pos hs]
    simp only [ObjectId.cancelGenerator, Engine.transition, Routine.transition, Action.transition,
      hchange]
    rfl
  cases r with
  | next v => simp [hs, runs] at hr
  | _ => exact (Engine.bind_of_ok hvalidate).trans (Engine.bind_of_ok hcancel)

end Resumption

/-- A failure to resume a generator whose body is not run finds it running, or leaves it
completed. -/
theorem Resumption.on_eq_error {r : Resumption} {f : Failure}
    (hg : realm.control.generator? g = some data) (hstart : data.state ≠ .none)
    (hruns : r.runs data.state = false)
    (h : (r.on g).run host bound realm = .error (.failure f) after) :
    after.control.state? g = some .completed
      ∨ data.state = .executing ∧ after.control.state? g = some .executing := by
  have hstate : realm.control.state? g = some data.state := by rw [Control.state?, hg]; rfl
  cases hs : data.state with
  | none => exact absurd hs hstart
  | suspendedYield => cases r <;> simp [hs, runs] at hruns
  | executing =>
    have hsame : after = realm := by
      cases r with
      | next v => exact (EStateM.Result.error.inj
          (h.symm.trans (Value.resume_of_executing hg hs v .empty).1)).2
      | _ => exact (EStateM.Result.error.inj
          (h.symm.trans (Value.resume_of_executing hg hs .undefined _).2)).2
    exact .inr ⟨rfl, hsame ▸ hs ▸ hstate⟩
  | completed =>
    have hafter : r.afterwards.run host bound realm = .error (.failure f) after :=
      (Resumption.on_of_completed hg hs).symm.trans h
    exact .inl (by rw [Resumption.afterwards_eq_error hafter, hstate, hs])
  | suspendedStart =>
    have hafter : r.afterwards.run host bound (realm.setGenerator g { state := .completed })
        = .error (.failure f) after := (Resumption.on_of_start hg hs hruns).symm.trans h
    refine .inl ?_
    rw [Resumption.afterwards_eq_error hafter, Realm.control_setGenerator realm hg,
      Control.state?_withGenerator, if_pos rfl]

/-- Resuming a generator whose body yields gives the object that reports the value, unless the depth
of calls leaves no room for that object: then it fails, and the generator is suspended at the yield
although the value is lost. Any other failure to resume a generator leaves it completed, or it was
running before and is running still. -/
theorem resumption_reports_yield (host : Host H) (hm : H.movesContexts = false)
    (hr : realm.Arises host) (hs : realm.Reachable) (hg : realm.control.generator? g = some data)
    (hstart : data.state ≠ .none) (r : Resumption)
    (he : EndsIn ((r.on g).run host bound realm) after) (hd : after.disposed = false) :
    (∀ x, realm.Yields host bound g r x →
        if realm.deeper.AtLimit then
          (r.on g).run host bound realm = .error .overflow after
            ∧ after.control.state? g = some .suspendedYield
        else ∃ o, (r.on g).run host bound realm = .ok (.object o) after
          ∧ after.object? o = some (after.resultObject x false))
      ∧ ∀ f, (r.on g).run host bound realm = .error (.failure f) after →
        after.control.state? g = some .completed
          ∨ (data.state = .executing ∧ after.control.state? g = some .executing)
          ∨ realm.deeper.AtLimit ∧ ∃ x, realm.Yields host bound g r x := by
  cases hruns : r.runs data.state with
  | false =>
    refine ⟨fun x hy => ?_, fun f h => ?_⟩
    · obtain ⟨⟨data', hg', hruns'⟩, -⟩ := hy
      cases hg.symm.trans hg'
      cases hruns.symm.trans hruns'
    · exact (Resumption.on_eq_error hg hstart hruns h).imp id .inl
  | true =>
    have hon : (r.on g).run host bound realm = (g.runGenerator r.completion).run host bound realm :=
      Resumption.on_of_runs hg hruns
    rw [hon] at he ⊢
    obtain ⟨body, outcome, inner, hbody, hx, hstate, hrun⟩ := ObjectId.runGenerator_endsIn hm
      hr.tidy hs.sound hg (Resumption.isSuspended_of_runs hruns) he hd
    have hyields (x : Value) (hy : realm.Yields host bound g r x) :
        ∃ rest, outcome = .ok (.yield x, rest) := by
      obtain ⟨-, body', rest, inner', hbody', hx'⟩ := hy
      obtain rfl : body = body' := Except.ok.inj (hbody.symm.trans hbody')
      exact ⟨rest, (EStateM.Result.ok.inj (hx.symm.trans (Engine.attempt_of_ok hx'))).1⟩
    refine ⟨fun x hy => ?_, fun f h => ?_⟩
    · obtain ⟨rest, rfl⟩ := hyields x hy
      split
      · next hl => exact ⟨(if_pos hl).mp hrun, hstate⟩
      · next hl => exact (if_neg hl).mp hrun
    · match outcome, hx, hstate, hrun with
      | .error f', hx, hstate, hrun => exact .inl hstate
      | .ok (.return v, rest), hx, hstate, hrun => exact .inl hstate
      | .ok (.yield x, rest), hx, hstate, hrun =>
        by_cases hl : realm.deeper.AtLimit
        · refine .inr (.inr ⟨hl, x, ⟨data, hg, hruns⟩, body, rest, inner, hbody, ?_⟩)
          rcases Action.attempt_eq_ok hx with ⟨step, heq, hx⟩ | ⟨f', heq, -⟩
          · cases heq
            exact hx
          · cases heq
        · obtain ⟨o, hok, -⟩ := (if_neg hl).mp hrun
          cases h.symm.trans hok

/-! ### A yield at the limit -/

theorem startedRealm_reachable (limit : Nat) (texts : List String) :
    (startedRealm limit texts).Reachable := by
  have empty : (limitedRealm limit).withRootContext.Reachable := .empty rfl
  have hallows := (newTextGenerator texts).lawful _ (Surroundings.bounded_lawful Host.still 0) _
    empty.sound
  exact (hallows.leads (.inl ⟨_, newTextGenerator_run limit texts⟩)).steps.reachable empty

theorem startedRealm_yields (limit bound : Nat) (text : String) (texts : List String) (v : Value) :
    (startedRealm limit (text :: texts)).Yields Host.still bound ⟨0⟩ (.next v) (.string text) :=
  ⟨⟨_, rfl, rfl⟩, .strings (text :: texts), .strings texts, _, rfl, rfl⟩

/-- The realm with the generator at a yield. -/
def yieldedRealm (limit : Nat) (texts : List String) : Realm HostTypes.still :=
  generatorRealm limit { state := .suspendedYield, context := some (textContext texts) }

theorem startedRealm_next (limit : Nat) (text : String) (texts : List String) :
    ((Resumption.next .undefined).on ⟨0⟩).run Host.still 2 (startedRealm limit (text :: texts))
      = (yieldedRealm limit texts).resultOutcome (.string text) false := by
  have hdata : (startedRealm limit (text :: texts)).control.generator? ⟨0⟩
      = some { state := .suspendedStart, context := some (textContext (text :: texts)) } := rfl
  have hon : ((Resumption.next .undefined).on ⟨0⟩).run Host.still 2
      (startedRealm limit (text :: texts)) = _ := Resumption.on_of_runs hdata rfl
  have hreport : Gives 2 2 ((GeneratorStep.yield (.string text)).report.run Host.still 2
      (yieldedRealm limit texts)) ((yieldedRealm limit texts).resultOutcome (.string text) false) :=
    iteratorResult_gives _ _ _
  have hstep : (ObjectId.inGenerator ⟨0⟩ fun body => body.resume ⟨0⟩ (.normal .undefined)).run
      Host.still 2 (startedRealm limit (text :: texts))
        = .ok (.yield (.string text)) (yieldedRealm limit texts) := rfl
  rw [hon, ObjectId.runGenerator_eq]
  exact (Engine.bind_of_ok hstep).trans (hreport.eq_of_le le_rfl)

/-- Two levels of calls are enough for what a generator yields. With one level it is lost, and what
is left of the generator comes after it. -/
theorem resumption_reports_yield_startedRealm :
    HostTypes.still.movesContexts = false
      ∧ (∃ o after,
          ((Resumption.next .undefined).on ⟨0⟩).run Host.still 2 (startedRealm 2 ["a", "b"])
            = .ok (.object o) after
          ∧ after.object? o = some (after.resultObject (.string "a") false))
      ∧ ∃ after, ((Resumption.next .undefined).on ⟨0⟩).run Host.still 2 (startedRealm 1 ["a", "b"])
            = .error .overflow after
          ∧ after.control.state? ⟨0⟩ = some .suspendedYield
          ∧ (after.enterGenerator ⟨0⟩).1 = .ok (.strings ["b"]) := by
  have resumed (limit : Nat) {after : Realm HostTypes.still}
      (he : EndsIn (((Resumption.next .undefined).on ⟨0⟩).run Host.still 2
        (startedRealm limit ["a", "b"])) after) (hd : after.disposed = false) :=
    (resumption_reports_yield Host.still rfl (startedRealm_arises limit ["a", "b"])
      (startedRealm_reachable limit ["a", "b"]) rfl (by decide) (.next .undefined) he hd).1 _
      (startedRealm_yields limit 2 "a" ["b"] .undefined)
  refine ⟨rfl, ?_, ?_⟩
  · have hroom : ¬(yieldedRealm 2 ["b"]).deeper.AtLimit := by decide
    have hrun := (startedRealm_next 2 "a" ["b"]).trans (if_neg hroom)
    have hresult := resumed 2 (.inl ⟨_, hrun⟩) rfl
    rw [if_neg (show ¬(startedRealm 2 ["a", "b"]).deeper.AtLimit by decide)] at hresult
    obtain ⟨o, hok⟩ := hresult
    exact ⟨o, _, hok⟩
  · have hroom : (yieldedRealm 1 ["b"]).deeper.AtLimit := by decide
    have hrun := (startedRealm_next 1 "a" ["b"]).trans (if_pos hroom)
    have hlost := resumed 1 (.inr ⟨_, hrun⟩) rfl
    rw [if_pos (show (startedRealm 1 ["a", "b"]).deeper.AtLimit by decide)] at hlost
    exact ⟨_, hlost.1, hlost.2, rfl⟩

end ScriptEngine
