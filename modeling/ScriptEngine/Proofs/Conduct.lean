import ScriptEngine.Bootstrap
import ScriptEngine.Proofs.Answer

/-!
# Realms that arise in a run

Whatever a request does, with all the code of the program and of the host that it runs, it treats
the promises and the generators of a realm as computations may. Computations of the engine are of
this kind by their type, and the way in which requests are answered is put together from such; the
rest is an induction on the bound on nesting. A course of single moves therefore leads from a realm
to every later one, also to those in which a computation is in the middle of another, and in what
arises from a blank realm promises and generators are as they should be.

## Main definitions

* `Realm.Proceeds`: the realms that a host brings about from a realm.
* `Realm.Blank`, `Realm.Arises`: a realm without contents, and the realms brought about from it.

## Main results

* `Surroundings.bounded_conducted`: the answers to requests treat promises and generators as
  computations may.
* `Realm.Proceeds.advances`: a course of moves leads to every later realm.
* `Realm.Arises.tidy`: promises and generators are as they should be in every realm that arises.
* `Realm.Blank.proceeds_bootstrap`: making the contents of a realm.
-/

namespace ScriptEngine

open Engine

variable {H : HostTypes} {α : Type}

/-! ### Requests -/

theorem Action.closed_conducted : Action.Closed (fun {_} (x : Action H _) => x.Conducted) where
  engine x := x.conducted
  modifyObject o f hf := Action.conducted_modifyObject fun object => by
    rw [hf object]
    exact ⟨rfl, rfl⟩
  andThen hx hf := hx.andThen hf
  nested hx := hx.nested

/-- Whatever a request does, it treats promises and generators as computations may. -/
theorem Surroundings.bounded_conducted (host : Host H) (bound : Nat) :
    (Surroundings.bounded host bound).Conducted := by
  -- the bound decreases at every level of nesting
  induction bound with
  | zero => exact fun _ _ _ => trivial
  | succ bound ih =>
    have hrespond := Action.closed_conducted.respond fun request => (host request).conducted
    exact fun r realm hr => hrespond r (.bounded host bound) ih realm hr

theorem Realm.Directs.conducts {outcome : EStateM.Result Stop (Realm H) α} {realm after : Realm H}
    (h : realm.Directs outcome) (he : EndsIn outcome after) : realm.Conducts after := by
  rcases he with ⟨a, rfl⟩ | ⟨f, rfl⟩
  · exact h
  · exact h

/-- What a computation does to the promises and the generators of a realm. -/
theorem Routine.conducts_run {host : Host H} {bound : Nat} {x : Routine H α} {realm after : Realm H}
    (hr : realm.Tidy) (he : EndsIn (x.run host bound realm) after) : realm.Conducts after :=
  (x.conducted _ (Surroundings.bounded_conducted host bound) realm hr).conducts he

/-! ### Failures around a computation -/

section Around

variable {β σ : Type} {host : Host H} {bound : Nat} {realm after : Realm H} {f : Failure}
  {surroundings : Surroundings H}

theorem Action.andThen_eq_error {x : Action H α} {next : α → Action H β}
    (h : x.andThen next surroundings realm = .error (.failure f) after) :
    x surroundings realm = .error (.failure f) after
      ∨ ∃ a middle, x surroundings realm = .ok a middle
        ∧ next a surroundings middle = .error (.failure f) after := by
  unfold Action.andThen at h
  split at h
  · next a middle hx => exact .inr ⟨a, middle, hx, h⟩
  · next stop middle hx =>
    cases h
    exact .inl hx

theorem Action.attempt_ne_error {x : Action H α} :
    x.attempt surroundings realm ≠ .error (.failure f) after := by
  unfold Action.attempt
  split <;> exact fun h => by cases h

theorem Action.transition_eq_error {change : Realm H → Except Failure α × Realm H}
    (h : Action.transition change surroundings realm = .error (.failure f) after) :
    (change realm.seen).1 = .error f ∧ after = (change realm.seen).2.atDepth realm.callDepth := by
  unfold Action.transition at h
  split at h
  · cases h
  · next failure middle hc =>
    cases h
    rw [hc]
    exact ⟨rfl, rfl⟩

theorem Action.transition_eq_ok {change : Realm H → Except Failure α × Realm H} {a : α}
    (h : Action.transition change surroundings realm = .ok a after) :
    (change realm.seen).1 = .ok a ∧ after = (change realm.seen).2.atDepth realm.callDepth := by
  unfold Action.transition at h
  split at h
  · next b middle hc =>
    cases h
    rw [hc]
    exact ⟨rfl, rfl⟩
  · cases h

/-- The result or the failure of a computation is what came out of it. -/
theorem Action.attempt_eq_ok {x : Action H α} {outcome : Except Failure α}
    (h : x.attempt surroundings realm = .ok outcome after) :
    (∃ a, outcome = .ok a ∧ x surroundings realm = .ok a after)
      ∨ ∃ f, outcome = .error f ∧ x surroundings realm = .error (.failure f) after := by
  unfold Action.attempt at h
  split at h
  · next a middle hx =>
    cases h
    exact .inl ⟨a, rfl, hx⟩
  · next f middle hx =>
    cases h
    exact .inr ⟨f, rfl, hx⟩
  · cases h

/-- A computation between two changes of the realm fails as the first change does, or as the second
does with the outcome. -/
theorem Routine.bracket_eq_error {b : Bracket H σ α β} {body : σ → Routine H α}
    (h : (bracket b body).run host bound realm = .error (.failure f) after) :
    (b.enter.apply realm.seen).1 = .error f
      ∨ ∃ a outcome middle, (b.enter.apply realm.seen).1 = .ok a
        ∧ (body a).act.attempt (.bounded host bound)
            ((b.enter.apply realm.seen).2.atDepth realm.callDepth) = .ok outcome middle
        ∧ ((b.leave a outcome).apply middle.seen).1 = .error f
        ∧ after = ((b.leave a outcome).apply middle.seen).2.atDepth middle.callDepth := by
  rcases Action.andThen_eq_error h with h | ⟨a, start, he, h⟩
  · exact .inl (Action.transition_eq_error h).1
  · obtain ⟨hok, rfl⟩ := Action.transition_eq_ok he
    rcases Action.andThen_eq_error h with h | ⟨outcome, middle, hx, h⟩
    · exact absurd h Action.attempt_ne_error
    · exact .inr ⟨a, outcome, middle, hok, hx, Action.transition_eq_error h⟩

/-- A computation between two changes of the realm runs once the first change has succeeded. -/
theorem Routine.bracket_of_enter {b : Bracket H σ α β} {body : σ → Routine H α} {a : σ}
    (ha : (b.enter.apply realm.seen).1 = .ok a) :
    (bracket b body).run host bound realm
      = (body a).act.attempt.andThen (fun outcome => Action.transition (b.leave a outcome).apply)
          (.bounded host bound) ((b.enter.apply realm.seen).2.atDepth realm.callDepth) := by
  have henter : Action.transition b.enter.apply (.bounded host bound) realm
      = .ok a ((b.enter.apply realm.seen).2.atDepth realm.callDepth) := by
    match hstart : b.enter.apply realm.seen with
    | (.ok a', start) =>
      rw [hstart] at ha
      cases ha
      simp only [Action.transition, hstart]
    | (.error f, start) =>
      rw [hstart] at ha
      cases ha
  change Action.bracket b.enter.apply (fun a => (body a).act) (fun a outcome =>
    (b.leave a outcome).apply) (.bounded host bound) realm = _
  simp only [Action.bracket, Action.andThen, henter]

/-- A computation between two changes of the realm that came to its end did so by the second change,
made for what came out of the computation. -/
theorem Routine.bracket_endsIn {b : Bracket H σ α β} {body : σ → Routine H α} {a : σ}
    (he : EndsIn ((bracket b body).run host bound realm) after)
    (ha : (b.enter.apply realm.seen).1 = .ok a) :
    ∃ outcome middle,
      (body a).attempt.run host bound ((b.enter.apply realm.seen).2.atDepth realm.callDepth)
          = .ok outcome middle
        ∧ (bracket b body).run host bound realm
          = Action.transition (b.leave a outcome).apply (.bounded host bound) middle := by
  rw [bracket_of_enter ha] at he ⊢
  match hx : (body a).act.attempt (.bounded host bound)
      ((b.enter.apply realm.seen).2.atDepth realm.callDepth) with
  | .ok outcome middle =>
    refine ⟨outcome, middle, hx, ?_⟩
    simp only [Action.andThen, hx]
  | .error (.failure f) middle => exact absurd hx Action.attempt_ne_error
  | .error .exhausted middle =>
    simp only [Action.andThen, hx] at he
    rcases he with ⟨_, he⟩ | ⟨f, he⟩
    · cases he
    · cases he

end Around

/-! ### Realms that arise -/

namespace Realm

variable {host : Host H} {realm middle after : Realm H}

/-- The realms that a host brings about from a realm: after computations, at the start of those that
run within another one, and by making the root context where there is none yet. -/
inductive Proceeds (host : Host H) (realm : Realm H) : Realm H → Prop
  | refl : Proceeds host realm realm
  | run {middle after : Realm H} {α : Type} (first : Proceeds host realm middle) (bound : Nat)
      (x : Routine H α) (he : EndsIn (x.run host bound middle) after) : Proceeds host realm after
  /-- A method writes to an object. -/
  | write {middle after : Realm H} (first : Proceeds host realm middle) (bound : Nat) (o : ObjectId)
      (f : Object H → Object H) (hf : ∀ object, (f object).kind = object.kind)
      (he : EndsIn (Action.modifyObject o f (.bounded host bound) middle) after) :
      Proceeds host realm after
  /-- A computation starts that is run between two changes of the realm. -/
  | enter {middle : Realm H} {β α γ : Type} {b : β} (first : Proceeds host realm middle)
      (bracket : Bracket H β α γ) (he : (bracket.enter.apply middle).1 = .ok b) :
      Proceeds host realm (bracket.enter.apply middle).2
  /-- A computation starts, or has ended, that is run at another depth of calls. -/
  | atDepth {middle : Realm H} (first : Proceeds host realm middle) (depth : Nat) :
      Proceeds host realm (middle.atDepth depth)
  | root {middle : Realm H} (first : Proceeds host realm middle) (outcome : Except Failure Unit)
      (hc : H.movesContexts = false → middle.disposed = false → middle.control.stack = []) :
      Proceeds host realm (middle.stoppedBy outcome).withRootContext

theorem Proceeds.trans (h : realm.Proceeds host middle) (h' : middle.Proceeds host after) :
    realm.Proceeds host after := by
  induction h' with
  | refl => exact h
  | run _ bound x he ih => exact ih.run bound x he
  | write _ bound o f hf he ih => exact ih.write bound o f hf he
  | enter _ bracket he ih => exact ih.enter bracket he
  | atDepth _ depth ih => exact ih.atDepth depth
  | root _ outcome hc ih => exact ih.root outcome hc

theorem control_withRootContext (h : realm.control.stack = []) :
    realm.withRootContext.control
      = { realm.control with
          stack := [⟨realm.control.lastId + 1, none⟩]
          root := realm.control.lastId + 1
          lastId := realm.control.lastId + 1 } := by
  have hnew : (realm.withNewContext
      { lexicalEnvironment := some realm.globalEnvironment }).control
        = { realm.control with
            stack := ⟨realm.control.lastId + 1, none⟩ :: realm.control.stack
            lastId := realm.control.lastId + 1 } :=
    realm.control_withNewContext rfl
  simp only [Realm.control, Control.mk.injEq] at hnew h ⊢
  obtain ⟨hg, hs, -, hid⟩ := hnew
  refine ⟨hg, ?_, hid, ?_⟩
  · rw [h] at hs
    exact (ContextStack.outline_modifyTop _ fun c => c.outline_stop realm.clock).trans hs
  · exact (ContextStack.lastId_modifyTop _ _).trans hid

theorem stoppedBy_eq (realm : Realm H) (outcome : Except Failure Unit) :
    ∃ aborted, realm.stoppedBy outcome = { realm with aborted } := by
  cases outcome with
  | ok => exact ⟨realm.aborted, rfl⟩
  | error f => exact ⟨_, rfl⟩

theorem advances_withRootContext (outcome : Except Failure Unit)
    (hc : H.movesContexts = false → realm.disposed = false → realm.control.stack = []) :
    realm.Advances (realm.stoppedBy outcome).withRootContext := by
  obtain ⟨aborted, hstopped⟩ := realm.stoppedBy_eq outcome
  rw [hstopped]
  refine ⟨id, fun _ => ⟨[], .refl _⟩, fun hm hd => ?_⟩
  have hstack : ({ realm with aborted } : Realm H).control.stack = [] := hc hm hd
  rw [control_withRootContext hstack]
  exact (Control.Move.root realm.control (hc hm hd)).path

/-- A course of moves leads to every later realm. -/
theorem Proceeds.advances (hp : realm.Proceeds host after) (hr : realm.Tidy) :
    realm.Advances after := by
  induction hp with
  | refl => exact .refl realm
  | run _ bound x he ih => exact ih.trans (Routine.conducts_run (ih.tidy hr) he).advances
  | write _ bound o f hf he ih =>
    have hconducted := Action.closed_conducted.modifyObject o f hf
    have hdirects := hconducted _ (Surroundings.bounded_conducted host bound) _ (ih.tidy hr)
    exact ih.trans (hdirects.conducts he).advances
  | enter _ bracket he ih => exact ih.trans (bracket.advances _ _ (ih.tidy hr) he)
  | atDepth _ depth ih => exact ⟨ih.usable, ih.ledger, ih.control⟩
  | root _ outcome hc ih => exact ih.trans (advances_withRootContext outcome hc)

/-- In every later realm promises and generators are as they should be. -/
theorem Proceeds.tidy (hp : realm.Proceeds host after) (hr : realm.Tidy) : after.Tidy :=
  (hp.advances hr).tidy hr

/-! ### The beginning -/

/-- A realm without contents. -/
structure Blank (realm : Realm H) : Prop where
  heap : realm.heap = #[]
  latches : realm.latches = #[]
  jobs : realm.jobs = []
  contexts : realm.contexts.contexts = []
  root : realm.rootContext = 0

/-- The realms that a host brings about from blank ones. -/
def Arises (host : Host H) (realm : Realm H) : Prop :=
  ∃ start : Realm H, start.Blank ∧ start.Proceeds host realm

theorem Blank.ledger (h : realm.Blank) : realm.ledger = {} := by
  have hview : realm.view ObjectKind.promise? = fun _ => none := by
    funext p
    simp [view, object?, h.heap]
  simp only [Realm.ledger, hview, h.latches, h.jobs]

theorem Blank.control (h : realm.Blank) :
    realm.control = { lastId := realm.contexts.lastId } := by
  have hview : realm.view ObjectKind.generator? = fun _ => none := by
    funext g
    simp [view, object?, h.heap]
  simp only [Realm.control, hview, h.root, ContextStack.outline, h.contexts, List.map_nil]

theorem Blank.tidy (h : realm.Blank) : realm.Tidy where
  ledger _ := by
    rw [h.ledger]
    exact Ledger.tidy_empty
  control _ _ := by
    rw [h.control]
    exact Control.tidy_blank _

/-- In every realm that arises, promises and generators are as they should be. -/
theorem Arises.tidy (hr : realm.Arises host) : realm.Tidy := by
  obtain ⟨start, hblank, hp⟩ := hr
  exact hp.tidy hblank.tidy

theorem Arises.proceeds (hr : realm.Arises host) (hp : realm.Proceeds host after) :
    after.Arises host := by
  obtain ⟨start, hblank, hfirst⟩ := hr
  exact ⟨start, hblank, hfirst.trans hp⟩

/-- A realm that arises has a history of its promises. -/
theorem Arises.exists_history (hr : realm.Arises host) (hd : realm.disposed = false) :
    ∃ events, ({} : Ledger H).Path events realm.ledger := by
  obtain ⟨start, hblank, hp⟩ := hr
  exact hblank.ledger ▸ (hp.advances hblank.tidy).ledger hd

/-- Making the contents of a blank realm is one way to go on from it. -/
theorem Blank.proceeds_bootstrap {bound : Nat} (h : realm.Blank)
    (he : EndsIn (bootstrap (.bounded host bound) realm) after) : realm.Proceeds host after := by
  match hm : (makeContents : Engine H _).act (.bounded host bound) realm with
  | .ok outcome middle =>
    have hends : EndsIn (makeContents.run host bound realm) middle := .inl ⟨outcome, hm⟩
    have hconducts := Routine.conducts_run h.tidy hends
    have hroot := (Proceeds.run .refl bound makeContents.toRoutine hends).root outcome
      fun hmoves hd => by rw [(hconducts.control hmoves hd).stack, h.control]
    unfold ScriptEngine.bootstrap at he
    rw [Action.bind_of_ok hm] at he
    rcases he with ⟨_, he⟩ | ⟨f, he⟩
    · cases he
      exact hroot
    · cases he
  | .error stop middle =>
    unfold ScriptEngine.bootstrap at he
    rw [Action.bind_of_error hm] at he
    rcases he with ⟨_, he⟩ | ⟨f, he⟩
    · cases he
    · cases he
      exact .run .refl bound makeContents.toRoutine (.inr ⟨f, hm⟩)

end Realm

end ScriptEngine
