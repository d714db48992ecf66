import ScriptEngine.Operation.Iterator

/-!
# Generators

A generator runs in a context of its own that is parked in the generator while it is suspended.
Resuming it puts the context on the stack, runs the body to its next step and takes the context off
again.

## Main definitions

* `Realm.startGenerator`, `Realm.enterGenerator`, `Realm.leaveGenerator`, `Realm.cancelGenerator`:
  the changes of a generator. What each of them can do is listed once, in
  `Realm.startGenerator_cases` and the like.
* `ObjectId.startGenerator`: parks a body in a generator.
* `ObjectId.inGenerator`: runs the body of a generator in its context.
* `Value.resumeGenerator`, `Value.resumeGeneratorAbruptly`: the two ways to go on.
* `newGenerator`: a generator with a body.
-/

namespace ScriptEngine

open Engine

variable {H : HostTypes}

/-! ### The changes of a generator -/

/-- The data of a generator that its context leaves with an outcome: a yield parks the context with
what is left to run, and anything else completes the generator. -/
def GeneratorData.left (data : GeneratorData H) (context : Context (Frame H)) :
    Except Failure (GeneratorStep × Continuation H) → GeneratorData H
  | .ok (.yield _, body) =>
    { state := .suspendedYield
      context := some { context with frame := { context.frame with continuation := some body } } }
  | _ => { data with state := .completed }

namespace Realm

/-- The data of an object that has to be a generator. -/
def generatorData (realm : Realm H) (g : ObjectId) : Except Failure (GeneratorData H) :=
  match realm.object? g with
  | none => .error (.internal ("dangling object handle " ++ g.text))
  | some object =>
    match object.kind with
    | .generator data => .ok data
    | _ => .error (.typeError "not a generator object")

/-- Parks a body in a new generator. Its context takes over what the running one refers to. -/
def startGenerator (realm : Realm H) (g : ObjectId) (body : Continuation H) :
    Except Failure Unit × Realm H :=
  let (context, contexts) := realm.contexts.newContext {}
  let realm := { realm with contexts }
  match contexts.top?, realm.generatorData g with
  | none, _ => (.error (.internal "execution context stack is empty"), realm)
  | some _, .error f => (.error f, realm)
  | some running, .ok data =>
    if data.state = .none then
      let frame : Frame H :=
        { function := running.frame.function
          lexicalEnvironment := running.frame.lexicalEnvironment
          generator := some g
          continuation := some body }
      let parked : GeneratorData H :=
        { state := .suspendedStart, context := some { context with frame } }
      (.ok (), realm.setGenerator g parked)
    else (.error (.internal "generator started twice"), realm)

/-- Puts the context of a suspended generator on the stack; what is left to run in it. -/
def enterGenerator (realm : Realm H) (g : ObjectId) : Except Failure (Continuation H) × Realm H :=
  match realm.generatorData g with
  | .error f => (.error f, realm)
  | .ok data =>
    match data.context with
    | none => (.error (.internal "suspended generator has no context"), realm)
    | some context =>
      match context.frame.continuation with
      | none =>
        (.error (.internal "suspended generator has no continuation"),
          realm.setGenerator g { data with context := none })
      | some body =>
        let running := { context with frame := { context.frame with continuation := none } }
        (.ok body, (realm.pushContext running).setGenerator g { state := .executing })

/-- Takes the context of a generator off the stack. A yield parks it again; a return or a failure
completes the generator. -/
def leaveGenerator (realm : Realm H) (g : ObjectId)
    (outcome : Except Failure (GeneratorStep × Continuation H)) :
    Except Failure GeneratorStep × Realm H :=
  match realm.changeContexts ContextStack.pop with
  | (.error f, realm) => (.error f, realm)
  | (.ok context, realm) =>
    match realm.generatorData g, outcome with
    | .error f, _ => (.error f, realm)
    | .ok _, .ok (.yield v, body) =>
      let context := { context with frame := { context.frame with continuation := some body } }
      (.ok (.yield v), realm.setGenerator g { state := .suspendedYield, context := some context })
    | .ok data, .ok (.return v, _) =>
      (.ok (.return v), realm.setGenerator g { data with state := .completed })
    | .ok data, .error f => (.error f, realm.setGenerator g { data with state := .completed })

/-- Completes a generator before its first step. -/
def cancelGenerator (realm : Realm H) (g : ObjectId) : Except Failure Unit × Realm H :=
  match realm.generatorData g with
  | .error f => (.error f, realm)
  | .ok data =>
    if data.state = .suspendedStart then (.ok (), realm.setGenerator g { state := .completed })
    else (.ok (), realm)

variable {realm middle : Realm H} {g : ObjectId} {data : GeneratorData H}

theorem generatorData_eq_ok :
    realm.generatorData g = .ok data ↔ realm.control.generator? g = some data := by
  simp only [generatorData, control, view]
  cases realm.object? g with
  | none => simp
  | some object => cases hk : object.kind <;> simp [hk, ObjectKind.generator?]

/-- The realm after an identity for a context was handed out. -/
def supplied (realm : Realm H) : Realm H :=
  { realm with contexts := (realm.contexts.newContext {}).2 }

/-- Starting a generator uses up an identity, also where it does not start. Where it does, the
context with that identity is parked in it. -/
theorem startGenerator_cases (realm : Realm H) (g : ObjectId) (body : Continuation H) :
    (realm.startGenerator g body).2 = realm.supplied
      ∨ ∃ data context, realm.control.generator? g = some data ∧ data.state = .none
        ∧ context.id = realm.control.lastId + 1 ∧ context.frame.generator = some g
        ∧ context.frame.continuation = some body
        ∧ (realm.startGenerator g body).2
          = realm.supplied.setGenerator g
            { state := .suspendedStart, context := some context } := by
  simp only [startGenerator]
  split
  · exact .inl rfl
  · exact .inl rfl
  · next running data htop hdata =>
    split
    · next hs => exact .inr ⟨data, _, generatorData_eq_ok.mp hdata, hs, rfl, rfl, rfl, rfl⟩
    · exact .inl rfl

/-- Entering a generator fails where nothing waits in it. Otherwise the context that was parked in
it comes on the stack. -/
theorem enterGenerator_cases (realm : Realm H) (g : ObjectId) :
    (∃ f, realm.enterGenerator g = (.error f, realm))
      ∨ (∃ data context, realm.control.generator? g = some data ∧ data.context = some context
        ∧ context.frame.continuation = none ∧ ∃ f, realm.enterGenerator g
          = (.error f, realm.setGenerator g { data with context := none }))
      ∨ ∃ data context body, realm.control.generator? g = some data
        ∧ data.context = some context ∧ context.frame.continuation = some body
        ∧ realm.enterGenerator g = (.ok body,
          (realm.pushContext
            { context with frame := { context.frame with continuation := none } }).setGenerator g
              { state := .executing }) := by
  unfold enterGenerator
  split
  · exact .inl ⟨_, rfl⟩
  next data hdata =>
  have hg := generatorData_eq_ok.mp hdata
  split
  · exact .inl ⟨_, rfl⟩
  next context hc =>
  split
  · next hb => exact .inr (.inl ⟨data, context, hg, hc, hb, _, rfl⟩)
  · next body hb => exact .inr (.inr ⟨data, context, body, hg, hc, hb, rfl⟩)

/-- Leaving a generator takes the top off the stack and changes nothing else than its data. -/
theorem leaveGenerator_cases (realm : Realm H) (g : ObjectId)
    (outcome : Except Failure (GeneratorStep × Continuation H)) :
    (realm.leaveGenerator g outcome).2 = (realm.changeContexts ContextStack.pop).2
      ∨ ∃ data, (realm.leaveGenerator g outcome).2
        = (realm.changeContexts ContextStack.pop).2.setGenerator g data := by
  unfold leaveGenerator
  split
  · next heq => exact .inl (congrArg Prod.snd heq).symm
  · next heq =>
    rw [heq]
    split
    · exact .inl rfl
    · exact .inr ⟨_, rfl⟩
    · exact .inr ⟨_, rfl⟩
    · exact .inr ⟨_, rfl⟩

/-- Only a generator that has not taken its first step is cancelled. -/
theorem cancelGenerator_cases (realm : Realm H) (g : ObjectId) :
    (realm.cancelGenerator g).2 = realm
      ∨ ∃ data, realm.control.generator? g = some data ∧ data.state = .suspendedStart
        ∧ (realm.cancelGenerator g).2 = realm.setGenerator g { state := .completed } := by
  unfold cancelGenerator
  split
  · exact .inl rfl
  next data hdata =>
  split
  · next hs => exact .inr ⟨data, generatorData_eq_ok.mp hdata, hs, rfl⟩
  · exact .inl rfl

theorem steps_supplied (realm : Realm H) : realm.Steps realm.supplied :=
  Beside.steps ⟨rfl, rfl, rfl⟩

theorem conducts_supplied (realm : Realm H) : realm.Conducts realm.supplied :=
  .of_control rfl rfl fun _ _ => ⟨(Control.Move.supply realm.control).path, rfl⟩

theorem steps_startGenerator (realm : Realm H) (g : ObjectId) (body : Continuation H) :
    realm.Steps (realm.startGenerator g body).2 := by
  rcases realm.startGenerator_cases g body with h | ⟨_, _, _, _, _, _, _, h⟩ <;> rw [h]
  · exact realm.steps_supplied
  · exact realm.steps_supplied.trans (steps_setGenerator _ g _)

theorem steps_enterGenerator (realm : Realm H) (g : ObjectId) :
    realm.Steps (realm.enterGenerator g).2 := by
  have push (context : Context (Frame H)) : realm.Steps (realm.pushContext context) :=
    Beside.steps ⟨rfl, rfl, rfl⟩
  rcases realm.enterGenerator_cases g with ⟨_, h⟩ | ⟨_, _, _, _, _, _, h⟩ | ⟨_, _, _, _, _, _, h⟩
    <;> rw [h]
  · exact .refl realm
  · exact steps_setGenerator realm g _
  · exact (push _).trans (steps_setGenerator _ g _)

theorem steps_leaveGenerator (realm : Realm H) (g : ObjectId)
    (outcome : Except Failure (GeneratorStep × Continuation H)) :
    realm.Steps (realm.leaveGenerator g outcome).2 := by
  have pop := (realm.beside_changeContexts ContextStack.pop).steps
  rcases realm.leaveGenerator_cases g outcome with h | ⟨_, h⟩ <;> rw [h]
  · exact pop
  · exact pop.trans (steps_setGenerator _ g _)

theorem steps_cancelGenerator (realm : Realm H) (g : ObjectId) :
    realm.Steps (realm.cancelGenerator g).2 := by
  rcases realm.cancelGenerator_cases g with h | ⟨_, _, _, h⟩ <;> rw [h]
  · exact .refl realm
  · exact steps_setGenerator realm g _

theorem conducts_startGenerator (realm : Realm H) (g : ObjectId) (body : Continuation H) :
    realm.Conducts (realm.startGenerator g body).2 := by
  rcases realm.startGenerator_cases g body with h | ⟨data, context, hg, hs, hi, hf, hb, h⟩ <;>
    rw [h]
  · exact realm.conducts_supplied
  · have hg' : realm.supplied.control.generator? g = some data := hg
    refine .of_control rfl (ledger_setGenerator _ g _) fun _ _ => ⟨?_, rfl⟩
    rw [control_setGenerator _ hg']
    exact (Control.Move.start realm.control g data context hg hs hi hf (by rw [hb]; rfl)).path

theorem conducts_cancelGenerator (realm : Realm H) (g : ObjectId) :
    realm.Conducts (realm.cancelGenerator g).2 := by
  rcases realm.cancelGenerator_cases g with h | ⟨data, hg, hs, h⟩ <;> rw [h]
  · exact .refl realm
  · refine .of_control rfl (ledger_setGenerator realm g _) fun _ _ => ⟨?_, rfl⟩
    rw [control_setGenerator _ hg]
    exact (Control.Move.cancel realm.control g data hg hs).path

/-! ### Entering and leaving -/

theorem ledger_enterGenerator (realm : Realm H) (g : ObjectId) :
    (realm.enterGenerator g).2.ledger = realm.ledger := by
  rcases realm.enterGenerator_cases g with ⟨_, h⟩ | ⟨_, _, _, _, _, _, h⟩ | ⟨_, _, _, _, _, _, h⟩
    <;> rw [h]
  · exact ledger_setGenerator realm g _
  · exact ledger_setGenerator _ g _

theorem disposed_enterGenerator (realm : Realm H) (g : ObjectId) :
    (realm.enterGenerator g).2.disposed = realm.disposed := by
  rcases realm.enterGenerator_cases g with ⟨_, h⟩ | ⟨_, _, _, _, _, _, h⟩ | ⟨_, _, _, _, _, _, h⟩
    <;> rw [h]
  · rfl
  · rfl

/-- Entering a generator fails where nothing waits in it, and then it changes nothing. -/
theorem enterGenerator_of_error {f : Failure} (hr : realm.control.Tidy)
    (h : (realm.enterGenerator g).1 = .error f) : (realm.enterGenerator g).2 = realm := by
  rcases realm.enterGenerator_cases g with ⟨_, heq⟩ | ⟨data, context, hg, hc, hb, _, heq⟩
    | ⟨_, _, _, _, _, _, heq⟩
  · rw [heq]
  · -- what is parked in a generator has something left to run
    have hsome := ((hr.fits g data hg).parked_of_some hc).2.continuation
    rw [hb] at hsome
    cases hsome
  · rw [heq] at h
    cases h

/-- Entering a generator puts its context on the stack. -/
theorem move_enterGenerator {body : Continuation H} (hr : realm.control.Tidy)
    (h : (realm.enterGenerator g).1 = .ok body) :
    realm.control.Move (realm.enterGenerator g).2.control
      ∧ ∃ top, (realm.enterGenerator g).2.control.stack = top :: realm.control.stack
        ∧ top.generator = some g := by
  rcases realm.enterGenerator_cases g with ⟨_, heq⟩ | ⟨_, _, _, _, _, _, heq⟩
    | ⟨data, context, _, hg, hc, _, heq⟩
  · rw [heq] at h
    cases h
  · rw [heq] at h
    cases h
  · obtain ⟨hs, hp⟩ := (hr.fits g data hg).parked_of_some hc
    rw [heq, control_setGenerator (realm.pushContext _) hg, control_pushContext]
    exact ⟨.enter realm.control g data context hg hs hc, context.outline, rfl, hp.generator⟩

theorem conducts_enterGenerator {f : Failure} (hr : realm.Tidy)
    (h : (realm.enterGenerator g).1 = .error f) : realm.Conducts (realm.enterGenerator g).2 :=
  .of_control (realm.disposed_enterGenerator g) (realm.ledger_enterGenerator g) fun hm hd => by
    rw [enterGenerator_of_error (hr.control hm hd) h]
    exact .refl _

theorem advances_enterGenerator {body : Continuation H} (hr : realm.Tidy)
    (h : (realm.enterGenerator g).1 = .ok body) : realm.Advances (realm.enterGenerator g).2 where
  usable hd := realm.disposed_enterGenerator g ▸ hd
  ledger _ := ⟨[], realm.ledger_enterGenerator g ▸ .refl _⟩
  control hm hd :=
    (move_enterGenerator (hr.control hm (realm.disposed_enterGenerator g ▸ hd)) h).1.path

theorem ledger_leaveGenerator (realm : Realm H) (g : ObjectId)
    (outcome : Except Failure (GeneratorStep × Continuation H)) :
    (realm.leaveGenerator g outcome).2.ledger = realm.ledger := by
  have hpop := realm.ledger_changeContexts ContextStack.pop
  rcases realm.leaveGenerator_cases g outcome with h | ⟨_, h⟩ <;> rw [h]
  · exact hpop
  · exact (ledger_setGenerator _ g _).trans hpop

theorem disposed_leaveGenerator (realm : Realm H) (g : ObjectId)
    (outcome : Except Failure (GeneratorStep × Continuation H)) :
    (realm.leaveGenerator g outcome).2.disposed = realm.disposed := by
  have hpop := (realm.beside_changeContexts ContextStack.pop).disposed
  rcases realm.leaveGenerator_cases g outcome with h | ⟨_, h⟩ <;> rw [h]
  · exact hpop
  · exact hpop

/-- A generator whose context is on top gets the data with which the outcome leaves it. -/
theorem leaveGenerator_of_pop {context : Context (Frame H)}
    (hpop : (realm.changeContexts ContextStack.pop).1 = .ok context)
    (hg : (realm.changeContexts ContextStack.pop).2.control.generator? g = some data)
    (outcome : Except Failure (GeneratorStep × Continuation H)) :
    realm.leaveGenerator g outcome
      = (outcome.map Prod.fst, (realm.changeContexts ContextStack.pop).2.setGenerator g
        (data.left context outcome)) := by
  unfold leaveGenerator
  generalize realm.changeContexts ContextStack.pop = popped at hpop hg ⊢
  obtain ⟨result, popped⟩ := popped
  obtain rfl : result = .ok context := hpop
  simp only [generatorData_eq_ok.mpr hg]
  match outcome with
  | .ok (.yield v, body) => rfl
  | .ok (.return v, body) => rfl
  | .error f => rfl

/-- Leaving a generator whose context is on top takes it off the stack, and parks it again or
completes the generator. -/
theorem move_leaveGenerator {top : Outline} {rest : List Outline} (hr : realm.control.Tidy)
    (hc : realm.control.stack = top :: rest) (ht : top.generator = some g)
    (outcome : Except Failure (GeneratorStep × Continuation H)) :
    realm.control.Move (realm.leaveGenerator g outcome).2.control
      ∧ (realm.leaveGenerator g outcome).2.control.stack = rest := by
  obtain ⟨context, hok, htop, hpop⟩ := control_pop hc
  obtain ⟨data, hg, hs⟩ := hr.executing_of_mem (hc ▸ List.mem_cons_self) ht
  have hgen : context.frame.generator = some g := (congrArg Outline.generator htop).trans ht
  have hnone : data.context = none := (hr.fits g data hg).unparked (by rw [hs]; rfl)
  have hg' : (realm.changeContexts ContextStack.pop).2.control.generator? g = some data := by
    rw [hpop]
    exact hg
  rw [leaveGenerator_of_pop hok hg' outcome, control_setGenerator _ hg', hpop]
  refine ⟨?_, rfl⟩
  have complete := Control.Move.complete realm.control g data top rest hg hs hc ht
  match outcome with
  | .ok (.yield v, body) => exact .yield realm.control g data _ rest hg hs (htop ▸ hc) hgen rfl
  | .ok (.return v, body) =>
    rw [← hnone] at complete
    exact complete
  | .error f =>
    rw [← hnone] at complete
    exact complete

/-- A computation between entering a generator and leaving it. -/
theorem Conducts.leaveGenerator {body : Continuation H} (hr : realm.Tidy)
    (h : (realm.enterGenerator g).1 = .ok body) (hm : (realm.enterGenerator g).2.Conducts middle)
    (outcome : Except Failure (GeneratorStep × Continuation H)) :
    realm.Conducts (middle.leaveGenerator g outcome).2 := by
  have hd : (middle.leaveGenerator g outcome).2.disposed = false → middle.disposed = false :=
    fun hd => middle.disposed_leaveGenerator g outcome ▸ hd
  refine ⟨fun hd' => ?_, fun hd' => ?_, fun hmoves hd' => ?_⟩
  · exact realm.disposed_enterGenerator g ▸ hm.usable (hd hd')
  · rw [middle.ledger_leaveGenerator g outcome, ← realm.ledger_enterGenerator g]
    exact hm.ledger (hd hd')
  · have hmiddle := hm.control hmoves (hd hd')
    have htidy := hr.control hmoves (realm.disposed_enterGenerator g ▸ hm.usable (hd hd'))
    obtain ⟨hfirst, top, hstack, ht⟩ := move_enterGenerator htidy h
    obtain ⟨hlast, hrest⟩ := move_leaveGenerator (hmiddle.path.tidy (hfirst.tidy htidy))
      (hmiddle.stack.trans hstack) ht outcome
    exact hmiddle.between hfirst hlast hrest

/-! ### The balance of contexts -/

theorem marks_startGenerator (realm : Realm H) (g : ObjectId) (body : Continuation H) :
    (realm.startGenerator g body).2.marks = realm.marks := by
  rcases realm.startGenerator_cases g body with h | ⟨_, _, _, _, _, _, _, h⟩ <;> rw [h]
  · rfl
  · rfl

theorem marks_cancelGenerator (realm : Realm H) (g : ObjectId) :
    (realm.cancelGenerator g).2.marks = realm.marks := by
  rcases realm.cancelGenerator_cases g with h | ⟨_, _, _, h⟩ <;> rw [h]
  rfl

theorem marks_enterGenerator_of_error {f : Failure} (h : (realm.enterGenerator g).1 = .error f) :
    (realm.enterGenerator g).2.marks = realm.marks := by
  rcases realm.enterGenerator_cases g with ⟨_, heq⟩ | ⟨_, _, _, _, _, _, heq⟩
    | ⟨_, _, _, _, _, _, heq⟩
  · rw [heq]
  · rw [heq]
    rfl
  · rw [heq] at h
    cases h

theorem marks_enterGenerator {body : Continuation H} (h : (realm.enterGenerator g).1 = .ok body) :
    ∃ id, (realm.enterGenerator g).2.marks = Mark.push id realm.marks := by
  rcases realm.enterGenerator_cases g with ⟨_, heq⟩ | ⟨_, _, _, _, _, _, heq⟩
    | ⟨_, _, _, _, _, _, heq⟩
  · rw [heq] at h
    cases h
  · rw [heq] at h
    cases h
  · rw [heq]
    exact ⟨_, marks_pushContext realm _⟩

theorem marks_leaveGenerator (realm : Realm H) (g : ObjectId)
    (outcome : Except Failure (GeneratorStep × Continuation H)) :
    (realm.leaveGenerator g outcome).2.marks = Mark.pop realm.marks := by
  have hpop := realm.marks_pop
  rcases realm.leaveGenerator_cases g outcome with h | ⟨_, h⟩ <;> rw [h]
  · exact hpop
  · exact hpop

/-! ### The time limit, which generators do not touch -/

theorem untimed_startGenerator (realm : Realm H) (g : ObjectId) (body : Continuation H) :
    realm.Untimed (realm.startGenerator g body).2 := by
  rcases realm.startGenerator_cases g body with h | ⟨_, _, _, _, _, _, _, h⟩ <;> rw [h]
  · exact ⟨rfl, rfl, rfl⟩
  · exact ⟨rfl, rfl, rfl⟩

theorem untimed_cancelGenerator (realm : Realm H) (g : ObjectId) :
    realm.Untimed (realm.cancelGenerator g).2 := by
  rcases realm.cancelGenerator_cases g with h | ⟨_, _, _, h⟩ <;> rw [h]
  · exact .refl realm
  · exact ⟨rfl, rfl, rfl⟩

theorem untimed_enterGenerator (realm : Realm H) (g : ObjectId) :
    realm.Untimed (realm.enterGenerator g).2 := by
  rcases realm.enterGenerator_cases g with ⟨_, h⟩ | ⟨_, _, _, _, _, _, h⟩ | ⟨_, _, _, _, _, _, h⟩
    <;> rw [h]
  · exact .refl realm
  · exact ⟨rfl, rfl, rfl⟩
  · exact ⟨rfl, rfl, rfl⟩

theorem untimed_leaveGenerator (realm : Realm H) (g : ObjectId)
    (outcome : Except Failure (GeneratorStep × Continuation H)) :
    realm.Untimed (realm.leaveGenerator g outcome).2 := by
  have hpop := realm.untimed_changeContexts ContextStack.pop
  rcases realm.leaveGenerator_cases g outcome with h | ⟨_, h⟩ <;> rw [h]
  · exact hpop
  · exact hpop.trans ⟨rfl, rfl, rfl⟩

end Realm

/-! ### Running generators -/

/-- The data of an object that has to be a generator. -/
def ObjectId.generatorData (g : ObjectId) : Engine H (GeneratorData H) := do
  ofExcept ((← getRealm).generatorData g)

/-- The state of a generator. -/
def ObjectId.generatorState (g : ObjectId) : Engine H GeneratorState :=
  return (← g.generatorData).state

/-- Parks a body in a new generator. -/
def ObjectId.startGenerator (g : ObjectId) (body : Continuation H) : Engine H Unit :=
  transition
    { apply := fun realm => realm.startGenerator g body
      steps := fun realm => realm.steps_startGenerator g body
      restarts := fun realm => (realm.untimed_startGenerator g body).restarts }
    (fun realm _ => realm.conducts_startGenerator g body)
    (fun realm => realm.marks_startGenerator g body)
    fun realm => realm.untimed_startGenerator g body

/-- Completes a generator before its first step. -/
def ObjectId.cancelGenerator (g : ObjectId) : Engine H Unit :=
  transition
    { apply := fun realm => realm.cancelGenerator g
      steps := fun realm => realm.steps_cancelGenerator g
      restarts := fun realm => (realm.untimed_cancelGenerator g).restarts }
    (fun realm _ => realm.conducts_cancelGenerator g)
    (fun realm => realm.marks_cancelGenerator g)
    fun realm => realm.untimed_cancelGenerator g

/-- The generator of a value that is not running. -/
def Value.validateGenerator (v : Value) : Engine H (ObjectId × GeneratorState) := do
  match v with
  | .object g =>
    let state ← g.generatorState
    if state = .executing then typeError "Generator is already running"
    return (g, state)
  | v => typeError (v.inspect ++ " is not a generator object")

/-- Runs what is left of a generator up to its next step. -/
def Continuation.resume (body : Continuation H) (generator : ObjectId) (completion : Completion) :
    Engine H (GeneratorStep × Continuation H) := do
  match body with
  | .strings rest =>
    match completion, rest with
    | .throw v, _ => fail (.throwing v)
    | .return v, rest => return (.return v, .strings rest)
    | _, s :: rest => return (.yield (.string s), .strings rest)
    | _, [] => return (.return .undefined, .strings [])
  | .host body =>
    let (step, body) ← askHost (.resume body generator completion)
    return (step, .host body)

/-- Puts the context of a suspended generator on the stack and takes it off again. -/
def generatorBracket (g : ObjectId) :
    Bracket H (Continuation H) (GeneratorStep × Continuation H) GeneratorStep where
  enter :=
    { apply := fun realm => realm.enterGenerator g
      steps := fun realm => realm.steps_enterGenerator g
      restarts := fun realm => (realm.untimed_enterGenerator g).restarts }
  leave := fun _ outcome =>
    { apply := fun realm => realm.leaveGenerator g outcome
      steps := fun realm => realm.steps_leaveGenerator g outcome
      restarts := fun realm => (realm.untimed_leaveGenerator g outcome).restarts }
  refused := fun _ _ hr h => Realm.conducts_enterGenerator hr h
  advances := fun _ _ hr h => Realm.advances_enterGenerator hr h
  conducts := fun _ _ _ outcome hr h hm => hm.leaveGenerator hr h outcome

theorem generatorBracket_steady (g : ObjectId) : (generatorBracket (H := H) g).Steady where
  refused _ _ h := Realm.marks_enterGenerator_of_error h
  balanced _ _ middle outcome h hm := by
    obtain ⟨id, hstart⟩ := Realm.marks_enterGenerator h
    exact (middle.marks_leaveGenerator g outcome).trans
      ((hm.trans hstart) ▸ Mark.pop_push id _)

theorem generatorBracket_untimed (g : ObjectId) : (generatorBracket (H := H) g).Untimed where
  enter realm := realm.untimed_enterGenerator g
  leave _ outcome realm := realm.untimed_leaveGenerator g outcome

/-- Runs the body of a suspended generator in its context. -/
def ObjectId.inGenerator (g : ObjectId)
    (x : Continuation H → Engine H (GeneratorStep × Continuation H)) : Engine H GeneratorStep :=
  bracket (generatorBracket g) (generatorBracket_steady g) (generatorBracket_untimed g) x

/-- Resumes a suspended generator with a completion. -/
def ObjectId.runGenerator (g : ObjectId) (completion : Completion) : Engine H Value := do
  match ← g.inGenerator fun body => body.resume g completion with
  | .yield v => return .object (← iteratorResult v false)
  | .return v => return .object (← iteratorResult v true)

/-- Resumes a generator with a value. -/
def Value.resumeGenerator (generator v : Value) : Engine H Value := do
  let (g, state) ← generator.validateGenerator
  if state = .completed then return .object (← iteratorResult .undefined true)
  g.runGenerator (.normal v)

/-- The outcome of ending a generator that has completed. -/
def Completion.ofCompletedGenerator : Completion → Engine H Value
  | .return v => return .object (← iteratorResult v true)
  | .throw v => fail (.throwing v)
  | _ => internalError "generator resumed with a non-abrupt completion"

/-- Resumes a generator with a return or a throw; before its first step this completes it. -/
def Value.resumeGeneratorAbruptly (generator : Value) (completion : Completion) :
    Engine H Value := do
  let (g, state) ← generator.validateGenerator
  match state with
  | .suspendedStart =>
    g.cancelGenerator
    completion.ofCompletedGenerator
  | .completed => completion.ofCompletedGenerator
  | _ => g.runGenerator completion

/-- A new generator with a body. -/
def newGenerator (body : Continuation H) : Engine H ObjectId := do
  let g ← newObject (some (← intrinsic .generatorPrototype)) (.generator {})
  g.startGenerator body
  return g

end ScriptEngine
