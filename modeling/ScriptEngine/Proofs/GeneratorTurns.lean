import Mathlib.Logic.Relation
import ScriptEngine.Proofs.Conduct
import ScriptEngine.Proofs.Definition

/-!
# The turns of generators

A generator is started, runs up to a yield, is resumed, and completes in the end. Its context goes
to and fro between the generator and the stack, while the bodies of generators resume each other.
Since all that a run does to generators and contexts is a course of moves, the states change along
these moves and every generator has its context where its state says, at every point of a run.

What a generator does when it is resumed follows from its state. A suspended one has something left
to run, a running one refuses, and one that has completed only makes a result object, for which the
depth of calls has to allow two more levels.

## Main definitions

* `Realm.resultObject`, `Realm.resultOutcome`: the result object and how making it ends.
* `Realm.TakesTurns`: a generator with its context where it belongs.

## Main results

* `Control.Path.turns`: states change as states change.
* `ObjectId.inGenerator_endsIn`, `ObjectId.inGenerator_eq_error`: running a suspended generator ends
  as its body does.
* `generators_take_turns`: both for every run.
* `not_completed_gives_result`: at the limit of the depth of calls there is no result object.
-/

namespace ScriptEngine

open Engine

variable {H : HostTypes} {host : Host H} {bound : Nat} {realm after : Realm H} {g : ObjectId}
  {data : GeneratorData H}

/-! ### States -/

/-- A generator that has completed stays so. -/
theorem GeneratorState.eq_completed_of_turns {state : GeneratorState}
    (h : Relation.ReflTransGen GeneratorState.Turns .completed state) : state = .completed := by
  induction h with
  | refl => rfl
  | tail _ last ih =>
    subst ih
    cases last

/-- The state in which a generator is left with what came out of its body. -/
def GeneratorState.leftWith : Except Failure (GeneratorStep × Continuation H) → GeneratorState
  | .ok (.yield _, _) => .suspendedYield
  | _ => .completed

theorem GeneratorData.state_left (data : GeneratorData H) (context : Context (Frame H))
    (outcome : Except Failure (GeneratorStep × Continuation H)) :
    (data.left context outcome).state = GeneratorState.leftWith outcome := by
  match outcome with
  | .ok (.yield _, _) => rfl
  | .ok (.return _, _) => rfl
  | .error _ => rfl

namespace Control

variable {c after : Control H}

/-- The state that a generator is to start from, where it is not there yet. -/
def stateOrNone (c : Control H) (g : ObjectId) : GeneratorState := (c.state? g).getD .none

/-- Moves change the states of generators as states change, and a generator stays one. -/
theorem Path.turns (h : c.Path after) (g : ObjectId) :
    Relation.ReflTransGen GeneratorState.Turns (c.stateOrNone g) (after.stateOrNone g)
      ∧ ((c.state? g).isSome → (after.state? g).isSome) := by
  induction h with
  | refl => exact ⟨.refl, id⟩
  | tail _ last ih =>
    obtain ⟨hturns, hsome⟩ := ih
    unfold stateOrNone at hturns ⊢
    rcases last.turns g with heq | ⟨hnone, hnew⟩ | ⟨before, state, hbefore, hafter, hturn⟩
    · rw [heq]
      exact ⟨hturns, hsome⟩
    · rw [hnone] at hturns
      rw [hnew]
      exact ⟨hturns, fun _ => rfl⟩
    · rw [hbefore] at hturns
      rw [hafter]
      exact ⟨hturns.tail hturn, fun _ => rfl⟩

end Control

/-! ### Result objects -/

/-- A new object without properties. -/
def Realm.plainObject (realm : Realm H) : Object H :=
  .ofKind (some (realm.intrinsics.get .objectPrototype)) .ordinary

/-- A property that an assignment makes. -/
def Object.withPlain (object : Object H) (k : PropertyKey) (v : Value) : Object H :=
  { object with properties := object.properties.insert k (.plain v) }

/-- The object that reports a value, and whether it was the last. -/
def Realm.resultObject (realm : Realm H) (v : Value) (done : Bool) : Object H :=
  (realm.plainObject.withPlain (.string "value") v).withPlain (.string "done") (.bool done)

/-- The realm with one more object. -/
def Realm.withObject (realm : Realm H) (object : Object H) : Realm H :=
  { realm with heap := realm.heap.push object }

/-- How making a result object ends: at the limit of the depth of calls it fails, when the object is
there but has no properties. -/
def Realm.resultOutcome (realm : Realm H) (v : Value) (done : Bool) :
    EStateM.Result Stop (Realm H) Value :=
  if realm.deeper.AtLimit then
    .error .overflow (realm.withObject realm.plainObject)
  else .ok (.object ⟨realm.heap.size⟩) (realm.withObject (realm.resultObject v done))

theorem Realm.object?_withObject (realm : Realm H) (object : Object H) :
    (realm.withObject object).object? ⟨realm.heap.size⟩ = some object := by
  simp [object?, withObject]

theorem Realm.putObject_withObject (realm : Realm H) (object object' : Object H) :
    (realm.withObject object).putObject ⟨realm.heap.size⟩ object' = realm.withObject object' := by
  simp only [putObject, withObject]
  congr 1
  rw [Array.setIfInBounds_def, dif_pos (by simp)]
  simp [Array.set_push]

section Create

variable {o : ObjectId} {object : Object H} {k : PropertyKey}

/-- A property that is made on an ordinary object that has none of that key. -/
theorem ObjectId.createDataPropertyOrThrow_gives (ho : realm.object? o = some object)
    (hk : object.kind = .ordinary) (he : object.extensible) (hn : object.properties.get? k = none)
    (hl : ¬realm.deeper.AtLimit) (v : Value) :
    Gives 2 bound ((o.createDataPropertyOrThrow k v).act (.bounded host bound) realm)
      (.ok () (realm.putObject o (object.withPlain k v))) := by
  have haccepts : object.accepts k (.plain v) = true := by rwa [Object.accepts, hn]
  have hdefined : object.defined k (.plain v) = object.withPlain k v := by
    rw [Object.defined_of_accepts haccepts, Object.define, PropertyMap.define, hn]
    rfl
  have hdefine : Gives 2 bound ((o.createDataProperty k v).act (.bounded host bound) realm)
      (.ok true (realm.putObject o (object.withPlain k v))) := by
    rw [← hdefined, ← haccepts]
    exact ObjectId.defineOwnProperty_gives ho (by rw [hk]; rfl) (by rw [hk]; rfl)
      (by rw [hk]; rfl) rfl hl
  exact hdefine.bindEngine (.of_eq rfl)

theorem ObjectId.createDataPropertyOrThrow_gives_of_atLimit (ho : realm.object? o = some object)
    (hk : object.kind = .ordinary) (hl : realm.deeper.AtLimit) (v : Value) :
    Gives 2 bound ((o.createDataPropertyOrThrow k v).act (.bounded host bound) realm)
      (.error .overflow realm) :=
  (ObjectId.defineOwnProperty_gives_of_atLimit ho (by rw [hk]; rfl) (by rw [hk]; rfl)
    (by rw [hk]; rfl) rfl hl).bindEngine_error

/-- The last object of the heap gets another property. -/
theorem createDataPropertyOrThrow_withObject_gives (hl : ¬realm.deeper.AtLimit) (object : Object H)
    (k : PropertyKey) (v : Value) (hk : object.kind = .ordinary) (he : object.extensible)
    (hn : object.properties.get? k = none) :
    Gives 2 bound
      ((ObjectId.createDataPropertyOrThrow ⟨realm.heap.size⟩ k v).act (.bounded host bound)
        (realm.withObject object))
      (.ok () (realm.withObject (object.withPlain k v))) := by
  rw [← realm.putObject_withObject object (object.withPlain k v)]
  exact ObjectId.createDataPropertyOrThrow_gives (realm.object?_withObject object) hk he hn hl v

end Create

/-- Making a result object. -/
theorem iteratorResult_gives (realm : Realm H) (v : Value) (done : Bool) :
    Gives 2 bound
      ((do return Value.object (← iteratorResult v done)).act (.bounded host bound) realm)
      (realm.resultOutcome v done) := by
  have hnew : (newPlain : Engine H ObjectId).act (.bounded host bound) realm
      = .ok ⟨realm.heap.size⟩ (realm.withObject realm.plainObject) := rfl
  unfold Realm.resultOutcome
  split
  · next hl =>
    have hvalue : Gives 2 bound
        ((ObjectId.createDataPropertyOrThrow ⟨realm.heap.size⟩ (.string "value") v).act
          (.bounded host bound) (realm.withObject realm.plainObject))
        (.error .overflow (realm.withObject realm.plainObject)) :=
      ObjectId.createDataPropertyOrThrow_gives_of_atLimit (realm.object?_withObject _) rfl hl v
    exact (Gives.bindEngine (.of_eq hnew) hvalue.bindEngine_error).bindEngine_error
  · next hl =>
    have hnone : (realm.plainObject.withPlain (.string "value") v).properties.get? (.string "done")
        = none := by
      rw [Object.withPlain, PropertyMap.get?_insert_of_ne (by decide)]
      rfl
    refine Gives.bindEngine (Gives.bindEngine (.of_eq hnew) ?_) (.of_eq rfl)
    refine Gives.bindEngine (createDataPropertyOrThrow_withObject_gives hl realm.plainObject
      (.string "value") v rfl rfl rfl) ?_
    exact Gives.bindEngine (createDataPropertyOrThrow_withObject_gives hl _ (.string "done")
      (.bool done) rfl rfl hnone) (.of_eq rfl)

/-! ### Resuming generators -/

section Resume

variable {s : Surroundings H}

theorem ObjectId.generatorState_eq (hg : realm.control.generator? g = some data) :
    g.generatorState.act s realm = .ok data.state realm := by
  have hdata : realm.seen.generatorData g = .ok data := Realm.generatorData_eq_ok.mpr hg
  have hok : g.generatorData.act s realm = .ok data realm := by
    unfold ObjectId.generatorData
    rw [Engine.bind_of_ok (getRealm_eq s realm), hdata]
    rfl
  unfold ObjectId.generatorState
  rw [Engine.bind_of_ok hok]
  rfl

theorem Value.validateGenerator_eq (hg : realm.control.generator? g = some data)
    (hs : data.state ≠ .executing) :
    (Value.object g).validateGenerator.act s realm = .ok (g, data.state) realm := by
  unfold Value.validateGenerator
  rw [Engine.bind_of_ok (ObjectId.generatorState_eq hg), if_neg hs]
  rfl

theorem Value.validateGenerator_of_executing (hg : realm.control.generator? g = some data)
    (hs : data.state = .executing) :
    (Value.object g).validateGenerator.act s realm
      = .error (.failure (.typeError "Generator is already running")) realm := by
  unfold Value.validateGenerator
  rw [Engine.bind_of_ok (ObjectId.generatorState_eq hg), if_pos hs]
  rfl

/-- A generator that is running refuses to be resumed. -/
theorem Value.resume_of_executing (hg : realm.control.generator? g = some data)
    (hs : data.state = .executing) (v : Value) (completion : Completion) :
    ((Value.object g).resumeGenerator v).act s realm
        = .error (.failure (.typeError "Generator is already running")) realm
      ∧ ((Value.object g).resumeGeneratorAbruptly completion).act s realm
        = .error (.failure (.typeError "Generator is already running")) realm :=
  ⟨Engine.bind_of_error (Value.validateGenerator_of_executing hg hs),
    Engine.bind_of_error (Value.validateGenerator_of_executing hg hs)⟩

/-- A generator that has completed only makes a result object, or throws what it is given. -/
theorem Value.resume_of_completed (hg : realm.control.generator? g = some data)
    (hs : data.state = .completed) (v : Value) :
    ((Value.object g).resumeGenerator v).act s realm
        = (do return Value.object (← iteratorResult .undefined true)).act s realm
      ∧ ((Value.object g).resumeGeneratorAbruptly (.return v)).act s realm
        = (do return Value.object (← iteratorResult v true)).act s realm
      ∧ ((Value.object g).resumeGeneratorAbruptly (.throw v)).act s realm
        = .error (.failure (.throwing v)) realm := by
  have hvalidate : (Value.object g).validateGenerator.act s realm = .ok (g, .completed) realm :=
    hs ▸ Value.validateGenerator_eq hg (by simp [hs])
  exact ⟨Engine.bind_of_ok hvalidate, Engine.bind_of_ok hvalidate, Engine.bind_of_ok hvalidate⟩

end Resume

namespace Realm

theorem enterGenerator_atDepth (realm : Realm H) (g : ObjectId) (depth : Nat) :
    (realm.atDepth depth).enterGenerator g
      = ((realm.enterGenerator g).1, (realm.enterGenerator g).2.atDepth depth) := by
  have hdata : (realm.atDepth depth).generatorData g = realm.generatorData g := rfl
  unfold enterGenerator
  rw [hdata]
  split
  · rfl
  split
  · rfl
  split
  · rfl
  · rfl

/-- What waits in a suspended generator is there to be run. -/
theorem enterGenerator_of_suspended (hr : realm.control.Tidy)
    (hg : realm.control.generator? g = some data) (hs : data.state.isSuspended) :
    ∃ body, (realm.enterGenerator g).1 = .ok body := by
  obtain ⟨context, hc, hp⟩ := (hr.fits g data hg).parked hs
  obtain ⟨body, hb⟩ := Option.isSome_iff_exists.mp hp.continuation
  refine ⟨body, ?_⟩
  simp only [enterGenerator, generatorData_eq_ok.mpr hg, hc, hb]

/-- A generator whose context is on top is left with what came out of it: a yield parks it, and
anything else completes it. -/
theorem leaveGenerator_of_top {top : Outline} {rest : List Outline} (hr : realm.control.Tidy)
    (hc : realm.control.stack = top :: rest) (ht : top.generator = some g)
    (outcome : Except Failure (GeneratorStep × Continuation H)) :
    (realm.leaveGenerator g outcome).1 = outcome.map Prod.fst
      ∧ (realm.leaveGenerator g outcome).2.control.state? g
        = some (GeneratorState.leftWith outcome) := by
  obtain ⟨context, hok, -, hpop⟩ := control_pop hc
  obtain ⟨data, hg, -⟩ := hr.executing_of_mem (hc ▸ List.mem_cons_self) ht
  have hg' : (realm.changeContexts ContextStack.pop).2.control.generator? g = some data := by
    rw [hpop]
    exact hg
  rw [leaveGenerator_of_pop hok hg' outcome]
  refine ⟨rfl, ?_⟩
  rw [control_setGenerator _ hg', Control.state?_withGenerator, if_pos rfl,
    GeneratorData.state_left]

end Realm

/-- A suspended generator that was run has the state in which its body left it, and the outcome is
that of the body. -/
theorem ObjectId.inGenerator_endsIn
    {x : Continuation H → Engine H (GeneratorStep × Continuation H)}
    (hm : H.movesContexts = false) (hr : realm.Tidy)
    (hg : realm.control.generator? g = some data) (hs : data.state.isSuspended)
    (he : EndsIn ((g.inGenerator x).run host bound realm) after) (hd : after.disposed = false) :
    ∃ body outcome inner, (realm.enterGenerator g).1 = .ok body
      ∧ (attempt (x body)).run host bound (realm.enterGenerator g).2 = .ok outcome inner
      ∧ (attempt (g.inGenerator x)).run host bound realm = .ok (outcome.map Prod.fst) after
      ∧ after.control.state? g = some (GeneratorState.leftWith outcome) := by
  have htidy := hr.control hm ((Routine.conducts_run hr he).usable hd)
  obtain ⟨body, hbody⟩ := Realm.enterGenerator_of_suspended htidy hg hs
  have hseen : (realm.seen.enterGenerator g).1 = .ok body := by
    rw [Realm.seen, Realm.enterGenerator_atDepth]
    exact hbody
  have hstart : (realm.seen.enterGenerator g).2.atDepth realm.callDepth
      = (realm.enterGenerator g).2 := by
    have hsame := realm.enterGenerator_atDepth g realm.callDepth
    rw [Realm.seen, Realm.enterGenerator_atDepth]
    exact (congrArg Prod.snd hsame).symm
  obtain ⟨outcome, middle, hx, hrun⟩ := Routine.bracket_endsIn he hseen
  replace hx : (attempt (x body)).run host bound (realm.enterGenerator g).2 = .ok outcome middle :=
    hstart ▸ hx
  -- the context of the generator is on top again when its body has ended
  have hleave (hmd : middle.disposed = false) :
      (middle.seen.leaveGenerator g outcome).1 = outcome.map Prod.fst
        ∧ (middle.seen.leaveGenerator g outcome).2.control.state? g
          = some (GeneratorState.leftWith outcome) := by
    have hadvances := Realm.advances_enterGenerator hr hbody
    have hconducts := Routine.conducts_run (hadvances.tidy hr) (.inl ⟨_, hx⟩)
    obtain ⟨-, top, hstack, htop⟩ := Realm.move_enterGenerator htidy hbody
    have hmiddle : middle.seen.control.Tidy :=
      (hconducts.tidy (hadvances.tidy hr)).control hm hmd
    have hsame : middle.seen.control.stack = top :: realm.control.stack :=
      (hconducts.control hm hmd).stack.trans hstack
    exact Realm.leaveGenerator_of_top hmiddle hsame htop outcome
  refine ⟨body, outcome, middle, hbody, hx, ?_⟩
  rcases he with ⟨step, he⟩ | ⟨f, he⟩
  · obtain ⟨hok, rfl⟩ := Action.transition_eq_ok (hrun.symm.trans he)
    obtain ⟨hfst, hstate⟩ := hleave (middle.seen.disposed_leaveGenerator g outcome ▸ hd)
    have hstep : outcome.map Prod.fst = .ok step := hfst.symm.trans hok
    exact ⟨hstep ▸ Engine.attempt_of_ok he, hstate⟩
  · obtain ⟨hfailed, rfl⟩ := Action.transition_eq_error (hrun.symm.trans he)
    obtain ⟨hfst, hstate⟩ := hleave (middle.seen.disposed_leaveGenerator g outcome ▸ hd)
    have hfailure : outcome.map Prod.fst = .error f := hfst.symm.trans hfailed
    exact ⟨hfailure ▸ Engine.attempt_of_failure he, hstate⟩

/-- Running a suspended generator fails only as its body does. -/
theorem ObjectId.inGenerator_eq_error
    {x : Continuation H → Engine H (GeneratorStep × Continuation H)} {f : Failure}
    (hm : H.movesContexts = false) (hr : realm.Tidy) (hd : after.disposed = false)
    (hg : realm.control.generator? g = some data) (hs : data.state.isSuspended)
    (h : (g.inGenerator x).run host bound realm = .error (.failure f) after) :
    ∃ body inner, (realm.enterGenerator g).1 = .ok body
      ∧ (x body).run host bound (realm.enterGenerator g).2 = .error (.failure f) inner := by
  obtain ⟨body, outcome, inner, hbody, hx, hrun, -⟩ :=
    ObjectId.inGenerator_endsIn hm hr hg hs (.inr ⟨f, h⟩) hd
  have hfailure : outcome.map Prod.fst = .error f :=
    (EStateM.Result.ok.inj (hrun.symm.trans (Engine.attempt_of_failure h))).1
  rcases Action.attempt_eq_ok hx with ⟨step, rfl, -⟩ | ⟨f', rfl, hfails⟩
  · cases hfailure
  · cases hfailure
    exact ⟨body, inner, hbody, hfails⟩

/-! ### Generators in a run -/

/-- A generator with its context where it belongs, and what becomes of it when it is resumed. -/
structure Realm.TakesTurns (host : Host H) (realm : Realm H) (g : ObjectId)
    (data : GeneratorData H) : Prop where
  parked : (∃ context, data.context = some context ∧ context.frame.generator = some g
    ∧ context.frame.continuation.isSome) ↔ data.state.isSuspended
  unparked : data.state.isSuspended = false → data.context = none
  runs : realm.control.runs g = if data.state = .executing then 1 else 0
  enters : data.state.isSuspended → ∃ body, (realm.enterGenerator g).1 = .ok body
  /-- Running it fails only as its body does. -/
  fails : data.state.isSuspended → ∀ bound completion f after,
    (g.inGenerator fun body => body.resume g completion).run host bound realm
      = .error (.failure f) after → after.disposed = false →
    ∃ body inner, (realm.enterGenerator g).1 = .ok body
      ∧ (body.resume g completion).run host bound (realm.enterGenerator g).2
        = .error (.failure f) inner
  executing : data.state = .executing → ∀ bound v completion,
    ((Value.object g).resumeGenerator v).run host bound realm
        = .error (.failure (.typeError "Generator is already running")) realm
      ∧ ((Value.object g).resumeGeneratorAbruptly completion).run host bound realm
        = .error (.failure (.typeError "Generator is already running")) realm
  completed : data.state = .completed → ∀ bound v, 2 ≤ bound →
    ((Value.object g).resumeGenerator v).run host bound realm
        = realm.resultOutcome .undefined true
      ∧ ((Value.object g).resumeGeneratorAbruptly (.return v)).run host bound realm
        = realm.resultOutcome v true
      ∧ ((Value.object g).resumeGeneratorAbruptly (.throw v)).run host bound realm
        = .error (.failure (.throwing v)) realm

theorem Realm.Tidy.takesTurns (hr : realm.Tidy) (hm : H.movesContexts = false)
    (hd : realm.disposed = false) (hg : realm.control.generator? g = some data) (host : Host H) :
    realm.TakesTurns host g data := by
  have hfits := (hr.control hm hd).fits g data hg
  refine ⟨⟨fun ⟨context, hc, _⟩ => ?_, fun hs => ?_⟩, hfits.unparked, hfits.runs_eq,
    Realm.enterGenerator_of_suspended (hr.control hm hd) hg,
    fun hs bound completion f after h hd' => ObjectId.inGenerator_eq_error hm hr hd' hg hs h,
    fun hs bound v completion => Value.resume_of_executing hg hs v completion,
    fun hs bound v hb => ?_⟩
  · cases hs : data.state.isSuspended with
    | true => rfl
    | false => cases hc.symm.trans (hfits.unparked hs)
  · obtain ⟨context, hc, hp⟩ := hfits.parked hs
    exact ⟨context, hc, hp.generator, hp.continuation⟩
  · obtain ⟨hnext, hreturn, hthrow⟩ := Value.resume_of_completed hg hs v
    exact ⟨hnext.trans ((iteratorResult_gives realm _ true).eq_of_le hb),
      hreturn.trans ((iteratorResult_gives realm v true).eq_of_le hb), hthrow⟩

/-- From one realm of a run to a later one the states of generators change as states change, and
what has completed stays so. In every realm of a run, also where generators are running, each has
its context where it belongs. -/
theorem generators_take_turns (host : Host H) (hm : H.movesContexts = false)
    (hr : realm.Arises host) (hp : realm.Proceeds host after) (hd : after.disposed = false)
    (g : ObjectId) :
    Relation.ReflTransGen GeneratorState.Turns (realm.control.stateOrNone g)
        (after.control.stateOrNone g)
      ∧ ((realm.control.state? g).isSome → (after.control.state? g).isSome)
      ∧ (realm.control.state? g = some .completed → after.control.state? g = some .completed)
      ∧ ∀ data, after.control.generator? g = some data → after.TakesTurns host g data := by
  obtain ⟨hturns, hsome⟩ := ((hp.advances hr.tidy).control hm hd).turns g
  refine ⟨hturns, hsome, fun hc => ?_, fun data hg =>
    (hr.proceeds hp).tidy.takesTurns hm hd hg host⟩
  obtain ⟨state, hstate⟩ := Option.isSome_iff_exists.mp (hsome (by rw [hc]; rfl))
  rw [Control.stateOrNone, Control.stateOrNone, hc, hstate] at hturns
  exact hstate.trans (congrArg some (GeneratorState.eq_completed_of_turns hturns))

/-! ### A realm with a generator -/

/-- The types of a host without a program that leaves contexts to the engine. -/
def HostTypes.still : HostTypes := { HostTypes.bare with movesContexts := false }

/-- A host without a program that leaves contexts to the engine. -/
def Host.still : Host HostTypes.still := .idle ()

/-- A blank realm with a limit on the depth of calls. -/
def limitedRealm (limit : Nat) : Realm HostTypes.still :=
  { config := { maxCallDepth := limit }, store := () }

/-- Makes a generator that goes through some texts. -/
def newTextGenerator (texts : List String) : Engine HostTypes.still ObjectId := do
  let g ← newObject none (.generator {})
  g.startGenerator (.strings texts)
  return g

/-- The context of the generator while it waits for its first step. -/
def textContext (texts : List String) : Context (Frame HostTypes.still) :=
  { id := 2
    frame :=
      { lexicalEnvironment := some ⟨0⟩
        generator := some ⟨0⟩
        continuation := some (.strings texts) } }

/-- A realm with one generator. -/
def generatorRealm (limit : Nat) (data : GeneratorData HostTypes.still) : Realm HostTypes.still :=
  let rooted := (limitedRealm limit).withRootContext
  { rooted with
    heap := #[.ofKind none (.generator data)]
    contexts := (rooted.contexts.newContext {}).2 }

/-- The realm with the generator before its first step. -/
def startedRealm (limit : Nat) (texts : List String) : Realm HostTypes.still :=
  generatorRealm limit { state := .suspendedStart, context := some (textContext texts) }

theorem newTextGenerator_run (limit : Nat) (texts : List String) :
    (newTextGenerator texts).run Host.still 0 (limitedRealm limit).withRootContext
      = .ok ⟨0⟩ (startedRealm limit texts) := rfl

theorem startedRealm_arises (limit : Nat) (texts : List String) :
    (startedRealm limit texts).Arises Host.still := by
  have rooted : (limitedRealm limit).Proceeds Host.still (limitedRealm limit).withRootContext :=
    .root .refl (.ok ()) fun _ _ => rfl
  exact ⟨limitedRealm limit, ⟨rfl, rfl, rfl, rfl, rfl⟩,
    rooted.run 0 (newTextGenerator texts) (.inl ⟨_, newTextGenerator_run limit texts⟩)⟩

/-- Inside of its first step a generator is running, its context is on the stack, and it refuses to
be resumed. -/
theorem generators_take_turns_startedRealm :
    HostTypes.still.movesContexts = false
      ∧ (startedRealm 2 ["a"]).Arises Host.still
      ∧ ∃ after, (startedRealm 2 ["a"]).Proceeds Host.still after ∧ after.disposed = false
        ∧ (startedRealm 2 ["a"]).control.stateOrNone ⟨0⟩ = .suspendedStart
        ∧ after.control.stateOrNone ⟨0⟩ = .executing
        ∧ after.control.runs ⟨0⟩ = 1
        ∧ ((Value.object ⟨0⟩).resumeGenerator .undefined).run Host.still 0 after
          = .error (.failure (.typeError "Generator is already running")) after := by
  have hp : (startedRealm 2 ["a"]).Proceeds Host.still
      ((startedRealm 2 ["a"]).enterGenerator ⟨0⟩).2 :=
    .enter .refl (generatorBracket ⟨0⟩) rfl
  obtain ⟨-, -, -, hall⟩ :=
    generators_take_turns Host.still rfl (startedRealm_arises 2 ["a"]) hp rfl ⟨0⟩
  have hdata := hall { state := .executing } rfl
  exact ⟨rfl, startedRealm_arises 2 ["a"], _, hp, rfl, rfl, rfl, hdata.runs,
    (hdata.executing rfl 0 .undefined (.return .undefined)).1⟩

/-- The realm with the generator completed. -/
def completedRealm (limit : Nat) : Realm HostTypes.still :=
  generatorRealm limit { state := .completed }

theorem completedRealm_arises (limit : Nat) : (completedRealm limit).Arises Host.still := by
  have cancelled : (ObjectId.cancelGenerator ⟨0⟩).run Host.still 0 (startedRealm limit [])
      = .ok () (completedRealm limit) := rfl
  exact (startedRealm_arises limit []).proceeds
    (.run .refl 0 (ObjectId.cancelGenerator ⟨0⟩).toRoutine (.inl ⟨_, cancelled⟩))

/-- At the limit of the depth of calls a generator that has completed gives no result object. -/
theorem not_completed_gives_result :
    ¬∀ (host : Host HostTypes.still) (realm : Realm HostTypes.still) (g : ObjectId),
      realm.Arises host → realm.disposed = false →
      realm.control.state? g = some .completed →
      ∃ bound o after, ((Value.object g).resumeGenerator .undefined).run host bound realm
        = .ok (.object o) after := by
  intro h
  obtain ⟨bound, o, after, hrun⟩ :=
    h Host.still (completedRealm 1) ⟨0⟩ (completedRealm_arises 1) rfl rfl
  have hg : (completedRealm 1).control.generator? ⟨0⟩ = some { state := .completed } := rfl
  obtain ⟨hnext, -, -⟩ := Value.resume_of_completed hg rfl .undefined
  have hok := (iteratorResult_gives _ .undefined true).eq_of_ok (hnext.symm.trans hrun)
  have hlimit : (completedRealm 1).deeper.AtLimit := by decide
  rw [Realm.resultOutcome, if_pos hlimit] at hok
  cases hok

end ScriptEngine
