import ScriptEngine.Engine

/-!
# Access to the state of a realm

Reading and changing single objects, scopes, contexts, intrinsics and symbols of the realm that a
computation runs in. A handle that points to nothing is an internal error.

## Main definitions

* `Action.modifyObject`: writing to one object.
* `Engine.getObject`, `Engine.modifyKind`, `Engine.allocate`: the objects.
* `Engine.getEnvironment`, `Engine.modifyEnvironment`, `Engine.newEnvironment`: the scopes.
* `Engine.inContext`, `Engine.changeContexts`, `Engine.setRunningScope`, `Engine.runningContext`:
  the contexts.
* `Engine.newSymbol`, `Engine.symbolFor`, `Engine.keyFor?`: the symbols.
-/

namespace ScriptEngine

variable {H : HostTypes} {α : Type}

/-! ### New objects -/

namespace ObjectKind

variable {kind : ObjectKind H}

theorem isArray_of_isNew (h : kind.isNew) : kind.isArray = false := by
  cases kind with
  | array => cases h
  | _ => rfl

theorem promise?_of_isNew (h : kind.isNew) : kind.promise? = none := by
  cases kind with
  | promise => cases h
  | _ => rfl

/-- A new generator has not started. -/
theorem generator?_of_isNew (h : kind.isNew) :
    kind.generator? = none ∨ kind.generator? = some {} := by
  cases kind with
  | generator data =>
    obtain ⟨state, context⟩ := data
    obtain ⟨rfl, rfl⟩ : state = .none ∧ context = none := by simpa [isNew] using h
    exact .inr rfl
  | _ => exact .inl rfl

end ObjectKind

namespace Object

theorem Sound.ofKind (prototype : Option ObjectId) (kind : ObjectKind H) :
    (Object.ofKind prototype kind).Sound where
  storable k d h := by simp [Object.ofKind] at h
  unshadowed k _ := by simp [Object.ofKind]
  lengthless _ := by simp [Object.ofKind]

theorem InOrder.of_not_isArray {object : Object H} (h : object.kind.isArray = false) :
    object.InOrder :=
  fun ha => absurd ha (by simp [h])

/-- A new object with a property that its kind calls for. -/
def ofKindWith (prototype : Option ObjectId) (kind : ObjectKind H) (k : PropertyKey)
    (d : Descriptor) (extensible : Bool := true) : Object H :=
  { prototype, extensible, kind, properties := ({} : PropertyMap).insert k d }

theorem Sound.ofKindWith (prototype : Option ObjectId) {kind : ObjectKind H} {k : PropertyKey}
    {d : Descriptor} (extensible : Bool) (hd : d.isStorable) (hu : kind.unitProperty? k = none)
    (hk : kind.isPlain ∨ k ≠ lengthKey) :
    (Object.ofKindWith prototype kind k d extensible).Sound where
  storable k' d' h := by
    simp only [Object.ofKindWith, PropertyMap.get?_insert, PropertyMap.get?_empty] at h
    split at h
    · cases h
      exact hd
    · cases h
  unshadowed k' h := by
    have hne : k' ≠ k := fun heq => by simp [Object.ofKindWith, heq, hu] at h
    simp only [Object.ofKindWith, PropertyMap.get?_insert, PropertyMap.get?_empty, if_neg hne]
  lengthless h := by
    have hne : lengthKey ≠ k := by
      rcases hk with hp | hne
      · simp [Object.ofKindWith, hp] at h
      · exact hne.symm
    simp only [Object.ofKindWith, PropertyMap.get?_insert, PropertyMap.get?_empty, if_neg hne]

end Object

/-! ### Contexts on the stack -/

/-- The context with another scope to resolve names in. -/
def Context.withScope (c : Context (Frame H)) (e : Option EnvironmentId) : Context (Frame H) :=
  { c with frame := { c.frame with lexicalEnvironment := e } }

theorem Context.outline_withScope (c : Context (Frame H)) (e : Option EnvironmentId) :
    (c.withScope e).outline = c.outline :=
  rfl

theorem Context.mark_withScope (c : Context (Frame H)) (e : Option EnvironmentId) :
    (c.withScope e).mark = c.mark :=
  rfl

namespace Realm

variable {realm middle : Realm H} {frame : Frame H}

/-- Changes the stack of contexts, if that succeeds, with a look at the clock. -/
def changeContexts (realm : Realm H)
    (f : ContextStack (Frame H) → (now : Nat) → Except Failure (α × ContextStack (Frame H))) :
    Except Failure α × Realm H :=
  match f realm.contexts realm.clock with
  | .ok (a, contexts) => (.ok a, { realm.looked with contexts })
  | .error failure => (.error failure, realm)

/-- The realm with a context on top of the stack, after a look at the clock. -/
def pushContext (realm : Realm H) (context : Context (Frame H)) : Realm H :=
  { realm.looked with contexts := realm.contexts.push context realm.clock }

/-- The realm with a new context on top of the stack. -/
def withNewContext (realm : Realm H) (frame : Frame H) : Realm H :=
  let (context, contexts) := realm.contexts.newContext frame
  ({ realm with contexts } : Realm H).pushContext context

theorem beside_changeContexts (realm : Realm H)
    (f : ContextStack (Frame H) → Nat → Except Failure (α × ContextStack (Frame H))) :
    realm.Beside (realm.changeContexts f).2 := by
  unfold changeContexts
  split <;> exact ⟨rfl, rfl, rfl⟩

theorem untimed_changeContexts (realm : Realm H)
    (f : ContextStack (Frame H) → Nat → Except Failure (α × ContextStack (Frame H))) :
    realm.Untimed (realm.changeContexts f).2 := by
  unfold changeContexts
  split <;> exact ⟨rfl, rfl, rfl⟩

theorem ledger_changeContexts (realm : Realm H)
    (f : ContextStack (Frame H) → Nat → Except Failure (α × ContextStack (Frame H))) :
    (realm.changeContexts f).2.ledger = realm.ledger := by
  unfold changeContexts
  split <;> rfl

/-- Changes that leave the contexts in order leave the control as it is. -/
theorem control_changeContexts
    {f : ContextStack (Frame H) → Nat → Except Failure (α × ContextStack (Frame H))}
    (h : ∀ contexts contexts' a now, f contexts now = .ok (a, contexts') →
      contexts'.outline = contexts.outline ∧ contexts'.lastId = contexts.lastId) :
    (realm.changeContexts f).2.control = realm.control := by
  unfold changeContexts
  split
  · next a contexts heq =>
    obtain ⟨houtline, hid⟩ := h _ _ _ _ heq
    simp only [control, houtline, hid]
    rfl
  · rfl

theorem control_pushContext (realm : Realm H) (context : Context (Frame H)) :
    (realm.pushContext context).control
      = { realm.control with stack := context.outline :: realm.control.stack } := by
  simp only [control, pushContext, ContextStack.outline_push, ContextStack.lastId_push]
  rfl

theorem control_withNewContext (realm : Realm H) (plain : frame.generator = none) :
    (realm.withNewContext frame).control
      = { realm.control with
          stack := ⟨realm.control.lastId + 1, none⟩ :: realm.control.stack
          lastId := realm.control.lastId + 1 } := by
  simp only [withNewContext, control_pushContext, ContextStack.newContext, Context.outline, plain]
  rfl

/-- What the top of the stack was is taken off. -/
theorem control_pop {top : Outline} {rest : List Outline} (h : realm.control.stack = top :: rest) :
    ∃ context, (realm.changeContexts ContextStack.pop).1 = .ok context ∧ context.outline = top
      ∧ (realm.changeContexts ContextStack.pop).2.control
        = { realm.control with stack := rest } := by
  obtain ⟨context, contexts, hpop⟩ := ContextStack.pop_of_outline h realm.clock
  obtain ⟨houtline, hid⟩ := ContextStack.outline_of_pop hpop
  obtain ⟨htop, hrest⟩ := List.cons.inj (houtline.symm.trans h)
  unfold changeContexts
  rw [hpop]
  refine ⟨context, rfl, htop, ?_⟩
  simp only [control, hid, hrest]
  rfl

theorem marks_pushContext (realm : Realm H) (context : Context (Frame H)) :
    (realm.pushContext context).marks = Mark.push context.id realm.marks :=
  realm.contexts.marks_push context realm.clock

theorem marks_withNewContext (realm : Realm H) (frame : Frame H) :
    (realm.withNewContext frame).marks = Mark.push (realm.contexts.lastId + 1) realm.marks :=
  marks_pushContext _ _

/-- The top is taken off, if there is one. -/
theorem marks_pop (realm : Realm H) :
    (realm.changeContexts ContextStack.pop).2.marks = Mark.pop realm.marks := by
  unfold changeContexts
  split
  · next context contexts hpop => exact ContextStack.marks_of_pop hpop
  · next f hpop =>
    have hempty : realm.marks = [] := ContextStack.marks_of_pop_error hpop
    rw [hempty]
    rfl

/-- A computation between putting a new context on the stack and taking it off. -/
theorem Conducts.pop (plain : frame.generator = none)
    (h : (realm.withNewContext frame).Conducts middle) :
    realm.Conducts (middle.changeContexts ContextStack.pop).2 where
  usable hd := h.usable ((middle.beside_changeContexts _).disposed ▸ hd)
  ledger hd := middle.ledger_changeContexts _ ▸ h.ledger
    ((middle.beside_changeContexts _).disposed ▸ hd)
  control hm hd := by
    have hmiddle := h.control hm ((middle.beside_changeContexts _).disposed ▸ hd)
    rw [realm.control_withNewContext plain] at hmiddle
    obtain ⟨context, -, -, hpop⟩ := control_pop hmiddle.stack
    rw [hpop]
    exact hmiddle.between (.push realm.control) (.pop middle.control _ _ hmiddle.stack rfl) rfl

end Realm

/-! ### Writing to one object -/

namespace Action

/-- Changes the object of a handle. -/
def modifyObject (o : ObjectId) (f : Object H → Object H) : Action H Unit := fun _ realm =>
  match realm.object? o with
  | some object => .ok () (realm.putObject o (f object))
  | none => .error (.failure (.internal ("dangling object handle " ++ o.text))) realm

theorem lawful_modifyObject {o : ObjectId} {f : Object H → Object H}
    (h : ∀ object, object.Changes (f object) ∧ (object.InOrder → (f object).InOrder)) :
    (modifyObject o f).Lawful := by
  intro _ _ realm _
  unfold modifyObject
  split
  · next object ho =>
    exact (Realm.Step.update realm o ho (h object).1 fun _ => (h object).2).leads rfl
  · exact .refl realm

theorem blind_modifyObject (o : ObjectId) (f : Object H → Object H) : (modifyObject o f).Blind := by
  refine fun _ _ => ⟨fun realm => ?_, fun realm _ depth => ?_⟩
  · unfold modifyObject
    split
    · rfl
    · rfl
  · unfold modifyObject
    rw [Realm.object?_atDepth]
    cases realm.object? o with
    | some object => rfl
    | none => rfl

theorem steady_modifyObject (o : ObjectId) (f : Object H → Object H) :
    (modifyObject o f).Steady := by
  intro _ _ realm
  unfold modifyObject
  split
  · exact rfl
  · exact rfl

theorem untimed_modifyObject (o : ObjectId) (f : Object H → Object H)
    (surroundings : Surroundings H) (realm : Realm H) :
    realm.Untimed (outcomeRealm (modifyObject o f surroundings realm)) := by
  unfold modifyObject
  split
  · exact ⟨rfl, rfl, rfl⟩
  · exact .refl realm

theorem timed_modifyObject (o : ObjectId) (f : Object H → Object H) {evaluates : Bool} :
    (modifyObject o f).Timed evaluates :=
  .own _ (fun _ _ _ => rfl) (untimed_modifyObject o f)

theorem conducted_modifyObject {o : ObjectId} {f : Object H → Object H}
    (h : ∀ object, (f object).kind.promise? = object.kind.promise?
      ∧ (f object).kind.generator? = object.kind.generator?) : (modifyObject o f).Conducted := by
  intro _ _ realm _
  unfold modifyObject
  split
  · next object ho => exact Realm.conducts_putObject ho (h object).1 (h object).2
  · exact .refl realm

end Action

namespace Engine

/-! ### Objects -/

/-- The internal error for a handle of no object. -/
def danglingObject (o : ObjectId) : Engine H α :=
  internalError ("dangling object handle " ++ o.text)

/-- The object of a handle. -/
def getObject (o : ObjectId) : Engine H (Object H) := do
  match (← getRealm).object? o with
  | some object => pure object
  | none => danglingObject o

/-- The kind of an object. -/
def getKind (o : ObjectId) : Engine H (ObjectKind H) := return (← getObject o).kind

/-- Changes the data of the kind of an object that is neither promise nor generator. -/
def modifyKind (o : ObjectId) (f : ObjectKind H → ObjectKind H)
    (becomes : ∀ kind, f kind = kind ∨ kind.Becomes (f kind) ∧ kind.promise? = none
      ∧ kind.generator? = none) : Engine H Unit where
  act := Action.modifyObject o fun object => { object with kind := f object.kind }
  lawful := Action.lawful_modifyObject fun object => by
    rcases becomes object.kind with h | ⟨h, -⟩
    · rw [h]
      exact ⟨.refl object, id⟩
    · exact ⟨.tail (.refl object) (.become object _ h), fun ho ha => ho (h.isArray ▸ ha)⟩
  blind := fun _ => Action.blind_modifyObject o _
  conducted := Action.conducted_modifyObject fun object => by
    rcases becomes object.kind with h | ⟨h, hp, hg⟩
    · rw [h]
      exact ⟨rfl, rfl⟩
    · exact ⟨(h.promise?_eq_none hp).trans hp.symm, (h.generator?_eq_none hg).trans hg.symm⟩
  steady := Action.steady_modifyObject o _
  within := Action.timed_modifyObject o _

/-- Puts a new object on the heap. -/
def allocate (object : Object H) (sound : object.Sound) (inOrder : object.InOrder)
    (promise : object.kind.promise? = none := by rfl)
    (generator : object.kind.generator? = none ∨ object.kind.generator? = some {} := by
      exact .inl rfl) :
    Engine H ObjectId where
  act := fun _ realm => .ok ⟨realm.heap.size⟩ { realm with heap := realm.heap.push object }
  lawful := fun _ _ realm _ => (Realm.Step.allocate realm object sound inOrder).leads rfl
  blind := fun _ _ _ => ⟨fun _ => rfl, fun _ _ _ => rfl⟩
  conducted := fun _ _ _ _ => Realm.conducts_push promise generator
  steady := fun _ _ _ => rfl
  within := .own _ (fun _ _ _ => rfl) fun _ _ => ⟨rfl, rfl, rfl⟩

/-- A new object without properties of a kind that needs none. -/
def newObject (prototype : Option ObjectId) (kind : ObjectKind H)
    (isNew : kind.isNew = true := by exact Eq.refl true) : Engine H ObjectId :=
  allocate (.ofKind prototype kind) (.ofKind prototype kind)
    (.of_not_isArray (ObjectKind.isArray_of_isNew isNew)) (ObjectKind.promise?_of_isNew isNew)
    (ObjectKind.generator?_of_isNew isNew)

/-- A new ordinary object without properties. -/
def newOrdinary (prototype : Option ObjectId) : Engine H ObjectId := newObject prototype .ordinary

/-! ### Intrinsics -/

/-- The object of an intrinsic. -/
def intrinsic (name : Intrinsic) : Engine H ObjectId := return (← getRealm).intrinsics.get name

/-- Sets the object of an intrinsic. -/
def setIntrinsic (name : Intrinsic) (o : ObjectId) : Engine H Unit :=
  adjust fun realm => { realm with intrinsics := realm.intrinsics.set name o }

/-- A new ordinary object that inherits from the object prototype. -/
def newPlain : Engine H ObjectId := do newOrdinary (some (← intrinsic .objectPrototype))

/-! ### Scopes -/

/-- The internal error for a handle of no scope. -/
def danglingEnvironment (e : EnvironmentId) : Engine H α :=
  internalError ("dangling environment handle " ++ e.text)

/-- The scope of a handle. -/
def getEnvironment (e : EnvironmentId) : Engine H Environment := do
  match (← getRealm).environments[e.index]? with
  | some environment => pure environment
  | none => danglingEnvironment e

/-- Changes the scope of a handle. -/
def modifyEnvironment (e : EnvironmentId) (f : Environment → Environment) : Engine H Unit := do
  let realm ← getRealm
  if e.index < realm.environments.size then
    adjust fun realm => { realm with environments := realm.environments.modify e.index f }
  else danglingEnvironment e

/-- Adds a scope. -/
def newEnvironment (outer : Option EnvironmentId) (kind : EnvironmentKind) :
    Engine H EnvironmentId :=
  adjustGet fun realm =>
    (⟨realm.environments.size⟩,
     { realm with environments := realm.environments.push { outer, kind } })

/-! ### Contexts -/

/-- Puts a new context on the stack and, in the end, takes the top context off again. -/
def contextBracket (frame : Frame H) (plain : frame.generator = none) :
    Bracket H Unit α (Except Failure α × Except Failure (Context (Frame H))) where
  enter :=
    { apply := fun realm => (.ok (), realm.withNewContext frame)
      steps := fun _ => Realm.Beside.steps ⟨rfl, rfl, rfl⟩ }
  leave := fun _ outcome =>
    { apply := fun realm =>
        let (popped, after) := realm.changeContexts ContextStack.pop
        (.ok (outcome, popped), after)
      steps := fun realm => (realm.beside_changeContexts _).steps
      restarts := fun realm => (realm.untimed_changeContexts _).restarts }
  refused := fun _ _ _ h => by cases h
  advances := fun realm _ _ _ => by
    refine ⟨id, fun _ => ⟨[], .refl _⟩, fun _ _ => ?_⟩
    rw [realm.control_withNewContext plain]
    exact (Control.Move.push realm.control).path
  conducts := fun _ _ _ _ _ _ hm => hm.pop plain

theorem contextBracket_steady (frame : Frame H) (plain : frame.generator = none) :
    (contextBracket frame plain : Bracket H Unit α _).Steady where
  refused _ _ h := by cases h
  balanced realm _ middle _ _ hm := by
    have hstart : middle.marks = Mark.push (realm.contexts.lastId + 1) realm.marks :=
      hm.trans (realm.marks_withNewContext frame)
    exact middle.marks_pop.trans (hstart ▸ Mark.pop_push _ _)

theorem contextBracket_untimed (frame : Frame H) (plain : frame.generator = none) :
    (contextBracket frame plain : Bracket H Unit α _).Untimed where
  enter _ := ⟨rfl, rfl, rfl⟩
  leave _ _ realm := realm.untimed_changeContexts ContextStack.pop

/-- Runs a computation in a context of its own: its outcome, and how the context was left. -/
def inContext (frame : Frame H) (x : Engine H α) (plain : frame.generator = none := by rfl) :
    Engine H (Except Failure α × Except Failure (Context (Frame H))) :=
  bracket (contextBracket frame plain) (contextBracket_steady frame plain)
    (contextBracket_untimed frame plain) fun _ => x

/-- Changes the stack of contexts, if that succeeds, for a host that moves contexts by itself. -/
def changeContexts
    (f : ContextStack (Frame H) → (now : Nat) → Except Failure (α × ContextStack (Frame H)))
    (moves : H.movesContexts = true := by rfl) : Routine H α :=
  Routine.transition
    { apply := fun realm => realm.changeContexts f
      steps := fun realm => (realm.beside_changeContexts f).steps
      restarts := fun realm => (realm.untimed_changeContexts f).restarts }
    (fun realm _ => .of_eq (realm.beside_changeContexts f).disposed (realm.ledger_changeContexts f)
      fun hm => by simp [moves] at hm)
    fun realm => realm.untimed_changeContexts f

/-- Changes the scope that the running context resolves names in. -/
def setRunningScope (e : Option EnvironmentId) : Engine H Unit :=
  adjust (fun realm => { realm with contexts := realm.contexts.modifyTop (·.withScope e) })
    fun realm => by
      have houtline := realm.contexts.outline_modifyTop fun c => c.outline_withScope e
      have hid := realm.contexts.lastId_modifyTop (·.withScope e)
      have hmarks := realm.contexts.marks_modifyTop fun c => c.mark_withScope e
      refine ⟨⟨rfl, rfl, rfl⟩, rfl, fun _ => ?_, hmarks, rfl, rfl, rfl⟩
      simp only [Realm.control, houtline, hid]
      rfl

/-- The context on top of the stack. -/
def runningContext : Engine H (Context (Frame H)) := do
  match (← getRealm).contexts.top? with
  | some context => pure context
  | none => internalError "execution context stack is empty"

/-! ### Symbols -/

/-- A new symbol. -/
def newSymbol (description : Option String) : Engine H Symbol :=
  adjustGet fun realm =>
    ({ id := realm.nextSymbol, description }, { realm with nextSymbol := realm.nextSymbol + 1 })

/-- The symbol registered under a key, made on the first request. -/
def symbolFor (key : String) : Engine H Symbol := do
  match (← getRealm).symbols.get? key with
  | some symbol => pure symbol
  | none =>
    let symbol ← newSymbol (some key)
    adjust fun realm => { realm with symbols := realm.symbols.insert key symbol }
    return symbol

/-- The key under which a symbol is registered. -/
def keyFor? (symbol : Symbol) : Engine H (Option String) := do
  let found := (← getRealm).symbols.entries.find? fun (_, s) => s.id = symbol.id
  return found.map Prod.fst

/-! ### Jobs and chance -/

/-- Puts a job of the host at the end of the queue. -/
def enqueue (job : H.Job) : Engine H Unit :=
  transition
    { apply := fun realm => (.ok (), { realm with jobs := realm.jobs ++ [.host job] })
      steps := fun _ => Realm.Beside.steps ⟨rfl, rfl, rfl⟩ }
    (fun realm _ => ⟨id, fun _ => Ledger.conducts_enqueued realm.ledger job, fun _ _ => .refl _⟩)
    (fun _ => rfl) fun _ => ⟨rfl, rfl, rfl⟩

/-- The next random number. -/
def nextRandom : Engine H Float :=
  adjustGet fun realm =>
    let (x, random) := realm.random.next
    (x, { realm with random })

end Engine
end ScriptEngine
