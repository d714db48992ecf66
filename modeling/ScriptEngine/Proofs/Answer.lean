import ScriptEngine.Proofs.Outcome

/-!
# What holds of every answer

The internal methods that write to an object are put together from computations of the engine and
from writing to one object without changing its kind. A property of computations that these have,
and that is kept when they are put together, holds of the way in which every request is answered.

## Main definitions

* `Action.Closed`: the properties that are kept.

## Main results

* `Action.Closed.respond`: such a property holds of every answer.
-/

namespace ScriptEngine

open Engine

variable {H : HostTypes} {α β : Type}

/-- A property that computations of the engine have and that is kept when computations are put
together. -/
structure Action.Closed (P : ∀ {α : Type}, Action H α → Prop) : Prop where
  engine : ∀ {α : Type} (x : Engine H α), P x.act
  modifyObject : ∀ (o : ObjectId) (f : Object H → Object H),
    (∀ object, (f object).kind = object.kind) → P (Action.modifyObject o f)
  andThen : ∀ {α β : Type} {x : Action H α} {f : α → Action H β}, P x → (∀ a, P (f a)) →
    P (x.andThen f)
  nested : ∀ {α : Type} {x : Action H α}, P x → P x.nested

theorem Action.bind_eq_andThen (x : Action H α) (f : α → Action H β) : x >>= f = x.andThen f := by
  funext s realm
  cases h : x s realm with
  | ok a middle => rw [Action.bind_of_ok h, Action.andThen, h]
  | error stop middle => rw [Action.bind_of_error h, Action.andThen, h]

namespace Action.Closed

variable {P : ∀ {α : Type}, Action H α → Prop} (hp : Action.Closed @P)
include hp

theorem pure (a : α) : P (pure a : Action H α) := hp.engine (Pure.pure a)

theorem bind {x : Action H α} {f : α → Action H β} (hx : P x) (hf : ∀ a, P (f a)) :
    P (x >>= f) :=
  Action.bind_eq_andThen x f ▸ hp.andThen hx hf

/-- Writing to one object, and then a result. -/
theorem write (o : ObjectId) {f : Object H → Object H} (a : α)
    (hf : ∀ object, (f object).kind = object.kind := by intro object; rfl) :
    P (do Action.modifyObject o f; return a) :=
  hp.bind (hp.modifyObject o f hf) fun _ => hp.pure a

/-! ### Methods that write to an object -/

theorem ordinary_setPrototypeOf (o : ObjectId) (prototype : Option ObjectId) :
    P (Ordinary.setPrototypeOf o prototype) := by
  unfold Ordinary.setPrototypeOf
  refine hp.bind (hp.engine (getObject o)) fun object => ?_
  split
  · exact hp.pure true
  split
  · exact hp.pure false
  refine hp.bind (hp.engine getRealm) fun realm => ?_
  split
  · exact hp.engine (danglingObject _)
  · exact hp.pure false
  · exact hp.write o true

theorem ordinary_preventExtensions (o : ObjectId) : P (Ordinary.preventExtensions o) :=
  hp.write o true

theorem ordinary_applyDescriptor (o : ObjectId) (k : PropertyKey) (extensible : Bool)
    (d : Descriptor) (current : Option Descriptor) :
    P (Ordinary.applyDescriptor o k extensible d current) := by
  unfold Ordinary.applyDescriptor
  split
  · exact hp.pure false
  split
  · exact hp.write o true
  · simp only
    split
    · exact hp.write o true
    · exact hp.pure true

theorem ordinary_defineOwnProperty (o : ObjectId) (k : PropertyKey) (d : Descriptor) :
    P (Ordinary.defineOwnProperty o k d) :=
  hp.bind (hp.engine (o.getOwnProperty k)) fun current =>
    hp.bind (hp.engine o.isExtensible) fun extensible =>
      hp.ordinary_applyDescriptor o k extensible d current

theorem ordinary_delete (o : ObjectId) (k : PropertyKey) : P (Ordinary.delete o k) := by
  refine hp.bind (hp.engine (o.getOwnProperty k)) fun current => ?_
  split
  · exact hp.pure true
  split
  · exact hp.write o true
  · exact hp.pure false

theorem string_defineOwnProperty (o : ObjectId) (k : PropertyKey) (d : Descriptor) :
    P (StringObject.defineOwnProperty o k d) := by
  refine hp.bind (hp.engine (StringObject.getUnitProperty o k)) fun unit? => ?_
  split
  · exact hp.bind (hp.engine (getObject o)) fun object => hp.pure _
  · exact hp.ordinary_defineOwnProperty o k d

theorem array_lowerLength (o : ObjectId) (d : Descriptor) (length : Nat) :
    P (ArrayObject.lowerLength o d length) := by
  refine hp.bind (hp.ordinary_defineOwnProperty o lengthKey _) fun done => ?_
  split
  · exact hp.pure false
  refine hp.bind (hp.engine (getObject o)) fun array => ?_
  refine hp.bind (hp.engine (ArrayObject.deleteElements o _)) fun remaining? => ?_
  split
  · exact hp.bind (hp.ordinary_defineOwnProperty o lengthKey _) fun _ => hp.pure false
  · split
    · exact hp.bind (hp.ordinary_defineOwnProperty o lengthKey _) fun _ => hp.pure true
    · exact hp.pure true

theorem array_setLength (o : ObjectId) (d : Descriptor) : P (ArrayObject.setLength o d) := by
  unfold ArrayObject.setLength
  split
  · exact hp.ordinary_defineOwnProperty o lengthKey d
  · refine hp.bind (hp.engine (ArrayObject.requestedLength _)) fun length => ?_
    refine hp.bind (hp.engine (ArrayObject.lengthProperty o)) fun current => ?_
    split
    · exact hp.ordinary_defineOwnProperty o lengthKey _
    split
    · exact hp.pure false
    · exact hp.array_lowerLength o _ length

theorem array_defineElement (o : ObjectId) (i : ArrayIndex) (d : Descriptor) :
    P (ArrayObject.defineElement o i d) := by
  refine hp.bind (hp.engine (ArrayObject.lengthProperty o)) fun current => ?_
  dsimp only
  split
  · exact hp.pure false
  refine hp.bind (hp.ordinary_defineOwnProperty o (.index i) d) fun done => ?_
  split
  · exact hp.pure false
  split
  · exact hp.bind (hp.ordinary_defineOwnProperty o lengthKey _) fun _ => hp.pure true
  · exact hp.pure true

theorem array_defineOwnProperty (o : ObjectId) (k : PropertyKey) (d : Descriptor) :
    P (ArrayObject.defineOwnProperty o k d) := by
  unfold ArrayObject.defineOwnProperty
  split
  · exact hp.array_setLength o d
  split
  · exact hp.array_defineElement o _ d
  · exact hp.ordinary_defineOwnProperty o k d

/-! ### Methods by kind -/

theorem dispatch_setPrototypeOf (o : ObjectId) (prototype : Option ObjectId) :
    P (Dispatch.setPrototypeOf o prototype) := by
  refine hp.bind (hp.engine (getKind o)) fun kind => ?_
  split
  · exact hp.engine (ProxyObject.setPrototypeOf o prototype)
  · exact hp.pure _
  · exact hp.ordinary_setPrototypeOf o prototype

theorem dispatch_preventExtensions (o : ObjectId) : P (Dispatch.preventExtensions o) := by
  refine hp.bind (hp.engine (getKind o)) fun kind => ?_
  split
  · exact hp.engine (ProxyObject.preventExtensions o)
  · exact hp.pure true
  · exact hp.ordinary_preventExtensions o

theorem dispatch_defineOwnProperty (o : ObjectId) (k : PropertyKey) (d : Descriptor) :
    P (Dispatch.defineOwnProperty o k d) := by
  refine hp.bind (hp.engine (getKind o)) fun kind => ?_
  split
  · exact hp.engine (ProxyObject.defineOwnProperty o k d)
  · exact hp.pure false
  · exact hp.string_defineOwnProperty o k d
  · exact hp.array_defineOwnProperty o k d
  · exact hp.ordinary_defineOwnProperty o k d

theorem dispatch_delete (o : ObjectId) (k : PropertyKey) : P (Dispatch.delete o k) := by
  refine hp.bind (hp.engine (getKind o)) fun kind => ?_
  split
  · exact hp.engine (ProxyObject.delete o k)
  · exact hp.pure false
  · exact hp.ordinary_delete o k

theorem checkedDefine (o : ObjectId) (k : PropertyKey) (d : Descriptor) :
    P (checkedDefine o k d) := by
  unfold ScriptEngine.checkedDefine
  split
  · exact hp.bind (hp.engine (internalError _)) fun _ =>
      hp.nested (hp.dispatch_defineOwnProperty o k d)
  · exact hp.nested (hp.dispatch_defineOwnProperty o k d)

/-- How a request is answered has every property that is kept, if the code of the host has it. -/
theorem respond {host : Host H} (hh : ∀ request, P (host request).act) (r : Request H) :
    P (respond host r) := by
  cases r with
  | setPrototypeOf o prototype => exact hp.nested (hp.dispatch_setPrototypeOf o prototype)
  | preventExtensions o => exact hp.nested (hp.dispatch_preventExtensions o)
  | defineOwnProperty o k d => exact hp.checkedDefine o k d
  | delete o k => exact hp.nested (hp.dispatch_delete o k)
  | getPrototypeOf o => exact hp.engine (Engine.nested (Dispatch.getPrototypeOf o))
  | isExtensible o => exact hp.engine (Engine.nested (Dispatch.isExtensible o))
  | getOwnProperty o k => exact hp.engine (Engine.nested (Dispatch.getOwnProperty o k))
  | hasProperty o k => exact hp.engine (Engine.nested (Dispatch.hasProperty o k))
  | get o k receiver => exact hp.engine (Engine.nested (Dispatch.get o k receiver))
  | set o k v receiver => exact hp.engine (Engine.nested (Dispatch.set o k v receiver))
  | ownKeys o => exact hp.engine (Engine.nested (Dispatch.ownKeys o))
  | call f this args => exact hp.engine (callFunction nativeBehaviour f this args)
  | construct f args newTarget =>
    exact hp.engine (constructFunction nativeBehaviour f args newTarget)
  | host request => exact hh request

end Action.Closed

end ScriptEngine
