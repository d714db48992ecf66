import ScriptEngine.Operation.Property

/-!
# Internal methods of ordinary objects

What the internal methods do where an object has no special behaviour. Steps that concern another
object, or this object as others see it, go through its own internal methods. The methods that write
to the object are actions: that they take only steps of a realm is to be shown of each of them.

## Main definitions

* `Ordinary.setPrototypeOf`, `Ordinary.defineOwnProperty`, `Ordinary.get`, `Ordinary.set`,
  `Ordinary.delete`, …: the methods.
* `Ordinary.applyDescriptor`: checking and carrying out a change of a property.
-/

namespace ScriptEngine

open Engine

variable {H : HostTypes}

namespace Ordinary

/-- The stored prototype. -/
def getPrototypeOf (o : ObjectId) : Engine H (Option ObjectId) := return (← getObject o).prototype

/-- Stores a new prototype, unless the object is not extensible or a cycle would arise. The chain of
prototypes is shorter than the heap. -/
def setPrototypeOf (o : ObjectId) (prototype : Option ObjectId) : Action H Bool := do
  let object ← (getObject o).act
  if object.prototype = prototype then return true
  if !object.extensible then return false
  let realm ← getRealm.act
  match realm.reaches o (realm.heap.size + 1) prototype with
  | .error missing => (danglingObject missing).act
  | .ok true => return false
  | .ok false =>
    Action.modifyObject o fun object => { object with prototype }
    return true

/-- The stored flag. -/
def isExtensible (o : ObjectId) : Engine H Bool := return (← getObject o).extensible

/-- Clears the flag for good. -/
def preventExtensions (o : ObjectId) : Action H Bool := do
  Action.modifyObject o fun object => { object with extensible := false }
  return true

/-- The stored property. -/
def getOwnProperty (o : ObjectId) (k : PropertyKey) : Engine H (Option Descriptor) :=
  return (← getObject o).properties.get? k

/-- Carries out a request to define a property, if the current state of the property allows it. -/
def applyDescriptor (o : ObjectId) (k : PropertyKey) (extensible : Bool) (d : Descriptor)
    (current : Option Descriptor) : Action H Bool := do
  if !d.isCompatible extensible current then return false
  match current with
  | none =>
    Action.modifyObject o fun object =>
      { object with properties := object.properties.insert k d.initial }
  | some current =>
    if !Descriptor.isSettled current d then
      Action.modifyObject o fun object =>
        { object with
          properties := object.properties.modify k fun stored => stored.apply current d }
  return true

/-- Creates or changes a property. -/
def defineOwnProperty (o : ObjectId) (k : PropertyKey) (d : Descriptor) : Action H Bool := do
  let current ← (o.getOwnProperty k).act
  let extensible ← o.isExtensible.act
  applyDescriptor o k extensible d current

/-- Looks for a property along the chain of prototypes. -/
def hasProperty (o : ObjectId) (k : PropertyKey) : Engine H Bool := do
  if (← o.getOwnProperty k).isSome then return true
  match ← o.getPrototypeOf with
  | some parent => parent.hasProperty k
  | none => return false

/-- The value of a property that was found. -/
def valueFor (d : Descriptor) (receiver : Value) : Engine H Value :=
  if d.isData then pure d.valueD
  else if d.getter.isUndefined then pure .undefined
  else d.getter.call receiver []

/-- Reads a property along the chain of prototypes. -/
def get (o : ObjectId) (k : PropertyKey) (receiver : Value) : Engine H Value := do
  match ← o.getOwnProperty k with
  | some d => valueFor d receiver
  | none =>
    match ← o.getPrototypeOf with
    | some parent => parent.getFor k receiver
    | none => return .undefined

/-- Sets a data property of a receiver, which has to be an object. -/
def setOnReceiver (k : PropertyKey) (v receiver : Value) : Engine H Bool := do
  match receiver with
  | .object r =>
    match ← r.getOwnProperty k with
    | some existing =>
      if existing.isAccessor || !existing.isWritable then return false
      r.defineOwnProperty k (.ofValue v)
    | none => r.defineOwnProperty k (.plain v)
  | _ => return false

/-- Sets a property that was found along the chain of prototypes. -/
def setFound (own : Descriptor) (k : PropertyKey) (v receiver : Value) : Engine H Bool := do
  if own.isData then
    if own.isWritable then setOnReceiver k v receiver else return false
  else if own.setter.isUndefined then return false
  else
    let _ ← own.setter.call receiver [v]
    return true

/-- Sets a property along the chain of prototypes. -/
def set (o : ObjectId) (k : PropertyKey) (v receiver : Value) : Engine H Bool := do
  match ← o.getOwnProperty k with
  | some own => setFound own k v receiver
  | none =>
    match ← o.getPrototypeOf with
    | some parent => parent.setFor k v receiver
    | none => setFound (.plain .undefined) k v receiver

/-- Removes a property unless it is there to stay. -/
def delete (o : ObjectId) (k : PropertyKey) : Action H Bool := do
  match ← (o.getOwnProperty k).act with
  | none => return true
  | some d =>
    if d.isConfigurable then
      Action.modifyObject o fun object => { object with properties := object.properties.erase k }
      return true
    return false

/-- The stored keys in their order. -/
def ownKeys (o : ObjectId) : Engine H (List PropertyKey) := return (← getObject o).properties.keys

end Ordinary
end ScriptEngine
