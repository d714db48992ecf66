import ScriptEngine.Callable
import ScriptEngine.Text.Units

/-!
# Operations on properties

The internal methods of an object as operations, the calls, and the operations composed of them
that read, write, define and delete properties.

## Main definitions

* `ObjectId.getPrototypeOf`, …, `ObjectId.ownKeys`: the eleven internal methods.
* `Value.call`, `ObjectId.construct`: calling a function and constructing an object.
* `Value.toObject`: the object that a value stands for.
* `ObjectId.get`, `ObjectId.put`, `Value.getProperty`, `Value.getMethod?`, `Value.invoke`.
* `ObjectId.createDataProperty`, `ObjectId.defineOrThrow`, `ObjectId.deleteOrThrow`.
-/

namespace ScriptEngine

open Engine

variable {H : HostTypes}

/-! ### Internal methods and calls -/

namespace ObjectId

/-- The prototype. -/
def getPrototypeOf (o : ObjectId) : Engine H (Option ObjectId) := ask (.getPrototypeOf o)

/-- Changes the prototype; false if that is refused. -/
def setPrototypeOf (o : ObjectId) (prototype : Option ObjectId) : Engine H Bool :=
  ask (.setPrototypeOf o prototype)

/-- Whether properties may be added. -/
def isExtensible (o : ObjectId) : Engine H Bool := ask (.isExtensible o)

/-- Forbids that properties are added; false if that is refused. -/
def preventExtensions (o : ObjectId) : Engine H Bool := ask (.preventExtensions o)

/-- The own property of a key. -/
def getOwnProperty (o : ObjectId) (k : PropertyKey) : Engine H (Option Descriptor) :=
  ask (.getOwnProperty o k)

/-- Creates or changes an own property; false if that is refused. -/
def defineOwnProperty (o : ObjectId) (k : PropertyKey) (d : Descriptor) : Engine H Bool :=
  ask (.defineOwnProperty o k d)

/-- Whether a property exists, own or inherited. -/
def hasProperty (o : ObjectId) (k : PropertyKey) : Engine H Bool := ask (.hasProperty o k)

/-- The value of a property as a receiver sees it. -/
def getFor (o : ObjectId) (k : PropertyKey) (receiver : Value) : Engine H Value :=
  ask (.get o k receiver)

/-- Sets the value of a property for a receiver; false if that is refused. -/
def setFor (o : ObjectId) (k : PropertyKey) (v receiver : Value) : Engine H Bool :=
  ask (.set o k v receiver)

/-- Removes an own property; false if that is refused. -/
def delete (o : ObjectId) (k : PropertyKey) : Engine H Bool := ask (.delete o k)

/-- The own keys. -/
def ownKeys (o : ObjectId) : Engine H (List PropertyKey) := ask (.ownKeys o)

/-- Constructs an object; by default the constructor itself is the new target. -/
def construct (f : ObjectId) (args : List Value) (newTarget : Option ObjectId := none) :
    Engine H ObjectId :=
  ask (.construct f args (newTarget.getD f))

/-- The value of a property. -/
def get (o : ObjectId) (k : PropertyKey) : Engine H Value := o.getFor k (.object o)

/-- The value of a property with a fixed name that is no array index. -/
def getNamed (o : ObjectId) (name : String) : Engine H Value := o.get (.string name)

/-- Sets a property; if that is refused, it is an error only on request. -/
def put (o : ObjectId) (k : PropertyKey) (v : Value) (throwing : Bool) : Engine H Unit := do
  if !(← o.setFor k v (.object o)) && throwing then
    typeError ("Cannot assign to read only property '" ++ k.text ++ "'")

/-- Creates a property as assignment does; false if that is refused. -/
def createDataProperty (o : ObjectId) (k : PropertyKey) (v : Value) : Engine H Bool :=
  o.defineOwnProperty k (.plain v)

/-- Creates a property as assignment does. -/
def createDataPropertyOrThrow (o : ObjectId) (k : PropertyKey) (v : Value) : Engine H Unit := do
  if !(← o.createDataProperty k v) then
    typeError ("Cannot define property '" ++ k.text ++ "'")

/-- Creates or changes an own property. -/
def defineOrThrow (o : ObjectId) (k : PropertyKey) (d : Descriptor) : Engine H Unit := do
  if !(← o.defineOwnProperty k d) then
    typeError ("Cannot redefine property: " ++ k.text)

/-- Removes an own property. -/
def deleteOrThrow (o : ObjectId) (k : PropertyKey) : Engine H Unit := do
  if !(← o.delete k) then
    typeError ("Cannot delete property '" ++ k.text ++ "'")

/-- Whether an own property exists. -/
def hasOwnProperty (o : ObjectId) (k : PropertyKey) : Engine H Bool :=
  return (← o.getOwnProperty k).isSome

end ObjectId

/-! ### Properties of values -/

/-- A new string object. Its length is written straight to storage. -/
def stringCreate (s : String) (prototype : Option ObjectId) : Engine H ObjectId :=
  allocate (.ofKindWith prototype (.string s) lengthKey (.frozen (.nat (Text.unitLength s))))
    (.ofKindWith prototype true rfl rfl (.inl rfl)) (.of_not_isArray rfl)

/-- The argument at a position, `undefined` where none was given. -/
def argument (args : List Value) (i : Nat) : Value := args.getD i .undefined

namespace Value

/-- Calls a function. -/
def call (f this : Value) (args : List Value) : Engine H Value := ask (.call f this args)

/-- The object that a value stands for: itself, or a new wrapper of a primitive. -/
def toObject (v : Value) : Engine H ObjectId := do
  match v with
  | .object o => return o
  | .string s => stringCreate s (some (← intrinsic .stringPrototype))
  | .bool b => newObject (some (← intrinsic .booleanPrototype)) (.boolean b)
  | .number n => newObject (some (← intrinsic .numberPrototype)) (.number n)
  | .symbol s => newObject (some (← intrinsic .symbolPrototype)) (.symbol s)
  | v => typeError ("Cannot convert " ++ v.kindName ++ " to object")

/-- Refuses the two values that stand for no object. -/
def requireObjectCoercible (v : Value) : Engine H Unit :=
  if v.isNullish then typeError ("Cannot convert " ++ v.kindName ++ " to object") else pure ()

/-- The property of a value; a primitive is the receiver in its own place. -/
def getProperty (v : Value) (k : PropertyKey) : Engine H Value := do
  (← v.toObject).getFor k v

/-- The method of a value, if there is one. -/
def getMethod? (v : Value) (k : PropertyKey) : Engine H (Option Value) := do
  let f ← v.getProperty k
  if f.isNullish then return none
  if !(← isCallable f) then typeError (k.text ++ " is not a function")
  return some f

/-- Calls a method of a value. -/
def invoke (v : Value) (k : PropertyKey) (args : List Value) : Engine H Value := do
  (← v.getProperty k).call v args

end Value
end ScriptEngine
