import ScriptEngine.Builtin.Install
import ScriptEngine.Operation.Comparison
import ScriptEngine.Operation.DescriptorObject
import ScriptEngine.Operation.Integrity
import ScriptEngine.Operation.Iterator

/-!
# `Object`

The constructor `Object`, its functions and the methods of its prototype.

## Main definitions

* `ObjectFunction.run`: what the functions do.
* `ObjectFunction.install`: where they stand.
-/

namespace ScriptEngine.ObjectFunction

open Engine

variable {H : HostTypes}

/-- The constructor: a new object for a derived class, else the object of the argument. -/
def constructObject (args : List Value) (newTarget : Option ObjectId) : Engine H Value := do
  let self ← intrinsic .object
  match newTarget with
  | some target =>
    if target ≠ self then
      return .object (← target.createFromConstructor (← intrinsic .objectPrototype) .ordinary)
  | none => pure ()
  let v := argument args 0
  if v.isNullish then return .object (← newPlain)
  return .object (← v.toObject)

/-- The object that an argument has to be. -/
def requireObject (v : Value) (name : String) : Engine H ObjectId :=
  match v with
  | .object o => pure o
  | _ => typeError (name ++ " called on non-object")

/-! ### Methods of the prototype -/

/-- Whether the receiver has an own property; the key is converted first. -/
def ownProperty (this key : Value) : Engine H (Option Descriptor) := do
  let k ← key.toPropertyKey
  (← this.toObject).getOwnProperty k

/-- Whether the receiver is on the prototype chain of a value. -/
def isOnChain (this v : Value) : Engine H Bool := do
  match v with
  | .object o => (← this.toObject).isPrototypeOf o
  | _ => return false

/-! ### Functions of the constructor -/

/-- Assigns the enumerable own properties of a source to a target. -/
def assignFrom (target : ObjectId) (source : Value) : Engine H Unit := do
  if source.isNullish then return
  let origin ← source.toObject
  (← origin.ownKeys).forM fun k => do
    match ← origin.getOwnProperty k with
    | some d => if d.isEnumerable then target.put k (← origin.get k) true
    | none => pure ()

/-- Reads the descriptors among the enumerable own properties of an object. -/
def readDescriptors (properties : ObjectId) : Engine H (List (PropertyKey × Descriptor)) := do
  let items ← (← properties.ownKeys).mapM fun k => do
    match ← properties.getOwnProperty k with
    | some d =>
      if d.isEnumerable then return some (k, ← (← properties.get k).toDescriptor) else return none
    | none => return none
  return items.filterMap id

/-- Defines properties from an object of descriptors, all of which are read first. -/
def defineAll (o : ObjectId) (properties : Value) : Engine H Unit := do
  let descriptors ← readDescriptors (← properties.toObject)
  descriptors.forM fun (k, d) => o.defineOrThrow k d

/-- A new object with a prototype and properties. -/
def createWith (prototype properties : Value) : Engine H Value := do
  let prototype ← match prototype with
    | .object p => pure (some p)
    | .null => pure none
    | other => typeError ("Object prototype may only be an Object or null: " ++ other.inspect)
  let o ← newOrdinary prototype
  if !properties.isUndefined then defineAll o properties
  return .object o

/-- The enumerable own properties of a value in an array. -/
def enumerate (v : Value) (kind : IterationKind) : Engine H Value := do
  let o ← v.toObject
  return .object (← arrayOfList (← o.enumerableOwn kind))

/-- Seals or freezes a value if it is an object. -/
def fix (v : Value) (level : IntegrityLevel) : Engine H Value := do
  match v with
  | .object o =>
    if !(← o.setIntegrity level) then
      typeError "Cannot change the integrity level of this object"
  | _ => pure ()
  return v

/-- Whether a value is fixed; what is no object always is. -/
def isFixed (v : Value) (level : IntegrityLevel) : Engine H Value := do
  match v with
  | .object o => return .bool (← o.testIntegrity level)
  | _ => return .bool true

/-- Adds the property that an entry of key and value describes. -/
def addEntry (o : ObjectId) (entry : Value) : Engine H Unit := do
  match entry with
  | .object e =>
    let key ← e.get (.index 0)
    let v ← e.get (.index 1)
    o.createDataPropertyOrThrow (← key.toPropertyKey) v
  | other => typeError ("Iterator value " ++ other.inspect ++ " is not an entry object")

/-- A new object from the entries of an iterable value. -/
def ofEntries (iterable : Value) : Engine H Value := do
  iterable.requireObjectCoercible
  let o ← newPlain
  let record ← iterable.getIterator
  loop (fun record => do
    let (next, record) ← (← record.stepValue).get
    match next with
    | none => return .finish (.object o)
    | some entry =>
      match ← attempt (addEntry o entry) with
      | .ok () => return .again record
      | .error f => return .finish (← record.close (.error f))) record

/-- The descriptors of all own properties as an object. -/
def allDescriptors (v : Value) : Engine H Value := do
  let o ← v.toObject
  let result ← newPlain
  (← o.ownKeys).forM fun k => do
    match ← o.getOwnProperty k with
    | some d => result.createDataPropertyOrThrow k (.object (← d.toObject))
    | none => pure ()
  return .object result

/-- The own keys of one sort in an array. -/
def keysOfSort (v : Value) (symbols : Bool) : Engine H Value := do
  let o ← v.toObject
  let keys := (← o.ownKeys).filter fun k => k.isSymbol == symbols
  return .object (← arrayOfList (keys.map PropertyKey.toValue))

/-- Changes the prototype of a value if it is an object. -/
def changePrototype (v prototype : Value) : Engine H Value := do
  v.requireObjectCoercible
  let prototype ← match prototype with
    | .object p => pure (some p)
    | .null => pure none
    | _ => typeError "Object prototype may only be an Object or null"
  match v with
  | .object o =>
    if !(← o.setPrototypeOf prototype) then typeError "Object.setPrototypeOf failed"
  | _ => pure ()
  return v

/-- Forbids new properties of a value if it is an object. -/
def forbidExtensions (v : Value) : Engine H Value := do
  match v with
  | .object o => if !(← o.preventExtensions) then typeError "Cannot prevent extensions"
  | _ => pure ()
  return v

/-- Defines a property of an object. -/
def define (args : List Value) : Engine H Value := do
  let o ← requireObject (argument args 0) "Object.defineProperty"
  let k ← (argument args 1).toPropertyKey
  let d ← (argument args 2).toDescriptor
  o.defineOrThrow k d
  return argument args 0

/-- What the functions do. -/
def run (f : ObjectFunction) (this : Value) (args : List Value) (newTarget : Option ObjectId) :
    Engine H Value := do
  let first := argument args 0
  let second := argument args 1
  match f with
  | construct => constructObject args newTarget
  | hasOwnProperty => return .bool (← ownProperty this first).isSome
  | isPrototypeOf => return .bool (← isOnChain this first)
  | propertyIsEnumerable => return .bool ((← ownProperty this first).any Descriptor.isEnumerable)
  | toLocaleString => this.invoke (.string "toString") []
  | toString => return .string (← this.tagText)
  | valueOf => return .object (← this.toObject)
  | assign => do
    let target ← first.toObject
    (args.drop 1).forM (assignFrom target)
    return .object target
  | create => createWith first second
  | defineProperties => do
    let o ← requireObject first "Object.defineProperties"
    defineAll o second
    return first
  | defineProperty => define args
  | entries => enumerate first .entries
  | freeze => fix first .frozen
  | fromEntries => ofEntries first
  | getOwnPropertyDescriptor => do
    let o ← first.toObject
    let k ← second.toPropertyKey
    Descriptor.toValue? (← o.getOwnProperty k)
  | getOwnPropertyDescriptors => allDescriptors first
  | getOwnPropertyNames => keysOfSort first false
  | getOwnPropertySymbols => keysOfSort first true
  | getPrototypeOf => return .ofObject? (← (← first.toObject).getPrototypeOf)
  | hasOwn => do
    let o ← first.toObject
    let k ← second.toPropertyKey
    return .bool (← o.hasOwnProperty k)
  | is => return .bool (first.sameValue second)
  | isExtensible =>
    match first with
    | .object o => return .bool (← o.isExtensible)
    | _ => return .bool false
  | isFrozen => isFixed first .frozen
  | isSealed => isFixed first .sealed
  | keys => enumerate first .keys
  | preventExtensions => forbidExtensions first
  | sealObject => fix first .sealed
  | setPrototypeOf => changePrototype first second
  | values => enumerate first .values

/-- The methods of the prototype. -/
def prototypeMethods : List MethodEntry :=
  [.named "hasOwnProperty" (.object hasOwnProperty) 1,
   .named "isPrototypeOf" (.object isPrototypeOf) 1,
   .named "propertyIsEnumerable" (.object propertyIsEnumerable) 1,
   .named "toLocaleString" (.object toLocaleString) 0,
   .named "toString" (.object toString) 0,
   .named "valueOf" (.object valueOf) 0]

/-- The functions of the constructor. -/
def constructorMethods : List MethodEntry :=
  [.named "assign" (.object assign) 2,
   .named "create" (.object create) 2,
   .named "defineProperties" (.object defineProperties) 2,
   .named "defineProperty" (.object defineProperty) 3,
   .named "entries" (.object entries) 1,
   .named "freeze" (.object freeze) 1,
   .named "fromEntries" (.object fromEntries) 1,
   .named "getOwnPropertyDescriptor" (.object getOwnPropertyDescriptor) 2,
   .named "getOwnPropertyDescriptors" (.object getOwnPropertyDescriptors) 1,
   .named "getOwnPropertyNames" (.object getOwnPropertyNames) 1,
   .named "getOwnPropertySymbols" (.object getOwnPropertySymbols) 1,
   .named "getPrototypeOf" (.object getPrototypeOf) 1,
   .named "hasOwn" (.object hasOwn) 2,
   .named "is" (.object is) 2,
   .named "isExtensible" (.object isExtensible) 1,
   .named "isFrozen" (.object isFrozen) 1,
   .named "isSealed" (.object isSealed) 1,
   .named "keys" (.object keys) 1,
   .named "preventExtensions" (.object preventExtensions) 1,
   .named "seal" (.object sealObject) 1,
   .named "setPrototypeOf" (.object setPrototypeOf) 2,
   .named "values" (.object values) 1]

/-- Installs the constructor and the methods. -/
def install : Engine H Unit := do
  let prototype ← intrinsic .objectPrototype
  prototype.installMethods prototypeMethods
  let constructor ← installConstructor (.object construct) 1 "Object" prototype
  setIntrinsic .object constructor
  constructor.installMethods constructorMethods

end ScriptEngine.ObjectFunction
