import ScriptEngine.Builtin.Install
import ScriptEngine.Method.Proxy
import ScriptEngine.Operation.DescriptorObject

/-!
# `Reflect` and `Proxy`

The internal methods as functions, and the making of proxies.

## Main definitions

* `ReflectFunction.run`, `ReflectFunction.install`.
* `ProxyFunction.run`, `ProxyFunction.install`.
-/

namespace ScriptEngine

open Engine

variable {H : HostTypes}

namespace ReflectFunction

/-- The object that an argument has to be. -/
def requireTarget (v : Value) (method : String) : Engine H ObjectId :=
  match v with
  | .object o => pure o
  | _ => typeError ("Reflect." ++ method ++ " called on non-object")

/-- The new target that an argument has to be. -/
def requireNewTarget (v : Value) : Engine H ObjectId := do
  match v with
  | .object o => if ← isConstructor v then return o
  | _ => pure ()
  typeError "Reflect.construct newTarget is not a constructor"

/-- Constructs with the elements of an array-like object. -/
def constructWith (args : List Value) : Engine H Value := do
  match argument args 0 with
  | .object target =>
    if !(← isConstructor (.object target)) then
      typeError "Reflect.construct target is not a constructor"
    let newTarget ← match args[2]? with
      | none => pure target
      | some v => requireNewTarget v
    let list ← (argument args 1).listFromArrayLike
    return .object (← target.construct list (some newTarget))
  | _ => typeError "Reflect.construct target is not a constructor"

/-- Calls with the elements of an array-like object. -/
def applyWith (args : List Value) : Engine H Value := do
  let target := argument args 0
  if !(← isCallable target) then typeError "Reflect.apply target is not callable"
  let list ← (argument args 2).listFromArrayLike
  target.call (argument args 1) list

/-- The prototype that an argument names. -/
def requirePrototype : Value → Engine H (Option ObjectId)
  | .object o => return some o
  | .null => return none
  | _ => typeError "Object prototype may only be an Object or null"

/-- What the functions do. -/
def run (f : ReflectFunction) (args : List Value) : Engine H Value := do
  let first := argument args 0
  let second := argument args 1
  let third := argument args 2
  match f with
  | apply => applyWith args
  | construct => constructWith args
  | defineProperty => do
    let o ← requireTarget first "defineProperty"
    let k ← second.toPropertyKey
    let d ← third.toDescriptor
    return .bool (← o.defineOwnProperty k d)
  | deleteProperty => do
    let o ← requireTarget first "deleteProperty"
    return .bool (← o.delete (← second.toPropertyKey))
  | get => do
    let o ← requireTarget first "get"
    let k ← second.toPropertyKey
    o.getFor k (args.getD 2 (.object o))
  | getOwnPropertyDescriptor => do
    let o ← requireTarget first "getOwnPropertyDescriptor"
    let k ← second.toPropertyKey
    Descriptor.toValue? (← o.getOwnProperty k)
  | getPrototypeOf => do
    let o ← requireTarget first "getPrototypeOf"
    return .ofObject? (← o.getPrototypeOf)
  | has => do
    let o ← requireTarget first "has"
    return .bool (← o.hasProperty (← second.toPropertyKey))
  | isExtensible => do
    let o ← requireTarget first "isExtensible"
    return .bool (← o.isExtensible)
  | ownKeys => do
    let o ← requireTarget first "ownKeys"
    return .object (← arrayOfList ((← o.ownKeys).map PropertyKey.toValue))
  | preventExtensions => do
    let o ← requireTarget first "preventExtensions"
    return .bool (← o.preventExtensions)
  | set => do
    let o ← requireTarget first "set"
    let k ← second.toPropertyKey
    return .bool (← o.setFor k third (args.getD 3 (.object o)))
  | setPrototypeOf => do
    let o ← requireTarget first "setPrototypeOf"
    return .bool (← o.setPrototypeOf (← requirePrototype second))

/-- The functions. -/
def methods : List MethodEntry :=
  [.named "apply" (.reflect apply) 3,
   .named "construct" (.reflect construct) 2,
   .named "defineProperty" (.reflect defineProperty) 3,
   .named "deleteProperty" (.reflect deleteProperty) 2,
   .named "get" (.reflect get) 2,
   .named "getOwnPropertyDescriptor" (.reflect getOwnPropertyDescriptor) 2,
   .named "getPrototypeOf" (.reflect getPrototypeOf) 1,
   .named "has" (.reflect has) 2,
   .named "isExtensible" (.reflect isExtensible) 1,
   .named "ownKeys" (.reflect ownKeys) 1,
   .named "preventExtensions" (.reflect preventExtensions) 1,
   .named "set" (.reflect set) 3,
   .named "setPrototypeOf" (.reflect setPrototypeOf) 2]

/-- Installs the object of the functions. -/
def install : Engine H Unit := do
  let o ← newPlain
  o.installMethods methods
  o.defineTag "Reflect"
  setIntrinsic .reflect o

end ReflectFunction

namespace ProxyFunction

/-- A proxy together with the function that revokes it. -/
def makeRevocable (target handler : Value) : Engine H Value := do
  let proxy ← proxyCreate target handler
  let revoke ← internalFunction (.proxyRevoke (some proxy)) 0
  let result ← newPlain
  result.createDataPropertyOrThrow (.string "proxy") (.object proxy)
  result.createDataPropertyOrThrow (.string "revoke") (.object revoke)
  return .object result

/-- What the functions do. -/
def run (f : ProxyFunction) (args : List Value) (newTarget : Option ObjectId) :
    Engine H Value := do
  match f with
  | construct =>
    if newTarget.isNone then typeError "Constructor Proxy requires 'new'"
    return .object (← proxyCreate (argument args 0) (argument args 1))
  | revocable => makeRevocable (argument args 0) (argument args 1)

/-- Installs the constructor, which has no prototype. -/
def install : Engine H Unit := do
  let constructor ← builtinFunction (.proxy construct) 2 (.string "Proxy") true
  let _ ← constructor.installMethod (.named "revocable" (.proxy revocable) 2)
  setIntrinsic .proxy constructor

end ProxyFunction
end ScriptEngine
