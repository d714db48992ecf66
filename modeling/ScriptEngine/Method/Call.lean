import ScriptEngine.Method.Proxy
import ScriptEngine.Operation.Generator
import ScriptEngine.Operation.Promise
import ScriptEngine.Scope.Binding

/-!
# Calling and constructing

Every call runs in a context of its own. A function with code of the host's language also gets a
scope; its receiver is bound before the code runs.

## Main definitions

* `callScript`, `constructScript`: functions with code of the host's language.
* `callFunction`, `constructFunction`: every kind of function, given what built-in functions do.
-/

namespace ScriptEngine

open Engine

variable {H : HostTypes} {α : Type}

/-- What the functions without code of the language do. -/
abbrev NativeBehaviour (H : HostTypes) :=
  NativeCode H → (this : Value) → (args : List Value) → (newTarget : Option ObjectId) →
    Engine H Value

/-! ### Functions without code of the language -/

/-- Runs a function without code of the language in a context of its own. -/
def callNative (behaviour : NativeBehaviour H) (f : ObjectId) (code : NativeCode H) (this : Value)
    (args : List Value) (newTarget : Option ObjectId) : Engine H Value := do
  let (outcome, popped) ← inContext { function := some f } (behaviour code this args newTarget)
  let _ ← ofExcept popped
  ofExcept outcome

/-! ### Functions with code of the language -/

/-- The scope of a call. -/
def newCallScope (function : ScriptFunction H) (newTarget : Option ObjectId) :
    Engine H EnvironmentId :=
  let scope : FunctionScope :=
    { thisValue := .undefined
      thisStatus := if function.thisMode = .lexical then .lexical else .uninitialized
      newTarget
      homeObject := function.homeObject }
  newEnvironment function.environment (.function scope)

/-- The receiver that a call binds: in sloppy code always an object. -/
def receiverFor (function : ScriptFunction H) (this : Value) : Engine H Value := do
  if function.thisMode = .strict then return this
  if this.isNullish then return .object (← getRealm).globalObject
  return .object (← this.toObject)

/-- Binds the receiver of a call, unless the function takes that of its surroundings. -/
def bindReceiver (function : ScriptFunction H) (e : EnvironmentId) (this : Value) :
    Engine H Unit := do
  if function.thisMode = .lexical then return
  let _ ← e.bindThisValue (← receiverFor function this)

/-- Runs the code of a function; that of a generator only makes the generator. -/
def evaluateBody (f : ObjectId) (function : ScriptFunction H) (args : List Value) :
    Engine H Completion := do
  match function.code.kind with
  | .normal => askHost (.evaluate function.code.code f args)
  | .generator =>
    let body ← askHost (.generatorBody function.code.code f args)
    let g ← f.createFromConstructor (← intrinsic .generatorPrototype) (.generator {})
    g.startGenerator (.host body)
    return .return (.object g)

/-- Runs the code of a call in a context with its scope; a failure of the code wins over one of
leaving the context. -/
def inCall (f : ObjectId) (e : EnvironmentId) (x : Engine H α) : Engine H α := do
  let (outcome, popped) ← inContext { function := some f, lexicalEnvironment := some e } x
  let a ← ofExcept outcome
  let _ ← ofExcept popped
  return a

/-- Calls a function with code of the language. -/
def callScript (f : ObjectId) (function : ScriptFunction H) (this : Value) (args : List Value) :
    Engine H Value := do
  let e ← newCallScope function none
  let completion ← inCall f e do
    if function.isClassConstructor then
      typeError "Class constructor cannot be invoked without 'new'"
    bindReceiver function e this
    evaluateBody f function args
  match completion with
  | .return v => return v
  | .throw v => fail (.throwing v)
  | _ => return .undefined

/-- The object that a constructor without one of its own delivers: the receiver bound by then. -/
def boundReceiver (e : EnvironmentId) : Engine H ObjectId := do
  match ← e.getThisBinding with
  | .object o => return o
  | _ => internalError "derived constructor bound a non-object this"

/-- The object that a constructor delivers, given its receiver if it has one and how it ended. -/
def constructed (e : EnvironmentId) (this : Option ObjectId) (completion : Completion) :
    Engine H ObjectId := do
  match completion, this with
  | .throw v, _ => fail (.throwing v)
  | .return (.object o), _ => return o
  | _, some o => return o
  | .return .undefined, none => boundReceiver e
  | .return _, none => typeError "Derived constructors may only return object or undefined"
  | _, none => boundReceiver e

/-- Constructs with a function with code of the language. -/
def constructScript (f : ObjectId) (function : ScriptFunction H) (args : List Value)
    (newTarget : ObjectId) : Engine H ObjectId := do
  let this ← match function.constructorKind with
    | .base => do
      pure (some (← newTarget.createFromConstructor (← intrinsic .objectPrototype) .ordinary))
    | .derived => pure none
  let e ← newCallScope function (some newTarget)
  let completion ← inCall f e do
    match this with
    | some o => bindReceiver function e (.object o)
    | none => pure ()
    evaluateBody f function args
  constructed e this completion

/-! ### Every kind of function -/

/-- Revokes the proxy of a revoking function, once. -/
def callRevoke (f : ObjectId) (proxy : Option ObjectId) : Engine H Value := do
  match proxy with
  | some p =>
    f.setFunctionData (.proxyRevoke none)
    p.revokeProxy
  | none => pure ()
  return .undefined

/-- The kind of a callable object, none for any other. -/
def callTarget (f : ObjectId) : Engine H (Option (ObjectKind H)) := do
  let kind ← getKind f
  return if kind.isCallable then some kind else none

/-- Calls an object of a callable kind. -/
def callKind (behaviour : NativeBehaviour H) (f : ObjectId) (kind : ObjectKind H) (this : Value)
    (args : List Value) : Engine H Value :=
  match kind with
  | .function (.native code _) => callNative behaviour f code this args none
  | .function (.script function) => callScript f function this args
  | .function (.promiseResolve latch) => resolveWith latch (argument args 0)
  | .function (.promiseReject latch) => rejectWith latch (argument args 0)
  | .function (.capabilityExecutor slots) => executeCapability slots args
  | .function (.proxyRevoke proxy) => callRevoke f proxy
  | .boundFunction bound =>
    (Value.object bound.target).call bound.boundThis (bound.boundArgs ++ args)
  | .proxy _ => ProxyObject.call f this args
  | _ => typeError ((Value.object f).inspect ++ " is not a function")

/-- Calls a value. -/
def callFunction (behaviour : NativeBehaviour H) (f this : Value) (args : List Value) :
    Engine H Value := do
  match f with
  | .object o =>
    match ← callTarget o with
    | some kind =>
      checkTimeout
      nested (callKind behaviour o kind this args)
    | none => typeError (f.inspect ++ " is not a function")
  | f => typeError (f.inspect ++ " is not a function")

/-- Constructs with an object of a kind that can be constructed. -/
def constructKind (behaviour : NativeBehaviour H) (f : ObjectId) (kind : ObjectKind H)
    (args : List Value) (newTarget : ObjectId) : Engine H ObjectId := do
  match kind with
  | .function (.native code _) =>
    match ← callNative behaviour f code .undefined args (some newTarget) with
    | .object o => return o
    | _ => internalError "built-in constructor returned a non-object"
  | .function (.script function) => constructScript f function args newTarget
  | .boundFunction bound =>
    let newTarget := if newTarget = f then bound.target else newTarget
    bound.target.construct (bound.boundArgs ++ args) (some newTarget)
  | .proxy _ => ProxyObject.construct f args newTarget
  | _ => typeError "not a constructor"

/-- Constructs with an object. -/
def constructFunction (behaviour : NativeBehaviour H) (f : ObjectId) (args : List Value)
    (newTarget : ObjectId) : Engine H ObjectId := do
  if !(← isConstructor (.object f)) then
    typeError (((← getRealm).functionName? f).getD f.text ++ " is not a constructor")
  checkTimeout
  let kind? ← callTarget f
  nested (constructKind behaviour f (kind?.getD .ordinary) args newTarget)

end ScriptEngine
