import ScriptEngine.Builtin.Name
import ScriptEngine.Completion
import ScriptEngine.ContextStack
import ScriptEngine.Json.Basic
import ScriptEngine.Module
import ScriptEngine.PropertyMap

/-!
# Objects

An object has a prototype, a flag that allows new properties, its own properties, and a kind with
the data that the kind needs. The code of functions, the bodies of generators and the functions
that an embedding host adds are values of types that the host chooses.

## Main definitions

* `HostTypes`: the types and the library that an embedding host chooses.
* `FunctionData`, `GeneratorData`, `PromiseData`, …: the data of the kinds.
* `ObjectKind`, `Object`.
-/

namespace ScriptEngine

/-- The types and the library that an embedding host chooses, and what its code can see of the
engine. -/
structure HostTypes where
  /-- What a function of the host's language runs. -/
  Code : Type
  /-- A generator of the host's language that waits to be resumed. -/
  Body : Type
  /-- A function that the host adds. -/
  Native : Type
  /-- A job that the host enqueues. -/
  Job : Type
  /-- What the host itself remembers. -/
  Store : Type
  /-- The library for JSON. -/
  json : Json.Library
  /-- Whether the code of the host can see how deep calls are nested. -/
  seesDepth : Bool := true
  /-- Whether the code of the host moves contexts on the stack by itself, so that it may leave some
  behind or take off those of others. -/
  movesContexts : Bool := true

variable (H : HostTypes)

/-! ### Functions -/

/-- Whether running a function evaluates its body or makes a generator. -/
inductive CodeKind where
  | normal
  | generator
deriving DecidableEq, Repr

/-- The code of a function with what the engine needs to know of it. -/
structure FunctionCode where
  kind : CodeKind
  strict : Bool
  expectedArguments : Nat
  code : H.Code

/-- How a function treats its receiver. -/
inductive ThisMode where
  | lexical
  | strict
  | global
deriving DecidableEq, Repr

/-- Whether a constructor makes its own object or leaves that to its parent. -/
inductive ConstructorKind where
  | base
  | derived
deriving DecidableEq, Repr

/-- A function with code of the host's language. -/
structure ScriptFunction where
  code : FunctionCode H
  environment : Option EnvironmentId
  thisMode : ThisMode
  constructorKind : ConstructorKind := .base
  isClassConstructor : Bool := false
  isConstructor : Bool := false
  homeObject : Option ObjectId := none

/-- The behaviour of a function without code of the language. -/
inductive NativeCode where
  | builtin (name : Builtin)
  | host (native : H.Native)

/-- The function objects. -/
inductive FunctionData where
  | native (code : NativeCode H) (isConstructor : Bool)
  | script (function : ScriptFunction H)
  /-- Resolves the promise of the latch that it shares with its twin, unless that has been used. -/
  | promiseResolve (latch : Nat)
  /-- Rejects the promise of the latch that it shares with its twin, unless that has been used. -/
  | promiseReject (latch : Nat)
  /-- Stores the two functions that a promise constructor passes to it. -/
  | capabilityExecutor (slots : Nat)
  /-- Revokes a proxy, once. -/
  | proxyRevoke (proxy : Option ObjectId)

/-- A function with fixed receiver and leading arguments. -/
structure BoundFunction where
  target : ObjectId
  boundThis : Value
  boundArgs : List Value
deriving DecidableEq

/-! ### Generators -/

/-- The states of a generator. -/
inductive GeneratorState where
  | none
  | suspendedStart
  | suspendedYield
  | executing
  | completed
deriving DecidableEq, Repr

/-- What a generator does next. -/
inductive GeneratorStep where
  | yield (value : Value)
  | return (value : Value)
deriving DecidableEq

/-- What is left to run in a suspended generator. -/
inductive Continuation where
  /-- Yields the given strings one after the other. -/
  | strings (rest : List String)
  | host (body : H.Body)

/-- What the engine keeps with a context. -/
structure Frame where
  function : Option ObjectId := none
  lexicalEnvironment : Option EnvironmentId := none
  generator : Option ObjectId := none
  continuation : Option (Continuation H) := none

/-- A generator: its state and, while it is suspended, its parked context. -/
structure GeneratorData where
  state : GeneratorState := .none
  context : Option (Context (Frame H)) := none

/-- Whether a generator waits to be resumed. -/
def GeneratorState.isSuspended : GeneratorState → Bool
  | suspendedStart => true
  | suspendedYield => true
  | _ => false

/-! ### Promises -/

/-- The states of a promise. -/
inductive PromiseState where
  | pending
  | fulfilled
  | rejected
deriving DecidableEq, Repr

/-- A promise with the functions that settle it. -/
structure Capability where
  promise : ObjectId
  resolve : Value
  reject : Value
deriving DecidableEq

/-- What happens when a promise is settled: a handler is called, and its outcome settles the promise
of the capability. Without a handler the settlement itself is passed on. -/
structure Reaction where
  capability : Option Capability
  isReject : Bool
  handler : Option Value
deriving DecidableEq

/-- A promise. -/
structure PromiseData where
  state : PromiseState := .pending
  result : Value := .undefined
  isHandled : Bool := false
  fulfillReactions : List Reaction := []
  rejectReactions : List Reaction := []
deriving DecidableEq

/-! ### Other kinds -/

/-- A proxy. Target and handler are gone once it is revoked. -/
structure ProxyData where
  target : Option ObjectId
  handler : Option ObjectId
  callable : Bool
  isConstructor : Bool
deriving DecidableEq, Repr

/-- The namespace of a module: the exported names in the order of their code units. -/
structure NamespaceData where
  module : ModuleId
  exports : List String
deriving DecidableEq, Repr

/-- What an array iterator delivers. -/
inductive IterationKind where
  | keys
  | values
  | entries
deriving DecidableEq, Repr

/-- An array iterator. The array is gone once the end was found. -/
structure ArrayIterator where
  iterated : Option ObjectId
  nextIndex : Nat
  kind : IterationKind
deriving DecidableEq, Repr

/-- The kinds of objects. -/
inductive ObjectKind where
  | ordinary
  | array
  | function (data : FunctionData H)
  | boundFunction (data : BoundFunction)
  | proxy (data : ProxyData)
  | moduleNamespace (data : NamespaceData)
  | string (s : String)
  | number (n : Float)
  | boolean (b : Bool)
  | symbol (s : Symbol)
  | error
  | generator (data : GeneratorData H)
  | promise (data : PromiseData)
  | arrayIterator (data : ArrayIterator)

/-- An object. -/
structure Object where
  prototype : Option ObjectId
  extensible : Bool := true
  properties : PropertyMap := {}
  kind : ObjectKind H

variable {H}

namespace ObjectKind

/-- The name of a kind. -/
def name : ObjectKind H → String
  | ordinary => "Ordinary"
  | array => "Array"
  | function _ => "Function"
  | boundFunction _ => "BoundFunction"
  | proxy _ => "Proxy"
  | moduleNamespace _ => "Namespace"
  | string _ => "String"
  | number _ => "Number"
  | boolean _ => "Boolean"
  | symbol _ => "Symbol"
  | error => "Error"
  | generator _ => "Generator"
  | promise _ => "Promise"
  | arrayIterator _ => "ArrayIterator"

/-- The tag of the kind in the text of an object without a tag of its own. -/
def tag : ObjectKind H → String
  | array => "Array"
  | function _ => "Function"
  | boundFunction _ => "Function"
  | error => "Error"
  | boolean _ => "Boolean"
  | number _ => "Number"
  | string _ => "String"
  | _ => "Object"

/-- Whether an object of the kind can be called. -/
def isCallable : ObjectKind H → Bool
  | function _ => true
  | boundFunction _ => true
  | proxy p => p.callable
  | _ => false

/-- Whether an object of the kind is a proxy. -/
def isProxy : ObjectKind H → Bool
  | proxy _ => true
  | _ => false

/-- Whether an object of the kind is a promise. -/
def isPromise : ObjectKind H → Bool
  | promise _ => true
  | _ => false

/-- The data of a promise. -/
def promise? : ObjectKind H → Option PromiseData
  | promise data => some data
  | _ => none

/-- The data of a generator. -/
def generator? : ObjectKind H → Option (GeneratorData H)
  | generator data => some data
  | _ => none

/-- Whether a new object can be of the kind as it is. An array needs its length, a promise its
resolving functions, and a generator starts later. -/
def isNew : ObjectKind H → Bool
  | array => false
  | promise _ => false
  | generator data => data.state = .none && data.context.isNone
  | _ => true

end ObjectKind

/-- A new object of a kind without properties. -/
def Object.ofKind (prototype : Option ObjectId) (kind : ObjectKind H) : Object H :=
  { prototype, kind }

end ScriptEngine
