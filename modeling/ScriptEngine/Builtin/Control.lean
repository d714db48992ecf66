import ScriptEngine.Builtin.Function
import ScriptEngine.Operation.Generator
import ScriptEngine.Operation.Promise

/-!
# `Promise`, generators and the global functions

## Main definitions

* `PromiseFunction.run`, `PromiseFunction.install`.
* `GeneratorFunction.run`, `GeneratorFunction.installIterator`, `GeneratorFunction.install`.
* `performEval`, `GlobalFunction.run`, `GlobalFunction.install`.
-/

namespace ScriptEngine

open Engine

variable {H : HostTypes}

/-! ### Promises -/

namespace PromiseFunction

/-- The constructor: a new promise that an executor may settle. -/
def make (executor : Value) (newTarget : Option ObjectId) : Engine H Value := do
  match newTarget with
  | none => typeError "Promise constructor cannot be invoked without 'new'"
  | some target =>
    if !(← isCallable executor) then typeError "Promise resolver is not a function"
    let prototype ← target.prototypeFromConstructor (← intrinsic .promisePrototype)
    let (p, latch) ← newPromise prototype
    let pair ← resolvingFunctions latch
    callWithResolvers executor .undefined pair.1 pair.2
    return .object p

/-- Attaches reactions to the receiver; a promise of the same species for their outcome. -/
def thenOn (this onFulfilled onRejected : Value) : Engine H Value := do
  let isPromise ← this.isPromise
  match this, isPromise with
  | .object p, true =>
    let species ← p.speciesConstructor (← intrinsic .promise)
    let capability ← (Value.object species).newCapability
    p.performThen onFulfilled onRejected (some capability)
  | _, _ => typeError "Promise.prototype.then called on incompatible receiver"

/-- What the functions do. -/
def run (f : PromiseFunction) (this : Value) (args : List Value) (newTarget : Option ObjectId) :
    Engine H Value := do
  let first := argument args 0
  match f with
  | construct => make first newTarget
  | resolve =>
    match this with
    | .object c => return .object (← c.promiseResolve first)
    | _ => typeError "Promise.resolve called on non-object"
  | reject => do
    let capability ← this.newCapability
    let _ ← capability.reject.call .undefined [first]
    return .object capability.promise
  | .then => thenOn this first (argument args 1)
  | .catch => this.invoke (.string "then") [.undefined, first]

/-- Installs the constructor and the methods. -/
def install : Engine H Unit := do
  let prototype ← intrinsic .promisePrototype
  prototype.installMethods
    [.named "catch" (.promise .catch) 1, .named "then" (.promise .then) 2]
  prototype.defineTag "Promise"
  let constructor ← installConstructor (.promise construct) 1 "Promise" prototype
  setIntrinsic .promise constructor
  constructor.installMethods
    [.named "reject" (.promise reject) 1, .named "resolve" (.promise resolve) 1]
  constructor.installSpecies

end PromiseFunction

/-! ### Generators -/

namespace GeneratorFunction

/-- What the functions do. -/
def run (f : GeneratorFunction) (this : Value) (args : List Value) : Engine H Value :=
  let first := argument args 0
  match f with
  | iteratorSelf => pure this
  | next => this.resumeGenerator first
  | .return => this.resumeGeneratorAbruptly (.return first)
  | .throw => this.resumeGeneratorAbruptly (.throw first)

/-- Makes every iterator iterable. -/
def installIterator : Engine H Unit := do
  let prototype ← intrinsic .iteratorPrototype
  let _ ← prototype.installMethod
    { key := .wellKnown .iterator, behaviour := .generator iteratorSelf, length := 0 }

/-- Installs the methods. The prototypes of generators and of their functions point to each
other. -/
def install : Engine H Unit := do
  let functionPrototype ← intrinsic .generatorFunctionPrototype
  let prototype ← intrinsic .generatorPrototype
  functionPrototype.defineOrThrow (.string "prototype") (.data (.object prototype) false false true)
  prototype.defineOrThrow (.string "constructor")
    (.data (.object functionPrototype) false false true)
  functionPrototype.defineTag "GeneratorFunction"
  prototype.installMethods
    [.named "next" (.generator next) 1,
     .named "return" (.generator .return) 1,
     .named "throw" (.generator .throw) 1]
  prototype.defineTag "Generator"

end GeneratorFunction

/-! ### Global functions -/

/-- Evaluates source text, if the host permits it. -/
def performEval (source : String) : Engine H Value := do
  ensureCanCompile source
  requireEvaluator (← askHost (.evaluateSource source))

namespace GlobalFunction

/-- What the functions do. -/
def run (f : GlobalFunction) (args : List Value) : Engine H Value := do
  let first := argument args 0
  match f with
  | eval =>
    match first with
    | .string source => performEval source
    | other => return other
  | isNaN => return .bool (← first.toNumber).isNaN
  | isFinite => return .bool (← first.toNumber).isFinite

/-- Makes the function that evaluates source text. -/
def install : Engine H Unit := do
  setIntrinsic .eval (← builtinFunction (.global eval) 1 (.string "eval"))

/-- Installs the other functions on the global object. Those that read numbers are shared with
`Number`. -/
def installOn (global : ObjectId) : Engine H Unit := do
  global.defineConstant "isNaN" (.object (← builtinFunction (.global isNaN) 1 (.string "isNaN")))
  global.defineConstant "isFinite"
    (.object (← builtinFunction (.global isFinite) 1 (.string "isFinite")))
  let number ← intrinsic .number
  ["parseFloat", "parseInt"].forM fun name => do
    global.defineConstant name (← number.getNamed name)

end GlobalFunction
end ScriptEngine
