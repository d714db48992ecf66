import ScriptEngine.Builtin

/-!
# Making a realm

A new realm gets its prototypes first, since every function inherits from one of them, then the
constructors and functions, then the global object and its scope. If the limits of the realm do not
even allow that much, the realm counts as stopped and keeps what was made.

## Main definitions

* `makePrototypes`, `installFunctions`, `makeGlobal`: the three stages of `makeContents`.
* `bootstrap`: makes the contents of a realm and its root context.
-/

namespace ScriptEngine

open Engine

variable {H : HostTypes}

/-- Makes an intrinsic object of a kind that inherits from another one. -/
def makeIntrinsic (name parent : Intrinsic) (kind : ObjectKind H)
    (isNew : kind.isNew = true := by exact Eq.refl true) : Engine H Unit := do
  setIntrinsic name (← newObject (some (← intrinsic parent)) kind isNew)

/-- Makes the prototypes, without their properties. -/
def makePrototypes : Engine H Unit := do
  let root ← intrinsic .objectPrototype
  makeIntrinsic .functionPrototype .objectPrototype
    (.function (.native (.builtin (.function .prototype)) false))
  setIntrinsic .arrayPrototype (← arrayCreate 0 (some root))
  setIntrinsic .stringPrototype (← stringCreate "" (some root))
  makeIntrinsic .numberPrototype .objectPrototype (.number 0.0)
  makeIntrinsic .booleanPrototype .objectPrototype (.boolean false)
  makeIntrinsic .symbolPrototype .objectPrototype .ordinary
  makeIntrinsic (.errorPrototype .error) .objectPrototype .ordinary
  (ErrorKind.all.filter (· ≠ .error)).forM fun kind =>
    makeIntrinsic (.errorPrototype kind) (.errorPrototype .error) .ordinary
  makeIntrinsic .iteratorPrototype .objectPrototype .ordinary
  makeIntrinsic .arrayIteratorPrototype .iteratorPrototype .ordinary
  makeIntrinsic .generatorFunctionPrototype .functionPrototype .ordinary
  makeIntrinsic .generatorPrototype .iteratorPrototype .ordinary
  makeIntrinsic .promisePrototype .objectPrototype .ordinary

/-- Installs the constructors, functions and properties of the intrinsic objects. -/
def installFunctions : Engine H Unit := do
  ObjectFunction.install
  FunctionFunction.install
  GeneratorFunction.installIterator
  ArrayFunction.install
  StringFunction.install
  NumberFunction.install
  BooleanFunction.install
  SymbolFunction.install
  installErrors
  GeneratorFunction.install
  PromiseFunction.install
  ProxyFunction.install
  ReflectFunction.install
  JsonFunction.install
  MathFunction.install
  GlobalFunction.install

/-- A new global scope over an object. -/
def newGlobalEnvironment (object thisObject : ObjectId) : Engine H EnvironmentId := do
  let objectRecord ← newEnvironment none (.object object false)
  newEnvironment none (.global { objectRecord, object, thisObject, varNames := [] })

/-- The intrinsic objects that have a global name. -/
def globalNames : List (String × Intrinsic) :=
  [("Object", .object), ("Function", .function), ("Array", .array), ("String", .string),
   ("Number", .number), ("Boolean", .boolean), ("Symbol", .symbol), ("Error", .error .error),
   ("EvalError", .error .evalError), ("RangeError", .error .rangeError),
   ("ReferenceError", .error .referenceError), ("SyntaxError", .error .syntaxError),
   ("TypeError", .error .typeError), ("URIError", .error .uriError), ("Promise", .promise),
   ("Proxy", .proxy), ("Reflect", .reflect), ("JSON", .json), ("Math", .math), ("eval", .eval)]

/-- Makes the global object with its properties, and the global scope. -/
def makeGlobal : Engine H Unit := do
  let global ← newPlain
  adjust fun realm => { realm with globalObject := global }
  let scope ← newGlobalEnvironment global global
  adjust fun realm => { realm with globalEnvironment := scope }
  global.defineConstant "globalThis" (.object global)
  global.defineConstant "Infinity" (.number Number.infinity)
  global.defineConstant "NaN" (.number Number.nan)
  global.defineConstant "undefined" .undefined
  globalNames.forM fun (name, i) => do global.defineConstant name (.object (← intrinsic i))
  GlobalFunction.installOn global

/-- Makes the contents of a realm; what came of it. -/
def makeContents : Engine H (Except Failure Unit) := do
  setIntrinsic .objectPrototype (← newOrdinary none)
  attempt do
    makePrototypes
    installFunctions
    makeGlobal

/-- The realm, stopped for good if making its contents came to a failure. -/
def Realm.stoppedBy (realm : Realm H) : (outcome : Except Failure Unit) → Realm H
  | .ok () => realm
  | .error _ => { realm with aborted := some (realm.aborted.getD 0) }

/-- The realm with the context that is at the bottom of the stack, suspended until an evaluation
starts. It is put there and suspended at one look at the clock. -/
def Realm.withRootContext (realm : Realm H) : Realm H :=
  let now := realm.clock
  let realm := realm.withNewContext { lexicalEnvironment := some realm.globalEnvironment }
  { realm with
    contexts := realm.contexts.modifyTop (·.stop now)
    rootContext := realm.contexts.lastId }

/-- Makes the contents of a realm and its root context. -/
def bootstrap : Action H Unit := do
  let outcome ← makeContents.act
  modify fun realm => (realm.stoppedBy outcome).withRootContext

end ScriptEngine
