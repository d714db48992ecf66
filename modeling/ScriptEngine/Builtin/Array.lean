import ScriptEngine.Builtin.Array.Creation
import ScriptEngine.Builtin.Array.Iteration
import ScriptEngine.Builtin.Install

/-!
# `Array`

The constructor `Array`, its functions, the methods of its prototype and array iterators.

## Main definitions

* `ArrayFunction.run`: what the functions do.
* `ArrayFunction.install`: where they stand.
-/

namespace ScriptEngine.ArrayFunction

open Engine

variable {H : HostTypes}

/-- A new iterator over the receiver. -/
def iteratorOver (this : Value) (kind : IterationKind) : Engine H Value := do
  return .object (← newArrayIterator (← this.toObject) kind)

/-- What the functions do. -/
def run (f : ArrayFunction) (this : Value) (args : List Value) (newTarget : Option ObjectId) :
    Engine H Value := do
  let first := argument args 0
  match f with
  | construct => make args newTarget
  | isArray => return .bool (← first.isArray)
  | of => makeOf this args
  | .from => makeFrom this args
  | push => pushOn this args
  | pop => popFrom this
  | shift => shiftFrom this
  | unshift => unshiftOn this args
  | splice => spliceAt this args
  | reverse => reverseIn this
  | sort => sortIn this first
  | fill => fillIn this args
  | .at => elementAt this first
  | concat => concatWith this args
  | slice => sliceOf this args
  | join => joinWith this first
  | toString => textOf this
  | indexOf => indexOfIn this args
  | lastIndexOf => lastIndexOfIn this args
  | includes => includesIn this args
  | forEach => forEachOf this args
  | map => mapWith this args
  | filter => filterWith this args
  | reduce => reduceWith this args
  | find => return ((← findIn this args "find").map Prod.snd).getD .undefined
  | findIndex => return indexValue ((← findIn this args "findIndex").map Prod.fst)
  | everyElement => return .bool (← noneGives false this args "every")
  | anyElement => return .bool !(← noneGives true this args "some")
  | keys => iteratorOver this .keys
  | entries => iteratorOver this .entries
  | values => iteratorOver this .values
  | iteratorNext => iterate this

/-- The methods of the prototype, but for the one that iterates values. -/
def prototypeMethods : List MethodEntry :=
  [.named "push" (.array push) 1,
   .named "pop" (.array pop) 0,
   .named "shift" (.array shift) 0,
   .named "unshift" (.array unshift) 1,
   .named "splice" (.array splice) 2,
   .named "reverse" (.array reverse) 0,
   .named "sort" (.array sort) 1,
   .named "fill" (.array fill) 1,
   .named "at" (.array .at) 1,
   .named "concat" (.array concat) 1,
   .named "slice" (.array slice) 2,
   .named "join" (.array join) 1,
   .named "toString" (.array toString) 0,
   .named "indexOf" (.array indexOf) 1,
   .named "lastIndexOf" (.array lastIndexOf) 1,
   .named "includes" (.array includes) 1,
   .named "forEach" (.array forEach) 1,
   .named "map" (.array map) 1,
   .named "filter" (.array filter) 1,
   .named "reduce" (.array reduce) 1,
   .named "find" (.array find) 1,
   .named "findIndex" (.array findIndex) 1,
   .named "every" (.array everyElement) 1,
   .named "some" (.array anyElement) 1,
   .named "keys" (.array keys) 0,
   .named "entries" (.array entries) 0]

/-- Installs the constructor, the methods and the prototype of array iterators. -/
def install : Engine H Unit := do
  let prototype ← intrinsic .arrayPrototype
  prototype.installMethods prototypeMethods
  let iterateValues ← prototype.installMethod (.named "values" (.array values) 0)
  setIntrinsic .arrayPrototypeValues iterateValues
  prototype.defineBuiltin (.wellKnown .iterator) (.object iterateValues)
  let constructor ← installConstructor (.array construct) 1 "Array" prototype
  setIntrinsic .array constructor
  constructor.installMethods
    [.named "isArray" (.array isArray) 1,
     .named "of" (.array of) 0,
     .named "from" (.array .from) 1]
  constructor.installSpecies
  let iteratorPrototype ← intrinsic .arrayIteratorPrototype
  let _ ← iteratorPrototype.installMethod (.named "next" (.array iteratorNext) 0)
  iteratorPrototype.defineTag "Array Iterator"

end ScriptEngine.ArrayFunction
