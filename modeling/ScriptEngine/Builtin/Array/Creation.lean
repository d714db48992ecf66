import ScriptEngine.Builtin.Array.Basic
import ScriptEngine.Operation.Iterator

/-!
# New arrays

## Main definitions

* `ArrayFunction.make`, `ArrayFunction.makeOf`, `ArrayFunction.makeFrom`: the constructor and its
  functions.
-/

namespace ScriptEngine.ArrayFunction

open Engine

variable {H : HostTypes}

/-- The constructor: a single number is a length, all else are elements. -/
def make (args : List Value) (newTarget : Option ObjectId) : Engine H Value := do
  let newTarget := newTarget.getD (← intrinsic .array)
  let prototype ← newTarget.prototypeFromConstructor (← intrinsic .arrayPrototype)
  match args with
  | [.number n] =>
    let length := Number.toUint32 n
    if !(Float.ofNat length == n) then rangeError "Invalid array length"
    return .object (← arrayCreate length (some prototype))
  | elements =>
    let array ← arrayCreate 0 (some prototype)
    array.createElements 0 elements
    return .object array

/-- A new object of the receiver, if that is a constructor, else a new array. -/
def constructLike (this : Value) (length : Option Nat) : Engine H ObjectId := do
  match this with
  | .object c =>
    if ← isConstructor this then c.construct (length.map Value.nat).toList
    else arrayCreate (length.getD 0)
  | _ => arrayCreate (length.getD 0)

/-- An array of the arguments. -/
def makeOf (this : Value) (args : List Value) : Engine H Value := do
  let array ← constructLike this (some args.length)
  array.createElements 0 args
  array.setLength args.length
  return .object array

/-- How the elements of a source are changed on the way. -/
structure Mapper where
  function : Value
  this : Value

/-- The changed element. -/
def Mapper.apply (mapper : Option Mapper) (v : Value) (i : Nat) : Engine H Value :=
  match mapper with
  | some m => m.function.call m.this [v, .nat i]
  | none => pure v

/-- Fills an array from an iteration. A failure of the mapping closes the iteration. -/
def fillFromIterator (array : ObjectId) (mapper : Option Mapper) (record : IteratorRecord) :
    Engine H Value :=
  loop (fun ((record, i) : IteratorRecord × Nat) => do
    let (next?, record) ← (← record.stepValue).get
    match next? with
    | none =>
      array.setLength i
      return .finish (.object array)
    | some next =>
      match ← attempt do array.createElement i (← Mapper.apply mapper next i) with
      | .ok () => return .again (record, i + 1)
      | .error f => return .finish (← record.close (.error f))) (record, 0)

/-- Fills an array from an array-like object. -/
def fillFromArrayLike (array source : ObjectId) (mapper : Option Mapper) (length : Nat) :
    Engine H Value := do
  forRange (fun i => do
    let v ← source.get (.ofNat i)
    array.createElement i (← Mapper.apply mapper v i)) 0 length
  array.setLength length
  return .object array

/-- An array of the elements of an iterable or array-like value. -/
def makeFrom (this : Value) (args : List Value) : Engine H Value := do
  let items := argument args 0
  let function := argument args 1
  let mapper : Option Mapper :=
    if function.isUndefined then none else some { function, this := argument args 2 }
  if mapper.isSome && !(← isCallable function) then
    typeError "Array.from: mapper is not a function"
  match ← items.getMethod? (.wellKnown .iterator) with
  | some method =>
    let array ← constructLike this none
    fillFromIterator array mapper (← items.getIteratorFrom method)
  | none =>
    let source ← items.toObject
    let length ← source.lengthOfArrayLike
    let array ← constructLike this (some length)
    fillFromArrayLike array source mapper length

end ScriptEngine.ArrayFunction
