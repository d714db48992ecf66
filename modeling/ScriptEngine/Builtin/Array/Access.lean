import ScriptEngine.Builtin.Array.Mutation
import ScriptEngine.Operation.Integrity

/-!
# Reading arrays

## Main definitions

* `ArrayFunction.concatWith`, `ArrayFunction.sliceOf`, `ArrayFunction.joinWith`: parts and texts.
* `ArrayFunction.indexOfIn`, `ArrayFunction.lastIndexOfIn`, `ArrayFunction.includesIn`: searching.
-/

namespace ScriptEngine

open Engine

variable {H : HostTypes}

/-- The texts of values with a separator between them; `null` and `undefined` are empty. -/
def joinValues (separator : String) : List Value → Engine H String
  | [] => return ""
  | [v] => if v.isNullish then return "" else v.toText
  | v :: vs => do
    let s ← if v.isNullish then pure "" else v.toText
    return s ++ separator ++ (← joinValues separator vs)

namespace ArrayFunction

/-- The element under a relative index. -/
def elementAt (this index : Value) : Engine H Value := do
  let (o, length) ← ObjectId.ofReceiver this
  let n := Float.ofNat length
  let relative ← index.toIntegerOrInfinity
  let i := if 0.0 ≤ relative then relative else n + relative
  if i < 0.0 || n ≤ i then return .undefined
  o.get (.ofNat (Number.toNat i))

/-! ### Parts -/

/-- Whether concatenation takes the elements of a value instead of the value. -/
def isSpreadable (v : Value) : Engine H Bool := do
  match v with
  | .object o =>
    let spreadable ← o.get (.wellKnown .isConcatSpreadable)
    if spreadable.isUndefined then o.isArray else return spreadable.toBoolean
  | _ => return false

/-- Appends a value, or the elements of a value, to a result that has `n` elements; how many it has
then. -/
def appendTo (result : ObjectId) (n : Nat) (item : Value) : Engine H Nat := do
  let spreadable ← isSpreadable item
  match item, spreadable with
  | .object source, true =>
    let length ← source.lengthOfArrayLike
    if Number.maxSafe < n + length then
      typeError "Concatenation would exceed the maximum array length"
    copyElements source result 0 n length
    return n + length
  | item, _ =>
    result.createElement n item
    return n + 1

/-- The receiver and the arguments in one array. -/
def concatWith (this : Value) (args : List Value) : Engine H Value := do
  let o ← this.toObject
  let result ← o.arraySpeciesCreate 0
  let n ← (Value.object o :: args).foldlM (appendTo result) 0
  result.setLength n
  return .object result

/-- A range of the elements in a new array. -/
def sliceOf (this : Value) (args : List Value) : Engine H Value := do
  let (o, length) ← ObjectId.ofReceiver this
  let start ← relativeIndex (argument args 0) length 0
  let stop ← relativeIndex (argument args 1) length length
  let result ← o.arraySpeciesCreate (stop - start)
  copyElements o result start 0 (stop - start)
  result.setLength (stop - start)
  return .object result

/-- The texts of all elements with a separator, by default a comma. All elements are read first. -/
def joinWith (this separator : Value) : Engine H Value := do
  let (o, length) ← ObjectId.ofReceiver this
  let separator ← if separator.isUndefined then pure "," else separator.toText
  let elements ← o.elementsFrom (fun _ => pure ()) 0 length
  return .string (← joinValues separator elements)

/-- The text of the receiver: by its own `join` method, if it has one. -/
def textOf (this : Value) : Engine H Value := do
  let o ← this.toObject
  let join ← o.getNamed "join"
  if ← isCallable join then join.call (.object o) []
  else return .string (← (Value.object o).tagText)

/-! ### Searching -/

/-- The index of a value or minus one. -/
def indexValue : Option Nat → Value
  | some i => .nat i
  | none => .number (-1.0)

/-- Whether an element is present and strictly equal to a value. -/
def isElement (o : ObjectId) (target : Value) (i : Nat) : Engine H (Option Nat) := do
  match ← o.element? i with
  | some v => return if v.strictEquals target then some i else none
  | none => return none

/-- The first index of a value. -/
def indexOfIn (this : Value) (args : List Value) : Engine H Value := do
  let (o, length) ← ObjectId.ofReceiver this
  if length = 0 then return indexValue none
  let start ← relativeIndex (argument args 1) length 0
  return indexValue (← firstInRange (isElement o (argument args 0)) start (length - start))

/-- Where a search from the end starts. -/
def lastStart (args : List Value) (length : Nat) : Engine H Float := do
  let last := Float.ofNat length - 1.0
  if args.length ≤ 1 then return last
  let n ← (argument args 1).toIntegerOrInfinity
  return if 0.0 ≤ n then Number.atMost n last else Float.ofNat length + n

/-- The last index of a value. -/
def lastIndexOfIn (this : Value) (args : List Value) : Engine H Value := do
  let (o, length) ← ObjectId.ofReceiver this
  if length = 0 then return indexValue none
  let start ← lastStart args length
  if start < 0.0 then return indexValue none
  let top := Number.toNat start
  let found ← firstInRange (fun i => isElement o (argument args 0) (top - i)) 0 (top + 1)
  return indexValue found

/-- Whether a value is among the elements; holes count as `undefined`. -/
def includesIn (this : Value) (args : List Value) : Engine H Value := do
  let (o, length) ← ObjectId.ofReceiver this
  if length = 0 then return .bool false
  let start ← relativeIndex (argument args 1) length 0
  let found ← firstInRange (fun i => do
    let v ← o.get (.ofNat i)
    return if v.sameValueZero (argument args 0) then some i else none) start (length - start)
  return .bool found.isSome

end ArrayFunction
end ScriptEngine
