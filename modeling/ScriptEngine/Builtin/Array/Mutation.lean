import ScriptEngine.Builtin.Array.Basic

/-!
# Changing arrays in place

## Main definitions

* `ArrayFunction.pushOn`, `ArrayFunction.popFrom`, `ArrayFunction.shiftFrom`,
  `ArrayFunction.unshiftOn`, `ArrayFunction.spliceAt`, `ArrayFunction.reverseIn`,
  `ArrayFunction.fillIn`: the mutating methods.
* `mergeSort`: a stable sort whose comparison may run code.
* `ArrayFunction.sortIn`: sorting an array.
-/

namespace ScriptEngine

open Engine

variable {H : HostTypes} {α : Type}

/-! ### Sorting -/

/-- Merges two lists; an element of the right one goes first only if the left one is after it. -/
def merge (isAfter : α → α → Engine H Bool) : List α → List α → Engine H (List α)
  | [], ys => return ys
  | xs, [] => return xs
  | x :: xs, y :: ys => do
    if ← isAfter x y then return y :: (← merge isAfter (x :: xs) ys)
    else return x :: (← merge isAfter xs (y :: ys))
termination_by xs ys => xs.length + ys.length

/-- Sorts a list by halves, the left one first. -/
def mergeSort (isAfter : α → α → Engine H Bool) (xs : List α) : Engine H (List α) :=
  if xs.length ≤ 1 then return xs
  else do
    let left ← mergeSort isAfter (xs.take (xs.length / 2))
    let right ← mergeSort isAfter (xs.drop (xs.length / 2))
    merge isAfter left right
termination_by xs.length
decreasing_by all_goals simp_wf; omega

namespace ArrayFunction

/-- Whether an element is to come after another one: `undefined` after everything else, and the
others by a function or as strings. -/
def isAfter (compare x y : Value) : Engine H Bool := do
  if y.isUndefined then return false
  if x.isUndefined then return true
  if !compare.isUndefined then
    let order ← (← compare.call .undefined [x, y]).toNumber
    return 0.0 < order
  let s ← x.toText
  let t ← y.toText
  return Text.compareUnits s t == .gt

/-- The elements that are present among `count` indices from `i` on. -/
def presentElements (o : ObjectId) : (i count : Nat) → Engine H (List Value)
  | _, 0 => return []
  | i, count + 1 => do
    match ← o.element? i with
    | some v => return v :: (← presentElements o (i + 1) count)
    | none => presentElements o (i + 1) count

/-- Sorts the elements that are present to the front; the holes go to the end. -/
def sortIn (this compare : Value) : Engine H Value := do
  if !compare.isUndefined && !(← isCallable compare) then
    typeError "The comparison function must be either a function or undefined"
  let (o, length) ← ObjectId.ofReceiver this
  let items ← presentElements o 0 length
  let sorted ← mergeSort (isAfter compare) items
  o.setElements 0 sorted
  forRange o.deleteElement sorted.length (length - sorted.length)
  return .object o

/-! ### Adding and removing -/

/-- Adds elements at the end. -/
def pushOn (this : Value) (args : List Value) : Engine H Value := do
  let (o, length) ← ObjectId.ofReceiver this
  if Number.maxSafe < length + args.length then
    typeError "Pushing elements would exceed the maximum array length"
  o.setElements length args
  o.setLength (length + args.length)
  return .nat (length + args.length)

/-- Removes the last element. -/
def popFrom (this : Value) : Engine H Value := do
  let (o, length) ← ObjectId.ofReceiver this
  match length with
  | 0 =>
    o.setLength 0
    return .undefined
  | n + 1 =>
    let v ← o.get (.ofNat n)
    o.deleteElement n
    o.setLength n
    return v

/-- Removes the first element. -/
def shiftFrom (this : Value) : Engine H Value := do
  let (o, length) ← ObjectId.ofReceiver this
  match length with
  | 0 =>
    o.setLength 0
    return .undefined
  | n + 1 =>
    let v ← o.get (.ofNat 0)
    o.moveElements 1 0 n
    o.deleteElement n
    o.setLength n
    return v

/-- Adds elements at the front. -/
def unshiftOn (this : Value) (args : List Value) : Engine H Value := do
  let (o, length) ← ObjectId.ofReceiver this
  let count := args.length
  if 0 < count then
    if Number.maxSafe < length + count then
      typeError "Unshifting elements would exceed the maximum array length"
    o.moveElements 0 count length
    o.setElements 0 args
  o.setLength (length + count)
  return .nat (length + count)

/-- How many elements a splice removes: none without arguments, all from the start on with one. -/
def deleteCount (args : List Value) (available : Nat) : Engine H Nat := do
  match args with
  | [] => return 0
  | [_] => return available
  | _ :: count :: _ =>
    return Number.toNat (Number.clamp (← count.toIntegerOrInfinity) 0.0 (Float.ofNat available))

/-- Copies the elements that are present among `count` indices from `start` on. -/
def copyElements (source target : ObjectId) (start at_ count : Nat) : Engine H Unit :=
  forRange (fun i => do
    match ← source.element? (start + i) with
    | some v => target.createElement (at_ + i) v
    | none => pure ()) 0 count

/-- Replaces a run of elements by others; an array of those removed. -/
def spliceAt (this : Value) (args : List Value) : Engine H Value := do
  let (o, length) ← ObjectId.ofReceiver this
  let start ← relativeIndex (argument args 0) length 0
  let items := args.drop 2
  let removedCount ← deleteCount args (length - start)
  let itemCount := items.length
  if Number.maxSafe < length + itemCount - removedCount then
    typeError "Splice would exceed the maximum array length"
  let removed ← o.arraySpeciesCreate removedCount
  copyElements o removed start 0 removedCount
  removed.setLength removedCount
  let newLength := length - removedCount + itemCount
  if itemCount ≠ removedCount then
    o.moveElements (start + removedCount) (start + itemCount) (length - start - removedCount)
  if itemCount < removedCount then
    forRangeDown o.deleteElement (length - newLength) length
  o.setElements start items
  o.setLength newLength
  return .object removed

/-- Sets all elements of a range to one value. -/
def fillIn (this : Value) (args : List Value) : Engine H Value := do
  let (o, length) ← ObjectId.ofReceiver this
  let start ← relativeIndex (argument args 1) length 0
  let stop ← relativeIndex (argument args 2) length length
  forRange (fun i => o.setElement i (argument args 0)) start (stop - start)
  return .object o

/-- Exchanges two elements, either of which may be a hole. -/
def exchange (o : ObjectId) (lower upper : Nat) : Engine H Unit := do
  let lowerValue ← o.element? lower
  let upperValue ← o.element? upper
  match lowerValue, upperValue with
  | some l, some u =>
    o.setElement lower u
    o.setElement upper l
  | none, some u =>
    o.setElement lower u
    o.deleteElement upper
  | some l, none =>
    o.deleteElement lower
    o.setElement upper l
  | none, none => pure ()

/-- Reverses the elements. -/
def reverseIn (this : Value) : Engine H Value := do
  let (o, length) ← ObjectId.ofReceiver this
  forRange (fun i => exchange o i (length - i - 1)) 0 (length / 2)
  return .object o

end ArrayFunction
end ScriptEngine
