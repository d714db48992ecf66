import ScriptEngine.Method.Ordinary
import ScriptEngine.Operation.ArrayLike

/-!
# Internal methods of arrays

An array keeps its length above every index that it has: defining an element beyond the end raises
the length, and lowering the length deletes elements from the end on, until one cannot be deleted.

## Main definitions

* `ArrayObject.setLength`: a request to define the length.
* `ArrayObject.defineOwnProperty`: the one method in which arrays differ.
-/

namespace ScriptEngine.ArrayObject

open Engine

variable {H : HostTypes}

/-- The length in a stored property. -/
def lengthOf (d : Descriptor) : Nat :=
  match d.value with
  | some (.number n) => min (Number.toNat n) (Number.twoPow 32 - 1)
  | _ => 0

/-- The stored length property. -/
def lengthProperty (o : ObjectId) : Engine H Descriptor := do
  match ← Ordinary.getOwnProperty o lengthKey with
  | some d => return d
  | none => internalError "array without a length property"

/-- The length that a value denotes; it has to be an integer below `2 ^ 32`. -/
def requestedLength (v : Value) : Engine H Nat := do
  let length ← v.toUint32
  let n ← v.toNumber
  if !(Float.ofNat length == n) then rangeError "Invalid array length"
  return length

/-- Deletes elements in the given order; the index of the first one that stays. -/
def deleteElements (o : ObjectId) : List ArrayIndex → Engine H (Option ArrayIndex)
  | [] => return none
  | i :: is => do
    if ← o.delete (.index i) then deleteElements o is else return some i

/-- The first request when the length is lowered. A request to make it read-only has to wait, so
that it does not stand in the way of the length that a remaining element calls for. -/
def lowerRequest (d : Descriptor) : Descriptor :=
  if d.writable = some false then { d with writable := some true } else d

/-- Lowers the length. -/
def lowerLength (o : ObjectId) (d : Descriptor) (length : Nat) : Action H Bool := do
  if !(← Ordinary.defineOwnProperty o lengthKey (lowerRequest d)) then return false
  let array ← (getObject o).act
  match ← (deleteElements o (array.properties.descendingFrom length)).act with
  | some remaining =>
    let _ ← Ordinary.defineOwnProperty o lengthKey
      { d with value := some (.nat (remaining.val + 1)) }
    return false
  | none =>
    if d.writable = some false then
      let _ ← Ordinary.defineOwnProperty o lengthKey { writable := some false }
    return true

/-- Carries out a request to define the length with a given value. -/
def setLengthTo (o : ObjectId) (d : Descriptor) (length : Nat) : Action H Bool := do
  let d := { d with value := some (.nat length) }
  let current ← (lengthProperty o).act
  if lengthOf current ≤ length then Ordinary.defineOwnProperty o lengthKey d
  else if !current.isWritable then return false
  else lowerLength o d length

/-- Carries out a request to define the length. -/
def setLength (o : ObjectId) (d : Descriptor) : Action H Bool := do
  match d.value with
  | none => Ordinary.defineOwnProperty o lengthKey d
  | some v => setLengthTo o d (← (requestedLength v).act)

/-- Defines an element and raises the length above it. -/
def defineElement (o : ObjectId) (i : ArrayIndex) (d : Descriptor) : Action H Bool := do
  let current ← (lengthProperty o).act
  let length := lengthOf current
  if length ≤ i.val && !current.isWritable then return false
  if !(← Ordinary.defineOwnProperty o (.index i) d) then return false
  if length ≤ i.val then
    let _ ← Ordinary.defineOwnProperty o lengthKey { current with value := some (.nat (i.val + 1)) }
  return true

/-- Creates or changes a property of an array. -/
def defineOwnProperty (o : ObjectId) (k : PropertyKey) (d : Descriptor) : Action H Bool :=
  if k.isName "length" then setLength o d
  else
    match k with
    | .index i => defineElement o i d
    | k => Ordinary.defineOwnProperty o k d

end ScriptEngine.ArrayObject
