import ScriptEngine.Operation.ArrayLike
import ScriptEngine.Operation.Function

/-!
# Common parts of the array functions

Indices relative to a length, elements that may be missing, and arrays of the same species as
another one.

## Main definitions

* `relativeIndex`, `resolveRelative`: an argument that counts from the start or from the end.
* `ObjectId.element?`: an element or a hole.
* `ObjectId.setLength`, `ObjectId.moveElements`: changes of array-like objects.
* `ObjectId.arraySpeciesCreate`: a new array of the same species.
-/

namespace ScriptEngine

open Engine

variable {H : HostTypes}

/-- The index that a relative index means: a negative one counts from the end, and both ends are
limits. -/
def resolveRelative (relative : Float) (length : Nat) : Nat :=
  let n := Float.ofNat length
  if relative < 0.0 then Number.toNat (Number.atLeast (n + relative) 0.0)
  else Number.toNat (Number.atMost relative n)

/-- The index that an argument means, with a value for `undefined`. -/
def relativeIndex (v : Value) (length fallback : Nat) : Engine H Nat := do
  if v.isUndefined then return fallback
  return resolveRelative (← v.toIntegerOrInfinity) length

namespace ObjectId

/-- The receiver as an object together with its length. -/
def ofReceiver (this : Value) : Engine H (ObjectId × Nat) := do
  let o ← this.toObject
  return (o, ← o.lengthOfArrayLike)

/-- The element under an index, none for a hole. -/
def element? (o : ObjectId) (i : Nat) : Engine H (Option Value) := do
  if ← o.hasProperty (.ofNat i) then return some (← o.get (.ofNat i))
  return none

/-- Sets the element under an index. -/
def setElement (o : ObjectId) (i : Nat) (v : Value) : Engine H Unit := o.put (.ofNat i) v true

/-- Removes the element under an index. -/
def deleteElement (o : ObjectId) (i : Nat) : Engine H Unit := o.deleteOrThrow (.ofNat i)

/-- Creates the element under an index. -/
def createElement (o : ObjectId) (i : Nat) (v : Value) : Engine H Unit :=
  o.createDataPropertyOrThrow (.ofNat i) v

/-- Sets the elements from an index on. -/
def setElements (o : ObjectId) : (i : Nat) → List Value → Engine H Unit
  | _, [] => pure ()
  | i, v :: vs => do
    o.setElement i v
    o.setElements (i + 1) vs

/-- Sets the length. -/
def setLength (o : ObjectId) (length : Nat) : Engine H Unit := o.put lengthKey (.nat length) true

/-- Moves one element, or the hole in its place. -/
def moveElement (o : ObjectId) (source target : Nat) : Engine H Unit := do
  match ← o.element? source with
  | some v => o.setElement target v
  | none => o.deleteElement target

/-- Moves a run of elements to another place; the order of the steps lets the two overlap. -/
def moveElements (o : ObjectId) (source target count : Nat) : Engine H Unit :=
  let step := fun i => o.moveElement (source + i) (target + i)
  if target < source then forRange step 0 count else forRangeDown step count count

/-- A new array of the same species as an object. -/
def arraySpeciesCreate (o : ObjectId) (length : Nat) : Engine H ObjectId := do
  if !(← o.isArray) then arrayCreate length
  else
    let constructor ← o.getNamed "constructor"
    let species ← match constructor with
      | .object c => do
        let species ← c.get (.wellKnown .species)
        pure (if species = .null then Value.undefined else species)
      | other => pure other
    match species with
    | .undefined => arrayCreate length
    | .object c =>
      if ← isConstructor species then c.construct [.nat length]
      else typeError "object.constructor[Symbol.species] is not a constructor"
    | _ => typeError "object.constructor[Symbol.species] is not a constructor"

end ObjectId
end ScriptEngine
