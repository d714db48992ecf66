import ScriptEngine.Operation.ArrayLike

/-!
# The protocol of iterators

An iterator is an object whose `next` method returns result objects. A record of an iteration
remembers the iterator, its method and whether it is known to be at its end.

## Main definitions

* `IteratorRecord`, `Value.getIterator`: the start of an iteration.
* `IteratorRecord.next`, `IteratorRecord.step`, `IteratorRecord.stepValue`: its steps.
* `IteratorRecord.close`: its end before the last element.
* `IteratorRecord.collect`, `Value.iterableToList`: all elements.
-/

namespace ScriptEngine

open Engine

variable {H : HostTypes} {α : Type}

/-- A running iteration. -/
structure IteratorRecord where
  iterator : ObjectId
  nextMethod : Value
  done : Bool := false
deriving DecidableEq

/-- The outcome of a step of an iteration together with the record after it, which is at its end if
the step failed. -/
structure IterationStep (α : Type) where
  result : Except Failure α
  record : IteratorRecord

/-- The result of a step; its failure fails. -/
def IterationStep.get (s : IterationStep α) : Engine H (α × IteratorRecord) :=
  match s.result with
  | .ok a => return (a, s.record)
  | .error f => fail f

/-- Starts an iteration with a given method. -/
def Value.getIteratorFrom (v method : Value) : Engine H IteratorRecord := do
  match ← method.call v [] with
  | .object iterator => return { iterator, nextMethod := ← iterator.getNamed "next" }
  | _ => typeError "Result of the Symbol.iterator method is not an object"

/-- Starts the iteration of a value. -/
def Value.getIterator (v : Value) : Engine H IteratorRecord := do
  match ← v.getMethod? (.wellKnown .iterator) with
  | some method => v.getIteratorFrom method
  | none => typeError (v.inspect ++ " is not iterable")

/-- Whether a result object is the last one. -/
def ObjectId.iteratorComplete (result : ObjectId) : Engine H Bool :=
  return (← result.getNamed "done").toBoolean

/-- The value of a result object. -/
def ObjectId.iteratorValue (result : ObjectId) : Engine H Value := result.getNamed "value"

namespace IteratorRecord

/-- The record at its end. -/
def finished (r : IteratorRecord) : IteratorRecord := { r with done := true }

/-- Asks for the next result object. -/
def next (r : IteratorRecord) (v : Option Value) : Engine H (IterationStep ObjectId) := do
  match ← attempt (r.nextMethod.call (.object r.iterator) v.toList) with
  | .ok (.object result) => return ⟨.ok result, r⟩
  | .ok other =>
    return ⟨.error (.typeError ("Iterator result " ++ other.inspect ++ " is not an object")),
      r.finished⟩
  | .error f => return ⟨.error f, r.finished⟩

/-- Asks for the next result object; none at the end. -/
def step (r : IteratorRecord) : Engine H (IterationStep (Option ObjectId)) := do
  let s ← r.next none
  match s.result with
  | .error f => return ⟨.error f, s.record⟩
  | .ok result =>
    match ← attempt result.iteratorComplete with
    | .ok true => return ⟨.ok none, s.record.finished⟩
    | .ok false => return ⟨.ok (some result), s.record⟩
    | .error f => return ⟨.error f, s.record.finished⟩

/-- Asks for the next value; none at the end. -/
def stepValue (r : IteratorRecord) : Engine H (IterationStep (Option Value)) := do
  let s ← r.step
  match s.result with
  | .error f => return ⟨.error f, s.record⟩
  | .ok none => return ⟨.ok none, s.record⟩
  | .ok (some result) =>
    match ← attempt result.iteratorValue with
    | .ok v => return ⟨.ok (some v), s.record⟩
    | .error f => return ⟨.error f, s.record.finished⟩

/-- The end of an iteration, given what the closing method did: a fatal failure wins over the
outcome so far, that over a failure of the method, and the method has to return an object. -/
def closing (inner outcome : Except Failure Value) : Except Failure Value :=
  match inner, outcome with
  | .error f, outcome => if f.isFatal then .error f else outcome.bind fun _ => .error f
  | .ok result, outcome => outcome.bind fun v =>
    if result.isObject then .ok v else .error (.typeError "Iterator result is not an object")

/-- Ends an iteration before its last element, with the outcome so far. -/
def close (r : IteratorRecord) (outcome : Except Failure Value) : Engine H Value := do
  let iterator := Value.object r.iterator
  match ← attempt (iterator.getMethod? (.string "return")) with
  | .ok none => ofExcept outcome
  | .ok (some method) => do
    let inner ← attempt (method.call iterator [])
    ofExcept (closing inner outcome)
  | .error f => ofExcept (closing (.error f) outcome)

end IteratorRecord

/-- A result object. -/
def iteratorResult (v : Value) (done : Bool) : Engine H ObjectId := do
  let o ← newPlain
  o.createDataPropertyOrThrow (.string "value") v
  o.createDataPropertyOrThrow (.string "done") (.bool done)
  return o

/-- Puts the next value before those that came earlier, until there is none. -/
def IteratorRecord.collect :
    IteratorRecord × List Value → Engine H (Round (IteratorRecord × List Value) (List Value))
  | (record, values) => do
    let (value?, record) ← (← record.stepValue).get
    match value? with
    | some value => return .again (record, value :: values)
    | none => return .finish values

/-- All elements of an iterable value. -/
def Value.iterableToList (v : Value) : Engine H (List Value) := do
  let reversed ← loop IteratorRecord.collect (← v.getIterator, [])
  return reversed.reverse

end ScriptEngine
