import ScriptEngine.Script.Operand
import ScriptEngine.Script.Render

/-!
# Generators and iterators of scripts

## Main definitions

* `IterationOperation.run`: what the operations do.
-/

namespace ScriptEngine.Script

open Engine

/-- A completion by the name of its kind. -/
def completionNamed (kind : String) (v : Value) : Completion :=
  if kind = "return" then .return v
  else if kind = "throw" then .throw v
  else if kind = "break" then .break none none
  else .normal v

/-- Takes a step of a named iteration and keeps the record after it. -/
def stepNamed {α : Type} (name : String)
    (step : IteratorRecord → Op (IterationStep α)) : Op α := do
  let s ← step (← iteratorNamed name)
  nameIterator name s.record
  ofExcept s.result

/-- What the operations do. -/
def IterationOperation.run (op : IterationOperation) (operands : List Operand) : Op Value := do
  match op, operands with
  | rawGenerator, _ =>
    return .object (← newObject (some (← intrinsic .generatorPrototype)) (.generator {}))
  | generatorState, .object g :: _ => return .string (generatorStateName (← g.generatorState))
  | resume, .value g :: v => g.resumeGenerator (firstValue v)
  | resumeAbruptly kind, .value g :: v =>
    g.resumeGeneratorAbruptly (completionNamed kind (firstValue v))
  | .open name, .value v :: _ =>
    nameIterator name (← v.getIterator)
    return .undefined
  | next name, operands =>
    return .object (← stepNamed name fun r => r.next (valuesOf operands).head?)
  | step name, _ =>
    match ← stepNamed name fun r => r.step with
    | some o => return .object o
    | none => return .bool false
  | stepValue name, _ => return (← stepNamed name fun r => r.stepValue).getD (.bool false)
  | isDone name, _ => return .bool (← iteratorNamed name).done
  | result done, .value v :: _ => return .object (← iteratorResult v done)
  | _, _ => unknownExpression

end ScriptEngine.Script
