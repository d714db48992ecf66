import ScriptEngine.Script.Evaluate

/-!
# Generators of scripts

The body of a generator is a list of items with a position. A yield stops at its place; what the
generator is resumed with is treated there before the items after it run.

## Main definitions

* `Resumption.accept`: what happens where a generator is resumed.
* `Body.runItem`: runs the item at a position.
* `Body.resume`: runs items up to the next yield.
-/

namespace ScriptEngine.Script

open Engine

/-- The return value if a statement returned; a statement may not jump out of a body. -/
def returnOf : Completion → Op (Option Value)
  | .return v => return some v
  | .throw v => fail (.throwing v)
  | .normal _ => return none
  | .empty => return none
  | _ => misuse "stray break/continue"

/-- Runs a handler with a value bound to `e`; the value that it returns, if it does. -/
def runHandler (statements : List Statement) (v : Value) : Run (Option Value) := do
  returnOf (← inBlock fun e => do
    declareIn e "e" v
    runList .empty statements)

/-- Assigns a variable of the running scope, which is declared if need be. -/
def assignOrDeclare (name : String) (v : Value) : Op Unit := do
  let e ← runningScope
  if ← e.hasBinding name then e.setMutableBinding name v true else declareIn e name v

/-- What happens where a generator is resumed; the value that it returns, if it does. -/
def Resumption.accept (r : Resumption) (completion : Completion) : Run (Option Value) := do
  let ⟨target, onThrow, onReturn, keepGoing⟩ := r
  match completion with
  | .throw v =>
    match onThrow with
    | none => (fail (.throwing v)).toRoutine
    | some statements => runHandler statements v
  | .return v =>
    let returned ← match onReturn with
      | none => pure none
      | some statements => runHandler statements v
    match returned with
    | some w => return some w
    | none => return if keepGoing then none else some v
  | c =>
    match target with
    | some name => assignOrDeclare name c.valueD
    | none => pure ()
    return none

/-- Runs the item at a position: the next position, or the step that the generator takes. -/
def Body.runItem (items : List GeneratorItem) (position : Nat) :
    Run (Round Nat (GeneratorStep × Body)) := do
  match items[position]? with
  | none => return .finish (.return .undefined, { items, position })
  | some (.plain s) =>
    match ← returnOf (← runStatement s) with
    | some v => return .finish (.return v, { items, position })
    | none => return .again (position + 1)
  | some (.yield e resumption) =>
    let v ← evaluate e
    return .finish (.yield v, { items, position := position + 1, waiting := some resumption })
  | some (.jumpIf condition target) =>
    return .again (if (← evaluate condition).toBoolean then target else position + 1)

/-- Resumes a generator. -/
def Body.resume (b : Body) (completion : Completion) : Run (GeneratorStep × Body) := do
  let returned ← match b.waiting with
    | some resumption => resumption.accept completion
    | none => pure none
  match returned with
  | some v => return (.return v, b)
  | none => .loop (Body.runItem b.items) b.position

end ScriptEngine.Script
