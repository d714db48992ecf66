import ScriptEngine.Operation.Function
import ScriptEngine.Script.Operand

/-!
# Variables and functions of scripts

## Main definitions

* `FunctionOperation.run`: what the operations do.
-/

namespace ScriptEngine.Script

open Engine

/-- Declares a variable in the running scope. -/
def declareVariable (name : String) (isMutable : Bool) (v : Value) : Op Unit := do
  let e ← runningScope
  if isMutable then e.createMutableBinding name false else e.createImmutableBinding name true
  e.initializeBinding name v

/-- What is known of a value as a function. -/
def describeFunction (v : Value) : Op Value := do
  let isCallable ← isCallable v
  let isConstructor ← isConstructor v
  let more ← match v with
    | .object o => do
      let target ← o.boundTarget?
      let home ← o.homeObject?
      pure [Value.ofObject? target, Value.ofObject? home]
    | _ => pure []
  arrayValue (.bool isCallable :: .bool isConstructor :: more)

/-- Constructs with a value. -/
def constructValue (f : Value) (args : List Value) : Op Value := do
  match f with
  | .object o => return .object (← o.construct args)
  | _ => typeError "not a constructor"

/-- What the operations do. -/
def FunctionOperation.run (op : FunctionOperation) (operands : List Operand) : Op Value := do
  match op, operands with
  | readVariable name strict, _ => (← resolveBinding name strict).getValue
  | deleteVariable name strict, _ => return .bool (← (← resolveBinding name strict).delete)
  | declare name isMutable, operands =>
    declareVariable name isMutable (firstValue operands)
    return .undefined
  | native name body length isConstructor, _ =>
    return .object (← nativeFunction (.host body) length (.ofString name) isConstructor)
  | this, _ => resolveThisBinding
  | newTarget, _ => runningNewTarget
  | call, .value f :: .value receiver :: args => f.call receiver (valuesOf args)
  | invoke, .value v :: .key k :: args => v.invoke k (valuesOf args)
  | construct, .value f :: args => constructValue f (valuesOf args)
  | constructFor, .object f :: .object target :: args =>
    return .object (← f.construct (valuesOf args) (some target))
  | bind, .object f :: .value receiver :: args =>
    return .object (← boundFunction f receiver (valuesOf args))
  | setName word, .object f :: .key k :: _ =>
    f.setFunctionName k word
    return .string (← f.nameOf)
  | describe, .value v :: _ => describeFunction v
  | makeClass, .object f :: _ =>
    f.makeClassConstructor
    return .undefined
  | makeDerived, .object f :: _ =>
    f.setConstructorKind .derived
    return .undefined
  | makeConstructor writable, .object f :: prototype =>
    f.makeConstructor writable (firstValue prototype).object?
    return .undefined
  | makeMethod, .object f :: .object home :: _ =>
    f.makeMethod home
    return .undefined
  | _, _ => unknownExpression

end ScriptEngine.Script
