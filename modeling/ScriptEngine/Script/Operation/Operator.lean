import ScriptEngine.Script.Operand

/-!
# Operators of scripts

## Main definitions

* `Operator.run`: what the operators do.
-/

namespace ScriptEngine.Script

open Engine

/-- The sum of two numbers, or the strings of two values put together if one is a string. -/
def addValues (a b : Value) : Op Value := do
  let a ← a.toPrimitive .default
  let b ← b.toPrimitive .default
  match a, b with
  | .string s, b => return .string (s ++ (← b.toText))
  | a, .string t => return .string ((← a.toText) ++ t)
  | a, b =>
    let x ← a.toNumber
    let y ← b.toNumber
    return .number (x + y)

/-- The numbers of two values, the first converted first. -/
def numbersOf (a b : Value) : Op (Float × Float) := do
  let x ← a.toNumber
  let y ← b.toNumber
  return (x, y)

/-- A truth value, or undefined. -/
def ofBool? : Option Bool → Value
  | some b => .bool b
  | none => .undefined

/-- What the operators of one value do. -/
def Operator.run₁ (op : Operator) (v : Value) : Op Value := do
  match op with
  | typeOf => return .string (if ← isCallable v then "function" else v.kindName)
  | not => return .bool (!v.toBoolean)
  | debug => return .string v.inspect
  | _ => unknownExpression

/-- What the operators of two values do. -/
def Operator.run₂ (op : Operator) (a b : Value) : Op Value := do
  match op with
  | add => addValues a b
  | subtract =>
    let (x, y) ← numbersOf a b
    return .number (x - y)
  | multiply =>
    let (x, y) ← numbersOf a b
    return .number (x * y)
  | strictEquals => return .bool (a.strictEquals b)
  | looselyEquals => return .bool (← a.looselyEquals b)
  | sameValue => return .bool (a.sameValue b)
  | sameValueZero => return .bool (a.sameValueZero b)
  | relational op => return .bool (← op.compare a b)
  | isLess leftFirst => return ofBool? (← a.isLessThan b leftFirst)
  | instanceOf => return .bool (← a.isInstanceOf b)
  | ordinaryInstanceOf => return .bool (← b.ordinaryHasInstance a)
  | op => op.run₁ a

/-- What the operators do. -/
def Operator.run (op : Operator) (operands : List Operand) : Op Value :=
  match operands with
  | .value a :: .value b :: _ => op.run₂ a b
  | .value a :: _ => op.run₁ a
  | _ => unknownExpression

end ScriptEngine.Script
