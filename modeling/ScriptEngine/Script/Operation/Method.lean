import ScriptEngine.Script.Operand

/-!
# Internal methods in scripts

## Main definitions

* `MethodOperation.run`: what the operations do.
-/

namespace ScriptEngine.Script

open Engine

/-- What the operations on a whole object do. -/
def MethodOperation.runWhole (op : MethodOperation) (o : ObjectId) (operands : List Operand) :
    Op Value := do
  match op with
  | getPrototypeOf => return .ofObject? (← o.getPrototypeOf)
  | setPrototypeOf => return .bool (← o.setPrototypeOf (firstValue operands).object?)
  | isExtensible => return .bool (← o.isExtensible)
  | preventExtensions => return .bool (← o.preventExtensions)
  | ownKeys => arrayValue ((← o.ownKeys).map PropertyKey.toValue)
  | _ => unknownExpression

/-- What the operations on a property do. -/
def MethodOperation.runProperty (op : MethodOperation) (o : ObjectId) (k : PropertyKey)
    (values : List Value) : Op Value := do
  match op, values with
  | getOwnProperty, _ => Descriptor.toValue? (← o.getOwnProperty k)
  | defineOwnProperty shape, fields =>
    return .bool (← o.defineOwnProperty k (shape.descriptor fields))
  | hasProperty, _ => return .bool (← o.hasProperty k)
  | get, receiver => o.getFor k (receiver.headD (.object o))
  | set, v :: receiver => return .bool (← o.setFor k v (receiver.headD (.object o)))
  | delete, _ => return .bool (← o.delete k)
  | _, _ => unknownExpression

/-- What the operations do. -/
def MethodOperation.run (op : MethodOperation) (operands : List Operand) : Op Value :=
  match operands with
  | .object o :: .key k :: rest => op.runProperty o k (valuesOf rest)
  | .object o :: rest => op.runWhole o rest
  | _ => unknownExpression

end ScriptEngine.Script
