import ScriptEngine.Script.Operation.Abstract
import ScriptEngine.Script.Operation.Function
import ScriptEngine.Script.Operation.Iteration
import ScriptEngine.Script.Operation.Method
import ScriptEngine.Script.Operation.Object
import ScriptEngine.Script.Operation.Operator
import ScriptEngine.Script.Operation.Promise
import ScriptEngine.Script.Operation.Realm
import ScriptEngine.Script.Operation.Scope

/-!
# The operations of scripts

## Main definitions

* `Operation.run`: what an operation does with its operands.
-/

namespace ScriptEngine.Script

/-- What an operation does with its operands. -/
def Operation.run (op : Operation) (operands : List Operand) : Run Value :=
  match op with
  | function op => op.run operands
  | object op => op.run operands
  | operator op => op.run operands
  | iteration op => op.run operands
  | promise op => op.run operands
  | realm op => op.run operands
  | reference op => op.run operands
  | scope op => op.run operands
  | method op => op.run operands
  | abstract op => op.run operands
  | unknown => unknownExpression

end ScriptEngine.Script
