import ScriptEngine.Operation.DescriptorObject
import ScriptEngine.Script.Host

/-!
# Operands

What the parts of an expression have become when its operation is performed.

## Main definitions

* `Operand`: an evaluated part.
* `Operand.ofValue`: a value made what its use asks for.
* `DescriptorShape.descriptor`: the descriptor that a script spells out.
-/

namespace ScriptEngine.Script

open Engine

/-- An evaluated part of an expression. -/
inductive Operand where
  | value (v : Value)
  | object (o : ObjectId)
  | key (k : PropertyKey)
  | text (s : String)
  | number (n : Float)
  | scope (e : Option EnvironmentId)

/-- The value of an operand that is one. -/
def Operand.value? : Operand → Option Value
  | value v => some v
  | _ => none

/-- The key of an operand that is one. -/
def Operand.key? : Operand → Option PropertyKey
  | key k => some k
  | _ => none

/-- The values among operands. -/
def valuesOf (operands : List Operand) : List Value := operands.filterMap Operand.value?

/-- The keys among operands. -/
def keysOf (operands : List Operand) : List PropertyKey := operands.filterMap Operand.key?

/-- The first value among operands, undefined if there is none. -/
def firstValue (operands : List Operand) : Value := (valuesOf operands).headD .undefined

/-- The object that a value has to be. -/
def requireObject : Value → Op ObjectId
  | .object o => pure o
  | _ => misuse "expected an object"

/-- Makes of a value what its use asks for. -/
def Operand.ofValue (use : Use) (v : Value) : Op Operand := do
  match use, v with
  | .value, v => return .value v
  | .object, v => return .object (← requireObject v)
  | .key, v => return .key (← v.toPropertyKey)
  | .text, .string s => return .text s
  | .text, _ => misuse "expected a string"
  | .number, .number n => return .number n
  | .number, _ => misuse "expected a number"

/-- A value taken from a list if it is wanted, and the rest. -/
def takeIf (wanted : Bool) (values : List Value) : Option Value × List Value :=
  match wanted, values with
  | true, v :: rest => (some v, rest)
  | _, values => (none, values)

namespace DescriptorShape

/-- How many values a shape needs. -/
def arity (shape : DescriptorShape) : Nat :=
  shape.hasValue.toNat + shape.hasGet.toNat + shape.hasSet.toNat

/-- The descriptor of a shape with its value, getter and setter, as far as it has them. -/
def descriptor (shape : DescriptorShape) (values : List Value) : Descriptor :=
  let (value, values) := takeIf shape.hasValue values
  let (get, values) := takeIf shape.hasGet values
  let (set, _) := takeIf shape.hasSet values
  { value
    get
    set
    writable := shape.writable
    enumerable := shape.enumerable
    configurable := shape.configurable }

end DescriptorShape

/-- A new array as a value. -/
def arrayValue (elements : List Value) : Op Value := return .object (← arrayOfList elements)

/-- The failure for an expression that is none of the language. -/
def unknownExpression {α : Type} : Op α := misuse "unknown expression"

end ScriptEngine.Script
