import ScriptEngine.Method.Proxy
import ScriptEngine.Script.Operand
import ScriptEngine.Script.Render

/-!
# Objects of scripts

## Main definitions

* `ObjectOperation.run`: what the operations do.
-/

namespace ScriptEngine.Script

open Engine

/-- The failure that a script names; an unknown kind is a type error. -/
def failureNamed (kind message : String) : Failure :=
  if kind = "Internal" then .internal message
  else .native ((ErrorKind.ofName? kind).getD .typeError) message none

/-- What the operations do. -/
def ObjectOperation.run (op : ObjectOperation) (operands : List Operand) : Op Value := do
  match op, operands with
  | create, .value p :: _ => return .object (← newOrdinary p.object?)
  | createArray length, prototype =>
    return .object (← arrayCreate length (firstValue prototype).object?)
  | getMember strict, .value v :: .key k :: _ => (Reference.property v k strict).getValue
  | putMember strict, .value base :: .key k :: .value v :: _ =>
    (Reference.property base k strict).putValue v
    return v
  | deleteMember strict, .value base :: .key k :: _ =>
    return .bool (← (Reference.property base k strict).delete)
  | define shape, .object o :: .key k :: fields =>
    o.defineOrThrow k (shape.descriptor (valuesOf fields))
    return .undefined
  | proxy, .value target :: .value handler :: _ => return .object (← proxyCreate target handler)
  | revoke, .object p :: _ =>
    p.revokeProxy
    return .bool (← p.isRevokedProxy)
  | proxyTarget, .object p :: _ => return .ofObject? (← p.proxyTarget?)
  | intrinsic name, _ =>
    match intrinsicNamed? (← getRealm) name with
    | some o => return .object o
    | none => misuse "unknown intrinsic"
  | wellKnown name, _ =>
    match WellKnownSymbol.ofName? name with
    | some w => return .symbol w.symbol
    | none => return .undefined
  | newSymbol description, _ => return .symbol (← Engine.newSymbol description)
  | raise kind message, _ => fail (failureNamed kind message)
  | _, _ => unknownExpression

end ScriptEngine.Script
