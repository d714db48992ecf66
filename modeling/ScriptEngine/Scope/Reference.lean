import ScriptEngine.Scope.Binding

/-!
# References

A reference is what an expression on the left of an assignment stands for: a name that was looked up
in the scopes, or a property of a value.

## Main definitions

* `Reference`: base, name, strictness and, for `super`, the receiver.
* `Reference.getValue`, `Reference.putValue`, `Reference.delete`,
  `Reference.initializeBinding`.
* `identifierReference`, `resolveBinding`: looking a name up from the inside out.
* `thisEnvironment`, `resolveThisBinding`, `newTarget`: the receiver of the running code.
-/

namespace ScriptEngine

open Engine

variable {H : HostTypes}

/-- What a reference refers into. -/
inductive ReferenceBase where
  | unresolvable
  | value (v : Value)
  | environment (e : EnvironmentId)
deriving DecidableEq

/-- A reference. -/
structure Reference where
  base : ReferenceBase
  name : PropertyKey
  strict : Bool
  /-- The receiver, if it differs from the base. -/
  this : Option Value := none
deriving DecidableEq

namespace Reference

/-- A property of a value. -/
def property (base : Value) (name : PropertyKey) (strict : Bool) : Reference :=
  { base := .value base, name, strict }

/-- A property of the prototype of a home object. -/
def superProperty (base : Value) (name : PropertyKey) (this : Value) (strict : Bool) : Reference :=
  { base := .value base, name, strict, this := some this }

/-- Whether a property is referred to. -/
def isProperty (r : Reference) : Bool :=
  match r.base with
  | .value _ => true
  | _ => false

/-- Whether the name was not found. -/
def isUnresolvable (r : Reference) : Bool :=
  match r.base with
  | .unresolvable => true
  | _ => false

/-- Whether the receiver differs from the base. -/
def isSuper (r : Reference) : Bool := r.this.isSome

/-- The receiver. -/
def thisValue (r : Reference) : Engine H Value :=
  match r.this, r.base with
  | some v, _ => pure v
  | none, .value v => pure v
  | none, _ => internalError "GetThisValue on a non-property reference"

/-- The value referred to. -/
def getValue (r : Reference) : Engine H Value := do
  match r.base with
  | .unresolvable => fail (.notDefined r.name.text)
  | .value v =>
    let o ← v.toObject
    o.getFor r.name (← r.thisValue)
  | .environment e => e.getBindingValue r.name.text r.strict

/-- Assigns. In sloppy code a name that was not found becomes a property of the global object. -/
def putValue (r : Reference) (v : Value) : Engine H Unit := do
  match r.base with
  | .unresolvable =>
    if r.strict then fail (.notDefined r.name.text)
    let global := (← getRealm).globalObject
    let _ ← global.setFor r.name v (.object global)
  | .value base =>
    let o ← base.toObject
    if !(← o.setFor r.name v (← r.thisValue)) && r.strict then
      typeError ("Cannot assign to read only property '" ++ r.name.text ++ "' of "
        ++ base.kindName)
  | .environment e => e.setMutableBinding r.name.text v r.strict

/-- Sets the first value of a name. -/
def initializeBinding (r : Reference) (v : Value) : Engine H Unit :=
  match r.base with
  | .environment e => e.initializeBinding r.name.text v
  | _ => internalError "InitializeReferencedBinding on a non-binding reference"

/-- Deletes; false if that is refused. -/
def delete (r : Reference) : Engine H Bool := do
  match r.base with
  | .unresolvable => return true
  | .value base =>
    if r.isSuper then referenceError "Unsupported reference to 'super'"
    let deleted ← (← base.toObject).delete r.name
    if !deleted && r.strict then typeError ("Cannot delete property '" ++ r.name.text ++ "'")
    return deleted
  | .environment e => e.deleteBinding r.name.text

end Reference

/-! ### Resolution -/

/-- The reference for a name, looked up in a scope and those outside it. -/
def identifierReference (e : Option EnvironmentId) (name : String) (strict : Bool) :
    Engine H Reference :=
  loop (fun
    | none => return .finish { base := .unresolvable, name := .string name, strict }
    | some e => do
      if ← e.hasBinding name then
        return .finish { base := .environment e, name := .string name, strict }
      return .again (← getEnvironment e).outer) e

/-- The reference for a name in the running code. -/
def resolveBinding (name : String) (strict : Bool) : Engine H Reference := do
  identifierReference (← runningContext).frame.lexicalEnvironment name strict

/-- The innermost scope of the running code that binds a receiver. -/
def thisEnvironment : Engine H EnvironmentId := do
  loop (fun
    | none => internalError "no environment with a this binding"
    | some e => do
      if ← e.hasThisBinding then return .finish e
      return .again (← getEnvironment e).outer) (← runningContext).frame.lexicalEnvironment

/-- The receiver of the running code. -/
def resolveThisBinding : Engine H Value := do (← thisEnvironment).getThisBinding

/-- The new target of the running code, `undefined` if it was not called as a constructor. -/
def runningNewTarget : Engine H Value := do
  match (← getEnvironment (← thisEnvironment)).kind with
  | .function { newTarget := some o, .. } => return .object o
  | _ => return .undefined

end ScriptEngine
