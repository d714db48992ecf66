import ScriptEngine.Method.Ordinary

/-!
# Internal methods of string objects

A string object shows the code units of its string as properties that are not stored.

## Main definitions

* `StringObject.getUnitProperty`: the property of a code unit.
* `StringObject.getOwnProperty`, `StringObject.defineOwnProperty`, `StringObject.ownKeys`.
-/

namespace ScriptEngine.StringObject

open Engine

variable {H : HostTypes}

/-- The string of a string object. -/
def string? : ObjectKind H → Option String
  | .string s => some s
  | _ => none

/-- The property of a code unit of an object. -/
def getUnitProperty (o : ObjectId) (k : PropertyKey) : Engine H (Option Descriptor) :=
  return (← getKind o).unitProperty? k

/-- The stored property or that of a code unit. -/
def getOwnProperty (o : ObjectId) (k : PropertyKey) : Engine H (Option Descriptor) := do
  match ← Ordinary.getOwnProperty o k with
  | some d => return some d
  | none => getUnitProperty o k

/-- Creates or changes a property; those of code units stay as they are. -/
def defineOwnProperty (o : ObjectId) (k : PropertyKey) (d : Descriptor) : Action H Bool := do
  match ← (getUnitProperty o k).act with
  | some unit => return d.isCompatible (← (getObject o).act).extensible (some unit)
  | none => Ordinary.defineOwnProperty o k d

/-- The indices of the code units, counted in 32 bits, before the stored keys. -/
def ownKeys (o : ObjectId) : Engine H (List PropertyKey) := do
  let length := ((string? (← getKind o)).map Text.unitLength).getD 0
  return (List.range (length % Number.twoPow 32)).map PropertyKey.ofNat ++ (← Ordinary.ownKeys o)

end ScriptEngine.StringObject
