import ScriptEngine.Method.Ordinary
import ScriptEngine.Scope.Binding

/-!
# Internal methods of module namespaces

A namespace shows the current values of the exports of a module and cannot be changed.

## Main definitions

* `NamespaceObject.exportedName`: the export that a key names.
* `NamespaceObject.get`, `NamespaceObject.getOwnProperty`, `NamespaceObject.ownKeys`, …
-/

namespace ScriptEngine.NamespaceObject

open Engine

variable {H : HostTypes}

/-- The data of a namespace. -/
def getData (o : ObjectId) : Engine H NamespaceData := do
  match ← getKind o with
  | .moduleNamespace data => return data
  | _ => internalError "namespace method on a non-namespace"

/-- The export that a key names, if it is no symbol. -/
def exportedName (data : NamespaceData) (k : PropertyKey) : Option String :=
  findName k.text data.exports

/-- The value of an export. -/
def exportValue (data : NamespaceData) (name : String) : Engine H Value := do
  let resolved := (← getModule data.module).resolveExport name
  match ← resolved.follow (.internal ("namespace export '" ++ name ++ "' no longer resolves")) with
  | .inl (scope, local_) => scope.getBindingValue local_ true
  | .inr whole => return .object whole

/-- Reads an export; symbols are ordinary properties. -/
def get (o : ObjectId) (k : PropertyKey) (receiver : Value) : Engine H Value := do
  if k.isSymbol then Ordinary.get o k receiver
  else
    let data ← getData o
    match exportedName data k with
    | some name => exportValue data name
    | none => return .undefined

/-- The property of an export: writable, enumerable and there to stay. -/
def getOwnProperty (o : ObjectId) (k : PropertyKey) : Engine H (Option Descriptor) := do
  if k.isSymbol then Ordinary.getOwnProperty o k
  else
    let data ← getData o
    match exportedName data k with
    | some name => return some (.data (← exportValue data name) true true false)
    | none => return none

/-- Whether an export or a symbol exists. -/
def hasProperty (o : ObjectId) (k : PropertyKey) : Engine H Bool := do
  if k.isSymbol then Ordinary.hasProperty o k
  else return (exportedName (← getData o) k).isSome

/-- The exports in the order of their code units, then the symbols. -/
def ownKeys (o : ObjectId) : Engine H (List PropertyKey) := do
  let names := (← getData o).exports.map PropertyKey.ofString
  return names ++ (← Ordinary.ownKeys o).filter PropertyKey.isSymbol

end ScriptEngine.NamespaceObject
