import ScriptEngine.Operation.ErrorObject
import ScriptEngine.Operation.Function

/-!
# Installing built-in functions

How the functions, accessors and constants of a realm are put in their places.

## Main definitions

* `ObjectId.installMethod`, `ObjectId.installMethods`, `ObjectId.installGetter`: functions.
* `ObjectId.defineConstant`, `ObjectId.defineTag`: constants.
* `installConstructor`: a constructor and its prototype, each pointing to the other.
-/

namespace ScriptEngine

open Engine

variable {H : HostTypes}

/-- A method to install: its key, its behaviour and its length. -/
structure MethodEntry where
  key : PropertyKey
  behaviour : Builtin
  length : Nat

/-- A method with a name. -/
def MethodEntry.named (name : String) (behaviour : Builtin) (length : Nat) : MethodEntry :=
  { key := .string name, behaviour, length }

/-- Installs a method; the new function. -/
def ObjectId.installMethod (o : ObjectId) (entry : MethodEntry) : Engine H ObjectId := do
  let f ← builtinFunction entry.behaviour entry.length entry.key
  o.defineOrThrow entry.key (.builtin (.object f))
  return f

/-- Installs methods in order. -/
def ObjectId.installMethods (o : ObjectId) (entries : List MethodEntry) : Engine H Unit :=
  entries.forM fun entry => do let _ ← o.installMethod entry

/-- Installs an accessor without a setter. -/
def ObjectId.installGetter (o : ObjectId) (key : PropertyKey) (behaviour : Builtin) :
    Engine H Unit := do
  let getter ← builtinFunction behaviour 0 key
  getter.setFunctionName key (some "get")
  o.defineOrThrow key (.accessor (.object getter) .undefined false true)

/-- Installs a constant. -/
def ObjectId.defineConstant (o : ObjectId) (name : String) (v : Value) : Engine H Unit :=
  o.defineOrThrow (.string name) (.frozen v)

/-- Installs the tag that shows in the text of an object. -/
def ObjectId.defineTag (o : ObjectId) (tag : String) : Engine H Unit :=
  o.defineOrThrow (.wellKnown .toStringTag) (.data (.string tag) false false true)

/-- Installs the accessor through which a constructor names the one for derived objects. -/
def ObjectId.installSpecies (o : ObjectId) : Engine H Unit :=
  o.installGetter (.wellKnown .species) (.symbol .speciesGetter)

/-- A new constructor for a prototype. -/
def installConstructor (behaviour : Builtin) (length : Nat) (name : String)
    (prototype : ObjectId) : Engine H ObjectId := do
  let constructor ← builtinFunction behaviour length (.string name) true
  constructor.defineConstant "prototype" (.object prototype)
  prototype.defineBuiltin (.string "constructor") (.object constructor)
  return constructor

end ScriptEngine
