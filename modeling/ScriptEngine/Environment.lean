import ScriptEngine.OrderedMap
import ScriptEngine.Value

/-!
# Environment records

A scope holds bindings of names and points to the scope outside it. Object scopes keep their
bindings as the properties of an object; the global scope joins such a scope with one of its own.

## Main definitions

* `Binding`, `Slot`: a variable of a scope, or the import of a variable of another module.
* `EnvironmentKind`, `Environment`: a scope.
-/

namespace ScriptEngine

/-- A handle of a scope: its place among the scopes of a realm. -/
structure EnvironmentId where
  index : Nat
deriving DecidableEq, Repr

/-- The text of a handle. -/
def EnvironmentId.text (e : EnvironmentId) : String := "env#" ++ Nat.repr e.index

/-- A handle of a module: its place among the modules of a realm. -/
structure ModuleId where
  index : Nat
deriving DecidableEq, Repr

/-- A variable. It has no value until it is initialized. -/
structure Binding where
  value : Option Value
  mutable : Bool
  /-- Whether assigning to it when immutable is an error also in sloppy code. -/
  strict : Bool
  deletable : Bool
deriving DecidableEq

/-- What a name stands for in a scope. -/
inductive Slot where
  | direct (binding : Binding)
  | imported (module : ModuleId) (name : String)
deriving DecidableEq

/-- Whether the receiver of a function scope is inherited, known or still to be bound. -/
inductive ThisStatus where
  | lexical
  | initialized
  | uninitialized
deriving DecidableEq, Repr

/-- What a scope of a function call keeps besides its variables. -/
structure FunctionScope where
  thisValue : Value
  thisStatus : ThisStatus
  newTarget : Option ObjectId
  homeObject : Option ObjectId
deriving DecidableEq

/-- What a global scope keeps besides its lexical variables. -/
structure GlobalScope where
  objectRecord : EnvironmentId
  object : ObjectId
  thisObject : ObjectId
  varNames : List String
deriving DecidableEq

/-- The kinds of scopes. -/
inductive EnvironmentKind where
  | declarative
  | function (scope : FunctionScope)
  | object (target : ObjectId) (isWith : Bool)
  | global (scope : GlobalScope)
  | module
deriving DecidableEq

/-- A scope. -/
structure Environment where
  outer : Option EnvironmentId
  bindings : OrderedMap String Slot := {}
  kind : EnvironmentKind
deriving DecidableEq

namespace Environment

/-- Whether the scope itself, not an object behind it, binds a name. -/
def binds (e : Environment) (name : String) : Bool := e.bindings.contains name

end Environment
end ScriptEngine
