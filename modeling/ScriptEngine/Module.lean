import ScriptEngine.Environment

/-!
# Module records

A module offers named exports. Each resolves to a variable of some module, to the namespace of a
module, to nothing, or ambiguously.

## Main definitions

* `ResolvedExport`: what an export stands for.
* `ModuleRecord`: the exports of a module and the scope that holds its variables.
-/

namespace ScriptEngine

/-- What an export refers to inside the module that provides it. -/
inductive BindingName where
  | name (name : String)
  | whole
deriving DecidableEq, Repr

/-- What an export stands for. -/
inductive ResolvedExport where
  | binding (module : ModuleId) (name : BindingName)
  | null
  | ambiguous
deriving DecidableEq, Repr

/-- Whether an export stands for something. -/
def ResolvedExport.isBinding : ResolvedExport → Bool
  | binding .. => true
  | _ => false

/-- A module. Its scope may be gone. -/
structure ModuleRecord where
  environment : Option EnvironmentId
  exports : List (String × ResolvedExport)
deriving DecidableEq, Repr

namespace ModuleRecord

/-- The exported names, in the order given. -/
def exportedNames (m : ModuleRecord) : List String := m.exports.map Prod.fst

/-- What a name stands for; nothing if it is not exported. -/
def resolveExport (m : ModuleRecord) (name : String) : ResolvedExport :=
  (OrderedMap.lookup name m.exports).getD .null

/-- A module whose exports are variables of its own scope. -/
def ofOwnNames (self : ModuleId) (environment : EnvironmentId) (names : List String) :
    ModuleRecord :=
  { environment := some environment
    exports := names.map fun name => (name, .binding self (.name name)) }

end ModuleRecord
end ScriptEngine
