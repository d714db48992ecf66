import ScriptEngine.Json.Reader
import ScriptEngine.Operation.Iterator
import ScriptEngine.Respond
import ScriptEngine.Scope.Reference
import ScriptEngine.Script.Syntax

/-!
# Scripts as a host

What scripts bring along as a host of the engine: the code of their functions and generators, their
native functions and jobs, and a store for the log and for everything that has a name.

## Main definitions

* `types`: the types that scripts choose as a host.
* `Store`: the log, the numbers of objects and the named things.
* `Op`: what the engine does for a script.
* `Run`: a computation of a script, which may also move contexts.
* `misuse`: the failure for a script that makes no sense.
-/

namespace ScriptEngine.Script

/-- The code of a function. -/
structure Code where
  params : List String
  body : FunctionBody

/-- The body of a generator while it waits. -/
structure Body where
  items : List GeneratorItem
  /-- The number of the item to run next. -/
  position : Nat := 0
  /-- The yield at which the generator waits. -/
  waiting : Option Resumption := none

/-- A module by its handle; only the exports of a module of the script itself can be set. -/
structure ModuleEntry where
  id : ModuleId
  isForward : Bool

/-- What a script remembers. -/
structure Store where
  /-- The log of the running step, the latest entry first. -/
  log : List Json := []
  /-- The objects that have appeared in the answer, in order. -/
  numbers : Array ObjectId := #[]
  scopes : OrderedMap String EnvironmentId := {}
  iterators : OrderedMap String IteratorRecord := {}
  references : OrderedMap String Reference := {}
  capabilities : OrderedMap String Capability := {}
  modules : OrderedMap String ModuleEntry := {}
  /-- Whether source text can be evaluated. -/
  hasEvaluator : Bool := false
  /-- Source text that contains this text is refused. -/
  deny : Option String := none

/-- The types that scripts choose as a host. -/
abbrev types : HostTypes where
  Code := Code
  Body := Body
  Native := NativeBody
  Job := Value
  Store := Store
  json := .reading Json.NumberLiteral.scaled?

/-- What the engine does for a script. -/
abbrev Op := Engine types

/-- A computation of a script, which may also move contexts. -/
abbrev Run := Routine types

variable {α : Type}

open Engine

/-- Fails because the script makes no sense. -/
def misuse (message : String) : Op α := internalError ("driver: " ++ message)

/-! ### The store -/

/-- What the script remembers. -/
def getStore : Op Store := return (← getRealm).store

/-- Changes what the script remembers. -/
def modifyStore (f : Store → Store) : Op Unit :=
  adjust fun realm => { realm with store := f realm.store }

/-- Adds an entry to the log. -/
def logEntry (j : Json) : Op Unit := modifyStore fun store => { store with log := j :: store.log }

/-- The scope that the running context resolves names in. -/
def runningScope : Op EnvironmentId := do
  match (← runningContext).frame.lexicalEnvironment with
  | some e => return e
  | none => misuse "no environment"

/-- The scope with a name. -/
def scopeNamed (name : String) : Op EnvironmentId := do
  if name = "global" then return (← getRealm).globalEnvironment
  if name = "current" then runningScope
  else
    match (← getStore).scopes.get? name with
    | some e => return e
    | none => misuse "unknown env"

/-- Gives a name to a scope. -/
def nameScope (name : String) (e : EnvironmentId) : Op Unit :=
  modifyStore fun store => { store with scopes := store.scopes.insert name e }

/-- The iteration with a name. -/
def iteratorNamed (name : String) : Op IteratorRecord := do
  match (← getStore).iterators.get? name with
  | some r => return r
  | none => misuse "unknown iterator"

/-- Gives a name to an iteration. -/
def nameIterator (name : String) (r : IteratorRecord) : Op Unit :=
  modifyStore fun store => { store with iterators := store.iterators.insert name r }

/-- The reference with a name. -/
def referenceNamed (name : String) : Op Reference := do
  match (← getStore).references.get? name with
  | some r => return r
  | none => misuse "unknown reference"

/-- Gives a name to a reference. -/
def nameReference (name : String) (r : Reference) : Op Unit :=
  modifyStore fun store => { store with references := store.references.insert name r }

/-- The module with a name. -/
def moduleNamed (name : String) : Op ModuleEntry := do
  match (← getStore).modules.get? name with
  | some m => return m
  | none => misuse "unknown module"

/-- The module of the script itself with a name. -/
def ownModuleNamed (name : String) : Op ModuleId := do
  let entry ← moduleNamed name
  if entry.isForward then misuse "unknown module"
  return entry.id

/-- Gives a name to a module. -/
def nameModule (name : String) (m : ModuleEntry) : Op Unit :=
  modifyStore fun store => { store with modules := store.modules.insert name m }

/-! ### Running in a scope -/

/-- Runs a computation with another scope as the running one. -/
def inScope (e : EnvironmentId) (x : Run α) : Run α := do
  let before := (← runningContext.toRoutine).frame.lexicalEnvironment
  (setRunningScope (some e)).toRoutine
  let outcome ← x.attempt
  (setRunningScope before).toRoutine
  (ofExcept outcome).toRoutine

/-- Runs a computation in a new scope inside the running one. -/
def inBlock (x : EnvironmentId → Run α) : Run α := do
  let e ← (newEnvironment (some (← runningScope)) .declarative).toRoutine
  inScope e (x e)

/-- Declares a variable in a scope. -/
def declareIn (e : EnvironmentId) (name : String) (v : Value) : Op Unit := do
  e.createMutableBinding name false
  e.initializeBinding name v

end ScriptEngine.Script
