import ScriptEngine.Heap
import ScriptEngine.Text.Units

/-!
# Module namespaces

The namespace of a module is an object that shows its exports. It is made on first use and kept.

## Main definitions

* `Engine.getModule`, `Engine.newModule`: the records of modules.
* `sortNames`: exported names in the order of their code units.
* `findName`: looking a name up among sorted ones.
* `ModuleId.getNamespace`: the namespace of a module.
* `ModuleId.followExport`: the scope and name behind an export.
-/

namespace ScriptEngine

open Engine

variable {H : HostTypes}

/-- The record of a module. -/
def Engine.getModule (m : ModuleId) : Engine H ModuleRecord := do
  match (← getRealm).modules[m.index]? with
  | some record => pure record
  | none => internalError "dangling module handle"

/-- Adds the record of a module, which may refer to its own handle. -/
def Engine.newModule (make : ModuleId → ModuleRecord) : Engine H ModuleId :=
  adjustGet fun realm =>
    let m : ModuleId := ⟨realm.modules.size⟩
    (m, { realm with modules := realm.modules.push (make m) })

/-- Cuts a module off from its variables. -/
def ModuleId.detachEnvironment (m : ModuleId) : Engine H Unit :=
  adjust fun realm =>
    { realm with
      modules := realm.modules.modify m.index fun record => { record with environment := none } }

/-- Drops the second of two equal neighbours. -/
def dropRepeats : List String → List String
  | a :: b :: rest => if a = b then dropRepeats (b :: rest) else a :: dropRepeats (b :: rest)
  | names => names

/-- Names in the order of their code units, each once. -/
def sortNames (names : List String) : List String :=
  dropRepeats (names.mergeSort fun a b => Text.compareUnits a b != .gt)

/-- The given name if it is one of a list in the order of code units, looked for by halving the
list. -/
def findName (name : String) (names : List String) : Option String :=
  match _h : names.drop (names.length / 2) with
  | [] => none
  | middle :: after =>
    match Text.compareUnits middle name with
    | .eq => some middle
    | .lt => findName name after
    | .gt => findName name (names.take (names.length / 2))
termination_by names.length
decreasing_by
  all_goals
    have hlength := congrArg List.length ‹names.drop _ = middle :: after›
    simp only [List.length_drop, List.length_cons, List.length_take] at hlength ⊢
    omega

/-- A new namespace object. Its tag goes straight to storage. -/
def namespaceCreate (module : ModuleId) (names : List String) : Engine H ObjectId :=
  allocate
    (.ofKindWith none (.moduleNamespace { module, exports := sortNames names })
      (.wellKnown .toStringTag) (.frozen (.string "Module")) false)
    (.ofKindWith none false rfl rfl (.inr (by decide))) (.of_not_isArray rfl)

/-- The namespace of a module. -/
def ModuleId.getNamespace (m : ModuleId) : Engine H ObjectId := do
  match (← getRealm).namespaces.get? m with
  | some o => pure o
  | none =>
    let record ← getModule m
    let names := record.exportedNames.filter fun name => (record.resolveExport name).isBinding
    let o ← namespaceCreate m names
    adjust fun realm => { realm with namespaces := realm.namespaces.insert m o }
    return o

/-- What a resolved export refers to: a name in the scope of a module, or a whole namespace. -/
def ResolvedExport.follow (resolved : ResolvedExport) (missing : Failure) :
    Engine H ((EnvironmentId × String) ⊕ ObjectId) := do
  match resolved with
  | .binding module .whole => return .inr (← module.getNamespace)
  | .binding module (.name name) =>
    match (← getModule module).environment with
    | some scope => return .inl (scope, name)
    | none => referenceError ("Cannot access '" ++ name ++ "': module environment is gone")
  | _ => fail missing

/-- What an imported name refers to. -/
def ModuleId.followExport (m : ModuleId) (name : String) :
    Engine H ((EnvironmentId × String) ⊕ ObjectId) := do
  (← getModule m).resolveExport name |>.follow
    (.syntaxError ("The requested module does not provide an export named '" ++ name ++ "'"))

end ScriptEngine
