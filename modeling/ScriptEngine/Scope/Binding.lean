import ScriptEngine.Operation.Integrity
import ScriptEngine.Scope.Namespace

/-!
# Bindings of scopes

Declaring, initializing, reading, assigning and deleting the names of a scope. What a name means
depends on the kind of the scope: object scopes use the properties of an object, and the global
scope falls back to such a scope for names that it does not declare itself.

## Main definitions

* `EnvironmentId.hasBinding`, `EnvironmentId.createMutableBinding`,
  `EnvironmentId.createImmutableBinding`, `EnvironmentId.initializeBinding`,
  `EnvironmentId.setMutableBinding`, `EnvironmentId.getBindingValue`,
  `EnvironmentId.deleteBinding`: the operations on names.
* `EnvironmentId.bindThisValue`, `EnvironmentId.getThisBinding`, `EnvironmentId.getSuperBase`:
  receivers.
* `EnvironmentId.createGlobalVarBinding`, …: declarations of global variables and functions.
-/

namespace ScriptEngine

open Engine

variable {H : HostTypes} {α : Type}

/-- The key of the property that a name stands for. -/
def nameKey (name : String) : PropertyKey := .ofString name

/-- The reference error for a name that is declared but not initialized. -/
def uninitialized (name : String) : Failure :=
  .referenceError ("Cannot access '" ++ name ++ "' before initialization")

/-- The type error for an assignment to a constant. -/
def constantAssignment (name : String) : Failure :=
  .typeError ("Assignment to constant variable '" ++ name ++ "'")

/-- The scope that holds a name which the given scope does not declare itself: the object scope
behind a global scope. -/
def Environment.fallback? (e : Environment) (name : String) : Option EnvironmentId :=
  match e.kind with
  | .global scope => if e.binds name then none else some scope.objectRecord
  | _ => none

namespace ObjectId

/-- Whether an object scope has a name. A `with` scope hides the names that its object lists as
unscopable. -/
def scopeHas (o : ObjectId) (isWith : Bool) (name : String) : Engine H Bool := do
  let key := nameKey name
  if !(← o.hasProperty key) then return false
  if !isWith then return true
  match ← o.get (.wellKnown .unscopables) with
  | .object unscopables => return !(← unscopables.get key).toBoolean
  | _ => return true

/-- The value of a name in an object scope. -/
def scopeGet (o : ObjectId) (name : String) (strict : Bool) : Engine H Value := do
  let key := nameKey name
  if ← o.hasProperty key then o.get key
  else if strict then fail (.notDefined name)
  else return .undefined

/-- Assigns to a name in an object scope. -/
def scopeSet (o : ObjectId) (name : String) (v : Value) (strict : Bool) : Engine H Unit := do
  let key := nameKey name
  let exists_ ← o.hasProperty key
  if !exists_ && strict then fail (.notDefined name)
  o.put key v strict

end ObjectId

namespace EnvironmentId

/-! ### Names -/

/-- Whether a scope has a name in its own right or behind it. -/
def hasBinding (e : EnvironmentId) (name : String) : Engine H Bool :=
  loop (fun e => do
    let environment ← getEnvironment e
    match environment.kind with
    | .object target isWith => return .finish (← target.scopeHas isWith name)
    | _ =>
      match environment.fallback? name with
      | some behind => return .again behind
      | none => return .finish (environment.binds name)) e

/-- Adds or replaces a variable of a scope. -/
def insertSlot (e : EnvironmentId) (name : String) (slot : Slot) : Engine H Unit :=
  modifyEnvironment e fun environment =>
    { environment with bindings := environment.bindings.insert name slot }

/-- Refuses to declare a name twice in a global scope. -/
def refuseRedeclaration (environment : Environment) (name : String) : Engine H Unit :=
  match environment.kind with
  | .global _ =>
    if environment.binds name then
      typeError ("Identifier '" ++ name ++ "' has already been declared")
    else pure ()
  | _ => pure ()

/-- Declares a variable. -/
def createMutableBinding (e : EnvironmentId) (name : String) (deletable : Bool) :
    Engine H Unit := do
  let environment ← getEnvironment e
  match environment.kind with
  | .object target _ =>
    target.defineOrThrow (nameKey name) (.data .undefined true true deletable)
  | _ =>
    refuseRedeclaration environment name
    e.insertSlot name
      (.direct { value := none, mutable := true, strict := false, deletable })

/-- Declares a constant. -/
def createImmutableBinding (e : EnvironmentId) (name : String) (strict : Bool) :
    Engine H Unit := do
  let environment ← getEnvironment e
  match environment.kind with
  | .object .. => internalError "object environment records have no immutable bindings"
  | _ =>
    refuseRedeclaration environment name
    e.insertSlot name
      (.direct { value := none, mutable := false, strict, deletable := false })

/-- Sets the first value of a name that the scope itself holds. -/
def initializeOwn (e : EnvironmentId) (name : String) (v : Value) : Engine H Unit := do
  match (← getEnvironment e).bindings.get? name with
  | some (.direct binding) => e.insertSlot name (.direct { binding with value := some v })
  | some (.imported ..) => internalError ("cannot initialize import binding '" ++ name ++ "'")
  | none => internalError ("initializing missing binding '" ++ name ++ "'")

/-- Sets the first value of a name. -/
def initializeBinding (e : EnvironmentId) (name : String) (v : Value) : Engine H Unit :=
  loop (fun e => do
    let environment ← getEnvironment e
    match environment.kind with
    | .object target _ => return .finish (← target.scopeSet name v false)
    | _ =>
      match environment.fallback? name with
      | some behind => return .again behind
      | none => return .finish (← e.initializeOwn name v)) e

/-- Assigns to a name that the scope itself holds or, in sloppy code, creates it. -/
def setOwn (e : EnvironmentId) (name : String) (v : Value) (strict : Bool) : Engine H Unit := do
  match (← getEnvironment e).bindings.get? name with
  | none =>
    if strict then fail (.notDefined name)
    e.createMutableBinding name true
    e.initializeBinding name v
  | some (.imported ..) => fail (constantAssignment name)
  | some (.direct binding) =>
    if binding.value.isNone then fail (uninitialized name)
    if binding.mutable then e.insertSlot name (.direct { binding with value := some v })
    else if strict || binding.strict then fail (constantAssignment name)

/-- Assigns to a name. -/
def setMutableBinding (e : EnvironmentId) (name : String) (v : Value) (strict : Bool) :
    Engine H Unit :=
  loop (fun e => do
    let environment ← getEnvironment e
    match environment.kind with
    | .object target _ => return .finish (← target.scopeSet name v strict)
    | _ =>
      match environment.fallback? name with
      | some behind => return .again behind
      | none => return .finish (← e.setOwn name v strict)) e

/-- One step of reading a name: its value, or the scope, name and strictness to go on with. -/
def bindingStep (e : EnvironmentId) (name : String) (strict : Bool) :
    Engine H (Round (EnvironmentId × String × Bool) Value) := do
  let environment ← getEnvironment e
  match environment.kind with
  | .object target _ => return .finish (← target.scopeGet name strict)
  | _ =>
    match environment.fallback? name with
    | some behind => return .again (behind, name, strict)
    | none =>
      match environment.bindings.get? name with
      | some (.direct binding) =>
        match binding.value with
        | some v => return .finish v
        | none => fail (uninitialized name)
      | some (.imported module exportName) =>
        match ← module.followExport exportName with
        | .inl (scope, local_) => return .again (scope, local_, true)
        | .inr whole => return .finish (.object whole)
      | none => fail (.notDefined name)

/-- The value of a name. Imports are followed to the module that provides them. -/
def getBindingValue (e : EnvironmentId) (name : String) (strict : Bool) : Engine H Value :=
  loop (fun (e, name, strict) => bindingStep e name strict) (e, name, strict)

/-- Removes a name that the scope itself holds; false if it is there to stay. -/
def deleteOwn (e : EnvironmentId) (name : String) : Engine H Bool := do
  match (← getEnvironment e).bindings.get? name with
  | some (.direct { deletable := false, .. }) => return false
  | some _ =>
    modifyEnvironment e fun environment =>
      { environment with bindings := environment.bindings.erase name }
    return true
  | none => return true

/-- Changes the names that a global scope has declared as variables or functions. -/
def modifyVarNames (e : EnvironmentId) (f : List String → List String) : Engine H Unit :=
  modifyEnvironment e fun environment =>
    match environment.kind with
    | .global scope =>
      { environment with kind := .global { scope with varNames := f scope.varNames } }
    | _ => environment

/-- Removes a name of the object behind a global scope. -/
def deleteGlobal (e : EnvironmentId) (scope : GlobalScope) (name : String) : Engine H Bool := do
  if !(← scope.object.hasOwnProperty (nameKey name)) then return true
  match (← getEnvironment scope.objectRecord).kind with
  | .object target _ =>
    let deleted ← target.delete (nameKey name)
    if deleted then e.modifyVarNames fun names => names.filter (· ≠ name)
    return deleted
  | _ => return true

/-- Removes a name; false if it is there to stay. -/
def deleteBinding (e : EnvironmentId) (name : String) : Engine H Bool := do
  let environment ← getEnvironment e
  match environment.kind with
  | .object target _ => target.delete (nameKey name)
  | .module => return false
  | .global scope =>
    if environment.binds name then e.deleteOwn name else e.deleteGlobal scope name
  | _ => e.deleteOwn name

/-! ### Receivers -/

/-- Whether a scope binds a receiver. -/
def hasThisBinding (e : EnvironmentId) : Engine H Bool := do
  match (← getEnvironment e).kind with
  | .function scope => return scope.thisStatus ≠ .lexical
  | .global _ => return true
  | .module => return true
  | _ => return false

/-- Whether a scope gives access to the prototype of a home object. -/
def hasSuperBinding (e : EnvironmentId) : Engine H Bool := do
  match (← getEnvironment e).kind with
  | .function scope => return scope.thisStatus ≠ .lexical && scope.homeObject.isSome
  | _ => return false

/-- The object of a `with` scope. -/
def withBaseObject? (e : EnvironmentId) : Engine H (Option ObjectId) := do
  match (← getEnvironment e).kind with
  | .object target true => return some target
  | _ => return none

/-- Binds the receiver of a function scope, once. -/
def bindThisValue (e : EnvironmentId) (v : Value) : Engine H Value := do
  match (← getEnvironment e).kind with
  | .function scope =>
    match scope.thisStatus with
    | .lexical => internalError "BindThisValue on an arrow function"
    | .initialized => referenceError "Super constructor may only be called once"
    | .uninitialized =>
      modifyEnvironment e fun environment =>
        { environment with
          kind := .function { scope with thisValue := v, thisStatus := .initialized } }
      return v
  | _ => internalError "BindThisValue on a non-function environment"

/-- The receiver that a scope binds. -/
def getThisBinding (e : EnvironmentId) : Engine H Value := do
  match (← getEnvironment e).kind with
  | .function scope =>
    match scope.thisStatus with
    | .lexical => internalError "GetThisBinding on an arrow function"
    | .uninitialized =>
      referenceError "Must call super constructor in derived class before accessing 'this'"
    | .initialized => return scope.thisValue
  | .global scope => return .object scope.thisObject
  | .module => return .undefined
  | _ => internalError "GetThisBinding on an environment without this"

/-- The prototype of the home object of a function scope. -/
def getSuperBase (e : EnvironmentId) : Engine H Value := do
  match (← getEnvironment e).kind with
  | .function { homeObject := some home, .. } => return .ofObject? (← home.getPrototypeOf)
  | _ => return .undefined

/-! ### Global declarations -/

/-- What a global scope keeps besides its lexical variables. -/
def globalScope (e : EnvironmentId) : Engine H GlobalScope := do
  match (← getEnvironment e).kind with
  | .global scope => return scope
  | _ => internalError "expected the global environment"

/-- Whether a name was declared as a global variable or function. -/
def hasVarDeclaration (e : EnvironmentId) (name : String) : Engine H Bool :=
  return (← e.globalScope).varNames.contains name

/-- Whether a name was declared lexically in a global scope. -/
def hasLexicalDeclaration (e : EnvironmentId) (name : String) : Engine H Bool := do
  let _ ← e.globalScope
  return (← getEnvironment e).binds name

/-- Whether a name is a fixed property of the global object. -/
def hasRestrictedGlobalProperty (e : EnvironmentId) (name : String) : Engine H Bool := do
  match ← (← e.globalScope).object.getOwnProperty (nameKey name) with
  | some d => return !d.isConfigurable
  | none => return false

/-- Whether a global variable may be declared. -/
def canDeclareGlobalVar (e : EnvironmentId) (name : String) : Engine H Bool := do
  let scope ← e.globalScope
  if ← scope.object.hasOwnProperty (nameKey name) then return true
  scope.object.isExtensible

/-- Whether a global function may be declared. -/
def canDeclareGlobalFunction (e : EnvironmentId) (name : String) : Engine H Bool := do
  let scope ← e.globalScope
  match ← scope.object.getOwnProperty (nameKey name) with
  | none => scope.object.isExtensible
  | some d => return d.isConfigurable || (d.isData && d.isWritable && d.isEnumerable)

/-- Records a name as declared. -/
def addVarName (e : EnvironmentId) (name : String) : Engine H Unit :=
  e.modifyVarNames fun names => if names.contains name then names else names ++ [name]

/-- Declares a global variable. -/
def createGlobalVarBinding (e : EnvironmentId) (name : String) (deletable : Bool) :
    Engine H Unit := do
  let scope ← e.globalScope
  let exists_ ← scope.object.hasOwnProperty (nameKey name)
  let extensible ← scope.object.isExtensible
  if !exists_ && extensible then
    scope.objectRecord.createMutableBinding name deletable
    scope.objectRecord.initializeBinding name .undefined
  e.addVarName name

/-- Declares a global function. -/
def createGlobalFunctionBinding (e : EnvironmentId) (name : String) (v : Value)
    (deletable : Bool) : Engine H Unit := do
  let scope ← e.globalScope
  let key := nameKey name
  let existing ← scope.object.getOwnProperty key
  let fixed := existing.any fun d => !d.isConfigurable
  scope.object.defineOrThrow key (if fixed then .ofValue v else .data v true true deletable)
  scope.object.put key v false
  e.addVarName name

/-- Binds a name of a module scope to an export of a module. -/
def createImportBinding (e : EnvironmentId) (name : String) (module : ModuleId)
    (exportName : String) : Engine H Unit := do
  match (← getEnvironment e).kind with
  | .module => e.insertSlot name (.imported module exportName)
  | _ => internalError "import binding outside a module environment"

end EnvironmentId
end ScriptEngine
