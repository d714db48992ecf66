import ScriptEngine.Evaluation
import ScriptEngine.Script.Operand
import ScriptEngine.Script.Render

/-!
# Promises, jobs and modules of scripts

## Main definitions

* `PromiseOperation.run`: what the operations do.
-/

namespace ScriptEngine.Script

open Engine

/-- Makes a capability and gives it a name. -/
def newNamedCapability (name : String) (constructor : Value) : Op Value := do
  let c ← constructor.newCapability
  modifyStore fun store => { store with capabilities := store.capabilities.insert name c }
  arrayValue [.object c.promise, c.resolve, c.reject]

/-- What a forwarded export stands for. -/
def ForwardedExport.resolve : ForwardedExport → Op ResolvedExport
  | .name module key => return .binding (← moduleNamed module).id (.name key)
  | whole module => return .binding (← moduleNamed module).id .whole
  | null => return .null
  | ambiguous => return .ambiguous

/-- Makes a module without a scope whose exports belong to other modules. -/
def forwardModule (name : String) (exports : List (String × ForwardedExport)) : Op Unit := do
  let exports ← exports.mapM fun (key, e) => return (key, ← e.resolve)
  let id ← newModule fun _ => { environment := none, exports }
  nameModule name { id, isForward := true }

/-- The name of the way an export is resolved. -/
def resolutionName : ResolvedExport → String
  | .binding .. => "binding"
  | .null => "null"
  | .ambiguous => "ambiguous"

/-- What the operations do, other than running jobs. -/
def PromiseOperation.perform (op : PromiseOperation) (operands : List Operand) : Op Value := do
  match op, operands with
  | newCapability name, .value c :: _ => newNamedCapability name c
  | state, .object p :: _ =>
    let data ← p.promiseData
    arrayValue [.string (promiseStateName data.state), data.result]
  | resolve, .object c :: v => return .object (← c.promiseResolve (firstValue v))
  | performThen capability, .object p :: .value f :: .value g :: _ =>
    let store ← getStore
    p.performThen f g (capability.bind store.capabilities.get?)
  | enqueue, .value f :: _ =>
    Engine.enqueue f
    return .undefined
  | createModule name exports, _ =>
    let id ← ScriptEngine.createModule exports
    nameModule name { id, isForward := false }
    return .undefined
  | setExport name key, v =>
    (← ownModuleNamed name).setExport key (firstValue v)
    return .undefined
  | detach name, _ =>
    (← ownModuleNamed name).detachEnvironment
    return .undefined
  | getNamespace name, _ => return .object (← (← moduleNamed name).id.getNamespace)
  | resolveExport name key, _ =>
    let record ← getModule (← moduleNamed name).id
    return .string (resolutionName (record.resolveExport key))
  | forward name exports, _ =>
    forwardModule name exports
    return .undefined
  | _, _ => unknownExpression

/-- What the operations do. -/
def PromiseOperation.run (op : PromiseOperation) (operands : List Operand) : Run Value := do
  match op with
  | runJobs => return .nat (← ScriptEngine.runJobs)
  | op => op.perform operands

end ScriptEngine.Script
