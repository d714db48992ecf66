import ScriptEngine.Bootstrap
import ScriptEngine.Script.Operand

/-!
# Scopes of scripts

## Main definitions

* `ScopeOperation.run`: what the operations do.
-/

namespace ScriptEngine.Script

open Engine

/-- Makes a scope and gives it a name. -/
def newNamedScope (name : String) (outer : Option EnvironmentId) (kind : EnvironmentKind) :
    Op Value := do
  nameScope name (← newEnvironment outer kind)
  return .undefined

/-- The scope of a function call that has not bound its receiver yet. -/
def functionScope (newTarget home : Value) (lexicalThis : Bool) : FunctionScope :=
  { thisValue := .undefined
    thisStatus := if lexicalThis then .lexical else .uninitialized
    newTarget := newTarget.object?
    homeObject := home.object? }

/-- Makes a scope of a kind. -/
def ScopeOperation.create (op : ScopeOperation) (outer : Option EnvironmentId)
    (operands : List Operand) : Op Value := do
  match op, operands with
  | newDeclarative name, _ => newNamedScope name outer .declarative
  | newModule name, _ => newNamedScope name outer .module
  | newObject name isWith, .object o :: _ => newNamedScope name outer (.object o isWith)
  | newFunction name lexicalThis, .object _ :: .value newTarget :: .value home :: _ =>
    newNamedScope name outer (.function (functionScope newTarget home lexicalThis))
  | newGlobal name, .object o :: _ => do
    nameScope name (← newGlobalEnvironment o o)
    return .undefined
  | _, _ => unknownExpression

/-- Asks something of a scope. -/
def ScopeOperation.query (op : ScopeOperation) (e : EnvironmentId) : Op Value := do
  match op with
  | has binding => return .bool (← e.hasBinding binding)
  | get binding strict => e.getBindingValue binding strict
  | delete binding => return .bool (← e.deleteBinding binding)
  | names => arrayValue ((← getEnvironment e).bindings.keys.map Value.string)
  | hasThis => return .bool (← e.hasThisBinding)
  | hasSuper => return .bool (← e.hasSuperBinding)
  | withBase => return .ofObject? (← e.withBaseObject?)
  | getThis => e.getThisBinding
  | superBase => e.getSuperBase
  | hasVar binding => return .bool (← e.hasVarDeclaration binding)
  | hasLexical binding => return .bool (← e.hasLexicalDeclaration binding)
  | isRestricted binding => return .bool (← e.hasRestrictedGlobalProperty binding)
  | canDeclareVar binding => return .bool (← e.canDeclareGlobalVar binding)
  | canDeclareFunction binding => return .bool (← e.canDeclareGlobalFunction binding)
  | _ => unknownExpression

/-- Changes a scope. -/
def ScopeOperation.change (op : ScopeOperation) (e : EnvironmentId) (v : Value) : Op Unit := do
  match op with
  | createMutable binding deletable => e.createMutableBinding binding deletable
  | createImmutable binding strict => e.createImmutableBinding binding strict
  | setFirst binding => e.initializeBinding binding v
  | set binding strict => e.setMutableBinding binding v strict
  | createVar binding deletable => e.createGlobalVarBinding binding deletable
  | createFunction binding deletable => e.createGlobalFunctionBinding binding v deletable
  | createImport binding module name =>
    e.createImportBinding binding (← moduleNamed module).id name
  | _ => unknownExpression

/-- Whether an operation changes the bindings of a scope. -/
def ScopeOperation.changes : ScopeOperation → Bool
  | createMutable .. => true
  | createImmutable .. => true
  | setFirst _ => true
  | set .. => true
  | createVar .. => true
  | createFunction .. => true
  | createImport .. => true
  | _ => false

/-- Whether an operation makes a scope. -/
def ScopeOperation.creates : ScopeOperation → Bool
  | newDeclarative _ => true
  | newModule _ => true
  | newObject .. => true
  | newFunction .. => true
  | newGlobal _ => true
  | _ => false

/-- What the operations do. -/
def ScopeOperation.run (op : ScopeOperation) (operands : List Operand) : Op Value := do
  match operands with
  | .scope outer :: operands =>
    if op.creates then op.create outer operands
    else
      match outer with
      | none => misuse "unknown env"
      | some e =>
        if op.changes then
          op.change e (firstValue operands)
          return .undefined
        else if op = bindThis then e.bindThisValue (firstValue operands)
        else op.query e
  | _ => unknownExpression

end ScriptEngine.Script
