import ScriptEngine.Evaluation
import ScriptEngine.Script.Operand
import ScriptEngine.Script.Render

/-!
# Realms of scripts

The clock, the contexts and the state of the realm, and the named references. Scripts tell the time
in milliseconds.

## Main definitions

* `RealmOperation.run`, `ReferenceOperation.run`: what the operations do.
-/

namespace ScriptEngine.Script

open Engine

/-- The state of the realm. -/
def realmFlags : Op Value := do
  let realm ← getRealm
  arrayValue [.bool realm.disposed, .bool realm.aborted.isSome, .nat realm.jobs.length,
    .nat realm.contexts.size, .nat realm.callDepth]

/-- Moves the clock on, by nanoseconds. -/
def passTime (nanoseconds : Nat) : Op Unit :=
  adjust fun realm => { realm with time := { realm.time with now := realm.time.now + nanoseconds } }

/-- Puts a new context with the running scope on top of the stack; its identity. -/
def pushScriptContext : Run Value := do
  let e ← runningScope
  let id ← changeContexts fun contexts now =>
    let (context, contexts) := contexts.newContext { lexicalEnvironment := some e }
    .ok (context.id, contexts.push context now)
  return .nat id

/-- What the operations do that leave the contexts alone. -/
def RealmOperation.perform (op : RealmOperation) (operands : List Operand) : Op Value := do
  match op, operands with
  | checkTimeout, .number n :: _ =>
    forRange (fun _ => Engine.checkTimeout) 0 (Number.toNat n)
    return .undefined
  | checkTimeout, _ =>
    Engine.checkTimeout
    return .undefined
  | advanceClock, .number n :: _ =>
    passTime (Number.toNat n * 1000000)
    return .undefined
  | flags, _ => realmFlags
  | elapsed, _ =>
    return .nat (← getRealm).elapsedMs
  | frames, _ =>
    logEntry (renderFrames (← getRealm).stackFrames)
    return .undefined
  | _, _ => unknownExpression

/-- What the operations do. -/
def RealmOperation.run (op : RealmOperation) (operands : List Operand) : Run Value := do
  match op, operands with
  | dispose, _ =>
    ScriptEngine.dispose
    return .undefined
  | pushContext, _ => pushScriptContext
  | popContext, _ =>
    let context ← changeContexts ContextStack.pop
    return .nat (context.activeTime (← getRealm.toRoutine).clock / 1000000)
  | suspendContext, .number id :: _ =>
    changeContexts fun contexts now => (contexts.suspend (Number.toNat id) now).map ((), ·)
    return .undefined
  | resumeContext, .number id :: _ =>
    changeContexts fun contexts now => (contexts.resume (Number.toNat id) now).map ((), ·)
    return .undefined
  | op, operands => op.perform operands

/-! ### References -/

/-- The name of the kind of a base. -/
def baseName : ReferenceBase → String
  | .unresolvable => "unresolvable"
  | .value _ => "value"
  | .environment _ => "environment"

/-- Gives a name to a reference and tells what it is. -/
def introduceReference (name : String) (r : Reference) : Op Value := do
  nameReference name r
  arrayValue [.string (baseName r.base), r.name.toValue, .bool r.strict, .bool r.isProperty,
    .bool r.isUnresolvable, .bool r.isSuper]

/-- What the operations do. -/
def ReferenceOperation.run (op : ReferenceOperation) (operands : List Operand) : Op Value := do
  match op, operands with
  | newProperty name strict, .value base :: .key k :: .value this :: _ =>
    introduceReference name (.superProperty base k this strict)
  | newProperty name strict, .value base :: .key k :: _ =>
    introduceReference name (.property base k strict)
  | newIdentifier name identifier strict, .scope e :: _ => do
    introduceReference name (← identifierReference e identifier strict)
  | getValue name, _ => do (← referenceNamed name).getValue
  | getThis name, _ => do (← referenceNamed name).thisValue
  | delete name, _ => do return .bool (← (← referenceNamed name).delete)
  | putValue name, .value v :: _ => do
    (← referenceNamed name).putValue v
    return .undefined
  | setFirst name, .value v :: _ => do
    (← referenceNamed name).initializeBinding v
    return .undefined
  | _, _ => unknownExpression

end ScriptEngine.Script
