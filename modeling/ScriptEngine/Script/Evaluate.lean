import ScriptEngine.Script.Operation

/-!
# Evaluating scripts

Expressions give values, statements give completions. Both recurse along the syntax; calls of
functions go through the engine, which comes back with the code to run.

## Main definitions

* `evaluate`: the value of an expression.
* `Statement.run`, `runList`: the completion of statements.
-/

namespace ScriptEngine.Script

open Engine

/-! ### Functions -/

/-- Whether a parameter collects the remaining arguments. -/
def isRest (param : String) : Bool := param.startsWith "..."

/-- A new function as a script describes it. -/
def makeFunction (traits : FunctionTraits) (body : FunctionBody) : Op ObjectId := do
  let scope ← match traits.scope with
    | some name => scopeNamed name
    | none => runningScope
  let (kind, parent) := match body with
    | .plain _ => (CodeKind.normal, Intrinsic.functionPrototype)
    | .generator _ => (CodeKind.generator, Intrinsic.generatorFunctionPrototype)
  let code : FunctionCode types :=
    { kind
      strict := traits.strict
      expectedArguments := (traits.params.filter fun p => !isRest p).length
      code := { params := traits.params, body } }
  let f ← scriptFunction (← intrinsic parent) code traits.isArrow (some scope)
  match traits.name with
  | some name => f.setFunctionName (.ofString name) traits.word
  | none => pure ()
  if traits.isConstructor || traits.isClass then f.makeConstructor (!traits.isClass) none
  if traits.isClass then f.makeClassConstructor
  if traits.isDerived then f.setConstructorKind .derived
  return f

/-- A new generator with a body. -/
def generatorOf (items : List GeneratorItem) : Op ObjectId := newGenerator (.host { items })

/-- Parks a body in a new generator. -/
def startItems (g : ObjectId) (items : List GeneratorItem) : Op Unit :=
  g.startGenerator (.host { items })

/-! ### Members of the prototype of the home object -/

/-- The reference to a member of the prototype of the home object, given its key. -/
def superReference (strict : Bool) (key : Run PropertyKey) : Run Reference := do
  let e ← thisEnvironment.toRoutine
  let this ← e.getThisBinding.toRoutine
  let k ← key
  let base ← e.getSuperBase.toRoutine
  return .superProperty base k this strict

/-- The function that is running. -/
def runningFunction : Op ObjectId := do
  match (← runningContext).frame.function with
  | some f => return f
  | none => misuse "no function"

/-- The parent of the running constructor, and the new target for it. -/
def superConstructor : Op (ObjectId × ObjectId) := do
  let f ← runningFunction
  match ← runningNewTarget with
  | .object newTarget =>
    match ← f.getPrototypeOf with
    | some parent => return (parent, newTarget)
    | none => typeError "super constructor is null"
  | _ => fail (.syntaxError "super call outside a constructor")

/-- Constructs with the parent of the running constructor and binds the receiver. -/
def constructSuper (parent newTarget : ObjectId) (args : List Value) : Op Value := do
  let o ← parent.construct args (some newTarget)
  (← thisEnvironment).bindThisValue (.object o)

/-! ### Outcomes -/

/-- What a failure is. -/
def classifyFailure (f : Failure) : Op Value :=
  let kind := f.kind?
  arrayValue [.bool f.isCatchable, .bool f.isFatal,
    (match kind with
      | some k => .string k.name
      | none => .null),
    .bool (kind == some .typeError), .bool (kind == some .referenceError),
    .bool (kind == some .rangeError)]

/-- What is done with the outcome of an expression. -/
def Observation.run (how : Observation) (outcome : Except Failure Value) : Op Value := do
  match how, outcome with
  | closeIterator name, outcome => (← iteratorNamed name).close outcome
  | complete, outcome =>
    let c ← completionOf outcome
    arrayValue [.string c.kindName, c.valueD]
  | display, .error f => return .string f.text
  | classify, .error f => classifyFailure f
  | enrich nodePath, .error f => do fail (← Engine.enrich f nodePath)
  | _, .ok v => return v

/-- The value of a statement that stands for an expression. -/
def valueOfCompletion : Completion → Op Value
  | .normal v => return v
  | .empty => return .undefined
  | .throw v => fail (.throwing v)
  | _ => misuse "stray break/continue/return"

/-! ### Control -/

/-- A completion after another one: a missing value is filled in. -/
def following (last c : Completion) : Completion :=
  match last.value? with
  | some v => c.updateEmpty v
  | none => c

/-- Whether a loop goes on after its body, given the last value. -/
def afterBody (label : Option String) (last : Value) (c : Completion) : Round Value Completion :=
  if c.loopContinues label.toList then .again (c.value?.getD last)
  else
    let updated := c.updateEmpty last
    match c with
    | .break _ none => .finish (.normal updated.valueD)
    | .break _ (some target) =>
      if label = some target then .finish (.normal updated.valueD) else .finish updated
    | _ => .finish updated

/-- The value that a handler gets after an outcome, none where there is nothing to handle. A failure
that cannot be caught, or cannot be made a value, is that of the whole statement. -/
def caught? : Except Failure Completion → Op (Option Value)
  | .ok (.throw v) => return some v
  | .ok _ => return none
  | .error f => return some (← f.toValue)

/-- Runs a last statement after an outcome that is not fatal; if it ends abruptly, that counts. -/
def finishWith (finalizer : Run Completion) (outcome : Except Failure Completion) :
    Run Completion := do
  match outcome with
  | .error f => if f.isFatal then (fail f).toRoutine
  | .ok _ => pure ()
  let c ← finalizer
  if c.isAbrupt then return c
  (Engine.ofExcept outcome).toRoutine

mutual

/-- The value of an expression. -/
def evaluate : Expression → Run Value
  -- there is no answer to a script that comes here
  | .missing => exhaust.toRoutine
  | .literal v => return v
  | .apply op parts => do op.run (← evaluateParts parts)
  | .assign name strict e => do
    let r ← (resolveBinding name strict).toRoutine
    let v ← evaluate e
    (r.putValue v).toRoutine
    return v
  | .sequence es => evaluateSequence .undefined es
  | .log es => do
    logAll es
    return .undefined
  | .function traits body home => do
    let f ← makeFunction traits body
    evaluateHome f home
    return .object f
  | .generator body => return .object (← generatorOf body)
  | .startGenerator g body => do
    let o ← requireObject (← evaluate g)
    startItems o body
    return .undefined
  | .object members => do
    let o ← newPlain.toRoutine
    defineMembers o members
    return .object o
  | .array elements => do
    let array ← (arrayCreate elements.length).toRoutine
    defineElements array 0 elements
    return .object array
  | .superProperty use strict k v => do
    let r ← superReference strict do (← evaluate k).toPropertyKey.toRoutine
    match use, v with
    | .get, _ => r.getValue.toRoutine
    | .delete, _ => return .bool (← r.delete.toRoutine)
    | .put, some e => do
      (r.putValue (← evaluate e)).toRoutine
      return .undefined
    | .put, none => unknownExpression
  | .superCall parts => do
    let (parent, newTarget) ← superConstructor
    constructSuper parent newTarget (valuesOf (← evaluateParts parts))
  | .observe how e => do how.run (← (evaluate e).attempt)
  | .execute e => execute (evaluate e)
  | .within name e => do inScope (← scopeNamed name) (evaluate e)
  | .statement s => do valueOfCompletion (← runStatement s)

/-- The operands of the parts of an expression, from left to right. -/
def evaluateParts : List Part → Run (List Operand)
  | [] => return []
  | .one use e :: rest => do
    let operand ← Operand.ofValue use (← evaluate e)
    return operand :: (← evaluateParts rest)
  | .spread e :: rest => do
    let values ← (← evaluate e).iterableToList.toRoutine
    return values.map .value ++ (← evaluateParts rest)
  | .scope name :: rest => do
    let e ← scopeNamed name
    return .scope (some e) :: (← evaluateParts rest)
  | .noScope :: rest => return .scope none :: (← evaluateParts rest)

/-- The last of several values. -/
def evaluateSequence (last : Value) : List Expression → Run Value
  | [] => return last
  | e :: es => do evaluateSequence (← evaluate e) es

/-- Evaluates expressions and logs each value at once. -/
def logAll : List Expression → Run Unit
  | [] => pure ()
  | e :: es => do
    logEntry (← renderShallow (← evaluate e))
    logAll es

/-- Gives a function its home object. -/
def evaluateHome (f : ObjectId) : Option Expression → Run Unit
  | none => pure ()
  | some e => do (f.makeMethod (← requireObject (← evaluate e))).toRoutine

/-- Creates the members of an object literal. -/
def defineMembers (o : ObjectId) : List Member → Run Unit
  | [] => pure ()
  | .data k v :: rest => do
    let k ← (← evaluate k).toPropertyKey.toRoutine
    (o.createDataPropertyOrThrow k (← evaluate v)).toRoutine
    defineMembers o rest
  | .getter k f :: rest => do
    let k ← (← evaluate k).toPropertyKey.toRoutine
    let get ← evaluate f
    (o.defineOrThrow k
      { get := some get, enumerable := some true, configurable := some true }).toRoutine
    defineMembers o rest
  | .setter k f :: rest => do
    let k ← (← evaluate k).toPropertyKey.toRoutine
    let set ← evaluate f
    (o.defineOrThrow k
      { set := some set, enumerable := some true, configurable := some true }).toRoutine
    defineMembers o rest

/-- Creates the elements of an array literal from an index on, except where it has holes. -/
def defineElements (array : ObjectId) (i : Nat) : List (Option Expression) → Run Unit
  | [] => pure ()
  | none :: rest => defineElements array (i + 1) rest
  | some e :: rest => do
    (array.createDataPropertyOrThrow (.ofNat i) (← evaluate e)).toRoutine
    defineElements array (i + 1) rest

/-- The completion of a statement. -/
def runStatement : Statement → Run Completion
  | .expression e => do return .normal (← evaluate e)
  | .block body => inBlock fun _ => runList .empty body
  | .if condition yes no => do
    if (← evaluate condition).toBoolean then runStatement yes
    else runOptional no
  | .while condition body label =>
    .loop (fun last => do
      checkTimeout.toRoutine
      if !(← evaluate condition).toBoolean then return .finish (.normal last)
      return afterBody label last (← inBlock fun _ => runList .empty body)) .undefined
  | .return none => return .return .undefined
  | .return (some e) => do return .return (← evaluate e)
  | .throw e => do return .throw (← evaluate e)
  | .break label => return .break none label
  | .continue label => return .continue none label
  | .empty => return .empty
  | .try body parameter handler finalizer => do
    let outcome ← (inBlock fun _ => runList .empty body).attempt
    let outcome ← match handler with
      | none => pure outcome
      | some statements => do
        match ← caught? outcome with
        | none => pure outcome
        | some v => Routine.attempt (inBlock fun e => do
          match parameter with
          | some name => declareIn e name v
          | none => pure ()
          runList .empty statements)
    match finalizer with
    | none => (Engine.ofExcept outcome).toRoutine
    | some statements => finishWith (inBlock fun _ => runList .empty statements) outcome

/-- The completion of a statement that may be missing. -/
def runOptional : Option Statement → Run Completion
  | none => return .empty
  | some s => runStatement s

/-- The completion of a list of statements after another completion. -/
def runList (last : Completion) : List Statement → Run Completion
  | [] => return last
  | s :: rest => do
    let c := following last (← runStatement s)
    if c.isAbrupt then return c else runList c rest

end

end ScriptEngine.Script
