import ScriptEngine.Bootstrap
import ScriptEngine.Json.Reader
import ScriptEngine.Script.Generator
import ScriptEngine.Script.Reader

/-!
# Running scripts

A script is a list of steps. They run one after the other in a new realm, whatever the earlier ones
did, and each of them gives one entry of the answer: how it ended, what it logged and, of a failure,
where it arose.

## Main definitions

* `host`: what scripts answer to the engine.
* `Settings`: the limits of the realm and what the host offers.
* `runStep`, `runSteps`: the entries of the answer.
* `runProgram`: the answer to a program.
-/

namespace ScriptEngine.Script

open Engine

/-! ### The host -/

/-- Declares the parameters of a function in the running scope, from a parameter on. -/
def declareParameters (e : EnvironmentId) : (params : List String) → (args : List Value) → Op Unit
  | [], _ => pure ()
  | param :: params, args => do
    if isRest param then
      declareIn e (param.drop 3).toString (.object (← arrayOfList args))
    else declareIn e param (args.headD .undefined)
    declareParameters e params (args.drop 1)

/-- Runs the code of a function. -/
def runCode (code : Code) (args : List Value) : Run Completion := do
  declareParameters (← runningScope) code.params args
  match code.body with
  | .plain body => runList .empty body
  | .generator _ => return .empty

/-- Prepares the body of a generator. -/
def startBody (code : Code) (args : List Value) : Run Body := do
  declareParameters (← runningScope) code.params args
  match code.body with
  | .plain body => return { items := body.map .plain }
  | .generator items => return { items }

/-- Runs a function without code of the language. -/
def NativeBody.run (body : NativeBody) (receiver : Value) (args : List Value)
    (target : Option ObjectId) : Op Value := do
  match body with
  | arguments => arrayValue args
  | this => return receiver
  | newTarget =>
    match target with
    | some o => return .object o
    | none => return .undefined
  | failing => rangeError "native failure"
  | throwing => fail (.throwing (argument args 0))
  | frames =>
    logEntry (renderFrames (← getRealm).stackFrames)
    return .undefined
  | nothing => return .undefined

/-- The tree of a source text. -/
def parseSource (source : String) : Op Json :=
  match Json.parse? source with
  | some j => pure j
  | none => fail (.syntaxError "bad source")

/-- Evaluates source text in the global scope. -/
def evaluateSource (source : String) : Run Value := do
  let j ← parseSource source
  inScope (← getRealm.toRoutine).globalEnvironment (evaluate (.ofJson false j))

/-- Makes a function of the global scope from source text. -/
def functionOfSource (kind : CodeKind) (params : List String) (body : String) :
    Run ObjectId := do
  let j ← parseSource body
  let spec : Json := .object
    [("params", .array (params.map .string)), ("body", j), ("strict", .bool false),
     ("ctor", .bool true), ("gen", .bool (kind == .generator)), ("env", .string "global")]
  requireObject (← evaluate (.functionOfJson false spec))

/-- Whether a text contains another one. -/
def containsText (text part : String) : Bool :=
  (Text.find? (Text.units text) (Text.units part) 0).isSome

/-- Logs source text that is about to be evaluated, and refuses some of it. -/
def checkSource (source : String) : Op Completion := do
  match (← getStore).deny with
  | none => return .empty
  | some denied =>
    logEntry (.object [("compile", .string (normalizeText source))])
    return if containsText source denied then .throw (.string "denied") else .empty

/-- What scripts answer to the engine. -/
def host : Host types
  | .evaluate code _ args => runCode code args
  | .generatorBody code _ args => startBody code args
  | .resume body _ completion => body.resume completion
  | .native body this args newTarget => body.run this args newTarget
  | .job f => do let _ ← (f.call .undefined []).toRoutine
  | .evaluateSource source => do
    if (← getStore).hasEvaluator then return some (← evaluateSource source) else return none
  | .createFunction kind params body => do
    if (← getStore).hasEvaluator then return some (← functionOfSource kind params body)
    else return none
  | .compileStrings source => checkSource source

/-! ### Entries of the answer -/

/-- The value of a completion, or a mark that it is empty. -/
def renderValue? (v : Option Value) (isDump : Bool) : Op Json :=
  match v with
  | some v => renderDeep v isDump
  | none => return .object [("empty", .nat 1)]

/-- How a step ended. -/
def renderCompletion (c : Completion) (isDump : Bool) : Op (List (String × Json)) := do
  let value ← renderValue? c.value? isDump
  match c with
  | .normal _ => return [("v", value)]
  | .empty => return [("v", value)]
  | .throw _ => return [("throw", value)]
  | c =>
    return [("completion", .string c.kindName), ("target", renderName? c.target?), ("v", value)]

/-- Where a failure arose. -/
def renderTrace (f : Failure) : List (String × Json) :=
  match f.trace? with
  | some trace =>
    [("trace", .array [.string (normalizeText trace.nodePath), renderFrames trace.frames])]
  | none => []

/-- Why a step failed. -/
def renderFailure (f : Failure) : Op (List (String × Json)) := do
  let error (kind message : String) : List (String × Json) :=
    [("error", .string kind), ("message", .string (normalizeText message))]
  let cause ← match f with
    | .thrown v _ => do pure [("throw", ← renderDeep v false)]
    | .native kind message _ => pure (error kind.name message)
    | .internal message => pure (error "Internal" message)
    | .timeout limit elapsed =>
      pure (error "Timeout" (Nat.repr limit ++ " " ++ Nat.repr elapsed))
  return cause ++ renderTrace f

/-- What a step logged. -/
def renderLog : Op (List (String × Json)) := do
  let log := (← getStore).log
  return if log.isEmpty then [] else [("log", .array log.reverse)]

/-- The statement of a step and whether its result is dumped. -/
def stepOf (strict : Bool) : Json → Statement × Bool
  | .array [.string "dump", e] => (.ofJson strict e, true)
  | j => (.ofJson strict j, false)

/-- Runs a step. -/
def runStep (strict : Bool) (j : Json) : Run Json := do
  let (statement, isDump) := stepOf strict j
  modifyStore fun store => { store with log := [] }
  let outcome ← match ← (runStatement statement).attempt with
    | .ok c => renderCompletion c isDump
    | .error f => renderFailure f
  return .object (outcome ++ (← renderLog))

/-! ### Programs -/

/-- The limits of the realm and what the host offers. -/
structure Settings where
  config : Config := {}
  /-- Whether the steps are strict code. -/
  strict : Bool := true
  /-- The seed of the random numbers; without one they are constant. -/
  seed : Option UInt64 := none
  hasEvaluator : Bool := false
  deny : Option String := none

namespace Settings

/-- A member that is a natural number. -/
def natMember? (j : Json) (name : String) : Option Nat := (j.member? name).bind Json.nat?

/-- The settings that a tree describes. -/
def ofJson (j : Json) : Settings :=
  let defaults : Config := {}
  { config :=
      { timeoutMs := (natMember? j "timeout_ms").getD defaults.timeoutMs
        checkInterval := (natMember? j "interval").getD defaults.checkInterval
        maxCallDepth := (natMember? j "max_depth").getD defaults.maxCallDepth }
    strict := ((j.member? "strict").bind Json.bool?).getD true
    seed := ((textMember? j "seed").bind String.toNat?).map UInt64.ofNat
    hasEvaluator := flagMember j "evaluator"
    deny := textMember? j "deny" }

/-- A realm without contents. -/
def emptyRealm (s : Settings) : Realm types :=
  { config := s.config
    random := match s.seed with
      | some seed => .ofSeed seed
      | none => .constant 0.5
    store := { hasEvaluator := s.hasEvaluator, deny := s.deny } }

end Settings

/-- Runs the steps one after the other. -/
def runSteps (strict : Bool) (steps : List Json) : Action types (List Json) := do
  bootstrap
  (steps.mapM (runStep strict)).act

/-- A bound on nesting that no program gets near to. -/
def ampleBound : Nat := Number.twoPow 60

/-- The answer to a program, none if it came to an operand that was left out or the bound on nesting
was too small. -/
def runProgram (settings : Settings) (steps : List Json) : Option (List Json) :=
  match runSteps settings.strict steps (.bounded host ampleBound) settings.emptyRealm with
  | .ok entries _ => some entries
  | .error _ _ => none

end ScriptEngine.Script
