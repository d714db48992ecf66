import ScriptEngine.Builtin.Install
import ScriptEngine.Operation.ArrayLike
import ScriptEngine.Operation.Comparison

/-!
# `Function`

The constructor `Function`, which compiles source text, and the methods of its prototype.

## Main definitions

* `ensureCanCompile`: the permission of the host to compile text.
* `FunctionFunction.run`: what the functions do.
* `FunctionFunction.install`: where they stand.
-/

namespace ScriptEngine

open Engine

variable {H : HostTypes} {α : Type}

/-- Fails if the host forbids to compile a text. -/
def ensureCanCompile (source : String) : Engine H Unit := do
  match ← askHost (.compileStrings source) with
  | .throw v => fail (.throwing v)
  | _ => pure ()

/-- The answer of the host's evaluator; without one no text can be compiled. -/
def requireEvaluator (answer : Option α) : Engine H α :=
  match answer with
  | some a => pure a
  | none =>
    fail (.native .evalError "Code generation from strings is not available in this realm" none)

namespace FunctionFunction

/-- The text that the host is asked to permit. -/
def sourceText (parameters : List String) (body : String) : String :=
  "function anonymous(" ++ String.intercalate "," parameters ++ "\n) \x7b\n" ++ body ++ "\n\x7d"

/-- The body, which is the last argument and is converted first, and the parameters before it. -/
def sourceParts (args : List Value) : Engine H (List String × String) := do
  match args.getLast? with
  | none => return ([], "")
  | some last =>
    let body ← last.toText
    return (← args.dropLast.mapM Value.toText, body)

/-- The constructor: a function from source text. -/
def compile (args : List Value) (newTarget : Option ObjectId) : Engine H Value := do
  let self ← intrinsic .function
  let (parameters, body) ← sourceParts args
  ensureCanCompile (sourceText parameters body)
  let f ← requireEvaluator (← askHost (.createFunction .normal parameters body))
  let prototype ← (newTarget.getD self).prototypeFromConstructor (← intrinsic .functionPrototype)
  let _ ← f.setPrototypeOf (some prototype)
  f.setFunctionName (.string "anonymous")
  return .object f

/-- Fails if the receiver of a method cannot be called. -/
def requireCallable (this : Value) (method : String) : Engine H Unit := do
  if !(← isCallable this) then
    typeError ("Function.prototype." ++ method ++ " called on a non-callable " ++ this.kindName)

/-- Calls the receiver with the elements of an array-like object. -/
def applyTo (this : Value) (args : List Value) : Engine H Value := do
  requireCallable this "apply"
  let second := argument args 1
  let list ← if second.isNullish then pure [] else second.listFromArrayLike
  this.call (argument args 0) list

/-- The length of a bound function. -/
def boundLength (target : ObjectId) (boundCount : Nat) : Engine H Float := do
  if !(← target.hasOwnProperty lengthKey) then return 0.0
  match ← target.get lengthKey with
  | .number n =>
    if n == Number.infinity then return Number.infinity
    if n == Number.negInfinity then return 0.0
    return Number.atLeast (Number.integerOrInfinity n - Float.ofNat boundCount) 0.0
  | _ => return 0.0

/-- Binds the receiver. -/
def bindTo (this : Value) (args : List Value) : Engine H Value := do
  requireCallable this "bind"
  match this with
  | .object target =>
    let bound ← boundFunction target (argument args 0) (args.drop 1)
    bound.setFunctionLength (← boundLength target (args.drop 1).length)
    bound.setFunctionName (.string (← target.nameOf)) (some "bound")
    return .object bound
  | _ => typeError "Bind must be called on a function"

/-- What stands for the body in the text of a function; none if the kind is no function. -/
def bodyText? : ObjectKind H → Option String
  | .function (.script _) => some "[code]"
  | .function _ => some "[native code]"
  | .boundFunction _ => some "[native code]"
  | .proxy data => if data.callable then some "[native code]" else none
  | _ => none

/-- The text of a function. -/
def text (this : Value) : Engine H Value := do
  let refuse : Engine H Value :=
    typeError "Function.prototype.toString requires that 'this' be a Function"
  match this with
  | .object f =>
    match bodyText? (← getKind f) with
    | some body => return .string ("function " ++ (← f.nameOf) ++ "() \x7b " ++ body ++ " \x7d")
    | none => refuse
  | _ => refuse

/-- What the functions do. -/
def run (f : FunctionFunction) (this : Value) (args : List Value) (newTarget : Option ObjectId) :
    Engine H Value := do
  match f with
  | construct => compile args newTarget
  | prototype => return .undefined
  | apply => applyTo this args
  | bind => bindTo this args
  | call => do
    requireCallable this "call"
    this.call (argument args 0) (args.drop 1)
  | toString => text this
  | hasInstance => return .bool (← this.ordinaryHasInstance (argument args 0))

/-- The methods of the prototype. -/
def prototypeMethods : List MethodEntry :=
  [.named "apply" (.function apply) 2,
   .named "bind" (.function bind) 1,
   .named "call" (.function call) 1,
   .named "toString" (.function toString) 0]

/-- Installs the constructor and the methods. The method that decides about instances cannot be
replaced. -/
def install : Engine H Unit := do
  let proto ← intrinsic .functionPrototype
  proto.setFunctionLength 0.0
  proto.setFunctionName (.string "")
  proto.installMethods prototypeMethods
  let hasInstanceKey := PropertyKey.wellKnown .hasInstance
  let decide ← builtinFunction (.function hasInstance) 1 hasInstanceKey
  proto.defineOrThrow hasInstanceKey (.frozen (.object decide))
  setIntrinsic .function (← installConstructor (.function construct) 1 "Function" proto)

end FunctionFunction
end ScriptEngine
