import ScriptEngine.Builtin.Install
import ScriptEngine.Operation.Conversion

/-!
# `Symbol`, `Boolean` and the errors

The constructors of symbols, booleans and error objects, with the methods of their prototypes.

## Main definitions

* `SymbolFunction.run`, `SymbolFunction.install`.
* `BooleanFunction.run`, `BooleanFunction.install`.
* `constructError`, `errorText`, `installErrors`.
-/

namespace ScriptEngine

open Engine

variable {H : HostTypes}

/-! ### Symbols -/

namespace SymbolFunction

/-- The symbol of a receiver. -/
def receiver (this : Value) : Engine H Symbol := do
  match this with
  | .symbol s => return s
  | .object o =>
    match ← getKind o with
    | .symbol s => return s
    | _ => pure ()
  | _ => pure ()
  typeError "Symbol.prototype method called on an incompatible receiver"

/-- A new symbol; `Symbol` is no constructor. -/
def make (description : Value) (newTarget : Option ObjectId) : Engine H Value := do
  if newTarget.isSome then typeError "Symbol is not a constructor"
  let description ← if description.isUndefined then pure none else some <$> description.toText
  return .symbol (← newSymbol description)

/-- A string value, or `undefined`. -/
def ofText? : Option String → Value
  | some s => .string s
  | none => .undefined

/-- What the functions do. -/
def run (f : SymbolFunction) (this : Value) (args : List Value) (newTarget : Option ObjectId) :
    Engine H Value := do
  let first := argument args 0
  match f with
  | construct => make first newTarget
  | .for => return .symbol (← symbolFor (← first.toText))
  | keyFor =>
    match first with
    | .symbol s => return ofText? (← keyFor? s)
    | _ => typeError "Symbol.keyFor requires a symbol"
  | description => return ofText? (← receiver this).description
  | toString => return .string (← receiver this).text
  | valueOf => return .symbol (← receiver this)
  | toPrimitive => return .symbol (← receiver this)
  | speciesGetter => return this

/-- Installs the constructor and the methods. -/
def install : Engine H Unit := do
  let prototype ← intrinsic .symbolPrototype
  prototype.installGetter (.string "description") (.symbol description)
  prototype.installMethods
    [.named "toString" (.symbol toString) 0, .named "valueOf" (.symbol valueOf) 0]
  prototype.defineTag "Symbol"
  let key := PropertyKey.wellKnown .toPrimitive
  let convert ← builtinFunction (.symbol toPrimitive) 1 key
  prototype.defineOrThrow key (.data (.object convert) false false true)
  let constructor ← installConstructor (.symbol construct) 0 "Symbol" prototype
  setIntrinsic .symbol constructor
  constructor.installMethods
    [.named "for" (.symbol .for) 1, .named "keyFor" (.symbol keyFor) 1]
  WellKnownSymbol.all.forM fun w => constructor.defineConstant w.name (.symbol w.symbol)

end SymbolFunction

/-! ### Booleans -/

namespace BooleanFunction

/-- The boolean of a receiver. -/
def receiver (this : Value) : Engine H Bool := do
  match this with
  | .bool b => return b
  | .object o =>
    match ← getKind o with
    | .boolean b => return b
    | _ => pure ()
  | _ => pure ()
  typeError "Boolean.prototype method called on an incompatible receiver"

/-- A boolean, or its object for a constructor call. -/
def make (v : Value) (newTarget : Option ObjectId) : Engine H Value := do
  let b := v.toBoolean
  match newTarget with
  | none => return .bool b
  | some target =>
    return .object (← target.createFromConstructor (← intrinsic .booleanPrototype) (.boolean b))

/-- What the functions do. -/
def run (f : BooleanFunction) (this : Value) (args : List Value) (newTarget : Option ObjectId) :
    Engine H Value := do
  match f with
  | construct => make (argument args 0) newTarget
  | toString => return .string (if ← receiver this then "true" else "false")
  | valueOf => return .bool (← receiver this)

/-- Installs the constructor and the methods. -/
def install : Engine H Unit := do
  let prototype ← intrinsic .booleanPrototype
  prototype.installMethods
    [.named "toString" (.boolean toString) 0, .named "valueOf" (.boolean valueOf) 0]
  setIntrinsic .boolean (← installConstructor (.boolean construct) 1 "Boolean" prototype)

end BooleanFunction

/-! ### Errors -/

/-- A new error object with a message and, if the options have one, a cause. -/
def constructError (kind : ErrorKind) (args : List Value) (newTarget : Option ObjectId) :
    Engine H Value := do
  let newTarget := newTarget.getD (← intrinsic (.error kind))
  let o ← newTarget.createFromConstructor (← intrinsic (.errorPrototype kind)) .error
  let message := argument args 0
  if !message.isUndefined then
    o.defineBuiltin (.string "message") (.string (← message.toText))
  match argument args 1 with
  | .object options =>
    let cause := PropertyKey.string "cause"
    if ← options.hasProperty cause then o.defineBuiltin cause (← options.get cause)
  | _ => pure ()
  return .object o

/-- A member of an error as text, with a text for `undefined`. -/
def ObjectId.errorMember (o : ObjectId) (name fallback : String) : Engine H String := do
  let v ← o.getNamed name
  if v.isUndefined then return fallback
  v.toText

/-- The text of an error: name and message, or the one that is not empty. -/
def errorText (this : Value) : Engine H Value := do
  match this with
  | .object o =>
    let name ← o.errorMember "name" "Error"
    let message ← o.errorMember "message" ""
    if name.isEmpty then return .string message
    if message.isEmpty then return .string name
    return .string (name ++ ": " ++ message)
  | _ => typeError "Error.prototype.toString called on non-object"

/-- Installs the prototype and the constructor of a kind of errors. -/
def installError (kind : ErrorKind) (methods : List MethodEntry) : Engine H ObjectId := do
  let prototype ← intrinsic (.errorPrototype kind)
  prototype.defineBuiltin (.string "name") (.string kind.name)
  prototype.defineBuiltin (.string "message") (.string "")
  prototype.installMethods methods
  installConstructor (.errorConstructor kind) 1 kind.name prototype

/-- Installs the constructors of errors; the special ones inherit from the general one. -/
def installErrors : Engine H Unit := do
  let general ← installError .error [.named "toString" .errorToString 0]
  setIntrinsic (.error .error) general
  (ErrorKind.all.filter (· ≠ .error)).forM fun kind => do
    let constructor ← installError kind []
    let _ ← constructor.setPrototypeOf (some general)
    setIntrinsic (.error kind) constructor

end ScriptEngine
