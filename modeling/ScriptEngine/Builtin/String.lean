import ScriptEngine.Builtin.Array.Basic
import ScriptEngine.Builtin.Install
import ScriptEngine.Operation.Generator
import ScriptEngine.Text.LetterCase
import ScriptEngine.Text.Split

/-!
# `String`

The constructor `String`, its functions and the methods of its prototype. All positions count code
units.

## Main definitions

* `StringFunction.run`: what the functions do.
* `StringFunction.install`: where they stand.
-/

namespace ScriptEngine.StringFunction

open Engine

variable {H : HostTypes}

/-! ### Receivers and positions -/

/-- The string of a receiver that has to be one. -/
def receiver (this : Value) : Engine H String := do
  match this with
  | .string s => return s
  | .object o =>
    match ← getKind o with
    | .string s => return s
    | _ => pure ()
  | _ => pure ()
  typeError "String.prototype.valueOf requires that 'this' be a String"

/-- The string of any receiver but `null` and `undefined`. -/
def coerce (this : Value) : Engine H String := do
  this.requireObjectCoercible
  this.toText

/-- The code units of a receiver. -/
def coerceUnits (this : Value) : Engine H (List UInt16) := return Text.units (← coerce this)

/-- A position moved between zero and a length. -/
def clampedPosition (v : Value) (length : Nat) : Engine H Nat := do
  return Number.toNat (Number.clamp (← v.toIntegerOrInfinity) 0.0 (Float.ofNat length))

/-- A position moved between zero and a length, with a value for `undefined`. -/
def clampedPositionD (v : Value) (length fallback : Nat) : Engine H Nat :=
  if v.isUndefined then pure fallback else clampedPosition v length

/-- A string value from code units. -/
def ofUnits (us : List UInt16) : Value := .string (Text.ofUnits us)

/-- The code units of an argument. -/
def unitsOf (v : Value) : Engine H (List UInt16) := return Text.units (← v.toText)

/-- A position or minus one. -/
def positionValue : Option Nat → Value
  | some i => .nat i
  | none => .number (-1.0)

/-! ### Making strings -/

/-- The text of the first argument. A symbol is described, unless a string object is wanted. -/
def textOf (args : List Value) (newTarget : Option ObjectId) : Engine H String := do
  match args with
  | [] => return ""
  | .symbol s :: _ => if newTarget.isNone then return s.text else (Value.symbol s).toText
  | v :: _ => v.toText

/-- A string, or its object for a constructor call. -/
def make (args : List Value) (newTarget : Option ObjectId) : Engine H Value := do
  let s ← textOf args newTarget
  match newTarget with
  | none => return .string s
  | some target =>
    let prototype ← target.prototypeFromConstructor (← intrinsic .stringPrototype)
    return .object (← stringCreate s (some prototype))

/-- The character of a code point. -/
def charOfPoint (v : Value) : Engine H Char := do
  let n ← v.toNumber
  let point := Number.toNat n
  if Number.isIntegral n && 0.0 ≤ n && n ≤ 1114111.0 && !(0xD800 ≤ point && point ≤ 0xDFFF) then
    return Char.ofNat point
  rangeError ("Invalid code point " ++ Number.toPlainText n)

/-! ### Single units -/

/-- The code unit at a position that is not negative. -/
def unitAt? (us : List UInt16) (position : Float) : Option UInt16 :=
  if position < 0.0 then none else us[Number.toNat position]?

/-- The unit at a relative position. -/
def atPosition (this index : Value) : Engine H Value := do
  let us ← coerceUnits this
  let n := Float.ofNat us.length
  let relative ← index.toIntegerOrInfinity
  let i := if 0.0 ≤ relative then relative else n + relative
  match unitAt? us i with
  | some u => return ofUnits [u]
  | none => return .undefined

/-- The unit at a position as a string; empty outside. -/
def charAtPosition (this index : Value) : Engine H Value := do
  let us ← coerceUnits this
  return ofUnits (unitAt? us (← index.toIntegerOrInfinity)).toList

/-- The unit at a position as a number; `NaN` outside. -/
def codeAtPosition (this index : Value) : Engine H Value := do
  let us ← coerceUnits this
  match unitAt? us (← index.toIntegerOrInfinity) with
  | some u => return .nat u.toNat
  | none => return .number Number.nan

/-- The code point at a position. -/
def pointAtPosition (this index : Value) : Engine H Value := do
  let us ← coerceUnits this
  let position ← index.toIntegerOrInfinity
  let point? := if position < 0.0 then none else Text.pointAt? us (Number.toNat position)
  match point? with
  | some n => return .nat n
  | none => return .undefined

/-! ### Searching -/

/-- Whether a string stands at a position. -/
def startsAt (this : Value) (args : List Value) : Engine H Value := do
  let us ← coerceUnits this
  let search ← unitsOf (argument args 0)
  let start ← clampedPositionD (argument args 1) us.length 0
  return .bool (search.isPrefixOf (us.drop start))

/-- Whether a string ends at a position. -/
def endsAt (this : Value) (args : List Value) : Engine H Value := do
  let us ← coerceUnits this
  let search ← unitsOf (argument args 0)
  let stop ← clampedPositionD (argument args 1) us.length us.length
  return .bool (search.isSuffixOf (us.take stop))

/-- The first position of a string. -/
def findFirst (this : Value) (args : List Value) : Engine H (Option Nat) := do
  let us ← coerceUnits this
  let search ← unitsOf (argument args 0)
  let start ← clampedPosition (argument args 1) us.length
  return Text.find? us search start

/-- The last position of a string. -/
def findLast (this : Value) (args : List Value) : Engine H (Option Nat) := do
  let us ← coerceUnits this
  let search ← unitsOf (argument args 0)
  let n ← (argument args 1).toNumber
  let position := if n.isNaN then Number.infinity else Number.trunc n
  if us.length < search.length then return none
  let start := Number.clamp position 0.0 (Float.ofNat (us.length - search.length))
  return Text.findLast? us search (Number.toNat start)

/-! ### Parts -/

/-- A range between relative positions. -/
def sliceOf (this : Value) (args : List Value) : Engine H Value := do
  let us ← coerceUnits this
  let start := resolveRelative (← (argument args 0).toIntegerOrInfinity) us.length
  let stop ← relativeIndex (argument args 1) us.length us.length
  return ofUnits (Text.cut us start stop)

/-- A range between positions in either order. -/
def substringOf (this : Value) (args : List Value) : Engine H Value := do
  let us ← coerceUnits this
  let start ← clampedPosition (argument args 0) us.length
  let stop ← clampedPositionD (argument args 1) us.length us.length
  return ofUnits (Text.cut us (min start stop) (max start stop))

/-- How many parts are wanted; without a number as many as an array has room for. -/
def partLimit (v : Value) : Engine H Nat :=
  if v.isUndefined then pure (Number.twoPow 32 - 1) else v.toUint32

/-- The parts between the occurrences of a separator, up to a number of them. -/
def splitAt (this : Value) (args : List Value) : Engine H Value := do
  let s ← coerce this
  let limit ← partLimit (argument args 1)
  let separatorArgument := argument args 0
  if separatorArgument.isUndefined then
    return .object (← arrayOfList ([Value.string s].take limit))
  let separator ← unitsOf separatorArgument
  let parts := (Text.splitUnits separator (Text.units s)).take limit
  return .object (← arrayOfList (parts.map ofUnits))

/-! ### Other methods -/

/-- Fills a string up to a length, at its start or at its end. -/
def pad (this : Value) (args : List Value) (atStart : Bool) : Engine H Value := do
  let s ← coerce this
  let us := Text.units s
  let length ← (argument args 0).toLength
  if length ≤ us.length then return .string s
  let fillArgument := argument args 1
  let fill ← if fillArgument.isUndefined then pure [32] else unitsOf fillArgument
  if fill.isEmpty then return .string s
  let padding := Text.cycle fill (length - us.length)
  return ofUnits (if atStart then padding ++ us else us ++ padding)

/-- A string repeated. More than `2 ^ 30` units are refused. -/
def repeatOf (this count : Value) : Engine H Value := do
  let s ← coerce this
  let n ← count.toIntegerOrInfinity
  if n < 0.0 || n == Number.infinity then
    rangeError ("Invalid count value: " ++ Number.toPlainText n)
  if s.isEmpty || n == 0.0 then return .string ""
  if 1073741824.0 < Float.ofNat (Text.unitLength s) * n then rangeError "Invalid string length"
  return .string (String.join (List.replicate (Number.toNat n) s))

/-- An iterator over the characters. -/
def iterate (this : Value) : Engine H Value := do
  let s ← coerce this
  let g ← newGenerator (.strings (s.toList.map fun c => String.ofList [c]))
  return .object g

/-- What the functions do. -/
def run (f : StringFunction) (this : Value) (args : List Value) (newTarget : Option ObjectId) :
    Engine H Value := do
  let first := argument args 0
  match f with
  | construct => make args newTarget
  | fromCharCode => return ofUnits (← args.mapM fun v => return UInt16.ofNat (← v.toUint32))
  | fromCodePoint => return .string (String.ofList (← args.mapM charOfPoint))
  | .at => atPosition this first
  | charAt => charAtPosition this first
  | charCodeAt => codeAtPosition this first
  | codePointAt => pointAtPosition this first
  | concat => do
    let s ← coerce this
    return .string (String.join (s :: (← args.mapM Value.toText)))
  | endsWith => endsAt this args
  | includes => return .bool (← findFirst this args).isSome
  | indexOf => return positionValue (← findFirst this args)
  | lastIndexOf => return positionValue (← findLast this args)
  | padEnd => pad this args false
  | padStart => pad this args true
  | .repeat => repeatOf this first
  | slice => sliceOf this args
  | split => splitAt this args
  | startsWith => startsAt this args
  | substring => substringOf this args
  | toLowerCase => return .string (Text.toLower (← coerce this))
  | toUpperCase => return .string (Text.toUpper (← coerce this))
  | trim => return .string (Text.trim (← coerce this))
  | trimEnd => return .string (Text.trimEnd (← coerce this))
  | trimStart => return .string (Text.trimStart (← coerce this))
  | valueOf => return .string (← receiver this)
  | iterator => iterate this

/-- The methods of the prototype. -/
def prototypeMethods : List MethodEntry :=
  [.named "at" (.string .at) 1,
   .named "charAt" (.string charAt) 1,
   .named "charCodeAt" (.string charCodeAt) 1,
   .named "codePointAt" (.string codePointAt) 1,
   .named "concat" (.string concat) 1,
   .named "endsWith" (.string endsWith) 1,
   .named "includes" (.string includes) 1,
   .named "indexOf" (.string indexOf) 1,
   .named "lastIndexOf" (.string lastIndexOf) 1,
   .named "padEnd" (.string padEnd) 1,
   .named "padStart" (.string padStart) 1,
   .named "repeat" (.string .repeat) 1,
   .named "slice" (.string slice) 2,
   .named "split" (.string split) 2,
   .named "startsWith" (.string startsWith) 1,
   .named "substring" (.string substring) 2,
   .named "toLowerCase" (.string toLowerCase) 0,
   .named "toString" (.string valueOf) 0,
   .named "toUpperCase" (.string toUpperCase) 0,
   .named "trim" (.string trim) 0,
   .named "trimEnd" (.string trimEnd) 0,
   .named "trimStart" (.string trimStart) 0,
   .named "valueOf" (.string valueOf) 0,
   { key := .wellKnown .iterator, behaviour := .string iterator, length := 0 }]

/-- Installs the constructor and the methods. -/
def install : Engine H Unit := do
  let prototype ← intrinsic .stringPrototype
  prototype.installMethods prototypeMethods
  let constructor ← installConstructor (.string construct) 1 "String" prototype
  setIntrinsic .string constructor
  constructor.installMethods
    [.named "fromCharCode" (.string fromCharCode) 1,
     .named "fromCodePoint" (.string fromCodePoint) 1]

end ScriptEngine.StringFunction
