import ScriptEngine.Builtin.Install
import ScriptEngine.Operation.Conversion

/-!
# `Number`

The constructor `Number`, its functions and the methods of its prototype.

## Main definitions

* `NumberFunction.run`: what the functions do.
* `NumberFunction.install`: where they stand.
-/

namespace ScriptEngine.NumberFunction

open Engine

variable {H : HostTypes}

/-- The number of a receiver. -/
def receiver (this : Value) (method : String) : Engine H Float := do
  match this with
  | .number n => return n
  | .object o =>
    match ← getKind o with
    | .number n => return n
    | _ => pure ()
  | _ => pure ()
  typeError ("Number.prototype." ++ method ++ " requires that 'this' be a Number")

/-- A number, or its object for a constructor call. -/
def make (args : List Value) (newTarget : Option ObjectId) : Engine H Value := do
  let n ← match args with
    | [] => pure 0.0
    | v :: _ => v.toNumber
  match newTarget with
  | none => return .number n
  | some target =>
    return .object (← target.createFromConstructor (← intrinsic .numberPrototype) (.number n))

/-- A count of digits, which has to lie between two bounds. -/
def digitCount (v : Value) (low : Nat) (method : String) : Engine H Nat := do
  let digits ← v.toIntegerOrInfinity
  if !(Float.ofNat low ≤ digits && digits ≤ 100.0) then
    rangeError (method ++ "() argument must be between " ++ Nat.repr low ++ " and 100")
  return Number.toNat digits

/-- The text in fixed notation. -/
def fixedText (this places : Value) : Engine H Value := do
  let n ← receiver this "toFixed"
  let places ← digitCount places 0 "toFixed"
  return .string (Number.toFixed n places)

/-- The text in exponential notation. -/
def exponentialText (this places : Value) : Engine H Value := do
  let n ← receiver this "toExponential"
  let count ← digitCount places 0 "toExponential"
  return .string (Number.toExponential n (if places.isUndefined then none else some count))

/-- The text with a given precision. -/
def precisionText (this precision : Value) : Engine H Value := do
  let n ← receiver this "toPrecision"
  if precision.isUndefined then return .string (Number.toText n)
  let count ← digitCount precision 1 "toPrecision"
  return .string (Number.toPrecision n count)

/-- The text in a radix. -/
def radixText (this radix : Value) : Engine H Value := do
  let n ← receiver this "toString"
  let radix ← if radix.isUndefined then pure 10.0 else radix.toIntegerOrInfinity
  if !(2.0 ≤ radix && radix ≤ 36.0) then rangeError "toString() radix must be between 2 and 36"
  return .string (Number.toRadixText n (Number.toNat radix))

/-- Whether a value is a number with a property. -/
def isNumberWith (v : Value) (p : Float → Bool) : Value :=
  match v with
  | .number n => .bool (p n)
  | _ => .bool false

/-- What the functions do. -/
def run (f : NumberFunction) (this : Value) (args : List Value) (newTarget : Option ObjectId) :
    Engine H Value := do
  let first := argument args 0
  match f with
  | construct => make args newTarget
  | toExponential => exponentialText this first
  | toFixed => fixedText this first
  | toLocaleString => return .string (Number.toText (← receiver this "toLocaleString"))
  | toPrecision => precisionText this first
  | toString => radixText this first
  | valueOf => return .number (← receiver this "valueOf")
  | isFinite => return isNumberWith first Float.isFinite
  | isInteger => return isNumberWith first Number.isIntegral
  | isNaN => return isNumberWith first Float.isNaN
  | isSafeInteger =>
    return isNumberWith first fun n => Number.isIntegral n && n.abs ≤ Float.ofNat Number.maxSafe
  | parseFloat => return .number (Number.parseFloat (← first.toText))
  | parseInt => do
    let s ← first.toText
    let radix ← (argument args 1).toInt32
    return .number (Number.parseInt s radix)

/-- The methods of the prototype. -/
def prototypeMethods : List MethodEntry :=
  [.named "toExponential" (.number toExponential) 1,
   .named "toFixed" (.number toFixed) 1,
   .named "toLocaleString" (.number toLocaleString) 0,
   .named "toPrecision" (.number toPrecision) 1,
   .named "toString" (.number toString) 1,
   .named "valueOf" (.number valueOf) 0]

/-- The constants of the constructor. -/
def constants : List (String × Float) :=
  [("EPSILON", Float.ofBits 0x3CB0000000000000),
   ("MAX_SAFE_INTEGER", Float.ofNat Number.maxSafe),
   ("MIN_SAFE_INTEGER", -Float.ofNat Number.maxSafe),
   ("MAX_VALUE", Float.ofBits 0x7FEFFFFFFFFFFFFF),
   ("MIN_VALUE", Float.ofBits 1),
   ("NaN", Number.nan),
   ("NEGATIVE_INFINITY", Number.negInfinity),
   ("POSITIVE_INFINITY", Number.infinity)]

/-- The functions of the constructor. -/
def constructorMethods : List MethodEntry :=
  [.named "isFinite" (.number isFinite) 1,
   .named "isInteger" (.number isInteger) 1,
   .named "isNaN" (.number isNaN) 1,
   .named "isSafeInteger" (.number isSafeInteger) 1,
   .named "parseFloat" (.number parseFloat) 1,
   .named "parseInt" (.number parseInt) 2]

/-- Installs the constructor and the methods. -/
def install : Engine H Unit := do
  let prototype ← intrinsic .numberPrototype
  prototype.installMethods prototypeMethods
  let constructor ← installConstructor (.number construct) 1 "Number" prototype
  setIntrinsic .number constructor
  constants.forM fun (name, n) => constructor.defineConstant name (.number n)
  constructor.installMethods constructorMethods

end ScriptEngine.NumberFunction
