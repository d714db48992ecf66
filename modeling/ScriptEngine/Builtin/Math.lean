import ScriptEngine.Builtin.Install
import ScriptEngine.Number.Elementary
import ScriptEngine.Operation.Conversion

/-!
# `Math`

The mathematical functions and constants.

## Main definitions

* `MathFunction.unary?`: the functions of one number.
* `MathFunction.run`: what the functions do.
* `MathFunction.install`: where they stand.
-/

namespace ScriptEngine.MathFunction

open Engine

variable {H : HostTypes}

/-- The functions of one number. -/
def unary? : MathFunction → Option (Float → Float)
  | abs => some Float.abs
  | acos => some Float.acos
  | acosh => some Number.arcosh
  | asin => some Float.asin
  | asinh => some Number.arsinh
  | atan => some Float.atan
  | atanh => some Number.artanh
  | cbrt => some Number.cubeRoot
  | ceil => some Number.ceil
  | cos => some Float.cos
  | cosh => some Float.cosh
  | exp => some Float.exp
  | expm1 => some Number.expMinusOne
  | floor => some Number.floor
  | fround => some Number.toSingle
  | log => some Float.log
  | log10 => some Float.log10
  | log1p => some Number.logOnePlus
  | log2 => some Float.log2
  | round => some Number.round
  | sign => some Number.sign
  | sin => some Float.sin
  | sinh => some Float.sinh
  | sqrt => some Float.sqrt
  | tan => some Float.tan
  | tanh => some Float.tanh
  | trunc => some Number.trunc
  | _ => none

/-- What the functions of other than one number do. -/
def runOther (f : MathFunction) (args : List Value) : Engine H Value := do
  let first := argument args 0
  let second := argument args 1
  match f with
  | atan2 => do
    let y ← first.toNumber
    let x ← second.toNumber
    return .number (Float.atan2 y x)
  | clz32 => return .nat (Number.leadingZeros32 (← first.toUint32))
  | hypot => return .number (Number.hypotenuse (← args.mapM Value.toNumber))
  | imul => do
    let a ← first.toInt32
    let b ← second.toInt32
    return .number (Float.ofInt (Number.signed32 ((a * b) % (Number.twoPow 32 : Nat)).toNat))
  | max => return .number (Number.greatest (← args.mapM Value.toNumber))
  | min => return .number (Number.least (← args.mapM Value.toNumber))
  | pow => do
    let base ← first.toNumber
    let exponent ← second.toNumber
    return .number (Number.power base exponent)
  | random => return .number (← nextRandom)
  | _ => return .undefined

/-- What the functions do. -/
def run (f : MathFunction) (args : List Value) : Engine H Value := do
  match f.unary? with
  | some g => return .number (g (← (argument args 0).toNumber))
  | none => f.runOther args

/-- The constants. -/
def constants : List (String × Float) :=
  [("E", 2.718281828459045),
   ("LN10", 2.302585092994046),
   ("LN2", 0.6931471805599453),
   ("LOG10E", 0.4342944819032518),
   ("LOG2E", 1.4426950408889634),
   ("PI", 3.141592653589793),
   ("SQRT1_2", 0.7071067811865476),
   ("SQRT2", 1.4142135623730951)]

/-- The functions. -/
def methods : List MethodEntry :=
  [.named "abs" (.math abs) 1, .named "acos" (.math acos) 1, .named "acosh" (.math acosh) 1,
   .named "asin" (.math asin) 1, .named "asinh" (.math asinh) 1, .named "atan" (.math atan) 1,
   .named "atan2" (.math atan2) 2, .named "atanh" (.math atanh) 1, .named "cbrt" (.math cbrt) 1,
   .named "ceil" (.math ceil) 1, .named "clz32" (.math clz32) 1, .named "cos" (.math cos) 1,
   .named "cosh" (.math cosh) 1, .named "exp" (.math exp) 1, .named "expm1" (.math expm1) 1,
   .named "floor" (.math floor) 1, .named "fround" (.math fround) 1, .named "hypot" (.math hypot) 2,
   .named "imul" (.math imul) 2, .named "log" (.math log) 1, .named "log10" (.math log10) 1,
   .named "log1p" (.math log1p) 1, .named "log2" (.math log2) 1, .named "max" (.math max) 2,
   .named "min" (.math min) 2, .named "pow" (.math pow) 2, .named "random" (.math random) 0,
   .named "round" (.math round) 1, .named "sign" (.math sign) 1, .named "sin" (.math sin) 1,
   .named "sinh" (.math sinh) 1, .named "sqrt" (.math sqrt) 1, .named "tan" (.math tan) 1,
   .named "tanh" (.math tanh) 1, .named "trunc" (.math trunc) 1]

/-- Installs the object of the functions. -/
def install : Engine H Unit := do
  let o ← newPlain
  constants.forM fun (name, n) => o.defineConstant name (.number n)
  o.installMethods methods
  o.defineTag "Math"
  setIntrinsic .math o

end ScriptEngine.MathFunction
