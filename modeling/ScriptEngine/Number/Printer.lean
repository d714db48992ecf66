import ScriptEngine.Number.Shortest

/-!
# Number to text

Numbers are written with their shortest digits, positionally between `10 ^ -6` and `10 ^ 21` and
with an exponent outside. Besides there are the fixed, exponential and precision forms, which
round the exact value to a given place, and the digits in another radix.

## Main definitions

* `Number.toText`: the text of a number.
* `Number.toRadixText`: the text in a radix from 2 to 36.
* `Number.toFixed`, `Number.toExponential`, `Number.toPrecision`: the rounded forms.
* `Number.toPlainText`: positional notation whatever the size, as error messages use it.
-/

namespace ScriptEngine.Number

/-- A run of zeros. -/
def zeros (n : Nat) : String := String.ofList (List.replicate n '0')

/-- Digits with a point after the first `n` of them. -/
def insertPoint (digits : String) (n : Nat) : String :=
  String.ofList (digits.toList.take n) ++ "." ++ String.ofList (digits.toList.drop n)

/-- Whether an exponent of the first digit calls for positional notation. -/
def isPositional (exponent : Int) : Bool := -7 < exponent && exponent < 21

/-- Digits whose first stands at `10 ^ exponent`, written positionally. -/
def layoutPositional (digits : String) (exponent : Int) : String :=
  let count := digits.length
  let point := exponent + 1
  if (count : Int) ≤ point then digits ++ zeros (point - count).toNat
  else if 0 < point then insertPoint digits point.toNat
  else "0." ++ zeros (-point).toNat ++ digits

/-- The exponent with its sign. -/
def exponentText (exponent : Int) : String :=
  (if exponent < 0 then "e-" else "e+") ++ Nat.repr exponent.natAbs

/-- Digits whose first stands at `10 ^ exponent`, written with an exponent. -/
def layoutExponent (digits : String) (exponent : Int) : String :=
  (if digits.length ≤ 1 then digits else insertPoint digits 1) ++ exponentText exponent

/-- The text of a decimal. -/
def layout (d : Decimal) : String :=
  let digits := Nat.repr d.digits
  if isPositional d.exponent then layoutPositional digits d.exponent
  else layoutExponent digits d.exponent

/-- A sign in front of the text of the magnitude. -/
def withSign (x : Float) (text : Float → String) : String :=
  if x < 0.0 then "-" ++ text (-x) else text x

/-- The text of a number: its shortest digits; both zeros are `0`. -/
def toText (x : Float) : String :=
  if x.isNaN then "NaN"
  else if x == 0.0 then "0"
  else if x.isInf then (if x < 0.0 then "-Infinity" else "Infinity")
  else withSign x fun a => layout (Decimal.shortest a)

/-- Positional notation whatever the size. -/
def toPlainText (x : Float) : String :=
  if x.isNaN then "NaN"
  else if x == 0.0 then (if signBit x then "-0" else "0")
  else if x.isInf then (if x < 0.0 then "-inf" else "inf")
  else withSign x fun a =>
    let d := Decimal.shortest a
    layoutPositional (Nat.repr d.digits) d.exponent

/-! ### Rounded forms -/

/-- The sign of a number that may be a zero. -/
def signText (x : Float) : String := if signBit x then "-" else ""

/-- A count of `10 ^ (-places)` written with that many places. -/
def fixedText (count places : Nat) : String :=
  let digits := Nat.repr count
  let digits := zeros (places + 1 - digits.length) ++ digits
  if places = 0 then digits else insertPoint digits (digits.length - places)

/-- A finite number with a given count of places, the exact value rounded half to even. -/
def fixed (x : Float) (places : Nat) : String :=
  signText x ++ fixedText (Decimal.rounded x places) places

/-- The significant digits and the exponent of a positive finite number rounded to `places + 1`
digits; rounding up to a power of ten moves the exponent. -/
def scientificDigits (x : Float) (places : Nat) : String × Int :=
  let (num, den) := (Dyadic.ofFloat x).toFraction
  let e := Decimal.leadingExponent num den
  let n := Decimal.rounded x (places - e)
  if Decimal.digitCount n ≤ places + 1 then (Nat.repr n, e) else (Nat.repr (n / 10), e + 1)

/-- The digits and exponent of any finite number. -/
def scientific (x : Float) (places : Nat) : String × Int :=
  if x == 0.0 then (zeros (places + 1), 0) else scientificDigits x.abs places

/-- Scientific notation with all digits shown. -/
def scientificText (x : Float) (digits : String) (exponent : Int) : String :=
  signText x ++ layoutExponent digits exponent

/-- Fixed notation; from `10 ^ 21` on, and for what is not finite, the plain text. -/
def toFixed (x : Float) (places : Nat) : String :=
  if !x.isFinite || 1e21 ≤ x.abs then toText x else fixed x places

/-- Exponential notation with a given count of places, or with the shortest digits. -/
def toExponential (x : Float) (places : Option Nat) : String :=
  if !x.isFinite then toText x
  else
    match places with
    | some p =>
      let (digits, e) := scientific x p
      scientificText x digits e
    | none =>
      if x == 0.0 then scientificText x "0" 0
      else
        let d := Decimal.shortest x.abs
        scientificText x (Nat.repr d.digits) d.exponent

/-- A given count of significant digits, positionally if the exponent after rounding allows it. -/
def toPrecision (x : Float) (precision : Nat) : String :=
  if !x.isFinite then toText x
  else if x == 0.0 then fixed 0.0 (precision - 1)
  else
    let (digits, e) := scientific x (precision - 1)
    if e < -6 || (precision : Int) ≤ e then scientificText x digits e
    else fixed x ((precision : Int) - 1 - e).toNat

/-! ### Other radices -/

/-- The digit of a value below 36. -/
def digitChar (n : Nat) : Char :=
  if n < 10 then Char.ofNat (48 + n) else if n < 36 then Char.ofNat (87 + n) else '0'

/-- The digits of an integral number in a radix, the last one first prepended to `acc`. Each step
divides in doubles and truncates, so that above `2 ^ 53` the lower digits follow the rounded
quotients. The fuel exceeds the number of binary digits of any double. -/
def integerDigits (radix : Nat) : Nat → Float → List Char → List Char
  | 0, _, acc => acc
  | fuel + 1, x, acc =>
    if 1.0 ≤ x then
      let digit := (Dyadic.ofFloat x).magnitude % radix
      integerDigits radix fuel (trunc (x / Float.ofNat radix)) (digitChar digit :: acc)
    else acc

/-- The digits of a fraction in a radix, at most as many as the fuel. -/
def fractionDigits (radix : Nat) : Nat → Float → List Char
  | 0, _ => []
  | fuel + 1, x =>
    if 0.0 < x then
      let scaled := x * Float.ofNat radix
      let whole := trunc scaled
      digitChar (toNat whole) :: fractionDigits radix fuel (scaled - whole)
    else []

/-- The digits of the integer part and of the fraction, the latter cut off after 52. -/
def radixMagnitude (x : Float) (radix : Nat) : String :=
  let whole := trunc x
  let fraction := x - whole
  let high := if whole == 0.0 then ['0'] else integerDigits radix 1100 whole []
  if 0.0 < fraction then String.ofList (high ++ '.' :: fractionDigits radix 52 fraction)
  else String.ofList high

/-- The text of a number in a radix; ten is the ordinary text. -/
def toRadixText (x : Float) (radix : Nat) : String :=
  if radix = 10 || !x.isFinite then toText x
  else if x == 0.0 then "0"
  else withSign x fun a => radixMagnitude a radix

end ScriptEngine.Number
