import ScriptEngine.Number.Exact

/-!
# Elementary functions

The functions of real analysis that the language offers, with the values that it fixes at zeros,
infinities and `NaN`.

## Main definitions

* `Number.logOnePlus`, `Number.expMinusOne`: accurate near zero.
* `Number.arsinh`, `Number.arcosh`, `Number.artanh`: the inverse hyperbolic functions.
* `Number.power`: exponentiation.
* `Number.hypotenuse`, `Number.greatest`, `Number.least`: functions of a list of numbers.
-/

namespace ScriptEngine.Number

/-- `log (1 + x)`. The error of the sum is cancelled by the quotient. -/
def logOnePlus (x : Float) : Float :=
  let u := 1.0 + x
  if u == 1.0 then x
  else if u.isInf then Float.log u
  else Float.log u * (x / (u - 1.0))

/-- `exp x - 1`. Near zero the error of the exponential is cancelled by the quotient. -/
def expMinusOne (x : Float) : Float :=
  let u := Float.exp x
  if u == 1.0 then x
  else if 1.0 < x.abs || x.isNaN then u - 1.0
  else (u - 1.0) * x / Float.log u

/-- The inverse of the hyperbolic sine. -/
def arsinh (x : Float) : Float :=
  let a := x.abs
  let r := 1.0 / a
  if a == 0.0 || !a.isFinite then x
  else
    let h := if r.isFinite then sqrtSumSquares 1.0 r else r
    copySign (logOnePlus (a + a / (h + r))) x

/-- The inverse of the hyperbolic cosine. -/
def arcosh (x : Float) : Float :=
  if x < 1.0 || x.isNaN then nan
  else Float.log (x + Float.sqrt (x - 1.0) * Float.sqrt (x + 1.0))

/-- The inverse of the hyperbolic tangent. -/
def artanh (x : Float) : Float := 0.5 * logOnePlus (2.0 * x / (1.0 - x))

/-- Exponentiation. A base of magnitude one has no infinite power, and nothing has a power of
`NaN`. -/
def power (base exponent : Float) : Float :=
  if exponent.isNaN then nan
  else if exponent == 0.0 then 1.0
  else if base.abs == 1.0 && exponent.isInf then nan
  else Float.pow base exponent

/-- The sign of a number as a number; zeros and `NaN` stay. -/
def sign (x : Float) : Float :=
  if x.isNaN || x == 0.0 then x else if x < 0.0 then -1.0 else 1.0

/-- Rounding to single precision. -/
def toSingle (x : Float) : Float := x.toFloat32.toFloat

/-- The leading zeros of a number below `2 ^ 32` in binary. -/
def leadingZeros32 (n : Nat) : Nat := if n = 0 then 32 else 31 - n.log2

/-- The length of a vector; infinite as soon as one coordinate is. -/
def hypotenuse (xs : List Float) : Float :=
  if xs.any Float.isInf then infinity
  else if xs.any Float.isNaN then nan
  else xs.foldl (fun acc x => if acc.isInf then acc else sqrtSumSquares acc x) 0.0

/-- The greatest of some numbers, where positive zero counts as greater than negative zero. -/
def greatest (xs : List Float) : Float :=
  if xs.any Float.isNaN then nan
  else
    xs.foldl
      (fun best x => if best < x || (x == 0.0 && best == 0.0 && !signBit x) then x else best)
      negInfinity

/-- The least of some numbers, where negative zero counts as less than positive zero. -/
def least (xs : List Float) : Float :=
  if xs.any Float.isNaN then nan
  else
    xs.foldl
      (fun best x => if x < best || (x == 0.0 && best == 0.0 && signBit x) then x else best)
      infinity

end ScriptEngine.Number
