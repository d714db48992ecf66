/-!
# Exact values of numbers

A finite double is a dyadic rational `± mantissa · 2 ^ exponent`. The integer parts, remainders and
conversions to machine integers that the language defines are computed on that exact value, so no
step rounds twice.

## Main definitions

* `Number.twoPow`, `Number.tenPow`: powers of natural numbers.
* `Dyadic`, `Dyadic.ofFloat`: the exact value of a finite double.
* `Number.trunc`, `Number.floor`, `Number.ceil`, `Number.isIntegral`: integer parts.
* `Number.integerOrInfinity`, `Number.toUint32`, `Number.toInt32`: the integer conversions.
* `Number.sqrtSumSquares`, `Number.cubeRoot`: roots that are rounded once.
-/

namespace ScriptEngine

/-- The power of two with a given exponent. -/
abbrev Number.twoPow (n : Nat) : Nat := Nat.pow 2 n

/-- The power of ten with a given exponent. -/
abbrev Number.tenPow (n : Nat) : Nat := Nat.pow 10 n

/-- A dyadic rational `± mantissa · 2 ^ exponent`. -/
structure Dyadic where
  negative : Bool
  mantissa : Nat
  exponent : Int
deriving DecidableEq, Repr

namespace Dyadic

open Number

/-- The exact value of a finite double, read off its bits. -/
def ofFloat (x : Float) : Dyadic :=
  let bits : Nat := x.toBits.toNat
  let fraction : Nat := bits % twoPow 52
  let biased : Nat := bits / twoPow 52 % twoPow 11
  { negative := decide (twoPow 63 ≤ bits)
    mantissa := if biased = 0 then fraction else twoPow 52 + fraction
    exponent := if biased = 0 then -1074 else (biased : Int) - 1075 }

/-- The magnitude without its fractional part. -/
def magnitude (d : Dyadic) : Nat :=
  if 0 ≤ d.exponent then d.mantissa * twoPow d.exponent.toNat
  else d.mantissa / twoPow (-d.exponent).toNat

/-- The value rounded towards zero. -/
def toInt (d : Dyadic) : Int := if d.negative then -(d.magnitude : Int) else d.magnitude

/-- The magnitude as a fraction with a power of two below. -/
def toFraction (d : Dyadic) : Nat × Nat :=
  if 0 ≤ d.exponent then (d.mantissa * twoPow d.exponent.toNat, 1)
  else (d.mantissa, twoPow (-d.exponent).toNat)

end Dyadic

namespace Number

/-! ### Special values -/

/-- The value that is not a number. -/
def nan : Float := Float.ofBits 0x7FF8000000000000

/-- Positive infinity. -/
def infinity : Float := Float.ofBits 0x7FF0000000000000

/-- Negative infinity. -/
def negInfinity : Float := Float.ofBits 0xFFF0000000000000

/-- Negative zero. -/
def negZero : Float := Float.ofBits 0x8000000000000000

/-- Whether the sign bit is set; it tells the two zeros apart. -/
def signBit (x : Float) : Bool := 0x8000000000000000 ≤ x.toBits

/-- The magnitude of the first number with the sign of the second. -/
def copySign (x sign : Float) : Float := if signBit x == signBit sign then x else -x

/-! ### Integer parts -/

/-- Rounding towards zero; the sign of zero is kept. -/
def trunc (x : Float) : Float :=
  let a := x.abs
  if a < 4503599627370496.0 then copySign a.toUInt64.toFloat x else x

/-- Rounding towards negative infinity. -/
def floor (x : Float) : Float :=
  let t := trunc x
  if x < t then t - 1.0 else t

/-- Rounding towards positive infinity; the sign of zero is kept. -/
def ceil (x : Float) : Float :=
  let t := trunc x
  if t < x then copySign (t + 1.0) x else t

/-- A finite number without a fractional part. -/
def isIntegral (x : Float) : Bool := x.isFinite && trunc x == x

/-- Rounding to the nearest integer, halves towards positive infinity. -/
def round (x : Float) : Float :=
  if !x.isFinite || isIntegral x then x
  else if 0.0 < x && x < 0.5 then 0.0
  else if -0.5 ≤ x && x < 0.0 then negZero
  else floor (x + 0.5)

/-! ### Integer conversions -/

/-- The integer part, with `NaN` and both zeros read as zero and the infinities kept. -/
def integerOrInfinity (x : Float) : Float :=
  if x.isNaN then 0.0
  else if x.isInf then x
  else
    let t := trunc x
    if t == 0.0 then 0.0 else t

/-- The integer part modulo `2 ^ 32`; zero for what is not finite. -/
def toUint32 (x : Float) : Nat :=
  if x.isFinite then ((Dyadic.ofFloat x).toInt % (twoPow 32 : Nat)).toNat else 0

/-- A number modulo `2 ^ 32` read in two's complement. -/
def signed32 (n : Nat) : Int := if n < twoPow 31 then n else (n : Int) - (twoPow 32 : Nat)

/-- The integer part modulo `2 ^ 32` in two's complement. -/
def toInt32 (x : Float) : Int := signed32 (toUint32 x)

/-- The largest integer below which every integer is a number: `2 ^ 53 - 1`. -/
def maxSafe : Nat := twoPow 53 - 1

/-- A number raised to a lower bound, which also stands in for `NaN`. -/
def atLeast (x low : Float) : Float := if x < low || x.isNaN then low else x

/-- A number lowered to an upper bound, which also stands in for `NaN`. -/
def atMost (x high : Float) : Float := if high < x || x.isNaN then high else x

/-- A number moved into an interval; `NaN` stays. -/
def clamp (x low high : Float) : Float :=
  if x < low then low else if high < x then high else x

/-- A number truncated to a natural number and clamped to 64 bits; zero for `NaN`. -/
def toNat (x : Float) : Nat := x.toUInt64.toNat

/-! ### Roots from exact values -/

/-- The largest number whose power with the given exponent is at most `n`, by bisection on its
bits. -/
def rootFloor (exponent n : Nat) : Nat :=
  go (n.log2 / exponent + 1) 0
where
  /-- Tries each lower bit in turn on top of what is known. -/
  go : Nat → Nat → Nat
    | 0, r => r
    | k + 1, r => if Nat.pow (r + twoPow k) exponent ≤ n then go k (r + twoPow k) else go k r

/-- The integer root with its last bit set if the root is not exact, which is all that rounding to
fewer bits can see. -/
def rootSticky (exponent n : Nat) : Nat :=
  let root := rootFloor exponent n
  if Nat.pow root exponent = n then root else root / 2 * 2 + 1

/-- The double nearest to `n · 2 ^ e`, a half going to the even neighbour. The bits of `n` beyond
the sixty-fourth are kept as one sticky bit, which is all that rounding can see. -/
def ofScaled (n : Nat) (e : Int) : Float :=
  let size := n.log2 + 1
  let extra := size - 64
  let kept := n / twoPow extra
  let sticky := if n % twoPow extra = 0 then kept else kept / 2 * 2 + 1
  let e := e + extra
  if 0 ≤ e then Float.ofNat (sticky * twoPow e.toNat)
  else
    let d := (-e).toNat
    let half := d / 2
    Float.ofNat sticky / Float.ofNat (twoPow half) / Float.ofNat (twoPow (d - half))

/-- `√(x² + y²)` for finite numbers, from the exact sum of squares. -/
def sqrtSumSquares (x y : Float) : Float :=
  let a := Dyadic.ofFloat x
  let b := Dyadic.ofFloat y
  let e := min a.exponent b.exponent
  let m := a.mantissa * twoPow (a.exponent - e).toNat
  let n := b.mantissa * twoPow (b.exponent - e).toNat
  let sum := m * m + n * n
  if sum = 0 then 0.0
  else
    let shift : Nat := 128
    ofScaled (rootSticky 2 (sum * twoPow (2 * shift))) (e - (shift : Int))

/-- The cube root, rounded once. Zeros, infinities and `NaN` stay. -/
def cubeRoot (x : Float) : Float :=
  let d := Dyadic.ofFloat x
  if x == 0.0 || !x.isFinite then x
  else
    let odd := (d.exponent % 3).toNat
    let shift : Nat := 64
    let root := rootSticky 3 (d.mantissa * twoPow (odd + 3 * shift))
    copySign (ofScaled root ((d.exponent - odd) / 3 - (shift : Int))) x

end Number
end ScriptEngine
