import ScriptEngine.Number.Exact

/-!
# Shortest decimal digits

A positive double stands for an interval of reals: those that round to it. Its shortest digits are
the fewest significant digits that some decimal inside the interval has, and among the decimals
with that many digits the one nearest to the double, a tie going up.

## Main definitions

* `Decimal`: a positive decimal as an integer of significant digits and the exponent of the first.
* `RoundingInterval.ofFloat`: the reals that round to a positive double.
* `Decimal.shortest`: the shortest digits of a positive double.
* `Decimal.rounded`: the decimal with a given last place, a half going to the even digit.
-/

namespace ScriptEngine

open Number

/-- The decimal `0.d₁d₂… · 10 ^ (exponent + 1)`, where `d₁d₂…` are the digits of `digits`. -/
structure Decimal where
  digits : Nat
  exponent : Int
deriving DecidableEq, Repr

/-- The reals that round to a positive double, over the common denominator `den`: those between
`low / den` and `high / den`, the ends included if `closed`. -/
structure RoundingInterval where
  low : Nat
  value : Nat
  high : Nat
  den : Nat
  closed : Bool

namespace RoundingInterval

/-- The interval of a positive finite double. Its ends lie half way to the neighbours; the lower
neighbour of a power of two is twice as near. They belong to the interval if the mantissa is even,
because a tie is rounded to the even mantissa. -/
def ofFloat (x : Float) : RoundingInterval :=
  let d := Dyadic.ofFloat x
  let down := if d.mantissa = twoPow 52 ∧ -1074 < d.exponent then 1 else 2
  let e := d.exponent - 2
  let scale := if 0 ≤ e then twoPow e.toNat else 1
  { low := (4 * d.mantissa - down) * scale
    value := 4 * d.mantissa * scale
    high := (4 * d.mantissa + 2) * scale
    den := if 0 ≤ e then 1 else twoPow (-e).toNat
    closed := d.mantissa % 2 == 0 }

/-- Whether `n / den` lies in the interval, for a numerator over the same denominator. -/
def contains (i : RoundingInterval) (n : Nat) : Bool :=
  (i.low < n && n < i.high) || (i.closed && (n == i.low || n == i.high))

/-- The interval with every point multiplied by `10 ^ p`. -/
def scale (i : RoundingInterval) (p : Int) : RoundingInterval :=
  if 0 ≤ p then
    { i with
      low := i.low * tenPow p.toNat
      value := i.value * tenPow p.toNat
      high := i.high * tenPow p.toNat }
  else { i with den := i.den * tenPow (-p).toNat }

end RoundingInterval

namespace Decimal

/-- The number of decimal digits. -/
def digitCount (n : Nat) : Nat := (Nat.toDigits 10 n).length

/-- The exponent of the first digit of `num / den`: the largest power of ten that is not above
it. -/
def leadingExponent (num den : Nat) : Int :=
  let e : Int := (digitCount num : Int) - digitCount den
  if 0 ≤ e then
    if den * tenPow e.toNat ≤ num then e else e - 1
  else
    if den ≤ num * tenPow (-e).toNat then e else e - 1

/-- A number without its trailing zeros; the fuel bounds their count. -/
def stripZeros : Nat → Nat → Nat
  | 0, n => n
  | fuel + 1, n => if n % 10 = 0 ∧ n ≠ 0 then stripZeros fuel (n / 10) else n

/-- The decimal `n · 10 ^ (-p)`, its trailing zeros dropped. -/
def ofScaled (n : Nat) (p : Int) : Decimal :=
  { digits := stripZeros (digitCount n) n
    exponent := (digitCount n : Int) - 1 - p }

/-- The nearer of the two multiples of `10 ^ (-p)` around the value that lie in the interval, the
upper one on a tie. -/
def onGrid? (i : RoundingInterval) (p : Int) : Option Decimal :=
  let s := i.scale p
  let below := s.value / s.den
  let above := below + 1
  match s.contains (below * s.den), s.contains (above * s.den) with
  | true, true =>
    if s.value - below * s.den < above * s.den - s.value then some (ofScaled below p)
    else some (ofScaled above p)
  | true, false => some (ofScaled below p)
  | false, true => some (ofScaled above p)
  | false, false => none

/-- The first decimal grid, from `k` significant digits upwards, with a point in the interval. -/
def search (i : RoundingInterval) (leading : Int) : Nat → Nat → Decimal
  | 0, k => ofScaled ((i.scale (k - leading)).value / (i.scale (k - leading)).den) (k - leading)
  | fuel + 1, k =>
    match onGrid? i ((k : Int) - leading) with
    | some d => d
    | none => search i leading fuel (k + 1)

/-- The shortest digits of a positive finite double; seventeen always suffice. -/
def shortest (x : Float) : Decimal :=
  let i := RoundingInterval.ofFloat x
  search i (leadingExponent i.value i.den) 17 0

/-- A quotient rounded to the nearest integer, a half going to the even one. -/
def divRound (num den : Nat) : Nat :=
  let q := num / den
  let r := num % den
  if 2 * r < den then q
  else if den < 2 * r then q + 1
  else if q % 2 = 0 then q else q + 1

/-- The multiple of `10 ^ (-places)` nearest to a non-negative finite double, as a multiple. -/
def rounded (x : Float) (places : Int) : Nat :=
  let (num, den) := (Dyadic.ofFloat x).toFraction
  if 0 ≤ places then divRound (num * tenPow places.toNat) den
  else divRound num (den * tenPow (-places).toNat)

end Decimal
end ScriptEngine
