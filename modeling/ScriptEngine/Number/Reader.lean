import ScriptEngine.Number.Printer
import ScriptEngine.Text.Blank

/-!
# Text to number

A numeric text, once trimmed, is empty, a radix literal such as `0x1F`, or an optional sign before
`Infinity` or a decimal literal. A whole text is scanned for one literal; the longest numeric prefix
is looked for character by character, with the last end of a literal kept.

## Main definitions

* `Number.DecimalLiteral`, `Number.scanDecimal?`: a decimal literal at the start of a text.
* `Number.literalRest?`: what follows the longest decimal literal at the start of a text.
* `Number.ofText`: the value of a whole text, `NaN` if it is not numeric.
* `Number.parseFloat`, `Number.parseInt`: the value of the longest numeric prefix.
* `Number.canonicalNumericIndex?`: the number whose text a string is.
-/

namespace ScriptEngine.Number

/-- The value of a digit in a radix up to 36, letters of either case counting from ten. -/
def digitValue? (radix : Nat) (c : Char) : Option Nat :=
  let value? :=
    if c.isDigit then some (c.toNat - 48)
    else if 'a' ≤ c && c ≤ 'z' then some (c.toNat - 87)
    else if 'A' ≤ c && c ≤ 'Z' then some (c.toNat - 55)
    else none
  value?.bind fun v => if v < radix then some v else none

/-- The natural number that decimal digits spell. -/
def ofDigits (digits : List Char) : Nat :=
  digits.foldl (fun n c => n * 10 + (c.toNat - 48)) 0

/-! ### Decimal literals -/

/-- An unsigned decimal literal `whole.fraction e exponent`. -/
structure DecimalLiteral where
  whole : List Char
  fraction : List Char
  exponent : Int
deriving DecidableEq, Repr

/-- The double nearest to `m · 10 ^ e`. Beyond the range of doubles the answer is known without
computing the power. -/
def ofScientific (m : Nat) (e : Int) : Float :=
  if m = 0 then 0.0
  else
    let top := (Decimal.digitCount m : Int) + e
    if 310 < top then infinity
    else if top < -330 then 0.0
    else Float.ofScientific m (decide (e < 0)) e.natAbs

/-- The double nearest to the value of a literal. -/
def DecimalLiteral.value (l : DecimalLiteral) : Float :=
  ofScientific (ofDigits (l.whole ++ l.fraction)) (l.exponent - l.fraction.length)

/-- The point and the digits after it, if there is a point. -/
def scanFraction : List Char → List Char × List Char
  | '.' :: rest => (rest.takeWhile Char.isDigit, rest.dropWhile Char.isDigit)
  | rest => ([], rest)

/-- The exponent after its letter: an optional sign and at least one digit. -/
def scanSignedDigits? (cs : List Char) : Option (Int × List Char) :=
  let (negative, rest) :=
    match cs with
    | '-' :: rest => (true, rest)
    | '+' :: rest => (false, rest)
    | rest => (false, rest)
  let digits := rest.takeWhile Char.isDigit
  if digits.isEmpty then none
  else
    let n : Int := ofDigits digits
    some (if negative then -n else n, rest.dropWhile Char.isDigit)

/-- The exponent, zero if none is well formed. -/
def scanExponent (cs : List Char) : Int × List Char :=
  match cs with
  | c :: rest => if c = 'e' ∨ c = 'E' then (scanSignedDigits? rest).getD (0, cs) else (0, cs)
  | [] => (0, [])

/-- The longest decimal literal at the start of a text and what follows it. It has a digit before
or after the point. -/
def scanDecimal? (cs : List Char) : Option (DecimalLiteral × List Char) :=
  let whole := cs.takeWhile Char.isDigit
  let (fraction, rest) := scanFraction (cs.dropWhile Char.isDigit)
  if whole.isEmpty && fraction.isEmpty then none
  else
    let (exponent, rest) := scanExponent rest
    some ({ whole, fraction, exponent }, rest)

/-- Whether a text is a decimal literal from end to end. -/
def isDecimalLiteral (cs : List Char) : Bool :=
  match scanDecimal? cs with
  | some (_, rest) => rest.isEmpty
  | none => false

/-- What follows the longest decimal literal at the start of a text, if there is one. The text is
read up to a character that cannot go on; `best` is what followed the last digit that was read or,
at the start, nothing. A point at the end does not count. -/
def literalRest? (seenPoint seenDigit : Bool) (best : Option (List Char)) :
    List Char → Option (List Char)
  | [] => best
  | c :: rest =>
    if c.isDigit then literalRest? seenPoint true (some rest) rest
    else if c = '.' ∧ !seenPoint then literalRest? true seenDigit best rest
    else if (c = 'e' ∨ c = 'E') ∧ seenDigit then
      match scanSignedDigits? rest with
      | some (_, left) => some left
      | none => best
    else best

/-! ### Signs and radix digits -/

/-- An optional sign and what follows it. -/
def splitSign : List Char → Bool × List Char
  | '-' :: rest => (true, rest)
  | '+' :: rest => (false, rest)
  | rest => (false, rest)

/-- A number with the sign that was read. -/
def applySign (negative : Bool) (x : Float) : Float := if negative then -x else x

/-- One more digit in doubles. -/
def pushDigit (radix : Nat) (x : Float) (digit : Nat) : Float :=
  x * Float.ofNat radix + Float.ofNat digit

/-- The value of radix digits, accumulated in doubles from the left; `none` if there is no digit or
some character is none. -/
def ofRadixDigits? (radix : Nat) (cs : List Char) : Option Float :=
  if cs.isEmpty then none
  else (cs.mapM (digitValue? radix)).map fun digits => digits.foldl (pushDigit radix) 0.0

/-- The radix of a literal with a prefix, and its digits; there has to be something after the
prefix. -/
def splitRadixPrefix? : List Char → Option (Nat × List Char)
  | '0' :: c :: d :: rest =>
    if c = 'x' ∨ c = 'X' then some (16, d :: rest)
    else if c = 'o' ∨ c = 'O' then some (8, d :: rest)
    else if c = 'b' ∨ c = 'B' then some (2, d :: rest)
    else none
  | _ => none

/-! ### Reading -/

/-- The characters of the name of infinity. -/
def infinityName : List Char := "Infinity".toList

/-- The value of a trimmed text. -/
def ofTrimmed (cs : List Char) : Float :=
  if cs.isEmpty then 0.0
  else
    match splitRadixPrefix? cs with
    | some (radix, digits) => (ofRadixDigits? radix digits).getD nan
    | none =>
      let (negative, rest) := splitSign cs
      if rest = infinityName then applySign negative infinity
      else
        match scanDecimal? rest with
        | some (literal, []) => applySign negative literal.value
        | _ => nan

/-- The value of a text; blanks around it do not count and the empty text is zero. -/
def ofText (s : String) : Float := ofTrimmed (Text.trim s).toList

/-- The value of the longest numeric prefix after leading blanks, `NaN` if there is none. -/
def parseFloat (s : String) : Float :=
  let (negative, rest) := splitSign (Text.trim s).toList
  if infinityName.isPrefixOf rest then applySign negative infinity
  else
    match literalRest? false false none rest with
    | some left =>
      match scanDecimal? (rest.take (rest.length - left.length)) with
      | some (literal, []) => applySign negative literal.value
      | _ => nan
    | none => nan

/-- What follows a hexadecimal prefix. -/
def stripHexPrefix? : List Char → Option (List Char)
  | '0' :: c :: rest => if c = 'x' ∨ c = 'X' then some rest else none
  | _ => none

/-- The integer that the longest prefix of digits spells. Radix zero stands for ten; a hexadecimal
prefix is skipped where the radix is zero or sixteen and sets the latter. Decimal digits are read
as one literal, those of other radices are accumulated in doubles. -/
def parseInt (s : String) (radix : Int) : Float :=
  let (negative, rest) := splitSign (Text.trim s).toList
  if radix ≠ 0 ∧ ¬ (2 ≤ radix ∧ radix ≤ 36) then nan
  else
    let base := if radix = 0 then 10 else radix.toNat
    let (base, rest) :=
      if radix = 0 ∨ radix = 16 then
        match stripHexPrefix? rest with
        | some digits => (16, digits)
        | none => (base, rest)
      else (base, rest)
    let digits := rest.takeWhile fun c => (digitValue? base c).isSome
    if digits.isEmpty then nan
    else if base = 10 then applySign negative (ofScientific (ofDigits digits) 0)
    else applySign negative ((ofRadixDigits? base digits).getD nan)

/-- The number whose text a string is; the text `-0` stands for negative zero. -/
def canonicalNumericIndex? (s : String) : Option Float :=
  if s = "-0" then some negZero
  else
    let x := ofText s
    if toText x = s then some x else none

end ScriptEngine.Number
