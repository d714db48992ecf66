import ScriptEngine.Json.Writer
import ScriptEngine.Number.Reader

/-!
# Reading JSON

A reader of JSON texts. Containers may be nested up to a limit. Which number a literal is, is up to
a function: the nearest double, or what one gets quickly from as many digits as fit into 64 bits.
Where an object names a member twice the last value counts, in the place of the first.

## Main definitions

* `Json.readString?`, `Json.readLiteral?`, `Json.readValue?`: the parts of the grammar.
* `Json.NumberLiteral.nearest?`, `Json.NumberLiteral.scaled?`: the number of a literal.
* `Json.parse?`: the value of a text.
* `Json.Library.reading`: the library of this reader.
-/

namespace ScriptEngine.Json

/-- The blanks between tokens. -/
def isSpace (c : Char) : Bool := c = ' ' || c = '\n' || c = '\t' || c = '\r'

/-- The text without leading blanks. -/
def skipSpace (cs : List Char) : List Char := cs.dropWhile isSpace

theorem skipSpace_skipSpace (cs : List Char) : skipSpace (skipSpace cs) = skipSpace cs := by
  induction cs with
  | nil => rfl
  | cons c cs ih =>
    by_cases hc : isSpace c
    · simpa [skipSpace, hc] using ih
    · simp [skipSpace, hc]

/-! ### Strings -/

/-- The value of four hexadecimal digits. -/
def readHex? : List Char → Option (Nat × List Char)
  | a :: b :: c :: d :: rest => do
    let a ← Number.digitValue? 16 a
    let b ← Number.digitValue? 16 b
    let c ← Number.digitValue? 16 c
    let d ← Number.digitValue? 16 d
    some (((a * 16 + b) * 16 + c) * 16 + d, rest)
  | _ => none

/-- The character of a code unit after its escape mark; a surrogate has to be the first half of a
pair that is spelled out. -/
def readPoint? (cs : List Char) : Option (Char × List Char) := do
  let (n, rest) ← readHex? cs
  if 0xDC00 ≤ n ∧ n ≤ 0xDFFF then none
  else if 0xD800 ≤ n ∧ n ≤ 0xDBFF then
    match rest with
    | '\\' :: 'u' :: rest => do
      let (m, rest) ← readHex? rest
      if 0xDC00 ≤ m ∧ m ≤ 0xDFFF then
        some (Char.ofNat (0x10000 + (n - 0xD800) * 0x400 + (m - 0xDC00)), rest)
      else none
    | _ => none
  else some (Char.ofNat n, rest)

/-- The character of an escape after the backslash. -/
def readEscape? : List Char → Option (Char × List Char)
  | '"' :: rest => some ('"', rest)
  | '\\' :: rest => some ('\\', rest)
  | '/' :: rest => some ('/', rest)
  | 'b' :: rest => some (Char.ofNat 8, rest)
  | 'f' :: rest => some (Char.ofNat 12, rest)
  | 'n' :: rest => some ('\n', rest)
  | 'r' :: rest => some ('\r', rest)
  | 't' :: rest => some ('\t', rest)
  | 'u' :: rest => readPoint? rest
  | _ => none

/-- The characters up to the closing quote, the last one first prepended to `acc`; a character takes
at least one step, so the length of the text is fuel enough. -/
def readChars? : (fuel : Nat) → (acc : List Char) → List Char → Option (String × List Char)
  | 0, _, _ => none
  | _ + 1, acc, '"' :: rest => some (String.ofList acc.reverse, rest)
  | fuel + 1, acc, '\\' :: rest => do
    let (c, rest) ← readEscape? rest
    readChars? fuel (c :: acc) rest
  | fuel + 1, acc, c :: rest => if c.toNat < 32 then none else readChars? fuel (c :: acc) rest
  | _ + 1, _, [] => none

/-- A string after its opening quote. -/
def readString? (cs : List Char) : Option (String × List Char) := readChars? (cs.length + 1) [] cs

/-! ### Numbers -/

/-- A number as it is written. -/
structure NumberLiteral where
  negative : Bool
  digits : Number.DecimalLiteral
  /-- Whether there is neither a point nor an exponent. -/
  isInteger : Bool
deriving DecidableEq, Repr

/-- The exponent after its letter. -/
def readExponent? (cs : List Char) : Option (Int × List Char) := Number.scanSignedDigits? cs

/-- The digits of a fraction after its point, at least one. -/
def readFraction? : List Char → Option (List Char × List Char)
  | '.' :: rest =>
    let digits := rest.takeWhile Char.isDigit
    if digits.isEmpty then none else some (digits, rest.dropWhile Char.isDigit)
  | rest => some ([], rest)

/-- The digits before the point: a zero alone, or digits that do not start with one. -/
def readWhole? (cs : List Char) : Option (List Char × List Char) :=
  let digits := cs.takeWhile Char.isDigit
  match digits with
  | [] => none
  | '0' :: _ :: _ => none
  | digits => some (digits, cs.dropWhile Char.isDigit)

/-- Whether a letter that starts an exponent comes next. -/
def startsExponent : List Char → Bool
  | c :: _ => c = 'e' || c = 'E'
  | [] => false

/-- A literal after its sign. -/
def readUnsigned? (negative : Bool) (cs : List Char) : Option (NumberLiteral × List Char) := do
  let (whole, rest) ← readWhole? cs
  let (fraction, rest) ← readFraction? rest
  if startsExponent rest then do
    let (exponent, rest) ← readExponent? (rest.drop 1)
    some (⟨negative, { whole, fraction, exponent }, false⟩, rest)
  else some (⟨negative, { whole, fraction, exponent := 0 }, fraction.isEmpty⟩, rest)

/-- A literal. -/
def readLiteral? : List Char → Option (NumberLiteral × List Char)
  | '-' :: rest => readUnsigned? true rest
  | cs => readUnsigned? false cs

/-- A number, given which number a literal is, if any. -/
def readNumber? (number? : NumberLiteral → Option JsonNumber) (cs : List Char) :
    Option (JsonNumber × List Char) := do
  let (l, rest) ← readLiteral? cs
  some (← number? l, rest)

namespace NumberLiteral

/-- The double nearest to a literal. -/
def nearest? (l : NumberLiteral) : Option JsonNumber :=
  some (.float (Number.applySign l.negative l.digits.value))

/-! Quick readers keep as many digits as fit into 64 bits, and scale by a power of ten in doubles.
-/

/-- Appends digits to a number as long as 64 bits hold it; how many were taken. -/
def absorb (n : Nat) : List Char → Nat × Nat
  | [] => (n, 0)
  | c :: cs =>
    let next := n * 10 + (c.toNat - 48)
    if next < Number.twoPow 64 then
      let (m, taken) := absorb next cs
      (m, taken + 1)
    else (n, 0)

/-- A power of ten. -/
def powerOfTen (n : Nat) : Float := Float.ofScientific 1 false n

/-- A significand scaled by a power of ten in doubles: one multiplication, or divisions by at most
`10 ^ 308` each. None beyond the range of doubles. -/
def scale? : (fuel : Nat) → Float → Int → Option Float
  | 0, x, _ => some x
  | fuel + 1, x, e =>
    if e.natAbs ≤ 308 then
      if 0 ≤ e then
        let y := x * powerOfTen e.natAbs
        if y.isInf then none else some y
      else some (x / powerOfTen e.natAbs)
    else if x == 0.0 then some x
    else if 0 ≤ e then none
    else scale? fuel (x / 1e308) (e + 308)

/-- The double of a significand and an exponent. Three divisions bring any significand to zero. -/
def floatOf? (negative : Bool) (significand : Nat) (exponent : Int) : Option JsonNumber := do
  let x ← scale? 4 (Float.ofNat significand) exponent
  some (.float (if negative then -x else x))

/-- The number of an integer literal; minus zero and what exceeds 64 bits are doubles. -/
def integerOf (negative : Bool) (n : Nat) : JsonNumber :=
  if !negative then .natural n
  else if n = 0 ∨ Number.twoPow 63 < n then .float (-Float.ofNat n)
  else .negative n

/-- The number that a quick reader makes of a literal, none beyond the range of doubles. -/
def scaled? (l : NumberLiteral) : Option JsonNumber :=
  let (n, taken) := absorb 0 l.digits.whole
  let skipped := l.digits.whole.length - taken
  if l.isInteger && skipped = 0 then some (integerOf l.negative n)
  else
    let (significand, used) := absorb n l.digits.fraction
    floatOf? l.negative significand ((skipped : Int) - (used : Int) + l.digits.exponent)

end NumberLiteral

/-! ### Values -/

/-- A word at the start of a text. -/
def readWord? (word : String) (value : Json) (cs : List Char) : Option (Json × List Char) :=
  if word.toList.isPrefixOf cs then some (value, cs.drop word.length) else none

/-- The items of an array from the start of an item on. -/
def readItems? (item : List Char → Option (Json × List Char)) :
    (fuel : Nat) → List Char → Option (List Json × List Char)
  | 0, _ => none
  | fuel + 1, cs => do
    let (j, rest) ← item cs
    match skipSpace rest with
    | ']' :: rest => some ([j], rest)
    | ',' :: rest => do
      let (js, rest) ← readItems? item fuel rest
      some (j :: js, rest)
    | _ => none

/-- The name of a member up to its colon. -/
def readName? (cs : List Char) : Option (String × List Char) := do
  match skipSpace cs with
  | '"' :: rest => do
    let (name, rest) ← readString? rest
    match skipSpace rest with
    | ':' :: rest => some (name, rest)
    | _ => none
  | _ => none

/-- The members of an object from the start of a member on, added to those before. -/
def readMembers? (item : List Char → Option (Json × List Char)) :
    (fuel : Nat) → (before : List (String × Json)) → List Char →
      Option (List (String × Json) × List Char)
  | 0, _, _ => none
  | fuel + 1, before, cs => do
    let (name, rest) ← readName? cs
    let (j, rest) ← item rest
    let members := OrderedMap.put name j before
    match skipSpace rest with
    | '}' :: rest => some (members, rest)
    | ',' :: rest => readMembers? item fuel members rest
    | _ => none

/-- A value, in which containers are nested at most `depth` deep. -/
def readValue? (number? : NumberLiteral → Option JsonNumber) :
    (depth : Nat) → List Char → Option (Json × List Char)
  | depth, cs =>
    match skipSpace cs with
    | 'n' :: rest => readWord? "null" .null ('n' :: rest)
    | 't' :: rest => readWord? "true" (.bool true) ('t' :: rest)
    | 'f' :: rest => readWord? "false" (.bool false) ('f' :: rest)
    | '"' :: rest => (readString? rest).map fun (s, rest) => (.string s, rest)
    | '[' :: inside =>
      match depth, skipSpace inside with
      | 0, _ => none
      | _ + 1, ']' :: rest => some (.array [], rest)
      | depth + 1, _ =>
        (readItems? (readValue? number? depth) (inside.length + 1) inside).map fun (js, rest) =>
          (.array js, rest)
    | '{' :: inside =>
      match depth, skipSpace inside with
      | 0, _ => none
      | _ + 1, '}' :: rest => some (.object [], rest)
      | depth + 1, _ =>
        (readMembers? (readValue? number? depth) (inside.length + 1) [] inside).map
          fun (members, rest) => (.object members, rest)
    | cs => (readNumber? number? cs).map fun (n, rest) => (.number n, rest)

/-- Blanks before a value are skipped. -/
theorem readValue?_skipSpace (number? : NumberLiteral → Option JsonNumber) (depth : Nat)
    (cs : List Char) : readValue? number? depth (skipSpace cs) = readValue? number? depth cs := by
  unfold readValue?
  rw [skipSpace_skipSpace]

/-- The value of a text in which containers are nested to some depth, none if it is not JSON. -/
def parseWithin? (number? : NumberLiteral → Option JsonNumber) (depth : Nat) (text : String) :
    Option Json := do
  let (j, rest) ← readValue? number? depth text.toList
  if (skipSpace rest).isEmpty then some j else none

/-- How deep containers may be nested. -/
def maxDepth : Nat := 127

/-- The value of a text, none if it is not JSON. -/
def parse? (text : String) : Option Json := parseWithin? NumberLiteral.scaled? maxDepth text

/-- The library that reads with given numbers. -/
def Library.reading (number? : NumberLiteral → Option JsonNumber) : Library where
  parse text :=
    match parseWithin? number? maxDepth text with
    | some j => .ok j
    | none => .error "not a JSON text"
  quote := Json.quote

end ScriptEngine.Json
