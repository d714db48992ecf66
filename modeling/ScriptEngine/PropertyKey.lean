import ScriptEngine.Value

/-!
# Property keys

A property is named by an array index, by another string or by a symbol. A string that spells an
array index and the index itself name one property: the constructors below choose the index form
for it.

## Main definitions

* `ArrayIndex`: a natural number that can be an array index.
* `PropertyKey`: the three forms of a key.
* `PropertyKey.parseIndex?`: the array index that a string spells.
* `PropertyKey.ofString`, `PropertyKey.ofNat`, `PropertyKey.ofNumber`: the key of a string or
  number.
-/

namespace ScriptEngine

/-- The largest array index. -/
def PropertyKey.maxIndex : Nat := Number.twoPow 32 - 2

/-- An array index: a natural number of 32 bits other than the largest one, so that the length of
an array, which is above all its indices, has 32 bits as well. -/
abbrev ArrayIndex : Type := Fin (PropertyKey.maxIndex + 1)

/-- The name of a property. -/
inductive PropertyKey where
  | string (s : String)
  | index (i : ArrayIndex)
  | symbol (s : Symbol)
deriving DecidableEq, Repr

namespace PropertyKey

/-- The array index that decimal digits spell: no leading zero, no sign, at most `maxIndex`. -/
def parseIndex? (s : String) : Option Nat :=
  let cs := s.toList
  if cs.isEmpty || !cs.all Char.isDigit || (cs.head? == some '0' && cs.length ≠ 1) then none
  else
    let n := cs.foldl (fun n c => n * 10 + (c.toNat - 48)) 0
    if n ≤ maxIndex then some n else none

/-- The key of a natural number. -/
def ofNat (n : Nat) : PropertyKey :=
  if h : n ≤ maxIndex then index ⟨n, Nat.lt_succ_of_le h⟩ else string (Nat.repr n)

/-- The key of a string. -/
def ofString (s : String) : PropertyKey :=
  match parseIndex? s with
  | some i => ofNat i
  | none => string s

/-- The key of a number: that of its text. -/
def ofNumber (x : Float) : PropertyKey :=
  if 0.0 ≤ x && x ≤ 4294967294.0 && Number.isIntegral x then ofNat (Number.toNat x)
  else string (Number.toText x)

/-- The key of a well-known symbol. -/
def wellKnown (w : WellKnownSymbol) : PropertyKey := symbol w.symbol

/-- Whether a key is a symbol. -/
def isSymbol : PropertyKey → Bool
  | symbol _ => true
  | _ => false

/-- The index of an index key. -/
def index? : PropertyKey → Option Nat
  | index i => some i.val
  | _ => none

/-- Whether a key is the given name in string form. -/
def isName (k : PropertyKey) (name : String) : Bool :=
  match k with
  | string s => s = name
  | _ => false

/-- The text of a key: the name, the decimal index, or the description of the symbol. -/
def text : PropertyKey → String
  | string s => s
  | index i => Nat.repr i.val
  | symbol s => s.text

/-- The value that names the property. -/
def toValue : PropertyKey → Value
  | string s => .string s
  | index i => .string (Nat.repr i.val)
  | symbol s => .symbol s

end PropertyKey

/-- The key under which arrays and array-like objects keep their length. -/
def lengthKey : PropertyKey := .string "length"

end ScriptEngine
