import ScriptEngine.OrderedMap

/-!
# JSON values

## Main definitions

* `JsonNumber`: a natural number or negative integer of 64 bits, or a double.
* `Json`: a JSON value; the members of an object are in order and their names are distinct.
* `Json.Library`: a library that reads JSON texts and quotes strings.
-/

namespace ScriptEngine

/-- A number of a JSON text. -/
inductive JsonNumber where
  /-- An integer from zero to `2 ^ 64 - 1`. -/
  | natural (n : Nat)
  /-- The negative integer `-n` down to `-2 ^ 63`. -/
  | negative (n : Nat)
  | float (x : Float)
deriving DecidableEq

/-- The nearest double. -/
def JsonNumber.toFloat : JsonNumber → Float
  | natural n => Float.ofNat n
  | negative n => -Float.ofNat n
  | float x => x

/-- A JSON value. -/
inductive Json where
  | null
  | bool (b : Bool)
  | number (n : JsonNumber)
  | string (s : String)
  | array (items : List Json)
  | object (members : List (String × Json))

namespace Json

instance : Inhabited Json := ⟨null⟩

/-- A natural number. -/
def nat (n : Nat) : Json := number (.natural n)

/-- An integer. -/
def int (n : Int) : Json :=
  if 0 ≤ n then number (.natural n.toNat) else number (.negative n.natAbs)

/-- The text of a string. -/
def string? : Json → Option String
  | string s => some s
  | _ => none

/-- The value of a boolean. -/
def bool? : Json → Option Bool
  | bool b => some b
  | _ => none

/-- The items of an array. -/
def items? : Json → Option (List Json)
  | array items => some items
  | _ => none

/-- The value of a number that is a natural number. -/
def nat? : Json → Option Nat
  | number (.natural n) => some n
  | _ => none

/-- The member of an object. -/
def member? (j : Json) (name : String) : Option Json :=
  match j with
  | object members => OrderedMap.lookup name members
  | _ => none

/-- A library that reads JSON texts and quotes strings. -/
structure Library where
  /-- The value of a text, or what is wrong with the text. -/
  parse : String → Except String Json
  /-- A string as JSON text. -/
  quote : String → String

end Json
end ScriptEngine
