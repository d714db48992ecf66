import ScriptEngine.Number.Printer
import ScriptEngine.Symbol

/-!
# Values

The seven kinds of values of the language. Objects are handles into the heap of a realm; every
other value is complete by itself.

## Main definitions

* `ObjectId`: a handle of an object.
* `Value`: a value of the language.
* `Value.strictEquals`, `Value.sameValue`, `Value.sameValueZero`: the three equalities that run no
  code.
* `Value.inspect`: the text of a value in error messages.
-/

namespace ScriptEngine

/-- A handle of an object: its place in the heap. -/
structure ObjectId where
  index : Nat
deriving DecidableEq, Repr

/-- The text of a handle. -/
def ObjectId.text (o : ObjectId) : String := "#" ++ Nat.repr o.index

/-- A value of the language. -/
inductive Value where
  | undefined
  | null
  | bool (b : Bool)
  | number (n : Float)
  | string (s : String)
  | symbol (s : Symbol)
  | object (o : ObjectId)
deriving DecidableEq

namespace Value

instance : Inhabited Value := ⟨undefined⟩

/-- Whether a value is `null` or `undefined`. -/
def isNullish : Value → Bool
  | undefined => true
  | null => true
  | _ => false

/-- Whether a value is `undefined`. -/
def isUndefined : Value → Bool
  | undefined => true
  | _ => false

/-- Whether a value is an object. -/
def isObject : Value → Bool
  | object _ => true
  | _ => false

/-- The handle of an object value. -/
def object? : Value → Option ObjectId
  | object o => some o
  | _ => none

/-- An object, or `null` for none. -/
def ofObject? : Option ObjectId → Value
  | some o => object o
  | none => null

/-- A number value from a natural number. -/
def nat (n : Nat) : Value := number (Float.ofNat n)

/-- Truth of a value: everything but `undefined`, `null`, `false`, the zeros, `NaN` and the empty
string. -/
def toBoolean : Value → Bool
  | undefined => false
  | null => false
  | bool b => b
  | number n => !(n == 0.0) && !n.isNaN
  | string s => !s.isEmpty
  | symbol _ => true
  | object _ => true

/-- The name of the kind of a value. -/
def kindName : Value → String
  | undefined => "undefined"
  | null => "null"
  | bool _ => "boolean"
  | number _ => "number"
  | string _ => "string"
  | symbol _ => "symbol"
  | object _ => "object"

/-- Equality without conversion: numbers compare as numbers, so `NaN` differs from itself and the
two zeros are equal. -/
def strictEquals : Value → Value → Bool
  | number a, number b => a == b
  | a, b => decide (a = b)

/-- Indistinguishability: `NaN` is the same as itself and the two zeros differ. -/
def sameValue (a b : Value) : Bool := decide (a = b)

/-- Indistinguishability up to the sign of zero. -/
def sameValueZero : Value → Value → Bool
  | number a, number b => (a.isNaN && b.isNaN) || a == b
  | a, b => decide (a = b)

/-- The text of a value in error messages; strings are shown between quotes and unescaped. -/
def inspect : Value → String
  | undefined => "undefined"
  | null => "null"
  | bool b => if b then "true" else "false"
  | number n => Number.toText n
  | string s => "\"" ++ s ++ "\""
  | symbol s => s.text
  | object o => "[object " ++ o.text ++ "]"

end Value
end ScriptEngine
