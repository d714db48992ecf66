import ScriptEngine.Number.Reader
import ScriptEngine.Operation.Property

/-!
# Conversion of values

Objects are converted by their own methods, so a conversion may run code and fail; primitives are
converted by rules.

## Main definitions

* `Value.toPrimitive`, `ObjectId.ordinaryToPrimitive`: the primitive value of an object.
* `Value.toNumber`, `Value.toText`, `Value.toPropertyKey`: number, string and key of a value.
* `Value.toIntegerOrInfinity`, `Value.toLength`, `Value.toUint32`, `Value.toInt32`.
-/

namespace ScriptEngine

open Engine

variable {H : HostTypes}

/-- What a conversion to a primitive prefers. -/
inductive PreferredType where
  | default
  | number
  | string
deriving DecidableEq, Repr

/-- The name that a conversion method receives. -/
def PreferredType.hintName : PreferredType → String
  | default => "default"
  | number => "number"
  | string => "string"

/-- The first primitive that one of the named methods of an object returns. -/
def ObjectId.firstPrimitive (o : ObjectId) : List String → Engine H Value
  | [] => typeError "Cannot convert object to primitive value"
  | name :: names => do
    let method ← o.getNamed name
    if ← isCallable method then
      let result ← method.call (.object o) []
      if !result.isObject then return result
    o.firstPrimitive names

/-- The primitive value of an object by `toString` and `valueOf`; the former goes first where a
string is preferred. -/
def ObjectId.ordinaryToPrimitive (o : ObjectId) (preferred : PreferredType) : Engine H Value :=
  if preferred = .string then o.firstPrimitive ["toString", "valueOf"]
  else o.firstPrimitive ["valueOf", "toString"]

namespace Value

/-- The primitive value of a value. -/
def toPrimitive (v : Value) (preferred : PreferredType) : Engine H Value := do
  match v with
  | .object o =>
    match ← v.getMethod? (.wellKnown .toPrimitive) with
    | some exotic =>
      let result ← exotic.call v [.string preferred.hintName]
      if result.isObject then typeError "Cannot convert object to primitive value"
      return result
    | none => o.ordinaryToPrimitive preferred
  | v => return v

/-- The number of a primitive value. -/
def primitiveToNumber : Value → Engine H Float
  | undefined => return Number.nan
  | null => return 0.0
  | bool b => return if b then 1.0 else 0.0
  | number n => return n
  | string s => return Number.ofText s
  | symbol _ => typeError "Cannot convert a Symbol value to a number"
  | object _ => typeError "Cannot convert object to primitive value"

/-- The number of a value. -/
def toNumber (v : Value) : Engine H Float := do
  if v.isObject then (← v.toPrimitive .number).primitiveToNumber else v.primitiveToNumber

/-- The string of a primitive value. -/
def primitiveToText : Value → Engine H String
  | undefined => return "undefined"
  | null => return "null"
  | bool b => return if b then "true" else "false"
  | number n => return Number.toText n
  | string s => return s
  | symbol _ => typeError "Cannot convert a Symbol value to a string"
  | object _ => typeError "Cannot convert object to primitive value"

/-- The string of a value. -/
def toText (v : Value) : Engine H String := do
  if v.isObject then (← v.toPrimitive .string).primitiveToText else v.primitiveToText

/-- The property key of a value. -/
def toPropertyKey (v : Value) : Engine H PropertyKey := do
  match v with
  | .string s => return .ofString s
  | .symbol s => return .symbol s
  | .number n => return .ofNumber n
  | v =>
    match ← v.toPrimitive .string with
    | .symbol s => return .symbol s
    | primitive => return .ofString (← primitive.toText)

/-- The integer part of a value. -/
def toIntegerOrInfinity (v : Value) : Engine H Float :=
  return Number.integerOrInfinity (← v.toNumber)

/-- A value as the length of a list: an integer from zero to the largest safe one. -/
def toLength (v : Value) : Engine H Nat := do
  let length ← v.toIntegerOrInfinity
  if length ≤ 0.0 then return 0
  return Number.toNat (Number.atMost length (Float.ofNat Number.maxSafe))

/-- A value modulo `2 ^ 32`. -/
def toUint32 (v : Value) : Engine H Nat := return Number.toUint32 (← v.toNumber)

/-- A value modulo `2 ^ 32` in two's complement. -/
def toInt32 (v : Value) : Engine H Int := return Number.toInt32 (← v.toNumber)

/-- The property of a value under a key that is still to be converted. -/
def getByValue (v key : Value) : Engine H Value := do v.getProperty (← key.toPropertyKey)

end Value
end ScriptEngine
