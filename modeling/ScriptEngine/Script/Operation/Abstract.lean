import ScriptEngine.Json.Writer
import ScriptEngine.Operation.Promise
import ScriptEngine.Script.Operand
import ScriptEngine.Script.Render

/-!
# Abstract operations in scripts

## Main definitions

* `renderKeyForm`: a property key with its form.
* `AbstractOperation.run`: what the operations do.
-/

namespace ScriptEngine.Script

open Engine

/-- A property key with its form. -/
def renderKeyForm : PropertyKey → Json
  | .index i => .object [("index", .nat i)]
  | .string s => .object [("string", .string (normalizeText s))]
  | .symbol s => .object [("symbol", renderSymbol s)]

/-- What the operations on a value alone do. -/
def AbstractOperation.runValue (op : AbstractOperation) (v : Value) : Op Value := do
  match op with
  | toBoolean => return .bool v.toBoolean
  | toNumber => return .number (← v.toNumber)
  | toText => return .string (← v.toText)
  | toObject => return .object (← v.toObject)
  | toPrimitive preferred => v.toPrimitive preferred
  | toIntegerOrInfinity => return .number (← v.toIntegerOrInfinity)
  | toLength => return .nat (← v.toLength)
  | toInt32 => return .number (Float.ofInt (← v.toInt32))
  | toUint32 => return .nat (← v.toUint32)
  | toPropertyKey => return .string (renderKeyForm (← v.toPropertyKey)).render
  | requireObjectCoercible =>
    v.requireObjectCoercible
    return v
  | listFrom namesOnly =>
    arrayValue (← if namesOnly then v.namesFromArrayLike else v.listFromArrayLike)
  | isArray => return .bool (← v.isArray)
  | tag => return .string (← v.tagText)
  | iterableToList => arrayValue (← v.iterableToList)
  | toDescriptor => Descriptor.toValue? (some (← v.toDescriptor))
  | _ => unknownExpression

/-- What the operations on an object do. -/
def AbstractOperation.runObject (op : AbstractOperation) (o : ObjectId) (operands : List Operand) :
    Op Value := do
  match op, operands with
  | ordinaryToPrimitive preferred, _ => o.ordinaryToPrimitive preferred
  | setIntegrity level, _ => return .bool (← o.setIntegrity level)
  | testIntegrity level, _ => return .bool (← o.testIntegrity level)
  | lengthOfArrayLike, _ => return .nat (← o.lengthOfArrayLike)
  | enumerable kind, _ => arrayValue (← o.enumerableOwn kind)
  | species, .object fallback :: _ => return .object (← o.speciesConstructor fallback)
  | isPrototypeOf, .object x :: _ => return .bool (← o.isPrototypeOf x)
  | copyData, .value source :: excluded =>
    o.copyDataProperties source (keysOf excluded)
    return .object o
  | hasOwnProperty, .key k :: _ => return .bool (← o.hasOwnProperty k)
  | deleteOrThrow, .key k :: _ =>
    o.deleteOrThrow k
    return .undefined
  | put throwing, .key k :: .value v :: _ =>
    o.put k v throwing
    return .undefined
  | createDataProperty, .key k :: .value v :: _ => return .bool (← o.createDataProperty k v)
  | createDataPropertyOrThrow, .key k :: .value v :: _ =>
    o.createDataPropertyOrThrow k v
    return .undefined
  | _, _ => unknownExpression

/-- What the operations on numbers and texts do. -/
def AbstractOperation.runNumber (op : AbstractOperation) (operands : List Operand) : Op Value :=
  match op, operands with
  | numberToText, .number n :: _ => pure (.string (Number.toText n))
  | numberToRadix, .number n :: .number radix :: _ =>
    pure (.string (Number.toRadixText n (Number.toNat radix)))
  | textToNumber, .text s :: _ => pure (.number (Number.ofText s))
  | parseInteger, .text s :: .number radix :: _ =>
    pure (.number (Number.parseInt s (Number.toInt32 radix)))
  | parseFloat, .text s :: _ => pure (.number (Number.parseFloat s))
  | _, _ => unknownExpression

/-- What a descriptor is. -/
def describeDescriptor (d : Descriptor) : Op Value := do
  let completed ← Descriptor.toValue? (some d.complete)
  arrayValue [.bool d.isData, .bool d.isAccessor, .bool d.isGeneric, .bool d.hasFields,
    .bool d.isValid, .bool d.isFullyPopulated, completed]

/-- What the operations on descriptors do. -/
def AbstractOperation.runDescriptor (op : AbstractOperation) (values : List Value) : Op Value := do
  match op with
  | isCompatible extensible wanted current =>
    let d := wanted.descriptor values
    let stored := current.map fun shape => (shape.descriptor (values.drop wanted.arity)).complete
    return .bool (d.isCompatible extensible stored)
  | .describeDescriptor shape => Script.describeDescriptor (shape.descriptor values)
  | _ => unknownExpression

/-- Whether an operation is about descriptors that a script spells out. -/
def AbstractOperation.isOnDescriptor : AbstractOperation → Bool
  | isCompatible .. => true
  | .describeDescriptor _ => true
  | _ => false

/-- What the operations do. -/
def AbstractOperation.run (op : AbstractOperation) (operands : List Operand) : Op Value := do
  if op.isOnDescriptor then op.runDescriptor (valuesOf operands)
  else
    match op, operands with
    | getProperty, .value v :: .key k :: _ => v.getProperty k
    | getMethod, .value v :: .key k :: _ => return (← v.getMethod? k).getD .undefined
    | getByValue, .value v :: .value key :: _ => v.getByValue key
    | op, .value v :: _ => op.runValue v
    | op, .object o :: rest => op.runObject o rest
    | op, operands => op.runNumber operands

end ScriptEngine.Script
