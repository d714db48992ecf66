import ScriptEngine.Operation.Conversion

/-!
# Comparison of values

The comparisons that may run code: equality and order after conversion, and the test for an
instance of a constructor.

## Main definitions

* `Value.equalityStep`, `Value.looselyEquals`: equality after conversion.
* `Value.isLessThan`, `RelationalOperator.compare`: order after conversion.
* `Value.isInstanceOf`, `Value.ordinaryHasInstance`: instances along the prototype chain.
-/

namespace ScriptEngine

open Engine

variable {H : HostTypes}

/-! ### Equality -/

namespace Value

/-- Whether two values are of the same kind. -/
def sameKind : Value → Value → Bool
  | undefined, undefined => true
  | null, null => true
  | bool _, bool _ => true
  | number _, number _ => true
  | string _, string _ => true
  | symbol _, symbol _ => true
  | object _, object _ => true
  | _, _ => false

/-- Whether a primitive value can equal an object through the primitive value of the latter. -/
def comparesAsPrimitive : Value → Bool
  | number _ => true
  | string _ => true
  | symbol _ => true
  | _ => false

/-- A boolean as a number value. -/
def ofBool (b : Bool) : Value := number (if b then 1.0 else 0.0)

/-- One step of equality after conversion: the answer, or two values to be compared instead. Values
of one kind are compared as they are and a string with a number as a number. A boolean gives way to
its number, and then an object to its primitive value. -/
def equalityStep : Value × Value → Engine H (Round (Value × Value) Bool)
  | (null, undefined) => return .finish true
  | (undefined, null) => return .finish true
  | (number a, string s) => return .finish (a == Number.ofText s)
  | (string s, number b) => return .finish (Number.ofText s == b)
  | (x, y) => do
    if x.sameKind y then return .finish (x.strictEquals y)
    match x, y with
    | .bool b, y => return .again (ofBool b, y)
    | x, .bool b => return .again (x, ofBool b)
    | x, .object o =>
      if x.comparesAsPrimitive then return .again (x, ← (object o).toPrimitive .default)
      return .finish false
    | .object o, y =>
      if y.comparesAsPrimitive then return .again (← (object o).toPrimitive .default, y)
      return .finish false
    | _, _ => return .finish false

/-- Equality after conversion. -/
def looselyEquals (x y : Value) : Engine H Bool := loop equalityStep (x, y)

/-! ### Order -/

/-- Order of primitive values: strings by code units, all else as numbers. There is no answer where
`NaN` takes part. -/
def isLessThanPrimitive (x y : Value) : Engine H (Option Bool) := do
  match x, y with
  | .string s, .string t => return some (Text.compareUnits s t == .lt)
  | x, y =>
    let a ← x.toNumber
    let b ← y.toNumber
    if a.isNaN || b.isNaN then return none
    return some (a < b)

/-- Order after conversion; the flag says which side is converted first. -/
def isLessThan (x y : Value) (leftFirst : Bool) : Engine H (Option Bool) := do
  if leftFirst then
    let x ← x.toPrimitive .number
    let y ← y.toPrimitive .number
    x.isLessThanPrimitive y
  else
    let y ← y.toPrimitive .number
    let x ← x.toPrimitive .number
    x.isLessThanPrimitive y

end Value

/-- The operators of order. -/
inductive RelationalOperator where
  | less
  | greater
  | lessEqual
  | greaterEqual
deriving DecidableEq, Repr

/-- Compares two values; the left one is always converted first. -/
def RelationalOperator.compare (op : RelationalOperator) (x y : Value) : Engine H Bool := do
  match op with
  | less => return (← x.isLessThan y true) == some true
  | greater => return (← y.isLessThan x false) == some true
  | lessEqual => return (← y.isLessThan x false) == some false
  | greaterEqual => return (← x.isLessThan y true) == some false

/-! ### Instances -/

/-- Whether an object occurs on the prototype chain of another. -/
def ObjectId.isPrototypeOf (prototype o : ObjectId) : Engine H Bool :=
  loop (fun o => do
    match ← o.getPrototypeOf with
    | none => return .finish false
    | some p => return if p = prototype then .finish true else .again p) o

/-- Whether the prototype of a constructor occurs on the chain of a value. -/
def ObjectId.hasInstance (c : ObjectId) (v : Value) : Engine H Bool := do
  match v with
  | .object o =>
    match ← c.getNamed "prototype" with
    | .object prototype => prototype.isPrototypeOf o
    | _ => typeError "Function has non-object prototype in instanceof check"
  | _ => return false

/-- One step of the test for an instance: the answer, or the target of a bound function with which
the test starts again. -/
def ObjectId.instanceStep (c : ObjectId) (v : Value) : Engine H (Round ObjectId Bool) := do
  if !(← isCallable (.object c)) then return .finish false
  match ← c.boundTarget? with
  | some target => return .again target
  | none => return .finish (← c.hasInstance v)

/-- One step of the operator: the method of the right-hand side decides, if it has one. -/
def ObjectId.operatorStep (c : ObjectId) (v : Value) : Engine H (Round ObjectId Bool) := do
  match ← (Value.object c).getMethod? (.wellKnown .hasInstance) with
  | some method => return .finish (← method.call (.object c) [v]).toBoolean
  | none =>
    if !(← isCallable (.object c)) then
      typeError "Right-hand side of 'instanceof' is not callable"
    c.instanceStep v

/-- Whether a value is an instance of another, as the operator says. -/
def Value.isInstanceOf (v target : Value) : Engine H Bool := do
  match target with
  | .object c => loop (fun c => c.operatorStep v) c
  | _ => typeError "Right-hand side of 'instanceof' is not an object"

/-- Whether a value is an instance of a constructor, by the prototype chain alone; a bound function
hands the question to the operator on its target. -/
def Value.ordinaryHasInstance (constructor v : Value) : Engine H Bool := do
  match constructor with
  | .object c =>
    match ← c.instanceStep v with
    | .finish answer => return answer
    | .again target => (v.isInstanceOf (.object target))
  | _ => return false

end ScriptEngine
