import ScriptEngine.Operation.Conversion

/-!
# Arrays and array-like objects

Making arrays, and reading objects that have a length and elements under indices.

## Main definitions

* `arrayCreate`, `arrayOfList`: new arrays.
* `ObjectId.lengthOfArrayLike`, `Value.listFromArrayLike`: the length and the elements.
* `Value.isArray`: an array, also behind proxies.
* `ObjectId.speciesConstructor`: the constructor for derived objects.
-/

namespace ScriptEngine

open Engine

variable {H : HostTypes}

/-- An array of a given length without elements. -/
def Object.emptyArray (prototype : ObjectId) (length : Nat) : Object H :=
  .ofKindWith (some prototype) .array lengthKey (.data (.nat length) true false false)

theorem Object.hasLength_emptyArray (prototype : ObjectId) {length : Nat}
    (h : length < Number.twoPow 32) :
    (Object.emptyArray prototype length : Object H).properties.HasLength length true := by
  refine ⟨?_, h, fun i hi => ?_⟩
  · simp [Object.emptyArray, Object.ofKindWith]
  · simp [Object.emptyArray, Object.ofKindWith, lengthKey, PropertyMap.get?_insert] at hi

theorem Object.InOrder.emptyArray (prototype : ObjectId) {length : Nat}
    (h : length < Number.twoPow 32) : (Object.emptyArray prototype length : Object H).InOrder :=
  fun _ => ⟨length, true, Object.hasLength_emptyArray prototype h⟩

/-- A new array of a given length without elements. The length goes straight to storage. -/
def arrayCreate (length : Nat) (prototype : Option ObjectId := none) : Engine H ObjectId := do
  if h : length < Number.twoPow 32 then
    let prototype ← match prototype with
      | some p => pure p
      | none => intrinsic .arrayPrototype
    allocate (.emptyArray prototype length) (.ofKindWith (some prototype) true rfl rfl (.inl rfl))
      (.emptyArray prototype h)
  else rangeError "Invalid array length"

/-- Creates elements under the indices from `i` on. -/
def ObjectId.createElements (array : ObjectId) : (i : Nat) → List Value → Engine H Unit
  | _, [] => pure ()
  | i, v :: vs => do
    array.createDataPropertyOrThrow (.ofNat i) v
    array.createElements (i + 1) vs

/-- A new array with the given elements. -/
def arrayOfList (elements : List Value) : Engine H ObjectId := do
  let array ← arrayCreate 0
  array.createElements 0 elements
  return array

/-- The length of an array-like object. -/
def ObjectId.lengthOfArrayLike (o : ObjectId) : Engine H Nat := do
  (← o.get lengthKey).toLength

/-- The elements of an array-like object under `count` indices from `i` on, each of which has to
pass a test. -/
def ObjectId.elementsFrom (o : ObjectId) (check : Value → Engine H Unit) :
    (i count : Nat) → Engine H (List Value)
  | _, 0 => return []
  | i, count + 1 => do
    let v ← o.get (.ofNat i)
    check v
    return v :: (← o.elementsFrom check (i + 1) count)

/-- The elements of an array-like object, each of which has to pass a test. -/
def Value.checkedListFromArrayLike (v : Value) (check : Value → Engine H Unit) :
    Engine H (List Value) := do
  match v with
  | .object o => o.elementsFrom check 0 (← o.lengthOfArrayLike)
  | _ => typeError "CreateListFromArrayLike called on non-object"

/-- The elements of an array-like object. -/
def Value.listFromArrayLike (v : Value) : Engine H (List Value) :=
  v.checkedListFromArrayLike fun _ => pure ()

/-- Refuses a value that is no property name. -/
def Value.requirePropertyName : Value → Engine H Unit
  | .string _ => pure ()
  | .symbol _ => pure ()
  | v => typeError (v.inspect ++ " is not a valid property name")

/-- The elements of an array-like object, all of them property names. -/
def Value.namesFromArrayLike (v : Value) : Engine H (List Value) :=
  v.checkedListFromArrayLike Value.requirePropertyName

/-- The target of a proxy. A revoked proxy has none. -/
def ProxyData.requireTarget (proxy : ProxyData) : Engine H ObjectId :=
  match proxy.target with
  | some target => pure target
  | none => typeError "Cannot perform operation on a proxy that has been revoked"

/-- The target of an object that is a proxy. -/
def ObjectId.proxyTarget? (o : ObjectId) : Engine H (Option ObjectId) := do
  match ← getKind o with
  | .proxy proxy => return some (← proxy.requireTarget)
  | _ => return none

/-- Whether an object is an array; a proxy is what its target is. -/
def ObjectId.isArray (o : ObjectId) : Engine H Bool :=
  loop (fun o => do
    match ← getKind o with
    | .array => return .finish true
    | .proxy proxy => return .again (← proxy.requireTarget)
    | _ => return .finish false) o

/-- Whether a value is an array; a proxy is what its target is. -/
def Value.isArray : Value → Engine H Bool
  | .object o => o.isArray
  | _ => return false

/-- The constructor with which an operation makes objects like `o`. -/
def ObjectId.speciesConstructor (o fallback : ObjectId) : Engine H ObjectId := do
  match ← o.getNamed "constructor" with
  | .undefined => return fallback
  | .object c =>
    let species ← c.get (.wellKnown .species)
    if species.isNullish then return fallback
    match species with
    | .object s => if ← isConstructor species then return s
    | _ => pure ()
    typeError "object.constructor[Symbol.species] is not a constructor"
  | _ => typeError "object.constructor is not an object"

end ScriptEngine
