import ScriptEngine.Builtin.Array.Access
import ScriptEngine.Operation.Iterator

/-!
# Visiting the elements of arrays

## Main definitions

* `ArrayFunction.visitPresent`: a callback on every element that is present.
* `ArrayFunction.mapWith`, `ArrayFunction.filterWith`, `ArrayFunction.reduceWith`, …: the methods.
* `newArrayIterator`, `ArrayFunction.takeTurn`, `ArrayFunction.iterate`: array iterators.
-/

namespace ScriptEngine

open Engine

variable {H : HostTypes} {σ : Type}

namespace ArrayFunction

/-- A function with the receiver with which it is called. -/
structure Callback where
  function : Value
  this : Value

/-- The function that a method gets as its first argument. -/
def requireCallback (args : List Value) (method : String) : Engine H Callback := do
  let function := argument args 0
  if !(← isCallable function) then
    typeError ("Array.prototype." ++ method ++ ": " ++ function.kindName ++ " is not a function")
  return { function, this := argument args 1 }

/-- Calls a function for an element. -/
def Callback.visit (c : Callback) (o : ObjectId) (i : Nat) (v : Value) : Engine H Value :=
  c.function.call c.this [v, .nat i, .object o]

/-- Calls a function for every element that is present among `count` indices from `i` on. What to do
with an element and the result may change a state, or stop the visit by giving none. -/
def visitPresent (o : ObjectId) (c : Callback)
    (use : σ → (i : Nat) → (v result : Value) → Engine H (Option σ)) :
    (i count : Nat) → σ → Engine H (Option σ)
  | _, 0, s => return some s
  | i, count + 1, s => do
    match ← o.element? i with
    | none => visitPresent o c use (i + 1) count s
    | some v =>
      let result ← c.visit o i v
      match ← use s i v result with
      | some s => visitPresent o c use (i + 1) count s
      | none => return none

/-- Calls a function for every element. -/
def forEachOf (this : Value) (args : List Value) : Engine H Value := do
  let (o, length) ← ObjectId.ofReceiver this
  let c ← requireCallback args "forEach"
  let _ ← visitPresent o c (fun () _ _ _ => return some ()) 0 length ()
  return .undefined

/-- The results of a function in a new array. -/
def mapWith (this : Value) (args : List Value) : Engine H Value := do
  let (o, length) ← ObjectId.ofReceiver this
  let c ← requireCallback args "map"
  let result ← o.arraySpeciesCreate length
  let _ ← visitPresent o c (fun () i _ mapped => do
    result.createElement i mapped
    return some ()) 0 length ()
  return .object result

/-- The elements for which a function is true in a new array. -/
def filterWith (this : Value) (args : List Value) : Engine H Value := do
  let (o, length) ← ObjectId.ofReceiver this
  let c ← requireCallback args "filter"
  let result ← o.arraySpeciesCreate 0
  let _ ← visitPresent o c (fun n _ v selected => do
    if selected.toBoolean then
      result.createElement n v
      return some (n + 1)
    return some n) 0 length 0
  return .object result

/-- Whether a function gives the wanted truth value for no element; it is not called any more once
it did. -/
def noneGives (wanted : Bool) (this : Value) (args : List Value) (method : String) :
    Engine H Bool := do
  let (o, length) ← ObjectId.ofReceiver this
  let c ← requireCallback args method
  let rest ← visitPresent o c
    (fun () _ _ result => return if result.toBoolean = wanted then none else some ()) 0 length ()
  return rest.isSome

/-- The first element for which a function is true, with its index; holes count as `undefined`. -/
def findIn (this : Value) (args : List Value) (method : String) :
    Engine H (Option (Nat × Value)) := do
  let (o, length) ← ObjectId.ofReceiver this
  let c ← requireCallback args method
  firstInRange (fun i => do
    let v ← o.get (.ofNat i)
    let result ← c.visit o i v
    return if result.toBoolean then some (i, v) else none) 0 length

/-- The first element that is present, with its index. -/
def firstPresent (o : ObjectId) (length : Nat) : Engine H (Option (Nat × Value)) :=
  firstInRange (fun i => return (← o.element? i).map fun v => (i, v)) 0 length

/-- Combines the elements that are present among `count` indices from `i` on. -/
def foldPresent (o : ObjectId) (function : Value) :
    (i count : Nat) → Value → Engine H Value
  | _, 0, acc => return acc
  | i, count + 1, acc => do
    match ← o.element? i with
    | some v =>
      foldPresent o function (i + 1) count
        (← function.call .undefined [acc, v, .nat i, .object o])
    | none => foldPresent o function (i + 1) count acc

/-- Combines all elements from a given value on, or from the first element on. -/
def reduceWith (this : Value) (args : List Value) : Engine H Value := do
  let (o, length) ← ObjectId.ofReceiver this
  let c ← requireCallback args "reduce"
  if 2 ≤ args.length then foldPresent o c.function 0 length (argument args 1)
  else
    match ← firstPresent o length with
    | some (i, v) => foldPresent o c.function (i + 1) (length - (i + 1)) v
    | none => typeError "Reduce of empty array with no initial value"

end ArrayFunction

/-! ### Iterators -/

/-- A new iterator over an array-like object. -/
def newArrayIterator (array : ObjectId) (kind : IterationKind) : Engine H ObjectId := do
  newObject (some (← intrinsic .arrayIteratorPrototype))
    (.arrayIterator { iterated := some array, nextIndex := 0, kind })

/-- The data of an array iterator. -/
def Value.arrayIterator (this : Value) : Engine H (ObjectId × ArrayIterator) := do
  match this with
  | .object o =>
    match ← getKind o with
    | .arrayIterator data => return (o, data)
    | _ => pure ()
  | _ => pure ()
  typeError "next method called on an incompatible receiver"

/-- Changes the data of an array iterator. -/
def ObjectId.modifyArrayIterator (o : ObjectId) (f : ArrayIterator → ArrayIterator) :
    Engine H Unit :=
  modifyKind o
    (fun
      | .arrayIterator data => .arrayIterator (f data)
      | kind => kind)
    fun kind => by
      cases kind with
      | arrayIterator data => exact .inr ⟨.arrayIterator data _, rfl, rfl⟩
      | _ => exact .inl rfl

namespace ArrayFunction

/-- What an array iterator delivers for an index. -/
def iteratorItem (array : ObjectId) (i : Nat) (kind : IterationKind) : Engine H Value := do
  match kind with
  | .keys => return .nat i
  | .values => array.get (.ofNat i)
  | .entries =>
    let v ← array.get (.ofNat i)
    return .object (← arrayOfList [.nat i, v])

/-- What a call of `next` is to deliver: an index of an array-like object. -/
structure IteratorTurn where
  array : ObjectId
  index : Nat
  kind : IterationKind
deriving DecidableEq

/-- Takes the turn of an array iterator, if its index is below the length. Once the end was found
the iterator lets go of the array. -/
def takeTurn (this : Value) : Engine H (Option IteratorTurn) := do
  let (o, data) ← this.arrayIterator
  match data.iterated with
  | none => return none
  | some array =>
    let length ← array.lengthOfArrayLike
    if length ≤ data.nextIndex then
      o.modifyArrayIterator fun d => { d with iterated := none }
      return none
    else
      o.modifyArrayIterator fun d => { d with nextIndex := data.nextIndex + 1 }
      return some { array, index := data.nextIndex, kind := data.kind }

/-- The next result of an array iterator. -/
def iterate (this : Value) : Engine H Value := do
  match ← takeTurn this with
  | some turn =>
    let v ← iteratorItem turn.array turn.index turn.kind
    return .object (← iteratorResult v false)
  | none => return .object (← iteratorResult .undefined true)

end ArrayFunction
end ScriptEngine
