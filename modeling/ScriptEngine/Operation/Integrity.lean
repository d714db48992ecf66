import ScriptEngine.Operation.ArrayLike

/-!
# Whole objects

Operations that go through all own properties of an object.

## Main definitions

* `ObjectId.setIntegrity`, `ObjectId.testIntegrity`: sealing and freezing.
* `ObjectId.enumerableOwn`: the enumerable properties as keys, values or entries.
* `ObjectId.copyDataProperties`: the enumerable properties of one object copied to another.
* `Value.tagText`: the text `[object Tag]`.
-/

namespace ScriptEngine

open Engine

variable {H : HostTypes}

/-- How fixed an object is. -/
inductive IntegrityLevel where
  /-- No property can be added or removed. -/
  | sealed
  /-- Besides, no value can be changed. -/
  | frozen
deriving DecidableEq, Repr

/-- What has to be asked of a property so that it meets a level. -/
def IntegrityLevel.request (level : IntegrityLevel) (current : Descriptor) : Descriptor :=
  if level = .frozen && !current.isAccessor then
    { configurable := some false, writable := some false }
  else { configurable := some false }

/-- Whether a property meets a level. -/
def IntegrityLevel.holds (level : IntegrityLevel) (current : Descriptor) : Bool :=
  !current.isConfigurable && !(level == .frozen && current.isData && current.isWritable)

/-- Raises a property to a level. -/
def ObjectId.fixProperty (o : ObjectId) (level : IntegrityLevel) (k : PropertyKey) :
    Engine H Unit := do
  match level with
  | .sealed => o.defineOrThrow k { configurable := some false }
  | .frozen =>
    match ← o.getOwnProperty k with
    | some current => o.defineOrThrow k (level.request current)
    | none => pure ()

/-- Raises an object to a level; false if it stays extensible. -/
def ObjectId.setIntegrity (o : ObjectId) (level : IntegrityLevel) : Engine H Bool := do
  if !(← o.preventExtensions) then return false
  (← o.ownKeys).forM (o.fixProperty level)
  return true

/-- Whether every property of a list that exists meets a level. -/
def ObjectId.allHold (o : ObjectId) (level : IntegrityLevel) : List PropertyKey → Engine H Bool
  | [] => return true
  | k :: ks => do
    match ← o.getOwnProperty k with
    | some current => if level.holds current then o.allHold level ks else return false
    | none => o.allHold level ks

/-- Whether an object meets a level. -/
def ObjectId.testIntegrity (o : ObjectId) (level : IntegrityLevel) : Engine H Bool := do
  if ← o.isExtensible then return false
  o.allHold level (← o.ownKeys)

/-- What an enumeration of properties delivers for a key. -/
def ObjectId.enumerationItem (o : ObjectId) (kind : IterationKind) (k : PropertyKey) :
    Engine H Value := do
  match kind with
  | .keys => return k.toValue
  | .values => o.get k
  | .entries =>
    let v ← o.get k
    return .object (← arrayOfList [k.toValue, v])

/-- The enumerable own properties with string keys. -/
def ObjectId.enumerableOwn (o : ObjectId) (kind : IterationKind) : Engine H (List Value) := do
  let items ← (← o.ownKeys).mapM fun k => do
    if k.isSymbol then return none
    match ← o.getOwnProperty k with
    | some d => if d.isEnumerable then return some (← o.enumerationItem kind k) else return none
    | none => return none
  return items.filterMap id

/-- Copies the enumerable own properties of a source, some keys excepted. -/
def ObjectId.copyDataProperties (target : ObjectId) (source : Value)
    (excluded : List PropertyKey) : Engine H Unit := do
  if source.isNullish then return
  let origin ← source.toObject
  (← origin.ownKeys).forM fun k => do
    if excluded.contains k then return
    match ← origin.getOwnProperty k with
    | some d => if d.isEnumerable then target.createDataPropertyOrThrow k (← origin.get k)
    | none => pure ()

/-- The tag of an object without a tag of its own. -/
def ObjectId.builtinTag (o : ObjectId) (v : Value) : Engine H String := do
  if ← o.isArray then return "Array"
  let kind ← getKind o
  if kind.isProxy && (← isCallable v) then return "Function"
  return kind.tag

/-- The text `[object Tag]` of a value. -/
def Value.tagText (v : Value) : Engine H String := do
  match v with
  | .undefined => return "[object Undefined]"
  | .null => return "[object Null]"
  | v =>
    let o ← v.toObject
    let builtin ← o.builtinTag v
    let tag ← o.get (.wellKnown .toStringTag)
    match tag with
    | .string s => return "[object " ++ s ++ "]"
    | _ => return "[object " ++ builtin ++ "]"

end ScriptEngine
