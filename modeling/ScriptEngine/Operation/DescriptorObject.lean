import ScriptEngine.Operation.ArrayLike

/-!
# Descriptors as objects

The program sees and gives property descriptors as objects with up to six members.

## Main definitions

* `Value.toDescriptor`: the descriptor that an object describes.
* `Descriptor.toObject`: the object that describes a descriptor.
-/

namespace ScriptEngine

open Engine

variable {H : HostTypes}

/-- A member of an object, if it has it. -/
def ObjectId.member? (o : ObjectId) (name : String) : Engine H (Option Value) := do
  if ← o.hasProperty (.string name) then return some (← o.getNamed name)
  return none

/-- A member that has to be a function or `undefined`. -/
def ObjectId.accessorMember? (o : ObjectId) (name title : String) : Engine H (Option Value) := do
  let member? ← o.member? name
  match member? with
  | some f =>
    if !f.isUndefined && !(← isCallable f) then
      typeError (title ++ " must be a function: " ++ f.inspect)
  | none => pure ()
  return member?

/-- The descriptor that an object describes. -/
def Value.toDescriptor (v : Value) : Engine H Descriptor := do
  match v with
  | .object o =>
    let enumerable ← o.member? "enumerable"
    let configurable ← o.member? "configurable"
    let value ← o.member? "value"
    let writable ← o.member? "writable"
    let get ← o.accessorMember? "get" "Getter"
    let set ← o.accessorMember? "set" "Setter"
    let d : Descriptor :=
      { value
        writable := writable.map Value.toBoolean
        get
        set
        enumerable := enumerable.map Value.toBoolean
        configurable := configurable.map Value.toBoolean }
    if !d.isValid then
      typeError ("Invalid property descriptor. Cannot both specify accessors and a value or "
        ++ "writable attribute")
    return d
  | v => typeError ("Property description must be an object: " ++ v.inspect)

/-- The attributes of a descriptor that are present, with their names. -/
def Descriptor.members (d : Descriptor) : List (String × Value) :=
  [("value", d.value), ("writable", d.writable.map .bool), ("get", d.get), ("set", d.set),
   ("enumerable", d.enumerable.map .bool), ("configurable", d.configurable.map .bool)].filterMap
    fun (name, v?) => v?.map fun v => (name, v)

/-- The object that describes a descriptor. -/
def Descriptor.toObject (d : Descriptor) : Engine H ObjectId := do
  let o ← newPlain
  d.members.forM fun (name, v) => o.createDataPropertyOrThrow (.string name) v
  return o

/-- The object that describes a descriptor, `undefined` for none. -/
def Descriptor.toValue? : Option Descriptor → Engine H Value
  | some d => return .object (← d.toObject)
  | none => return .undefined

end ScriptEngine
