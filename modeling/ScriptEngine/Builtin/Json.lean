import ScriptEngine.Builtin.Install
import ScriptEngine.Operation.Integrity

/-!
# `JSON`

Values from JSON texts, and JSON texts of values. A text goes through a reviver if one is given; a
value goes through its own `toJSON` method and a replacer.

## Main definitions

* `Json.toValue`: the value of a JSON tree.
* `Serializer`: how a value is written, with `Serializer.property`.
* `JsonFunction.run`, `JsonFunction.install`.
-/

namespace ScriptEngine

open Engine

variable {H : HostTypes}

/-! ### Reading -/

namespace Json

mutual

/-- The value of a JSON tree. -/
def toValue : Json → Engine H Value
  | null => return .null
  | bool b => return .bool b
  | number n => return .number n.toFloat
  | string s => return .string s
  | array items => do return .object (← arrayOfList (← toValues items))
  | object members => do
    let o ← newPlain
    defineMembers o members
    return .object o

/-- The values of the items of an array. -/
def toValues : List Json → Engine H (List Value)
  | [] => return []
  | j :: js => do
    let v ← toValue j
    return v :: (← toValues js)

/-- Creates the members of an object. -/
def defineMembers (o : ObjectId) : List (String × Json) → Engine H Unit
  | [] => pure ()
  | (name, j) :: rest => do
    let v ← toValue j
    o.createDataPropertyOrThrow (.ofString name) v
    defineMembers o rest

end

end Json

/-- The keys of the enumerable properties of an object. -/
def ObjectId.enumerableKeys (o : ObjectId) : Engine H (List PropertyKey) := do
  (← o.enumerableOwn .keys).mapM Value.toPropertyKey

/-- The keys that a reviver visits: the indices of an array, the enumerable keys of any other
object. -/
def ObjectId.revivedKeys (o : ObjectId) : Engine H (List PropertyKey) := do
  if ← o.isArray then return (List.range (← o.lengthOfArrayLike)).map .ofNat
  o.enumerableKeys

/-- Lets a reviver replace a property, its parts before the whole. A part revived as undefined is
removed. -/
def ObjectId.revive (reviver : Value) : (fuel : Nat) → ObjectId → PropertyKey → Engine H Value
  | 0, _, _ => exhaust
  | fuel + 1, holder, k => do
    let v ← holder.get k
    match v with
    | .object o =>
      (← o.revivedKeys).forM fun part => do
        let element ← ObjectId.revive reviver fuel o part
        if element.isUndefined then
          let _ ← o.delete part
        else
          let _ ← o.createDataProperty part element
    | _ => pure ()
    reviver.call (.object holder) [k.toValue, v]

/-- A new plain object that holds a value under the empty name. -/
def holderOf (v : Value) : Engine H ObjectId := do
  let holder ← newPlain
  holder.createDataPropertyOrThrow (.ofString "") v
  return holder

/-- The value of a JSON text. -/
def parseJson (text : String) (reviver : Value) : Engine H Value := do
  match H.json.parse text with
  | .error problem => fail (.syntaxError ("JSON.parse: " ++ problem))
  | .ok tree =>
    let v ← tree.toValue
    if ← isCallable reviver then
      ObjectId.revive reviver (← getFuel) (← holderOf v) (.ofString "")
    else return v

/-! ### Writing -/

/-- How values are written. -/
structure Serializer where
  /-- The function that replaces values before they are written. -/
  replacer : Option Value
  /-- The only properties of objects to write, if they are prescribed. -/
  properties : Option (List PropertyKey)
  /-- What one level is indented by; empty for compact text. -/
  gap : String
  /-- A string as JSON text. -/
  quote : String → String

namespace Serializer

/-- The parts of a container between brackets, where `indent` is the indentation outside. -/
def wrap (s : Serializer) (indent opening closing : String) (parts : List String) : String :=
  if parts.isEmpty then opening ++ closing
  else if s.gap.isEmpty then opening ++ String.intercalate "," parts ++ closing
  else
    let inner := indent ++ s.gap
    opening ++ "\n" ++ inner ++ String.intercalate (",\n" ++ inner) parts ++ "\n" ++ indent
      ++ closing

/-- The text of a member. -/
def member (s : Serializer) (k : PropertyKey) (text : String) : String :=
  s.quote k.text ++ (if s.gap.isEmpty then ":" else ": ") ++ text

/-- What a value that is to be written gives instead by its own `toJSON` method. -/
def ownReplacement (k : PropertyKey) (v : Value) : Engine H Value := do
  if !v.isObject then return v
  let method ← v.getProperty (.ofString "toJSON")
  if ← isCallable method then method.call v [k.toValue] else return v

/-- What the replacer gives instead of a value. -/
def replaced (s : Serializer) (holder : ObjectId) (k : PropertyKey) (v : Value) :
    Engine H Value :=
  match s.replacer with
  | some f => f.call (.object holder) [k.toValue, v]
  | none => pure v

/-- The primitive inside a number, string or boolean object. -/
def unwrapped (v : Value) : Engine H Value := do
  match v with
  | .object o =>
    match ← getKind o with
    | .number _ => return .number (← v.toNumber)
    | .string _ => return .string (← v.toText)
    | .boolean b => return .bool b
    | _ => return v
  | v => return v

/-- The text of a primitive value, none if it is not written. -/
def primitive? (s : Serializer) : Value → Option String
  | .null => some "null"
  | .bool b => some (if b then "true" else "false")
  | .string text => some (s.quote text)
  | .number n => some (if n.isFinite then Number.toText n else "null")
  | _ => none

/-- Refuses an object that is part of itself. -/
def requireAcyclic (stack : List ObjectId) (o : ObjectId) : Engine H Unit := do
  if stack.contains o then typeError "Converting circular structure to JSON"

/-- The keys of the members that are written. -/
def memberKeys (s : Serializer) (o : ObjectId) : Engine H (List PropertyKey) :=
  match s.properties with
  | some keys => pure keys
  | none => o.enumerableKeys

/-- The text of a property, none if it is not written. The stack holds the objects that contain the
holder, and `indent` is the indentation so far. -/
def property (s : Serializer) : (fuel : Nat) → (stack : List ObjectId) → (indent : String) →
    (holder : ObjectId) → PropertyKey → Engine H (Option String)
  | 0, _, _, _, _ => exhaust
  | fuel + 1, stack, indent, holder, k => do
    let v ← holder.get k
    let v ← ownReplacement k v
    let v ← s.replaced holder k v
    let v ← unwrapped v
    match v with
    | .object o =>
      if ← isCallable v then return none
      let part := s.property fuel (o :: stack) (indent ++ s.gap) o
      if ← o.isArray then
        requireAcyclic stack o
        let length ← o.lengthOfArrayLike
        let parts ← (List.range length).mapM fun i => return (← part (.ofNat i)).getD "null"
        return some (s.wrap indent "[" "]" parts)
      else
        requireAcyclic stack o
        let parts ← (← s.memberKeys o).mapM fun k => return (← part k).map (s.member k)
        return some (s.wrap indent "\x7b" "\x7d" (parts.filterMap id))
    | v => return s.primitive? v

/-- The number of a number object and the string of a string object. -/
def spaceOf (space : Value) : Engine H Value := do
  match space with
  | .object o =>
    match ← getKind o with
    | .number _ => return .number (← space.toNumber)
    | .string _ => return .string (← space.toText)
    | _ => return space
  | space => return space

/-- The indentation that an argument asks for: up to ten blanks, or the first ten units of a
text. -/
def gapOf (space : Value) : Engine H String := do
  match ← spaceOf space with
  | .number n =>
    let n := Number.integerOrInfinity n
    let count := if n ≤ 0.0 then 0 else Number.toNat (Number.atMost n 10.0)
    return String.ofList (List.replicate count ' ')
  | .string s => return Text.ofUnits ((Text.units s).take 10)
  | _ => return ""

/-- The name that an element of a list of properties stands for. -/
def listedName? (v : Value) : Engine H (Option String) := do
  match v with
  | .string s => return some s
  | .number _ => return some (← v.toText)
  | .object o =>
    match ← getKind o with
    | .string _ => return some (← v.toText)
    | .number _ => return some (← v.toText)
    | _ => return none
  | _ => return none

/-- The properties that an array lists, each once. -/
def listedProperties (array : ObjectId) : Engine H (List PropertyKey) := do
  let length ← array.lengthOfArrayLike
  let names ← (List.range length).mapM fun i => do listedName? (← array.get (.ofNat i))
  return (names.filterMap id).foldl
    (fun keys name =>
      let k := PropertyKey.ofString name
      if keys.contains k then keys else keys ++ [k]) []

/-- The serializer that the arguments ask for. -/
def ofArguments (replacer space : Value) : Engine H Serializer := do
  let plain : Serializer :=
    { replacer := none, properties := none, gap := ← gapOf space, quote := H.json.quote }
  match replacer with
  | .object o =>
    if ← isCallable replacer then return { plain with replacer := some replacer }
    if ← o.isArray then return { plain with properties := some (← listedProperties o) }
    return plain
  | _ => return plain

end Serializer

/-- The JSON text of a value, undefined if it has none. -/
def stringifyJson (v replacer space : Value) : Engine H Value := do
  let serializer ← Serializer.ofArguments replacer space
  let holder ← holderOf v
  match ← serializer.property (← getFuel) [] "" holder (.ofString "") with
  | some text => return .string text
  | none => return .undefined

/-! ### The functions -/

namespace JsonFunction

/-- What the functions do. -/
def run (f : JsonFunction) (args : List Value) : Engine H Value := do
  match f with
  | parse => parseJson (← (argument args 0).toText) (argument args 1)
  | stringify => stringifyJson (argument args 0) (argument args 1) (argument args 2)

/-- The functions. -/
def methods : List MethodEntry :=
  [.named "parse" (.json parse) 2, .named "stringify" (.json stringify) 3]

/-- Installs the object of the functions. -/
def install : Engine H Unit := do
  let o ← newPlain
  o.installMethods methods
  o.defineTag "JSON"
  setIntrinsic .json o

end JsonFunction
end ScriptEngine
