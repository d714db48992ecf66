import ScriptEngine.Script.Host

/-!
# The view of a script on values

How values, objects and failures appear in the answer of a script. Looking at an object runs no
code. Objects are numbered in the order in which they appear, intrinsic objects have names, and
handles in texts are blotted out, so that an answer does not depend on places in the heap.

## Main definitions

* `normalizeText`: a text without handles.
* `renderPrimitive`, `renderKey`: values that are complete by themselves, and keys.
* `renderShallow`, `renderDeep`: a value with the kind of an object, or with all it holds.
-/

namespace ScriptEngine.Script

open Engine

/-! ### Texts -/

/-- A text in which the digits of a handle are replaced by a letter. -/
def blotHandles : (fuel : Nat) → List Char → List Char
  | fuel + 1, '#' :: rest =>
    if rest.head?.any Char.isDigit then '#' :: 'N' :: blotHandles fuel (rest.dropWhile Char.isDigit)
    else '#' :: blotHandles fuel rest
  | fuel + 1, c :: rest => c :: blotHandles fuel rest
  | _, [] => []
  | 0, _ => []

/-- The mark after which the reason for refusing a JSON text stands. -/
def reasonMark : List Char := "JSON.parse: ".toList

/-- A text in which the reason for refusing a JSON text is replaced by a star. -/
def blotReason : List Char → List Char
  | [] => []
  | c :: rest =>
    if reasonMark.isPrefixOf (c :: rest) then reasonMark ++ ['*'] else c :: blotReason rest

/-- A text without handles and without reasons for refusing a JSON text. -/
def normalizeText (s : String) : String :=
  String.ofList (blotReason (blotHandles (s.length + 1) s.toList))

/-! ### Primitive values and keys -/

/-- A hexadecimal number of sixteen digits. -/
def hex64 (n : UInt64) : String :=
  let digits := Nat.toDigits 16 n.toNat
  String.ofList (List.replicate (16 - digits.length) '0' ++ digits)

/-- A number: an integer if it is a safe one, and else its name or its bits. -/
def renderNumber (n : Float) : Json :=
  let wrapped (text : String) : Json := .object [("f", .string text)]
  if n.isNaN then wrapped "NaN"
  else if n == Number.infinity then wrapped "Infinity"
  else if n == -Number.infinity then wrapped "-Infinity"
  else if n == 0.0 then if Number.signBit n then wrapped "-0" else .nat 0
  else if Number.isIntegral n && n.abs ≤ Float.ofNat Number.maxSafe then
    .int (if n < 0.0 then -(Number.toNat n.abs : Int) else (Number.toNat n : Int))
  else wrapped (hex64 n.toBits)

/-- A symbol. -/
def renderSymbol (s : Symbol) : Json :=
  .object [("sym", .string (normalizeText s.text)), ("id", .nat s.id)]

/-- A value that is no object. -/
def renderPrimitive : Value → Json
  | .undefined => .object [("u", .nat 1)]
  | .null => .null
  | .bool b => .bool b
  | .number n => renderNumber n
  | .string s => .string (normalizeText s)
  | .symbol s => renderSymbol s
  | .object _ => .null

/-- The key of a property. -/
def renderKey : PropertyKey → Json
  | .symbol s => renderSymbol s
  | k => .string (normalizeText k.text)

/-- A name, or null. -/
def renderName? : Option String → Json
  | some s => .string (normalizeText s)
  | none => .null

/-- A running context. -/
def renderFrame (f : StackFrame) : Json :=
  .array [.nat f.contextId, renderName? f.functionName]

/-- The running contexts. -/
def renderFrames (frames : List StackFrame) : Json := .array (frames.map renderFrame)

/-! ### Names of intrinsic objects -/

/-- The names of the intrinsic objects, in the order in which they are tried. -/
def intrinsicNames : List (String × Intrinsic) :=
  [("object_prototype", .objectPrototype), ("function_prototype", .functionPrototype),
   ("array_prototype", .arrayPrototype), ("string_prototype", .stringPrototype),
   ("number_prototype", .numberPrototype), ("boolean_prototype", .booleanPrototype),
   ("symbol_prototype", .symbolPrototype), ("error_prototype", .errorPrototype .error),
   ("eval_error_prototype", .errorPrototype .evalError),
   ("range_error_prototype", .errorPrototype .rangeError),
   ("reference_error_prototype", .errorPrototype .referenceError),
   ("syntax_error_prototype", .errorPrototype .syntaxError),
   ("type_error_prototype", .errorPrototype .typeError),
   ("uri_error_prototype", .errorPrototype .uriError), ("iterator_prototype", .iteratorPrototype),
   ("array_iterator_prototype", .arrayIteratorPrototype),
   ("generator_function_prototype", .generatorFunctionPrototype),
   ("generator_prototype", .generatorPrototype), ("promise_prototype", .promisePrototype),
   ("object", .object), ("function", .function), ("array", .array), ("string", .string),
   ("number", .number), ("boolean", .boolean), ("symbol", .symbol), ("error", .error .error),
   ("eval_error", .error .evalError), ("range_error", .error .rangeError),
   ("reference_error", .error .referenceError), ("syntax_error", .error .syntaxError),
   ("type_error", .error .typeError), ("uri_error", .error .uriError), ("promise", .promise),
   ("proxy", .proxy), ("reflect", .reflect), ("json", .json), ("math", .math), ("eval", .eval),
   ("array_prototype_values", .arrayPrototypeValues)]

/-- The object of an intrinsic name. -/
def intrinsicNamed? (realm : Realm types) (name : String) : Option ObjectId :=
  if name = "global" then some realm.globalObject
  else (OrderedMap.lookup name intrinsicNames).map realm.intrinsics.get

/-- The name of an intrinsic object, the first that fits. -/
def intrinsicName? (realm : Realm types) (o : ObjectId) : Option String :=
  match intrinsicNames.find? fun (_, i) => realm.intrinsics.get i = o with
  | some (name, _) => some name
  | none => if o = realm.globalObject then some "global" else none

/-! ### Objects -/

/-- What has appeared so far. -/
structure Sighting where
  /-- The objects of the whole answer, in order. -/
  numbers : Array ObjectId
  /-- The objects of this rendering. -/
  met : List ObjectId := []

/-- The number of an object, a new one on its first appearance. -/
def numberOf (o : ObjectId) : StateM Sighting Json := do
  let sighting ← get
  match sighting.numbers.idxOf? o with
  | some i => return .nat (i + 1)
  | none =>
    set { sighting with numbers := sighting.numbers.push o }
    return .nat (sighting.numbers.size + 1)

/-- Whether an object is met for the first time in this rendering. -/
def meetFirst (o : ObjectId) : StateM Sighting Bool :=
  modifyGet fun sighting =>
    if sighting.met.contains o then (false, sighting)
    else (true, { sighting with met := o :: sighting.met })

/-- Whether an object is a function with or without bound arguments. -/
def isFunctionKind : ObjectKind types → Bool
  | .function _ => true
  | .boundFunction _ => true
  | _ => false

/-- The kind of an object, and for a function its name and whether it constructs. -/
def kindMembers (realm : Realm types) (o : ObjectId) (kind : ObjectKind types) :
    List (String × Json) :=
  ("k", Json.string kind.name) ::
    (if isFunctionKind kind then
      [("name", renderName? (realm.functionName? o)),
       ("c", .bool (realm.isConstructor (.object o)))]
     else [])

/-- The attributes that a property has, as letters; none if it has all three of a data property. -/
def renderFlags (d : Descriptor) : List Json :=
  let letters :=
    (if !d.isAccessor && d.isWritable then "w" else "")
      ++ (if d.isEnumerable then "e" else "")
      ++ (if d.isConfigurable then "c" else "")
  if letters = "wec" then [] else [.string letters]

/-- The name of the state of a generator. -/
def generatorStateName : GeneratorState → String
  | .none => "None"
  | .suspendedStart => "SuspendedStart"
  | .suspendedYield => "SuspendedYield"
  | .executing => "Executing"
  | .completed => "Completed"

/-- The name of the state of a promise. -/
def promiseStateName : PromiseState → String
  | .pending => "Pending"
  | .fulfilled => "Fulfilled"
  | .rejected => "Rejected"

/-- The name of what an array iterator delivers. -/
def iterationKindName : IterationKind → String
  | .keys => "Keys"
  | .values => "Values"
  | .entries => "Entries"

/-- What an object holds because of its kind, where `value` renders a value. -/
def dataMembers (value : Value → StateM Sighting Json) :
    ObjectKind types → StateM Sighting (List (String × Json))
  | .number n => return [("data", renderNumber n)]
  | .boolean b => return [("data", .bool b)]
  | .string s => return [("data", .string (normalizeText s))]
  | .symbol s => return [("data", renderSymbol s)]
  | .generator data => return [("state", .string (generatorStateName data.state))]
  | .promise data => do
    return [("state", .string (promiseStateName data.state)), ("handled", .bool data.isHandled),
      ("result", ← value data.result)]
  | .proxy data => do
    let target ← value (.ofObject? data.target)
    let handler ← value (.ofObject? data.handler)
    return [("target", target), ("handler", handler),
      ("callable", .array [.bool data.callable, .bool data.isConstructor])]
  | .moduleNamespace data =>
    return [("exports", .array (data.exports.map fun s => .string (normalizeText s)))]
  | .arrayIterator data => do
    let iterated ← value (.ofObject? data.iterated)
    return [("iterates", .array [.nat data.nextIndex, .string (iterationKindName data.kind)]),
      ("over", iterated)]
  | _ => return []

/-- A property. -/
def renderProperty (value : Value → StateM Sighting Json) (k : PropertyKey) (d : Descriptor) :
    StateM Sighting Json := do
  let shown ←
    if d.isAccessor then do
      let get ← value d.getter
      let set ← value d.setter
      pure (Json.object [("get", get), ("set", set)])
    else value d.valueD
  return .array (renderKey k :: shown :: renderFlags d)

/-- Whether the prototype of an object is what one expects of its kind. -/
def hasUsualPrototype (realm : Realm types) (object : Object types) : Bool :=
  match object.kind with
  | .ordinary => object.prototype == some (realm.intrinsics.get .objectPrototype)
  | .array => object.prototype == some (realm.intrinsics.get .arrayPrototype)
  | _ => false

/-- All that an object holds. -/
def contentMembers (realm : Realm types) (value : Value → StateM Sighting Json)
    (object : Object types) : StateM Sighting (List (String × Json)) := do
  let prototype ←
    if hasUsualPrototype realm object then pure []
    else do pure [("p", ← value (.ofObject? object.prototype))]
  let extensible := if object.extensible then [] else [("x", Json.bool false)]
  let data ← dataMembers value object.kind
  let entries ← object.properties.entries.mapM fun (k, d) => renderProperty value k d
  let properties := if entries.isEmpty then [] else [("props", Json.array entries)]
  return prototype ++ extensible ++ data ++ properties

/-- An object with all it holds; intrinsic objects and functions are expanded only as the root of a
dump. An object is expanded once, so that the nesting is less than the size of the heap. -/
def renderObject (realm : Realm types) : (fuel : Nat) → (isRoot : Bool) → ObjectId →
    StateM Sighting Json
  | 0, _, _ => return .null
  | fuel + 1, isRoot, o => do
    let value (v : Value) : StateM Sighting Json :=
      match v with
      | .object o => renderObject realm fuel false o
      | v => pure (renderPrimitive v)
    let name? := intrinsicName? realm o
    match name?, isRoot with
    | some name, false => return .object [("o", .string ("%" ++ name ++ "%"))]
    | _, _ =>
      match realm.object? o with
      | none => return .object [("o", .string "dangling")]
      | some object =>
        let id ← match name? with
          | some name => pure (Json.string ("%" ++ name ++ "%"))
          | none => numberOf o
        if !(← meetFirst o) then return .object [("o", id)]
        let kind := kindMembers realm o object.kind
        if isFunctionKind object.kind && !isRoot then return .object (("o", id) :: kind)
        let content ← contentMembers realm value object
        return .object (("o", id) :: (kind ++ content))

/-- An object with its kind only. -/
def renderShallowObject (realm : Realm types) (o : ObjectId) : StateM Sighting Json := do
  match intrinsicName? realm o with
  | some name => return .object [("o", .string ("%" ++ name ++ "%"))]
  | none =>
    match realm.object? o with
    | none => return .object [("o", .string "dangling")]
    | some object => return .object (("o", ← numberOf o) :: kindMembers realm o object.kind)

/-- Looks at the realm, numbering the objects that appear. -/
def look {α : Type} (f : Realm types → StateM Sighting α) : Op α :=
  adjustGet fun realm =>
    let (a, sighting) := (f realm).run { numbers := realm.store.numbers }
    (a, { realm with store := { realm.store with numbers := sighting.numbers } })

/-- A value with the kind of an object. -/
def renderShallow (v : Value) : Op Json :=
  match v with
  | .object o => look fun realm => renderShallowObject realm o
  | v => pure (renderPrimitive v)

/-- A value with all that an object holds. A dump expands its root in any case. -/
def renderDeep (v : Value) (isDump : Bool) : Op Json :=
  match v with
  | .object o => look fun realm => renderObject realm (realm.heap.size + 2) isDump o
  | v => pure (renderPrimitive v)

end ScriptEngine.Script
