import ScriptEngine.Script.Syntax
import ScriptEngine.Json.Basic

/-!
# The forms of expressions

An expression is written as a JSON array that starts with the name of its form. For the forms that
evaluate their parts from left to right, this module says which operation a name stands for, which
of the other items are parts, and what the parts are used as.

## Main definitions

* `RawPart`: a part that is still to be read.
* `operationOf?`: the operation and the parts of a form.
-/

namespace ScriptEngine.Script

/-- A part that is still to be read. -/
inductive RawPart where
  /-- One operand, none where the script left it out although it has to be there. -/
  | one (use : Use) (j? : Option Json)
  | spread (j : Json)
  | scope (name : String)
  | noScope

/-- What a form consists of. -/
abbrev Form := Operation × List RawPart

/-! ### Items -/

/-- An item that is not an operand, null if it is missing. -/
def item (items : List Json) (i : Nat) : Json := items.getD i .null

/-- An item that is a text. -/
def textItem (items : List Json) (i : Nat) : String := (item items i).string?.getD ""

/-- An item that is a text, if it is there. -/
def textItem? (items : List Json) (i : Nat) : Option String := (item items i).string?

/-- An item that is a truth value; a missing one is false. -/
def flagItem (items : List Json) (i : Nat) : Bool := (item items i).bool?.getD false

/-- An item that is a natural number; a missing one is zero. -/
def natItem (items : List Json) (i : Nat) : Nat := (item items i).nat?.getD 0

/-- The items of an item that is a list. -/
def listItem (items : List Json) (i : Nat) : List Json := (item items i).items?.getD []

/-- The texts of an item that is a list of them. -/
def textsItem (items : List Json) (i : Nat) : List String :=
  (listItem items i).filterMap Json.string?

/-- A part that has to be there. -/
def required (use : Use) (items : List Json) (i : Nat) : RawPart := .one use items[i]?

/-- A part that may be missing. -/
def optional (use : Use) (items : List Json) (i : Nat) : List RawPart :=
  (items[i]?).toList.map fun j => .one use (some j)

/-- Parts with the given uses. -/
def requiredAll (items : List Json) (uses : List Use) : List RawPart :=
  uses.mapIdx fun i use => required use items i

/-- An argument of a call. -/
def argumentPart : Json → RawPart
  | .array [.string "spread", e] => .spread e
  | j => .one .value (some j)

/-- The arguments of a call from an item on. -/
def argumentsFrom (items : List Json) (i : Nat) : List RawPart := (items.drop i).map argumentPart

/-- A scope by its name, or none. -/
def scopePart (items : List Json) (i : Nat) : RawPart :=
  match item items i with
  | .string name => .scope name
  | _ => .noScope

/-! ### Descriptors -/

/-- The shape of a descriptor. -/
def shapeOf (j : Json) : DescriptorShape :=
  { hasValue := (j.member? "value").isSome
    hasGet := (j.member? "get").isSome
    hasSet := (j.member? "set").isSome
    writable := (j.member? "writable").bind Json.bool?
    enumerable := (j.member? "enumerable").bind Json.bool?
    configurable := (j.member? "configurable").bind Json.bool? }

/-- The parts of a descriptor. -/
def fieldParts (j : Json) : List RawPart :=
  (["value", "get", "set"].filterMap j.member?).map fun field => .one .value (some field)

/-! ### Variables, functions and objects -/

/-- The native function with a name. -/
def nativeBodyNamed (name : String) : NativeBody :=
  match name with
  | "args" => .arguments
  | "this" => .this
  | "newtarget" => .newTarget
  | "fail" => .failing
  | "throw" => .throwing
  | "frames" => .frames
  | _ => .nothing

/-- The forms that change a function. -/
def changeForm? (items : List Json) : Option (FunctionOperation × List RawPart) :=
  let f := required .object items 0
  match textItem items 1 with
  | "class" => some (.makeClass, [f])
  | "derived" => some (.makeDerived, [f])
  | "ctor" =>
    some (.makeConstructor ((item items 2).bool?.getD true), f :: optional .value items 3)
  | "method" => some (.makeMethod, [f, required .object items 2])
  | _ => none

/-- The forms for variables and functions. -/
def functionForm? (strict : Bool) (name : String) (items : List Json) :
    Option (FunctionOperation × List RawPart) :=
  match name with
  | "$" => some (.readVariable (textItem items 0) strict, [])
  | "delvar" => some (.deleteVariable (textItem items 0) strict, [])
  | "let" => some (.declare (textItem items 0) true, optional .value items 1)
  | "const" => some (.declare (textItem items 0) false, optional .value items 1)
  | "native" =>
    some (.native (textItem items 0) (nativeBodyNamed (textItem items 1)) (natItem items 2)
      (flagItem items 3), [])
  | "this" => some (.this, [])
  | "newtarget" => some (.newTarget, [])
  | "call" => some (.call, requiredAll items [.value, .value] ++ argumentsFrom items 2)
  | "m" => some (.invoke, requiredAll items [.value, .key] ++ argumentsFrom items 2)
  | "new" => some (.construct, required .value items 0 :: argumentsFrom items 1)
  | "newt" => some (.constructFor, requiredAll items [.object, .object] ++ argumentsFrom items 2)
  | "bound" => some (.bind, requiredAll items [.object, .value] ++ argumentsFrom items 2)
  | "fname" => some (.setName (textItem? items 2), requiredAll items [.object, .key])
  | "fkind" => some (.describe, requiredAll items [.value])
  | "fmake" => changeForm? items
  | _ => none

/-- The forms for objects. -/
def objectForm? (strict : Bool) (name : String) (items : List Json) :
    Option (ObjectOperation × List RawPart) :=
  match name with
  | "create" => some (.create, requiredAll items [.value])
  | "array_create" => some (.createArray (natItem items 0), optional .value items 1)
  | "get" => some (.getMember strict, requiredAll items [.value, .key])
  | "put" => some (.putMember strict, requiredAll items [.value, .key, .value])
  | "del" => some (.deleteMember strict, requiredAll items [.value, .key])
  | "def" =>
    some (.define (shapeOf (item items 2)),
      requiredAll items [.object, .key] ++ fieldParts (item items 2))
  | "proxy" => some (.proxy, requiredAll items [.value, .value])
  | "revoke" => some (.revoke, requiredAll items [.object])
  | "proxy_target" => some (.proxyTarget, requiredAll items [.object])
  | "intrinsic" => some (.intrinsic (textItem items 0), [])
  | "wk" => some (.wellKnown (textItem items 0), [])
  | "sym" => some (.newSymbol (textItem? items 0), [])
  | "error" => some (.raise (textItem items 0) (textItem items 1), [])
  | _ => none

/-- The forms for operators. -/
def operatorForm? (name : String) (items : List Json) : Option (Operator × List RawPart) :=
  let one := requiredAll items [.value]
  let two := requiredAll items [.value, .value]
  match name with
  | "typeof" => some (.typeOf, one)
  | "not" => some (.not, one)
  | "debug" => some (.debug, one)
  | "+" => some (.add, two)
  | "-" => some (.subtract, two)
  | "*" => some (.multiply, two)
  | "===" => some (.strictEquals, two)
  | "==" => some (.looselyEquals, two)
  | "samevalue" => some (.sameValue, two)
  | "samevaluezero" => some (.sameValueZero, two)
  | "<" => some (.relational .less, two)
  | ">" => some (.relational .greater, two)
  | "<=" => some (.relational .lessEqual, two)
  | ">=" => some (.relational .greaterEqual, two)
  | "lt" => some (.isLess true, two)
  | "rl" => some (.isLess false, two)
  | "instanceof" => some (.instanceOf, two)
  | "ordinary_instanceof" => some (.ordinaryInstanceOf, two)
  | _ => none

/-! ### Iterators, promises, modules and the realm -/

/-- The forms for generators and iterators. -/
def iterationForm? (name : String) (items : List Json) :
    Option (IterationOperation × List RawPart) :=
  match name with
  | "gen.raw" => some (.rawGenerator, [])
  | "gen.state" => some (.generatorState, requiredAll items [.object])
  | "gen.resume" => some (.resume, requiredAll items [.value] ++ optional .value items 1)
  | "gen.abrupt" =>
    some (.resumeAbruptly (textItem items 1), requiredAll items [.value] ++ optional .value items 2)
  | "iter.open" => some (.open (textItem items 0), [required .value items 1])
  | "iter.next" => some (.next (textItem items 0), optional .value items 1)
  | "iter.step" => some (.step (textItem items 0), [])
  | "iter.value" => some (.stepValue (textItem items 0), [])
  | "iter.done" => some (.isDone (textItem items 0), [])
  | "iter.result" => some (.result (flagItem items 1), requiredAll items [.value])
  | _ => none

/-- What an export is said to stand for. -/
def forwardedExportOf (j : Json) : String × ForwardedExport :=
  let items := j.items?.getD []
  let target :=
    match textItem items 1, textItem? items 2 with
    | "!null", _ => ForwardedExport.null
    | "!ambiguous", _ => ForwardedExport.ambiguous
    | module, some name => .name module name
    | module, none => .whole module
  (textItem items 0, target)

/-- The forms for promises, jobs and modules. -/
def promiseForm? (name : String) (items : List Json) : Option (PromiseOperation × List RawPart) :=
  match name with
  | "cap.new" => some (.newCapability (textItem items 0), [required .value items 1])
  | "promise.state" => some (.state, requiredAll items [.object])
  | "promise.resolve" => some (.resolve, requiredAll items [.object] ++ optional .value items 1)
  | "promise.then" =>
    some (.performThen (textItem? items 3), requiredAll items [.object, .value, .value])
  | "jobs" => some (.runJobs, [])
  | "enqueue" => some (.enqueue, requiredAll items [.value])
  | "mod.new" => some (.createModule (textItem items 0) (textsItem items 1), [])
  | "mod.set" =>
    some (.setExport (textItem items 0) (textItem items 1), optional .value items 2)
  | "mod.detach" => some (.detach (textItem items 0), [])
  | "mod.ns" => some (.getNamespace (textItem items 0), [])
  | "mod.resolve" => some (.resolveExport (textItem items 0) (textItem items 1), [])
  | "mod.forward" =>
    some (.forward (textItem items 0) ((listItem items 1).map forwardedExportOf), [])
  | _ => none

/-- The forms for the realm and its contexts. -/
def realmForm? (name : String) (items : List Json) : Option (RealmOperation × List RawPart) :=
  match name with
  | "check" => some (.checkTimeout, optional .number items 0)
  | "clock" => some (.advanceClock, requiredAll items [.number])
  | "flags" => some (.flags, [])
  | "dispose" => some (.dispose, [])
  | "ctx.push" => some (.pushContext, [])
  | "ctx.pop" => some (.popContext, [])
  | "ctx.suspend" => some (.suspendContext, requiredAll items [.number])
  | "ctx.resume" => some (.resumeContext, requiredAll items [.number])
  | "ctx.elapsed" => some (.elapsed, [])
  | "frames" => some (.frames, [])
  | _ => none

/-- The forms for references. -/
def referenceForm? (strict : Bool) (name : String) (items : List Json) :
    Option (ReferenceOperation × List RawPart) :=
  match name with
  | "ref.new" =>
    some (.newProperty (textItem items 0) ((item items 3).bool?.getD strict),
      [required .value items 1, required .key items 2] ++ optional .value items 4)
  | "ref.ident" =>
    some (.newIdentifier (textItem items 0) (textItem items 2) ((item items 3).bool?.getD strict),
      [scopePart items 1])
  | "ref.get" => some (.getValue (textItem items 0), [])
  | "ref.this" => some (.getThis (textItem items 0), [])
  | "ref.del" => some (.delete (textItem items 0), [])
  | "ref.put" => some (.putValue (textItem items 0), [required .value items 1])
  | "ref.init" => some (.setFirst (textItem items 0), [required .value items 1])
  | _ => none

/-! ### Scopes -/

/-- A part that may be missing and is undefined then. -/
def valueOrUndefined (items : List Json) (i : Nat) : RawPart :=
  .one .value (some ((items[i]?).getD (.array [.string "u"])))

/-- The forms that make a scope. -/
def newScopeForm? (items : List Json) : Option (ScopeOperation × List RawPart) :=
  let name := textItem items 0
  let outer := scopePart items 2
  match textItem items 1 with
  | "declarative" => some (.newDeclarative name, [outer])
  | "module" => some (.newModule name, [outer])
  | "object" => some (.newObject name (flagItem items 4), [outer, required .object items 3])
  | "function" =>
    some (.newFunction name (flagItem items 5),
      [outer, required .object items 3, valueOrUndefined items 4, valueOrUndefined items 6])
  | "global" => some (.newGlobal name, [.noScope, required .object items 3])
  | _ => none

/-- The forms for scopes. -/
def scopeForm? (name : String) (items : List Json) : Option (ScopeOperation × List RawPart) :=
  let e := RawPart.scope (textItem items 0)
  let binding := textItem items 1
  match name with
  | "env.new" => newScopeForm? items
  | "env.has" => some (.has binding, [e])
  | "env.mutable" => some (.createMutable binding (flagItem items 2), [e])
  | "env.immutable" => some (.createImmutable binding (flagItem items 2), [e])
  | "env.init" => some (.setFirst binding, [e, required .value items 2])
  | "env.set" => some (.set binding (flagItem items 3), [e, required .value items 2])
  | "env.get" => some (.get binding (flagItem items 2), [e])
  | "env.delete" => some (.delete binding, [e])
  | "env.names" => some (.names, [e])
  | "env.hasThis" => some (.hasThis, [e])
  | "env.hasSuper" => some (.hasSuper, [e])
  | "env.withBase" => some (.withBase, [e])
  | "env.bindThis" => some (.bindThis, [e, required .value items 1])
  | "env.getThis" => some (.getThis, [e])
  | "env.superBase" => some (.superBase, [e])
  | "env.hasVar" => some (.hasVar binding, [e])
  | "env.hasLex" => some (.hasLexical binding, [e])
  | "env.restricted" => some (.isRestricted binding, [e])
  | "env.canVar" => some (.canDeclareVar binding, [e])
  | "env.canFunc" => some (.canDeclareFunction binding, [e])
  | "env.createVar" => some (.createVar binding (flagItem items 2), [e])
  | "env.createFunc" =>
    some (.createFunction binding (flagItem items 3), [e, required .value items 2])
  | "env.import" => some (.createImport binding (textItem items 2) (textItem items 3), [e])
  | _ => none

/-! ### Internal methods and abstract operations -/

/-- The forms for internal methods. -/
def methodForm? (name : String) (items : List Json) : Option (MethodOperation × List RawPart) :=
  let whole := requiredAll items [.object]
  let property := requiredAll items [.object, .key]
  match name with
  | "i.getPrototypeOf" => some (.getPrototypeOf, whole)
  | "i.setPrototypeOf" => some (.setPrototypeOf, whole ++ [required .value items 1])
  | "i.isExtensible" => some (.isExtensible, whole)
  | "i.preventExtensions" => some (.preventExtensions, whole)
  | "i.ownKeys" => some (.ownKeys, whole)
  | "i.getOwn" => some (.getOwnProperty, property)
  | "i.define" =>
    some (.defineOwnProperty (shapeOf (item items 2)), property ++ fieldParts (item items 2))
  | "i.has" => some (.hasProperty, property)
  | "i.get" => some (.get, property ++ optional .value items 2)
  | "i.set" => some (.set, property ++ [required .value items 2] ++ optional .value items 3)
  | "i.delete" => some (.delete, property)
  | _ => none

/-- What a conversion to a primitive prefers, by its name. -/
def preferredNamed (name : String) : PreferredType :=
  if name = "string" then .string else if name = "number" then .number else .default

/-- A level of integrity by its name. -/
def levelNamed (name : String) : IntegrityLevel := if name = "frozen" then .frozen else .sealed

/-- What an enumeration delivers, by its name. -/
def enumerationNamed (name : String) : IterationKind :=
  if name = "keys" then .keys else if name = "values" then .values else .entries

/-- The forms for conversions. -/
def conversionForm? (name : String) (items : List Json) :
    Option (AbstractOperation × List RawPart) :=
  let value := requiredAll items [.value]
  match name with
  | "op.to_boolean" => some (.toBoolean, value)
  | "op.to_number" => some (.toNumber, value)
  | "op.to_string" => some (.toText, value)
  | "op.to_object" => some (.toObject, value)
  | "op.to_primitive" => some (.toPrimitive (preferredNamed (textItem items 1)), value)
  | "op.ordinary_to_primitive" =>
    some (.ordinaryToPrimitive (preferredNamed (textItem items 1)), requiredAll items [.object])
  | "op.to_integer_or_infinity" => some (.toIntegerOrInfinity, value)
  | "op.to_length" => some (.toLength, value)
  | "op.to_int32" => some (.toInt32, value)
  | "op.to_uint32" => some (.toUint32, value)
  | "op.to_property_key" => some (.toPropertyKey, value)
  | "op.require_object_coercible" => some (.requireObjectCoercible, value)
  | "op.number_to_string" => some (.numberToText, requiredAll items [.number])
  | "op.number_to_string_radix" => some (.numberToRadix, requiredAll items [.number, .number])
  | "op.string_to_number" => some (.textToNumber, requiredAll items [.text])
  | "op.parse_int" => some (.parseInteger, requiredAll items [.text, .number])
  | "op.parse_float" => some (.parseFloat, requiredAll items [.text])
  | "op.to_descriptor" => some (.toDescriptor, value)
  | _ => none

/-- The forms for operations on whole objects. -/
def wholeForm? (name : String) (items : List Json) : Option (AbstractOperation × List RawPart) :=
  let object := requiredAll items [.object]
  let value := requiredAll items [.value]
  match name with
  | "op.set_integrity" => some (.setIntegrity (levelNamed (textItem items 1)), object)
  | "op.test_integrity" => some (.testIntegrity (levelNamed (textItem items 1)), object)
  | "op.length" => some (.lengthOfArrayLike, object)
  | "op.list_from" => some (.listFrom (textItem items 1 = "keys"), value)
  | "op.enumerable" => some (.enumerable (enumerationNamed (textItem items 1)), object)
  | "op.is_array" => some (.isArray, value)
  | "op.species" => some (.species, requiredAll items [.object, .object])
  | "op.copy_data" =>
    some (.copyData, requiredAll items [.object, .value]
      ++ (listItem items 2).map fun k => .one .key (some k))
  | "op.tag" => some (.tag, value)
  | "op.iterable_to_list" => some (.iterableToList, value)
  | "op.is_prototype_of" => some (.isPrototypeOf, requiredAll items [.object, .object])
  | "op.compatible" =>
    let wanted := item items 1
    let current := item items 2
    let currentShape := match current with
      | .object _ => some (shapeOf current)
      | _ => none
    some (.isCompatible (flagItem items 0) (shapeOf wanted) currentShape,
      fieldParts wanted ++ fieldParts current)
  | "op.descriptor" =>
    some (.describeDescriptor (shapeOf (item items 0)), fieldParts (item items 0))
  | _ => none

/-- The forms for operations on properties. -/
def propertyForm? (name : String) (items : List Json) :
    Option (AbstractOperation × List RawPart) :=
  match name with
  | "op.get_v" => some (.getProperty, requiredAll items [.value, .key])
  | "op.get_by_value" => some (.getByValue, requiredAll items [.value, .value])
  | "op.get_method" => some (.getMethod, requiredAll items [.value, .key])
  | "op.has_own_property" => some (.hasOwnProperty, requiredAll items [.object, .key])
  | "op.set" =>
    some (.put ((item items 3).bool?.getD true), requiredAll items [.object, .key, .value])
  | "op.create_data_property" =>
    some (.createDataProperty, requiredAll items [.object, .key, .value])
  | "op.create_data_property_or_throw" =>
    some (.createDataPropertyOrThrow, requiredAll items [.object, .key, .value])
  | "op.delete_property_or_throw" => some (.deleteOrThrow, requiredAll items [.object, .key])
  | _ => none

/-! ### All forms -/

/-- The operation and the parts of a form. -/
def operationOf? (strict : Bool) (name : String) (items : List Json) : Option Form :=
  if name.startsWith "op." then
    (conversionForm? name items <|> wholeForm? name items <|> propertyForm? name items).map
      fun (op, parts) => (.abstract op, parts)
  else if name.startsWith "i." then
    (methodForm? name items).map fun (op, parts) => (.method op, parts)
  else if name.startsWith "env." then
    (scopeForm? name items).map fun (op, parts) => (.scope op, parts)
  else
    (functionForm? strict name items).map (fun (op, parts) => (.function op, parts))
      <|> (objectForm? strict name items).map (fun (op, parts) => (.object op, parts))
      <|> (operatorForm? name items).map (fun (op, parts) => (.operator op, parts))
      <|> (iterationForm? name items).map (fun (op, parts) => (.iteration op, parts))
      <|> (promiseForm? name items).map (fun (op, parts) => (.promise op, parts))
      <|> (realmForm? name items).map (fun (op, parts) => (.realm op, parts))
      <|> (referenceForm? strict name items).map (fun (op, parts) => (.reference op, parts))

end ScriptEngine.Script
