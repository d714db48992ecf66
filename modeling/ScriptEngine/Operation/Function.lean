import ScriptEngine.Operation.Property

/-!
# Making functions

New function objects of every kind and the changes that turn a function into a constructor, a
method or a class.

## Main definitions

* `builtinFunction`, `internalFunction`, `scriptFunction`, `boundFunction`: new functions.
* `ObjectId.setFunctionName`, `ObjectId.setFunctionLength`: the two own properties of functions.
* `ObjectId.makeConstructor`, `ObjectId.makeMethod`, `ObjectId.makeClassConstructor`.
* `ObjectId.createFromConstructor`: a new object with the prototype of a constructor.
-/

namespace ScriptEngine

open Engine

variable {H : HostTypes}

/-! ### Names and lengths -/

/-- The name that a function gets from a key: the description of a symbol stands in brackets. -/
def functionNameOf : PropertyKey → String
  | .symbol s =>
    match s.description with
    | some d => "[" ++ d ++ "]"
    | none => ""
  | k => k.text

/-- Sets the name of a function, after a word such as `get` if one is given. -/
def ObjectId.setFunctionName (f : ObjectId) (key : PropertyKey) (word : Option String := none) :
    Engine H Unit :=
  let name := functionNameOf key
  let name := match word with
    | some w => w ++ " " ++ name
    | none => name
  f.defineOrThrow (.string "name") (.data (.string name) false false true)

/-- Sets the length of a function. -/
def ObjectId.setFunctionLength (f : ObjectId) (length : Float) : Engine H Unit :=
  f.defineOrThrow (.string "length") (.data (.number length) false false true)

/-- The name of a function as the program sees it. -/
def ObjectId.nameOf (f : ObjectId) : Engine H String := do
  match ← f.getNamed "name" with
  | .string s => return s
  | _ => return ""

/-! ### New functions -/

/-- A new function without code of the language. -/
def nativeFunction (code : NativeCode H) (length : Nat) (name : PropertyKey)
    (isConstructor : Bool) : Engine H ObjectId := do
  let f ← newObject (some (← intrinsic .functionPrototype)) (.function (.native code isConstructor))
  f.setFunctionLength (Float.ofNat length)
  f.setFunctionName name
  return f

/-- A new built-in function. -/
def builtinFunction (name : Builtin) (length : Nat) (key : PropertyKey)
    (isConstructor : Bool := false) : Engine H ObjectId :=
  nativeFunction (.builtin name) length key isConstructor

/-- A new function that the engine makes for its own use; its name is empty. -/
def internalFunction (data : FunctionData H) (length : Nat) : Engine H ObjectId := do
  let f ← newObject (some (← intrinsic .functionPrototype)) (.function data)
  f.setFunctionLength (Float.ofNat length)
  f.setFunctionName (.string "")
  return f

/-- How a function treats its receiver. -/
def ThisMode.of (lexicalThis strict : Bool) : ThisMode :=
  if lexicalThis then .lexical else if strict then .strict else .global

/-- A new function with code of the host's language. There has to be a running context. -/
def scriptFunction (prototype : ObjectId) (code : FunctionCode H) (lexicalThis : Bool)
    (environment : Option EnvironmentId) : Engine H ObjectId := do
  let _ ← runningContext
  let function : ScriptFunction H :=
    { code, environment, thisMode := .of lexicalThis code.strict }
  let f ← newObject (some prototype) (.function (.script function))
  f.setFunctionLength (Float.ofNat code.expectedArguments)
  return f

/-- A new function with fixed receiver and leading arguments. -/
def boundFunction (target : ObjectId) (boundThis : Value) (boundArgs : List Value) :
    Engine H ObjectId := do
  newObject (← target.getPrototypeOf) (.boundFunction { target, boundThis, boundArgs })

/-! ### Changing functions -/

/-- Replaces the data of an object that is a function. -/
def ObjectId.setFunctionData (f : ObjectId) (data : FunctionData H) : Engine H Unit :=
  modifyKind f
    (fun
      | .function _ => .function data
      | kind => kind)
    fun kind => by
      cases kind with
      | function before => exact .inr ⟨.function before data, rfl, rfl⟩
      | _ => exact .inl rfl

/-- Changes a function that has code of the host's language. -/
def ObjectId.modifyScriptFunction (f : ObjectId) (change : ScriptFunction H → ScriptFunction H) :
    Engine H Unit := do
  match ← getKind f with
  | .function (.script function) => f.setFunctionData (.script (change function))
  | _ => internalError "expected an ordinary function object"

/-- Makes a function a constructor with a prototype, a new one by default. -/
def ObjectId.makeConstructor (f : ObjectId) (writable : Bool) (prototype : Option ObjectId) :
    Engine H Unit := do
  match ← getKind f with
  | .function (.script function) =>
    f.setFunctionData (.script { function with isConstructor := true })
  | _ => pure ()
  let prototype ← match prototype with
    | some p => pure p
    | none => do
      let p ← newPlain
      p.defineOrThrow (.string "constructor") (.data (.object f) writable false true)
      pure p
  f.defineOrThrow (.string "prototype") (.data (.object prototype) writable false false)

/-- Makes a function a method of an object. -/
def ObjectId.makeMethod (f home : ObjectId) : Engine H Unit :=
  f.modifyScriptFunction fun function => { function with homeObject := some home }

/-- Makes a function the constructor of a class. -/
def ObjectId.makeClassConstructor (f : ObjectId) : Engine H Unit :=
  f.modifyScriptFunction fun function => { function with isClassConstructor := true }

/-- Sets whether a constructor makes its own object. -/
def ObjectId.setConstructorKind (f : ObjectId) (constructorKind : ConstructorKind) :
    Engine H Unit :=
  f.modifyScriptFunction fun function => { function with constructorKind }

/-! ### Objects of a constructor -/

/-- The prototype for the objects of a constructor. -/
def ObjectId.prototypeFromConstructor (c fallback : ObjectId) : Engine H ObjectId := do
  match ← c.getNamed "prototype" with
  | .object p => return p
  | _ => return fallback

/-- A new object with the prototype of a constructor. -/
def ObjectId.createFromConstructor (c fallback : ObjectId) (kind : ObjectKind H)
    (isNew : kind.isNew = true := by exact Eq.refl true) : Engine H ObjectId := do
  newObject (some (← c.prototypeFromConstructor fallback)) kind isNew

end ScriptEngine
