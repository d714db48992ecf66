import ScriptEngine.Operation.Property

/-!
# Errors as objects

A native error becomes an object only when the program is to see it.

## Main definitions

* `errorObject`: the object of a native error.
* `Failure.toValue`: the value that code of the language catches.
* `Failure.toCompletion`, `completionOf`: an outcome as a completion.
-/

namespace ScriptEngine

open Engine

variable {H : HostTypes}

/-- Defines a property like those of built-in methods. -/
def ObjectId.defineBuiltin (o : ObjectId) (k : PropertyKey) (v : Value) : Engine H Unit :=
  o.defineOrThrow k (.builtin v)

/-- The object of a native error. -/
def errorObject (kind : ErrorKind) (message : String) : Engine H ObjectId := do
  let o ← newObject (some (← intrinsic (.errorPrototype kind))) .error
  o.defineBuiltin (.string "message") (.string message)
  return o

/-- The value that code of the language catches. A fatal failure cannot be caught. -/
def Failure.toValue (f : Failure) : Engine H Value := do
  match f with
  | .native kind message _ => return .object (← errorObject kind message)
  | .thrown v _ => return v
  | f => fail f

/-- A failure as a completion. -/
def Failure.toCompletion (f : Failure) : Engine H Completion := return .throw (← f.toValue)

/-- An outcome as a completion. -/
def completionOf : Except Failure Value → Engine H Completion
  | .ok v => return .normal v
  | .error f => f.toCompletion

end ScriptEngine
