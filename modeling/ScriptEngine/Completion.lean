import ScriptEngine.Failure

/-!
# Completions

How a piece of code ends: normally with a value or empty, or abruptly by a jump, a return or a
throw. A jump may carry the value of the statements before it.

## Main definitions

* `Completion`: the six ways to end.
* `Completion.updateEmpty`: a missing value filled in.
* `Completion.loopContinues`: whether the enclosing loop goes on.
-/

namespace ScriptEngine

/-- How a piece of code ends. -/
inductive Completion where
  | normal (value : Value)
  | empty
  | return (value : Value)
  | throw (value : Value)
  | break (value : Option Value) (target : Option String)
  | continue (value : Option Value) (target : Option String)
deriving DecidableEq

namespace Completion

/-- The name of the kind. -/
def kindName : Completion → String
  | normal _ => "Normal"
  | empty => "Empty"
  | .return _ => "Return"
  | .throw _ => "Throw"
  | .break .. => "Break"
  | .continue .. => "Continue"

/-- The value, if there is one. -/
def value? : Completion → Option Value
  | normal v => some v
  | empty => none
  | .return v => some v
  | .throw v => some v
  | .break v _ => v
  | .continue v _ => v

/-- The value, `undefined` if there is none. -/
def valueD (c : Completion) : Value := c.value?.getD .undefined

/-- The label that a jump aims at. -/
def target? : Completion → Option String
  | .break _ t => t
  | .continue _ t => t
  | _ => none

/-- Anything but a normal end. -/
def isAbrupt : Completion → Bool
  | normal _ => false
  | empty => false
  | _ => true

/-- Whether the code threw. -/
def isThrow : Completion → Bool
  | .throw _ => true
  | _ => false

/-- Whether the code returned. -/
def isReturn : Completion → Bool
  | .return _ => true
  | _ => false

/-- The completion with a missing value filled in; an empty one becomes normal. -/
def updateEmpty (c : Completion) (v : Value) : Completion :=
  match c with
  | empty => normal v
  | .break none t => .break (some v) t
  | .continue none t => .continue (some v) t
  | c => c

/-- Whether a loop with these labels goes on after its body ended so. -/
def loopContinues (c : Completion) (labels : List String) : Bool :=
  match c with
  | normal _ => true
  | empty => true
  | .continue _ none => true
  | .continue _ (some label) => labels.contains label
  | _ => false

/-- The value of a completion, or the failure of a throw. -/
def toResult : Completion → Except Failure (Option Value)
  | .throw v => .error (.throwing v)
  | c => .ok c.value?

/-- A value or a thrown value as a completion. -/
def ofResult : Except Value Value → Completion
  | .ok v => normal v
  | .error v => .throw v

end Completion
end ScriptEngine
