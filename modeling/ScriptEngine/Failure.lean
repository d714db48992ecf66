import ScriptEngine.Value

/-!
# Failures

Why an operation ends without a result. A native error and a thrown value belong to the language:
its code can catch them. A timeout and an internal error are fatal and end the evaluation.

## Main definitions

* `ErrorKind`: the kinds of native errors.
* `ErrorTrace`: where an error arose.
* `Failure`: the four causes.
-/

namespace ScriptEngine

/-- The kinds of native errors. -/
inductive ErrorKind where
  | error
  | evalError
  | rangeError
  | referenceError
  | syntaxError
  | typeError
  | uriError
deriving DecidableEq, Repr

namespace ErrorKind

/-- The name of the constructor of such errors. -/
def name : ErrorKind → String
  | error => "Error"
  | evalError => "EvalError"
  | rangeError => "RangeError"
  | referenceError => "ReferenceError"
  | syntaxError => "SyntaxError"
  | typeError => "TypeError"
  | uriError => "URIError"

/-- Every kind. -/
def all : List ErrorKind :=
  [error, evalError, rangeError, referenceError, syntaxError, typeError, uriError]

/-- The kind with a given name. -/
def ofName? (name : String) : Option ErrorKind := all.find? fun k => k.name = name

end ErrorKind

/-- A running context in a trace. -/
structure StackFrame where
  contextId : Nat
  functionName : Option String
deriving DecidableEq, Repr

/-- A line of a trace. -/
def StackFrame.text (f : StackFrame) : String :=
  "    at " ++ f.functionName.getD "<anonymous>" ++ " (context " ++ Nat.repr f.contextId ++ ")"

/-- Where an error arose: a place in the program and the contexts that were running. -/
structure ErrorTrace where
  nodePath : String
  frames : List StackFrame
deriving DecidableEq, Repr

/-- The lines of a trace, each after a line end. -/
def ErrorTrace.text (t : ErrorTrace) : String :=
  (if t.nodePath.isEmpty then "" else "\n    at node " ++ t.nodePath)
    ++ String.join (t.frames.map fun f => "\n" ++ f.text)

/-- Why an operation ends without a result. -/
inductive Failure where
  | native (kind : ErrorKind) (message : String) (trace : Option ErrorTrace)
  | thrown (value : Value) (trace : Option ErrorTrace)
  | timeout (limit elapsed : Nat)
  | internal (message : String)
deriving DecidableEq

namespace Failure

/-- A type error. -/
def typeError (message : String) : Failure := native .typeError message none

/-- A range error. -/
def rangeError (message : String) : Failure := native .rangeError message none

/-- A reference error. -/
def referenceError (message : String) : Failure := native .referenceError message none

/-- A syntax error. -/
def syntaxError (message : String) : Failure := native .syntaxError message none

/-- The reference error for a name without a binding. -/
def notDefined (name : String) : Failure := referenceError (name ++ " is not defined")

/-- A value thrown by the program. -/
def throwing (value : Value) : Failure := thrown value none

/-- Whether code of the language can catch the failure. -/
def isCatchable : Failure → Bool
  | native .. => true
  | thrown .. => true
  | timeout .. => false
  | internal _ => false

/-- Whether the failure ends the evaluation. -/
def isFatal (f : Failure) : Bool := !f.isCatchable

/-- The kind of a native error. -/
def kind? : Failure → Option ErrorKind
  | native kind _ _ => some kind
  | _ => none

/-- The trace, if one was recorded. -/
def trace? : Failure → Option ErrorTrace
  | native _ _ trace => trace
  | thrown _ trace => trace
  | _ => none

/-- The failure with a trace, unless it has one or cannot have one. -/
def withTraceIfAbsent (f : Failure) (trace : ErrorTrace) : Failure :=
  match f with
  | native kind message none => native kind message (some trace)
  | thrown value none => thrown value (some trace)
  | f => f

/-- The text of a trace, empty without one. -/
def traceText : Option ErrorTrace → String
  | some t => t.text
  | none => ""

/-- The text of a failure. -/
def text : Failure → String
  | native kind message trace => kind.name ++ ": " ++ message ++ traceText trace
  | thrown value trace => "Uncaught " ++ value.inspect ++ traceText trace
  | timeout limit elapsed =>
    "Execution timeout: exceeded " ++ Nat.repr limit ++ "ms limit (elapsed: " ++ Nat.repr elapsed
      ++ "ms)"
  | internal message => "Internal error: " ++ message

end Failure
end ScriptEngine
