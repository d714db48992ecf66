import ScriptEngine.Builtin
import ScriptEngine.Method.Dispatch

/-!
# Answering requests

The engine answers what its operations ask for, and passes on to the host what concerns the host.
Here the recursion of the operations is closed: the answer to a request may send requests of its
own, and the bound on their nesting decreases with each level.

## Main definitions

* `Host`: what an embedding host answers.
* `respond`: the answer to a request, in surroundings that answer further ones.
* `answer`: the answer to a request, with a bound on the nesting.
* `Routine.run`: a computation with a bound on the nesting of its requests.
-/

namespace ScriptEngine

open Engine

variable {H : HostTypes} {α : Type}

/-- What an embedding host answers. -/
abbrev Host (H : HostTypes) := (r : HostRequest H) → Routine H r.Answer

/-- What the functions without code of the language do. -/
def nativeBehaviour (code : NativeCode H) (this : Value) (args : List Value)
    (newTarget : Option ObjectId) : Engine H Value :=
  match code with
  | .builtin f => f.run this args newTarget
  | .host native => askHost (.native native this args newTarget)

/-- Creates or changes an own property, given a descriptor of one kind. -/
def checkedDefine (o : ObjectId) (k : PropertyKey) (d : Descriptor) : Action H Bool := do
  if !d.isValid then
    (internalError "property descriptor mixes data and accessor fields").act
  Action.nested (Dispatch.defineOwnProperty o k d)

/-- The answer to a request. -/
def respond (host : Host H) : (r : Request H) → Action H r.Answer
  | .getPrototypeOf o => (nested (Dispatch.getPrototypeOf o)).act
  | .setPrototypeOf o prototype => Action.nested (Dispatch.setPrototypeOf o prototype)
  | .isExtensible o => (nested (Dispatch.isExtensible o)).act
  | .preventExtensions o => Action.nested (Dispatch.preventExtensions o)
  | .getOwnProperty o k => (nested (Dispatch.getOwnProperty o k)).act
  | .defineOwnProperty o k d => checkedDefine o k d
  | .hasProperty o k => (nested (Dispatch.hasProperty o k)).act
  | .get o k receiver => (nested (Dispatch.get o k receiver)).act
  | .set o k v receiver => (nested (Dispatch.set o k v receiver)).act
  | .delete o k => Action.nested (Dispatch.delete o k)
  | .ownKeys o => (nested (Dispatch.ownKeys o)).act
  | .call f this args => (callFunction nativeBehaviour f this args).act
  | .construct f args newTarget => (constructFunction nativeBehaviour f args newTarget).act
  | .host request => (host request).act

/-- The answer to a request, where requests are nested less than `bound` deep. -/
def answer (host : Host H) : (bound : Nat) → (r : Request H) → Effect H r.Answer
  | 0, _ => throw .exhausted
  | bound + 1, r => respond host r { fuel := bound, perform := answer host bound }

/-- Surroundings in which requests are nested at most `bound` deep and loops go round at most so
often. -/
def Surroundings.bounded (host : Host H) (bound : Nat) : Surroundings H :=
  { fuel := bound, perform := answer host bound }

/-- Runs a computation with a bound on the nesting of its requests. -/
def Routine.run (host : Host H) (bound : Nat) (x : Routine H α) : Effect H α :=
  x.act (.bounded host bound)

end ScriptEngine
