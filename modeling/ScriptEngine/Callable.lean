import ScriptEngine.Heap

/-!
# Callable objects

Which objects can be called and constructed, and what is known of them without running code.

## Main definitions

* `Realm.isCallable`, `Realm.isConstructor`: the two predicates on values.
* `Realm.functionName?`: the name that traces and messages show.
* `Realm.stackFrames`: the running contexts with the names of their functions.
-/

namespace ScriptEngine

variable {H : HostTypes}

namespace Realm

/-- The kind of an object, if it is on the heap. -/
def kind? (realm : Realm H) (o : ObjectId) : Option (ObjectKind H) :=
  (realm.object? o).map Object.kind

/-- Whether a value can be called. -/
def isCallable (realm : Realm H) : Value → Bool
  | .object o => (realm.kind? o).any ObjectKind.isCallable
  | _ => false

/-- Whether an object can be constructed, where at most `fuel` bound functions are followed. -/
def isConstructorWithin (realm : Realm H) : (fuel : Nat) → ObjectId → Bool
  | 0, _ => false
  | fuel + 1, o =>
    match realm.kind? o with
    | some (.function (.native _ isConstructor)) => isConstructor
    | some (.function (.script function)) => function.isConstructor
    | some (.boundFunction bound) => isConstructorWithin realm fuel bound.target
    | some (.proxy proxy) => proxy.isConstructor
    | _ => false

/-- Whether a value can be constructed. A bound function is younger than its target, so a chain of
them is shorter than the heap. -/
def isConstructor (realm : Realm H) : Value → Bool
  | .object o => realm.isConstructorWithin (realm.heap.size + 1) o
  | _ => false

/-- The own name of a function, if it is a non-empty string. -/
def functionName? (realm : Realm H) (f : ObjectId) : Option String := do
  let object ← realm.object? f
  let descriptor ← object.properties.get? (.string "name")
  match descriptor.value with
  | some (.string name) => if name.isEmpty then none else some name
  | _ => none

/-- The running contexts, the top first. -/
def stackFrames (realm : Realm H) : List StackFrame :=
  realm.contexts.contexts.map fun context =>
    { contextId := context.id
      functionName := context.frame.function.bind realm.functionName? }

end Realm

namespace Engine

/-- Whether a value can be called. -/
def isCallable (v : Value) : Engine H Bool := return (← getRealm).isCallable v

/-- Whether a value can be constructed. -/
def isConstructor (v : Value) : Engine H Bool := return (← getRealm).isConstructor v

end Engine

/-- The target of a bound function. -/
def ObjectId.boundTarget? (o : ObjectId) : Engine H (Option ObjectId) := do
  match ← Engine.getKind o with
  | .boundFunction bound => return some bound.target
  | _ => return none

/-- The home object of a method. -/
def ObjectId.homeObject? (o : ObjectId) : Engine H (Option ObjectId) := do
  match ← Engine.getKind o with
  | .function (.script function) => return function.homeObject
  | _ => return none

end ScriptEngine
