import ScriptEngine.Object

/-!
# Realms

A realm is all that an evaluation can see and change: the heap of objects, the scopes, the stack of
contexts, the queue of jobs, the registry of symbols, the modules and the limits of time and depth.

## Main definitions

* `Config`: the limits of a realm.
* `Clock`: the clock of the host, which moves on while it is used.
* `Intrinsic`, `Intrinsics`: the objects that the language refers to by itself.
* `RandomSource`: a constant, or a generator with a seed.
* `Job`: a piece of work that waits in the queue.
* `Latch`: what the two resolving functions of a promise share.
* `Realm`: the state of a realm.
-/

namespace ScriptEngine

/-! ### Limits -/

/-- The limits of a realm; zero switches the time limit or the depth limit off. -/
structure Config where
  timeoutMs : Nat := 3000
  checkInterval : Nat := 64
  maxCallDepth : Nat := 256
deriving DecidableEq, Repr

/-! ### Time -/

/-- The clock of the host, in nanoseconds. Time passes while the engine runs: after each look at the
clock it may have moved on. -/
structure Clock where
  /-- What the next look at the clock shows. -/
  now : Nat := 0
  /-- By how much the clock moves on after each of the looks to come. -/
  pace : Nat → Nat := fun _ => 0

namespace Clock

/-- The clock after a look at it. -/
def looked (c : Clock) : Clock := { now := c.now + c.pace 0, pace := fun n => c.pace (n + 1) }

end Clock

/-! ### Intrinsic objects -/

/-- The objects that the language refers to by itself. -/
inductive Intrinsic where
  | objectPrototype
  | functionPrototype
  | arrayPrototype
  | stringPrototype
  | numberPrototype
  | booleanPrototype
  | symbolPrototype
  | errorPrototype (kind : ErrorKind)
  | iteratorPrototype
  | arrayIteratorPrototype
  | generatorFunctionPrototype
  | generatorPrototype
  | promisePrototype
  | object
  | function
  | array
  | string
  | number
  | boolean
  | symbol
  | error (kind : ErrorKind)
  | promise
  | proxy
  | reflect
  | json
  | math
  | eval
  | arrayPrototypeValues
deriving DecidableEq, Repr

/-- The intrinsic objects of a realm. Until it is made, an intrinsic stands for the first object of
the heap. -/
structure Intrinsics where
  known : List (Intrinsic × ObjectId) := []
deriving DecidableEq

namespace Intrinsics

/-- The object of an intrinsic. -/
def get (i : Intrinsics) (name : Intrinsic) : ObjectId :=
  (OrderedMap.lookup name i.known).getD ⟨0⟩

/-- Sets the object of an intrinsic. -/
def set (i : Intrinsics) (name : Intrinsic) (o : ObjectId) : Intrinsics :=
  ⟨(name, o) :: i.known⟩

end Intrinsics

/-! ### Random numbers -/

/-- A source of random numbers. -/
inductive RandomSource where
  | constant (value : Float)
  | seeded (state : UInt64)

namespace RandomSource

/-- A generator from a seed; zero, from which it could not move, is replaced. -/
def ofSeed (seed : UInt64) : RandomSource :=
  seeded (if seed = 0 then 0x123456789abcdef0 else seed)

/-- One step of the generator: three shifts, each combined by exclusive or. -/
def shift (x : UInt64) : UInt64 :=
  let x := x ^^^ (x <<< 13)
  let x := x ^^^ (x >>> 7)
  x ^^^ (x <<< 17)

/-- The next number in the half-open unit interval: the upper 53 bits of the new state. -/
def next : RandomSource → Float × RandomSource
  | constant value => (value, constant value)
  | seeded state =>
    let state := shift state
    ((state >>> 11).toFloat / 9007199254740992.0, seeded state)

end RandomSource

/-! ### Jobs -/

/-- A piece of work that waits in the queue. -/
inductive Job (H : HostTypes) where
  /-- Runs a reaction to the settlement of a promise. -/
  | reaction (reaction : Reaction) (argument : Value)
  /-- Lets an object with a `then` method settle a promise. -/
  | thenable (promise thenable : ObjectId) (then_ : Value)
  | host (job : H.Job)

/-- What the two resolving functions of a promise share. -/
structure Latch where
  promise : ObjectId
  /-- Whether one of the functions was called. -/
  used : Bool := false
deriving DecidableEq

/-- The functions that a promise constructor passed to its executor, `undefined` before. -/
structure CapabilitySlots where
  resolve : Value := .undefined
  reject : Value := .undefined
deriving DecidableEq

/-! ### The state -/

/-- The state of a realm. -/
structure Realm (H : HostTypes) where
  heap : Array (Object H) := #[]
  environments : Array Environment := #[]
  contexts : ContextStack (Frame H) := {}
  intrinsics : Intrinsics := {}
  globalObject : ObjectId := ⟨0⟩
  globalEnvironment : EnvironmentId := ⟨0⟩
  rootContext : Nat := 0
  config : Config := {}
  time : Clock := {}
  random : RandomSource := .constant 0.5
  /-- The jobs that wait, the next one first. -/
  jobs : List (Job H) := []
  /-- The symbols registered under a key. -/
  symbols : OrderedMap String Symbol := {}
  nextSymbol : Nat := Symbol.firstFresh
  modules : Array ModuleRecord := #[]
  /-- The namespaces made so far. -/
  namespaces : OrderedMap ModuleId ObjectId := {}
  /-- The latches of all pairs of resolving functions. -/
  latches : Array Latch := #[]
  /-- What the executors of capabilities received. -/
  capabilitySlots : Array CapabilitySlots := #[]
  callDepth : Nat := 0
  /-- The checkpoints passed since the clock was last looked at. -/
  checkpoints : Nat := 0
  /-- The milliseconds that had elapsed when the realm was stopped for good. -/
  aborted : Option Nat := none
  disposed : Bool := false
  /-- What the host itself remembers. -/
  store : H.Store

namespace Realm

variable {H : HostTypes}

/-- What the next look at the clock shows, in nanoseconds. -/
def clock (realm : Realm H) : Nat := realm.time.now

/-- The realm after a look at the clock. -/
def looked (realm : Realm H) : Realm H := { realm with time := realm.time.looked }

end Realm
end ScriptEngine
