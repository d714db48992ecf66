import ScriptEngine.Json.Skip
import ScriptEngine.Realm

/-!
# Reading limits

The limits of a realm as a JSON text: an object with some of the limits, or an array of the first of
them in their order. What is not given keeps its default. Members with other names are skipped, but
no limit may be given twice, and each has to be a natural number in its range.

## Main definitions

* `Config.Field`: the limits by name.
* `Config.parse?`: the limits of a text.
-/

namespace ScriptEngine.Config

open Json

/-- The limits by name. -/
inductive Field where
  | timeoutMs
  | checkInterval
  | maxCallDepth
deriving DecidableEq, Repr

namespace Field

/-- Every limit, in the order of the array form. -/
def all : List Field := [timeoutMs, checkInterval, maxCallDepth]

/-- The name of a limit. -/
def name : Field → String
  | timeoutMs => "timeout_ms"
  | checkInterval => "timeout_check_interval"
  | maxCallDepth => "max_call_depth"

/-- The first number that is too large for a limit. -/
def bound : Field → Nat
  | timeoutMs => Number.twoPow 64
  | checkInterval => Number.twoPow 32
  | maxCallDepth => Number.twoPow 32

/-- The limit with a name. -/
def ofName? (name : String) : Option Field := all.find? fun f => f.name = name

end Field

/-- The limits that were given, each at most once. -/
abbrev Given := List (Field × Nat)

/-- A limit as given, or its default. -/
def valueOf (given : Given) (f : Field) (fallback : Nat) : Nat :=
  (OrderedMap.lookup f given).getD fallback

/-- The limits with defaults for what was not given. -/
def ofGiven (given : Given) : Config :=
  let defaults : Config := {}
  { timeoutMs := valueOf given .timeoutMs defaults.timeoutMs
    checkInterval := valueOf given .checkInterval defaults.checkInterval
    maxCallDepth := valueOf given .maxCallDepth defaults.maxCallDepth }

/-- The value of a limit: a natural number in its range. -/
def readLimit? (f : Field) (cs : List Char) : Option (Nat × List Char) := do
  match ← readNumber? NumberLiteral.scaled? (skipSpace cs) with
  | (.natural n, rest) => if n < f.bound then some (n, rest) else none
  | _ => none

/-- One member, added to the limits given before. -/
def readMember? (given : Given) (cs : List Char) : Option (Given × List Char) := do
  let (name, rest) ← readName? cs
  match Field.ofName? name with
  | none => some (given, ← skipValue? rest)
  | some f =>
    if (OrderedMap.lookup f given).isSome then none
    else
      let (n, rest) ← readLimit? f rest
      some ((f, n) :: given, rest)

/-- The members of an object from the start of a member on. -/
def readGiven? : (fuel : Nat) → Given → List Char → Option (Given × List Char)
  | 0, _, _ => none
  | fuel + 1, given, cs => do
    let (given, rest) ← readMember? given cs
    match skipSpace rest with
    | '}' :: rest => some (given, rest)
    | ',' :: rest => readGiven? fuel given rest
    | _ => none

/-- The items of an array from the start of an item on, where the limits of the list are still to
be given. -/
def readInOrder? : List Field → List Char → Option (Given × List Char)
  | [], _ => none
  | f :: fs, cs => do
    let (n, rest) ← readLimit? f cs
    match skipSpace rest with
    | ']' :: rest => some ([(f, n)], rest)
    | ',' :: rest => do
      let (given, rest) ← readInOrder? fs rest
      some ((f, n) :: given, rest)
    | _ => none

/-- The limits at the start of a text. -/
def readConfig? (cs : List Char) : Option (Given × List Char) :=
  match skipSpace cs with
  | '{' :: rest =>
    match skipSpace rest with
    | '}' :: rest => some ([], rest)
    | rest => readGiven? (rest.length + 1) [] rest
  | '[' :: rest =>
    match skipSpace rest with
    | ']' :: rest => some ([], rest)
    | rest => readInOrder? Field.all rest
  | _ => none

/-- The limits of a text, none if it is not of the right form. -/
def parse? (text : String) : Option Config := do
  let (given, rest) ← readConfig? text.toList
  if (skipSpace rest).isEmpty then some (ofGiven given) else none

end ScriptEngine.Config
