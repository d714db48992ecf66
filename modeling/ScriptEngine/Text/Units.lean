/-!
# Code units of text

A string is a list of Unicode scalar values, but the language measures, indexes, compares and
cuts it in 16-bit code units. This module gives that view and its lossy inverse: an unpaired
surrogate has no scalar value and is read as the replacement character.

## Main definitions

* `Text.units`: the code units of a string.
* `Text.ofUnits`: the string that a list of code units spells.
* `Text.unitLength`, `Text.unitAt?`, `Text.compareUnits`: length, indexing and order by units.
-/

namespace ScriptEngine.Text

/-- The character that stands for an unpaired surrogate. -/
def replacement : Char := Char.ofNat 0xFFFD

/-! ### Surrogates -/

/-- The first half of a pair. -/
def isLeading (u : UInt16) : Bool := 0xD800 ≤ u && u ≤ 0xDBFF

/-- The second half of a pair. -/
def isTrailing (u : UInt16) : Bool := 0xDC00 ≤ u && u ≤ 0xDFFF

/-- The scalar value that a leading and a trailing surrogate encode together. -/
def pairValue (lead trail : UInt16) : Nat :=
  0x10000 + (lead.toNat - 0xD800) * 0x400 + (trail.toNat - 0xDC00)

/-- The character of a unit that stands alone. -/
def loneChar (u : UInt16) : Char :=
  if isLeading u || isTrailing u then replacement else Char.ofNat u.toNat

/-! ### Encoding and decoding -/

/-- One unit below `U+10000`, a surrogate pair above. -/
def charUnits (c : Char) : List UInt16 :=
  if c.toNat < 0x10000 then [UInt16.ofNat c.toNat]
  else
    [UInt16.ofNat (0xD800 + (c.toNat - 0x10000) / 0x400),
     UInt16.ofNat (0xDC00 + (c.toNat - 0x10000) % 0x400)]

/-- The code units of a string. -/
def units (s : String) : List UInt16 := s.toList.flatMap charUnits

/-- The characters that a list of code units spells, pairs being joined from the left. -/
def decode : List UInt16 → List Char
  | [] => []
  | [u] => [loneChar u]
  | u :: v :: rest =>
    if isLeading u && isTrailing v then Char.ofNat (pairValue u v) :: decode rest
    else loneChar u :: decode (v :: rest)

/-- The string that a list of code units spells. -/
def ofUnits (us : List UInt16) : String := String.ofList (decode us)

/-! ### Measuring and comparing -/

/-- How many units a character takes. -/
def unitSize (c : Char) : Nat := if c.toNat < 0x10000 then 1 else 2

/-- The length of a string in code units. It is known without a look at the characters where each of
them takes one byte, and so one unit. -/
def unitLength (s : String) : Nat :=
  if s.utf8ByteSize = s.length then s.length else s.toList.foldl (fun n c => n + unitSize c) 0

/-- The code unit at a position. -/
def unitAt? (s : String) (i : Nat) : Option UInt16 := (units s)[i]?

/-- Lexicographic order of code units. -/
def compareLists : List UInt16 → List UInt16 → Ordering
  | [], [] => .eq
  | [], _ :: _ => .lt
  | _ :: _, [] => .gt
  | a :: as, b :: bs => if a < b then .lt else if b < a then .gt else compareLists as bs

/-- The order of strings by their code units; it differs from the order by scalar values above
`U+FFFF`. -/
def compareUnits (s t : String) : Ordering := compareLists (units s) (units t)

/-! ### Searching -/

/-- The part of a list of units from `start` up to but not including `stop`. -/
def cut (us : List UInt16) (start stop : Nat) : List UInt16 := (us.drop start).take (stop - start)

/-- The first position at or after which `needle` occurs in `hay`, where `pos` is the position of
the head of `hay`. -/
def findFrom (needle : List UInt16) : List UInt16 → Nat → Option Nat
  | [], pos => if needle.isEmpty then some pos else none
  | u :: us, pos =>
    if needle.isPrefixOf (u :: us) then some pos else findFrom needle us (pos + 1)

/-- The leftmost occurrence of `needle` in `hay` that starts at `start` or later. -/
def find? (hay needle : List UInt16) (start : Nat) : Option Nat :=
  if hay.length < start then none else findFrom needle (hay.drop start) start

/-- The rightmost occurrence of `needle` in `hay` that starts at `start` or earlier. -/
def findLast? (hay needle : List UInt16) : Nat → Option Nat
  | 0 => if needle.isPrefixOf hay then some 0 else none
  | n + 1 => if needle.isPrefixOf (hay.drop (n + 1)) then some (n + 1) else findLast? hay needle n

end ScriptEngine.Text
