import ScriptEngine.Text.Units

/-!
# Splitting and padding text

Parts of a list of code units between occurrences of a separator, and repetition up to a length.

## Main definitions

* `Text.splitUnits`: the parts between the occurrences of a separator.
* `Text.cycle`: a list repeated up to a length.
* `Text.pointAt?`: the code point that starts at a position.
-/

namespace ScriptEngine.Text

/-- The parts of a list between the occurrences of a separator, which are looked for from the left.
The first `skip` units belong to a separator that has been found; `part` holds the units of the
current part, the last one first. -/
def splitFrom (separator : List UInt16) :
    (skip : Nat) → (part : List UInt16) → List UInt16 → List (List UInt16)
  | _, part, [] => [part.reverse]
  | skip + 1, part, _ :: us => splitFrom separator skip part us
  | 0, part, u :: us =>
    if separator.isPrefixOf (u :: us) then
      part.reverse :: splitFrom separator (separator.length - 1) [] us
    else splitFrom separator 0 (u :: part) us

/-- The parts of a list between the occurrences of a separator; an empty separator cuts between any
two units. -/
def splitUnits (separator us : List UInt16) : List (List UInt16) :=
  if separator.isEmpty then us.map fun u => [u] else splitFrom separator 0 [] us

/-- The first `n` units of a list repeated without end. -/
def cycle (us : List UInt16) (n : Nat) : List UInt16 :=
  if us.isEmpty then []
  else ((List.replicate (n / us.length + 1) us).flatten).take n

/-- The code point that starts at a position; half of a pair stands for itself. -/
def pointAt? (us : List UInt16) (i : Nat) : Option Nat :=
  match us.drop i with
  | [] => none
  | [u] => some u.toNat
  | u :: v :: _ => if isLeading u && isTrailing v then some (pairValue u v) else some u.toNat

end ScriptEngine.Text
