import ScriptEngine.Text.LetterCase.Table

/-!
# Letter case

Full case conversion of strings. Every character is mapped by itself, except that a capital sigma
at the end of a word becomes a final sigma.

## Main definitions

* `Text.toUpper`, `Text.toLower`: a string in upper or lower case.
-/

namespace ScriptEngine.Text

/-- The image of a character value under a run that covers it. -/
def CaseRun.apply? (r : CaseRun) (n : Nat) : Option Nat :=
  if r.first ≤ n && n ≤ r.last && (n - r.first) % r.step == 0 then some (r.image + (n - r.first))
  else none

/-- The images of a character under a table of runs and a table of exceptions. -/
def mapCase (runs : Array CaseRun) (special : Array (Nat × List Nat)) (c : Char) : List Char :=
  match runs.findSome? fun r => r.apply? c.toNat with
  | some n => [Char.ofNat n]
  | none =>
    match special.find? fun e => e.1 == c.toNat with
    | some (_, ns) => ns.map Char.ofNat
    | none => [c]

/-- The upper case of a character. -/
def charUpper (c : Char) : List Char := mapCase upperRuns upperSpecial c

/-- The lower case of a character. -/
def charLower (c : Char) : List Char := mapCase lowerRuns lowerSpecial c

/-- Membership in a table of ranges. -/
def inRanges (ranges : Array (Nat × Nat)) (c : Char) : Bool :=
  ranges.any fun (lo, hi) => lo ≤ c.toNat && c.toNat ≤ hi

/-- Whether the first character that may not be passed over has case. -/
def meetsCased (cs : List Char) : Bool :=
  match cs.dropWhile (inRanges ignorableRanges) with
  | c :: _ => inRanges casedRanges c
  | [] => false

/-- The capital sigma. -/
def capitalSigma : Char := Char.ofNat 0x3A3

/-- Lower case of a list of characters; `before` holds those already passed, the last one first. A
capital sigma is final if a cased character comes before it and none after it. -/
def lowerList : List Char → List Char → List Char
  | _, [] => []
  | before, c :: cs =>
    let image :=
      if c = capitalSigma then
        [Char.ofNat (if meetsCased before && !meetsCased cs then 0x3C2 else 0x3C3)]
      else charLower c
    image ++ lowerList (c :: before) cs

/-- A string in upper case. -/
def toUpper (s : String) : String := String.ofList (s.toList.flatMap charUpper)

/-- A string in lower case. -/
def toLower (s : String) : String := String.ofList (lowerList [] s.toList)

end ScriptEngine.Text
