/-!
# White space

The characters that separate tokens are skipped around numeric literals and removed by trimming.

## Main definitions

* `Text.isBlank`: the class of blank characters.
* `Text.trim`, `Text.trimStart`, `Text.trimEnd`: a string without its blank ends.
-/

namespace ScriptEngine.Text

/-- Horizontal and vertical spaces, line ends, the no-break space, the byte order mark and every
other space separator outside ASCII, the next-line control character among them. -/
def isBlank (c : Char) : Bool :=
  let n := c.toNat
  (0x09 ≤ n && n ≤ 0x0D) || n == 0x20 || n == 0x85 || n == 0xA0 || n == 0x1680
    || (0x2000 ≤ n && n ≤ 0x200A) || n == 0x2028 || n == 0x2029 || n == 0x202F || n == 0x205F
    || n == 0x3000 || n == 0xFEFF

/-- A list without its leading blanks. -/
def dropBlank (cs : List Char) : List Char := cs.dropWhile isBlank

/-- A list without its trailing blanks. -/
def dropBlankEnd (cs : List Char) : List Char := (dropBlank cs.reverse).reverse

/-- A string without its leading blanks. -/
def trimStart (s : String) : String := String.ofList (dropBlank s.toList)

/-- A string without its trailing blanks. -/
def trimEnd (s : String) : String := String.ofList (dropBlankEnd s.toList)

/-- A string without the blanks at both ends. -/
def trim (s : String) : String := String.ofList (dropBlankEnd (dropBlank s.toList))

end ScriptEngine.Text
