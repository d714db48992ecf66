import ScriptEngine.Json.Basic
import ScriptEngine.Number.Printer

/-!
# Writing JSON

Compact texts of JSON values, and the quoting of strings.

## Main definitions

* `Json.quote`: a string as JSON text.
* `Json.render`: a value as JSON text.
-/

namespace ScriptEngine.Json

/-- A hexadecimal digit in lower case. -/
def hexDigit (n : Nat) : Char := Number.digitChar (n % 16)

/-- The characters that stand for a character inside quotes. Quotes, backslashes and control
characters are escaped, the latter by a letter if there is one. -/
def escape (c : Char) : List Char :=
  if c = '"' then ['\\', '"']
  else if c = '\\' then ['\\', '\\']
  else if c = '\n' then ['\\', 'n']
  else if c = '\r' then ['\\', 'r']
  else if c = '\t' then ['\\', 't']
  else if c.toNat = 8 then ['\\', 'b']
  else if c.toNat = 12 then ['\\', 'f']
  else if c.toNat < 32 then ['\\', 'u', '0', '0', hexDigit (c.toNat / 16), hexDigit c.toNat]
  else [c]

/-- A string between quotes. -/
def quote (s : String) : String := "\"" ++ String.ofList (s.toList.flatMap escape) ++ "\""

/-- The text of a number. A double that is not finite has no text of its own. -/
def renderNumber : JsonNumber → String
  | .natural n => Nat.repr n
  | .negative n => "-" ++ Nat.repr n
  | .float x => if x.isFinite then Number.toText x else "null"

mutual

/-- The text of a value. -/
def render : Json → String
  | null => "null"
  | bool b => if b then "true" else "false"
  | number n => renderNumber n
  | string s => quote s
  | array items => "[" ++ String.intercalate "," (renderItems items) ++ "]"
  | object members => "\x7b" ++ String.intercalate "," (renderMembers members) ++ "\x7d"

/-- The texts of the items of an array. -/
def renderItems : List Json → List String
  | [] => []
  | j :: js => render j :: renderItems js

/-- The texts of the members of an object. -/
def renderMembers : List (String × Json) → List String
  | [] => []
  | (name, j) :: rest => (quote name ++ ":" ++ render j) :: renderMembers rest

end

end ScriptEngine.Json
