import ScriptEngine.Json.Reader

/-!
# Skipping JSON values

A value that nobody is interested in only has to have the right form. Its numbers may lie outside
the range of doubles, its escapes may name unpaired surrogates, and its containers may be nested as
deep as one likes.

## Main definitions

* `Json.skipValue?`: the text after a value.
-/

namespace ScriptEngine.Json

/-- The text after an escape, from the character after the backslash on. -/
def skipEscape? : List Char → Option (List Char)
  | 'u' :: rest => (readHex? rest).map Prod.snd
  | c :: rest => if "\"\\/bfnrt".toList.contains c then some rest else none
  | [] => none

/-- The text after a string, from its opening quote on. -/
def skipString? : (fuel : Nat) → List Char → Option (List Char)
  | 0, _ => none
  | _ + 1, '"' :: rest => some rest
  | fuel + 1, '\\' :: rest => do skipString? fuel (← skipEscape? rest)
  | fuel + 1, c :: rest => if c.toNat < 32 then none else skipString? fuel rest
  | _ + 1, [] => none

/-- The text after the exponent of a number, if there is one. -/
def skipExponent? (cs : List Char) : Option (List Char) :=
  if startsExponent cs then (readExponent? (cs.drop 1)).map Prod.snd else some cs

/-- The text after a number. -/
def skipNumber? (cs : List Char) : Option (List Char) := do
  let unsigned := match cs with
    | '-' :: rest => rest
    | cs => cs
  let (_, rest) ← readWhole? unsigned
  let (_, rest) ← readFraction? rest
  skipExponent? rest

/-- The text after the items of an array, from the start of an item on. -/
def skipItems? (item : List Char → Option (List Char)) : (fuel : Nat) → List Char →
    Option (List Char)
  | 0, _ => none
  | fuel + 1, cs => do
    match skipSpace (← item cs) with
    | ']' :: rest => some rest
    | ',' :: rest => skipItems? item fuel rest
    | _ => none

/-- The text after the name of a member and its colon. -/
def skipName? (cs : List Char) : Option (List Char) := do
  match skipSpace cs with
  | '"' :: rest =>
    match skipSpace (← skipString? (rest.length + 1) rest) with
    | ':' :: rest => some rest
    | _ => none
  | _ => none

/-- The text after the members of an object, from the start of a member on. -/
def skipMembers? (item : List Char → Option (List Char)) : (fuel : Nat) → List Char →
    Option (List Char)
  | 0, _ => none
  | fuel + 1, cs => do
    match skipSpace (← item (← skipName? cs)) with
    | '}' :: rest => some rest
    | ',' :: rest => skipMembers? item fuel rest
    | _ => none

/-- The text after a value in which containers are nested less than `fuel` deep. -/
def skipNested? : (fuel : Nat) → List Char → Option (List Char)
  | 0, _ => none
  | fuel + 1, cs =>
    match skipSpace cs with
    | 'n' :: rest => (readWord? "null" .null ('n' :: rest)).map Prod.snd
    | 't' :: rest => (readWord? "true" .null ('t' :: rest)).map Prod.snd
    | 'f' :: rest => (readWord? "false" .null ('f' :: rest)).map Prod.snd
    | '"' :: rest => skipString? (rest.length + 1) rest
    | '[' :: rest =>
      match skipSpace rest with
      | ']' :: rest => some rest
      | rest => skipItems? (skipNested? fuel) (rest.length + 1) rest
    | '{' :: rest =>
      match skipSpace rest with
      | '}' :: rest => some rest
      | rest => skipMembers? (skipNested? fuel) (rest.length + 1) rest
    | cs => skipNumber? cs

/-- The text after a value; a text cannot be nested deeper than it is long. -/
def skipValue? (cs : List Char) : Option (List Char) := skipNested? (cs.length + 1) cs

end ScriptEngine.Json
