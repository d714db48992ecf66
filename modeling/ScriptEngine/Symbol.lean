/-!
# Symbols

A symbol is an identity with an optional description. The well-known symbols take the first
identities; a realm hands out the others from `Symbol.firstFresh` on.

## Main definitions

* `Symbol`: identity and description.
* `WellKnownSymbol`: the symbols that the language itself looks up.
-/

namespace ScriptEngine

/-- A symbol value. Equal identities come with equal descriptions, since a realm never hands out
one identity twice. -/
structure Symbol where
  id : Nat
  description : Option String
deriving DecidableEq, Repr

namespace Symbol

/-- The first identity that a realm may give to a new symbol. -/
def firstFresh : Nat := 64

/-- The description in the form `Symbol(description)`. -/
def text (s : Symbol) : String := "Symbol(" ++ s.description.getD "" ++ ")"

end Symbol

/-- The symbols that the language itself looks up. -/
inductive WellKnownSymbol where
  | asyncIterator
  | hasInstance
  | isConcatSpreadable
  | iterator
  | match
  | matchAll
  | replace
  | search
  | species
  | split
  | toPrimitive
  | toStringTag
  | unscopables
deriving DecidableEq, Repr

namespace WellKnownSymbol

/-- Every well-known symbol, in the order of the identities. -/
def all : List WellKnownSymbol :=
  [asyncIterator, hasInstance, isConcatSpreadable, iterator, .match, matchAll, replace, search,
   species, split, toPrimitive, toStringTag, unscopables]

/-- The name as a property of the symbol constructor. -/
def name : WellKnownSymbol → String
  | asyncIterator => "asyncIterator"
  | hasInstance => "hasInstance"
  | isConcatSpreadable => "isConcatSpreadable"
  | iterator => "iterator"
  | .match => "match"
  | matchAll => "matchAll"
  | replace => "replace"
  | search => "search"
  | species => "species"
  | split => "split"
  | toPrimitive => "toPrimitive"
  | toStringTag => "toStringTag"
  | unscopables => "unscopables"

/-- The symbol value; its identity is the place in `all`, counted from one. -/
def symbol (w : WellKnownSymbol) : Symbol :=
  { id := all.idxOf w + 1, description := some ("Symbol." ++ w.name) }

/-- The well-known symbol with a given name. -/
def ofName? (name : String) : Option WellKnownSymbol := all.find? fun w => w.name = name

end WellKnownSymbol
end ScriptEngine
