import ScriptEngine.Number.Reader
import ScriptEngine.Script.Form

/-!
# Reading scripts

The program that a JSON tree stands for. Every tree stands for some program: what is not written as
the language wants becomes an expression that fails when it is evaluated, and where an operand is
left out, a program that comes to it has no answer. Code is strict or not where it is written, so
the reader passes strictness down.

## Main definitions

* `literalNumber`: the number that a text names.
* `readExpression`, `readStatement`: the syntax of a tree.
* `Expression.ofJson`, `Statement.ofJson`: the same without a bound.
-/

namespace ScriptEngine.Script

/-! ### Depth of trees -/

mutual

/-- How deep the containers of a tree are nested. -/
def depth : Json → Nat
  | .array items => depthOfItems items + 1
  | .object members => depthOfMembers members + 1
  | _ => 0

/-- The greatest depth among items. -/
def depthOfItems : List Json → Nat
  | [] => 0
  | j :: js => max (depth j) (depthOfItems js)

/-- The greatest depth among members. -/
def depthOfMembers : List (String × Json) → Nat
  | [] => 0
  | (_, j) :: rest => max (depth j) (depthOfMembers rest)

end

/-! ### Literals -/

/-- The bits that hexadecimal digits spell. -/
def bitsOfHex (digits : String) : UInt64 :=
  UInt64.ofNat (digits.toList.foldl (fun n c => n * 16 + (Number.digitValue? 16 c).getD 0) 0)

/-- The number that a text names: one without a JSON literal, or one given by its bits. -/
def literalNumber (text : String) : Float :=
  match text with
  | "NaN" => Number.nan
  | "Infinity" => Number.infinity
  | "-Infinity" => Number.negInfinity
  | "-0" => Number.negZero
  | digits => Float.ofBits (bitsOfHex digits)

/-- The value of a literal. -/
def literal? : Json → Option Value
  | .null => some .null
  | .bool b => some (.bool b)
  | .string s => some (.string s)
  | .number n => some (.number n.toFloat)
  | .array [.string "u"] => some .undefined
  | .array [.string "f", .string text] => some (.number (literalNumber text))
  | _ => none

/-! ### Functions -/

/-- A member that is a truth value; a missing one is false. -/
def flagMember (j : Json) (name : String) : Bool := ((j.member? name).bind Json.bool?).getD false

/-- A member that is a text. -/
def textMember? (j : Json) (name : String) : Option String := (j.member? name).bind Json.string?

/-- What a function is besides its body. -/
def traitsOf (strict : Bool) (spec : Json) : FunctionTraits :=
  { name := textMember? spec "name"
    word := textMember? spec "prefix"
    params := (((spec.member? "params").bind Json.items?).getD []).filterMap Json.string?
    strict := ((spec.member? "strict").bind Json.bool?).getD strict
    isArrow := flagMember spec "arrow"
    isConstructor := flagMember spec "ctor"
    isClass := flagMember spec "class"
    isDerived := flagMember spec "derived"
    scope := textMember? spec "env" }

/-! ### Expressions and statements -/

/-- The items of a list in an optional tree. -/
def optionalItems : Option Json → Option (List Json)
  | some (.array items) => some items
  | _ => none

/-- An expression that is none of the language. -/
def unknownForm : Expression := .apply .unknown []

/-- The statements that are none of expressions. -/
def statementNames : List String :=
  ["block", "if", "while", "return", "throw", "break", "continue", "empty", "try"]

/-- What is done with an outcome, by the name of the form, and the item that gives the outcome. -/
def observationOf? (name : String) (items : List Json) : Option (Observation × Option Json) :=
  match name with
  | "display" => some (.display, items[0]?)
  | "errkind" => some (.classify, items[0]?)
  | "completion_of" => some (.complete, items[0]?)
  | "enrich" => some (.enrich (textItem items 0), items[1]?)
  | "iter.close" => some (.closeIterator (textItem items 0), items[1]?)
  | _ => none

mutual

/-- The expression of a tree, as deep as the fuel allows. -/
def readExpression (strict : Bool) : (fuel : Nat) → Json → Expression
  | 0, _ => unknownForm
  | fuel + 1, j =>
    match literal? j, j with
    | some v, _ => .literal v
    | none, .array (.string name :: items) =>
      if statementNames.contains name then .statement (readStatement strict fuel j)
      else readForm strict fuel name items
    | none, _ => unknownForm

/-- The expression of an operand that has to be there. -/
def readOperand (strict : Bool) : (fuel : Nat) → Option Json → Expression
  | 0, _ => unknownForm
  | fuel + 1, some j => readExpression strict fuel j
  | _ + 1, none => .missing

/-- The expression of a form. -/
def readForm (strict : Bool) : (fuel : Nat) → String → List Json → Expression
  | 0, _, _ => unknownForm
  | fuel + 1, name, items =>
    let expression := readExpression strict fuel
    let operand := readOperand strict fuel
    match name with
    | "set" => .assign (textItem items 0) strict (operand items[1]?)
    | "seq" => .sequence (items.map expression)
    | "log" => .log (items.map expression)
    | "fn" => readFunction strict fuel (item items 0)
    | "gen" => .generator ((listItem items 0).map (readItem strict fuel))
    | "gen.start" =>
      .startGenerator (operand items[0]?) ((listItem items 1).map (readItem strict fuel))
    | "obj" => .object (items.map (readMember strict fuel))
    | "arr" => .array (items.map (readElement strict fuel))
    | "super" => .superProperty .get strict (operand items[0]?) none
    | "superset" => .superProperty .put strict (operand items[0]?) (some (operand items[1]?))
    | "superdel" => .superProperty .delete strict (operand items[0]?) none
    | "supercall" => .superCall (items.map fun j => readPart strict fuel (argumentPart j))
    | "execute" => .execute (operand items[0]?)
    | "env.within" => .within (textItem items 0) (operand items[1]?)
    | name =>
      match observationOf? name items, operationOf? strict name items with
      | some (how, j?), _ => .observe how (operand j?)
      | none, some (op, parts) => .apply op (parts.map (readPart strict fuel))
      | none, none => unknownForm

/-- A part of an expression. -/
def readPart (strict : Bool) : (fuel : Nat) → RawPart → Part
  | 0, _ => .noScope
  | fuel + 1, part =>
    match part with
    | .one use j? => .one use (readOperand strict fuel j?)
    | .spread j => .spread (readExpression strict fuel j)
    | .scope name => .scope name
    | .noScope => .noScope

/-- A function. -/
def readFunction (strict : Bool) : (fuel : Nat) → Json → Expression
  | 0, _ => unknownForm
  | fuel + 1, spec =>
    let traits := traitsOf strict spec
    let items := (optionalItems (spec.member? "body")).getD []
    let body :=
      if flagMember spec "gen" then .generator (items.map (readItem traits.strict fuel))
      else .plain (items.map (readStatement traits.strict fuel))
    .function traits body ((spec.member? "home").map (readExpression strict fuel))

/-- A member of an object literal. -/
def readMember (strict : Bool) : (fuel : Nat) → Json → Member
  | 0, _ => .data unknownForm unknownForm
  | fuel + 1, j =>
    let expression := readExpression strict fuel
    let operand := readOperand strict fuel
    match j with
    | .array [.string "get", k, f] => .getter (expression k) (expression f)
    | .array [.string "set", k, f] => .setter (expression k) (expression f)
    | j =>
      let items := j.items?.getD []
      .data (operand items[0]?) (operand items[1]?)

/-- An element of an array literal, none for a hole. -/
def readElement (strict : Bool) : (fuel : Nat) → Json → Option Expression
  | 0, _ => none
  | fuel + 1, j =>
    match j with
    | .array [.string "hole"] => none
    | j => some (readExpression strict fuel j)

/-- The statement of a tree, as deep as the fuel allows. -/
def readStatement (strict : Bool) : (fuel : Nat) → Json → Statement
  | 0, _ => .expression unknownForm
  | fuel + 1, j =>
    let expression := readExpression strict fuel
    let operand := readOperand strict fuel
    let statement := readStatement strict fuel
    match j with
    | .array (.string name :: items) =>
      match name with
      | "block" => .block (items.map statement)
      | "if" =>
        .if (operand items[0]?) (((items[1]?).map statement).getD (.expression .missing))
          ((items[2]?).map statement)
      | "while" =>
        .while (operand items[0]?) ((listItem items 1).map statement) (textItem? items 2)
      | "return" => .return ((items[0]?).map expression)
      | "throw" => .throw (operand items[0]?)
      | "break" => .break (textItem? items 0)
      | "continue" => .continue (textItem? items 0)
      | "empty" => .empty
      | "try" =>
        .try ((listItem items 0).map statement) (textItem? items 1)
          ((optionalItems items[2]?).map fun list => list.map statement)
          ((optionalItems items[3]?).map fun list => list.map statement)
      | _ => .expression (expression j)
    | j => .expression (expression j)

/-- A statement of the body of a generator. -/
def readItem (strict : Bool) : (fuel : Nat) → Json → GeneratorItem
  | 0, _ => .plain .empty
  | fuel + 1, j =>
    let statements (j? : Option Json) : Option (List Statement) :=
      (optionalItems j?).map fun list => list.map (readStatement strict fuel)
    match j with
    | .array (.string "yield" :: items) =>
      let options := item items 1
      .yield (readOperand strict fuel items[0]?)
        (.make (textMember? options "as") (statements (options.member? "onThrow"))
          (statements (options.member? "onReturn")) (flagMember options "keepGoing"))
    | .array (.string "jumpif" :: items) =>
      .jumpIf (readOperand strict fuel items[0]?) (natItem items 1)
    | j => .plain (readStatement strict fuel j)

end

/-- Fuel that is enough for a tree: each container is read in at most five steps. -/
def fuelFor (j : Json) : Nat := 5 * depth j + 5

/-- The expression of a tree. -/
def Expression.ofJson (strict : Bool) (j : Json) : Expression :=
  readExpression strict (fuelFor j) j

/-- The statement of a tree. -/
def Statement.ofJson (strict : Bool) (j : Json) : Statement := readStatement strict (fuelFor j) j

/-- The function of a description. -/
def Expression.functionOfJson (strict : Bool) (spec : Json) : Expression :=
  readFunction strict (fuelFor spec) spec

end ScriptEngine.Script
