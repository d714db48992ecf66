import ScriptEngine.Json.Reader
import ScriptEngine.Proofs.JsonTree
import ScriptEngine.Proofs.NumberText
import ScriptEngine.Proofs.NumericGrammar
import ScriptEngine.Text.Units

/-!
# The grammar of JSON

Which texts spell a tree. A character of a string stands for itself, or is escaped by a letter or by
its code units. A number spells the double that is nearest to what its literal denotes. Around a
value there may be blanks.

## Main definitions

* `Json.SpellsString`, `Json.SpellsNumber`: the texts of strings and numbers.
* `Json.Spells`: the texts of trees.
* `Json.Library.Correct`: a library reads what spells a tree as the tree, and what it quotes spells
  the string.
-/

namespace ScriptEngine

/-- A number that a literal rounds to: zero for a literal that denotes zero, or else the number
whose interval the literal lies in. -/
def Number.DecimalLiteral.RoundsTo (l : Number.DecimalLiteral) (x : Float) : Prop :=
  l.toRat = 0 ∧ x = 0.0 ∨ Number.RoundsToFloat l.toRat x

namespace Json

/-- Characters that are all blanks. -/
def IsBlank (cs : List Char) : Prop := ∀ c ∈ cs, isSpace c

/-! ### Numbers -/

/-- A literal without its sign. Its digits have no needless zero in front, and there is a digit
after the point. -/
inductive UnsignedText : List Char → Number.DecimalLiteral → Prop
  | intro {whole point fraction exponent : List Char} {e : Int} (hne : whole ≠ [])
      (hwhole : ∀ c ∈ whole, c.isDigit) (hzero : whole.head? = some '0' → whole = ['0'])
      (hpoint : Number.PointText point fraction) (hfraction : fraction = [] → point = [])
      (hexponent : Number.ExponentText exponent e) :
      UnsignedText (whole ++ (point ++ exponent)) ⟨whole, fraction, e⟩

/-- The text of a number: a literal that rounds to its magnitude, after a minus or none. -/
inductive SpellsNumber : List Char → Float → Prop
  | positive {text : List Char} {l : Number.DecimalLiteral} {x : Float} (h : UnsignedText text l)
      (hx : l.RoundsTo x) : SpellsNumber text x
  | negative {text : List Char} {l : Number.DecimalLiteral} {x : Float} (h : UnsignedText text l)
      (hx : l.RoundsTo x) : SpellsNumber ('-' :: text) (-x)

/-! ### Strings -/

/-- The letters that stand for characters after a backslash. -/
def escapeLetters : List (Char × Char) :=
  [('"', '"'), ('\\', '\\'), ('/', '/'), ('b', Char.ofNat 8), ('f', Char.ofNat 12), ('n', '\n'),
    ('r', '\r'), ('t', '\t')]

/-- Four hexadecimal digits spell a code unit. -/
inductive SpellsUnit : List Char → UInt16 → Prop
  | intro {a b c d : Char} {i j k l : Nat} {u : UInt16} (ha : Number.digitValue? 16 a = some i)
      (hb : Number.digitValue? 16 b = some j) (hc : Number.digitValue? 16 c = some k)
      (hd : Number.digitValue? 16 d = some l) (hu : u.toNat = ((i * 16 + j) * 16 + k) * 16 + l) :
      SpellsUnit ['\\', 'u', a, b, c, d] u

/-- What stands for a character in a string. -/
inductive SpellsChar : List Char → Char → Prop
  | plain {c : Char} (hquote : c ≠ '"') (hslash : c ≠ '\\') (hcontrol : 32 ≤ c.toNat) :
      SpellsChar [c] c
  | letter {l c : Char} (h : (l, c) ∈ escapeLetters) : SpellsChar ['\\', l] c
  | units {texts : List (List Char)} {c : Char}
      (h : List.Forall₂ SpellsUnit texts (Text.charUnits c)) : SpellsChar texts.flatten c

/-- The text of a string. -/
inductive SpellsString : List Char → String → Prop
  | intro {texts : List (List Char)} {s : String} (h : List.Forall₂ SpellsChar texts s.toList) :
      SpellsString ('"' :: (texts.flatten ++ ['"'])) s

/-! ### Trees -/

/-- The text of the name of a member, which may have blanks around it. -/
inductive SpellsName : List Char → String → Prop
  | intro {before text after : List Char} {name : String} (hbefore : IsBlank before)
      (h : SpellsString text name) (hafter : IsBlank after) :
      SpellsName (before ++ (text ++ after)) name

/-- The member of an object and its text. -/
structure MemberText where
  name : String
  nameText : List Char
  value : Json
  valueText : List Char

/-- The whole text of a member. -/
def MemberText.text (m : MemberText) : List Char := m.nameText ++ ':' :: m.valueText

/-- The texts of a tree whose containers are nested at most `depth` deep. -/
inductive Spells : (depth : Nat) → List Char → Json → Prop
  | null {depth : Nat} : Spells depth "null".toList null
  | bool {depth : Nat} (b : Bool) : Spells depth (if b then "true" else "false").toList (bool b)
  | number {depth : Nat} {text : List Char} {n : JsonNumber} (h : SpellsNumber text n.toFloat) :
      Spells depth text (number n)
  | string {depth : Nat} {text : List Char} {s : String} (h : SpellsString text s) :
      Spells depth text (string s)
  | array {depth : Nat} {items : List (List Char × Json)} {blank : List Char}
      (h : ∀ i ∈ items, Spells depth i.1 i.2) (hblank : IsBlank blank) :
      Spells (depth + 1) ('[' :: ([','].intercalate (items.map Prod.fst) ++ (blank ++ [']'])))
        (array (items.map Prod.snd))
  | object {depth : Nat} {members : List MemberText} {blank : List Char}
      (hnames : (members.map MemberText.name).Nodup)
      (hname : ∀ m ∈ members, SpellsName m.nameText m.name)
      (h : ∀ m ∈ members, Spells depth m.valueText m.value) (hblank : IsBlank blank) :
      Spells (depth + 1)
        ('{' :: ([','].intercalate (members.map MemberText.text) ++ (blank ++ ['}'])))
        (object (members.map fun m => (m.name, m.value)))
  | blanks {depth : Nat} {before text after : List Char} {t : Json} (hbefore : IsBlank before)
      (h : Spells depth text t) (hafter : IsBlank after) :
      Spells depth (before ++ (text ++ after)) t

/-- Whether a library is right about the texts of trees nested at most `depth` deep, up to how it
represents numbers. -/
structure Library.Correct (library : Library) (depth : Nat) : Prop where
  parse : ∀ (text : String) (t : Json), Spells depth text.toList t →
    ∃ t', library.parse text = .ok t' ∧ t'.floats = t.floats
  quote : ∀ s : String, SpellsString (library.quote s).toList s

end Json
end ScriptEngine
