import ScriptEngine.Builtin.Json
import ScriptEngine.Proofs.JsonGraph

/-!
# The text of a JSON tree

A serializer writes a container as the texts of its parts between brackets, on one line or, with an
indentation, each part on a line of its own. Only the indentation of a part depends on where in the
tree it stands.

## Main definitions

* `Serializer.text`: the text of a tree at an indentation.
* `Serializer.indentAt`: the indentation some levels deeper.

## Main results

* `Serializer.text_ofParts`: the text of a container from those of its parts.
* `Serializer.text_isInfix`: every part of a tree is written into the text of the tree.
-/

namespace ScriptEngine

namespace Serializer

mutual

/-- The text of a tree, where `indent` is the indentation outside. -/
def text (s : Serializer) (indent : String) : Json → String
  | .null => "null"
  | .bool b => if b then "true" else "false"
  | .number n => Json.renderNumber n
  | .string t => s.quote t
  | .array items => s.wrap indent "[" "]" (s.itemTexts (indent ++ s.gap) items)
  | .object members => s.wrap indent "\x7b" "\x7d" (s.memberTexts (indent ++ s.gap) members)

/-- The texts of the items of an array. -/
def itemTexts (s : Serializer) (indent : String) : List Json → List String
  | [] => []
  | j :: js => s.text indent j :: s.itemTexts indent js

/-- The texts of the members of an object. -/
def memberTexts (s : Serializer) (indent : String) : List (String × Json) → List String
  | [] => []
  | (name, j) :: rest =>
    s.member (.ofString name) (s.text indent j) :: s.memberTexts indent rest

end

/-- The indentation some levels deeper. -/
def indentAt (s : Serializer) (indent : String) : (levels : Nat) → String
  | 0 => indent
  | levels + 1 => s.indentAt (indent ++ s.gap) levels

variable {s : Serializer} {indent opening closing part : String} {parts : List String}

theorem itemTexts_eq (s : Serializer) (indent : String) (items : List Json) :
    s.itemTexts indent items = items.map (s.text indent) := by
  induction items with
  | nil => simp only [itemTexts, List.map_nil]
  | cons j js ih => simp only [itemTexts, ih, List.map_cons]

theorem memberTexts_eq (s : Serializer) (indent : String) (members : List (String × Json)) :
    s.memberTexts indent members
      = members.map fun m => s.member (.ofString m.1) (s.text indent m.2) := by
  induction members with
  | nil => simp only [memberTexts, List.map_nil]
  | cons m rest ih => simp only [memberTexts, ih, List.map_cons]

/-- A primitive value is written as its tree. -/
theorem primitive?_eq (s : Serializer) (indent : String) {v : Value} (hv : v.isObject = false) :
    s.primitive? v = v.tree?.map (s.text indent) := by
  cases v with
  | number n =>
    cases hn : n.isFinite <;> simp [primitive?, Value.tree?, hn, text, Json.renderNumber]
  | object => cases hv
  | _ => simp [primitive?, Value.tree?, text]

/-- A member is written under the text of its key. -/
theorem member_ofString_text (s : Serializer) (k : PropertyKey) (t : String) :
    s.member (.ofString k.text) t = s.member k t := by
  rw [member, member, PropertyKey.text_ofString]

/-- The text of a container from those of its parts. -/
theorem text_ofParts (s : Serializer) (indent : String) (isArray : Bool) (keys : List PropertyKey)
    (trees : PropertyKey → Option Json) :
    s.text indent (.ofParts isArray keys trees)
      = if isArray then s.wrap indent "[" "]"
          (keys.map fun k => ((trees k).map (s.text (indent ++ s.gap))).getD "null")
        else s.wrap indent "\x7b" "\x7d"
          (keys.filterMap fun k =>
            ((trees k).map (s.text (indent ++ s.gap))).map (s.member k)) := by
  cases isArray with
  | true =>
    rw [Json.ofParts, if_pos rfl, if_pos rfl, text, itemTexts_eq, List.map_map]
    refine congrArg _ (List.map_congr_left fun k _ => ?_)
    cases h : trees k <;> simp [h, text]
  | false =>
    rw [Json.ofParts, if_neg Bool.false_ne_true, if_neg Bool.false_ne_true, text, memberTexts_eq,
      List.map_filterMap]
    refine congrArg _ (List.filterMap_congr fun k _ => ?_)
    cases trees k with
    | none => rfl
    | some t => exact congrArg some (member_ofString_text s k _)

/-! ### Parts inside a text -/

theorem isInfix_intercalate {separator : String} (h : part ∈ parts) :
    part.toList <:+: (separator.intercalate parts).toList := by
  induction parts with
  | nil => cases h
  | cons first rest ih =>
    by_cases hrest : rest = []
    · subst hrest
      obtain rfl := List.mem_singleton.mp h
      rw [String.intercalate_singleton]
    · rw [String.intercalate_cons_of_ne_nil hrest, String.toList_append, String.toList_append]
      rcases List.mem_cons.mp h with rfl | h
      · exact ⟨[], _, List.append_assoc .. |>.symm⟩
      · exact (ih h).trans (List.suffix_append _ _).isInfix

theorem isInfix_wrap (s : Serializer) (indent opening closing : String) (h : part ∈ parts) :
    part.toList <:+: (s.wrap indent opening closing parts).toList := by
  unfold wrap
  rw [if_neg (by simp [List.ne_nil_of_mem h])]
  split
  · rw [String.toList_append, String.toList_append]
    exact (isInfix_intercalate h).trans (List.infix_append ..)
  · simp only [String.toList_append]
    rw [List.append_assoc _ "\n".toList, List.append_assoc _ _ closing.toList]
    exact (isInfix_intercalate h).trans (List.infix_append ..)

theorem isInfix_member (s : Serializer) (k : PropertyKey) (t : String) :
    t.toList <:+: (s.member k t).toList := by
  rw [member, String.toList_append]
  exact (List.suffix_append _ _).isInfix

/-- A part of a tree is written into the text of the tree. -/
theorem text_isInfix_of_part? {t part : Json} {k : PropertyKey} (h : t.part? k = some part) :
    (s.text (indent ++ s.gap) part).toList <:+: (s.text indent t).toList := by
  cases t with
  | array items =>
    obtain ⟨i, -, hi⟩ := Option.bind_eq_some_iff.mp h
    rw [text, itemTexts_eq]
    exact isInfix_wrap s _ _ _ (List.mem_map_of_mem (List.mem_of_getElem? hi))
  | object members =>
    have hmem := OrderedMap.mem_of_lookup h
    rw [text, memberTexts_eq]
    refine (isInfix_member s (.ofString k.text) _).trans (isInfix_wrap s _ _ _ ?_)
    exact List.mem_map.mpr ⟨_, hmem, rfl⟩
  | _ => cases h

/-- What a path leads to in a tree is written into the text of the tree, indented by the length of
the path. -/
theorem text_isInfix {t part : Json} {path : List PropertyKey} (h : t.at? path = some part) :
    (s.text (s.indentAt indent path.length) part).toList <:+: (s.text indent t).toList := by
  induction path generalizing t indent with
  | nil =>
    cases h
    exact List.infix_refl _
  | cons k path ih =>
    obtain ⟨t', hpart, h⟩ := Option.bind_eq_some_iff.mp h
    exact (ih h).trans (text_isInfix_of_part? hpart)

end Serializer

end ScriptEngine
