import ScriptEngine.Builtin.Array
import ScriptEngine.Proofs.ElementRun
import ScriptEngine.Proofs.RelativeIndex

/-!
# Arrays as lists with holes

What an array has under its indices is a list of optional values: the elements, and holes between
them. The methods that change arrays or take parts of them are named here by what they make of such
lists; indices are resolved on exact integers.

## Main definitions

* `elementsOf`, `Elements.ofList`: the elements of a list with holes.
* `Value.indexIn`, `Value.countUpTo`: the index and the count that an argument means.
* `ArrayMethod`, `ArrayMethod.outcome`: the methods, and what they do to a list with holes.

## Main results

* `relativeIndex_act`, `ArrayFunction.deleteCount_act`: arguments are resolved so.
* `Elements.cut_eq_ofList`: when the elements below a length are those of a list.
-/

namespace ScriptEngine

open Engine

variable {H : HostTypes}

/-! ### Lists with holes -/

/-- The elements of a list with holes. -/
def elementsOf (l : List (Option Value)) (i : Nat) : Option Value := l[i]?.join

section ElementsOf

variable {l l' : List (Option Value)} {i j : Nat}

theorem elementsOf_eq_none (h : l.length ≤ i) : elementsOf l i = none := by
  rw [elementsOf, List.getElem?_eq_none h]
  rfl

theorem elementsOf_nil : elementsOf [] = fun _ => none :=
  funext fun _ => elementsOf_eq_none (Nat.zero_le _)

theorem elementsOf_append (l l' : List (Option Value)) (i : Nat) :
    elementsOf (l ++ l') i
      = if i < l.length then elementsOf l i else elementsOf l' (i - l.length) := by
  unfold elementsOf
  rw [List.getElem?_append]
  split
  · rfl
  · rfl

theorem elementsOf_map_some (vs : List Value) (i : Nat) : elementsOf (vs.map some) i = vs[i]? := by
  rw [elementsOf, List.getElem?_map]
  cases vs[i]? with
  | none => rfl
  | some v => rfl

theorem elementsOf_drop (l : List (Option Value)) (n i : Nat) :
    elementsOf (l.drop n) i = elementsOf l (n + i) := by
  rw [elementsOf, List.getElem?_drop]
  rfl

theorem elementsOf_take (l : List (Option Value)) (n i : Nat) :
    elementsOf (l.take n) i = if i < n then elementsOf l i else none := by
  rw [elementsOf, List.getElem?_take]
  split
  · rfl
  · rfl

theorem elementsOf_reverse (h : i < l.length) :
    elementsOf l.reverse i = elementsOf l (l.length - 1 - i) := by
  rw [elementsOf, List.getElem?_reverse h]
  rfl

theorem elementsOf_tail (l : List (Option Value)) (i : Nat) :
    elementsOf l.tail i = elementsOf l (i + 1) := by
  rw [← List.drop_one, elementsOf_drop, Nat.add_comm]

/-- A list with one element more, or one hole more. -/
theorem elementsOf_concat (l : List (Option Value)) (v? : Option Value) :
    elementsOf (l ++ [v?]) = Function.update (elementsOf l) l.length v? := by
  funext i
  rw [elementsOf_append, Function.update_apply]
  by_cases hi : i = l.length
  · subst hi
    rw [if_neg (Nat.lt_irrefl _), if_pos rfl, Nat.sub_self]
    rfl
  · rw [if_neg hi]
    by_cases hlt : i < l.length
    · rw [if_pos hlt]
    · rw [if_neg hlt, elementsOf_eq_none (l := [v?]) (by rw [List.length_singleton]; omega),
        elementsOf_eq_none (Nat.not_lt.mp hlt)]

end ElementsOf

/-- Above the length of a list there is nothing. -/
theorem elementsOf_below (l : List (Option Value)) :
    (fun i => if i < l.length then elementsOf l i else none) = elementsOf l := by
  funext i
  split
  · rfl
  · next hi => exact (elementsOf_eq_none (Nat.not_lt.mp hi)).symm

/-- An array that is a list with holes. -/
def Elements.ofList (l : List (Option Value)) : Elements := ⟨elementsOf l, l.length, l.length⟩

/-- The elements below a length are those of a list of the length. -/
theorem Elements.cut_eq_ofList {s : Elements} {l : List (Option Value)} {length : Nat}
    (hl : l.length = length) (h : ∀ i < length, s.get i = elementsOf l i) :
    s.cut length = .ofList l := by
  subst hl
  refine congrArg (Elements.mk · l.length l.length) ?_
  rw [← elementsOf_below l]
  funext i
  split
  · next hi => exact h i hi
  · rfl

/-! ### Indices -/

/-- An argument that is a number or was not given. -/
def Value.IsIndexArgument (v : Value) : Prop := v = .undefined ∨ ∃ x, v = .number x

/-- The index of a list that an argument means: one below zero counts from the end, and one that was
not given is as said. -/
def Value.indexIn (v : Value) (length absent : Nat) : Nat :=
  match v with
  | .number x => (Number.integral x).relativeTo length
  | _ => absent

/-- The number of elements that an argument means, up to a limit. -/
def Value.countUpTo (v : Value) (limit : Nat) : Nat :=
  match v with
  | .number x => (Number.integral x).upTo limit
  | _ => 0

section Index

variable {v : Value} {length absent limit : Nat} {args : List Value}

/-- An argument that was not given is one that was not given as an index. -/
theorem argument_isIndexArgument {start count i : Nat}
    (h : ∀ v ∈ (args.drop start).take count, v.IsIndexArgument) (hi : i < count) :
    (argument args (start + i)).IsIndexArgument := by
  unfold argument
  rw [List.getD_eq_getElem?_getD]
  cases harg : args[start + i]? with
  | none => exact .inl rfl
  | some v =>
    refine h v (List.mem_of_getElem? (i := i) ?_)
    rw [List.getElem?_take_of_lt hi, List.getElem?_drop, harg]

theorem relativeIndex_act (hv : v.IsIndexArgument) (hl : length < 2 ^ 53) (s : Surroundings H)
    (realm : Realm H) :
    (relativeIndex v length absent).act s realm = .ok (v.indexIn length absent) realm := by
  obtain rfl | ⟨x, rfl⟩ := hv
  · rfl
  · rw [Value.indexIn, ← resolveRelative_eq x hl]
    rfl

/-- An index does not lie outside of the list. -/
theorem Value.indexIn_le (v : Value) (h : absent ≤ length) : v.indexIn length absent ≤ length := by
  unfold Value.indexIn
  split
  · next x => exact (Number.integral x).relativeTo_le length
  · exact h

theorem Value.countUpTo_le : v.countUpTo limit ≤ limit := by
  unfold Value.countUpTo
  split
  · next x => exact (Number.integral x).upTo_le limit
  · exact Nat.zero_le _

/-- How many elements a splice removes: none without arguments, all that there are with one. -/
def spliceCount (args : List Value) (available : Nat) : Nat :=
  match args with
  | [] => 0
  | [_] => available
  | _ :: count :: _ => count.countUpTo available

theorem spliceCount_le (args : List Value) (available : Nat) :
    spliceCount args available ≤ available := by
  unfold spliceCount
  split
  · exact Nat.zero_le _
  · exact Nat.le_refl _
  · exact Value.countUpTo_le

theorem ArrayFunction.deleteCount_act (hargs : ∀ v ∈ args.take 2, v.IsIndexArgument)
    (hl : limit < 2 ^ 53) (s : Surroundings H) (realm : Realm H) :
    (deleteCount args limit).act s realm = .ok (spliceCount args limit) realm := by
  match args, hargs with
  | [], _ => rfl
  | [_], _ => rfl
  | _ :: count :: _, hargs =>
    obtain rfl | ⟨x, rfl⟩ := hargs count (by simp)
    · have hnan : Number.toNat (Number.clamp (Number.integerOrInfinity Number.nan) 0.0
          (Float.ofNat limit)) = 0 := by
        rw [Number.toNat_clamp _ hl]
        rfl
      exact congrArg (EStateM.Result.ok · realm) hnan
    · rw [spliceCount, Value.countUpTo, ← Number.toNat_clamp x hl]
      rfl

end Index

/-! ### Methods -/

/-- The methods that change arrays or return new ones. -/
inductive ArrayMethod where
  | push
  | pop
  | shift
  | unshift
  | splice
  | reverse
  | fill
  | concat
  | slice
deriving DecidableEq

/-- What a method of arrays returns: a value, the receiver, or a new array. -/
inductive ArrayAnswer where
  | value (v : Value)
  | receiver
  | array (l : List (Option Value))

/-- A list with a run of it replaced by elements. -/
def replaced (l : List (Option Value)) (start count : Nat) (vs : List Value) :
    List (Option Value) :=
  l.take start ++ vs.map some ++ l.drop (start + count)

theorem length_replaced {l : List (Option Value)} {start count : Nat} (vs : List Value)
    (h : start + count ≤ l.length) :
    (replaced l start count vs).length = l.length - count + vs.length := by
  simp only [replaced, List.length_append, List.length_take, List.length_map, List.length_drop]
  omega

/-- What is under an index after a run was replaced. -/
theorem elementsOf_replaced {l : List (Option Value)} {start : Nat} (count : Nat) (vs : List Value)
    (h : start ≤ l.length) (i : Nat) :
    elementsOf (replaced l start count vs) i
      = if i < start then elementsOf l i
        else if i < start + vs.length then vs[i - start]?
        else elementsOf l (i - vs.length + count) := by
  have hlength : (l.take start).length = start := List.length_take_of_le h
  rw [replaced, List.append_assoc, elementsOf_append, elementsOf_append, hlength, List.length_map]
  by_cases hi : i < start
  · rw [if_pos hi, if_pos hi, elementsOf_take, if_pos hi]
  · rw [if_neg hi, if_neg hi]
    by_cases hi' : i < start + vs.length
    · rw [if_pos (by omega), if_pos hi', elementsOf_map_some]
    · have hindex : start + count + (i - start - vs.length) = i - vs.length + count := by omega
      rw [if_neg (by omega), if_neg hi', elementsOf_drop, hindex]

/-- A part of a list. -/
def part (l : List (Option Value)) (start count : Nat) : List (Option Value) :=
  (l.drop start).take count

theorem length_part {l : List (Option Value)} {start count : Nat} (h : start + count ≤ l.length) :
    (part l start count).length = count := by
  rw [part, List.length_take, List.length_drop]
  omega

theorem elementsOf_part (l : List (Option Value)) {start count i : Nat} (h : i < count) :
    elementsOf (part l start count) i = elementsOf l (start + i) := by
  rw [part, elementsOf_take, if_pos h, elementsOf_drop]

namespace ArrayMethod

/-- The function of the engine that is the method. -/
def function : ArrayMethod → ArrayFunction
  | push => .push
  | pop => .pop
  | shift => .shift
  | unshift => .unshift
  | splice => .splice
  | reverse => .reverse
  | fill => .fill
  | concat => .concat
  | slice => .slice

/-- The arguments of a method that are indices or counts. -/
def indexArguments (args : List Value) : ArrayMethod → List Value
  | splice => args.take 2
  | slice => args.take 2
  | fill => (args.drop 1).take 2
  | _ => []

/-- What a method makes of a list with holes, and what it returns. Concatenation takes from each
argument what the argument contains. -/
def outcome (contents : Value → List (Option Value)) (l : List (Option Value))
    (args : List Value) : ArrayMethod → List (Option Value) × ArrayAnswer
  | push => (l ++ args.map some, .value (.nat (l.length + args.length)))
  | pop => (l.dropLast, .value (l.getLast?.join.getD .undefined))
  | shift => (l.tail, .value (l.head?.join.getD .undefined))
  | unshift => (args.map some ++ l, .value (.nat (l.length + args.length)))
  | splice =>
    let start := (argument args 0).indexIn l.length 0
    let count := spliceCount args (l.length - start)
    (replaced l start count (args.drop 2), .array (part l start count))
  | reverse => (l.reverse, .receiver)
  | fill =>
    let start := (argument args 1).indexIn l.length 0
    let count := (argument args 2).indexIn l.length l.length - start
    (replaced l start count (List.replicate count (argument args 0)), .receiver)
  | concat => (l, .array (l ++ args.flatMap contents))
  | slice =>
    let start := (argument args 0).indexIn l.length 0
    let stop := (argument args 1).indexIn l.length l.length
    (l, .array (part l start (stop - start)))

end ArrayMethod

end ScriptEngine
