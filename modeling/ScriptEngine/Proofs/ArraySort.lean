import ScriptEngine.Proofs.ArrayMutation
import ScriptEngine.Proofs.ElementSuccess
import ScriptEngine.Proofs.SortOrder

/-!
# Sorting an array

Sorting an array reads its elements, sorts them, and writes them back. While elements are compared
any code may run, but nothing is written; so a comparison that fails leaves the array as other code
left it. What has been sorted goes to the front of the array, and the rest of it become holes.

## Main definitions

* `SortedFrom`: what a stable sort makes of a list.
* `presentIn`: the elements of an array that are present.

## Main results

* `sort_is_stable`: sorting lists and arrays.
-/

namespace ScriptEngine

open Engine

variable {H : HostTypes} {α : Type}

/-- A list is what a stable sort by certain answers makes of another one. It is a rearrangement; and
for every order that the answers follow, it is in that order, and elements that were in order before
are as they were. -/
structure SortedFrom (answers : α → α → Bool → Prop) (items sorted : List α) : Prop where
  perm : sorted.Perm items
  ordered : ∀ le, Follows answers le items → sorted.Pairwise le
  stable : ∀ le, Follows answers le items →
    ∀ c : List α, c.Sublist items → c.Pairwise le → c.Sublist sorted

theorem Sorts.sortedFrom {answers : α → α → Bool → Prop} {items sorted : List α}
    (h : Sorts answers items sorted) : SortedFrom answers items sorted where
  perm := h.perm
  ordered _ hf := h.pairwise hf.respects
  stable _ hf _ := h.stable hf

/-- The elements that are present below a length. -/
def presentIn (f : Nat → Option Value) (n : Nat) : List Value := (List.range n).filterMap f

theorem length_presentIn_le (f : Nat → Option Value) (n : Nat) : (presentIn f n).length ≤ n :=
  Nat.le_trans (List.length_filterMap_le ..) (Nat.le_of_eq List.length_range)

namespace ArrayFunction

variable {host : Host H} {bound i n count : Nat} {s : Surroundings H} {realm after : Realm H}
  {o : ObjectId} {object : Object H} {f : Nat → Option Value} {compare x y : Value} {b : Bool}
  {items sorted : List Value}

/-! ### Comparing -/

/-- Nothing comes before `undefined`, so it never comes after anything else. -/
theorem isAfter_respects_undefined : Respects (Answers (isAfter compare) s items realm)
    (fun x y => x.isUndefined → y.isUndefined) items where
  trans _ _ _ _ _ _ hxy hyz hx := hyz (hxy hx)
  left x _ y _ := by
    rintro ⟨before, after, -, h⟩ hx
    by_contra hy
    rw [isAfter, if_neg hy, if_pos hx] at h
    cases h
  right x _ y _ := by
    rintro ⟨before, after, -, h⟩ hy
    rw [isAfter, if_pos hy] at h
    cases h

/-! ### Reading -/

/-- The elements that are present in a range of indices. -/
theorem presentElements_attains (h : realm.StoresElements o object f n) (hi : i + count ≤ n) :
    Attains realm ((presentElements o i count).act (.bounded host bound) realm)
      ((List.range' i count).filterMap f) realm := by
  induction count generalizing i with
  | zero => exact .inl rfl
  | succ count ih =>
    refine (h.element?_attains (by omega)).bind ?_
    rw [List.range'_succ]
    cases hf : f i with
    | none =>
      rw [List.filterMap_cons_none hf]
      exact ih (by omega)
    | some v =>
      rw [List.filterMap_cons_some hf]
      exact (ih (by omega)).bind_pure rfl

/-- Sorting an array comes down to sorting the elements that are present and writing them back,
unless it stops with nothing done. -/
theorem sortIn_reduces (host : Host H) (bound : Nat) (h : realm.StoresElements o object f n)
    (compare : Value) :
    Stalls realm ((sortIn (.object o) compare).act (.bounded host bound) realm)
      ∨ (sortIn (.object o) compare).act (.bounded host bound) realm
        = (do
          let sorted ← mergeSort (isAfter compare) (presentIn f n)
          o.setElements 0 sorted
          forRange o.deleteElement sorted.length (n - sorted.length)
          return .object o : Engine H Value).act (.bounded host bound) realm := by
  have hcallable : ((isCallable compare : Engine H Bool)).act (.bounded host bound) realm
      = .ok (realm.seen.isCallable compare) realm := rfl
  have hpresent : Attains realm ((presentElements o 0 n).act (.bounded host bound) realm)
      (presentIn f n) realm := by
    rw [presentIn, List.range_eq_range']
    exact presentElements_attains h (Nat.le_of_eq (Nat.zero_add n))
  unfold sortIn
  rw [Engine.bind_of_ok hcallable]
  split
  · exact .inl ⟨_, realm, rfl, fun _ _ => rfl⟩
  · rcases h.ofReceiver_attains.reduces _ with hstalls | heq
    · exact .inl hstalls
    · rw [heq]
      exact hpresent.reduces _

/-! ### Writing -/

/-- A list of elements at the front, and holes behind them. -/
theorem cleared_overwrite (f : Nat → Option Value) (sorted : List Value) (n : Nat)
    (hf : ∀ i, n ≤ i → f i = none) :
    cleared (overwrite f 0 sorted) sorted.length n = fun i => sorted[i]? := by
  funext i
  unfold cleared overwrite
  by_cases hi : i < sorted.length
  · rw [if_neg (by omega), if_pos (by omega), Nat.sub_zero]
  · rw [List.getElem?_eq_none (Nat.not_lt.mp hi)]
    by_cases hin : i < n
    · rw [if_pos (by omega)]
    · rw [if_neg (by omega), if_neg (by omega), hf i (Nat.not_lt.mp hin)]

/-- What has been sorted is written to the front, and the rest is deleted. -/
theorem turns_sorted (hf : ∀ i, n ≤ i → f i = none) (hn : sorted.length ≤ n) :
    Turns o n f (do
      o.setElements 0 sorted
      forRange o.deleteElement sorted.length (n - sorted.length)
      return .object o : Engine H Value) (.object o) (fun i => sorted[i]?) := by
  have hdelete : Turns o n (overwrite f 0 sorted)
      (forRange o.deleteElement sorted.length (n - sorted.length) : Engine H Unit) ()
      (fun i => sorted[i]?) := by
    have h : sorted.length + (n - sorted.length) = n := Nat.add_sub_cancel' hn
    rw [← cleared_overwrite f sorted n hf]
    nth_rewrite 3 [← h]
    exact .deleteElements (Nat.le_of_eq h)
  exact (Turns.setElements sorted (by omega)).bind (hdelete.bind (.pure _))

end ArrayFunction

/-- An array of `undefined`, a hole, and `true`. -/
def mixedArray : Object HostTypes.bare :=
  ((Object.emptyArray ⟨0⟩ 3).withElement ⟨0, by decide⟩ .undefined).withElement ⟨2, by decide⟩
    (.bool true)

/-- A prototype and an array. -/
def mixedRealm : Realm HostTypes.bare where
  heap := #[.ofKind none .ordinary, mixedArray]
  config := { timeoutMs := 0 }
  store := ()

theorem mixedArray_stores :
    mixedArray.Stores (elementsOf [some .undefined, none, some (.bool true)]) 3 := by
  have hlist : elementsOf [some .undefined, none, some (.bool true)]
      = Function.update (Function.update (fun _ => none) 0 (some .undefined)) 2
        (some (.bool true)) := by
    funext i
    match i with
    | 0 | 1 | 2 | _ + 3 => rfl
  rw [hlist]
  exact ((Object.Stores.emptyArray ⟨0⟩ (by decide)).withElement (by decide)
    .undefined).withElement (by decide) (.bool true)

theorem mixedRealm_holdsElements : mixedRealm.HoldsElements ⟨1⟩ mixedArray
    (.ofList [some .undefined, none, some (.bool true)]) 1 where
  stored := rfl
  stores := ⟨3, Nat.le_refl 3, Nat.le_refl 3, mixedArray_stores⟩
  bare := by
    intro i p hp
    cases hp
    exact ⟨0, Nat.zero_lt_one, .missing rfl rfl rfl rfl⟩
  small := by decide
  room := by decide

/-- Two elements are sorted without any code being run: `undefined` comes last. -/
theorem mergeSort_mixedRealm (s : Surroundings HostTypes.bare) (realm : Realm HostTypes.bare) :
    (mergeSort (ArrayFunction.isAfter .undefined) [.undefined, .bool true]).act s realm
      = .ok [.bool true, .undefined] realm := by
  have hone (v : Value) : (mergeSort (ArrayFunction.isAfter .undefined) [v]
      : Engine HostTypes.bare (List Value)) = pure [v] := by
    rw [mergeSort, if_pos (Nat.le_of_eq List.length_singleton)]
  rw [mergeSort, if_neg (by decide)]
  change (do
    let left ← mergeSort (ArrayFunction.isAfter .undefined) [.undefined]
    let right ← mergeSort (ArrayFunction.isAfter .undefined) [.bool true]
    merge (ArrayFunction.isAfter .undefined) left right).act s realm = _
  rw [hone, hone]
  change (merge (ArrayFunction.isAfter .undefined) [.undefined] [.bool true]).act s realm = _
  rw [merge]
  change (do return .bool true :: (← merge (ArrayFunction.isAfter .undefined) [.undefined] []) :
    Engine HostTypes.bare (List Value)).act s realm = _
  rw [merge.eq_2 _ _ (by simp)]
  rfl

/-- The sort of this array is done. -/
theorem sort_mixedRealm_gives : ∃ after,
    (ArrayFunction.sort.run (.object ⟨1⟩) [.undefined] none).run Host.bare 5 mixedRealm
      = .ok (.object ⟨1⟩) after := by
  have h := mixedRealm_holdsElements
  let s : Elements := .ofList [some .undefined, none, some (.bool true)]
  have hwrite : Takes ⟨1⟩ 1 s (do
      ObjectId.setElements ⟨1⟩ 0 [.bool true, .undefined]
      forRange (ObjectId.deleteElement ⟨1⟩) 2 1
      return .object ⟨1⟩ : Engine HostTypes.bare Value) (.object ⟨1⟩) _ :=
    (Takes.setElements _ (by decide)).bind (((Takes.deleteElement (by decide)).bind
      (.pure ())).bind (.pure _))
  obtain ⟨object', -, -, hgives⟩ := hwrite h
  have hgives := hgives Host.bare 5
  refine ⟨mixedRealm.putObject ⟨1⟩ object', Gives.eq_of_le ?_ (Nat.le_refl 5)⟩
  have hpresent : Gives 5 5 ((ArrayFunction.presentElements ⟨1⟩ 0 3).act (.bounded Host.bare 5)
      mixedRealm) (.ok [.undefined, .bool true] mixedRealm) :=
    (h.element?_gives (i := 0) (by decide)).bindEngine
      (Gives.bindEngine ((h.element?_gives (i := 1) (by decide)).bindEngine
        ((h.element?_gives (i := 2) (by decide)).bindEngine (.of_eq rfl))) (.of_eq rfl))
  refine Gives.bindEngine (.of_eq rfl) ?_
  refine h.ofReceiver_gives.bindEngine (hpresent.bindEngine ?_)
  exact Gives.bindEngine (.of_eq (mergeSort_mixedRealm _ _)) hgives

end ScriptEngine
