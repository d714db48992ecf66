import ScriptEngine.Builtin.Array.Mutation
import ScriptEngine.Proofs.Outcome

/-!
# Sorting with comparisons that run code

The comparison that a list is sorted by may run code, and so answer one way now and another way
later. Whatever it answers, what is sorted is rearranged and nothing else; and if the answers follow
an order, the result is in that order, with elements of one rank as they stood before.

What a run decides is kept apart from what it does: a merge is described by the answers that it
follows, and a comparison may be made in any realm to which comparisons lead.

## Main definitions

* `Merges`, `Sorts`: merging and sorting by answers.
* `Respects`, `Follows`: answers that do not contradict an order, and that follow one.
* `Compares`, `Answers`: the realms to which comparisons lead, and what they answer there.

## Main results

* `Sorts.perm`, `Sorts.pairwise`, `Sorts.stable`: what sorting does to a list.
* `mergeSort_of_ok`, `mergeSort_of_error`: what a run of the sort comes down to.
-/

namespace ScriptEngine

open Engine

variable {H : HostTypes} {α : Type}

/-! ### Sorting by answers -/

/-- Merging two lists, where `answers x y b` may tell whether `x` is to come after `y`. -/
inductive Merges (answers : α → α → Bool → Prop) : List α → List α → List α → Prop
  | nil (ys : List α) : Merges answers [] ys ys
  | rest (xs : List α) : Merges answers xs [] xs
  | left {x y : α} {xs ys zs : List α} (h : answers x y false)
      (tail : Merges answers xs (y :: ys) zs) : Merges answers (x :: xs) (y :: ys) (x :: zs)
  | right {x y : α} {xs ys zs : List α} (h : answers x y true)
      (tail : Merges answers (x :: xs) ys zs) : Merges answers (x :: xs) (y :: ys) (y :: zs)

/-- Sorting a list by parts. -/
inductive Sorts (answers : α → α → Bool → Prop) : List α → List α → Prop
  | short {xs : List α} (h : xs.length ≤ 1) : Sorts answers xs xs
  | parts {left right left' right' zs : List α} (hleft : Sorts answers left left')
      (hright : Sorts answers right right') (hmerge : Merges answers left' right' zs) :
      Sorts answers (left ++ right) zs

/-- Answers about the elements of a list that never contradict an order: what is put first is not
above the other one. -/
structure Respects (answers : α → α → Bool → Prop) (le : α → α → Prop) (items : List α) :
    Prop where
  trans : ∀ x ∈ items, ∀ y ∈ items, ∀ z ∈ items, le x y → le y z → le x z
  left : ∀ x ∈ items, ∀ y ∈ items, answers x y false → le x y
  right : ∀ x ∈ items, ∀ y ∈ items, answers x y true → le y x

/-- Answers about the elements of a list that follow an order in which any two elements can be
compared. -/
structure Follows (answers : α → α → Bool → Prop) (le : α → α → Prop) (items : List α) :
    Prop where
  total : ∀ x ∈ items, ∀ y ∈ items, le x y ∨ le y x
  trans : ∀ x ∈ items, ∀ y ∈ items, ∀ z ∈ items, le x y → le y z → le x z
  answer : ∀ x ∈ items, ∀ y ∈ items, ∀ b, answers x y b → (b = true ↔ ¬le x y)

section Order

variable {answers : α → α → Bool → Prop} {le : α → α → Prop} {xs ys zs items c c' : List α}

theorem Merges.perm (h : Merges answers xs ys zs) : zs.Perm (xs ++ ys) := by
  induction h with
  | nil ys => exact .refl _
  | rest xs => rw [List.append_nil]
  | left _ _ ih => exact ih.cons _
  | right _ _ ih => exact (ih.cons _).trans List.perm_middle.symm

/-- Sorting rearranges. -/
theorem Sorts.perm (h : Sorts answers xs zs) : zs.Perm xs := by
  induction h with
  | short => exact .refl _
  | parts _ _ hmerge ihleft ihright => exact hmerge.perm.trans (ihleft.append ihright)

theorem Respects.mono (h : Respects answers le items) (hxs : xs ⊆ items) :
    Respects answers le xs where
  trans x hx y hy z hz := h.trans x (hxs hx) y (hxs hy) z (hxs hz)
  left x hx y hy := h.left x (hxs hx) y (hxs hy)
  right x hx y hy := h.right x (hxs hx) y (hxs hy)

namespace Follows

theorem mono (h : Follows answers le items) (hxs : xs ⊆ items) : Follows answers le xs where
  total x hx y hy := h.total x (hxs hx) y (hxs hy)
  trans x hx y hy z hz := h.trans x (hxs hx) y (hxs hy) z (hxs hz)
  answer x hx y hy := h.answer x (hxs hx) y (hxs hy)

theorem respects (h : Follows answers le items) : Respects answers le items where
  trans := h.trans
  left x hx y hy ha :=
    Classical.not_not.mp fun hn => Bool.noConfusion ((h.answer x hx y hy _ ha).mpr hn)
  right x hx y hy ha := (h.total x hx y hy).resolve_left ((h.answer x hx y hy _ ha).mp rfl)

end Follows

/-- A merge of two lists that are in order is in order. -/
theorem Merges.pairwise (h : Merges answers xs ys zs) (hr : Respects answers le (xs ++ ys))
    (hxs : xs.Pairwise le) (hys : ys.Pairwise le) : zs.Pairwise le := by
  induction h with
  | nil => exact hys
  | rest => exact hxs
  | @left x y xs ys zs ha tail ih =>
    obtain ⟨hx, hxs⟩ := List.pairwise_cons.mp hxs
    have hle : le x y := hr.left x (by simp) y (by simp) ha
    refine List.pairwise_cons.mpr ⟨fun z hz => ?_, ih (hr.mono (by simp)) hxs hys⟩
    rcases List.mem_append.mp (tail.perm.mem_iff.mp hz) with hz | hz
    · exact hx z hz
    · rcases List.mem_cons.mp hz with rfl | hz'
      · exact hle
      · exact hr.trans x (by simp) y (by simp) z (by simp [hz']) hle
          ((List.pairwise_cons.mp hys).1 z hz')
  | @right x y xs ys zs ha tail ih =>
    obtain ⟨hy, hys⟩ := List.pairwise_cons.mp hys
    have hle : le y x := hr.right x (by simp) y (by simp) ha
    refine List.pairwise_cons.mpr ⟨fun z hz => ?_, ih (hr.mono ?_) hxs hys⟩
    · rcases List.mem_append.mp (tail.perm.mem_iff.mp hz) with hz | hz
      · rcases List.mem_cons.mp hz with rfl | hz'
        · exact hle
        · exact hr.trans y (by simp) x (by simp) z (by simp [hz']) hle
            ((List.pairwise_cons.mp hxs).1 z hz')
      · exact hy z hz
    · exact ((List.Sublist.refl _).append (List.sublist_cons_self y ys)).subset

/-- Where the answers never contradict an order, the result of sorting is in that order. -/
theorem Sorts.pairwise (h : Sorts answers xs zs) (hr : Respects answers le xs) :
    zs.Pairwise le := by
  induction h with
  | @short xs hlength =>
    match xs, hlength with
    | [], _ => exact .nil
    | [x], _ => exact List.pairwise_singleton le x
  | @parts left right left' right' zs hleft hright hmerge ihleft ihright =>
    have hleft' := ihleft (hr.mono (List.subset_append_left left right))
    have hright' := ihright (hr.mono (List.subset_append_right left right))
    exact hmerge.pairwise (hr.mono (hleft.perm.append hright.perm).subset) hleft' hright'

/-- Elements of two lists that are in order stay in their order when the lists are merged, if none
of the right list is below one of the left list. -/
theorem Merges.stable (h : Merges answers xs ys zs) (hf : Follows answers le (xs ++ ys))
    (hxs : xs.Pairwise le) (hc : c.Sublist xs) (hc' : c'.Sublist ys)
    (hpairs : ∀ a ∈ c, ∀ b ∈ c', le a b) : (c ++ c').Sublist zs := by
  induction h generalizing c c' with
  | nil =>
    rw [List.sublist_nil.mp hc, List.nil_append]
    exact hc'
  | rest =>
    rw [List.sublist_nil.mp hc', List.append_nil]
    exact hc
  | @left x y xs ys zs ha tail ih =>
    have hxs' := (List.pairwise_cons.mp hxs).2
    have hf' : Follows answers le (xs ++ y :: ys) := hf.mono (by simp)
    cases hc with
    | cons _ hc => exact (ih hf' hxs' hc hc' hpairs).cons x
    | cons_cons _ hc =>
      exact (ih hf' hxs' hc hc' fun a hmem => hpairs a (List.mem_cons_of_mem x hmem)).cons_cons x
  | @right x y xs ys zs ha tail ih =>
    have hf' : Follows answers le (x :: xs ++ ys) :=
      hf.mono ((List.Sublist.refl _).append (List.sublist_cons_self y ys)).subset
    cases hc' with
    | cons _ hc' => exact (ih hf' hxs hc hc' hpairs).cons y
    | @cons_cons d _ _ hc' =>
      -- what comes before `y` in the result would be below `y`, and so would `x`
      have hnil : c = [] := by
        rw [List.eq_nil_iff_forall_not_mem]
        intro a hmem
        have hay : le a y := hpairs a hmem y List.mem_cons_self
        refine (hf.answer x (by simp) y (by simp) _ ha).mp rfl ?_
        rcases List.mem_cons.mp (hc.subset hmem) with rfl | ha'
        · exact hay
        · exact hf.trans x (by simp) a (by simp [ha']) y (by simp)
            ((List.pairwise_cons.mp hxs).1 a ha') hay
      subst hnil
      exact (ih hf' hxs (List.nil_sublist _) hc'
        fun a hmem => absurd hmem List.not_mem_nil).cons_cons y

/-- Sorting is stable: elements that are in order already stay in their order. -/
theorem Sorts.stable (h : Sorts answers xs zs) (hf : Follows answers le xs) (hc : c.Sublist xs)
    (hpairs : c.Pairwise le) : c.Sublist zs := by
  induction h generalizing c with
  | short => exact hc
  | @parts left right left' right' zs hleft hright hmerge ihleft ihright =>
    obtain ⟨c₁, c₂, rfl, hc₁, hc₂⟩ := List.sublist_append_iff.mp hc
    obtain ⟨hpairs₁, hpairs₂, hbetween⟩ := List.pairwise_append.mp hpairs
    have hfleft := hf.mono (List.subset_append_left left right)
    have hfright := hf.mono (List.subset_append_right left right)
    exact hmerge.stable (hf.mono (hleft.perm.append hright.perm).subset)
      (hleft.pairwise hfleft.respects)
      (ihleft hfleft hc₁ hpairs₁) (ihright hfright hc₂ hpairs₂) hbetween

end Order

/-! ### Runs of the sort -/

/-- The realms to which comparisons of elements of a list lead. -/
inductive Compares (isAfter : α → α → Engine H Bool) (s : Surroundings H) (items : List α)
    (realm : Realm H) : Realm H → Prop
  | start : Compares isAfter s items realm realm
  | next {before after : Realm H} {x y : α} {b : Bool}
      (first : Compares isAfter s items realm before) (hx : x ∈ items) (hy : y ∈ items)
      (h : (isAfter x y).act s before = .ok b after) : Compares isAfter s items realm after

/-- What comparisons of two elements answer in the realms to which comparisons lead. -/
def Answers (isAfter : α → α → Engine H Bool) (s : Surroundings H) (items : List α)
    (realm : Realm H) (x y : α) (b : Bool) : Prop :=
  ∃ before after, Compares isAfter s items realm before
    ∧ (isAfter x y).act s before = .ok b after

/-- A comparison of two elements of a list stops, in one of the realms to which comparisons lead. -/
def Stops (isAfter : α → α → Engine H Bool) (s : Surroundings H) (items : List α)
    (realm : Realm H) (stop : Stop) (after : Realm H) : Prop :=
  ∃ before, Compares isAfter s items realm before ∧ ∃ x ∈ items, ∃ y ∈ items,
    (isAfter x y).act s before = .error stop after

section Run

variable {isAfter : α → α → Engine H Bool} {s : Surroundings H} {items xs ys zs : List α}
  {realm before after : Realm H} {stop : Stop}

/-- A computation stops where one of its parts does. -/
theorem Engine.error_of_bind {β γ : Type} {x : Engine H β} {f : β → Engine H γ}
    (h : (x >>= f).act s realm = .error stop after) :
    x.act s realm = .error stop after
      ∨ ∃ a middle, x.act s realm = .ok a middle ∧ (f a).act s middle = .error stop after := by
  match hx : x.act s realm with
  | .ok a middle => exact .inr ⟨a, middle, rfl, (Engine.bind_of_ok hx).symm.trans h⟩
  | .error stop' middle =>
    cases (Engine.bind_of_error hx).symm.trans h
    exact .inl rfl

/-- A merge that has a result follows what comparisons answer. -/
theorem merge_of_ok (hc : Compares isAfter s items realm before) (hxs : xs ⊆ items)
    (hys : ys ⊆ items) (h : (merge isAfter xs ys).act s before = .ok zs after) :
    Merges (Answers isAfter s items realm) xs ys zs ∧ Compares isAfter s items realm after := by
  induction xs, ys using merge.induct generalizing before zs with
  | case1 ys =>
    rw [merge] at h
    cases h
    exact ⟨.nil _, hc⟩
  | case2 xs hne =>
    rw [merge.eq_2 _ _ hne] at h
    cases h
    exact ⟨.rest _, hc⟩
  | case3 x xs y ys ihright ihleft =>
    obtain ⟨hx, hxs'⟩ := List.cons_subset.mp hxs
    obtain ⟨hy, hys'⟩ := List.cons_subset.mp hys
    rw [merge] at h
    obtain ⟨b, middle, hcompare, h⟩ := Engine.ok_of_bind h
    have hanswer : Answers isAfter s items realm x y b := ⟨before, middle, hc, hcompare⟩
    have hnext : Compares isAfter s items realm middle := hc.next hx hy hcompare
    cases b with
    | true =>
      obtain ⟨zs, last, htail, h⟩ := Engine.ok_of_bind h
      cases h
      obtain ⟨hmerges, hlast⟩ := ihright hnext hxs hys' htail
      exact ⟨.right hanswer hmerges, hlast⟩
    | false =>
      obtain ⟨zs, last, htail, h⟩ := Engine.ok_of_bind h
      cases h
      obtain ⟨hmerges, hlast⟩ := ihleft hnext hxs' hys htail
      exact ⟨.left hanswer hmerges, hlast⟩

/-- A merge stops where a comparison does. -/
theorem merge_of_error (hc : Compares isAfter s items realm before) (hxs : xs ⊆ items)
    (hys : ys ⊆ items) (h : (merge isAfter xs ys).act s before = .error stop after) :
    Stops isAfter s items realm stop after := by
  induction xs, ys using merge.induct generalizing before with
  | case1 ys =>
    rw [merge] at h
    cases h
  | case2 xs hne =>
    rw [merge.eq_2 _ _ hne] at h
    cases h
  | case3 x xs y ys ihright ihleft =>
    obtain ⟨hx, hxs'⟩ := List.cons_subset.mp hxs
    obtain ⟨hy, hys'⟩ := List.cons_subset.mp hys
    rw [merge] at h
    rcases Engine.error_of_bind h with h | ⟨b, middle, hcompare, h⟩
    · exact ⟨before, hc, x, hx, y, hy, h⟩
    · have hnext : Compares isAfter s items realm middle := hc.next hx hy hcompare
      cases b with
      | true =>
        rcases Engine.error_of_bind h with h | ⟨zs, last, -, h⟩
        · exact ihright hnext hxs hys' h
        · cases h
      | false =>
        rcases Engine.error_of_bind h with h | ⟨zs, last, -, h⟩
        · exact ihleft hnext hxs' hys h
        · cases h

/-- A sort that has a result follows what comparisons answer. -/
theorem mergeSort_of_ok (hc : Compares isAfter s items realm before) (hxs : xs ⊆ items)
    (h : (mergeSort isAfter xs).act s before = .ok zs after) :
    Sorts (Answers isAfter s items realm) xs zs ∧ Compares isAfter s items realm after := by
  induction xs using mergeSort.induct generalizing before zs after with
  | case1 xs hshort =>
    rw [mergeSort, if_pos hshort] at h
    cases h
    exact ⟨.short hshort, hc⟩
  | case2 xs hlong ihleft ihright =>
    rw [mergeSort, if_neg hlong] at h
    obtain ⟨left, middle, hleft, h⟩ := Engine.ok_of_bind h
    obtain ⟨right, last, hright, hmerge⟩ := Engine.ok_of_bind h
    have hsubset := List.take_append_drop (xs.length / 2) xs ▸ hxs
    obtain ⟨hxsleft, hxsright⟩ := List.append_subset.mp hsubset
    obtain ⟨hsleft, hcleft⟩ := ihleft hc hxsleft hleft
    obtain ⟨hsright, hcright⟩ := ihright hcleft hxsright hright
    obtain ⟨hmerges, hlast⟩ := merge_of_ok hcright (List.Subset.trans hsleft.perm.subset hxsleft)
      (List.Subset.trans hsright.perm.subset hxsright) hmerge
    have hsorts := Sorts.parts hsleft hsright hmerges
    rw [List.take_append_drop] at hsorts
    exact ⟨hsorts, hlast⟩

/-- A sort stops where a comparison does. -/
theorem mergeSort_of_error (hc : Compares isAfter s items realm before) (hxs : xs ⊆ items)
    (h : (mergeSort isAfter xs).act s before = .error stop after) :
    Stops isAfter s items realm stop after := by
  induction xs using mergeSort.induct generalizing before with
  | case1 xs hshort =>
    rw [mergeSort, if_pos hshort] at h
    cases h
  | case2 xs hlong ihleft ihright =>
    rw [mergeSort, if_neg hlong] at h
    have hsubset := List.take_append_drop (xs.length / 2) xs ▸ hxs
    obtain ⟨hxsleft, hxsright⟩ := List.append_subset.mp hsubset
    rcases Engine.error_of_bind h with h | ⟨left, middle, hleft, h⟩
    · exact ihleft hc hxsleft h
    obtain ⟨hsleft, hcleft⟩ := mergeSort_of_ok hc hxsleft hleft
    rcases Engine.error_of_bind h with h | ⟨right, last, hright, h⟩
    · exact ihright hcleft hxsright h
    obtain ⟨hsright, hcright⟩ := mergeSort_of_ok hcleft hxsright hright
    exact merge_of_error hcright (List.Subset.trans hsleft.perm.subset hxsleft)
      (List.Subset.trans hsright.perm.subset hxsright) h

end Run

end ScriptEngine
