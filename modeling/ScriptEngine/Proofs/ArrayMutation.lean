import ScriptEngine.Proofs.HoleList

/-!
# Methods that change an array

Each method is a few loops over the elements and, in the end, a change of the length. What it makes
of the list of the elements is read off what its loops do.

## Main results

* `Takes.pushOn`, `Takes.popFrom`, `Takes.shiftFrom`, `Takes.unshiftOn`, `Takes.fillIn`,
  `Takes.reverseIn`: the methods that return no new array.
-/

namespace ScriptEngine

open Engine

variable {H : HostTypes} {o : ObjectId} {steps : Nat} {l : List (Option Value)}

namespace Realm.HoldsElements

variable {realm : Realm H} {object : Object H} {host : Host H} {bound : Nat}

/-- The length of the array is that of its list. -/
theorem lengthOfArrayLike_gives (h : realm.HoldsElements o object (.ofList l) steps) :
    Gives (steps + 4) bound (o.lengthOfArrayLike.act (.bounded host bound) realm)
      (.ok l.length realm) := by
  obtain ⟨n, hleast, hmost, hstores⟩ := h.stores
  obtain rfl : n = l.length := Nat.le_antisymm hmost hleast
  exact (hstores.hasCount.lengthOfArrayLike_gives h.stored
    (h.not_atLimit (realm.callDepth + 1) (by omega))).mono (by omega)

/-- The receiver and the length of its list. -/
theorem ofReceiver_gives (h : realm.HoldsElements o object (.ofList l) steps) :
    Gives (steps + 4) bound
      ((ObjectId.ofReceiver (.object o)).act (.bounded host bound) realm)
      (.ok (o, l.length) realm) := by
  have hobject : (Value.object o).toObject.act (.bounded host bound) realm = .ok o realm := rfl
  exact Gives.bindEngine (.of_eq hobject) (h.lengthOfArrayLike_gives.bindEngine (.of_eq rfl))

end Realm.HoldsElements

theorem Takes.ofReceiver (l : List (Option Value)) :
    Takes o steps (.ofList l) (ObjectId.ofReceiver (.object o) : Engine H (ObjectId × Nat))
      (o, l.length) (.ofList l) :=
  .of_gives fun _ _ h _ _ => h.ofReceiver_gives

/-- Lists that are no longer than arrays may be are far from the greatest length that there is. -/
theorem not_maxSafe_lt {n : Nat} (h : n < Number.twoPow 32) : ¬Number.maxSafe < n := by
  have hmax : Number.twoPow 32 ≤ Number.maxSafe := by decide
  omega

/-- The length of the array may grow. -/
theorem Takes.growing {α : Type} {x : Engine H α} {a : α} {most : Nat} {s : Elements}
    (h : Takes o steps ⟨elementsOf l, l.length, most⟩ x a s) (hle : l.length ≤ most)
    (hlt : most < Number.twoPow 32) : Takes o steps (.ofList l) x a s :=
  Takes.widen (s := .ofList l) h (Nat.le_refl _) hle hlt

/-- Setting the length leaves a list, if the elements below it are those of the list. -/
theorem Takes.setLengthOf {f : Nat → Option Value} {least most length : Nat}
    (hl : l.length = length) (hlt : length < Number.twoPow 32)
    (h : ∀ i < length, f i = elementsOf l i) :
    Takes o steps ⟨f, least, most⟩ (o.setLength length : Engine H Unit) () (.ofList l) := by
  rw [← Elements.cut_eq_ofList (s := ⟨f, least, most⟩) hl h]
  exact .setLength hlt

/-! ### Adding and removing -/

theorem Takes.pushOn {args : List Value} (hlt : l.length + args.length < Number.twoPow 32) :
    Takes o steps (.ofList l) (ArrayFunction.pushOn (.object o) args : Engine H Value)
      (.nat (l.length + args.length)) (.ofList (l ++ args.map some)) := by
  have hvalue (i : Nat) (hi : i < l.length + args.length) :
      overwrite (elementsOf l) l.length args i = elementsOf (l ++ args.map some) i := by
    rw [elementsOf_append, elementsOf_map_some]
    unfold overwrite
    by_cases h : i < l.length
    · rw [if_neg (by omega), if_pos h]
    · rw [if_pos (by omega), if_neg h]
  refine (Takes.ofReceiver l).bind ?_
  dsimp only
  rw [if_neg (not_maxSafe_lt hlt)]
  refine Takes.growing ?_ (Nat.le_add_right _ _) hlt
  exact (Takes.setElements args (Nat.le_refl _)).bind
    ((Takes.setLengthOf (by simp) hlt hvalue).bind (.pure _))

theorem Takes.popFrom (hlt : l.length < Number.twoPow 32) :
    Takes o steps (.ofList l) (ArrayFunction.popFrom (.object o) : Engine H Value)
      (l.getLast?.join.getD .undefined) (.ofList l.dropLast) := by
  refine (Takes.ofReceiver l).bind ?_
  dsimp only
  rw [List.getLast?_eq_getElem?, List.dropLast_eq_take]
  cases hn : l.length with
  | zero =>
    obtain rfl := List.length_eq_zero_iff.mp hn
    exact (Takes.setLengthOf rfl (by decide) fun i hi => rfl).bind (.pure _)
  | succ n =>
    have hvalue (i : Nat) (hi : i < n) :
        Function.update (elementsOf l) n none i = elementsOf (l.take n) i := by
      rw [Function.update_of_ne (Nat.ne_of_lt hi), elementsOf_take, if_pos hi]
    have hmost : n < (Elements.ofList l).most := Nat.lt_of_lt_of_eq (Nat.lt_succ_self n) hn.symm
    exact (Takes.get hmost).bind ((Takes.deleteElement hmost).bind
      ((Takes.setLengthOf (by simp [hn]) (by omega) hvalue).bind (.pure _)))

theorem Takes.shiftFrom (hlt : l.length < Number.twoPow 32) :
    Takes o steps (.ofList l) (ArrayFunction.shiftFrom (.object o) : Engine H Value)
      (l.head?.join.getD .undefined) (.ofList l.tail) := by
  refine (Takes.ofReceiver l).bind ?_
  dsimp only
  rw [List.head?_eq_getElem?]
  cases hn : l.length with
  | zero =>
    obtain rfl := List.length_eq_zero_iff.mp hn
    exact (Takes.setLengthOf rfl (by decide) fun i hi => rfl).bind (.pure _)
  | succ n =>
    have hvalue (i : Nat) (hi : i < n) :
        Function.update (moved (elementsOf l) 1 0 n) n none i = elementsOf l.tail i := by
      rw [Function.update_of_ne (Nat.ne_of_lt hi), moved, if_pos (by omega), elementsOf_tail,
        Nat.sub_zero, Nat.add_comm]
    have hmost : (Elements.ofList l).most = n + 1 := hn
    have hmove : Takes o steps (.ofList l) (o.moveElements 1 0 n : Engine H Unit) ()
        ⟨moved (elementsOf l) 1 0 n, l.length, l.length⟩ := .moveElements (by omega) (by omega)
    have hdelete : Takes o steps ⟨moved (elementsOf l) 1 0 n, l.length, l.length⟩
        (o.deleteElement n : Engine H Unit) () _ :=
      .deleteElement (Nat.lt_of_lt_of_eq (Nat.lt_succ_self n) hn.symm)
    exact (Takes.get (by omega)).bind (hmove.bind (hdelete.bind
      ((Takes.setLengthOf (by simp [hn]) (by omega) hvalue).bind (.pure _))))

theorem Takes.unshiftOn {args : List Value} (hlt : l.length + args.length < Number.twoPow 32) :
    Takes o steps (.ofList l) (ArrayFunction.unshiftOn (.object o) args : Engine H Value)
      (.nat (l.length + args.length)) (.ofList (args.map some ++ l)) := by
  have hlength : (args.map some ++ l).length = l.length + args.length := by
    rw [List.length_append, List.length_map, Nat.add_comm]
  refine (Takes.ofReceiver l).bind ?_
  dsimp only
  by_cases hpos : 0 < args.length
  · have hvalue (i : Nat) (hi : i < l.length + args.length) :
        overwrite (moved (elementsOf l) 0 args.length l.length) 0 args i
          = elementsOf (args.map some ++ l) i := by
      rw [elementsOf_append, elementsOf_map_some, List.length_map]
      unfold overwrite
      by_cases h : i < args.length
      · rw [if_pos (by omega), if_pos h, Nat.sub_zero]
      · rw [if_neg (by omega), if_neg h, moved, if_pos (by omega), Nat.zero_add]
    rw [if_pos hpos, if_neg (not_maxSafe_lt hlt)]
    refine Takes.growing ?_ (Nat.le_add_right _ _) hlt
    have hmove : Takes o steps ⟨elementsOf l, l.length, l.length + args.length⟩
        (o.moveElements 0 args.length l.length : Engine H Unit) ()
        ⟨moved (elementsOf l) 0 args.length l.length, l.length, l.length + args.length⟩ :=
      .moveElements (by simp) (by simp; omega)
    have hset : Takes o steps
        ⟨moved (elementsOf l) 0 args.length l.length, l.length, l.length + args.length⟩
        (o.setElements 0 args : Engine H Unit) () ⟨overwrite _ 0 args, _, _⟩ :=
      .setElements args (by simp)
    exact hmove.bind (hset.bind ((Takes.setLengthOf hlength hlt hvalue).bind (.pure _)))
  · obtain rfl := List.length_eq_zero_iff.mp (Nat.eq_zero_of_not_pos hpos)
    rw [if_neg hpos]
    exact (Takes.setLengthOf hlength hlt fun i hi => rfl).bind (.pure _)

section Replacement

variable {items : List Value} {start removed length newLength i : Nat} {r : Value}

/-- The elements behind a run that is replaced, moved to their new places. -/
theorem moved_eq_replaced (hrange : start + removed ≤ l.length)
    (hi : i < l.length - removed + items.length)
    (hrun : ¬(start ≤ i ∧ i < start + items.length)) :
    moved (elementsOf l) (start + removed) (start + items.length) (l.length - start - removed) i
      = elementsOf (replaced l start removed items) i := by
  rw [elementsOf_replaced _ _ (by omega), moved]
  by_cases hlow : i < start
  · rw [if_neg (by omega), if_pos hlow]
  · have hindex : start + removed + (i - (start + items.length)) = i - items.length + removed := by
      omega
    rw [if_pos (by omega), if_neg hlow, if_neg (by omega), hindex]

/-- The elements beside a run that is replaced by one of its own length. -/
theorem elementsOf_eq_replaced (hrange : start + items.length ≤ l.length)
    (hrun : ¬(start ≤ i ∧ i < start + items.length)) :
    elementsOf l i = elementsOf (replaced l start items.length items) i := by
  rw [elementsOf_replaced _ _ (by omega)]
  split
  · rfl
  · rw [if_neg (by omega), Nat.sub_add_cancel (by omega)]

/-- New elements and a new length leave a list with a run replaced, if the other elements are in
their places. -/
theorem Takes.setRun {f : Nat → Option Value} {most : Nat}
    (hrange : start + removed ≤ l.length)
    (hlt : l.length - removed + items.length < Number.twoPow 32)
    (hmost : start + items.length ≤ most)
    (hf : ∀ i < l.length - removed + items.length, ¬(start ≤ i ∧ i < start + items.length) →
      f i = elementsOf (replaced l start removed items) i) :
    Takes o steps ⟨f, l.length, most⟩ (do
        o.setElements start items
        o.setLength (l.length - removed + items.length)
        return r : Engine H Value) r (.ofList (replaced l start removed items)) := by
  have hvalue (i : Nat) (hi : i < l.length - removed + items.length) :
      overwrite f start items i = elementsOf (replaced l start removed items) i := by
    unfold overwrite
    split
    · next hrun => rw [elementsOf_replaced _ _ (by omega), if_neg (by omega), if_pos (by omega)]
    · next hrun => exact hf i hi hrun
  exact (Takes.setElements items hmost).bind
    ((Takes.setLengthOf (length_replaced items hrange) hlt hvalue).bind (.pure _))

/-- The part of a splice after the elements to be removed have been copied: the rest of the list is
moved, what is left over is deleted, and the new elements are set. -/
theorem Takes.replaceRun (hl : l.length = length) (hlt : length < Number.twoPow 32)
    (hnew : length - removed + items.length = newLength) (hnewlt : newLength < Number.twoPow 32)
    (hrange : start + removed ≤ length) :
    Takes o steps (.ofList l) (do
        if items.length ≠ removed then
          o.moveElements (start + removed) (start + items.length) (length - start - removed)
        if items.length < removed then
          Engine.forRangeDown o.deleteElement (length - newLength) length
        o.setElements start items
        o.setLength newLength
        return r : Engine H Value) r (.ofList (replaced l start removed items)) := by
  subst hl hnew
  by_cases heq : items.length = removed
  · subst heq
    rw [if_neg (not_not_intro rfl), if_neg (Nat.lt_irrefl _)]
    exact Takes.setRun hrange hnewlt hrange fun i _ hrun => elementsOf_eq_replaced hrange hrun
  · obtain ⟨most, hmost⟩ : ∃ most, most = max l.length (l.length - removed + items.length) :=
      ⟨_, rfl⟩
    have hmove : Takes o steps ⟨elementsOf l, l.length, most⟩
        (o.moveElements (start + removed) (start + items.length) (l.length - start - removed) :
          Engine H Unit) ()
        ⟨moved (elementsOf l) (start + removed) (start + items.length)
          (l.length - start - removed), l.length, most⟩ :=
      .moveElements (by dsimp only; omega) (by dsimp only; omega)
    have hroom : start + items.length ≤ most := by omega
    rw [if_pos heq]
    refine Takes.growing (hmove.bind ?_) (by omega) (by omega)
    by_cases hless : items.length < removed
    · rw [if_pos hless]
      refine (Takes.deleteElements (Nat.sub_le _ _) (by dsimp only; omega)).bind
        (Takes.setRun hrange hnewlt hroom fun i hi hrun => ?_)
      rw [cleared, if_neg (by omega)]
      exact moved_eq_replaced hrange hi hrun
    · rw [if_neg hless]
      exact Takes.setRun hrange hnewlt hroom fun i hi hrun => moved_eq_replaced hrange hi hrun

end Replacement

/-! ### Filling and reversing -/

/-- Elements written over others leave a list with a run replaced. -/
theorem overwrite_elementsOf {start : Nat} (vs : List Value) (h : start + vs.length ≤ l.length) :
    overwrite (elementsOf l) start vs = elementsOf (replaced l start vs.length vs) := by
  funext i
  rw [elementsOf_replaced _ _ (by omega)]
  unfold overwrite
  by_cases hlow : i < start
  · rw [if_neg (by omega), if_pos hlow]
  · rw [if_neg hlow]
    by_cases hrun : i < start + vs.length
    · rw [if_pos (by omega), if_pos hrun]
    · rw [if_neg (by omega), if_neg hrun, Nat.sub_add_cancel (by omega)]

theorem Takes.fillIn {args : List Value} {start count : Nat}
    (hargs : ∀ v ∈ (args.drop 1).take 2, v.IsIndexArgument) (hlt : l.length < Number.twoPow 32)
    (hstart : (argument args 1).indexIn l.length 0 = start)
    (hcount : (argument args 2).indexIn l.length l.length - start = count) :
    Takes o steps (.ofList l) (ArrayFunction.fillIn (.object o) args : Engine H Value) (.object o)
      (.ofList (replaced l start count (List.replicate count (argument args 0)))) := by
  subst hcount hstart
  have h53 : l.length < 2 ^ 53 := Nat.lt_trans hlt (by decide)
  have hle := (argument args 1).indexIn_le (Nat.zero_le l.length)
  have hle' := (argument args 2).indexIn_le (Nat.le_refl l.length)
  refine (Takes.ofReceiver l).bind ?_
  refine Takes.bind (.of_gives fun _ _ _ _ _ => .of_eq
    (relativeIndex_act (argument_isIndexArgument (i := 0) hargs (by decide)) h53 _ _)) ?_
  refine Takes.bind (.of_gives fun _ _ _ _ _ => .of_eq
    (relativeIndex_act (argument_isIndexArgument (i := 1) hargs (by decide)) h53 _ _)) ?_
  generalize (argument args 1).indexIn l.length 0 = start at hle ⊢
  generalize (argument args 2).indexIn l.length l.length = stop at hle' ⊢
  have hrange : start + (stop - start) ≤ l.length := by omega
  have hfilled : Elements.ofList
      (replaced l start (stop - start) (List.replicate (stop - start) (argument args 0)))
        = ⟨overwrite (elementsOf l) start (List.replicate (stop - start) (argument args 0)),
          l.length, l.length⟩ := by
    have hlength := length_replaced (List.replicate (stop - start) (argument args 0)) hrange
    have hvalue := overwrite_elementsOf (List.replicate (stop - start) (argument args 0))
      (by rwa [List.length_replicate])
    rw [List.length_replicate] at hlength hvalue
    have hsame : l.length - (stop - start) + (stop - start) = l.length := by omega
    rw [Elements.ofList, hlength, hsame, hvalue]
  rw [hfilled]
  exact (Takes.fillElements (s := .ofList l) (argument args 0) hrange).bind (.pure _)

/-- Reversing a list is exchanging its elements from both ends to the middle. -/
theorem turned_elementsOf (l : List (Option Value)) :
    turned (elementsOf l) l.length (l.length / 2) = elementsOf l.reverse := by
  funext i
  unfold turned
  by_cases hi : i < l.length
  · rw [elementsOf_reverse hi]
    by_cases hpair : i < l.length / 2 ∨ l.length - l.length / 2 ≤ i ∧ i < l.length
    · rw [if_pos hpair]
    · -- the element in the middle of an odd number of them
      have hmiddle : l.length - 1 - i = i := by omega
      rw [if_neg hpair, hmiddle]
  · rw [if_neg (by omega), elementsOf_eq_none (Nat.not_lt.mp hi),
      elementsOf_eq_none (by rw [List.length_reverse]; omega)]

theorem Takes.reverseIn :
    Takes o steps (.ofList l) (ArrayFunction.reverseIn (.object o) : Engine H Value) (.object o)
      (.ofList l.reverse) := by
  have hreversed : Elements.ofList l.reverse
      = ⟨turned (elementsOf l) l.length (l.length / 2), l.length, l.length⟩ := by
    rw [Elements.ofList, turned_elementsOf, List.length_reverse]
  rw [hreversed]
  exact (Takes.ofReceiver l).bind ((Takes.exchangeElements (s := .ofList l) (Nat.le_refl _)).bind
    (.pure _))

end ScriptEngine
