import ScriptEngine.Proofs.ArrayMutation
import ScriptEngine.Proofs.ArraySpecies

/-!
# Copying elements to a new array

Methods that return a new array copy elements to it one by one and leave out the holes. The new
array is none of the objects that were there before, so that what is known of those remains true
while it grows.

## Main definitions

* `Realm.Spreads`: concatenation takes the elements of an array.
* `Realm.Contributes`: what a value contributes to a concatenation.

## Main results

* `copyElements_gives`: copying a range of elements.
* `appendTo_gives`, `concatenates_gives`: appending the contents of one value, and of many.
-/

namespace ScriptEngine

open Engine

variable {H : HostTypes}

section Copy

variable {base realm : Realm H} {o r : ObjectId} {object target : Object H} {s : Elements}
  {acc part : List (Option Value)} {steps start n : Nat}

/-- A change of an object that was not there does not change what was. -/
theorem Realm.Retains.putObject (h : base.Retains realm) (hnew : base.object? r = none)
    (after : Object H) : base.Retains (realm.putObject r after) := by
  intro q existing hq
  rw [Realm.object?_putObject_of_ne ?_]
  · exact h q existing hq
  · rintro rfl
    cases hnew.symm.trans hq

/-- An element is created at the end of a new array, or a hole is left in its place. -/
theorem createElement?_gives {i : Nat} (ht : realm.object? r = some target)
    (hstores : target.Stores (elementsOf acc) n) (hacc : acc.length = i)
    (hlt : i + 1 < Number.twoPow 32) (hl : ¬realm.deeper.deeper.AtLimit) (e : Option Value) :
    ∃ (after : Object H) (m : Nat), after.Stores (elementsOf (acc ++ [e])) m
      ∧ target.SharesRest after
      ∧ ∀ host bound, Gives (steps + 4) bound ((match e with
            | some v => r.createElement i v
            | none => pure () : Engine H Unit).act (.bounded host bound) realm)
          (.ok () (realm.putObject r after)) := by
  have hmax : Number.twoPow 32 = PropertyKey.maxIndex + 2 := by decide
  rw [elementsOf_concat, hacc]
  cases e with
  | none =>
    refine ⟨target, n, ?_, .refl target, fun host bound => .of_eq ?_⟩
    · rw [← elementsOf_eq_none (l := acc) (Nat.le_of_eq hacc), Function.update_eq_self]
      exact hstores
    · rw [Realm.putObject_self ht]
      rfl
  | some v =>
    obtain ⟨after, hafter, hrest, hgives⟩ := hstores.createElement_gives ht (i := i) (by omega) hl v
    exact ⟨after, _, hafter, hrest, fun host bound => (hgives host bound).mono (by omega)⟩

/-- Copying some elements of an array to the end of a new one. -/
theorem copyRange_gives {at_ i : Nat} (hsource : base.HoldsElements o object s steps)
    (hnew : base.object? r = none) (hretains : base.Retains realm)
    (hroom : ¬(realm.atDepth (realm.callDepth + steps + 3)).AtLimit)
    (ht : realm.object? r = some target) (hstores : target.Stores (elementsOf acc) n)
    (hacc : acc.length = at_ + i)
    (hpart : ∀ k < part.length, s.get (start + (i + k)) = elementsOf part k)
    (hmost : start + (i + part.length) ≤ s.most)
    (hlt : acc.length + part.length < Number.twoPow 32) :
    ∃ (after : Object H) (m : Nat), after.Stores (elementsOf (acc ++ part)) m
      ∧ target.SharesRest after
      ∧ ∀ host bound, Gives (steps + 4) bound ((forRange (fun i => do
            match ← o.element? (start + i) with
            | some v => r.createElement (at_ + i) v
            | none => pure ()) i part.length : Engine H Unit).act (.bounded host bound) realm)
          (.ok () (realm.putObject r after)) := by
  induction part generalizing realm target acc n i with
  | nil =>
    refine ⟨target, n, by rwa [List.append_nil], .refl target, fun host bound => .of_eq ?_⟩
    rw [Realm.putObject_self ht]
    rfl
  | cons e part ih =>
    rw [List.length_cons] at hlt hmost
    have hread (host : Host H) (bound : Nat) : Gives (steps + 4) bound
        ((o.element? (start + i)).act (.bounded host bound) realm) (.ok e realm) := by
      have hvalue : s.get (start + i) = e := hpart 0 (Nat.succ_pos _)
      rw [← hvalue]
      exact (hsource.retained hretains hroom).element?_gives (by omega)
    have hl : ¬realm.deeper.deeper.AtLimit :=
      fun h => hroom (Realm.atLimit_of_le (m := realm.callDepth + 1 + 1) (by omega) h)
    obtain ⟨middle, m, hmiddle, hrest, hcreate⟩ :=
      createElement?_gives ht hstores hacc (by omega) hl e
    obtain ⟨after, m', hafter, hrest', hothers⟩ := ih (i := i + 1)
      (hretains.putObject hnew middle) hroom (Realm.object?_putObject_self ht) hmiddle
      (by rw [List.length_append, List.length_singleton, hacc, Nat.add_assoc])
      (fun k hk => by
        have h := hpart (k + 1) (Nat.succ_lt_succ hk)
        rw [Nat.add_assoc, Nat.add_comm 1]
        exact h)
      (by omega) (by rw [List.length_append, List.length_singleton]; omega)
    rw [List.append_assoc, List.singleton_append] at hafter
    refine ⟨after, m', hafter, hrest.trans hrest', fun host bound => ?_⟩
    have hothers := hothers host bound
    rw [Realm.putObject_putObject] at hothers
    exact Gives.bindEngine ((hread host bound).bindEngine (hcreate host bound)) hothers

/-- Copying a range of elements of an array to the end of a new one. -/
theorem copyElements_gives (hsource : base.HoldsElements o object s steps)
    (hnew : base.object? r = none) (hretains : base.Retains realm)
    (hroom : ¬(realm.atDepth (realm.callDepth + steps + 3)).AtLimit)
    (ht : realm.object? r = some target) (hstores : target.Stores (elementsOf acc) n)
    (hpart : ∀ k < part.length, s.get (start + k) = elementsOf part k)
    (hmost : start + part.length ≤ s.most)
    (hlt : acc.length + part.length < Number.twoPow 32) :
    ∃ (after : Object H) (m : Nat), after.Stores (elementsOf (acc ++ part)) m
      ∧ target.SharesRest after
      ∧ ∀ host bound, Gives (steps + 4) bound
          ((ArrayFunction.copyElements o r start acc.length part.length).act
            (.bounded host bound) realm) (.ok () (realm.putObject r after)) :=
  copyRange_gives (i := 0) hsource hnew hretains hroom ht hstores rfl
    (fun k hk => by rw [Nat.zero_add]; exact hpart k hk) (by omega) hlt

end Copy

/-! ### Concatenation -/

/-- Concatenation asks an array whether its elements are to be taken, and hears nothing. -/
def Realm.Spreads (realm : Realm H) (o : ObjectId) (steps : Nat) : Prop :=
  ∃ m ≤ steps, ∃ found, realm.FindsAfter (.wellKnown .isConcatSpreadable) m o found
    ∧ ∀ d, found = some d → d.isData ∧ d.valueD = .undefined

/-- What a value contributes to a concatenation: an array its elements and holes, and a primitive
value itself. -/
inductive Realm.Contributes (realm : Realm H) (steps : Nat) :
    Value → List (Option Value) → Prop
  | primitive {v : Value} (h : ∀ o, v ≠ .object o) : Contributes realm steps v [some v]
  | array {o : ObjectId} {object : Object H} {l : List (Option Value)}
      (h : realm.HoldsElements o object (.ofList l) steps) (hs : realm.Spreads o steps) :
      Contributes realm steps (.object o) l

section Concatenation

variable {base realm : Realm H} {r : ObjectId} {target : Object H} {acc l : List (Option Value)}
  {steps n : Nat} {v : Value}

theorem Realm.Spreads.retained {o : ObjectId} (h : base.Spreads o steps)
    (hr : base.Retains realm) : realm.Spreads o steps := by
  obtain ⟨m, hm, found, hfinds, hfound⟩ := h
  exact ⟨m, hm, found, hfinds.retained hr, hfound⟩

open ArrayFunction in
/-- An array is taken apart. -/
theorem isSpreadable_gives {o : ObjectId} {object : Object H} {host : Host H} {bound : Nat}
    (h : realm.HoldsElements o object (.ofList l) steps) (hs : realm.Spreads o steps) :
    Gives (steps + 4) bound ((isSpreadable (.object o)).act (.bounded host bound) realm)
      (.ok true realm) := by
  obtain ⟨m, hm, found, hfinds, hfound⟩ := hs
  obtain ⟨_, -, -, hstores⟩ := h.stores
  have hvalue : found.elim Value.undefined Descriptor.valueD = .undefined := by
    cases hf : found with
    | none => rfl
    | some d => exact (hfound d hf).2
  have hget : Gives (steps + 4) bound
      ((o.get (.wellKnown .isConcatSpreadable)).act (.bounded host bound) realm)
      (.ok .undefined realm) := by
    rw [← hvalue]
    exact (hfinds.getFor_gives (fun d hd => (hfound d hd).1) realm.callDepth
      (h.not_atLimit _ (by omega))).mono (by omega)
  have harray : Gives (steps + 4) bound (o.isArray.act (.bounded host bound) realm)
      (.ok object.kind.isArray realm) :=
    (ObjectId.isArray_gives h.stored h.isPlain).mono (by omega)
  rw [hstores.isArray] at harray
  exact hget.bindEngine harray

open ArrayFunction in
/-- Appending the contents of a value to a new array. -/
theorem appendTo_gives (hv : base.Contributes steps v l) (hnew : base.object? r = none)
    (hretains : base.Retains realm)
    (hroom : ¬(realm.atDepth (realm.callDepth + steps + 3)).AtLimit)
    (ht : realm.object? r = some target) (hstores : target.Stores (elementsOf acc) n)
    (hlt : acc.length + l.length < Number.twoPow 32) :
    ∃ (after : Object H) (m : Nat), after.Stores (elementsOf (acc ++ l)) m
      ∧ target.SharesRest after
      ∧ ∀ host bound, Gives (steps + 4) bound
        ((appendTo r acc.length v).act (.bounded host bound) realm)
        (.ok (acc ++ l).length (realm.putObject r after)) := by
  rw [List.length_append]
  cases hv with
  | primitive hprimitive =>
    have hmax : Number.twoPow 32 = PropertyKey.maxIndex + 2 := by decide
    rw [List.length_singleton] at hlt
    have hl : ¬realm.deeper.deeper.AtLimit :=
      fun h => hroom (Realm.atLimit_of_le (m := realm.callDepth + 1 + 1) (by omega) h)
    obtain ⟨after, hafter, hrest, hgives⟩ :=
      hstores.createElement_gives ht (i := acc.length) (by omega) hl v
    rw [← elementsOf_concat] at hafter
    refine ⟨after, _, hafter, hrest, fun host bound => ?_⟩
    have hcreate : Gives (steps + 4) bound ((do
        r.createElement acc.length v
        return acc.length + 1 : Engine H Nat).act (.bounded host bound) realm)
          (.ok (acc.length + 1) (realm.putObject r after)) :=
      ((hgives host bound).mono (by omega)).bindEngine (.of_eq rfl)
    cases v with
    | object o => exact absurd rfl (hprimitive o)
    | _ => exact hcreate
  | @array o object l h hs =>
    have hsource := h.retained hretains hroom
    have hall (k : Nat) (_ : k < l.length) :
        (Elements.ofList l).get (0 + k) = elementsOf l k := by
      rw [Nat.zero_add]
      rfl
    obtain ⟨after, m, hafter, hrest, hgives⟩ := copyElements_gives h hnew hretains hroom ht hstores
      hall (Nat.le_of_eq (Nat.zero_add _)) hlt
    refine ⟨after, m, hafter, hrest, fun host bound => ?_⟩
    refine (isSpreadable_gives hsource (hs.retained hretains)).bindEngine ?_
    refine hsource.lengthOfArrayLike_gives.bindEngine ?_
    rw [if_neg (not_maxSafe_lt hlt)]
    exact (hgives host bound).bindEngine (.of_eq rfl)

open ArrayFunction in
/-- Appending the contents of many values to a new array, one after the other. -/
theorem concatenates_gives {contents : Value → List (Option Value)} {items : List Value}
    (hitems : ∀ v ∈ items, base.Contributes steps v (contents v)) (hnew : base.object? r = none)
    (hretains : base.Retains realm)
    (hroom : ¬(realm.atDepth (realm.callDepth + steps + 3)).AtLimit)
    (ht : realm.object? r = some target) (hstores : target.Stores (elementsOf acc) n)
    (hlt : acc.length + (items.flatMap contents).length < Number.twoPow 32) :
    ∃ (after : Object H) (m : Nat), after.Stores (elementsOf (acc ++ items.flatMap contents)) m
      ∧ target.SharesRest after
      ∧ ∀ host bound, Gives (steps + 4) bound
        ((items.foldlM (appendTo r) acc.length).act (.bounded host bound) realm)
        (.ok (acc ++ items.flatMap contents).length (realm.putObject r after)) := by
  induction items generalizing realm target acc n with
  | nil =>
    refine ⟨target, n, by rwa [List.flatMap_nil, List.append_nil], .refl target,
      fun host bound => ?_⟩
    rw [Realm.putObject_self ht, List.flatMap_nil, List.append_nil]
    exact .of_eq rfl
  | cons v items ih =>
    obtain ⟨hv, hitems⟩ := List.forall_mem_cons.mp hitems
    rw [List.flatMap_cons, List.length_append] at hlt
    obtain ⟨middle, m, hmiddle, hrest, hfirst⟩ := appendTo_gives hv hnew hretains hroom ht hstores
      (by omega)
    obtain ⟨after, m', hafter, hrest', hothers⟩ := ih hitems (hretains.putObject hnew middle) hroom
      (Realm.object?_putObject_self ht) hmiddle (by rw [List.length_append]; omega)
    rw [List.append_assoc, ← List.flatMap_cons] at hafter
    refine ⟨after, m', hafter, hrest.trans hrest', fun host bound => ?_⟩
    have hothers := hothers host bound
    rw [Realm.putObject_putObject, List.append_assoc, ← List.flatMap_cons] at hothers
    rw [List.foldlM_cons]
    exact (hfirst host bound).bindEngine hothers

end Concatenation

end ScriptEngine
