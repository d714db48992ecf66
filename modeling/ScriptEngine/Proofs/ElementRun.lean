import ScriptEngine.Proofs.ArrayElements

/-!
# Loops over the elements of an array

The methods that change an array go over ranges of its elements. Each loop has an invariant that
says which elements have been dealt with. Where a range of elements is moved to one that overlaps
it, the order of the steps sees to it that no element is written over before it is read.

## Main definitions

* `moved`, `cleared`, `turned`: what the loops make of the elements.

## Main results

* `Takes.forRange`, `Takes.forRangeDown`: a loop by what its steps do.
* `Takes.setElements`, `Takes.moveElements`, `Takes.deleteElements`, `Takes.fillElements`,
  `Takes.exchangeElements`: the loops of the methods.
-/

namespace ScriptEngine

open Engine

variable {H : HostTypes} {o : ObjectId} {steps : Nat} {s : Elements} {f : Nat → Option Value}

/-! ### Loops in general -/

/-- A loop that goes up, by what each step does. -/
theorem Takes.forRange {S : Nat → Elements} {step : Nat → Engine H Unit} {start count : Nat}
    (h : ∀ k, start ≤ k → k < start + count → Takes o steps (S k) (step k) () (S (k + 1))) :
    Takes o steps (S start) (Engine.forRange step start count) () (S (start + count)) := by
  induction count generalizing start with
  | zero => exact .pure ()
  | succ count ih =>
    have hnext (k : Nat) (hk : start + 1 ≤ k) (hlt : k < start + 1 + count) :
        Takes o steps (S k) (step k) () (S (k + 1)) := h k (by omega) (by omega)
    have hrest := ih hnext
    rw [Nat.succ_add_eq_add_succ] at hrest
    exact (h start (Nat.le_refl _) (by omega)).bind hrest

/-- A loop that goes down, by what each step does. -/
theorem Takes.forRangeDown {S : Nat → Elements} {step : Nat → Engine H Unit} {count stop : Nat}
    (hle : count ≤ stop)
    (h : ∀ k, stop - count ≤ k → k < stop → Takes o steps (S (k + 1)) (step k) () (S k)) :
    Takes o steps (S stop) (Engine.forRangeDown step count stop) () (S (stop - count)) := by
  induction count generalizing stop with
  | zero => exact .pure ()
  | succ count ih =>
    obtain ⟨stop, rfl⟩ : ∃ n, stop = n + 1 := ⟨stop - 1, by omega⟩
    have hnext (k : Nat) (hk : stop - count ≤ k) (hlt : k < stop) :
        Takes o steps (S (k + 1)) (step k) () (S k) := h k (by omega) (by omega)
    rw [Nat.add_sub_add_right]
    exact (h stop (by omega) (Nat.lt_succ_self _)).bind (ih (by omega) hnext)

/-! ### Writing -/

theorem overwrite_concat (f : Nat → Option Value) (start : Nat) (vs : List Value) (v : Value) :
    Function.update (overwrite f start vs) (start + vs.length) (some v)
      = overwrite f start (vs ++ [v]) := by
  funext j
  rw [Function.update_apply]
  unfold overwrite
  rw [List.length_append, List.length_singleton]
  by_cases heq : j = start + vs.length
  · subst heq
    rw [if_pos rfl, if_pos (by omega), Nat.add_sub_cancel_left, List.getElem?_concat_length]
  · rw [if_neg heq]
    by_cases hj : start ≤ j ∧ j < start + vs.length
    · rw [if_pos hj, if_pos (by omega), List.getElem?_append_left (by omega)]
    · rw [if_neg hj, if_neg (by omega)]

/-- Setting a run of elements. -/
theorem Takes.setElements {i : Nat} (vs : List Value) (hi : i + vs.length ≤ s.most) :
    Takes o steps s (o.setElements i vs : Engine H Unit) ()
      { s with get := overwrite s.get i vs } := by
  induction vs generalizing i s with
  | nil =>
    rw [overwrite_nil]
    exact .pure ()
  | cons v vs ih =>
    rw [List.length_cons] at hi
    rw [overwrite_cons]
    have hrest : i + 1 + vs.length ≤ (s.update i (some v)).most := by
      change _ ≤ s.most
      omega
    exact (Takes.setElement (by omega) v).bind (ih hrest)

/-- Setting all elements of a range to one value. -/
theorem Takes.fillElements {start count : Nat} (v : Value) (hi : start + count ≤ s.most) :
    Takes o steps s (Engine.forRange (fun i => o.setElement i v) start count : Engine H Unit) ()
      { s with get := overwrite s.get start (List.replicate count v) } := by
  -- the elements below `k` have been set
  let S (k : Nat) : Elements :=
    { s with get := overwrite s.get start (List.replicate (k - start) v) }
  have hstep (k : Nat) (hk : start ≤ k) (hlt : k < start + count) :
      Takes o steps (S k) (o.setElement k v : Engine H Unit) () (S (k + 1)) := by
    have hnext : S (k + 1) = (S k).update k (some v) := by
      have hlength : start + (List.replicate (k - start) v).length = k := by
        rw [List.length_replicate]
        omega
      have hsucc : k + 1 - start = (k - start) + 1 := by omega
      have h := overwrite_concat s.get start (List.replicate (k - start) v) v
      rw [hlength, ← List.replicate_succ', ← hsucc] at h
      exact congrArg (fun get => { s with get }) h.symm
    rw [hnext]
    exact .setElement (s := S k) (show k < s.most by omega) v
  have h := Takes.forRange hstep
  have hstart : S start = s := by
    simp only [S, Nat.sub_self, List.replicate_zero, overwrite_nil]
  have hstop : S (start + count)
      = { s with get := overwrite s.get start (List.replicate count v) } := by
    simp only [S, Nat.add_sub_cancel_left]
  rwa [hstart, hstop] at h

/-! ### Moving -/

/-- The elements with a range of them moved to another place. -/
def moved (f : Nat → Option Value) (source target count : Nat) : Nat → Option Value :=
  fun j => if target ≤ j ∧ j < target + count then f (source + (j - target)) else f j

theorem moved_zero (f : Nat → Option Value) (source target : Nat) :
    moved f source target 0 = f :=
  funext fun _ => if_neg (by omega)

/-- Moving one element more, upwards in the range. -/
theorem moved_succ {source target : Nat} (hlt : target < source) (count : Nat) :
    Function.update (moved f source target count) (target + count)
        (moved f source target count (source + count))
      = moved f source target (count + 1) := by
  funext j
  rw [Function.update_apply]
  unfold moved
  by_cases heq : j = target + count
  · subst heq
    rw [if_pos rfl, if_neg (by omega), if_pos (by omega), Nat.add_sub_cancel_left]
  · rw [if_neg heq]
    by_cases hj : target ≤ j ∧ j < target + count
    · rw [if_pos hj, if_pos (by omega)]
    · rw [if_neg hj, if_neg (by omega)]

/-- Moving one element more, downwards in the range. -/
theorem moved_pred {source target : Nat} (hle : source ≤ target) (count : Nat) :
    Function.update (moved f (source + 1) (target + 1) count) target
        (moved f (source + 1) (target + 1) count source)
      = moved f source target (count + 1) := by
  funext j
  rw [Function.update_apply]
  unfold moved
  by_cases heq : j = target
  · subst heq
    rw [if_pos rfl, if_neg (by omega), if_pos (by omega), Nat.sub_self, Nat.add_zero]
  · rw [if_neg heq]
    by_cases hj : target + 1 ≤ j ∧ j < target + 1 + count
    · have hindex : source + 1 + (j - (target + 1)) = source + (j - target) := by omega
      rw [if_pos hj, if_pos (by omega), hindex]
    · rw [if_neg hj, if_neg (by omega)]

/-- Moving one element, or a hole. -/
theorem Takes.moveElement {source target : Nat} (hs : source < s.most) (ht : target < s.most) :
    Takes o steps s (o.moveElement source target : Engine H Unit) ()
      (s.update target (s.get source)) := by
  refine (Takes.element? hs).bind ?_
  cases s.get source with
  | some v => exact .setElement ht v
  | none => exact .deleteElement ht

/-- Moving a range of elements to one that may overlap it. -/
theorem Takes.moveElements {source target count : Nat} (hs : source + count ≤ s.most)
    (ht : target + count ≤ s.most) :
    Takes o steps s (o.moveElements source target count : Engine H Unit) ()
      { s with get := moved s.get source target count } := by
  unfold ObjectId.moveElements
  by_cases hlt : target < source
  · -- the first `k` elements of the range have been moved
    let S (k : Nat) : Elements := { s with get := moved s.get source target k }
    have hstep (k : Nat) (_ : 0 ≤ k) (hk : k < 0 + count) : Takes o steps (S k)
        (o.moveElement (source + k) (target + k) : Engine H Unit) () (S (k + 1)) := by
      have hnext : S (k + 1) = (S k).update (target + k) ((S k).get (source + k)) :=
        congrArg (fun get => { s with get }) (moved_succ hlt k).symm
      rw [hnext]
      exact .moveElement (s := S k) (show source + k < s.most by omega)
        (show target + k < s.most by omega)
    have hstart : S 0 = s := congrArg (fun get => { s with get }) (moved_zero _ _ _)
    have h := Takes.forRange hstep
    rw [hstart, Nat.zero_add] at h
    rw [if_pos hlt]
    exact h
  · -- the elements of the range from the `k`th on have been moved
    let S (k : Nat) : Elements :=
      { s with get := moved s.get (source + k) (target + k) (count - k) }
    have hstep (k : Nat) (_ : count - count ≤ k) (hk : k < count) : Takes o steps (S (k + 1))
        (o.moveElement (source + k) (target + k) : Engine H Unit) () (S k) := by
      have hrest : count - k = count - (k + 1) + 1 := by omega
      have hnext : S k = (S (k + 1)).update (target + k) ((S (k + 1)).get (source + k)) := by
        have hle : source + k ≤ target + k := by omega
        have h := moved_pred (f := s.get) hle (count - (k + 1))
        rw [← hrest] at h
        exact congrArg (fun get => { s with get }) h.symm
      rw [hnext]
      exact .moveElement (s := S (k + 1)) (show source + k < s.most by omega)
        (show target + k < s.most by omega)
    have h := Takes.forRangeDown (Nat.le_refl count) hstep
    have hstart : S count = s := by
      simp only [S, Nat.sub_self, moved_zero]
    rw [hstart, Nat.sub_self] at h
    rw [if_neg hlt]
    exact h

/-! ### Deleting -/

/-- The elements with holes in a range. -/
def cleared (f : Nat → Option Value) (start stop : Nat) : Nat → Option Value :=
  fun j => if start ≤ j ∧ j < stop then none else f j

/-- Deleting the elements below an index, the last one first. -/
theorem Takes.deleteElements {count stop : Nat} (hle : count ≤ stop) (hs : stop ≤ s.most) :
    Takes o steps s (Engine.forRangeDown o.deleteElement count stop : Engine H Unit) ()
      { s with get := cleared s.get (stop - count) stop } := by
  let S (k : Nat) : Elements := { s with get := cleared s.get k stop }
  have hstep (k : Nat) (_ : stop - count ≤ k) (hlt : k < stop) :
      Takes o steps (S (k + 1)) (o.deleteElement k : Engine H Unit) () (S k) := by
    have hnext : S k = (S (k + 1)).update k none := by
      refine congrArg (fun get => { s with get }) (funext fun j => ?_)
      change cleared s.get k stop j = Function.update (cleared s.get (k + 1) stop) k none j
      rw [Function.update_apply]
      unfold cleared
      by_cases heq : j = k
      · rw [if_pos heq, if_pos (by omega)]
      · rw [if_neg heq]
        by_cases hj : k + 1 ≤ j ∧ j < stop
        · rw [if_pos (by omega), if_pos hj]
        · rw [if_neg (by omega), if_neg hj]
    rw [hnext]
    exact .deleteElement (s := S (k + 1)) (show k < s.most by omega)
  have h := Takes.forRangeDown hle hstep
  have hstart : S stop = s :=
    congrArg (fun get => { s with get }) (funext fun _ => if_neg (by omega))
  rwa [hstart] at h

/-! ### Exchanging -/

/-- The first and the last `k` of `n` elements in the opposite order. -/
def turned (f : Nat → Option Value) (n k : Nat) : Nat → Option Value :=
  fun j => if j < k ∨ n - k ≤ j ∧ j < n then f (n - 1 - j) else f j

/-- Exchanging one more pair. -/
theorem turned_succ {n k : Nat} (hk : k < n / 2) :
    Function.update (Function.update (turned f n k) k (turned f n k (n - k - 1))) (n - k - 1)
        (turned f n k k)
      = turned f n (k + 1) := by
  funext j
  rw [Function.update_apply, Function.update_apply]
  unfold turned
  by_cases hupper : j = n - k - 1
  · have hindex : n - 1 - j = k := by omega
    rw [if_pos hupper, if_neg (by omega), if_pos (by omega), hindex]
  · rw [if_neg hupper]
    by_cases hlower : j = k
    · have hindex : n - 1 - j = n - k - 1 := by omega
      rw [if_pos hlower, if_neg (by omega), if_pos (by omega), hindex]
    · rw [if_neg hlower]
      by_cases hj : j < k ∨ n - k ≤ j ∧ j < n
      · rw [if_pos hj, if_pos (by omega)]
      · rw [if_neg hj, if_neg (by omega)]

/-- Exchanging two elements, either of which may be a hole. -/
theorem Takes.exchange {lower upper : Nat} (hl : lower < s.most) (hu : upper < s.most) :
    Takes o steps s (ArrayFunction.exchange o lower upper : Engine H Unit) ()
      ((s.update lower (s.get upper)).update upper (s.get lower)) := by
  refine (Takes.element? hl).bind ((Takes.element? hu).bind ?_)
  cases hlower : s.get lower with
  | some l =>
    cases s.get upper with
    | some u =>
      exact (Takes.setElement hl u).bind (.setElement (s := s.update lower (some u)) hu l)
    | none => exact (Takes.deleteElement hl).bind (.setElement (s := s.update lower none) hu l)
  | none =>
    cases hupper : s.get upper with
    | some u =>
      exact (Takes.setElement hl u).bind (.deleteElement (s := s.update lower (some u)) hu)
    | none =>
      have hsame : (s.update lower none).update upper none = s := by
        refine congrArg (fun get => { s with get }) ?_
        change Function.update (Function.update s.get lower none) upper none = s.get
        rw [← hlower, Function.update_eq_self, hlower, ← hupper, Function.update_eq_self]
      rw [hsame]
      exact .pure ()

/-- Exchanging the pairs from both ends to the middle. -/
theorem Takes.exchangeElements {n : Nat} (hn : n ≤ s.most) :
    Takes o steps s
      (Engine.forRange (fun i => ArrayFunction.exchange o i (n - i - 1)) 0 (n / 2) : Engine H Unit)
      () { s with get := turned s.get n (n / 2) } := by
  let S (k : Nat) : Elements := { s with get := turned s.get n k }
  have hstep (k : Nat) (_ : 0 ≤ k) (hk : k < 0 + n / 2) :
      Takes o steps (S k) (ArrayFunction.exchange o k (n - k - 1) : Engine H Unit) ()
        (S (k + 1)) := by
    have hnext : S (k + 1)
        = ((S k).update k ((S k).get (n - k - 1))).update (n - k - 1) ((S k).get k) :=
      congrArg (fun get => { s with get }) (turned_succ (by omega)).symm
    rw [hnext]
    exact .exchange (s := S k) (show k < s.most by omega) (show n - k - 1 < s.most by omega)
  have h := Takes.forRange hstep
  have hstart : S 0 = s :=
    congrArg (fun get => { s with get }) (funext fun _ => if_neg (by omega))
  rwa [hstart, Nat.zero_add] at h

end ScriptEngine
