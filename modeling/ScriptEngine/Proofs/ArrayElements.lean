import ScriptEngine.Builtin.Array.Mutation
import ScriptEngine.Proofs.ElementStore

/-!
# Reading and changing the elements of an array

Where no prototype of an array has a property under an index, what a program sees under the indices
of the array are its own elements. Setting an element stores it, deleting one leaves a hole, setting
the length removes what is above, and no other object takes part.

## Main definitions

* `Elements`: the elements of an array and bounds of its length.
* `Realm.InheritsNoElement`: no prototype of an object has a property under an index.
* `Realm.HoldsElements`: an array with its elements.
* `Takes`: what a computation makes of the elements of an array, and of nothing else.

## Main results

* `Realm.HoldsElements.findsAfter`: what is found under an index.
* `Realm.HoldsElements.element?_gives`, `Realm.HoldsElements.get_gives`: reading.
* `Takes.setElement`, `Takes.deleteElement`, `Takes.setLength`: changing.
* `Takes.bind`: one computation after the other.
-/

namespace ScriptEngine

open Engine

variable {H : HostTypes} {α β : Type}

/-! ### Elements -/

/-- What is known of an array: its elements, and two bounds of its length. -/
structure Elements where
  get : Nat → Option Value
  least : Nat
  most : Nat

/-- The elements with another one, or a hole, under an index. -/
def Elements.update (s : Elements) (i : Nat) (v? : Option Value) : Elements :=
  { s with get := Function.update s.get i v? }

/-- The elements below a length. -/
def Elements.cut (s : Elements) (length : Nat) : Elements where
  get := fun i => if i < length then s.get i else none
  least := length
  most := length

/-- No prototype of an object has a property under an index, and fewer than `steps` prototypes are
to be asked for one, all of which keep their own properties themselves. -/
def Realm.InheritsNoElement (realm : Realm H) (object : Object H) (steps : Nat) : Prop :=
  ∀ (i : ArrayIndex) (p : ObjectId), object.prototype = some p →
    ∃ m < steps, realm.FindsAfter (.index i) m p none

namespace Realm.InheritsNoElement

variable {realm : Realm H} {o : ObjectId} {object object' : Object H} {f : Nat → Option Value}
  {n steps : Nat}

/-- What is found under an index is an element of the array itself, if anything. -/
theorem findsAfter (h : realm.InheritsNoElement object steps) (ho : realm.object? o = some object)
    (hs : object.Stores f n) (i : ArrayIndex) :
    ∃ m ≤ steps, realm.FindsAfter (.index i) m o ((f i.val).map .plain) := by
  have hown := hs.ownProperty?_index i
  cases hf : f i.val with
  | some v =>
    rw [hf] at hown
    exact ⟨0, Nat.zero_le _, .own ho hs.isPlain hown⟩
  | none =>
    rw [hf] at hown
    cases hproto : object.prototype with
    | none => exact ⟨0, Nat.zero_le _, .missing ho hs.isPlain hown hproto⟩
    | some p =>
      obtain ⟨m, hm, hfinds⟩ := h i p hproto
      exact ⟨m + 1, hm, .inherited ho hs.isPlain hown hproto hfinds⟩

/-- A search among the prototypes does not come back to the array. -/
theorem not_findsAfter (ho : realm.object? o = some object) {i : ArrayIndex} {p : ObjectId}
    {m m' : Nat} (hproto : object.prototype = some p)
    (hp : realm.FindsAfter (.index i) m p none) (hle : m' ≤ m) :
    ¬realm.FindsAfter (.index i) m' o none := by
  intro hagain
  obtain ⟨hplain, hown⟩ := hagain.finds.isPlain_and_ownProperty? ho
  have hlonger := (hagain.unique (.inherited ho hplain hown hproto hp)).1
  omega

/-- After a change of the array itself its prototypes are as they were. -/
theorem changed (h : realm.InheritsNoElement object steps) (ho : realm.object? o = some object)
    (hrest : object.SharesRest object') :
    (realm.putObject o object').InheritsNoElement object' steps := by
  intro i p hp
  rw [hrest.prototype] at hp
  obtain ⟨m, hm, hfinds⟩ := h i p hp
  exact ⟨m, hm, hfinds.putObject (fun _ hle => not_findsAfter ho hp hfinds hle) object'⟩

end Realm.InheritsNoElement

/-- The request to set an element stores it, whether there was one or a hole. -/
theorem Object.Stores.exists_defines_assignment {object : Object H} {f : Nat → Option Value}
    {n : Nat} (h : object.Stores f n) (j : ArrayIndex) (v : Value) :
    ∃ object', object.Defines (.index j) (object.assignment (.index j) v) object' true
      ∧ object'.Stores (Function.update f j.val (some v)) (max n (j.val + 1))
      ∧ object.SharesRest object' := by
  have hwrite : IsWrite f j v (object.assignment (.index j) v) := by
    rw [IsWrite, Object.assignment, h.ownProperty?_index j, Option.isSome_map]
    cases f j.val with
    | none => exact .inl rfl
    | some w => exact .inr ⟨rfl, rfl⟩
  exact h.exists_defines_element hwrite

/-- An array with its elements, whose prototypes have no property under an index. There is room for
the calls that come with operations on elements. -/
structure Realm.HoldsElements (realm : Realm H) (o : ObjectId) (object : Object H) (s : Elements)
    (steps : Nat) : Prop where
  stored : realm.object? o = some object
  stores : ∃ n, s.least ≤ n ∧ n ≤ s.most ∧ object.Stores s.get n
  bare : realm.InheritsNoElement object steps
  small : s.most < Number.twoPow 32
  room : ¬(realm.atDepth (realm.callDepth + steps + 3)).AtLimit

namespace Realm.HoldsElements

variable {host : Host H} {bound i steps : Nat} {realm after : Realm H} {o : ObjectId}
  {object object' : Object H} {s s' : Elements}

theorem not_atLimit (h : realm.HoldsElements o object s steps) (depth : Nat)
    (hd : depth ≤ realm.callDepth + steps + 3) : ¬(realm.atDepth depth).AtLimit :=
  fun hl => h.room (atLimit_of_le hd hl)

theorem isPlain (h : realm.HoldsElements o object s steps) : object.kind.isPlain := by
  obtain ⟨n, -, -, hstores⟩ := h.stores
  exact hstores.isPlain

/-- A key that may be that of an element. -/
theorem ofNat_eq_index (h : realm.HoldsElements o object s steps) (hi : i < s.most) :
    ∃ j : ArrayIndex, PropertyKey.ofNat i = .index j ∧ j.val = i := by
  have hsmall := h.small
  have hmax : Number.twoPow 32 = PropertyKey.maxIndex + 2 := by decide
  exact ⟨_, PropertyKey.ofNat_eq_index (by omega), rfl⟩

/-- What is found under an index is an element of the array itself, if anything. -/
theorem findsAfter (h : realm.HoldsElements o object s steps) (i : ArrayIndex) :
    ∃ m ≤ steps, realm.FindsAfter (.index i) m o ((s.get i.val).map .plain) := by
  obtain ⟨n, -, -, hstores⟩ := h.stores
  exact h.bare.findsAfter h.stored hstores i

/-- After a change of the array itself its prototypes are as they were. -/
theorem changed (h : realm.HoldsElements o object s steps) (hrest : object.SharesRest object')
    (hstores : ∃ n, s'.least ≤ n ∧ n ≤ s'.most ∧ object'.Stores s'.get n)
    (hsmall : s'.most < Number.twoPow 32) :
    (realm.putObject o object').HoldsElements o object' s' steps :=
  ⟨object?_putObject_self h.stored, hstores, h.bare.changed h.stored hrest, hsmall, h.room⟩

/-- What is said of an array holds in a larger heap, where the limit of calls is the same. -/
theorem retained (h : realm.HoldsElements o object s steps) (hr : realm.Retains after)
    (hroom : ¬(after.atDepth (after.callDepth + steps + 3)).AtLimit) :
    after.HoldsElements o object s steps := by
  refine ⟨hr o object h.stored, h.stores, fun i p hp => ?_, h.small, hroom⟩
  obtain ⟨m, hm, hfinds⟩ := h.bare i p hp
  exact ⟨m, hm, hfinds.retained hr⟩

/-! ### Reading -/

/-- The value under an index; a hole is read as `undefined`. -/
theorem get_gives (h : realm.HoldsElements o object s steps) (hi : i < s.most) :
    Gives (steps + 4) bound ((o.get (.ofNat i)).act (.bounded host bound) realm)
      (.ok ((s.get i).getD .undefined) realm) := by
  obtain ⟨j, hj, rfl⟩ := h.ofNat_eq_index hi
  obtain ⟨m, hm, hfinds⟩ := h.findsAfter j
  have hvalue : ((s.get j.val).map Descriptor.plain).elim Value.undefined Descriptor.valueD
      = (s.get j.val).getD .undefined := by
    cases s.get j.val with
    | none => rfl
    | some v => rfl
  rw [hj, ← hvalue]
  refine (hfinds.getFor_gives (fun d hd => ?_) realm.callDepth (h.not_atLimit _ (by omega))).mono
    (by omega)
  obtain ⟨v, -, rfl⟩ := Option.map_eq_some_iff.mp hd
  rfl

/-- The element under an index, or a hole. -/
theorem element?_gives (h : realm.HoldsElements o object s steps) (hi : i < s.most) :
    Gives (steps + 4) bound ((o.element? i).act (.bounded host bound) realm)
      (.ok (s.get i) realm) := by
  obtain ⟨j, hj, rfl⟩ := h.ofNat_eq_index hi
  obtain ⟨m, hm, hfinds⟩ := h.findsAfter j
  have hhas : Gives (steps + 4) bound
      ((o.hasProperty (.ofNat j.val)).act (.bounded host bound) realm)
      (.ok (s.get j.val).isSome realm) := by
    rw [hj, ← Option.isSome_map (f := Descriptor.plain)]
    exact (hfinds.hasProperty_gives realm.callDepth (h.not_atLimit _ (by omega))).mono (by omega)
  refine hhas.bindEngine ?_
  cases hf : s.get j.val with
  | none => exact .of_eq rfl
  | some v =>
    refine (h.get_gives hi).bindEngine (.of_eq ?_)
    rw [hf]
    rfl

/-- What the request to set an element asks the array to do, wherever the search for the element
ends. -/
theorem setFound_gives (h : realm.HoldsElements o object s steps) {j : ArrayIndex} {v : Value}
    (hdefines : object.Defines (.index j) (object.assignment (.index j) v) object' true)
    {depth : Nat} (hd : depth ≤ realm.callDepth + steps + 1) :
    Gives 3 bound
      ((Ordinary.setFound (((s.get j.val).map Descriptor.plain).getD (.plain .undefined)) (.index j)
        v (.object o)).act (.bounded host bound) (realm.atDepth depth))
      (.ok true ((realm.putObject o object').atDepth depth)) := by
  have hfound : (Ordinary.setFound (((s.get j.val).map Descriptor.plain).getD (.plain .undefined))
      (.index j) v (.object o) : Engine H Bool)
        = Ordinary.setOnReceiver (.index j) v (.object o) := by
    cases s.get j.val with
    | none => rfl
    | some w => rfl
  obtain ⟨n, -, -, hstores⟩ := h.stores
  rw [hfound]
  refine Ordinary.setOnReceiver_gives h.stored h.isPlain
    (h.not_atLimit (depth + 1 + 1) (by omega)) (fun d hd => ?_) hdefines
  rw [hstores.ownProperty?_index j] at hd
  obtain ⟨w, -, rfl⟩ := Option.map_eq_some_iff.mp hd
  exact ⟨rfl, rfl⟩

end Realm.HoldsElements

/-! ### Changing -/

/-- From every realm in which an array has certain elements, a computation leads to one in which the
array has others, and gives a result. All else is as it was. -/
def Takes (o : ObjectId) (steps : Nat) (s : Elements) (x : Engine H α) (a : α) (s' : Elements) :
    Prop :=
  ∀ ⦃realm : Realm H⦄ ⦃object : Object H⦄, realm.HoldsElements o object s steps →
    ∃ object' : Object H, (realm.putObject o object').HoldsElements o object' s' steps
      ∧ object.SharesRest object'
      ∧ ∀ host bound, Gives (steps + 4) bound (x.act (.bounded host bound) realm)
        (.ok a (realm.putObject o object'))

namespace Takes

variable {o : ObjectId} {steps i least most : Nat} {s s' s'' : Elements} {x : Engine H α} {a : α}
  {b : β} {next : α → Engine H β}

/-- A computation that reads. -/
theorem of_gives (h : ∀ ⦃realm : Realm H⦄ ⦃object : Object H⦄,
    realm.HoldsElements o object s steps → ∀ host bound,
      Gives (steps + 4) bound (x.act (.bounded host bound) realm) (.ok a realm)) :
    Takes o steps s x a s := by
  intro realm object helements
  refine ⟨object, ?_, .refl object, ?_⟩
  · rwa [Realm.putObject_self helements.stored]
  · rw [Realm.putObject_self helements.stored]
    exact h helements

theorem pure (a : α) : Takes o steps s (pure a : Engine H α) a s :=
  of_gives fun _ _ _ _ _ => .of_eq rfl

/-- One computation after the other. -/
theorem bind (h : Takes o steps s x a s') (hnext : Takes o steps s' (next a) b s'') :
    Takes o steps s (x >>= next) b s'' := by
  intro realm object helements
  obtain ⟨middle, hmiddle, hrest, hgives⟩ := h helements
  obtain ⟨object', hafter, hrest', hgives'⟩ := hnext hmiddle
  rw [Realm.putObject_putObject] at hafter
  refine ⟨object', hafter, hrest.trans hrest', fun host bound => ?_⟩
  have hgives' := hgives' host bound
  rw [Realm.putObject_putObject] at hgives'
  exact (hgives host bound).bindEngine hgives'

/-- The bounds of the length may be wider. -/
theorem widen (h : Takes o steps { s with least, most } x a s') (hl : least ≤ s.least)
    (hm : s.most ≤ most) (hsmall : most < Number.twoPow 32) : Takes o steps s x a s' := by
  intro realm object helements
  obtain ⟨n, hleast, hmost, hstores⟩ := helements.stores
  exact h ⟨helements.stored, ⟨n, Nat.le_trans hl hleast, Nat.le_trans hmost hm, hstores⟩,
    helements.bare, hsmall, helements.room⟩

theorem get (hi : i < s.most) :
    Takes o steps s (o.get (.ofNat i) : Engine H Value) ((s.get i).getD .undefined) s :=
  of_gives fun _ _ h _ _ => h.get_gives hi

theorem element? (hi : i < s.most) :
    Takes o steps s (o.element? i : Engine H (Option Value)) (s.get i) s :=
  of_gives fun _ _ h _ _ => h.element?_gives hi

/-- Setting an element, whether there was one or a hole. -/
theorem setElement (hi : i < s.most) (v : Value) :
    Takes o steps s (o.setElement i v : Engine H Unit) () (s.update i (some v)) := by
  intro realm object h
  obtain ⟨j, hj, rfl⟩ := h.ofNat_eq_index hi
  obtain ⟨m, hm, hfinds⟩ := h.findsAfter j
  obtain ⟨n, hleast, hmost, hstores⟩ := h.stores
  obtain ⟨object', hdefines, hstores', hrest⟩ := hstores.exists_defines_assignment j v
  refine ⟨object', h.changed hrest ⟨_, Nat.le_trans hleast (Nat.le_max_left _ _),
    Nat.max_le.mpr ⟨hmost, hi⟩, hstores'⟩ h.small, hrest, fun host bound => ?_⟩
  have hset : Gives (steps + 4) bound
      ((o.setFor (.index j) v (.object o)).act (.bounded host bound) realm)
      (.ok true (realm.putObject o object')) :=
    (hfinds.setFor_gives realm.callDepth (h.not_atLimit _ (by omega)) (by decide)
      fun bound => h.setFound_gives hdefines (by omega)).mono (by omega)
  rw [ObjectId.setElement, hj]
  exact hset.bindEngine (.of_eq rfl)

/-- Deleting an element leaves a hole. -/
theorem deleteElement (hi : i < s.most) :
    Takes o steps s (o.deleteElement i : Engine H Unit) () (s.update i none) := by
  intro realm object h
  obtain ⟨j, hj, rfl⟩ := h.ofNat_eq_index hi
  obtain ⟨n, hleast, hmost, hstores⟩ := h.stores
  obtain ⟨hstores', hrest⟩ := hstores.deleted j
  refine ⟨_, h.changed hrest ⟨n, hleast, hmost, hstores'⟩ h.small, hrest, fun host bound => ?_⟩
  have hdelete : Gives (steps + 4) bound
      ((o.delete (.index j)).act (.bounded host bound) realm)
      (.ok true (realm.putObject o (object.deleted (.index j)))) := by
    rw [← hstores.deletes j]
    exact (ObjectId.delete_gives h.stored h.isPlain
      (h.not_atLimit (realm.callDepth + 1) (by omega)) (.index j)).mono (by omega)
  rw [ObjectId.deleteElement, hj]
  exact hdelete.bindEngine (.of_eq rfl)

end Takes

/-! ### The length -/

/-- Setting the length of an array removes what is above it. -/
theorem Object.Stores.setLength_gives {realm : Realm H} {o : ObjectId} {object : Object H}
    {f : Nat → Option Value} {n m : Nat} (h : object.Stores f n)
    (ho : realm.object? o = some object) (hm : m < Number.twoPow 32)
    (hl : ¬(realm.atDepth (realm.callDepth + 3)).AtLimit) :
    ∃ object' : Object H, object'.Stores (fun i => if i < m then f i else none) m
      ∧ object.SharesRest object'
      ∧ ∀ host bound, Gives 4 bound ((o.setLength m).act (.bounded host bound) realm)
        (.ok () (realm.putObject o object')) := by
  obtain ⟨object', hdefines, hstores, hrest⟩ := h.exists_defines_length hm
  refine ⟨object', hstores, hrest, fun host bound => ?_⟩
  have hown : object.ownProperty? lengthKey = some (.data (.nat n) true false false) :=
    (h.ownProperty?_eq _).trans h.length.stored
  have hassignment : object.assignment lengthKey (.nat m) = .ofValue (.nat m) := by
    rw [Object.assignment, hown]
    rfl
  rw [← hassignment] at hdefines
  have hset (bound : Nat) : Gives 3 bound
      ((Ordinary.setFound (.data (.nat n) true false false) lengthKey (.nat m) (.object o)).act
        (.bounded host bound) (realm.atDepth (realm.callDepth + 0 + 1)))
      (.ok true ((realm.putObject o object').atDepth (realm.callDepth + 0 + 1))) := by
    refine Ordinary.setOnReceiver_gives ho h.isPlain hl (fun d hd => ?_) hdefines
    cases hown.symm.trans hd
    exact ⟨rfl, rfl⟩
  have hfinds : realm.FindsAfter lengthKey 0 o _ := .own ho h.isPlain hown
  exact Gives.bindEngine (hfinds.setFor_gives realm.callDepth
    (fun h => hl (Realm.atLimit_of_le (by omega) h)) (by decide) hset) (.of_eq rfl)

theorem Takes.setLength {o : ObjectId} {steps m : Nat} {s : Elements}
    (hm : m < Number.twoPow 32) :
    Takes o steps s (o.setLength m : Engine H Unit) () (s.cut m) := by
  intro realm object h
  obtain ⟨n, -, -, hstores⟩ := h.stores
  obtain ⟨object', hstores', hrest, hgives⟩ :=
    hstores.setLength_gives h.stored hm (h.not_atLimit _ (by omega))
  exact ⟨object', h.changed hrest ⟨m, Nat.le_refl m, Nat.le_refl m, hstores'⟩ hm, hrest,
    fun host bound => (hgives host bound).mono (by omega)⟩

end ScriptEngine
