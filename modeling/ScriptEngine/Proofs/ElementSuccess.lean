import ScriptEngine.Builtin.Array.Mutation
import ScriptEngine.Proofs.ElementRun

/-!
# Operations on elements at any depth

Where the depth of calls is at its limit, an operation on the elements of an array may fail. It does
all that it does without a limit then, or nothing. So no assumption on the depth of calls is needed
to say what a computation that succeeds has done to an array.

## Main definitions

* `Stalls`, `Attains`: an outcome, unless the computation stops with nothing done.
* `Realm.StoresElements`: an array with its elements and its length, at any depth of calls.
* `Turns`: what a computation that succeeds makes of the elements of an array, and of nothing else.

## Main results

* `Realm.FindsAfter.request_attains`: a request that searches.
* `Realm.StoresElements.ofReceiver_attains`, `Realm.StoresElements.element?_attains`: reading.
* `Turns.setElements`, `Turns.deleteElements`: changing it.
* `exists_of_arrayOfList`: a new array.
-/

namespace ScriptEngine

open Engine

variable {H : HostTypes} {α β : Type}

/-! ### All or nothing -/

/-- A computation fails with nothing done, or it gives up. -/
def Stalls (realm : Realm H) (outcome : EStateM.Result Stop (Realm H) α) : Prop :=
  ∃ stop r, outcome = .error stop r ∧ ∀ failure, stop = .failure failure → r = realm

/-- A computation has a certain result, or it stops with nothing done. -/
def Attains (realm : Realm H) (outcome : EStateM.Result Stop (Realm H) α) (a : α)
    (after : Realm H) : Prop :=
  outcome = .ok a after ∨ Stalls realm outcome

section Attains

variable {need bound : Nat} {s : Surroundings H} {realm middle after : Realm H} {a : α} {b : β}
  {outcome : EStateM.Result Stop (Realm H) α}

theorem Attains.failed {failure : Failure} :
    Attains realm (.error (.failure failure) realm) a after :=
  .inr ⟨_, realm, rfl, fun _ _ => rfl⟩

theorem Attains.exhausted {r : Realm H} : Attains realm (.error .exhausted r) a after :=
  .inr ⟨_, r, rfl, fun _ h => by cases h⟩

theorem Attains.eq_of_ok {a' : α} {last : Realm H} (h : Attains realm outcome a after)
    (ho : outcome = .ok a' last) : a' = a ∧ last = after := by
  rcases h with h | ⟨stop, r, h, -⟩
  · cases ho.symm.trans h
    exact ⟨rfl, rfl⟩
  · cases ho.symm.trans h

theorem Gives.yields (h : Gives need bound outcome (.ok a after)) :
    Attains realm outcome a after := by
  rcases h with h | ⟨-, r, rfl⟩
  · exact .inl h
  · exact .exhausted

theorem Gives.yields_of_failure {failure : Failure}
    (h : Gives need bound outcome (.error (.failure failure) realm)) :
    Attains realm outcome a after := by
  rcases h with rfl | ⟨-, r, rfl⟩
  · exact .failed
  · exact .exhausted

/-- A computation that only reads comes first. -/
theorem Attains.reduces {x : Engine H α} (f : α → Engine H β)
    (hx : Attains realm (x.act s realm) a realm) :
    Stalls realm ((x >>= f).act s realm) ∨ (x >>= f).act s realm = (f a).act s realm := by
  rcases hx with hx | ⟨stop, r, hx, hr⟩
  · exact .inr (Engine.bind_of_ok hx)
  · exact .inl ⟨stop, r, Engine.bind_of_error hx, hr⟩

theorem Attains.bind {x : Engine H α} {f : α → Engine H β}
    (hx : Attains realm (x.act s realm) a realm) (hf : Attains realm ((f a).act s realm) b after) :
    Attains realm ((x >>= f).act s realm) b after := by
  rcases hx.reduces f with hstalls | heq
  · exact .inr hstalls
  · rw [heq]
    exact hf

/-- A computation that always succeeds comes last. -/
theorem Attains.bind_pure {x : Engine H α} {f : α → Engine H β}
    (hx : Attains realm (x.act s realm) a after) (hf : (f a).act s after = .ok b after) :
    Attains realm ((x >>= f).act s realm) b after := by
  rcases hx with hx | ⟨stop, r, hx, hr⟩
  · exact .inl ((Engine.bind_of_ok hx).trans hf)
  · exact .inr ⟨stop, r, Engine.bind_of_error hx, hr⟩

theorem Attains.nested {x : Action H α}
    (hx : Attains realm.deeper (x s realm.deeper) a after.deeper) :
    Attains realm (x.nested s realm) a after := by
  by_cases hl : realm.AtLimit
  · rw [Action.nested_of_atLimit hl]
    exact .failed
  · rcases hx with hx | ⟨stop, r, hx, hr⟩
    · exact .inl (Action.nested_of_ok hl hx)
    · refine .inr ⟨stop, _, Action.nested_of_stop hl hx, fun failure hstop => ?_⟩
      rw [hr failure hstop]
      rfl

theorem Attains.answer {host : Host H} {r : Request H} {a : r.Answer}
    (h : ∀ bound, Attains realm (respond host r (.bounded host bound) realm) a after) :
    Attains realm (answer host bound r realm) a after := by
  cases bound with
  | zero => exact .exhausted
  | succ bound => exact h bound

end Attains

/-! ### Requests to an object that keeps its own properties itself -/

section Plain

variable {host : Host H} {bound : Nat} {realm after : Realm H} {o : ObjectId} {object : Object H}
  {k : PropertyKey} {v receiver : Value} {done : Bool}

theorem ObjectId.getOwnProperty_attains (ho : realm.object? o = some object)
    (hp : object.kind.isPlain) (k : PropertyKey) :
    Attains realm ((o.getOwnProperty k).act (.bounded host bound) realm) (object.ownProperty? k)
      realm := by
  by_cases hl : realm.AtLimit
  · exact (ObjectId.getOwnProperty_gives_of_atLimit hl k).yields_of_failure
  · exact (ObjectId.getOwnProperty_gives ho hp hl k).yields

theorem ObjectId.getPrototypeOf_attains (ho : realm.object? o = some object)
    (hp : object.kind.isPlain) :
    Attains realm (o.getPrototypeOf.act (.bounded host bound) realm) object.prototype realm := by
  by_cases hl : realm.AtLimit
  · exact (ObjectId.getPrototypeOf_gives_of_atLimit hl).yields_of_failure
  · exact (ObjectId.getPrototypeOf_gives ho hp hl).yields

theorem Ordinary.search_attains {a : α} {conclude : Option Descriptor → Engine H α}
    {request : ObjectId → Engine H α} (ho : realm.object? o = some object)
    (hp : object.kind.isPlain)
    (h : Attains realm ((object.search k conclude request).act (.bounded host bound) realm)
      a after) :
    Attains realm ((Ordinary.search k conclude request o).act (.bounded host bound) realm)
      a after := by
  unfold Object.search at h
  refine (ObjectId.getOwnProperty_attains ho hp k).bind ?_
  cases hk : object.ownProperty? k with
  | some d =>
    rw [hk] at h
    exact h
  | none =>
    rw [hk] at h
    refine (ObjectId.getPrototypeOf_attains ho hp).bind ?_
    cases hn : object.prototype with
    | some parent =>
      rw [hn] at h
      exact h
    | none =>
      rw [hn] at h
      exact h

theorem Engine.Searches.attains_step {a : α} {conclude : Option Descriptor → Engine H α}
    {request : ObjectId → Engine H α} (hs : Engine.Searches host k request conclude)
    (ho : realm.object? o = some object) (hp : object.kind.isPlain)
    (h : ∀ bound, Attains realm.deeper ((object.search k conclude request).act
      (.bounded host bound) realm.deeper) a after.deeper) :
    Attains realm ((request o).act (.bounded host bound) realm) a after := by
  cases bound with
  | zero =>
    rw [hs.exhausted]
    exact .exhausted
  | succ bound =>
    have ho' : realm.deeper.object? o = some object := ho
    rw [hs.step ho hp]
    exact .nested (Ordinary.search_attains ho' hp (h bound))

theorem ObjectId.delete_attains (ho : realm.object? o = some object) (hp : object.kind.isPlain)
    (k : PropertyKey) :
    Attains realm ((o.delete k).act (.bounded host bound) realm) (object.deletes k)
      (realm.putObject o (object.deleted k)) := by
  by_cases hl : realm.deeper.AtLimit
  · exact (ObjectId.delete_gives_of_deeper_atLimit ho hp hl k).yields_of_failure
  · exact (ObjectId.delete_gives ho hp hl k).yields

/-- Storing an element of an array. -/
theorem Object.Defines.element_attains {i : ArrayIndex} {d : Descriptor} {object' : Object H}
    (h : object.Defines (.index i) d object' done) (ho : realm.object? o = some object)
    (harray : object.kind.isArray) (hd : d.isValid) :
    Attains realm (answer host bound (.defineOwnProperty o (.index i) d) realm) done
      (realm.putObject o object') := by
  cases h with
  | unit hu => cases (Object.unitless_of_isArray harray _).symm.trans hu
  | stored hu hk => exact absurd rfl ((hk harray).1 i)
  | element i current _ hc =>
    have ho' : realm.deeper.object? o = some object := ho
    refine Attains.answer fun bound => ?_
    rw [respond, checkedDefine_of_isValid hd]
    refine .nested ?_
    rw [Dispatch.defineOwnProperty_of_isArray ho' harray]
    by_cases hl : realm.deeper.AtLimit
    · have h : Gives 2 bound
          (ArrayObject.defineElement o i d (.bounded host bound) realm.deeper) _ :=
        ArrayObject.defineElement_gives_of_atLimit ho' hc hl
      by_cases hfull : ArrayObject.lengthOf current ≤ i.val ∧ current.isWritable = false
      · rw [if_pos hfull] at h
        rw [Object.defineElement, if_pos hfull, Realm.putObject_self ho]
        exact h.yields
      · rw [if_neg hfull] at h
        exact h.yields_of_failure
    · exact (ArrayObject.defineElement_gives ho' (ObjectKind.isPlain_of_isArray harray)
        (Object.unitless_of_isArray harray _) hc hl).yields

end Plain

/-! ### Requests that follow a search -/

namespace Realm.FindsAfter

variable {host : Host H} {bound n : Nat} {realm after : Realm H} {o : ObjectId} {k : PropertyKey}
  {v receiver : Value} {found : Option Descriptor} {done : Bool}

/-- A request that searches comes down to what it concludes with. -/
theorem request_attains {a : α} {conclude : Option Descriptor → Engine H α}
    {request : ObjectId → Engine H α} (h : realm.FindsAfter k n o found)
    (hs : Engine.Searches host k request conclude)
    (hc : ∀ bound depth, Attains (realm.atDepth depth)
      ((conclude found).act (.bounded host bound) (realm.atDepth depth)) a (after.atDepth depth))
    (depth : Nat) :
    Attains (realm.atDepth depth) ((request o).act (.bounded host bound) (realm.atDepth depth)) a
      (after.atDepth depth) := by
  induction h generalizing depth bound with
  | own ho hp hk =>
    refine hs.attains_step (ho : (realm.atDepth depth).object? _ = _) hp fun bound => ?_
    rw [Object.search, hk]
    exact hc bound (depth + 1)
  | missing ho hp hk hn =>
    refine hs.attains_step (ho : (realm.atDepth depth).object? _ = _) hp fun bound => ?_
    rw [Object.search, hk, hn]
    exact hc bound (depth + 1)
  | inherited ho hp hk hn _ ih =>
    refine hs.attains_step (ho : (realm.atDepth depth).object? _ = _) hp fun bound => ?_
    rw [Object.search, hk, hn]
    exact ih hc (depth + 1)

theorem hasProperty_attains (h : realm.FindsAfter k n o found) (depth : Nat) :
    Attains (realm.atDepth depth)
      ((o.hasProperty k).act (.bounded host bound) (realm.atDepth depth))
      found.isSome (realm.atDepth depth) :=
  h.request_attains (ObjectId.searches_hasProperty host k) (fun _ _ => .inl rfl) depth

/-- Reading what a search finds, if that is data. -/
theorem getFor_attains (h : realm.FindsAfter k n o found)
    (hdata : ∀ d, found = some d → d.isData) (depth : Nat) :
    Attains (realm.atDepth depth)
      ((o.getFor k receiver).act (.bounded host bound) (realm.atDepth depth))
      (found.elim .undefined Descriptor.valueD) (realm.atDepth depth) := by
  refine h.request_attains (ObjectId.searches_getFor host k receiver) (fun bound depth => ?_) depth
  cases found with
  | some d =>
    rw [Option.elim_some, Ordinary.valueFor, if_pos (hdata d rfl)]
    exact .inl rfl
  | none => exact .inl rfl

/-- Setting a property comes down to setting what a search finds. -/
theorem setFor_attains (h : realm.FindsAfter k n o found)
    (hset : ∀ bound depth, Attains (realm.atDepth depth)
      ((Ordinary.setFound (found.getD (.plain .undefined)) k v receiver).act (.bounded host bound)
        (realm.atDepth depth)) done (after.atDepth depth)) (depth : Nat) :
    Attains (realm.atDepth depth)
      ((o.setFor k v receiver).act (.bounded host bound) (realm.atDepth depth)) done
      (after.atDepth depth) :=
  h.request_attains (ObjectId.searches_setFor host k v receiver) hset depth

end Realm.FindsAfter

/-! ### Reading an array -/

/-- The length of an array. -/
theorem Object.HasCount.lengthOfArrayLike_attains {host : Host H} {bound n : Nat} {realm : Realm H}
    {o : ObjectId} {object : Object H} (h : object.HasCount n)
    (ho : realm.object? o = some object) :
    Attains realm (o.lengthOfArrayLike.act (.bounded host bound) realm) n realm := by
  obtain ⟨w, hw⟩ := h.stored
  have hown : object.ownProperty? lengthKey = some (.data (.nat n) w false false) :=
    (Object.ownProperty?_of_unitProperty?_eq_none (h.unitProperty?_eq_none _)).trans hw
  have hfinds : realm.FindsAfter lengthKey 0 o _ := .own ho h.isPlain hown
  have hget : Attains realm ((o.get lengthKey).act (.bounded host bound) realm) (.nat n) realm :=
    hfinds.getFor_attains (fun d hd => by cases hd; rfl) realm.callDepth
  exact hget.bind (.inl (Value.toLength_nat
    (Nat.le_of_lt (Nat.lt_trans h.small (by decide)))))

/-- An array with its elements and its length, whose prototypes have no property under an index. -/
structure Realm.StoresElements (realm : Realm H) (o : ObjectId) (object : Object H)
    (f : Nat → Option Value) (n : Nat) : Prop where
  stored : realm.object? o = some object
  stores : object.Stores f n
  bare : ∃ steps, realm.InheritsNoElement object steps

namespace Realm.StoresElements

variable {host : Host H} {bound n i : Nat} {realm : Realm H} {o : ObjectId}
  {object object' : Object H} {f f' : Nat → Option Value}

theorem ofNat_eq_index (h : realm.StoresElements o object f n) (hi : i < n) :
    ∃ j : ArrayIndex, PropertyKey.ofNat i = .index j ∧ j.val = i :=
  ⟨_, PropertyKey.ofNat_eq_index (h.stores.hasCount.le_maxIndex hi), rfl⟩

/-- What is found under an index is an element of the array itself, if anything. -/
theorem exists_findsAfter (h : realm.StoresElements o object f n) (i : ArrayIndex) :
    ∃ m, realm.FindsAfter (.index i) m o ((f i.val).map .plain) := by
  obtain ⟨steps, hbare⟩ := h.bare
  obtain ⟨m, -, hfinds⟩ := hbare.findsAfter h.stored h.stores i
  exact ⟨m, hfinds⟩

/-- After a change of the array itself its prototypes are as they were. -/
theorem changed (h : realm.StoresElements o object f n) (hrest : object.SharesRest object')
    (hstores : object'.Stores f' n) : (realm.putObject o object').StoresElements o object' f' n :=
  ⟨object?_putObject_self h.stored, hstores,
    h.bare.imp fun _ hbare => hbare.changed h.stored hrest⟩

/-- The receiver and its length. -/
theorem ofReceiver_attains (h : realm.StoresElements o object f n) :
    Attains realm ((ObjectId.ofReceiver (.object o)).act (.bounded host bound) realm) (o, n)
      realm := by
  have hobject : (Value.object o).toObject.act (.bounded host bound) realm = .ok o realm := rfl
  exact Attains.bind (.inl hobject)
    ((h.stores.hasCount.lengthOfArrayLike_attains h.stored).bind_pure rfl)

/-- The value under an index; a hole is read as `undefined`. -/
theorem get_attains (h : realm.StoresElements o object f n) (hi : i < n) :
    Attains realm ((o.get (.ofNat i)).act (.bounded host bound) realm) ((f i).getD .undefined)
      realm := by
  obtain ⟨j, hj, rfl⟩ := h.ofNat_eq_index hi
  obtain ⟨m, hfinds⟩ := h.exists_findsAfter j
  have hdata (d : Descriptor) (hd : (f j.val).map Descriptor.plain = some d) : d.isData := by
    obtain ⟨v, -, rfl⟩ := Option.map_eq_some_iff.mp hd
    rfl
  have hvalue : ((f j.val).map Descriptor.plain).elim Value.undefined Descriptor.valueD
      = (f j.val).getD .undefined := by
    cases f j.val with
    | none => rfl
    | some v => rfl
  rw [hj, ← hvalue]
  exact hfinds.getFor_attains hdata realm.callDepth

/-- The element under an index, or a hole. -/
theorem element?_attains (h : realm.StoresElements o object f n) (hi : i < n) :
    Attains realm ((o.element? i).act (.bounded host bound) realm) (f i) realm := by
  obtain ⟨j, hj, rfl⟩ := h.ofNat_eq_index hi
  obtain ⟨m, hfinds⟩ := h.exists_findsAfter j
  have hhas : Attains realm ((o.hasProperty (.ofNat j.val)).act (.bounded host bound) realm)
      (f j.val).isSome realm := by
    rw [hj, ← Option.isSome_map (f := Descriptor.plain)]
    exact hfinds.hasProperty_attains realm.callDepth
  refine hhas.bind ?_
  cases hf : f j.val with
  | none => exact .inl rfl
  | some v =>
    refine (h.get_attains hi).bind (.inl ?_)
    rw [hf]
    rfl

/-- Storing an element, whether there was one or a hole. -/
theorem setElement_attains (h : realm.StoresElements o object f n) {j : ArrayIndex} {v : Value}
    (hdefines : object.Defines (.index j) (object.assignment (.index j) v) object' true) :
    Attains realm ((o.setElement j.val v).act (.bounded host bound) realm) ()
      (realm.putObject o object') := by
  obtain ⟨m, hfinds⟩ := h.exists_findsAfter j
  have hfound (bound depth : Nat) : Attains (realm.atDepth depth)
      ((Ordinary.setFound (((f j.val).map Descriptor.plain).getD (.plain .undefined)) (.index j) v
        (.object o)).act (.bounded host bound) (realm.atDepth depth)) true
      ((realm.putObject o object').atDepth depth) := by
    have hdefine : Attains (realm.atDepth depth) (answer host bound
        (.defineOwnProperty o (.index j) (object.assignment (.index j) v))
        (realm.atDepth depth)) true ((realm.putObject o object').atDepth depth) :=
      hdefines.element_attains h.stored h.stores.kind_isArray Object.assignment_isValid
    have hreceiver : (Ordinary.setFound (((f j.val).map Descriptor.plain).getD
        (.plain .undefined)) (.index j) v (.object o) : Engine H Bool)
          = Ordinary.setOnReceiver (.index j) v (.object o) := by
      cases f j.val with
      | none => rfl
      | some w => rfl
    have ho' : (realm.atDepth depth).object? o = some object := h.stored
    rw [hreceiver]
    refine (ObjectId.getOwnProperty_attains ho' h.stores.isPlain (.index j)).bind ?_
    rw [Object.assignment, h.stores.ownProperty?_index j] at hdefine
    rw [h.stores.ownProperty?_index j]
    cases hf : f j.val with
    | none =>
      rw [hf] at hdefine
      exact hdefine
    | some w =>
      rw [hf] at hdefine
      exact hdefine
  have hset : Attains realm ((o.setFor (.index j) v (.object o)).act (.bounded host bound) realm)
      true (realm.putObject o object') := hfinds.setFor_attains hfound realm.callDepth
  rw [ObjectId.setElement, PropertyKey.ofNat_eq_index (Nat.le_of_lt_succ j.isLt)]
  exact hset.bind_pure rfl

end Realm.StoresElements

/-! ### Changing an array -/

/-- From every realm in which an array has certain elements, a computation that succeeds leads to
one in which the array has others, and has a result. All else is as it was. -/
def Turns (o : ObjectId) (n : Nat) (f : Nat → Option Value) (x : Engine H α) (a : α)
    (f' : Nat → Option Value) : Prop :=
  ∀ ⦃realm : Realm H⦄ ⦃object : Object H⦄, realm.StoresElements o object f n →
    ∃ object' : Object H, (realm.putObject o object').StoresElements o object' f' n
      ∧ object.SharesRest object'
      ∧ ∀ host bound a' after, x.act (.bounded host bound) realm = .ok a' after →
        a' = a ∧ after = realm.putObject o object'

namespace Turns

variable {o : ObjectId} {n i : Nat} {f f' f'' : Nat → Option Value} {x : Engine H α} {a : α}
  {b : β} {next : α → Engine H β}

theorem pure (a : α) : Turns o n f (pure a : Engine H α) a f := by
  intro realm object h
  refine ⟨object, ?_, .refl object, ?_⟩
  · rwa [Realm.putObject_self h.stored]
  · rw [Realm.putObject_self h.stored]
    intro host bound a' after hx
    cases hx
    exact ⟨rfl, rfl⟩

/-- One computation after the other. -/
theorem bind (h : Turns o n f x a f') (hnext : Turns o n f' (next a) b f'') :
    Turns o n f (x >>= next) b f'' := by
  intro realm object helements
  obtain ⟨middle, hmiddle, hrest, hfirst⟩ := h helements
  obtain ⟨object', hafter, hrest', hthen⟩ := hnext hmiddle
  rw [Realm.putObject_putObject] at hafter
  refine ⟨object', hafter, hrest.trans hrest', fun host bound b' after hx => ?_⟩
  obtain ⟨a', r, hx, hthen'⟩ := Engine.ok_of_bind hx
  obtain ⟨rfl, rfl⟩ := hfirst host bound a' r hx
  have hthen' := hthen host bound b' after hthen'
  rwa [Realm.putObject_putObject] at hthen'

/-- Setting an element, whether there was one or a hole. -/
theorem setElement (hi : i < n) (v : Value) :
    Turns o n f (o.setElement i v : Engine H Unit) () (Function.update f i (some v)) := by
  intro realm object h
  obtain ⟨j, -, rfl⟩ := h.ofNat_eq_index hi
  obtain ⟨object', hdefines, hstores, hrest⟩ := h.stores.exists_defines_assignment j v
  rw [Nat.max_eq_left hi] at hstores
  exact ⟨object', h.changed hrest hstores, hrest,
    fun host bound a' after hx => (h.setElement_attains hdefines).eq_of_ok hx⟩

/-- Deleting an element leaves a hole. -/
theorem deleteElement (hi : i < n) :
    Turns o n f (o.deleteElement i : Engine H Unit) () (Function.update f i none) := by
  intro realm object h
  obtain ⟨j, hj, rfl⟩ := h.ofNat_eq_index hi
  obtain ⟨hstores, hrest⟩ := h.stores.deleted j
  refine ⟨_, h.changed hrest hstores, hrest, fun host bound a' after hx => ?_⟩
  have hdelete : Attains realm ((o.delete (.index j)).act (.bounded host bound) realm) true
      (realm.putObject o (object.deleted (.index j))) := by
    rw [← h.stores.deletes j]
    exact ObjectId.delete_attains h.stored h.stores.isPlain (.index j)
  rw [ObjectId.deleteElement, hj] at hx
  exact (hdelete.bind_pure rfl).eq_of_ok hx

/-- Setting a run of elements. -/
theorem setElements (vs : List Value) (hi : i + vs.length ≤ n) :
    Turns o n f (o.setElements i vs : Engine H Unit) () (overwrite f i vs) := by
  induction vs generalizing i f with
  | nil =>
    rw [overwrite_nil]
    exact .pure ()
  | cons v vs ih =>
    rw [List.length_cons] at hi
    rw [overwrite_cons]
    exact (setElement (by omega) v).bind (ih (by omega))

/-- Deleting a range of elements, the first one first. -/
theorem deleteElements {start count : Nat} (hi : start + count ≤ n) :
    Turns o n f (Engine.forRange o.deleteElement start count : Engine H Unit) ()
      (cleared f start (start + count)) := by
  induction count generalizing start f with
  | zero =>
    have hnone : cleared f start (start + 0) = f := funext fun _ => if_neg (by omega)
    rw [hnone]
    exact .pure ()
  | succ count ih =>
    have hnext : cleared (Function.update f start none) (start + 1) (start + 1 + count)
        = cleared f start (start + (count + 1)) := by
      funext j
      unfold cleared
      rw [Function.update_apply]
      by_cases heq : j = start
      · rw [if_neg (by omega), if_pos heq, if_pos (by omega)]
      · rw [if_neg heq]
        by_cases hj : start + 1 ≤ j ∧ j < start + 1 + count
        · rw [if_pos hj, if_pos (by omega)]
        · rw [if_neg hj, if_neg (by omega)]
    rw [← hnext]
    exact (deleteElement (by omega)).bind (ih (by omega))

end Turns

/-! ### A new array -/

section Create

variable {host : Host H} {bound n i : Nat} {realm last : Realm H} {o : ObjectId}
  {object : Object H} {f : Nat → Option Value}

theorem Object.Stores.createElement_attains (h : object.Stores f n)
    (ho : realm.object? o = some object) (hi : i ≤ PropertyKey.maxIndex) (v : Value) :
    ∃ after : Object H, after.Stores (Function.update f i (some v)) (max n (i + 1))
      ∧ object.SharesRest after
      ∧ ∀ host bound, Attains realm ((o.createElement i v).act (.bounded host bound) realm) ()
        (realm.putObject o after) := by
  obtain ⟨after, hdefines, hstores, hrest⟩ :=
    h.exists_defines_element (i := ⟨i, Nat.lt_succ_of_le hi⟩) (v := v) (.inl rfl)
  refine ⟨after, hstores, hrest, fun host bound => ?_⟩
  rw [ObjectId.createElement, PropertyKey.ofNat_eq_index hi]
  have hdefine : Attains realm
      ((o.createDataProperty (.index ⟨i, Nat.lt_succ_of_le hi⟩) v).act (.bounded host bound) realm)
      true (realm.putObject o after) := hdefines.element_attains ho h.kind_isArray rfl
  exact hdefine.bind_pure rfl

/-- What creating a run of elements has done where it succeeds. -/
theorem Object.Stores.exists_of_createElements (vs : List Value) (h : object.Stores f n)
    (ho : realm.object? o = some object) (hi : i ≤ n) (hlt : i + vs.length < Number.twoPow 32)
    (hrun : (o.createElements i vs).act (.bounded host bound) realm = .ok () last) :
    ∃ after : Object H, after.Stores (overwrite f i vs) (max n (i + vs.length))
      ∧ object.SharesRest after ∧ last = realm.putObject o after := by
  induction vs generalizing f n i realm object with
  | nil =>
    cases hrun
    refine ⟨object, ?_, .refl object, (Realm.putObject_self ho).symm⟩
    rwa [overwrite_nil, List.length_nil, Nat.add_zero, Nat.max_eq_left hi]
  | cons v vs ih =>
    rw [List.length_cons] at hlt
    have hmax : Number.twoPow 32 = PropertyKey.maxIndex + 2 := by decide
    obtain ⟨middle, hmiddle, hrest, hfirst⟩ := h.createElement_attains ho (i := i) (by omega) v
    obtain ⟨_, _, hone, hothers⟩ := Engine.ok_of_bind hrun
    obtain ⟨-, rfl⟩ := (hfirst host bound).eq_of_ok hone
    obtain ⟨after, hafter, hrest', rfl⟩ := ih hmiddle (Realm.object?_putObject_self ho)
      (i := i + 1) (by omega) (by omega) hothers
    have hcount : max (max n (i + 1)) (i + 1 + vs.length) = max n (i + (vs.length + 1)) := by omega
    rw [← overwrite_cons, hcount] at hafter
    exact ⟨after, hafter, hrest.trans hrest', Realm.putObject_putObject ..⟩

/-- Where a new array of given elements is made, it is the only thing that is new. -/
theorem exists_of_arrayOfList {vs : List Value} {r : ObjectId} (hlt : vs.length < Number.twoPow 32)
    (hrun : (arrayOfList vs).act (.bounded host bound) realm = .ok r last) :
    ∃ array : Object H, array.Stores (fun j => vs[j]?) vs.length
      ∧ (Object.emptyArray (realm.intrinsics.get .arrayPrototype) 0).SharesRest array
      ∧ r = ⟨realm.heap.size⟩ ∧ last = realm.push array := by
  let empty : Object H := .emptyArray (realm.intrinsics.get .arrayPrototype) 0
  have hempty : empty.Stores (fun _ => none) 0 := .emptyArray _ (by decide)
  have hnew : (arrayCreate 0 : Engine H ObjectId).act (.bounded host bound) realm
      = .ok ⟨realm.heap.size⟩ (realm.push empty) := rfl
  obtain ⟨_, _, hcreate, hreturn⟩ := Engine.ok_of_bind ((Engine.bind_of_ok hnew).symm.trans hrun)
  cases hreturn
  obtain ⟨array, harray, hrest, hlast⟩ := hempty.exists_of_createElements vs
    (realm.object?_push_self empty) (Nat.le_refl 0) (by omega) hcreate
  rw [overwrite_none, Nat.zero_add, Nat.max_eq_right (Nat.zero_le _)] at harray
  exact ⟨array, harray, hrest, rfl, hlast.trans (Realm.putObject_push empty array)⟩

end Create

end ScriptEngine
