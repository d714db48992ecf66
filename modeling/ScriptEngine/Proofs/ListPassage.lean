import ScriptEngine.Proofs.ArrayIterator
import ScriptEngine.Proofs.ArraySpecies

/-!
# Lists in arrays

A list of values that is put in a new array can be read in two ways. One goes through the indices.
The other one iterates the array: it looks up the method that iterates, makes an iterator, and calls
`next` until the result object says that there are no more values. Where the methods are those of
the engine, both give the list that was put in.

## Main definitions

* `Realm.IteratesArrays`: the methods that iterate arrays are those of the engine.
* `Realm.WalksList`: an iterator stands at an index of a list in an array.

## Main results

* `Realm.StoresList.listFromArrayLike_gives`: reading by the indices.
* `Realm.WalksList.exists_rest`: the iteration from any index on.
* `lists_pass_through_arrays`: both readers give the list, and leave the array as it is.
-/

namespace ScriptEngine

open Engine

variable {H : HostTypes}

/-! ### Reading by the indices -/

/-- An array whose elements are the values of a list. -/
def Realm.StoresList (realm : Realm H) (o : ObjectId) (vs : List Value) : Prop :=
  ∃ array, realm.object? o = some array ∧ array.Stores (fun i => vs[i]?) vs.length

namespace Realm.StoresList

variable {host : Host H} {bound i : Nat} {realm : Realm H} {o : ObjectId} {vs : List Value}
  {v : Value}

/-- An element is found on the array itself. -/
theorem get_gives (h : realm.StoresList o vs) (hi : vs[i]? = some v) (hl : ¬realm.deeper.AtLimit) :
    Gives 2 bound ((o.get (.ofNat i)).act (.bounded host bound) realm) (.ok v realm) := by
  obtain ⟨array, ho, hs⟩ := h
  have hlt : i < vs.length := (List.getElem?_eq_some_iff.mp hi).1
  rw [PropertyKey.ofNat_eq_index (hs.hasCount.le_maxIndex hlt)]
  have hown := hs.ownProperty?_index ⟨i, Nat.lt_succ_of_le (hs.hasCount.le_maxIndex hlt)⟩
  rw [hi] at hown
  exact ObjectId.getFor_gives_of_isData ho hs.isPlain hl hown rfl

/-- The elements from an index on. -/
theorem elementsFrom_gives (h : realm.StoresList o vs) (hl : ¬realm.deeper.AtLimit) (count : Nat)
    (hi : i + count = vs.length) :
    Gives 2 bound ((o.elementsFrom (fun _ => pure ()) i count).act (.bounded host bound) realm)
      (.ok (vs.drop i) realm) := by
  induction count generalizing i with
  | zero =>
    rw [List.drop_of_length_le (by omega)]
    exact .of_eq rfl
  | succ count ih =>
    have hlt : i < vs.length := by omega
    rw [List.drop_eq_getElem_cons hlt]
    exact (h.get_gives (List.getElem?_eq_getElem hlt) hl).bindEngine
      (Gives.bindEngine (.of_eq rfl) ((ih (by omega)).bindEngine (.of_eq rfl)))

/-- Reading by the indices gives the list and changes nothing. -/
theorem listFromArrayLike_gives (h : realm.StoresList o vs) (hl : ¬realm.deeper.AtLimit) :
    Gives 2 bound ((Value.object o).listFromArrayLike.act (.bounded host bound) realm)
      (.ok vs realm) := by
  obtain ⟨array, ho, hs⟩ := h
  exact (hs.hasCount.lengthOfArrayLike_gives ho hl).bindEngine
    (elementsFrom_gives ⟨array, ho, hs⟩ hl vs.length (Nat.zero_add _))

end Realm.StoresList

/-! ### The methods that iterate arrays -/

/-- An object has a function of the engine as a property of its own. -/
def Realm.HasBuiltin (realm : Realm H) (o : ObjectId) (k : PropertyKey) (code : Builtin)
    (f : ObjectId) : Prop :=
  ∃ d isConstructor, realm.FindsAfter k 0 o (some d) ∧ d.isData ∧ d.valueD = .object f
    ∧ realm.IsNative f code isConstructor

/-- Arrays are iterated by the methods of the engine: the one that makes an iterator is on the
prototype of arrays, and `next` is on the prototype of array iterators. -/
structure Realm.IteratesArrays (realm : Realm H) : Prop where
  values : ∃ f, realm.HasBuiltin (realm.intrinsics.get .arrayPrototype) (.wellKnown .iterator)
    (.array .values) f
  next : ∃ f, realm.HasBuiltin (realm.intrinsics.get .arrayIteratorPrototype) (.string "next")
    (.array .iteratorNext) f

section Builtin

variable {host : Host H} {bound : Nat} {realm after : Realm H} {o p f : ObjectId} {k : PropertyKey}
  {object : Object H} {code : Builtin} {b : Bool}

theorem Realm.IsNative.retained (h : realm.IsNative f code b) (hr : realm.Retains after) :
    after.IsNative f code b := by
  obtain ⟨object, ho, hk⟩ := h
  exact ⟨object, hr f object ho, hk⟩

theorem Realm.HasBuiltin.retained (h : realm.HasBuiltin p k code f) (hr : realm.Retains after) :
    after.HasBuiltin p k code f := by
  obtain ⟨d, b, hfinds, hdata, hvalue, hnative⟩ := h
  exact ⟨d, b, hfinds.retained hr, hdata, hvalue, hnative.retained hr⟩

/-- An object that inherits directly from the owner of a function reads that function. -/
theorem Realm.HasBuiltin.get_gives (h : realm.HasBuiltin p k code f)
    (ho : realm.object? o = some object) (hp : object.kind.isPlain)
    (hk : object.ownProperty? k = none) (hproto : object.prototype = some p)
    (hl : ¬realm.deeper.deeper.AtLimit) :
    Gives 3 bound ((o.get k).act (.bounded host bound) realm) (.ok (.object f) realm) := by
  obtain ⟨d, b, hfinds, hdata, hvalue, -⟩ := h
  have hinherited : realm.FindsAfter k 1 o (some d) := .inherited ho hp hk hproto hfinds
  rw [← hvalue]
  exact hinherited.get_gives_of_data hdata hl

theorem Realm.IsNative.isCallable_act (h : realm.IsNative f code b) (s : Surroundings H) :
    (Engine.isCallable (.object f)).act s realm = .ok true realm := by
  obtain ⟨object, ho, hk⟩ := h
  have hcallable : realm.isCallable (.object f) = true := by
    change (realm.kind? f).any ObjectKind.isCallable = true
    rw [Realm.kind?, ho, Option.map_some, hk]
    rfl
  exact congrArg (EStateM.Result.ok · realm) hcallable

theorem Realm.HasBuiltin.getMethod?_gives (h : realm.HasBuiltin p k code f)
    (ho : realm.object? o = some object) (hp : object.kind.isPlain)
    (hk : object.ownProperty? k = none) (hproto : object.prototype = some p)
    (hl : ¬realm.deeper.deeper.AtLimit) :
    Gives 3 bound (((Value.object o).getMethod? k).act (.bounded host bound) realm)
      (.ok (some (.object f)) realm) := by
  have hget : Gives 3 bound (((Value.object o).getProperty k).act (.bounded host bound) realm)
      (.ok (.object f) realm) := h.get_gives ho hp hk hproto hl
  obtain ⟨-, b, -, -, -, hnative⟩ := h
  refine hget.bindEngine (.of_eq ?_)
  exact Engine.bind_of_ok (hnative.isCallable_act _)

end Builtin

/-! ### One step of an iteration -/

/-- What a call of `next` makes: an object with a value, or one that says that there is none. -/
def Realm.nextResult (realm : Realm H) (v? : Option Value) : Object H :=
  realm.resultObject (v?.getD .undefined) v?.isNone

section Next

variable {host : Host H} {bound : Nat} {realm : Realm H} {o it next : ObjectId}
  {object : Object H} {data : ArrayIterator} {vs : List Value} {v : Value} {done b : Bool}

theorem iteratorResult_gives_of_not_atLimit (realm : Realm H) (hl : ¬realm.deeper.AtLimit) :
    Gives 2 bound
      ((do return Value.object (← iteratorResult v done)).act (.bounded host bound) realm)
      (.ok (.object ⟨realm.heap.size⟩) (realm.push (realm.resultObject v done))) := by
  have houtcome : realm.resultOutcome v done
      = .ok (.object ⟨realm.heap.size⟩) (realm.push (realm.resultObject v done)) := if_neg hl
  exact houtcome ▸ iteratorResult_gives realm v done

/-- A values iterator over the array of a list delivers the value under its index. -/
theorem ArrayFunction.iterate_gives (ho : realm.object? it = some object)
    (hk : object.kind = .arrayIterator data) (hopen : data.iterated = some o)
    (hkind : data.kind = .values) (hs : realm.StoresList o vs) (hl : ¬realm.deeper.AtLimit) :
    Gives 2 bound ((iterate (.object it)).act (.bounded host bound) realm)
      (.ok (.object ⟨realm.heap.size⟩)
        ((realm.putObject it (object.withIterator (data.turn o vs.length).2)).push
          (realm.nextResult vs[data.nextIndex]?))) := by
  obtain ⟨array, harray, hstores⟩ := hs
  let moved := realm.putObject it (object.withIterator (data.turn o vs.length).2)
  have hsize : moved.heap.size = realm.heap.size := Array.size_setIfInBounds
  have hne : o ≠ it := by
    rintro rfl
    cases ho.symm.trans harray
    cases hk.symm.trans hstores.isArray
  have hs : moved.StoresList o vs :=
    ⟨array, (Realm.object?_putObject_of_ne hne).trans harray, hstores⟩
  refine (takeTurn_gives ho hk hopen harray hstores.hasCount hl).bindEngine ?_
  rw [← hsize]
  by_cases hle : vs.length ≤ data.nextIndex
  · have hturn : (data.turn o vs.length).1 = none := by
      rw [ArrayIterator.turn, if_pos hle]
    rw [hturn, List.getElem?_eq_none hle]
    exact iteratorResult_gives_of_not_atLimit moved hl
  · have hturn : (data.turn o vs.length).1 = some ⟨o, data.nextIndex, data.kind⟩ := by
      rw [ArrayIterator.turn, if_neg hle]
    rw [hturn, List.getElem?_eq_getElem (Nat.not_le.mp hle), hkind]
    exact (hs.get_gives (List.getElem?_eq_getElem (Nat.not_le.mp hle)) hl).bindEngine
      (iteratorResult_gives_of_not_atLimit moved hl)

end Next

/-! ### Result objects -/

section Result

variable {host : Host H} {bound : Nat} {realm : Realm H} {o : ObjectId} {base : Realm H} {v : Value}
  {done : Bool}

/-- What a result object says about the end. -/
theorem ObjectId.iteratorComplete_gives (ho : realm.object? o = some (base.resultObject v done))
    (hl : ¬realm.deeper.AtLimit) :
    Gives 2 bound (o.iteratorComplete.act (.bounded host bound) realm) (.ok done realm) := by
  have hown : (base.resultObject v done).ownProperty? (.string "done")
      = some (.plain (.bool done)) := by
    rw [Object.ownProperty?, Realm.resultObject, Object.withPlain, PropertyMap.get?_insert_self]
    rfl
  exact (ObjectId.getFor_gives_of_isData ho rfl hl hown rfl).bindEngine (.of_eq rfl)

/-- The value of a result object. -/
theorem ObjectId.iteratorValue_gives (ho : realm.object? o = some (base.resultObject v done))
    (hl : ¬realm.deeper.AtLimit) :
    Gives 2 bound (o.iteratorValue.act (.bounded host bound) realm) (.ok v realm) := by
  have hown : (base.resultObject v done).ownProperty? (.string "value") = some (.plain v) := by
    rw [Object.ownProperty?, Realm.resultObject, Object.withPlain,
      PropertyMap.get?_insert_of_ne (by decide), Object.withPlain, PropertyMap.get?_insert_self]
    rfl
  exact ObjectId.getFor_gives_of_isData ho rfl hl hown rfl

end Result

/-! ### An iteration -/

/-- All objects but an iterator are as they were, and so are the limits. -/
structure Realm.KeepsAllBut (realm : Realm H) (it : ObjectId) (after : Realm H) : Prop where
  others : ∀ q object, q ≠ it → realm.object? q = some object → after.object? q = some object
  config : after.config = realm.config
  aborted : after.aborted = realm.aborted
  callDepth : after.callDepth = realm.callDepth

/-- An iterator over the values of an array stands at an index of the list that the array holds, and
its method `next` is that of the engine. -/
structure Realm.WalksList (realm : Realm H) (o it next : ObjectId) (vs : List Value) (i : Nat) :
    Prop where
  list : realm.StoresList o vs
  iterator : realm.IsIterator it { iterated := some o, nextIndex := i, kind := .values }
  next : ∃ b, realm.IsNative next (.array .iteratorNext) b
  unlimited : realm.Unlimited
  room : ¬realm.deeper.deeper.AtLimit

section Walk

variable {host : Host H} {bound i : Nat} {realm middle after : Realm H} {o it next : ObjectId}
  {vs : List Value} {v : Value}

theorem Realm.KeepsAllBut.trans (h : realm.KeepsAllBut it middle)
    (h' : middle.KeepsAllBut it after) : realm.KeepsAllBut it after :=
  ⟨fun q object hne hq => h'.others q object hne (h.others q object hne hq),
    h'.config.trans h.config, h'.aborted.trans h.aborted, h'.callDepth.trans h.callDepth⟩

/-- An iterator over a list after it has been moved. -/
theorem Realm.WalksList.followed {j : Nat} (h : realm.WalksList o it next vs i)
    (hf : realm.KeepsAllBut it after)
    (hit : after.IsIterator it { iterated := some o, nextIndex := j, kind := .values }) :
    after.WalksList o it next vs j := by
  obtain ⟨iterator, hiterator, hkind⟩ := h.iterator
  refine ⟨?_, hit, ?_, ⟨?_, ?_⟩, ?_⟩
  · obtain ⟨array, ho, hs⟩ := h.list
    refine ⟨array, hf.others o array ?_ ho, hs⟩
    rintro rfl
    cases hiterator.symm.trans ho
    cases hkind.symm.trans hs.isArray
  · obtain ⟨b, f, hnext, hnative⟩ := h.next
    refine ⟨b, f, hf.others next f ?_ hnext, hnative⟩
    rintro rfl
    cases hiterator.symm.trans hnext
    cases hkind.symm.trans hnative
  · rw [hf.config, h.unlimited.timeoutMs]
  · rw [hf.aborted, h.unlimited.aborted]
  · have hroom := h.room
    unfold Realm.AtLimit Realm.deeper at hroom ⊢
    rwa [hf.config, hf.callDepth]

/-- A call of `next` makes a result object for the value under the index. -/
theorem Realm.WalksList.exists_next (h : realm.WalksList o it next vs i) :
    ∃ (result : ObjectId) (after : Realm H), realm.KeepsAllBut it after
      ∧ after.object? result = some (realm.nextResult vs[i]?)
      ∧ (i < vs.length →
        after.IsIterator it { iterated := some o, nextIndex := i + 1, kind := .values })
      ∧ ∀ host bound, Gives 3 bound
        (((Value.object next).call (.object it) []).act (.bounded host bound) realm)
        (.ok (.object result) after) := by
  obtain ⟨iterator, hiterator, hkind⟩ := h.iterator
  obtain ⟨b, hnext⟩ := h.next
  have hl : ¬realm.AtLimit := fun hl => h.room (Realm.deeper_atLimit (Realm.deeper_atLimit hl))
  obtain ⟨account, hcall⟩ := hnext.exists_call_gives h.unlimited hl
  let data : ArrayIterator := { iterated := some o, nextIndex := i, kind := .values }
  let moved := realm.putObject it (iterator.withIterator (data.turn o vs.length).2)
  have hsize : moved.heap.size = realm.heap.size := Array.size_setIfInBounds
  let made := (moved.push (realm.nextResult vs[i]?)).having
    (moved.push (realm.nextResult vs[i]?)).heap account
  have hmoved : moved.Retains made := moved.retains_push _
  refine ⟨⟨realm.heap.size⟩, made, ⟨fun q object hne hq => ?_, rfl, rfl, rfl⟩, ?_, fun hlt => ?_,
    fun host bound => hcall fun bound account => ?_⟩
  · exact hmoved q object ((Realm.object?_putObject_of_ne hne).trans hq)
  · rw [← hsize]
    exact moved.object?_push_self _
  · obtain ⟨moved', hmoved', hk⟩ : moved.IsIterator it (data.turn o vs.length).2 :=
      Realm.isIterator_putObject_self hiterator
    refine ⟨moved', hmoved it moved' hmoved', ?_⟩
    rw [hk, ArrayIterator.turn, if_neg (Nat.not_le.mpr hlt)]
  · let inside := realm.deeper.having realm.heap account
    have hinside : inside.object? it = some iterator := hiterator
    exact ArrayFunction.iterate_gives hinside hkind rfl rfl h.list h.room

/-- One round of the loop that collects values. -/
theorem Realm.WalksList.exists_collect (h : realm.WalksList o it next vs i) :
    ∃ after, realm.KeepsAllBut it after
      ∧ (i < vs.length → after.WalksList o it next vs (i + 1))
      ∧ ∀ host bound values, Gives 3 bound
        ((IteratorRecord.collect (⟨it, .object next, false⟩, values)).act (.bounded host bound)
          realm)
        (.ok (vs[i]?.elim (.finish values)
          fun v => .again (⟨it, .object next, false⟩, v :: values)) after) := by
  obtain ⟨result, after, hf, hresult, hit, hcall⟩ := h.exists_next
  refine ⟨after, hf, fun hlt => h.followed hf (hit hlt), fun host bound values => ?_⟩
  have hl : ¬after.deeper.AtLimit := by
    have hroom := h.room
    unfold Realm.AtLimit Realm.deeper at hroom ⊢
    rw [hf.config, hf.callDepth]
    exact fun hl => hroom ⟨hl.1, Nat.le_succ_of_le hl.2⟩
  let r : IteratorRecord := ⟨it, .object next, false⟩
  have hnext : Gives 3 bound ((r.next none).act (.bounded host bound) realm)
      (.ok ⟨.ok result, r⟩ after) := (hcall host bound).attempt.bindEngine (.of_eq rfl)
  have hcomplete : Gives 3 bound (result.iteratorComplete.act (.bounded host bound) after)
      (.ok vs[i]?.isNone after) := (ObjectId.iteratorComplete_gives hresult hl).mono (by decide)
  have hvalue : Gives 3 bound (result.iteratorValue.act (.bounded host bound) after)
      (.ok (vs[i]?.getD .undefined) after) :=
    (ObjectId.iteratorValue_gives hresult hl).mono (by decide)
  cases hv : vs[i]? with
  | none =>
    rw [hv] at hcomplete
    have hstep : Gives 3 bound (r.step.act (.bounded host bound) realm)
        (.ok ⟨.ok none, r.finished⟩ after) :=
      hnext.bindEngine (hcomplete.attempt.bindEngine (.of_eq rfl))
    have hlast : Gives 3 bound (r.stepValue.act (.bounded host bound) realm)
        (.ok ⟨.ok none, r.finished⟩ after) := hstep.bindEngine (.of_eq rfl)
    exact hlast.bindEngine (.of_eq rfl)
  | some v =>
    rw [hv] at hcomplete hvalue
    have hstep : Gives 3 bound (r.step.act (.bounded host bound) realm)
        (.ok ⟨.ok (some result), r⟩ after) :=
      hnext.bindEngine (hcomplete.attempt.bindEngine (.of_eq rfl))
    have hread : Gives 3 bound (r.stepValue.act (.bounded host bound) realm)
        (.ok ⟨.ok (some v), r⟩ after) :=
      hstep.bindEngine (hvalue.attempt.bindEngine (.of_eq rfl))
    exact hread.bindEngine (.of_eq rfl)

/-- The iteration from an index on collects the rest of the list. -/
theorem Realm.WalksList.exists_rest (h : realm.WalksList o it next vs i) (hi : i ≤ vs.length) :
    ∃ after, realm.KeepsAllBut it after ∧ ∀ host bound values fuel,
      Gives (vs.length - i + 4) (min bound fuel)
        ((loopFor IteratorRecord.collect fuel (⟨it, .object next, false⟩, values)).run host bound
          realm) (.ok ((vs.drop i).reverse ++ values) after) := by
  -- the number of values that are left decreases
  induction hleft : vs.length - i generalizing i realm with
  | zero =>
    obtain ⟨after, hf, -, hcollect⟩ := h.exists_collect
    have hend : vs.length ≤ i := by omega
    rw [List.getElem?_eq_none hend] at hcollect
    refine ⟨after, hf, fun host bound values fuel => ?_⟩
    rw [List.drop_of_length_le hend]
    exact Engine.loopFor_gives_finish (hcollect host bound values) fuel
  | succ left ih =>
    obtain ⟨middle, hf, hwalks, hcollect⟩ := h.exists_collect
    have hlt : i < vs.length := by omega
    obtain ⟨after, hf', hrest⟩ := ih (hwalks hlt) hlt (by omega)
    refine ⟨after, hf.trans hf', fun host bound values fuel => ?_⟩
    rw [List.drop_eq_getElem_cons hlt, List.reverse_cons, List.append_assoc]
    rw [List.getElem?_eq_getElem hlt] at hcollect
    exact (Engine.loopFor_gives_again (hcollect host bound values)
      (fun fuel => hrest host bound (vs[i] :: values) fuel) fuel).mono (by omega)

end Walk

/-! ### Reading by an iterator -/

section Iterate

variable {host : Host H} {bound : Nat} {realm : Realm H} {o : ObjectId} {array : Object H}
  {vs : List Value}

/-- The iteration of an array starts with a new iterator and the method `next` of the engine. -/
theorem Realm.IteratesArrays.exists_getIterator (h : realm.IteratesArrays) (hu : realm.Unlimited)
    (hl : ¬realm.deeper.deeper.AtLimit) (ho : realm.object? o = some array)
    (hs : array.Stores (fun i => vs[i]?) vs.length)
    (hk : array.ownProperty? (.wellKnown .iterator) = none)
    (hproto : array.prototype = some (realm.intrinsics.get .arrayPrototype)) :
    ∃ (it next : ObjectId) (after : Realm H), realm.Retains after ∧ realm.object? it = none
      ∧ after.WalksList o it next vs 0
      ∧ ∀ host bound, Gives 3 bound ((Value.object o).getIterator.act (.bounded host bound) realm)
        (.ok ⟨it, .object next, false⟩ after) := by
  obtain ⟨f, hvalues⟩ := h.values
  obtain ⟨next, hnext⟩ := h.next
  obtain ⟨-, b, -, -, -, hnative⟩ := id hvalues
  have hl' : ¬realm.AtLimit := fun hl' => hl (Realm.deeper_atLimit (Realm.deeper_atLimit hl'))
  obtain ⟨account, hcall⟩ := hnative.exists_call_gives hu hl'
  let iterator : Object H := .ofKind (some (realm.intrinsics.get .arrayIteratorPrototype))
    (.arrayIterator { iterated := some o, nextIndex := 0, kind := .values })
  let after := realm.having (realm.push iterator).heap account
  have hretains : realm.Retains after := realm.retains_push iterator
  have hit : after.object? ⟨realm.heap.size⟩ = some iterator := realm.object?_push_self iterator
  have hnext' := hnext.retained hretains
  obtain ⟨-, b', -, -, -, hnative'⟩ := id hnext'
  refine ⟨⟨realm.heap.size⟩, next, after, hretains, ?_, ⟨⟨array, hretains o array ho, hs⟩,
    ⟨iterator, hit, rfl⟩, ⟨b', hnative'⟩, ⟨hu.timeoutMs, hu.aborted⟩, hl⟩, fun host bound => ?_⟩
  · exact Array.getElem?_eq_none (Nat.le_refl _)
  · have hmade : Gives 3 bound
        (((Value.object f).call (.object o) []).act (.bounded host bound) realm)
        (.ok (.object ⟨realm.heap.size⟩) after) :=
      (hcall fun bound account => .of_eq rfl : Gives (2 + 1) bound _ _)
    exact (hvalues.getMethod?_gives ho hs.isPlain hk hproto hl).bindEngine
      (hmade.bindEngine ((hnext'.get_gives hit rfl rfl rfl hl).bindEngine (.of_eq rfl)))

/-- Iterating an array that holds a list gives the list; all objects stay as they are. -/
theorem Realm.IteratesArrays.exists_iterableToList (h : realm.IteratesArrays)
    (hu : realm.Unlimited) (hl : ¬realm.deeper.deeper.AtLimit) (ho : realm.object? o = some array)
    (hs : array.Stores (fun i => vs[i]?) vs.length)
    (hk : array.ownProperty? (.wellKnown .iterator) = none)
    (hproto : array.prototype = some (realm.intrinsics.get .arrayPrototype)) :
    ∃ after, realm.Retains after ∧ ∀ host bound,
      Gives (vs.length + 4) bound
        ((Value.object o).iterableToList.act (.bounded host bound) realm) (.ok vs after) := by
  obtain ⟨it, next, middle, hretains, hnew, hwalks, hstart⟩ :=
    h.exists_getIterator hu hl ho hs hk hproto
  obtain ⟨after, hf, hrest⟩ := hwalks.exists_rest (Nat.zero_le _)
  refine ⟨after, fun q object hq => hf.others q object ?_ (hretains q object hq),
    fun host bound => ?_⟩
  · rintro rfl
    cases hnew.symm.trans hq
  · have hloop := Engine.loop_gives (hrest host bound [])
    rw [List.drop_zero, List.append_nil, Nat.sub_zero] at hloop
    refine ((hstart host bound).mono (by omega)).bindEngine (hloop.bindEngine (.of_eq ?_))
    rw [List.reverse_reverse]
    rfl

end Iterate

/-- Lists survive the passage through arrays, by both readers.

Where no time limit is set, two more levels of calls are allowed and arrays are iterated by the
methods of the engine, every list that an array has room for can be put in a new array, and both the
reader that goes through the indices and the one that iterates give the list back. Neither changes
the array: the first one changes nothing at all, the second one leaves every object as it was. -/
theorem lists_pass_through_arrays (host : Host H) {realm : Realm H} (vs : List Value)
    (hvs : vs.length < Number.twoPow 32) (h : realm.IteratesArrays) (hu : realm.Unlimited)
    (hl : ¬realm.deeper.deeper.AtLimit) :
    ∃ (array : Object H) (after : Realm H), array.Stores (fun i => vs[i]?) vs.length
      ∧ (realm.push array).Retains after
      ∧ ∀ bound, vs.length + 4 ≤ bound →
        (arrayOfList vs).run host bound realm = .ok ⟨realm.heap.size⟩ (realm.push array)
        ∧ (Value.object ⟨realm.heap.size⟩).listFromArrayLike.run host bound (realm.push array)
          = .ok vs (realm.push array)
        ∧ (Value.object ⟨realm.heap.size⟩).iterableToList.run host bound (realm.push array)
          = .ok vs after := by
  obtain ⟨array, hs, hrest, hmade⟩ := arrayOfList_gives vs hvs hl
  have ho := realm.object?_push_self array
  have hretains := realm.retains_push array
  have hk : array.ownProperty? (.wellKnown .iterator) = none := by
    rw [hs.ownProperty?_eq, hrest.others _ rfl (by decide)]
    rfl
  have h' : (realm.push array).IteratesArrays :=
    ⟨h.values.imp fun _ hf => hf.retained hretains, h.next.imp fun _ hf => hf.retained hretains⟩
  obtain ⟨after, hafter, hiterated⟩ :=
    h'.exists_iterableToList ⟨hu.timeoutMs, hu.aborted⟩ hl ho hs hk hrest.prototype
  have hread : (realm.push array).StoresList ⟨realm.heap.size⟩ vs := ⟨array, ho, hs⟩
  have hl' : ¬(realm.push array).deeper.AtLimit := fun hl' => hl (Realm.deeper_atLimit hl')
  refine ⟨array, after, hs, hafter, fun bound hb => ⟨?_, ?_, ?_⟩⟩
  · exact (hmade host bound).eq_of_le (by omega)
  · exact (hread.listFromArrayLike_gives hl').eq_of_le (by omega)
  · exact (hiterated host bound).eq_of_le hb

/-- Two prototypes with the methods that iterate arrays. -/
def iterableRealm : Realm HostTypes.bare where
  heap := #[
    (Object.ofKind none .ordinary).define (.wellKnown .iterator) (.plain (.object ⟨2⟩)),
    (Object.ofKind none .ordinary).define (.string "next") (.plain (.object ⟨3⟩)),
    .ofKind none (.function (.native (.builtin (.array .values)) false)),
    .ofKind none (.function (.native (.builtin (.array .iteratorNext)) false))]
  intrinsics := ⟨[(.arrayIteratorPrototype, ⟨1⟩)]⟩
  config := { timeoutMs := 0 }
  store := ()

theorem iterableRealm_iteratesArrays : iterableRealm.IteratesArrays where
  values := ⟨⟨2⟩, .plain (.object ⟨2⟩), false, .own rfl rfl rfl, rfl, rfl, _, rfl, rfl⟩
  next := ⟨⟨3⟩, .plain (.object ⟨3⟩), false, .own rfl rfl rfl, rfl, rfl, _, rfl, rfl⟩

/-- A list of two values is put in an array and read from it twice. -/
theorem lists_pass_through_arrays_iterableRealm : ∃ array after,
    (arrayOfList [.bool true, .undefined]).run Host.bare 6 iterableRealm
      = .ok ⟨4⟩ (iterableRealm.push array)
    ∧ (Value.object ⟨4⟩).listFromArrayLike.run Host.bare 6 (iterableRealm.push array)
      = .ok [.bool true, .undefined] (iterableRealm.push array)
    ∧ (Value.object ⟨4⟩).iterableToList.run Host.bare 6 (iterableRealm.push array)
      = .ok [.bool true, .undefined] after := by
  obtain ⟨array, after, -, -, hpass⟩ := lists_pass_through_arrays Host.bare
    [.bool true, .undefined] (by decide) iterableRealm_iteratesArrays ⟨rfl, rfl⟩ (by decide)
  exact ⟨array, after, hpass 6 (Nat.le_refl 6)⟩

end ScriptEngine
