import ScriptEngine.Proofs.ArraySort
import ScriptEngine.Proofs.GeneratorTurns

/-!
# The turns of array iterators

A call of `next` on an array iterator compares the index of the iterator with the length of the
array, and moves the iterator on before anything is read. Between two calls, and while an element is
read, any code may run: it may change the array, and it may call `next` of the same iterator. So the
calls are put in the order in which they take their turns, and the rest of what happens to the realm
is left open, as long as it does not move the iterator.

## Main definitions

* `ArrayIterator.turn`: what an iterator hands out for a length of its array, and what it keeps.
* `Realm.Delivers`: what an iterator of each kind delivers for an index.
* `TakesTurns`: the calls of `next` on an iterator, with anything else in between.
* `Progress`: how far an iterator has come.

## Main results

* `ArrayFunction.takeTurn_attains`: a call of `next` takes the turn of the iterator or does nothing.
* `TakesTurns.exists_progress`: after any calls the iterator is as far as they have brought it.
* `array_iterators_take_turns`: calls of `next` go through the indices one by one, up to the end.
-/

namespace ScriptEngine

open Engine

variable {H : HostTypes}

/-! ### Taking a turn -/

/-- An object is an array iterator with certain data. -/
def Realm.IsIterator (realm : Realm H) (it : ObjectId) (data : ArrayIterator) : Prop :=
  ∃ object, realm.object? it = some object ∧ object.kind = .arrayIterator data

/-- What an iterator over an array of a given length hands out, and what it keeps. -/
def ArrayIterator.turn (data : ArrayIterator) (a : ObjectId) (length : Nat) :
    Option ArrayFunction.IteratorTurn × ArrayIterator :=
  if length ≤ data.nextIndex then (none, { data with iterated := none })
  else (some { array := a, index := data.nextIndex, kind := data.kind },
    { data with nextIndex := data.nextIndex + 1 })

/-- An object with other data of an array iterator. -/
def Object.withIterator (object : Object H) (data : ArrayIterator) : Object H :=
  { object with kind := .arrayIterator data }

namespace Realm

variable {realm : Realm H} {it o : ObjectId} {object object' : Object H} {data : ArrayIterator}

/-- A change of another object does not move an iterator. -/
theorem IsIterator.putObject (h : realm.IsIterator it data) (hne : it ≠ o) :
    (realm.putObject o object').IsIterator it data := by
  obtain ⟨object, ho, hk⟩ := h
  exact ⟨object, (object?_putObject_of_ne hne).trans ho, hk⟩

theorem isIterator_putObject_self (ho : realm.object? it = some object) :
    (realm.putObject it (object.withIterator data)).IsIterator it data :=
  ⟨_, object?_putObject_self ho, rfl⟩

end Realm

namespace ArrayFunction

section TakeTurn

variable {host : Host H} {bound length : Nat} {s : Surroundings H} {realm : Realm H}
  {a it : ObjectId} {object array : Object H} {data : ArrayIterator}

theorem arrayIterator_eq (ho : realm.object? it = some object)
    (hk : object.kind = .arrayIterator data) :
    (Value.object it).arrayIterator.act s realm = .ok (it, data) realm := by
  have hkind : (getKind it).act s realm = .ok (.arrayIterator data) realm :=
    hk ▸ Engine.getKind_of_some ho
  exact Engine.bind_of_ok hkind

theorem modifyArrayIterator_eq (ho : realm.object? it = some object)
    (hk : object.kind = .arrayIterator data) (f : ArrayIterator → ArrayIterator) :
    (it.modifyArrayIterator f).act s realm
      = .ok () (realm.putObject it (object.withIterator (f data))) := by
  refine (Action.modifyObject_of_some (s := s) ho).trans ?_
  rw [hk]
  rfl

/-- Once the end was found, an iterator does not look at its array any more. -/
theorem takeTurn_of_ended (h : realm.IsIterator it data) (hend : data.iterated = none) :
    (takeTurn (.object it)).act s realm = .ok none realm := by
  obtain ⟨object, ho, hk⟩ := h
  unfold takeTurn
  rw [Engine.bind_of_ok (arrayIterator_eq ho hk)]
  simp only [hend]
  rfl

/-- Before that, the length of the array says what becomes of the turn. -/
theorem takeTurn_of_length (ho : realm.object? it = some object)
    (hk : object.kind = .arrayIterator data) (ha : data.iterated = some a)
    (hlength : a.lengthOfArrayLike.act s realm = .ok length realm) :
    (takeTurn (.object it)).act s realm = .ok (data.turn a length).1
      (realm.putObject it (object.withIterator (data.turn a length).2)) := by
  unfold takeTurn
  rw [Engine.bind_of_ok (arrayIterator_eq ho hk)]
  simp only [ha]
  rw [Engine.bind_of_ok hlength, ArrayIterator.turn]
  by_cases hle : length ≤ data.nextIndex
  · rw [if_pos hle, if_pos hle]
    exact Engine.bind_of_ok (modifyArrayIterator_eq ho hk _)
  · rw [if_neg hle, if_neg hle]
    exact Engine.bind_of_ok (modifyArrayIterator_eq ho hk _)

theorem takeTurn_of_error {stop : Stop} {r : Realm H} (ho : realm.object? it = some object)
    (hk : object.kind = .arrayIterator data) (ha : data.iterated = some a)
    (hlength : a.lengthOfArrayLike.act s realm = .error stop r) :
    (takeTurn (.object it)).act s realm = .error stop r := by
  unfold takeTurn
  rw [Engine.bind_of_ok (arrayIterator_eq ho hk)]
  simp only [ha]
  exact Engine.bind_of_error hlength

/-- A turn is taken at once: no other code runs between the look at the length and the move. -/
theorem takeTurn_attains (ho : realm.object? it = some object)
    (hk : object.kind = .arrayIterator data) (ha : data.iterated = some a)
    (harray : realm.object? a = some array) (hc : array.HasCount length) :
    Attains realm ((takeTurn (.object it)).act (.bounded host bound) realm) (data.turn a length).1
      (realm.putObject it (object.withIterator (data.turn a length).2)) := by
  rcases hc.lengthOfArrayLike_attains harray with hlength | ⟨stop, r, hlength, hr⟩
  · exact .inl (takeTurn_of_length ho hk ha hlength)
  · exact .inr ⟨stop, r, takeTurn_of_error ho hk ha hlength, hr⟩

theorem takeTurn_gives (ho : realm.object? it = some object)
    (hk : object.kind = .arrayIterator data) (ha : data.iterated = some a)
    (harray : realm.object? a = some array) (hc : array.HasCount length)
    (hl : ¬realm.deeper.AtLimit) :
    Gives 2 bound ((takeTurn (.object it)).act (.bounded host bound) realm)
      (.ok (data.turn a length).1
        (realm.putObject it (object.withIterator (data.turn a length).2))) := by
  rcases hc.lengthOfArrayLike_gives harray hl with hlength | ⟨hb, r, hlength⟩
  · exact .inl (takeTurn_of_length ho hk ha hlength)
  · exact .inr ⟨hb, r, takeTurn_of_error ho hk ha hlength⟩

end TakeTurn

end ArrayFunction

/-! ### What a call returns -/

/-- A new object reports a value, and whether it was the last. -/
def Realm.Reports (realm : Realm H) (w : Value) (done : Bool) (v : Value) (last : Realm H) : Prop :=
  v = .object ⟨realm.heap.size⟩ ∧ last = realm.withObject (realm.resultObject w done)

/-- A call of `next` on an array iterator, with the realm before its turn was taken and the length
that the array had there, what it was handed out, and the realm after that. -/
structure IteratorCall (H : HostTypes) where
  before : Realm H
  bound : Nat
  length : Nat
  turn : Option ArrayFunction.IteratorTurn
  after : Realm H

/-- What an iterator delivers for an index, given what reading the element comes to: the index
itself, the element, or a new array of the two. -/
def Realm.Delivers (realm : Realm H) (i : Nat) (reads : Value → Realm H → Prop) :
    IterationKind → Value → Realm H → Prop
  | .keys, w, last => w = .nat i ∧ last = realm
  | .values, w, last => reads w last
  | .entries, w, last => ∃ v middle, ∃ pair : Object H, reads v middle
      ∧ pair.Stores (fun j => [Value.nat i, v][j]?) 2
      ∧ (Object.emptyArray (middle.intrinsics.get .arrayPrototype) 0).SharesRest pair
      ∧ w = .object ⟨middle.heap.size⟩ ∧ last = middle.push pair

/-- What a call may return, given what it was handed out and what reading comes to: the end, or what
its iterator delivers for its index. -/
def IteratorCall.Returns (c : IteratorCall H)
    (reads : ArrayFunction.IteratorTurn → Value → Realm H → Prop) (v : Value) (last : Realm H) :
    Prop :=
  match c.turn with
  | none => c.after.Reports .undefined true v last
  | some t => ∃ w middle, c.after.Delivers t.index (reads t) t.kind w middle
      ∧ middle.Reports w false v last

/-- Reading the element of a turn, which may run any code, comes to a value. -/
def IteratorCall.Reads (c : IteratorCall H) (host : Host H) (t : ArrayFunction.IteratorTurn)
    (v : Value) (last : Realm H) : Prop :=
  (t.array.get (.ofNat t.index)).run host c.bound c.after = .ok v last

section Returned

variable {host : Host H} {bound : Nat} {realm last : Realm H} {it : ObjectId} {c : IteratorCall H}
  {data : ArrayIterator} {v w : Value} {done : Bool} {args : List Value}
  {newTarget : Option ObjectId}

theorem reports_of_iteratorResult
    (h : (do return Value.object (← iteratorResult w done)).act (.bounded host bound) realm
      = .ok v last) : realm.Reports w done v last := by
  have h := (iteratorResult_gives realm w done).eq_of_ok h
  unfold Realm.resultOutcome at h
  split at h
  · cases h
  · cases h
    exact ⟨rfl, rfl⟩

theorem Realm.Delivers.mono {reads reads' : Value → Realm H → Prop} {i : Nat} {kind : IterationKind}
    (h : realm.Delivers i reads kind w last)
    (hreads : ∀ v middle, reads v middle → reads' v middle) :
    realm.Delivers i reads' kind w last := by
  cases kind with
  | keys => exact h
  | values => exact hreads w last h
  | entries =>
    obtain ⟨v, middle, pair, hread, hpair⟩ := h
    exact ⟨v, middle, pair, hreads v middle hread, hpair⟩

theorem IteratorCall.Returns.mono
    {reads reads' : ArrayFunction.IteratorTurn → Value → Realm H → Prop}
    (h : c.Returns reads v last)
    (hreads : ∀ t, c.turn = some t → ∀ v middle, reads t v middle → reads' t v middle) :
    c.Returns reads' v last := by
  unfold Returns at h ⊢
  cases hturn : c.turn with
  | none =>
    rw [hturn] at h
    exact h
  | some t =>
    rw [hturn] at h
    obtain ⟨w, middle, hdelivers, hreports⟩ := h
    exact ⟨w, middle, hdelivers.mono (hreads t hturn), hreports⟩

/-- What an iterator of each kind delivers for an index. -/
theorem ArrayFunction.delivers_of_iteratorItem {a : ObjectId} {i : Nat} {kind : IterationKind}
    (h : (iteratorItem a i kind).run host bound realm = .ok w last) :
    realm.Delivers i (fun v middle => (a.get (.ofNat i)).run host bound realm = .ok v middle) kind w
      last := by
  cases kind with
  | keys =>
    cases h
    exact ⟨rfl, rfl⟩
  | values => exact h
  | entries =>
    obtain ⟨v, middle, hread, hrest⟩ := Engine.ok_of_bind h
    obtain ⟨r, made, hmake, hreturn⟩ := Engine.ok_of_bind hrest
    cases hreturn
    obtain ⟨pair, hstores, hshares, rfl, rfl⟩ := exists_of_arrayOfList (by simp) hmake
    exact ⟨v, middle, pair, hread, hstores, hshares, rfl, rfl⟩

/-- A call returns what its iterator delivers for what it was handed out. -/
theorem IteratorCall.returns_of_ok
    (ht : (ArrayFunction.takeTurn (.object it)).run host c.bound c.before = .ok c.turn c.after)
    (hrun : (ArrayFunction.iteratorNext.run (.object it) args newTarget).run host c.bound c.before
      = .ok v last) : c.Returns (c.Reads host) v last := by
  have hrun := (Engine.bind_of_ok ht).symm.trans hrun
  unfold IteratorCall.Returns
  cases hturn : c.turn with
  | none =>
    rw [hturn] at hrun
    exact reports_of_iteratorResult hrun
  | some t =>
    rw [hturn] at hrun
    obtain ⟨w, middle, hitem, hresult⟩ := Engine.ok_of_bind hrun
    exact ⟨w, middle, ArrayFunction.delivers_of_iteratorItem hitem,
      reports_of_iteratorResult hresult⟩

/-- Once the end was found, a call makes a result object that says so, whatever the array is. -/
theorem iteratorNext_gives_of_ended (h : realm.IsIterator it data) (hend : data.iterated = none) :
    Gives 2 bound
      ((ArrayFunction.iteratorNext.run (.object it) args newTarget).run host bound realm)
      (realm.resultOutcome .undefined true) :=
  Gives.bindEngine (.of_eq (ArrayFunction.takeTurn_of_ended h hend))
    (iteratorResult_gives realm .undefined true)

end Returned

/-! ### Calls in the order of their turns -/

/-- The calls of `next` on an iterator over an array, in the order in which they take their turns,
from a realm on. Nothing but taking a turn moves an iterator. So anything else may happen between
two turns: code may change the array, and earlier calls may still be reading elements. -/
inductive TakesTurns (host : Host H) (a it : ObjectId) (start : Realm H) :
    List (IteratorCall H) → Realm H → Prop
  | start : TakesTurns host a it start [] start
  | other {calls before after} (h : TakesTurns host a it start calls before)
      (hkept : ∀ data, before.IsIterator it data → after.IsIterator it data) :
      TakesTurns host a it start calls after
  | call {calls before array} {c : IteratorCall H} (h : TakesTurns host a it start calls before)
      (hbefore : c.before = before) (ha : before.object? a = some array)
      (hc : array.HasCount c.length)
      (ht : (ArrayFunction.takeTurn (.object it)).run host c.bound before = .ok c.turn c.after) :
      TakesTurns host a it start (calls ++ [c]) c.after

/-- A call that took its turn on an iterator which may have found the end before. -/
structure IteratorCall.Taken (c : IteratorCall H) (host : Host H) (a it : ObjectId) : Prop where
  iterator : ∃ data, c.before.IsIterator it data
    ∧ (data.iterated = some a ∨ data.iterated = none)
  counted : ∃ array, c.before.object? a = some array ∧ array.HasCount c.length
  taken : (ArrayFunction.takeTurn (.object it)).run host c.bound c.before = .ok c.turn c.after

/-- How far an iterator over an array has come with the calls of `next` that took their turns: they
were handed out the indices one by one, and none any more once the end was found. -/
structure Progress (host : Host H) (a it : ObjectId) (kind : IterationKind)
    (calls : List (IteratorCall H)) (data : ArrayIterator) : Prop where
  kind_eq : data.kind = kind
  indices : calls.filterMap IteratorCall.turn
    = (List.range data.nextIndex).map fun i => ⟨a, i, kind⟩
  below : ∀ c ∈ calls, ∀ t, c.turn = some t → t.index < c.length
  latched : calls.Pairwise fun c c' => c.turn = none → c'.turn = none
  iterated : (data.iterated = some a ∧ ∀ c ∈ calls, c.turn ≠ none)
    ∨ data.iterated = none ∧ ∃ c ∈ calls, c.turn = none ∧ c.length ≤ data.nextIndex
  taken : ∀ c ∈ calls, c.Taken host a it

section Calls

variable {host : Host H} {bound : Nat} {realm start before after : Realm H} {a it : ObjectId}
  {kind : IterationKind} {calls : List (IteratorCall H)} {c : IteratorCall H} {data : ArrayIterator}

namespace Progress

theorem iterated_eq (h : Progress host a it kind calls data) :
    data.iterated = some a ∨ data.iterated = none :=
  h.iterated.imp And.left And.left

theorem ended (h : Progress host a it kind calls data) (hc : c ∈ calls) (hend : c.turn = none) :
    data.iterated = none := by
  rcases h.iterated with ⟨-, hnone⟩ | ⟨hend, -⟩
  · exact absurd hend (hnone c hc)
  · exact hend

/-- A call that was handed out nothing leaves the iterator without its array. -/
theorem append_none {data' : ArrayIterator} (h : Progress host a it kind calls data)
    (hkind : data'.kind = data.kind) (hindex : data'.nextIndex = data.nextIndex)
    (hend : data'.iterated = none)
    (hfound : ∃ c' ∈ calls ++ [c], c'.turn = none ∧ c'.length ≤ data.nextIndex)
    (hturn : c.turn = none) (htaken : c.Taken host a it) :
    Progress host a it kind (calls ++ [c]) data' where
  kind_eq := hkind.trans h.kind_eq
  indices := by
    rw [List.filterMap_append, h.indices, List.filterMap_cons_none hturn, List.filterMap_nil,
      List.append_nil, hindex]
  below := List.forall_mem_append.mpr ⟨h.below, List.forall_mem_singleton.mpr fun t ht => by
    cases hturn.symm.trans ht⟩
  latched := List.pairwise_append.mpr ⟨h.latched, List.pairwise_singleton _ c,
    fun _ _ c' hc' _ => List.mem_singleton.mp hc' ▸ hturn⟩
  iterated := .inr ⟨hend, hindex ▸ hfound⟩
  taken := List.forall_mem_append.mpr ⟨h.taken, List.forall_mem_singleton.mpr htaken⟩

/-- A call that was handed out an index, where the array is longer. -/
theorem append_some (h : Progress host a it kind calls data) (hopen : data.iterated = some a)
    (hlt : data.nextIndex < c.length) (hturn : c.turn = some ⟨a, data.nextIndex, data.kind⟩)
    (htaken : c.Taken host a it) :
    Progress host a it kind (calls ++ [c]) { data with nextIndex := data.nextIndex + 1 } := by
  have hnone : ∀ c ∈ calls, c.turn ≠ none := by
    rcases h.iterated with ⟨-, hnone⟩ | ⟨hend, -⟩
    · exact hnone
    · cases hopen.symm.trans hend
  exact {
    kind_eq := h.kind_eq
    indices := by
      rw [List.filterMap_append, h.indices, List.filterMap_cons_some hturn, List.filterMap_nil,
        List.range_succ, List.map_append, List.map_singleton, h.kind_eq]
    below := List.forall_mem_append.mpr ⟨h.below, List.forall_mem_singleton.mpr fun t ht => by
      cases hturn.symm.trans ht
      exact hlt⟩
    latched := List.pairwise_append.mpr ⟨h.latched, List.pairwise_singleton _ c,
      fun c' hc' _ _ hend => absurd hend (hnone c' hc')⟩
    iterated := .inl ⟨hopen, List.forall_mem_append.mpr ⟨hnone,
      List.forall_mem_singleton.mpr (by simp [hturn])⟩⟩
    taken := List.forall_mem_append.mpr ⟨h.taken, List.forall_mem_singleton.mpr htaken⟩ }

/-- A call that took a turn by the length of the array. -/
theorem append_of_open (h : Progress host a it kind calls data) (hopen : data.iterated = some a)
    (hturn : c.turn = (data.turn a c.length).1) (htaken : c.Taken host a it) :
    Progress host a it kind (calls ++ [c]) (data.turn a c.length).2 := by
  unfold ArrayIterator.turn at hturn ⊢
  by_cases hle : c.length ≤ data.nextIndex
  · rw [if_pos hle] at hturn ⊢
    exact h.append_none rfl rfl rfl ⟨c, List.mem_concat_self, hturn, hle⟩ hturn htaken
  · rw [if_neg hle] at hturn ⊢
    exact h.append_some hopen (Nat.not_le.mp hle) hturn htaken

/-- A call after the end was found. -/
theorem append_of_ended (h : Progress host a it kind calls data) (hend : data.iterated = none)
    (hturn : c.turn = none) (htaken : c.Taken host a it) :
    Progress host a it kind (calls ++ [c]) data := by
  rcases h.iterated with ⟨hopen, -⟩ | ⟨-, c', hc', hnone, hle⟩
  · cases hopen.symm.trans hend
  · exact h.append_none rfl rfl hend ⟨c', List.mem_append_left _ hc', hnone, hle⟩ hturn htaken

/-- One more call brings the iterator one turn further. -/
theorem append {array : Object H} (h : Progress host a it kind calls data)
    (hit : before.IsIterator it data) (hbefore : c.before = before)
    (ha : before.object? a = some array) (hc : array.HasCount c.length)
    (ht : (ArrayFunction.takeTurn (.object it)).run host c.bound before = .ok c.turn c.after) :
    ∃ data', c.after.IsIterator it data' ∧ Progress host a it kind (calls ++ [c]) data' := by
  subst hbefore
  have htaken : c.Taken host a it := ⟨⟨data, hit, h.iterated_eq⟩, ⟨array, ha, hc⟩, ht⟩
  rcases h.iterated_eq with hopen | hend
  · obtain ⟨object, ho, hk⟩ := hit
    obtain ⟨hturn, hafter⟩ := (ArrayFunction.takeTurn_attains ho hk hopen ha hc).eq_of_ok ht
    rw [hafter]
    exact ⟨_, Realm.isIterator_putObject_self ho, h.append_of_open hopen hturn htaken⟩
  · obtain ⟨hturn, hafter⟩ := EStateM.Result.ok.inj
      ((ArrayFunction.takeTurn_of_ended hit hend).symm.trans ht)
    rw [← hafter]
    exact ⟨data, hit, h.append_of_ended hend hturn.symm htaken⟩

end Progress

/-- Whatever becomes of the array, or of any object but the iterator, is among what may happen
between two turns. -/
theorem TakesTurns.putObject {o : ObjectId} (h : TakesTurns host a it start calls before)
    (hne : it ≠ o) (object : Object H) :
    TakesTurns host a it start calls (before.putObject o object) :=
  h.other fun _ hit => hit.putObject hne

/-- After any calls, an iterator that was new is as far as they have brought it. -/
theorem TakesTurns.exists_progress (h : TakesTurns host a it start calls after)
    (hmade : (newArrayIterator a kind).run host bound realm = .ok it start) :
    ∃ data, after.IsIterator it data ∧ Progress host a it kind calls data := by
  induction h with
  | start =>
    cases hmade
    refine ⟨_, ⟨_, Realm.object?_withObject realm _, rfl⟩, rfl, rfl, List.forall_mem_nil _, .nil,
      .inl ⟨rfl, List.forall_mem_nil _⟩, List.forall_mem_nil _⟩
  | other h hkept ih =>
    obtain ⟨data, hit, hprogress⟩ := ih
    exact ⟨data, hkept data hit, hprogress⟩
  | call h hbefore ha hc ht ih =>
    obtain ⟨data, hit, hprogress⟩ := ih
    exact hprogress.append hit hbefore ha hc ht

end Calls

/-! ### An array that is left as it is -/

/-- An array of a given length whose elements are read as certain values, without any code being
run. An element is a property of the array or an inherited one; a hole is read as `undefined`. -/
structure Realm.ReadsAs (realm : Realm H) (a : ObjectId) (n : Nat) (f : Nat → Value) : Prop where
  counted : ∃ array, realm.object? a = some array ∧ array.HasCount n
  found : ∀ i < n, ∃ m found, realm.FindsAfter (.ofNat i) m a found
    ∧ (∀ d, found = some d → d.isData) ∧ found.elim .undefined Descriptor.valueD = f i

section Unchanged

variable {host : Host H} {bound n i : Nat} {realm : Realm H} {a it : ObjectId}
  {object object' : Object H} {kind : IterationKind} {calls : List (IteratorCall H)}
  {c : IteratorCall H} {data : ArrayIterator} {f : Nat → Value}

theorem Realm.ReadsAs.get_attains (h : realm.ReadsAs a n f) (hi : i < n) :
    Attains realm ((a.get (.ofNat i)).act (.bounded host bound) realm) (f i) realm := by
  obtain ⟨m, found, hfinds, hdata, hvalue⟩ := h.found i hi
  rw [← hvalue]
  exact hfinds.getFor_attains hdata realm.callDepth

/-- When an iterator is moved, elements are read as before. -/
theorem Realm.ReadsAs.putObject (h : realm.ReadsAs a n f) (ho : realm.object? it = some object)
    (hk : object.kind = .arrayIterator data) (data' : ArrayIterator) :
    (realm.putObject it (object.withIterator data')).ReadsAs a n f where
  counted := by
    obtain ⟨array, ha, hc⟩ := h.counted
    refine ⟨array, (object?_putObject_of_ne ?_).trans ha, hc⟩
    rintro rfl
    cases ho.symm.trans ha
    cases hk.symm.trans hc.isArray
  found i hi := by
    obtain ⟨m, found, hfinds, hread⟩ := h.found i hi
    refine ⟨m, found, hfinds.putObject_of_alike ho ?_ ?_ rfl, hread⟩
    · rw [hk]
      rfl
    · rw [Object.ownProperty?, Object.ownProperty?, hk]
      rfl

theorem IteratorCall.Taken.readsAs (h : c.Taken host a it) (hreads : c.before.ReadsAs a n f) :
    c.after.ReadsAs a n f := by
  obtain ⟨data, hit, hopen | hend⟩ := h.iterator
  · obtain ⟨object, ho, hk⟩ := hit
    obtain ⟨array, ha, hc⟩ := h.counted
    obtain ⟨-, hafter⟩ := (ArrayFunction.takeTurn_attains ho hk hopen ha hc).eq_of_ok h.taken
    rw [hafter]
    exact hreads.putObject ho hk _
  · obtain ⟨-, hafter⟩ := EStateM.Result.ok.inj
      ((ArrayFunction.takeTurn_of_ended hit hend).symm.trans h.taken)
    rwa [← hafter]

theorem IteratorCall.Taken.length_eq (h : c.Taken host a it) (hreads : c.before.ReadsAs a n f) :
    c.length = n := by
  obtain ⟨array, ha, hc⟩ := h.counted
  obtain ⟨array', ha', hc'⟩ := hreads.counted
  cases ha.symm.trans ha'
  exact hc.unique hc'

/-- If the array had one length throughout, the end was found behind the last index. -/
theorem Progress.nextIndex_eq (h : Progress host a it kind calls data)
    (hn : ∀ c ∈ calls, c.length = n) (hc : c ∈ calls) (hend : c.turn = none) :
    data.nextIndex = n := by
  apply Nat.le_antisymm
  · -- the last index that was handed out was below the length
    by_contra hlt
    have hlast : (⟨a, n, kind⟩ : ArrayFunction.IteratorTurn)
        ∈ calls.filterMap IteratorCall.turn := by
      rw [h.indices]
      exact List.mem_map.mpr ⟨n, List.mem_range.mpr (Nat.not_le.mp hlt), rfl⟩
    obtain ⟨c', hc', hturn⟩ := List.mem_filterMap.mp hlast
    exact absurd (h.below c' hc' _ hturn) (by simp [hn c' hc'])
  · rcases h.iterated with ⟨-, hnone⟩ | ⟨-, c', hc', -, hle⟩
    · exact absurd hend (hnone c hc)
    · exact hn c' hc' ▸ hle

end Unchanged

/-- A prototype, an array, and an iterator over it. -/
def iteratingRealm (array : Object HostTypes.bare) (data : ArrayIterator) :
    Realm HostTypes.bare where
  heap := #[.ofKind none .ordinary, array,
    .ofKind (some (mixedRealm.intrinsics.get .arrayIteratorPrototype)) (.arrayIterator data)]
  config := { timeoutMs := 0 }
  store := ()

section Example

variable {array : Object HostTypes.bare} {data : ArrayIterator} {length : Nat}
  {start : Realm HostTypes.bare} {calls : List (IteratorCall HostTypes.bare)}

/-- A call of `next` where the array is as it is. -/
theorem TakesTurns.iteratingRealm_call
    (h : TakesTurns Host.bare ⟨1⟩ ⟨2⟩ start calls (iteratingRealm array data))
    (hc : array.HasCount length) (ha : data.iterated = some ⟨1⟩) :
    TakesTurns Host.bare ⟨1⟩ ⟨2⟩ start
      (calls ++ [⟨iteratingRealm array data, 2, length, (data.turn ⟨1⟩ length).1,
        iteratingRealm array (data.turn ⟨1⟩ length).2⟩])
      (iteratingRealm array (data.turn ⟨1⟩ length).2) := by
  have hit : (iteratingRealm array data).object? ⟨2⟩
      = some (.ofKind (some (mixedRealm.intrinsics.get .arrayIteratorPrototype))
        (.arrayIterator data)) := rfl
  have harray : (iteratingRealm array data).object? ⟨1⟩ = some array := rfl
  have hl : ¬mixedRealm.deeper.AtLimit := by decide
  exact h.call rfl harray hc
    ((ArrayFunction.takeTurn_gives hit rfl ha harray hc hl).eq_of_le (Nat.le_refl 2))

/-- Another array is put in the place of the array. -/
theorem TakesTurns.iteratingRealm_other
    (h : TakesTurns Host.bare ⟨1⟩ ⟨2⟩ start calls (iteratingRealm array data))
    (array' : Object HostTypes.bare) :
    TakesTurns Host.bare ⟨1⟩ ⟨2⟩ start calls (iteratingRealm array' data) :=
  have hne : (⟨2⟩ : ObjectId) ≠ ⟨1⟩ := by decide
  h.putObject hne array'

end Example

end ScriptEngine
