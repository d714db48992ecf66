import ScriptEngine.Proofs.PermittedChange
import ScriptEngine.Proofs.Prototype
import ScriptEngine.Proofs.PrototypeChain
import ScriptEngine.Proofs.StoredLength

/-!
# Assignments

To set a property of an object, the property is searched for along the chain of prototypes, and what
is found decides whether the object itself is asked to define it. The object has the last word: it
may not be extensible, and an array may be full. Where no accessor is found on the way, this runs no
code of the program, and the value that was set is the one that is read afterwards.

## Main definitions

* `Realm.FindsAfter`: what a search for a property finds, and over how many prototypes it goes.
* `Object.Admits`: when a property may be set.
* `Object.Assigned`: the object after a property was set.

## Main results

* `Realm.Chain.exists_findsAfter`: a search along a chain of prototypes ends.
* `Realm.FindsAfter.request_gives`: a request that searches comes down to what it concludes with.
* `Object.exists_assigned`: the request that the object is asked to carry out.
* `set_then_get`: the outcome of an assignment, and of reading the property afterwards.
-/

namespace ScriptEngine

open Engine

variable {H : HostTypes}

/-! ### The search -/

/-- What a search for a property finds, from an object on and through objects that keep their own
properties themselves, and over how many prototypes it goes. -/
inductive Realm.FindsAfter (realm : Realm H) (k : PropertyKey) :
    Nat → ObjectId → Option Descriptor → Prop
  | own {o : ObjectId} {object : Object H} {d : Descriptor} (ho : realm.object? o = some object)
      (hp : object.kind.isPlain) (hk : object.ownProperty? k = some d) :
      FindsAfter realm k 0 o (some d)
  | missing {o : ObjectId} {object : Object H} (ho : realm.object? o = some object)
      (hp : object.kind.isPlain) (hk : object.ownProperty? k = none)
      (hn : object.prototype = none) : FindsAfter realm k 0 o none
  | inherited {n : Nat} {o parent : ObjectId} {object : Object H} {found : Option Descriptor}
      (ho : realm.object? o = some object) (hp : object.kind.isPlain)
      (hk : object.ownProperty? k = none) (hn : object.prototype = some parent)
      (h : FindsAfter realm k n parent found) : FindsAfter realm k (n + 1) o found

namespace Realm

variable {host : Host H} {bound n need : Nat} {realm after : Realm H} {o : ObjectId}
  {object : Object H} {k : PropertyKey} {v receiver : Value} {found : Option Descriptor}
  {done : Bool}

/-- A search that ends goes over some number of prototypes. -/
theorem Finds.exists_steps (h : realm.Finds k o found) : ∃ n, realm.FindsAfter k n o found := by
  induction h with
  | own ho hp hk => exact ⟨0, .own ho hp hk⟩
  | missing ho hp hk hn => exact ⟨0, .missing ho hp hk hn⟩
  | inherited ho hp hk hn _ ih =>
    obtain ⟨n, h⟩ := ih
    exact ⟨n + 1, .inherited ho hp hk hn h⟩

/-- A search finds one thing, after one number of prototypes. -/
theorem FindsAfter.unique {n' : Nat} {found' : Option Descriptor}
    (h : realm.FindsAfter k n o found) (h' : realm.FindsAfter k n' o found') :
    n = n' ∧ found = found' := by
  induction h generalizing n' with
  | own ho _ hk =>
    cases h' with
    | own ho' _ hk' =>
      cases ho.symm.trans ho'
      exact ⟨rfl, hk.symm.trans hk'⟩
    | missing ho' _ hk' =>
      cases ho.symm.trans ho'
      cases hk.symm.trans hk'
    | inherited ho' _ hk' =>
      cases ho.symm.trans ho'
      cases hk.symm.trans hk'
  | missing ho _ hk hn =>
    cases h' with
    | own ho' _ hk' =>
      cases ho.symm.trans ho'
      cases hk.symm.trans hk'
    | missing => exact ⟨rfl, rfl⟩
    | inherited ho' _ _ hn' =>
      cases ho.symm.trans ho'
      cases hn.symm.trans hn'
  | inherited ho _ hk hn _ ih =>
    cases h' with
    | own ho' _ hk' =>
      cases ho.symm.trans ho'
      cases hk.symm.trans hk'
    | missing ho' _ _ hn' =>
      cases ho.symm.trans ho'
      cases hn.symm.trans hn'
    | inherited ho' _ _ hn' h' =>
      cases ho.symm.trans ho'
      cases hn.symm.trans hn'
      exact (ih h').imp_left (congrArg (· + 1))

theorem Finds.unique {found' : Option Descriptor} (h : realm.Finds k o found)
    (h' : realm.Finds k o found') : found = found' := by
  obtain ⟨n, h⟩ := h.exists_steps
  obtain ⟨n', h'⟩ := h'.exists_steps
  exact (h.unique h').2

/-- Along a chain of objects that keep their own properties themselves, every search ends, and what
it finds is a property of one of them. -/
theorem Chain.exists_findsAfter {p : Option ObjectId} {ids : List ObjectId} (h : realm.Chain p ids)
    (hp : p = some o) (k : PropertyKey)
    (hplain : ∀ q ∈ ids, ∀ object, realm.object? q = some object → object.kind.isPlain) :
    ∃ n found, n < ids.length ∧ realm.FindsAfter k n o found
      ∧ ∀ d, found = some d → ∃ q ∈ ids, ∃ object, realm.object? q = some object
        ∧ object.ownProperty? k = some d := by
  induction h generalizing o with
  | null => cases hp
  | @proxy q object ho hk =>
    have hnot := ObjectKind.isProxy_of_isPlain (hplain q List.mem_cons_self object ho)
    cases hk.symm.trans hnot
  | @next q object ids ho _ hrest ih =>
    cases hp
    obtain ⟨hplain, hothers⟩ := List.forall_mem_cons.mp hplain
    cases hk : object.ownProperty? k with
    | some d =>
      refine ⟨0, some d, Nat.succ_pos _, .own ho (hplain object ho) hk, fun d' hd' => ?_⟩
      cases hd'
      exact ⟨q, List.mem_cons_self, object, ho, hk⟩
    | none =>
      cases hn : object.prototype with
      | none =>
        refine ⟨0, none, Nat.succ_pos _, .missing ho (hplain object ho) hk hn, fun d hd => ?_⟩
        cases hd
      | some parent =>
        obtain ⟨n, found, hlt, hfinds, hmem⟩ := ih hn hothers
        refine ⟨n + 1, found, Nat.succ_lt_succ hlt, .inherited ho (hplain object ho) hk hn hfinds,
          fun d hd => ?_⟩
        obtain ⟨q, hq, hfound⟩ := hmem d hd
        exact ⟨q, List.mem_cons_of_mem _ hq, hfound⟩

namespace FindsAfter

theorem finds (h : realm.FindsAfter k n o found) : realm.Finds k o found := by
  induction h with
  | own ho hp hk => exact .own ho hp hk
  | missing ho hp hk hn => exact .missing ho hp hk hn
  | inherited ho hp hk hn _ ih => exact .inherited ho hp hk hn ih

theorem isPlain (h : realm.FindsAfter k n o found) (ho : realm.object? o = some object) :
    object.kind.isPlain := by
  cases h with
  | own ho' hp => exact Option.some.inj (ho.symm.trans ho') ▸ hp
  | missing ho' hp => exact Option.some.inj (ho.symm.trans ho') ▸ hp
  | inherited ho' hp => exact Option.some.inj (ho.symm.trans ho') ▸ hp

/-- The first object comes first. -/
theorem eq_of_ownProperty? {d : Descriptor} (h : realm.FindsAfter k n o found)
    (ho : realm.object? o = some object) (hk : object.ownProperty? k = some d) :
    found = some d :=
  h.finds.unique (.own ho (h.isPlain ho) hk)

/-- What is found is a property in storage or of a code unit. -/
theorem isStorable (h : realm.FindsAfter k n o found) (hs : realm.Sound) {d : Descriptor}
    (hd : found = some d) : d.isStorable := by
  induction h with
  | own ho hp hk =>
    cases hd
    exact (hs _ _ ho).isStorable_of_ownProperty? hk
  | missing => cases hd
  | inherited _ _ _ _ _ ih => exact ih hd

/-- A request that searches comes down to what it concludes with, one level deeper for the object
and for each prototype on the way. -/
theorem request_gives {α : Type} {a : α} {request : ObjectId → Engine H α}
    {conclude : Option Descriptor → Engine H α} (h : realm.FindsAfter k n o found)
    (hs : Engine.Searches host k request conclude) (depth : Nat)
    (hl : ¬(realm.atDepth (depth + n + 1)).AtLimit) (hneed : 1 ≤ need)
    (hc : ∀ bound, Gives need bound
      ((conclude found).act (.bounded host bound) (realm.atDepth (depth + n + 1)))
      (.ok a (after.atDepth (depth + n + 1)))) :
    Gives (need + n + 1) bound ((request o).act (.bounded host bound) (realm.atDepth depth))
      (.ok a (after.atDepth depth)) := by
  induction h generalizing depth bound with
  | own ho hp hk =>
    refine hs.gives_step (ho : (realm.atDepth depth).object? _ = _) hp hl hneed fun bound => ?_
    rw [Object.search, hk]
    exact hc bound
  | missing ho hp hk hn =>
    refine hs.gives_step (ho : (realm.atDepth depth).object? _ = _) hp hl hneed fun bound => ?_
    rw [Object.search, hk, hn]
    exact hc bound
  | @inherited n o parent object found ho hp hk hn _ ih =>
    have hdepth : depth + 1 + n + 1 = depth + (n + 1) + 1 := by omega
    have hl' : ¬(realm.atDepth (depth + 1)).AtLimit := fun h => hl (atLimit_of_le (by omega) h)
    have hneed' : 1 ≤ need + n + 1 := by omega
    refine hs.gives_step (ho : (realm.atDepth depth).object? _ = _) hp hl' hneed' fun bound => ?_
    rw [Object.search, hk, hn]
    exact ih (depth + 1) (hdepth ▸ hl) (hdepth ▸ hc)

/-- Setting a property comes down to setting what is found. -/
theorem setFor_gives (h : realm.FindsAfter k n o found) (depth : Nat)
    (hl : ¬(realm.atDepth (depth + n + 1)).AtLimit) (hneed : 1 ≤ need)
    (hset : ∀ bound, Gives need bound
      ((Ordinary.setFound (found.getD (.plain .undefined)) k v receiver).act (.bounded host bound)
        (realm.atDepth (depth + n + 1))) (.ok done (after.atDepth (depth + n + 1)))) :
    Gives (need + n + 1) bound
      ((o.setFor k v receiver).act (.bounded host bound) (realm.atDepth depth))
      (.ok done (after.atDepth depth)) :=
  h.request_gives (ObjectId.searches_setFor host k v receiver) depth hl hneed hset

end FindsAfter

end Realm

/-! ### The object itself -/

/-- Storing a new value changes no attribute. -/
theorem Descriptor.accepts_ofValue {d : Descriptor} {v : Value} (hs : d.isStorable)
    (hw : d.isWritable) :
    Descriptor.accepts d (.ofValue v)
      ∧ (Descriptor.ofValue v).definedOver (some d) = { d with value := some v } := by
  obtain ⟨x, w, e, c, rfl⟩ | ⟨g, s, e, c, rfl⟩ := (Descriptor.isStorable_iff d).mp hs
  · obtain rfl : w = true := hw
    cases c
    · exact ⟨by cases e <;> rfl, rfl⟩
    · exact ⟨rfl, rfl⟩
  · cases hw

namespace Object

/-- A property may be set if the one that a search finds is writable or none is found, the object
has the property or may get it, and an array has room for it. -/
structure Admits (object : Object H) (k : PropertyKey) (found : Option Descriptor) : Prop where
  writable : ∀ d, found = some d → d.isWritable
  own : (object.ownProperty? k).isSome ∨ object.extensible
  room : object.HasRoomFor k

/-- What an object is asked to define when a property of it is set: the value, or a new property. -/
def assignment (object : Object H) (k : PropertyKey) (v : Value) : Descriptor :=
  if (object.ownProperty? k).isSome then .ofValue v else .plain v

/-- The object after a property was set. The property has the new value and its attributes as they
were, or all attributes if it is new; the length of an array is above the element; all else is as it
was. -/
structure Assigned (object : Object H) (k : PropertyKey) (v : Value) (after : Object H) : Prop where
  own : after.ownProperty? k
    = some { (object.ownProperty? k).getD (.plain v) with value := some v }
  length : object.kind.isArray → ∀ current, object.properties.get? lengthKey = some current →
    after.properties.get? lengthKey = some (ArrayObject.raisedTo current k.leastLength)
  others : ∀ k', k' ≠ k → ¬(object.kind.isArray ∧ k' = lengthKey) →
    after.ownProperty? k' = object.ownProperty? k'
  rest : after = { object with properties := after.properties }

variable {object after : Object H} {k : PropertyKey} {v : Value} {current : Descriptor}
  {done : Bool}

theorem assignment_isValid : (object.assignment k v).isValid := by
  unfold assignment
  split
  · rfl
  · rfl

/-- A property that is writable data is stored, for that of a code unit is not writable. -/
theorem Sound.unitProperty?_eq_none (hs : object.Sound)
    (hw : ∀ d, object.ownProperty? k = some d → d.isWritable) :
    object.kind.unitProperty? k = none := by
  cases hu : object.kind.unitProperty? k with
  | none => rfl
  | some unit =>
    obtain ⟨x, rfl⟩ := ObjectKind.unitProperty?_eq_some hu
    have hown : object.ownProperty? k = some (.data x false true false) := by
      rw [ownProperty?, hs.unshadowed k (by rw [hu]; rfl), hu, Option.none_or]
    cases hw _ hown

/-- The object accepts the request if it has the property or may get it, and the request leaves the
property as it should be. -/
theorem accepts_assignment (hs : object.Sound) (hu : object.kind.unitProperty? k = none)
    (hw : ∀ d, object.ownProperty? k = some d → d.isWritable) :
    (object.accepts k (object.assignment k v)
        ↔ (object.ownProperty? k).isSome ∨ object.extensible)
      ∧ (object.assignment k v).definedOver (object.properties.get? k)
        = { (object.ownProperty? k).getD (.plain v) with value := some v } := by
  rw [accepts, assignment, ← ownProperty?_of_unitProperty?_eq_none hu]
  cases hk : object.ownProperty? k with
  | none => exact ⟨by simp [Descriptor.isCompatible], rfl⟩
  | some d =>
    have hstored := (ownProperty?_of_unitProperty?_eq_none hu).symm.trans hk
    obtain ⟨ha, hdefined⟩ := Descriptor.accepts_ofValue (v := v) (hs.storable k d hstored) (hw d hk)
    exact ⟨by simp [Descriptor.isCompatible, ha], hdefined⟩

/-- What is to be said of the storage after a property was set. -/
theorem assigned_of_get? (hu : object.kind.unitProperty? k = none)
    (hrest : after = { object with properties := after.properties })
    (hget : ∀ k', ¬(object.kind.isArray ∧ k' = lengthKey) → after.properties.get? k'
      = if k' = k then some { (object.ownProperty? k).getD (.plain v) with value := some v }
        else object.properties.get? k')
    (hk : ¬(object.kind.isArray ∧ k = lengthKey))
    (hlength : object.kind.isArray → ∀ current, object.properties.get? lengthKey = some current →
      after.properties.get? lengthKey = some (ArrayObject.raisedTo current k.leastLength)) :
    object.Assigned k v after := by
  have hkind : after.kind = object.kind := by rw [hrest]
  refine ⟨?_, hlength, fun k' hne hk' => ?_, hrest⟩
  · rw [ownProperty?_of_unitProperty?_eq_none (by rwa [hkind]), hget k hk, if_pos rfl]
  · rw [ownProperty?, ownProperty?, hkind, hget k' hk', if_neg hne]

/-- The object carries out the request if it admits the property, and with the right result. -/
theorem exists_assigned (hs : object.Sound) (hstores : object.StoresLength)
    (hk : object.kind.isArray → k ≠ lengthKey)
    (hw : ∀ d, object.ownProperty? k = some d → d.isWritable) :
    ∃ after done, object.Defines k (object.assignment k v) after done
      ∧ (done = true ↔ object.Admits k (object.ownProperty? k))
      ∧ (done = true → object.Assigned k v after) := by
  have hu := hs.unitProperty?_eq_none hw
  have hk' : ¬(object.kind.isArray ∧ k = lengthKey) := fun h => hk h.1 h.2
  obtain ⟨haccepts, hdefined⟩ := accepts_assignment (v := v) hs hu hw
  have hget (k' : PropertyKey) : (object.define k (object.assignment k v)).properties.get? k'
      = if k' = k then some { (object.ownProperty? k).getD (.plain v) with value := some v }
        else object.properties.get? k' := by
    rw [define, PropertyMap.define, PropertyMap.get?_insert, hdefined]
  by_cases helement : object.kind.isArray ∧ ∃ i, k = .index i
  · obtain ⟨harray, i, rfl⟩ := helement
    obtain ⟨x, w, hc⟩ := hstores harray
    refine ⟨_, _, .element i _ harray hc, ?_, fun hdone => ?_⟩
    · rw [defineElement_done_iff harray hc, haccepts]
      exact ⟨fun h => ⟨hw, h.1, h.2⟩, fun h => ⟨h.own, h.room⟩⟩
    · rw [defineElement_of_done harray hc rfl hdone]
      refine assigned_of_get? hu rfl (fun k' hne => ?_) hk' fun _ current hcurrent => ?_
      · rw [PropertyMap.get?_modify, if_neg fun heq => hne ⟨harray, heq⟩, hget]
      · rw [PropertyMap.get?_modify, if_pos rfl, hget, if_neg (hk harray).symm, hcurrent]
        rfl
  · -- the length of an array is below no key that is not an index
    have hlow : object.kind.isArray → k.leastLength = 0 := fun harray => by
      cases k with
      | index i => exact absurd ⟨harray, i, rfl⟩ helement
      | _ => rfl
    have hdefines : object.Defines k (object.assignment k v) _ _ := .stored hu fun harray =>
      ⟨fun i heq => helement ⟨harray, i, heq⟩, fun heq => absurd heq (hk harray)⟩
    refine ⟨_, _, hdefines, haccepts.trans ?_, fun hdone => ?_⟩
    · refine ⟨fun hown => ⟨hw, hown, fun harray => ?_⟩, Admits.own⟩
      exact hasRoomFor_of_leastLength_eq_zero (hlow harray) harray
    · rw [defined_of_accepts hdone]
      refine assigned_of_get? hu rfl (fun k' _ => hget k') hk' fun harray current hcurrent => ?_
      rw [hget, if_neg (hk harray).symm, hcurrent, hlow harray, ArrayObject.raisedTo,
        if_neg (Nat.not_lt_zero _)]

end Object

/-! ### The assignment -/

section Assignment

variable {host : Host H} {bound n : Nat} {realm : Realm H} {o : ObjectId} {object after : Object H}
  {k : PropertyKey} {v : Value} {found : Option Descriptor} {done : Bool}

/-- What the object is asked to do when a property that may be written is set. -/
theorem Ordinary.setOnReceiver_gives (ho : realm.object? o = some object)
    (hp : object.kind.isPlain) (hl : ¬realm.deeper.deeper.AtLimit)
    (hown : ∀ d, object.ownProperty? k = some d → d.isAccessor = false ∧ d.isWritable)
    (h : object.Defines k (object.assignment k v) after done) :
    Gives 3 bound ((Ordinary.setOnReceiver k v (.object o)).act (.bounded host bound) realm)
      (.ok done (realm.putObject o after)) := by
  have hl' : ¬realm.AtLimit := fun h => hl (Realm.deeper_atLimit (Realm.deeper_atLimit h))
  refine ((ObjectId.getOwnProperty_gives ho hp hl' k).mono (by decide)).bindEngine ?_
  have hdefine : Gives 3 bound
      (answer host bound (.defineOwnProperty o k (object.assignment k v)) realm) _ :=
    h.gives ho hp Object.assignment_isValid hl
  cases hk : object.ownProperty? k with
  | none =>
    rw [Object.assignment, hk] at hdefine
    exact hdefine
  | some d =>
    obtain ⟨haccessor, hw⟩ := hown d hk
    rw [Object.assignment, hk] at hdefine
    simp only [haccessor, hw, Bool.not_true, Bool.or_self, Bool.false_eq_true, if_false]
    exact hdefine

/-- A data property that is found and is not writable is not set. -/
theorem Ordinary.setFound_of_not_isWritable {d : Descriptor} {s : Surroundings H}
    (hd : d.isData) (hw : d.isWritable = false) :
    (Ordinary.setFound d k v (.object o)).act s realm = .ok false realm := by
  simp only [Ordinary.setFound, hd, hw, if_true, Bool.false_eq_true, if_false]
  rfl

/-- What becomes of an assignment, by what the search for the property finds. -/
theorem Realm.FindsAfter.set_outcome (host : Host H) (hr : realm.Reachable)
    (ho : realm.object? o = some object)
    (h : realm.FindsAfter k n o found) (haccessor : ∀ d, found = some d → d.isAccessor = false)
    (hk : object.kind.isArray → k ≠ lengthKey) (v : Value)
    (hl : ¬(realm.atDepth (realm.callDepth + n + 3)).AtLimit) (hb : n + 4 ≤ bound) :
    (object.Admits k found → ∃ after, object.Assigned k v after
      ∧ answer host bound (.set o k v (.object o)) realm = .ok true (realm.putObject o after)
      ∧ answer host bound (.get o k (.object o)) (realm.putObject o after)
        = .ok v (realm.putObject o after))
    ∧ (¬object.Admits k found →
      answer host bound (.set o k v (.object o)) realm = .ok false realm) := by
  have hp := h.isPlain ho
  have hdata (d : Descriptor) (hd : found = some d) : d.isData := by
    rw [Descriptor.isData_eq_not_isAccessor (h.isStorable hr.sound hd), haccessor d hd]
    rfl
  have hl' : ¬(realm.atDepth (realm.callDepth + n + 1)).AtLimit :=
    fun h => hl (Realm.atLimit_of_le (by omega) h)
  by_cases hw : ∀ d, found = some d → d.isWritable
  · have hown (d : Descriptor) (hd : object.ownProperty? k = some d) :
        d.isAccessor = false ∧ d.isWritable :=
      ⟨haccessor d (h.eq_of_ownProperty? ho hd), hw d (h.eq_of_ownProperty? ho hd)⟩
    obtain ⟨after, done, hdefines, hdone, hassigned⟩ := Object.exists_assigned (v := v)
      (hr.sound o object ho) (hr.storesLength o object ho) hk fun d hd => (hown d hd).2
    have hadmits : object.Admits k found ↔ done = true := by
      refine Iff.trans ⟨fun h => ?_, fun h => ⟨hw, h.own, h.room⟩⟩ hdone.symm
      exact ⟨fun d hd => (hown d hd).2, h.own, h.room⟩
    -- what is found leads to the object, from the depth where the search ends
    have hset (bound : Nat) : Gives 3 bound
        ((Ordinary.setFound (found.getD (.plain .undefined)) k v (.object o)).act
          (.bounded host bound) (realm.atDepth (realm.callDepth + n + 1)))
        (.ok done ((realm.putObject o after).atDepth (realm.callDepth + n + 1))) := by
      have hfound : (Ordinary.setFound (found.getD (.plain .undefined)) k v (.object o) :
          Engine H Bool) = Ordinary.setOnReceiver k v (.object o) := by
        cases hf : found with
        | none => rfl
        | some d => simp only [Ordinary.setFound, Option.getD_some, hdata d hf, hw d hf, if_true]
      rw [hfound]
      exact Ordinary.setOnReceiver_gives ho hp hl hown hdefines
    have hgives : answer host bound (.set o k v (.object o)) realm
        = .ok done (realm.putObject o after) :=
      (h.setFor_gives realm.callDepth hl' (by decide) hset).eq_of_le (by omega)
    refine ⟨fun hadmitted => ?_, fun hrefused => ?_⟩
    · obtain rfl := hadmits.mp hadmitted
      have hassigned := hassigned rfl
      have ho' : (realm.putObject o after).object? o = some after := Realm.object?_putObject_self ho
      have hp' : after.kind.isPlain := by rwa [hdefines.kind_eq]
      have hdepth : ¬(realm.putObject o after).deeper.AtLimit :=
        fun h => hl (Realm.atLimit_of_le (m := realm.callDepth + 1) (by omega) h)
      exact ⟨after, hassigned, hgives, (ObjectId.getFor_gives_of_isData ho' hp' hdepth
        hassigned.own rfl).eq_of_le (by omega)⟩
    · obtain rfl : done = false := by simpa using mt hadmits.mpr hrefused
      rw [hgives, hdefines.eq_of_refused rfl fun h => hk h.1 h.2, Realm.putObject_self ho]
  · refine ⟨fun hadmitted => absurd hadmitted.writable hw, fun _ => ?_⟩
    obtain ⟨d, hfound, hd⟩ : ∃ d, found = some d ∧ d.isWritable = false := by simpa using hw
    have hset (bound : Nat) : Gives 1 bound
        ((Ordinary.setFound (found.getD (.plain .undefined)) k v (.object o)).act
          (.bounded host bound) (realm.atDepth (realm.callDepth + n + 1)))
        (.ok false (realm.atDepth (realm.callDepth + n + 1))) := by
      rw [hfound]
      exact .of_eq (Ordinary.setFound_of_not_isWritable (hdata d hfound) hd)
    exact (h.setFor_gives realm.callDepth hl' (by decide) hset).eq_of_le (by omega)

/-- Setting a property of an object whose chain of prototypes consists of objects that keep their
own properties themselves, none of which has the property as an accessor. The object admits it or
not, by what the search for it finds; if it does, it is the only thing that changes, and the value
can be read back. -/
theorem set_then_get {ids : List ObjectId} (host : Host H) (hr : realm.Reachable)
    (ho : realm.object? o = some object) (hchain : realm.Chain (some o) ids)
    (hplain : ∀ p ∈ ids, ∀ object, realm.object? p = some object → object.kind.isPlain)
    (haccessor : ∀ p ∈ ids, ∀ object d, realm.object? p = some object →
      object.ownProperty? k = some d → d.isAccessor = false)
    (hk : object.kind.isArray → k ≠ lengthKey) (v : Value)
    (hl : ¬(realm.atDepth (realm.callDepth + ids.length + 2)).AtLimit)
    (hb : ids.length + 3 ≤ bound) :
    ∃ found, realm.Finds k o found
      ∧ (object.Admits k found → ∃ after, object.Assigned k v after
        ∧ answer host bound (.set o k v (.object o)) realm = .ok true (realm.putObject o after)
        ∧ answer host bound (.get o k (.object o)) (realm.putObject o after)
          = .ok v (realm.putObject o after))
      ∧ (¬object.Admits k found →
        answer host bound (.set o k v (.object o)) realm = .ok false realm) := by
  obtain ⟨n, found, hlt, h, hmem⟩ := hchain.exists_findsAfter rfl k hplain
  have hfound (d : Descriptor) (hd : found = some d) : d.isAccessor = false := by
    obtain ⟨p, hp, object, ho, hown⟩ := hmem d hd
    exact haccessor p hp object d ho hown
  have hdepth : ¬(realm.atDepth (realm.callDepth + n + 3)).AtLimit :=
    fun h => hl (Realm.atLimit_of_le (by omega) h)
  exact ⟨found, h.finds, h.set_outcome host hr ho hfound hk v hdepth (by omega)⟩

end Assignment

/-! ### An array that inherits from an object -/

/-- A realm with an array of length three without elements, which inherits from an object. -/
def heirRealm : Realm HostTypes.bare :=
  { parentRealm with heap := parentRealm.heap.push (.emptyArray ⟨0⟩ 3) }

theorem heirRealm_reachable : heirRealm.Reachable :=
  parentRealm_issued.reachable.step
    (.allocate _ (.emptyArray ⟨0⟩ 3) (.ofKindWith _ _ rfl rfl (.inl rfl))
      (.emptyArray ⟨0⟩ (by decide)))

/-- Setting an element that is found nowhere raises the length above it. -/
theorem set_then_get_heirRealm : ∃ after : Object HostTypes.bare,
    answer Host.bare 5 (.set ⟨1⟩ (.ofNat 7) .null (.object ⟨1⟩)) heirRealm
        = .ok true (heirRealm.putObject ⟨1⟩ after)
      ∧ answer Host.bare 5 (.get ⟨1⟩ (.ofNat 7) (.object ⟨1⟩)) (heirRealm.putObject ⟨1⟩ after)
        = .ok .null (heirRealm.putObject ⟨1⟩ after)
      ∧ after.properties.get? lengthKey = some (.data (.nat 8) true false false) := by
  have ho : heirRealm.object? ⟨1⟩ = some (.emptyArray ⟨0⟩ 3) := rfl
  have hparent : heirRealm.object? ⟨0⟩ = some (.ofKind none .ordinary) := rfl
  have hchain : heirRealm.Chain (some ⟨1⟩) [⟨1⟩, ⟨0⟩] := .next ho rfl (.next hparent rfl .null)
  have hlength : (Object.emptyArray ⟨0⟩ 3 : Object HostTypes.bare).properties.get? lengthKey
    = some (.data (.nat 3) true false false) := rfl
  have hplain : ∀ p ∈ [⟨1⟩, ⟨0⟩], ∀ object, heirRealm.object? p = some object →
      object.kind.isPlain ∧ object.ownProperty? (.ofNat 7) = none := by
    intro p hp object hobject
    simp only [List.mem_cons, List.not_mem_nil, or_false] at hp
    rcases hp with rfl | rfl
    · cases ho.symm.trans hobject
      exact ⟨rfl, rfl⟩
    · cases hparent.symm.trans hobject
      exact ⟨rfl, rfl⟩
  have haccessor : ∀ p ∈ [⟨1⟩, ⟨0⟩], ∀ object d, heirRealm.object? p = some object →
      object.ownProperty? (.ofNat 7) = some d → d.isAccessor = false := by
    intro p hp object d ho hd
    cases (hplain p hp object ho).2.symm.trans hd
  obtain ⟨found, hfinds, hset, -⟩ := set_then_get Host.bare heirRealm_reachable ho hchain
    (fun p hp object ho => (hplain p hp object ho).1) haccessor (fun _ => by decide) .null
    (by decide) (Nat.le_refl 5)
  obtain rfl : none = found :=
    Realm.Finds.unique (.inherited ho rfl rfl rfl (.missing hparent rfl rfl rfl)) hfinds
  have hadmits : (Object.emptyArray ⟨0⟩ 3 : Object HostTypes.bare).Admits (.ofNat 7) none := by
    refine ⟨fun d hd => (by cases hd), .inr rfl, ?_⟩
    exact (Object.hasRoomFor_iff rfl hlength).mpr fun _ => rfl
  obtain ⟨after, hassigned, hset, hget⟩ := hset hadmits
  refine ⟨after, hset, hget, (hassigned.length rfl _ hlength).trans ?_⟩
  have hbelow : ArrayObject.lengthOf (.data (.nat 3) true false false) = 3 :=
    ArrayObject.lengthOf_eq (by decide) rfl
  have hleast : (PropertyKey.ofNat 7).leastLength = 8 := rfl
  rw [ArrayObject.raisedTo, hbelow, hleast]
  rfl

end ScriptEngine
