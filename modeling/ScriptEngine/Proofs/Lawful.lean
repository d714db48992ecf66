import ScriptEngine.Proofs.ArrayLength

/-!
# Requests take steps only

Whatever a request does, with all the code of the program and of the host that it runs, is a
sequence of steps of the realm. Computations of the engine are of this kind by their type. It
remains to be shown for the internal methods that write to an object, one by one; the rest is an
induction on the bound on nesting.

## Main results

* `Object.changes_defined`, `Object.changes_deleted`, `Object.changes_setLength`,
  `Object.changes_defineElement`: requests change an object only as its fixed parts allow.
* `Surroundings.bounded_lawful`: the answers to requests take steps only.
-/

namespace ScriptEngine

open Engine

variable {H : HostTypes} {α : Type}

/-! ### Changes of one object -/

namespace Object

variable {object middle after : Object H} {k : PropertyKey} {d current : Descriptor}

theorem Changes.trans (h : object.Changes middle) (h' : middle.Changes after) :
    object.Changes after := by
  induction h' with
  | refl => exact h
  | tail _ last ih => exact ih.tail last

theorem Change.changes (h : object.Change after) : object.Changes after :=
  .tail (.refl object) h

theorem changes_define (hp : object.kind.isPlain) (hu : object.kind.unitProperty? k = none)
    (hd : d.isValid) (ha : object.accepts k d) : object.Changes (object.define k d) :=
  (Change.define object k d hp hu hd ha).changes

theorem changes_defined (hp : object.kind.isPlain) (hu : object.kind.unitProperty? k = none)
    (hd : d.isValid) : object.Changes (object.defined k d) := by
  unfold defined
  split
  · next ha => exact changes_define hp hu hd ha
  · exact .refl object

theorem changes_deleted (hp : object.kind.isPlain) : object.Changes (object.deleted k) := by
  unfold deleted
  split
  · next hany =>
    obtain ⟨d, hd, hc⟩ : ∃ d, object.properties.get? k = some d ∧ d.isConfigurable := by
      unfold ownProperty? at hany
      cases hk : object.properties.get? k with
      | some d => exact ⟨d, rfl, by simpa [hk] using hany⟩
      | none =>
        rw [hk, Option.none_or] at hany
        cases hu : object.kind.unitProperty? k with
        | none => simp [hu] at hany
        | some d =>
          obtain ⟨v, rfl⟩ := ObjectKind.unitProperty?_eq_some hu
          rw [hu] at hany
          cases hany
    exact (Change.delete object k d hp hd hc).changes
  · exact .refl object

theorem changes_deleteElements (hp : object.kind.isPlain) (is : List ArrayIndex) :
    object.Changes (object.deleteElements is).1 := by
  induction is generalizing object with
  | nil => exact .refl object
  | cons i is ih =>
    rw [deleteElements]
    split
    · exact (changes_deleted hp).trans (ih (by rwa [kind_deleted]))
    · exact .refl object

theorem changes_settleLength (hp : object.kind.isPlain) (hd : d.isValid) (hv : d.value.isSome)
    (remaining : Option ArrayIndex) : object.Changes (object.settleLength d remaining).1 := by
  have hu := object.kind.unitProperty?_lengthKey
  cases remaining with
  | some i => exact changes_defined hp hu (Descriptor.isValid_with_value hd hv _)
  | none =>
    rw [settleLength]
    split
    · exact changes_defined hp hu rfl
    · exact .refl object

theorem changes_lowerLength (hp : object.kind.isPlain) (hd : d.isValid) (hv : d.value.isSome)
    (length : Nat) : object.Changes (object.lowerLength d length).1 := by
  have hu := object.kind.unitProperty?_lengthKey
  rw [lowerLength]
  split
  · next ha =>
    have hfirst := changes_define hp hu (ArrayObject.lowerRequest_isValid hd hv) ha
    have hp' : (object.define lengthKey (ArrayObject.lowerRequest d)).kind.isPlain := hp
    refine (hfirst.trans (changes_deleteElements hp' _)).trans (changes_settleLength ?_ hd hv _)
    rwa [kind_deleteElements]
  · exact .refl object

theorem changes_setLength (hp : object.kind.isPlain) (hd : d.isValid) (hv : d.value.isSome)
    (length : Nat) : object.Changes (object.setLength current d length).1 := by
  have hd' := Descriptor.isValid_with_value hd hv (.nat length)
  rw [setLength]
  split
  · exact changes_defined hp object.kind.unitProperty?_lengthKey hd'
  · split
    · exact changes_lowerLength hp hd' rfl length
    · exact .refl object

theorem changes_defineElement {i : ArrayIndex} (hp : object.kind.isPlain)
    (hu : object.kind.unitProperty? (.index i) = none) (hd : d.isValid)
    (hc : current.isStorable) : object.Changes (object.defineElement current i d).1 := by
  rw [defineElement]
  split
  · exact .refl object
  · next hfull =>
    split
    · next ha =>
      have hfirst := changes_define hp hu hd ha
      split
      · next hle =>
        refine hfirst.trans (changes_defined hp object.kind.unitProperty?_lengthKey ?_)
        obtain ⟨v, w, e, c, rfl⟩ | ⟨g, t, e, c, rfl⟩ := (Descriptor.isStorable_iff current).mp hc
        · rfl
        · exact absurd ⟨hle, rfl⟩ hfull
      · exact hfirst
    · exact .refl object

end Object

/-! ### Methods that write to an object -/

section Allows

variable {host : Host H} {bound : Nat} {s : Surroundings H} {realm : Realm H} {o : ObjectId}
  {object after : Object H} {k : PropertyKey} {d : Descriptor}

theorem ObjectKind.isPlain_of_isArray {kind : ObjectKind H} (h : kind.isArray) : kind.isPlain := by
  cases kind with
  | array => rfl
  | _ => cases h

theorem Realm.allows_putObject (ho : realm.object? o = some object) (hc : object.Changes after)
    (hi : realm.config.maxCallDepth = 0 → object.InOrder → after.InOrder) (a : α) :
    realm.Allows (.ok a (realm.putObject o after)) :=
  (Realm.Step.update realm o ho hc hi).leads rfl

theorem Realm.allows_overflow : realm.Allows (.error .overflow realm : EStateM.Result _ _ α) :=
  .refl realm

theorem Ordinary.allows_setPrototypeOf (ho : realm.object? o = some object)
    (hp : object.kind.isPlain) (prototype : Option ObjectId) :
    realm.Allows (Ordinary.setPrototypeOf o prototype s realm) := by
  unfold Ordinary.setPrototypeOf
  rw [Action.bind_of_ok (getObject_of_some ho)]
  by_cases hsame : object.prototype = prototype
  · rw [if_pos hsame]
    exact .refl realm
  rw [if_neg hsame]
  by_cases he : object.extensible
  · rw [he, Bool.not_true, if_neg Bool.false_ne_true,
      Action.bind_of_ok (Engine.getRealm_eq s realm), Realm.seen, Realm.reaches_atDepth]
    match hr : realm.reaches o (realm.heap.size + 1) prototype with
    | .error missing => exact .refl realm
    | .ok true => exact .refl realm
    | .ok false =>
      simp only
      rw [Action.bind_of_ok (Action.modifyObject_of_some ho)]
      exact (Realm.Step.inherit realm o prototype ho hp he hr).leads rfl
  · rw [if_pos (by simpa using he)]
    exact .refl realm

theorem Ordinary.allows_preventExtensions (ho : realm.object? o = some object)
    (hp : object.kind.isPlain) : realm.Allows (Ordinary.preventExtensions o s realm) := by
  unfold Ordinary.preventExtensions
  rw [Action.bind_of_ok (Action.modifyObject_of_some ho)]
  exact Realm.allows_putObject ho (Object.Change.preventExtensions object hp).changes
    (fun _ h => h) true

theorem Ordinary.allows_defineOwnProperty (ho : realm.object? o = some object)
    (hp : object.kind.isPlain) (hu : object.kind.unitProperty? k = none) (hd : d.isValid)
    (hi : object.InOrder → (object.defined k d).InOrder) :
    realm.Allows (Ordinary.defineOwnProperty o k d (.bounded host bound) realm) := by
  by_cases hl : realm.AtLimit
  · exact (Ordinary.defineOwnProperty_gives_of_atLimit hl).allows Realm.allows_overflow
  · exact (Ordinary.defineOwnProperty_gives ho hp hu hl).allows
      (Realm.allows_putObject ho (Object.changes_defined hp hu hd) (fun _ => hi) _)

theorem Ordinary.allows_delete (ho : realm.object? o = some object) (hp : object.kind.isPlain) :
    realm.Allows (Ordinary.delete o k (.bounded host bound) realm) := by
  by_cases hl : realm.AtLimit
  · exact (Ordinary.delete_gives_of_atLimit hl).allows Realm.allows_overflow
  · exact (Ordinary.delete_gives ho hp hl).allows
      (Realm.allows_putObject ho (Object.changes_deleted hp) (fun _ h => h.deleted k) _)

theorem StringObject.allows_defineOwnProperty (ho : realm.object? o = some object)
    (hp : object.kind.isPlain) (ha : object.kind.isArray = false) (hd : d.isValid) :
    realm.Allows (StringObject.defineOwnProperty o k d (.bounded host bound) realm) := by
  unfold StringObject.defineOwnProperty
  rw [Action.bind_of_ok (StringObject.getUnitProperty_of_some ho k)]
  cases hu : object.kind.unitProperty? k with
  | some unit =>
    simp only
    rw [Action.bind_of_ok (getObject_of_some ho)]
    exact .refl realm
  | none =>
    exact Ordinary.allows_defineOwnProperty ho hp hu hd fun _ =>
      .of_not_isArray (by rwa [Object.kind_defined])

theorem ArrayObject.allows_setLengthTo {length : Nat} (hr : realm.Sound) (hd : d.isValid)
    (hv : d.value.isSome) (hn : length < Number.twoPow 32) :
    realm.Allows (ArrayObject.setLengthTo o d length (.bounded host bound) realm) := by
  rcases ArrayObject.lengthProperty_cases (.bounded host bound) realm o with
    ⟨object, current, ho, hc⟩ | ⟨f, hf⟩
  · -- code of the program may have put another object in the place of the array by now
    have hp : object.kind.isPlain := by
      cases hp : object.kind.isPlain with
      | true => rfl
      | false => simp [(hr o object ho).lengthless hp] at hc
    by_cases hl : realm.AtLimit
    · refine (ArrayObject.setLengthTo_gives_of_atLimit ho hc hl).allows ?_
      split
      · exact .refl realm
      · exact Realm.allows_overflow
    · by_cases hstart : realm.deeper.AtLimit ∧ object.StartsDeleting current d length
      · obtain ⟨hlimit, hstart⟩ := hstart
        refine (ArrayObject.setLengthTo_gives_of_deeper_atLimit ho hp hc hl hlimit hstart).allows ?_
        have hd' := ArrayObject.lowerRequest_isValid
          (Descriptor.isValid_with_value hd hv (.nat length)) rfl
        have hchanges := Object.changes_define hp object.kind.unitProperty?_lengthKey hd'
          hstart.accepted
        exact (Realm.Step.update realm o ho hchanges fun h => absurd h hlimit.1).leads rfl
      · refine (ArrayObject.setLengthTo_gives ho hp hc hl fun h h' => hstart ⟨h, h'⟩).allows ?_
        exact Realm.allows_putObject ho (Object.changes_setLength hp hd hv length)
          (fun _ h => h.setLength hc hd hv hn) _
  · unfold ArrayObject.setLengthTo
    rw [Action.bind_of_error hf]
    exact .refl realm

theorem ArrayObject.allows_defineElement {i : ArrayIndex} (ho : realm.object? o = some object)
    (hs : object.Sound) (hp : object.kind.isPlain)
    (hu : object.kind.unitProperty? (.index i) = none) (hd : d.isValid) :
    realm.Allows (ArrayObject.defineElement o i d (.bounded host bound) realm) := by
  rcases ArrayObject.lengthProperty_cases (.bounded host bound) realm o with
    ⟨object', current, ho', hc⟩ | ⟨f, hf⟩
  · obtain rfl : object' = object := Option.some.inj (ho'.symm.trans ho)
    by_cases hl : realm.AtLimit
    · refine (ArrayObject.defineElement_gives_of_atLimit ho hc hl).allows ?_
      split
      · exact .refl realm
      · exact Realm.allows_overflow
    · refine (ArrayObject.defineElement_gives ho hp hu hc hl).allows ?_
      exact Realm.allows_putObject ho
        (Object.changes_defineElement hp hu hd (hs.storable lengthKey current hc))
        (fun _ h => h.defineElement hc) _
  · unfold ArrayObject.defineElement
    rw [Action.bind_of_error hf]
    exact .refl realm

theorem ArrayObject.requestedLength_lt {v : Value} {length : Nat} {realm' : Realm H}
    (h : (ArrayObject.requestedLength v).act s realm = .ok length realm') :
    length < Number.twoPow 32 := by
  obtain ⟨n, middle, hn, h⟩ := Engine.ok_of_bind h
  obtain ⟨x, middle', -, hx⟩ := Engine.ok_of_bind hn
  obtain ⟨y, middle'', -, h⟩ := Engine.ok_of_bind h
  cases hx
  cases hb : Float.ofNat (Number.toUint32 x) == y with
  | false =>
    rw [hb] at h
    cases h
  | true =>
    rw [hb] at h
    cases h
    exact Number.toUint32_lt x

theorem ArrayObject.allows_setLength (hs : (Surroundings.bounded host bound).Lawful)
    (hr : realm.Sound) (ho : realm.object? o = some object) (hp : object.kind.isPlain)
    (hd : d.isValid) : realm.Allows (ArrayObject.setLength o d (.bounded host bound) realm) := by
  unfold ArrayObject.setLength
  cases hv : d.value with
  | none =>
    exact Ordinary.allows_defineOwnProperty ho hp object.kind.unitProperty?_lengthKey hd
      fun h => h.defined hd rfl fun _ => hv
  | some v =>
    have hx := (ArrayObject.requestedLength v).lawful _ hs realm hr
    simp only
    match hres : (ArrayObject.requestedLength v).act (.bounded host bound) realm with
    | .ok length middle =>
      rw [hres] at hx
      rw [Action.bind_of_ok hres]
      refine Realm.Leads.allows hx (ArrayObject.allows_setLengthTo (hx.steps.sound hr) hd ?_ ?_)
      · rw [hv]
        rfl
      · exact ArrayObject.requestedLength_lt hres
    | .error (.failure f) middle =>
      rw [hres] at hx
      rw [Action.bind_of_error hres]
      exact hx
    | .error .exhausted middle =>
      rw [Action.bind_of_error hres]
      trivial

theorem ArrayObject.allows_defineOwnProperty (hs : (Surroundings.bounded host bound).Lawful)
    (hr : realm.Sound) (ho : realm.object? o = some object) (ha : object.kind.isArray)
    (hd : d.isValid) :
    realm.Allows (ArrayObject.defineOwnProperty o k d (.bounded host bound) realm) := by
  have hp := ObjectKind.isPlain_of_isArray ha
  have hu := Object.unitless_of_isArray ha
  unfold ArrayObject.defineOwnProperty
  split
  · exact ArrayObject.allows_setLength hs hr ho hp hd
  · next hname =>
    split
    · next i => exact ArrayObject.allows_defineElement ho (hr o object ho) hp (hu _) hd
    · next hindex =>
      refine Ordinary.allows_defineOwnProperty ho hp (hu k) hd fun h => h.defined hd ?_ ?_
      · cases k with
        | index i => exact absurd rfl (hindex i)
        | string s => rfl
        | symbol s => rfl
      · rintro rfl
        exact absurd rfl hname

/-! ### Methods by kind -/

theorem Realm.allows_getKind {f : ObjectKind H → Action H α}
    (h : ∀ object, realm.object? o = some object → realm.Allows (f object.kind s realm)) :
    realm.Allows (((getKind o).act >>= f) s realm) := by
  cases ho : realm.object? o with
  | none =>
    rw [Action.bind_of_error (getKind_of_none ho)]
    exact .refl realm
  | some object =>
    rw [Action.bind_of_ok (getKind_of_some ho)]
    exact h object ho

theorem Dispatch.allows_setPrototypeOf (hs : s.Lawful) (hr : realm.Sound)
    (prototype : Option ObjectId) :
    realm.Allows (Dispatch.setPrototypeOf o prototype s realm) := by
  refine Realm.allows_getKind fun object ho => ?_
  cases hk : object.kind with
  | proxy => exact (ProxyObject.setPrototypeOf o prototype).lawful s hs realm hr
  | moduleNamespace => exact .refl realm
  | _ => exact Ordinary.allows_setPrototypeOf ho (by rw [hk]; rfl) prototype

theorem Dispatch.allows_preventExtensions (hs : s.Lawful) (hr : realm.Sound) :
    realm.Allows (Dispatch.preventExtensions o s realm) := by
  refine Realm.allows_getKind fun object ho => ?_
  cases hk : object.kind with
  | proxy => exact (ProxyObject.preventExtensions o).lawful s hs realm hr
  | moduleNamespace => exact .refl realm
  | _ => exact Ordinary.allows_preventExtensions ho (by rw [hk]; rfl)

theorem Dispatch.allows_delete (hs : (Surroundings.bounded host bound).Lawful)
    (hr : realm.Sound) : realm.Allows (Dispatch.delete o k (.bounded host bound) realm) := by
  refine Realm.allows_getKind fun object ho => ?_
  cases hk : object.kind with
  | proxy => exact (ProxyObject.delete o k).lawful _ hs realm hr
  | moduleNamespace => exact .refl realm
  | _ => exact Ordinary.allows_delete ho (by rw [hk]; rfl)

theorem Dispatch.allows_defineOwnProperty (hs : (Surroundings.bounded host bound).Lawful)
    (hr : realm.Sound) (hd : d.isValid) :
    realm.Allows (Dispatch.defineOwnProperty o k d (.bounded host bound) realm) := by
  refine Realm.allows_getKind fun object ho => ?_
  cases hk : object.kind with
  | proxy => exact (ProxyObject.defineOwnProperty o k d).lawful _ hs realm hr
  | moduleNamespace => exact .refl realm
  | string =>
    exact StringObject.allows_defineOwnProperty ho (by rw [hk]; rfl) (by rw [hk]; rfl) hd
  | array => exact ArrayObject.allows_defineOwnProperty hs hr ho (by rw [hk]; rfl) hd
  | _ =>
    exact Ordinary.allows_defineOwnProperty ho (by rw [hk]; rfl) (by rw [hk]; rfl) hd fun _ =>
      .of_not_isArray (by rw [Object.kind_defined, hk]; rfl)

theorem allows_checkedDefine (hs : (Surroundings.bounded host bound).Lawful) (hr : realm.Sound) :
    realm.Allows (checkedDefine o k d (.bounded host bound) realm) := by
  by_cases hd : d.isValid
  · rw [checkedDefine_of_isValid hd]
    have hr' : realm.deeper.Sound := hr
    exact Action.allows_nested (Dispatch.allows_defineOwnProperty hs hr' hd)
  · unfold checkedDefine
    rw [if_pos (by simpa using hd)]
    exact .refl realm

end Allows

/-- Whatever a request does, it takes steps of the realm only. -/
theorem Surroundings.bounded_lawful (host : Host H) (bound : Nat) :
    (Surroundings.bounded host bound).Lawful := by
  -- the bound decreases at every level of nesting
  induction bound with
  | zero =>
    intro r realm _
    trivial
  | succ bound ih =>
    intro r realm hr
    have hr' : realm.deeper.Sound := hr
    change realm.Allows (respond host r (.bounded host bound) realm)
    cases r with
    | setPrototypeOf o prototype =>
      exact Action.allows_nested (Dispatch.allows_setPrototypeOf ih hr' prototype)
    | preventExtensions o => exact Action.allows_nested (Dispatch.allows_preventExtensions ih hr')
    | defineOwnProperty o k d => exact allows_checkedDefine ih hr
    | delete o k => exact Action.allows_nested (Dispatch.allows_delete ih hr')
    | getPrototypeOf o => exact (nested (Dispatch.getPrototypeOf o)).lawful _ ih realm hr
    | isExtensible o => exact (nested (Dispatch.isExtensible o)).lawful _ ih realm hr
    | getOwnProperty o k => exact (nested (Dispatch.getOwnProperty o k)).lawful _ ih realm hr
    | hasProperty o k => exact (nested (Dispatch.hasProperty o k)).lawful _ ih realm hr
    | get o k receiver => exact (nested (Dispatch.get o k receiver)).lawful _ ih realm hr
    | set o k v receiver => exact (nested (Dispatch.set o k v receiver)).lawful _ ih realm hr
    | ownKeys o => exact (nested (Dispatch.ownKeys o)).lawful _ ih realm hr
    | call f this args => exact (callFunction nativeBehaviour f this args).lawful _ ih realm hr
    | construct f args newTarget =>
      exact (constructFunction nativeBehaviour f args newTarget).lawful _ ih realm hr
    | host request => exact (host request).lawful _ ih realm hr

end ScriptEngine
