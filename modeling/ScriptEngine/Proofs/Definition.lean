import ScriptEngine.Proofs.ArrayRun

/-!
# Defining a property twice

Objects of every kind that keep their own properties answer a request to define a property in one of
four ways: the property of a code unit stays as it is, an array raises or lowers its length, and all
other properties are written to storage. Whichever it is, a request that was carried out can be read
back, and when it is made once more it is accepted and changes nothing.

## Main definitions

* `Object.Defines`: the object after a request and whether it was carried out.
* `Object.StoredAs`: the request that is stored, with a number for the length of an array.

## Main results

* `Object.Defines.gives`, `Object.exists_defines`: the method of the object does as the relation
  says.
* `Object.Defines.stores`, `Object.Defines.again`: reading back, and making a request once more.
* `answer_define_define`: the same for requests to the engine.
-/

namespace ScriptEngine

open Engine

variable {H : HostTypes}

/-! ### The four ways of defining a property -/

/-- A value whose number, found without running code, is a length. -/
structure Value.IsLength (H : HostTypes) (v : Value) (n : Nat) (x : Float) : Prop where
  number : ∀ (s : Surroundings H) (realm : Realm H), v.toNumber.act s realm = .ok x realm
  small : n < Number.twoPow 32
  same : Float.ofNat n == x

namespace Object

/-- What is stored of a request: for the length of an array, the number of its value. -/
inductive StoredAs (object : Object H) (k : PropertyKey) (d : Descriptor) : Descriptor → Prop
  | same (h : ¬(object.kind.isArray ∧ k = lengthKey ∧ d.value.isSome)) : StoredAs object k d d
  | length {v : Value} {n : Nat} {x : Float} (harray : object.kind.isArray) (hk : k = lengthKey)
      (hv : d.value = some v) (hn : v.IsLength H n x) :
      StoredAs object k d { d with value := some (.nat n) }

/-- The object after a request to define a property, and whether the request was carried out. -/
inductive Defines (object : Object H) : PropertyKey → Descriptor → Object H → Bool → Prop
  | unit {k : PropertyKey} {d unit : Descriptor} (hu : object.kind.unitProperty? k = some unit) :
      Defines object k d object (unit.accepts d)
  | stored {k : PropertyKey} {d : Descriptor} (hu : object.kind.unitProperty? k = none)
      (hk : object.kind.isArray →
        (∀ i, k ≠ .index i) ∧ (k = lengthKey → d.value = none)) :
      Defines object k d (object.defined k d) (object.accepts k d)
  | element (i : ArrayIndex) {d : Descriptor} (current : Descriptor)
      (harray : object.kind.isArray) (hc : object.properties.get? lengthKey = some current) :
      Defines object (.index i) d (object.defineElement current i d).1
        (object.defineElement current i d).2
  | length {d current : Descriptor} {v : Value} {n : Nat} {x : Float}
      (harray : object.kind.isArray) (hc : object.properties.get? lengthKey = some current)
      (hv : d.value = some v) (hn : v.IsLength H n x) :
      Defines object lengthKey d (object.setLength current d n).1 (object.setLength current d n).2

variable {object after : Object H} {k : PropertyKey} {d e current : Descriptor} {i : ArrayIndex}
  {n : Nat}

/-! ### Requests for what is there already -/

/-- The object stores a property that has all that a request asks for. -/
def Holds (object : Object H) (k : PropertyKey) (d : Descriptor) : Prop :=
  ∃ e, object.properties.get? k = some e ∧ e.isStorable ∧ d.Within e

theorem Holds.accepts (h : object.Holds k d) : object.accepts k d := by
  obtain ⟨e, hk, he, hw⟩ := h
  rw [Object.accepts, hk]
  exact Descriptor.accepts_of_within he hw

theorem Holds.defined (h : object.Holds k d) : object.defined k d = object := by
  obtain ⟨e, hk, he, hw⟩ := h
  rw [defined_of_accepts (Holds.accepts ⟨e, hk, he, hw⟩)]
  exact define_of_definedOver hk (Descriptor.definedOver_of_within he hw)

/-- A request that is accepted is stored. -/
theorem holds_define (hs : object.Sound) (hd : d.isValid) (ha : object.accepts k d) :
    (object.define k d).Holds k d := by
  refine ⟨_, PropertyMap.get?_insert_self .., ?_, ?_⟩
  · exact Descriptor.isStorable_definedOver hd (hs.storable k)
  · exact Descriptor.within_definedOver (hs.storable k) hd ha

theorem Holds.ownProperty? (h : object.Holds k d) (hu : object.kind.unitProperty? k = none) :
    ∃ e, object.ownProperty? k = some e ∧ e.isStorable ∧ d.Within e := by
  rwa [Holds, ← ownProperty?_of_unitProperty?_eq_none hu] at h

/-! ### Elements -/

/-- A request for an element that is carried out is stored, and the length is above it. -/
theorem holds_defineElement (hs : object.Sound) (hd : d.isValid)
    (hc : object.properties.get? lengthKey = some current)
    (hdone : (object.defineElement current i d).2 = true) :
    (object.defineElement current i d).1.Holds (.index i) d
      ∧ ∃ current', (object.defineElement current i d).1.properties.get? lengthKey = some current'
        ∧ i.val < ArrayObject.lengthOf current' := by
  have hne : lengthKey ≠ .index i := by simp [lengthKey]
  unfold defineElement at hdone ⊢
  split at hdone
  · cases hdone
  · next hfull =>
    split at hdone
    · next ha =>
      have hstored : (object.define (.index i) d).properties.get? lengthKey = some current :=
        (PropertyMap.get?_insert_of_ne hne ..).trans hc
      obtain ⟨e, he, hholds⟩ := holds_define hs hd ha
      rw [if_neg hfull, if_pos ha]
      by_cases hle : ArrayObject.lengthOf current ≤ i.val
      · rw [if_pos hle]
        -- the length is writable, so that it can be raised
        have hw : current.isWritable = true := by simpa [hle] using hfull
        have hraised := get?_defined_value hstored (hs.storable lengthKey current hc) hw
          (.nat (i.val + 1))
        refine ⟨⟨e, ?_, hholds⟩, { current with value := some (.nat (i.val + 1)) }, ?_, ?_⟩
        · rw [hraised, if_neg hne.symm, he]
        · rw [hraised, if_pos rfl]
        · rw [ArrayObject.lengthOf_eq (ArrayIndex.succ_lt_twoPow i) rfl]
          exact Nat.lt_succ_self _
      · rw [if_neg hle]
        exact ⟨⟨e, he, hholds⟩, current, hstored, Nat.not_le.mp hle⟩
    · cases hdone

/-- A request for an element that is there already, below the length. -/
theorem Holds.defineElement (h : object.Holds (.index i) d)
    (hlt : i.val < ArrayObject.lengthOf current) :
    object.defineElement current i d = (object, true) := by
  have hle : ¬ArrayObject.lengthOf current ≤ i.val := Nat.not_le.mpr hlt
  have hdefine : object.define (.index i) d = object := by
    rw [← defined_of_accepts h.accepts, h.defined]
  rw [Object.defineElement, if_neg fun hfull => hle hfull.1, if_pos h.accepts, if_neg hle, hdefine]

/-! ### Lengths -/

theorem get?_deleteElements (is : List ArrayIndex) {k : PropertyKey} (hk : ∀ i, k ≠ .index i) :
    (object.deleteElements is).1.properties.get? k = object.properties.get? k := by
  induction is generalizing object with
  | nil => rfl
  | cons i is ih =>
    rw [deleteElements]
    split
    · rw [ih, deleted]
      split
      · exact PropertyMap.get?_erase_of_ne (hk i) _
      · rfl
    · rfl

/-- A request for a smaller length that is carried out is stored in the end. -/
theorem holds_lowerLength (hs : object.Sound) (hd : d.isValid) (hv : d.value = some (.nat n))
    (hdone : (object.lowerLength d n).2 = true) : (object.lowerLength d n).1.Holds lengthKey d := by
  have hk : ∀ i, lengthKey ≠ .index i := fun i => by simp [lengthKey]
  have hv' : d.value.isSome := by rw [hv]; rfl
  unfold lowerLength at hdone ⊢
  split at hdone
  · next ha =>
    rw [if_pos ha]
    obtain ⟨e, he, hstorable, hwithin⟩ :=
      holds_define hs (ArrayObject.lowerRequest_isValid hd hv') ha
    generalize hcut : (object.define lengthKey (ArrayObject.lowerRequest d)).deleteElements
      (object.properties.descendingFrom n) = result at hdone
    have hget : result.1.properties.get? lengthKey = some e := by
      rw [← hcut, get?_deleteElements _ hk, he]
    obtain ⟨cut, remaining⟩ := result
    cases remaining with
    | some i => cases hdone
    | none =>
      by_cases hw : d.writable = some false
      · -- the length was written as writable, and becomes read-only now
        simp only [ArrayObject.lowerRequest, if_pos hw] at hwithin
        have hwritable : e.writable = some true :=
          (hwithin.writable.resolve_left (by simp)).symm
        obtain ⟨v, w, e', c, rfl⟩ | ⟨g, s, e', c, rfl⟩ := (Descriptor.isStorable_iff e).mp hstorable
        · obtain rfl : w = true := Option.some.inj hwritable
          have ha' : cut.accepts lengthKey { writable := some false } := by
            rw [Object.accepts, hget]
            exact Descriptor.accepts_data_readOnly
          simp only [settleLength, if_pos hw, defined_of_accepts ha']
          refine ⟨.data v false e' c, ?_, rfl, ?_⟩
          · rw [define, PropertyMap.define, PropertyMap.get?_insert_self, hget,
              Descriptor.definedOver_data_readOnly]
          · exact ⟨hwithin.value, .inr hw, hwithin.get, hwithin.set, hwithin.enumerable,
              hwithin.configurable⟩
        · cases hwritable
      · simp only [ArrayObject.lowerRequest, if_neg hw] at hwithin
        simp only [settleLength, if_neg hw]
        exact ⟨e, hget, hstorable, hwithin⟩
  · cases hdone

/-- A request for a length that is carried out is stored. -/
theorem holds_setLength (hs : object.Sound) (hd : d.isValid) (hv : d.value.isSome)
    (hdone : (object.setLength current d n).2 = true) :
    (object.setLength current d n).1.Holds lengthKey { d with value := some (.nat n) } := by
  have hd' := Descriptor.isValid_with_value hd hv (.nat n)
  unfold setLength at hdone ⊢
  by_cases hle : ArrayObject.lengthOf current ≤ n
  · simp only [if_pos hle] at hdone ⊢
    rw [defined_of_accepts hdone]
    exact holds_define hs hd' hdone
  · simp only [if_neg hle] at hdone ⊢
    by_cases hw : current.isWritable
    · simp only [if_pos hw] at hdone ⊢
      exact holds_lowerLength hs hd' rfl hdone
    · simp only [if_neg hw] at hdone
      cases hdone

/-- A request for the length that is there already. -/
theorem Holds.setLength (h : object.Holds lengthKey { d with value := some (.nat n) })
    (hn : n < Number.twoPow 32) :
    ∃ current, object.properties.get? lengthKey = some current
      ∧ object.setLength current d n = (object, true) := by
  obtain ⟨e, he, hstorable, hwithin⟩ := h
  have hvalue : e.value = some (.nat n) := (hwithin.value.resolve_left (by simp)).symm
  have hholds : object.Holds lengthKey { d with value := some (.nat n) } :=
    ⟨e, he, hstorable, hwithin⟩
  refine ⟨e, he, ?_⟩
  rw [Object.setLength, ArrayObject.lengthOf_eq hn hvalue, if_pos (Nat.le_refl n), hholds.defined,
    hholds.accepts]

/-! ### Reading back, and once more -/

section Defines

variable {done : Bool}

theorem Defines.kind_eq (h : object.Defines k d after done) : after.kind = object.kind := by
  cases h with
  | unit => rfl
  | stored => exact kind_defined
  | element i current => exact kind_defineElement current i
  | length => exact kind_setLength ..

/-- A request that was carried out can be read back as it is stored. -/
theorem Defines.stores (h : object.Defines k d after done) (hdone : done = true)
    (hs : object.Sound) (hd : d.isValid) :
    ∃ d' e, object.StoredAs k d d' ∧ after.ownProperty? k = some e ∧ e.isStorable
      ∧ d'.Within e := by
  cases h with
  | unit hu =>
    obtain ⟨v, rfl⟩ := ObjectKind.unitProperty?_eq_some hu
    have hnot : ¬object.kind.isArray := fun harray => by
      simp [unitless_of_isArray harray k] at hu
    refine ⟨d, _, .same fun h => hnot h.1, ?_, rfl, Descriptor.within_of_accepts_frozen hd hdone⟩
    rw [ownProperty?, hs.unshadowed k (by rw [hu]; rfl), hu, Option.none_or]
  | stored hu hk =>
    have hsame : ¬(object.kind.isArray ∧ k = lengthKey ∧ d.value.isSome) := by
      rintro ⟨harray, heq, hv⟩
      simp [(hk harray).2 heq] at hv
    rw [defined_of_accepts hdone]
    obtain ⟨e, he⟩ := (holds_define hs hd hdone).ownProperty? hu
    exact ⟨d, e, .same hsame, he⟩
  | element i current harray hc =>
    have hsame : ¬(object.kind.isArray ∧ PropertyKey.index i = lengthKey ∧ d.value.isSome) := by
      simp [lengthKey]
    have hu : (object.defineElement current i d).1.kind.unitProperty? (.index i) = none := by
      rw [kind_defineElement]
      exact unitless_of_isArray harray _
    obtain ⟨e, he⟩ := (holds_defineElement hs hd hc hdone).1.ownProperty? hu
    exact ⟨d, e, .same hsame, he⟩
  | length harray hc hv hn =>
    have hholds := holds_setLength hs hd (by rw [hv]; rfl) hdone
    obtain ⟨e, he⟩ := hholds.ownProperty? (ObjectKind.unitProperty?_lengthKey _)
    exact ⟨_, e, .length harray rfl hv hn, he⟩

/-- A request that was carried out is accepted once more and changes nothing. -/
theorem Defines.again (h : object.Defines k d after done) (hdone : done = true)
    (hs : object.Sound) (hd : d.isValid) : after.Defines k d after done := by
  cases h with
  | unit hu => exact .unit hu
  | stored hu hk =>
    have hholds : (object.defined k d).Holds k d := by
      rw [defined_of_accepts hdone]
      exact holds_define hs hd hdone
    have hdefines : (object.defined k d).Defines k d ((object.defined k d).defined k d) _ :=
      .stored (by rwa [kind_defined]) (by rwa [kind_defined])
    rwa [hholds.defined, hholds.accepts, ← hdone] at hdefines
  | element i current harray hc =>
    obtain ⟨hholds, current', hc', hlt⟩ := holds_defineElement hs hd hc hdone
    have hdefines : (object.defineElement current i d).1.Defines (.index i) d _ _ :=
      .element i current' (by rwa [kind_defineElement]) hc'
    rwa [hholds.defineElement hlt, ← hdone] at hdefines
  | length harray hc hv hn =>
    have hholds := holds_setLength hs hd (by rw [hv]; rfl) hdone
    obtain ⟨current', hc', heq⟩ := hholds.setLength hn.small
    have hdefines := Defines.length (by rwa [kind_setLength]) hc' hv hn
    rwa [heq, ← hdone] at hdefines

/-- A request that is refused changes nothing, unless it concerns the length of an array. -/
theorem Defines.eq_of_refused (h : object.Defines k d after done) (hdone : done = false)
    (hk : ¬(object.kind.isArray ∧ k = lengthKey)) : after = object := by
  cases h with
  | unit hu => rfl
  | stored hu _ => exact if_neg (by simp [hdone])
  | element i current harray hc =>
    unfold Object.defineElement at hdone ⊢
    split
    · rfl
    · next hfull =>
      rw [if_neg hfull] at hdone
      split
      · next ha =>
        rw [if_pos ha] at hdone
        split at hdone
        · cases hdone
        · cases hdone
      · rfl
  | length harray hc hv hn => exact absurd ⟨harray, rfl⟩ hk

end Defines

end Object

/-! ### The methods -/

section Methods

variable {host : Host H} {bound : Nat} {s : Surroundings H} {realm after : Realm H} {o : ObjectId}
  {object object' : Object H} {k : PropertyKey} {d unit : Descriptor} {done : Bool}

theorem Dispatch.defineOwnProperty_of_unit (ho : realm.object? o = some object)
    (hu : object.kind.unitProperty? k = some unit) :
    Dispatch.defineOwnProperty o k d s realm = .ok (unit.accepts d) realm := by
  obtain ⟨text, hk⟩ : ∃ text, object.kind = .string text := by
    refine Classical.byContradiction fun hnot => ?_
    rw [ObjectKind.unitProperty?_eq_none fun text heq => hnot ⟨text, heq⟩] at hu
    cases hu
  refine (Action.bind_of_ok (getKind_of_some ho)).trans ?_
  rw [hk]
  refine (Action.bind_of_ok (StringObject.getUnitProperty_of_some ho k)).trans ?_
  rw [hu]
  exact Action.bind_of_ok (getObject_of_some ho)

theorem Dispatch.defineOwnProperty_of_not_isArray (ho : realm.object? o = some object)
    (hp : object.kind.isPlain) (hu : object.kind.unitProperty? k = none)
    (hnot : object.kind.isArray = false) :
    Dispatch.defineOwnProperty o k d s realm = Ordinary.defineOwnProperty o k d s realm := by
  refine (Action.bind_of_ok (getKind_of_some ho)).trans ?_
  cases hk : object.kind with
  | proxy => simp [hk, ObjectKind.isPlain] at hp
  | moduleNamespace => simp [hk, ObjectKind.isPlain] at hp
  | array => simp [hk, ObjectKind.isArray] at hnot
  | string text =>
    refine (Action.bind_of_ok (StringObject.getUnitProperty_of_some ho k)).trans ?_
    rw [hu]
  | _ => rfl

/-- An object that is neither an array nor shows code units stores a request if it accepts it. -/
theorem ObjectId.defineOwnProperty_gives (ho : realm.object? o = some object)
    (hp : object.kind.isPlain) (hu : object.kind.unitProperty? k = none)
    (hnot : object.kind.isArray = false) (hd : d.isValid) (hl : ¬realm.deeper.AtLimit) :
    Gives 2 bound ((o.defineOwnProperty k d).act (.bounded host bound) realm)
      (.ok (object.accepts k d) (realm.putObject o (object.defined k d))) := by
  have ho' : realm.deeper.object? o = some object := ho
  refine gives_answer_define hd (fun h => hl (Realm.deeper_atLimit h)) fun bound => ?_
  rw [Dispatch.defineOwnProperty_of_not_isArray ho' hp hu hnot]
  exact Ordinary.defineOwnProperty_gives ho' hp hu hl

theorem ObjectId.defineOwnProperty_gives_of_atLimit (ho : realm.object? o = some object)
    (hp : object.kind.isPlain) (hu : object.kind.unitProperty? k = none)
    (hnot : object.kind.isArray = false) (hd : d.isValid) (hl : realm.deeper.AtLimit) :
    Gives 2 bound ((o.defineOwnProperty k d).act (.bounded host bound) realm)
      (.error .overflow realm) := by
  have ho' : realm.deeper.object? o = some object := ho
  by_cases hlimit : realm.AtLimit
  · have hanswer : Gives 1 bound (answer host bound (.defineOwnProperty o k d) realm)
        (.error .overflow realm) :=
      Gives.answer fun _ => .of_eq <| by
        rw [respond, checkedDefine_of_isValid hd]
        exact Action.nested_of_atLimit hlimit
    exact hanswer.mono (by omega)
  · refine gives_answer_define_error hd hlimit fun bound => ?_
    rw [Dispatch.defineOwnProperty_of_not_isArray ho' hp hu hnot]
    exact Ordinary.defineOwnProperty_gives_of_atLimit hl

theorem ArrayObject.defineOwnProperty_of_stored (hk : ∀ i, k ≠ .index i)
    (hv : k = lengthKey → d.value = none) :
    (ArrayObject.defineOwnProperty o k d : Action H Bool) = Ordinary.defineOwnProperty o k d := by
  cases k with
  | index i => exact absurd rfl (hk i)
  | symbol symbol => rfl
  | string name =>
    unfold ArrayObject.defineOwnProperty
    split
    · next hname =>
      obtain rfl : name = "length" := by simpa [PropertyKey.isName] using hname
      exact ArrayObject.setLength_of_none (hv rfl)
    · rfl

/-- The method of an object carries out a request as described. -/
theorem Object.Defines.gives (h : object.Defines k d object' done)
    (ho : realm.object? o = some object) (hp : object.kind.isPlain) (hd : d.isValid)
    (hl : ¬realm.deeper.deeper.AtLimit) :
    Gives 3 bound (answer host bound (.defineOwnProperty o k d) realm)
      (.ok done (realm.putObject o object')) := by
  have hl' : ¬realm.deeper.AtLimit := fun h => hl (Realm.deeper_atLimit h)
  have ho' : realm.deeper.object? o = some object := ho
  refine gives_answer_define hd (fun h => hl' (Realm.deeper_atLimit h)) fun bound => ?_
  cases h with
  | unit hu =>
    rw [Dispatch.defineOwnProperty_of_unit ho' hu, Realm.putObject_self ho]
    exact .of_eq rfl
  | stored hu hk =>
    have hordinary : Dispatch.defineOwnProperty o k d (.bounded host bound) realm.deeper
        = Ordinary.defineOwnProperty o k d (.bounded host bound) realm.deeper := by
      cases harray : object.kind.isArray with
      | false => exact Dispatch.defineOwnProperty_of_not_isArray ho' hp hu harray
      | true =>
        rw [Dispatch.defineOwnProperty_of_isArray ho' harray,
          ArrayObject.defineOwnProperty_of_stored (hk harray).1 (hk harray).2]
    rw [hordinary]
    exact (Ordinary.defineOwnProperty_gives ho' hp hu hl').mono (by decide)
  | element i current harray hc =>
    rw [Dispatch.defineOwnProperty_of_isArray ho' harray]
    exact ArrayObject.defineElement_gives ho' hp (Object.unitless_of_isArray harray _) hc hl'
  | length harray hc hv hn =>
    rw [Dispatch.defineLength_eq ho' harray, ArrayObject.setLength_of_ok hv
      (ArrayObject.requestedLength_of_beq (hn.number _ _) (hn.number _ _) hn.small hn.same hn.same)]
    exact ArrayObject.setLengthTo_gives ho' hp hc hl' fun h => absurd h hl

theorem ArrayObject.exists_lengthProperty {α : Type} {a : α} {f : Descriptor → Action H α}
    (ho : realm.object? o = some object)
    (h : ((ArrayObject.lengthProperty o).act >>= f) s realm = .ok a after) :
    ∃ current, object.properties.get? lengthKey = some current := by
  rcases ArrayObject.lengthProperty_cases s realm o with ⟨object', current, ho', hc⟩ | ⟨f, hf⟩
  · rw [ho] at ho'
    cases ho'
    exact ⟨current, hc⟩
  · rw [Action.bind_of_error hf] at h
    cases h

/-- Every request that has a result is carried out or refused in one of the four ways. -/
theorem Object.exists_defines (ho : realm.object? o = some object)
    (hv : object.kind.isArray → k = lengthKey → ∀ v, d.value = some v → v.isObject = false)
    (h : Dispatch.defineOwnProperty o k d s realm = .ok done after) :
    ∃ object' done', object.Defines k d object' done' := by
  cases hu : object.kind.unitProperty? k with
  | some unit => exact ⟨_, _, .unit hu⟩
  | none =>
    by_cases hstored : object.kind.isArray →
      (∀ i, k ≠ .index i) ∧ (k = lengthKey → d.value = none)
    · exact ⟨_, _, .stored hu hstored⟩
    · obtain ⟨harray, hkind⟩ := Classical.not_imp.mp hstored
      rw [Dispatch.defineOwnProperty_of_isArray ho harray] at h
      cases k with
      | symbol symbol => exact absurd ⟨fun i => by simp, fun heq => by cases heq⟩ hkind
      | index i =>
        obtain ⟨current, hc⟩ := ArrayObject.exists_lengthProperty ho h
        exact ⟨_, _, .element i current harray hc⟩
      | string name =>
        obtain ⟨hname, hvalue⟩ : PropertyKey.string name = lengthKey ∧ d.value ≠ none := by
          refine Classical.not_imp.mp fun himp => hkind ⟨fun i => by simp, himp⟩
        obtain ⟨v, hdv⟩ := Option.ne_none_iff_exists'.mp hvalue
        rw [hname] at h ⊢
        change ArrayObject.setLength o d s realm = _ at h
        rcases ArrayObject.requestedLength_cases H (hv harray hname v hdv) with
          ⟨n, x, hsmall, hsame, hn⟩ | ⟨f, hf⟩
        · rw [ArrayObject.setLength_of_ok hdv (hn s realm).2] at h
          obtain ⟨current, hc⟩ := ArrayObject.exists_lengthProperty ho h
          exact ⟨_, _, .length harray hc hdv ⟨fun s realm => (hn s realm).1, hsmall, hsame⟩⟩
        · rw [ArrayObject.setLength_of_error hdv (hf s realm)] at h
          cases h

end Methods

/-! ### Requests -/

section Requests

variable {bound : Nat} {realm : Realm H} {o : ObjectId} {object : Object H} {k : PropertyKey}
  {d : Descriptor}

/-- A request to define a property that was carried out can be read back, with every attribute that
it names, and is accepted once more without any effect. One that is refused has no effect, unless
it concerns the length of an array. -/
theorem answer_define_define (host : Host H) (hb : 3 ≤ bound) (hr : realm.Reachable)
    (ho : realm.object? o = some object) (hp : object.kind.isPlain) (hd : d.isValid)
    (hv : object.kind.isArray → k = lengthKey → ∀ v, d.value = some v → v.isObject = false)
    (hl : ¬realm.deeper.deeper.AtLimit) :
    (∀ after, answer host bound (.defineOwnProperty o k d) realm = .ok true after →
      (∃ d' e, object.StoredAs k d d'
        ∧ answer host bound (.getOwnProperty o k) after = .ok (some e) after
        ∧ e.isStorable ∧ d'.Within e)
      ∧ answer host bound (.defineOwnProperty o k d) after = .ok true after)
    ∧ ∀ after, answer host bound (.defineOwnProperty o k d) realm = .ok false after →
      ¬(object.kind.isArray ∧ k = lengthKey) → after = realm := by
  have hdefines : ∀ done after,
      answer host bound (.defineOwnProperty o k d) realm = .ok done after →
      ∃ object', object.Defines k d object' done ∧ after = realm.putObject o object' := by
    intro done after h
    have ho' : realm.deeper.object? o = some object := ho
    obtain ⟨bound', inner, hinner⟩ := ok_of_answer_define h hd
    obtain ⟨object', done', hdef⟩ := Object.exists_defines ho' hv hinner
    cases (hdef.gives ho hp hd hl).eq_of_ok h
    exact ⟨object', hdef, rfl⟩
  have hsound := hr.sound o object ho
  refine ⟨fun after h => ?_, fun after h hnot => ?_⟩
  · obtain ⟨object', hdef, rfl⟩ := hdefines true after h
    have ho' : (realm.putObject o object').object? o = some object' :=
      Realm.object?_putObject_self ho
    have hp' : object'.kind.isPlain := by rwa [hdef.kind_eq]
    obtain ⟨d', e, hstored, he, hstorable, hwithin⟩ := hdef.stores rfl hsound hd
    refine ⟨⟨d', e, hstored, ?_, hstorable, hwithin⟩, ?_⟩
    · rw [← he]
      exact (ObjectId.getOwnProperty_gives ho' hp' (fun h => hl (Realm.deeper_atLimit
        (Realm.deeper_atLimit h))) k).eq_of_le (Nat.le_trans (by decide) hb)
    · have hagain : answer host bound (.defineOwnProperty o k d) (realm.putObject o object') = _ :=
        ((hdef.again rfl hsound hd).gives ho' hp' hd hl).eq_of_le hb
      rwa [Realm.putObject_putObject] at hagain
  · obtain ⟨object', hdef, rfl⟩ := hdefines false after h
    rw [hdef.eq_of_refused rfl hnot, Realm.putObject_self ho]

end Requests

/-- The length of an array is lowered for good, and a fixed element does not change. -/
theorem answer_define_define_shortRealm :
    (∃ after, answer Host.bare 3 (.defineOwnProperty ⟨0⟩ lengthKey (.ofValue (.nat 1)))
          (shortRealm (.plain .null) 0) = .ok true after
        ∧ answer Host.bare 3 (.defineOwnProperty ⟨0⟩ lengthKey (.ofValue (.nat 1))) after
          = .ok true after)
      ∧ ∀ after, answer Host.bare 3 (.defineOwnProperty ⟨0⟩ (.ofNat 1) (.ofValue .undefined))
          (shortRealm (.frozen .null) 0) = .ok false after →
        after = shortRealm (.frozen .null) 0 := by
  refine ⟨?_, ?_⟩
  · have hdefines : (shortArray (.plain .null)).Defines lengthKey (.ofValue (.nat 1))
        ((shortArray (.plain .null)).setLength (.data (.nat 3) true false false)
          (.ofValue (.nat 1)) 1).1 true :=
      .length rfl rfl rfl ⟨fun _ _ => rfl, by decide, by decide +kernel⟩
    have hfirst : answer Host.bare 3 (.defineOwnProperty ⟨0⟩ lengthKey (.ofValue (.nat 1)))
        (shortRealm (.plain .null) 0) = _ :=
      (hdefines.gives rfl rfl rfl (by decide)).eq_of_le (by decide)
    exact ⟨_, hfirst, ((answer_define_define Host.bare (by decide) (shortRealm_reachable rfl 0) rfl
      rfl rfl (fun _ _ v hv => by cases hv; rfl) (by decide)).1 _ hfirst).2⟩
  · intro after h
    exact (answer_define_define Host.bare (by decide) (shortRealm_reachable rfl 0) rfl rfl rfl
      (fun _ _ v hv => by cases hv; rfl) (by decide)).2 after h fun hk => by cases hk.2

end ScriptEngine
