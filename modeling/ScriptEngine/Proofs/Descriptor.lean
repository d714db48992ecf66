import ScriptEngine.Descriptor

/-!
# Accepted changes of a property

A request to define a property that is accepted leaves alone what is fixed in the property, stores
every attribute that it names, and is accepted without effect when it is made once more.

## Main definitions

* `Descriptor.Within`: the attributes that a descriptor names are those of another one.
* `Descriptor.Fixes`: what a property that is not configurable keeps.

## Main results

* `Descriptor.fixes_apply`: an accepted change keeps what is fixed.
* `Descriptor.within_definedOver`: an accepted change stores the attributes that are named.
* `Descriptor.accepts_of_within`, `Descriptor.definedOver_of_within`: a request for what is there
  already is accepted and changes nothing.
-/

namespace ScriptEngine.Descriptor

/-! ### What is fixed -/

/-- What a property that is not configurable keeps. -/
structure Fixes (current after : Descriptor) : Prop where
  configurable : after.isConfigurable = false
  enumerable : after.isEnumerable = current.isEnumerable
  isData : after.isData = current.isData
  isAccessor : after.isAccessor = current.isAccessor
  accessors : current.isAccessor → after.getter = current.getter ∧ after.setter = current.setter
  value : current.isData → current.isWritable = false →
    after.isWritable = false ∧ after.valueD = current.valueD

theorem Fixes.refl {d : Descriptor} (h : d.isConfigurable = false) : d.Fixes d :=
  ⟨h, rfl, rfl, rfl, fun _ => ⟨rfl, rfl⟩, fun _ hw => ⟨hw, rfl⟩⟩

theorem Fixes.trans {d e f : Descriptor} (h : d.Fixes e) (h' : e.Fixes f) : d.Fixes f where
  configurable := h'.configurable
  enumerable := h'.enumerable.trans h.enumerable
  isData := h'.isData.trans h.isData
  isAccessor := h'.isAccessor.trans h.isAccessor
  accessors ha := by
    obtain ⟨hg, hs⟩ := h.accessors ha
    obtain ⟨hg', hs'⟩ := h'.accessors (h.isAccessor.trans ha)
    exact ⟨hg'.trans hg, hs'.trans hs⟩
  value hd hw := by
    obtain ⟨hw', hv⟩ := h.value hd hw
    obtain ⟨hw'', hv'⟩ := h'.value (h.isData.trans hd) hw'
    exact ⟨hw'', hv'.trans hv⟩

/-! ### Requests that respect what is fixed -/

theorem absentOrSame_iff (wanted : Option Value) (current : Value) :
    absentOrSame wanted current ↔ wanted = none ∨ wanted = some current := by
  cases wanted with
  | none => simp [absentOrSame]
  | some v => simp [absentOrSame, Value.sameValue]

theorem ne_some_true_iff (b : Option Bool) : b ≠ some true ↔ b = none ∨ b = some false := by
  rcases b with _ | _ | _ <;> simp

section RespectsFixed

variable {current d : Descriptor} {v g s : Value} {e c : Bool}

/-- The attributes that properties of both kinds have, as far as they are fixed. -/
theorem respectsFixed_shared (h : respectsFixed current d) :
    (d.configurable = none ∨ d.configurable = some false)
      ∧ (d.enumerable = none ∨ d.enumerable = some current.isEnumerable)
      ∧ changesKind current d = false := by
  simp only [respectsFixed, Bool.and_eq_true, bne_iff_ne] at h
  obtain ⟨⟨⟨hc, he⟩, hk⟩, -⟩ := h
  refine ⟨(ne_some_true_iff _).mp hc, ?_, by simpa using hk⟩
  match hd : d.enumerable, he with
  | none, _ => exact .inl rfl
  | some e, he => exact .inr (congrArg some (eq_of_beq he))

theorem respectsFixed_data (h : respectsFixed (data v false e c) d) :
    (d.writable = none ∨ d.writable = some false) ∧ (d.value = none ∨ d.value = some v) := by
  simp only [respectsFixed, Bool.and_eq_true] at h
  replace h := h.2
  by_cases hd : d.isData
  · rw [if_pos (by simpa [data, isData] using hd)] at h
    simp only [data, isWritable, valueD, Option.getD_some, Bool.false_or, Bool.and_eq_true,
      bne_iff_ne, ne_some_true_iff, absentOrSame_iff] at h
    exact h
  · simp only [isData, Bool.or_eq_true, not_or, Bool.not_eq_true, Option.isSome_eq_false_iff,
      Option.isNone_iff_eq_none] at hd
    exact ⟨.inl hd.2, .inl hd.1⟩

theorem respectsFixed_accessor (h : respectsFixed (accessor g s e c) d) :
    (d.get = none ∨ d.get = some g) ∧ (d.set = none ∨ d.set = some s) := by
  simp only [respectsFixed, Bool.and_eq_true] at h
  replace h := h.2
  by_cases hd : d.isAccessor
  · rw [if_neg (by simp [accessor, isData]), if_pos (by simpa [accessor, isAccessor] using hd)] at h
    simpa only [accessor, getter, setter, Option.getD_some, Bool.and_eq_true, absentOrSame_iff]
      using h
  · simp only [isAccessor, Bool.or_eq_true, not_or, Bool.not_eq_true, Option.isSome_eq_false_iff,
      Option.isNone_iff_eq_none] at hd
    exact ⟨.inl hd.1, .inl hd.2⟩

/-- A request that respects what is fixed, written over a property that is not configurable, keeps
it. -/
theorem fixes_override (hs : current.isStorable) (hc : current.isConfigurable = false)
    (hd : d.isValid) (h : respectsFixed current d) : current.Fixes (override current d) := by
  obtain ⟨hconfigurable, henumerable, hk⟩ := respectsFixed_shared h
  have hc' : (override current d).isConfigurable = false := by
    rcases hconfigurable with hn | hn
    · simpa [override, hn, isConfigurable] using hc
    · simp [override, hn, isConfigurable]
  have he' : (override current d).isEnumerable = current.isEnumerable := by
    rcases henumerable with hn | hn
    · simp [override, hn, isEnumerable]
    · simp [override, hn, isEnumerable]
  obtain ⟨v, w, e, c, rfl⟩ | ⟨g, s, e, c, rfl⟩ := (isStorable_iff current).mp hs
  · have hn := get_set_eq_none hd hk
    refine ⟨hc', he', by simp [override, data, isData], by simp [override, data, isAccessor, hn],
      by simp [data, isAccessor], fun _ hw => ?_⟩
    obtain rfl : w = false := hw
    obtain ⟨hwritable, hvalue⟩ := respectsFixed_data h
    constructor
    · rcases hwritable with hn | hn <;> simp [override, data, isWritable, hn]
    · rcases hvalue with hn | hn <;> simp [override, data, valueD, hn]
  · have hn := value_writable_eq_none hd hk
    refine ⟨hc', he', by simp [override, accessor, isData, hn],
      by simp [override, accessor, isAccessor], fun _ => ?_, by simp [accessor, isData]⟩
    obtain ⟨hget, hset⟩ := respectsFixed_accessor h
    constructor
    · rcases hget with hn | hn <;> simp [override, accessor, getter, hn]
    · rcases hset with hn | hn <;> simp [override, accessor, setter, hn]

/-- An accepted change keeps what is fixed. -/
theorem fixes_apply (hs : current.isStorable) (hc : current.isConfigurable = false)
    (hd : d.isValid) (ha : accepts current d) : current.Fixes (current.apply current d) := by
  unfold apply
  split
  · exact .refl hc
  · next hsettled =>
    have hr : respectsFixed current d := by simp_all [accepts, isSettled]
    rw [(respectsFixed_shared hr).2.2]
    exact fixes_override hs hc hd hr

end RespectsFixed

/-! ### What a request stores -/

/-- The attributes that a descriptor names are those of another one. -/
structure Within (d e : Descriptor) : Prop where
  value : d.value = none ∨ d.value = e.value
  writable : d.writable = none ∨ d.writable = e.writable
  get : d.get = none ∨ d.get = e.get
  set : d.set = none ∨ d.set = e.set
  enumerable : d.enumerable = none ∨ d.enumerable = e.enumerable
  configurable : d.configurable = none ∨ d.configurable = e.configurable

theorem within_override (stored d : Descriptor) : d.Within (override stored d) := by
  obtain ⟨value, writable, get, set, enumerable, configurable⟩ := d
  constructor
  · cases value <;> simp [override]
  · cases writable <;> simp [override]
  · cases get <;> simp [override]
  · cases set <;> simp [override]
  · cases enumerable <;> simp [override]
  · cases configurable <;> simp [override]

theorem within_initial {d : Descriptor} (hd : d.isValid) : d.Within d.initial := by
  unfold initial
  obtain ⟨value, writable, get, set, enumerable, configurable⟩ := d
  rcases (isValid_iff _).mp hd with ⟨hv, hw⟩ | ⟨hg, hs⟩
  · obtain rfl : value = none := hv
    obtain rfl : writable = none := hw
    split
    · refine ⟨.inl rfl, .inl rfl, ?_, ?_, ?_, ?_⟩
      · cases get <;> simp [accessor, getter]
      · cases set <;> simp [accessor, setter]
      · cases enumerable <;> simp [accessor, isEnumerable]
      · cases configurable <;> simp [accessor, isConfigurable]
    · next h =>
      simp only [isAccessor, Bool.or_eq_true, not_or, Bool.not_eq_true, Option.isSome_eq_false_iff,
        Option.isNone_iff_eq_none] at h
      refine ⟨.inl rfl, .inl rfl, .inl h.1, .inl h.2, ?_, ?_⟩
      · cases enumerable <;> simp [data, isEnumerable]
      · cases configurable <;> simp [data, isConfigurable]
  · obtain rfl : get = none := hg
    obtain rfl : set = none := hs
    refine ⟨?_, ?_, .inl rfl, .inl rfl, ?_, ?_⟩
    · cases value <;> simp [data, isAccessor, valueD]
    · cases writable <;> simp [data, isAccessor, isWritable]
    · cases enumerable <;> simp [data, isAccessor, isEnumerable]
    · cases configurable <;> simp [data, isAccessor, isConfigurable]

/-- A request that a fixed data property accepts asks for what is there. -/
theorem within_of_respectsFixed_data {d : Descriptor} {v : Value} {e : Bool} (hd : d.isValid)
    (hr : respectsFixed (data v false e false) d) : d.Within (data v false e false) := by
  obtain ⟨hconfigurable, henumerable, hk⟩ := respectsFixed_shared hr
  obtain ⟨hwritable, hvalue⟩ := respectsFixed_data hr
  obtain ⟨hget, hset⟩ := get_set_eq_none hd hk
  exact ⟨hvalue, hwritable, .inl hget, .inl hset, henumerable, hconfigurable⟩

/-- A request for nothing asks for what is there. -/
theorem within_of_not_hasFields {d : Descriptor} (e : Descriptor) (hf : d.hasFields = false) :
    d.Within e := by
  simp only [hasFields, isData, isAccessor, Bool.or_eq_false_iff, Option.isSome_eq_false_iff,
    Option.isNone_iff_eq_none] at hf
  obtain ⟨⟨⟨⟨hv, hw⟩, hg, hs⟩, he⟩, hc⟩ := hf
  exact ⟨.inl hv, .inl hw, .inl hg, .inl hs, .inl he, .inl hc⟩

/-- A request that is accepted and leaves the property alone asks for nothing else. -/
theorem within_of_isSettled {current d : Descriptor} (hs : current.isStorable) (hd : d.isValid)
    (ha : accepts current d) (h : isSettled current d) : d.Within current := by
  by_cases hf : d.hasFields
  · have hc : current.isConfigurable = false := by simp_all [isSettled]
    have hr : respectsFixed current d := by simp_all [accepts]
    obtain ⟨v, w, e, c, rfl⟩ | ⟨g, s, e, c, rfl⟩ := (isStorable_iff current).mp hs
    · obtain rfl : c = false := hc
      obtain rfl : w = false := by
        simp only [isSettled, hf, data, isData, isAccessor, isWritable] at h
        simp_all
      exact within_of_respectsFixed_data hd hr
    · obtain rfl : c = false := hc
      obtain ⟨hconfigurable, henumerable, hk⟩ := respectsFixed_shared hr
      obtain ⟨hget, hset⟩ := respectsFixed_accessor hr
      have hn := value_writable_eq_none hd hk
      exact ⟨.inl hn.1, .inl hn.2, hget, hset, henumerable, hconfigurable⟩
  · exact within_of_not_hasFields current (by simpa using hf)

/-- An accepted change stores every attribute that the request names. -/
theorem within_definedOver {d : Descriptor} {extensible : Bool} {current : Option Descriptor}
    (hs : ∀ c, current = some c → c.isStorable) (hd : d.isValid)
    (ha : d.isCompatible extensible current) : d.Within (d.definedOver current) := by
  cases current with
  | none => exact within_initial hd
  | some current =>
    simp only [definedOver, apply]
    split
    · next h => exact within_of_isSettled (hs current rfl) hd ha h
    · exact within_override _ d

/-! ### Requests for what is there already -/

section Within

variable {d e : Descriptor}

theorem changesKind_of_within (he : e.isStorable) (h : d.Within e) : changesKind e d = false := by
  obtain ⟨v, w, e, c, rfl⟩ | ⟨g, s, e, c, rfl⟩ := (isStorable_iff e).mp he
  · have hg : d.get = none := h.get.elim id id
    have hs : d.set = none := h.set.elim id id
    simp [changesKind, isAccessor, hg, hs, data]
  · have hv : d.value = none := h.value.elim id id
    have hw : d.writable = none := h.writable.elim id id
    have ha : (accessor g s e c).isAccessor = true := rfl
    simp only [changesKind, isGeneric, isData, hv, hw, ha]
    cases d.isAccessor
    · rfl
    · rfl

theorem override_of_within (h : d.Within e) : override e d = e := by
  obtain ⟨value, writable, get, set, enumerable, configurable⟩ := e
  simp only [override, Descriptor.mk.injEq]
  refine ⟨?_, ?_, ?_, ?_, ?_, ?_⟩
  · rcases h.value with hn | hn <;> simp [hn]
  · rcases h.writable with hn | hn <;> simp [hn]
  · rcases h.get with hn | hn <;> simp [hn]
  · rcases h.set with hn | hn <;> simp [hn]
  · rcases h.enumerable with hn | hn <;> simp [hn]
  · rcases h.configurable with hn | hn <;> simp [hn]

/-- A request for what is there already changes nothing. -/
theorem definedOver_of_within (he : e.isStorable) (h : d.Within e) :
    d.definedOver (some e) = e := by
  simp only [definedOver, apply, changesKind_of_within he h, Bool.false_eq_true, if_false,
    override_of_within h, ite_self]

theorem respectsFixed_of_within (he : e.isStorable) (hc : e.isConfigurable = false)
    (h : d.Within e) : respectsFixed e d := by
  have hconfigurable : d.configurable ≠ some true := by
    rcases h.configurable with hn | hn
    · simp [hn]
    · intro heq
      simp [isConfigurable, ← hn, heq] at hc
  simp only [respectsFixed, Bool.and_eq_true, bne_iff_ne, changesKind_of_within he h]
  refine ⟨⟨⟨hconfigurable, ?_⟩, rfl⟩, ?_⟩
  · rcases h.enumerable with hn | hn
    · simp [hn]
    · cases hd : d.enumerable with
      | none => rfl
      | some b => simp [isEnumerable, ← hn, hd]
  obtain ⟨v, w, e, c, rfl⟩ | ⟨g, s, e, c, rfl⟩ := (isStorable_iff e).mp he
  · have hv : absentOrSame d.value (data v w e c).valueD := (absentOrSame_iff _ _).mpr h.value
    have hw : w = true ∨ d.writable ≠ some true := by
      rcases h.writable with hn | hn
      · simp [hn]
      · cases w <;> simp [hn, data]
    have hd : (data v w e c).isData = true := rfl
    have ha : (data v w e c).isAccessor = false := rfl
    have hwritable : (data v w e c).isWritable = w := rfl
    rcases hw with rfl | hw
    · simp [hd, ha, hwritable]
    · simp [hd, ha, hv, hw]
  · have hg : absentOrSame d.get (accessor g s e c).getter := (absentOrSame_iff _ _).mpr h.get
    have hs : absentOrSame d.set (accessor g s e c).setter := (absentOrSame_iff _ _).mpr h.set
    have hd : (accessor g s e c).isData = false := rfl
    simp [hd, hg, hs]

/-- A request for what is there already is accepted. -/
theorem accepts_of_within (he : e.isStorable) (h : d.Within e) : accepts e d := by
  by_cases hc : e.isConfigurable
  · simp [accepts, hc]
  · simp [accepts, respectsFixed_of_within he (by simpa using hc) h]

end Within

/-! ### Data properties that are not configurable -/

section Data

variable {d : Descriptor} {v : Value} {w e : Bool}

theorem respectsFixed_or_not_hasFields (ha : accepts (data v w e false) d) :
    d.hasFields = false ∨ respectsFixed (data v w e false) d := by
  have hc : (data v w e false).isConfigurable = false := rfl
  simpa [accepts, hc] using ha

/-- What a fixed data property accepts is what is there. -/
theorem within_of_accepts_frozen (hd : d.isValid) (ha : accepts (data v false e false) d) :
    d.Within (data v false e false) := by
  rcases respectsFixed_or_not_hasFields ha with hf | hr
  · exact within_of_not_hasFields _ hf
  · exact within_of_respectsFixed_data hd hr

/-- A request over a data property that is not configurable can change no more than its value and
whether it is writable. -/
theorem definedOver_data (hd : d.isValid) (ha : accepts (data v w e false) d) :
    d.definedOver (some (data v w e false))
      = data (d.value.getD v) (d.writable.getD w) e false := by
  simp only [definedOver, apply]
  split
  · next h =>
    have hw := within_of_isSettled rfl hd ha h
    have hvalue : d.value.getD v = v := by
      rcases hw.value with hn | hn <;> simp [hn, data]
    have hwritable : d.writable.getD w = w := by
      rcases hw.writable with hn | hn <;> simp [hn, data]
    rw [hvalue, hwritable]
  · next h =>
    have hr : respectsFixed (data v w e false) d :=
      (respectsFixed_or_not_hasFields ha).resolve_left fun hf => h (by simp [isSettled, hf])
    obtain ⟨hc, he, hk⟩ := respectsFixed_shared hr
    obtain ⟨hg, hs⟩ := get_set_eq_none hd hk
    rw [hk, if_neg Bool.false_ne_true]
    simp only [override, hg, hs, data, Descriptor.mk.injEq]
    refine ⟨?_, ?_, rfl, rfl, ?_, ?_⟩
    · cases d.value <;> rfl
    · cases d.writable <;> rfl
    · rcases he with hn | hn <;> simp [hn, data, isEnumerable]
    · rcases hc with hn | hn <;> simp [hn]

/-- A data property that is not configurable accepts no request of the other kind. -/
theorem isValid_of_accepts_data (ha : accepts (data v w e false) d) : d.isValid := by
  rcases respectsFixed_or_not_hasFields ha with hf | hr
  · simp only [hasFields, Bool.or_eq_false_iff] at hf
    simp [isValid, hf.1.1.1]
  · obtain ⟨-, -, hk⟩ := respectsFixed_shared hr
    have hcurrent : (data v w e false).isAccessor = false := rfl
    cases hd : d.isAccessor with
    | false => simp [isValid, hd]
    | true => simp [changesKind, isGeneric, hd, hcurrent] at hk

/-- While it is writable, a data property that is not configurable accepts every request for a value
that names nothing else of it. -/
theorem accepts_data_iff (hd : d.isValid) : accepts (data v true e false) d ↔
    (d.get = none ∧ d.set = none) ∧ (d.configurable = none ∨ d.configurable = some false)
      ∧ (d.enumerable = none ∨ d.enumerable = some e) := by
  constructor
  · intro ha
    rcases respectsFixed_or_not_hasFields ha with hf | hr
    · simp only [hasFields, isData, isAccessor, Bool.or_eq_false_iff, Option.isSome_eq_false_iff,
        Option.isNone_iff_eq_none] at hf
      obtain ⟨⟨⟨-, hg, hs⟩, he⟩, hc⟩ := hf
      exact ⟨⟨hg, hs⟩, .inl hc, .inl he⟩
    · obtain ⟨hc, he, hk⟩ := respectsFixed_shared hr
      exact ⟨get_set_eq_none hd hk, hc, he⟩
  · rintro ⟨⟨hg, hs⟩, hc, he⟩
    have hk : changesKind (data v true e false) d = false := by
      simp [changesKind, isAccessor, hg, hs, data]
    have hw : (data v true e false).isWritable = true := rfl
    have ha : d.isAccessor = false := by simp [isAccessor, hg, hs]
    have hr : respectsFixed (data v true e false) d := by
      simp only [respectsFixed, hk, hw, ha, Bool.true_or, Bool.and_false, Bool.false_eq_true,
        if_false, ite_self, Bool.not_false, Bool.and_true, Bool.and_eq_true, bne_iff_ne,
        ne_some_true_iff]
      refine ⟨hc, ?_⟩
      rcases he with hn | hn <;> simp [hn, data, isEnumerable]
    simp [accepts, hr]

end Data

/-! ### Data properties that are writable -/

section Writable

variable {v : Value} {e c : Bool}

theorem accepts_data_value (x : Value) : accepts (data v true e c) (data x true e c) := by
  cases c <;> simp [accepts, respectsFixed, changesKind, isGeneric, isData, isAccessor, isWritable,
    isConfigurable, isEnumerable, hasFields, data]

theorem definedOver_data_value (x : Value) :
    (data x true e c).definedOver (some (data v true e c)) = data x true e c := by
  cases c <;> rfl

theorem accepts_data_readOnly : accepts (data v true e c) { writable := some false } := by
  cases c <;> rfl

theorem definedOver_data_readOnly :
    ({ writable := some false } : Descriptor).definedOver (some (data v true e c))
      = data v false e c := by
  cases c <;> rfl

end Writable

end ScriptEngine.Descriptor
