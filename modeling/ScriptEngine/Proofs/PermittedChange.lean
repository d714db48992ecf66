import ScriptEngine.Proofs.OwnKeys
import ScriptEngine.Proofs.UnresolvedName

/-!
# Permitted changes of a property

Whether a property may be created or changed as a request asks is decided by checks in a fixed
order, and an accepted request may end before anything is written. Here the same is said without an
order: which requests are permitted, and which property each of them leaves.

## Main definitions

* `Descriptor.KeepsKind`: requests that do not turn data into an accessor or back.
* `Descriptor.Permits`: what may be asked of a property that is not configurable.
* `Descriptor.Permitted`: what may be asked where a property exists or not.
* `Descriptor.Leaves`: the property after a request that was permitted.

## Main results

* `Descriptor.isCompatible_iff`: the checks accept exactly the requests that are permitted.
* `Descriptor.leaves_definedOver`: what is stored is the property that the request leaves.
* `applyDescriptor_permitted`: both at once, for the request as it is carried out on an object.
-/

namespace ScriptEngine

namespace Descriptor

variable {current d : Descriptor}

/-! ### Requests that are permitted -/

/-- A request that leaves the kind of a property as it is: it names no attribute of either kind, or
some of the kind that the property has. -/
def KeepsKind (current d : Descriptor) : Prop :=
  d.isGeneric ∨ (d.isData ∧ current.isData) ∨ (d.isAccessor ∧ current.isAccessor)

/-- What may be asked of a property that is not configurable. -/
structure Permits (current d : Descriptor) : Prop where
  configurable : d.configurable ≠ some true
  enumerable : d.enumerable = none ∨ d.enumerable = current.enumerable
  kind : current.KeepsKind d
  data : current.isData → current.writable = some true
    ∨ (d.writable ≠ some true ∧ ∀ v, d.value = some v → v.sameValue current.valueD)
  accessor : current.isAccessor → (∀ g, d.get = some g → g.sameValue current.getter)
    ∧ ∀ t, d.set = some t → t.sameValue current.setter

/-- What may be asked where a property exists or not. -/
def Permitted (extensible : Bool) (d : Descriptor) : Option Descriptor → Prop
  | none => extensible
  | some current => d = {} ∨ current.configurable = some true ∨ current.Permits d

/-- The property after a request that was permitted. -/
structure Leaves (current : Option Descriptor) (d after : Descriptor) : Prop where
  valid : after.isValid
  populated : after.isFullyPopulated
  created : current = none → after = d.complete
  kept : ∀ c, current = some c → c.KeepsKind d → after =
    { value := d.value.or c.value
      writable := d.writable.or c.writable
      get := d.get.or c.get
      set := d.set.or c.set
      enumerable := d.enumerable.or c.enumerable
      configurable := d.configurable.or c.configurable }
  converted : ∀ c, current = some c → ¬c.KeepsKind d → after =
    { d with
      enumerable := d.enumerable.or c.enumerable
      configurable := d.configurable.or c.configurable : Descriptor }.complete

/-! ### The checks -/

theorem hasFields_eq_false_iff : d.hasFields = false ↔ d = {} := by
  obtain ⟨value, writable, get, set, enumerable, configurable⟩ := d
  simp [hasFields, isData, isAccessor, and_assoc]

theorem getD_false_iff (b : Option Bool) : b.getD false = true ↔ b = some true := by
  rcases b with _ | _ | _ <;> simp

/-- A property in storage is of one kind. -/
theorem isData_eq_not_isAccessor (hs : current.isStorable) :
    current.isData = !current.isAccessor := by
  obtain ⟨v, w, e, c, rfl⟩ | ⟨g, t, e, c, rfl⟩ := (isStorable_iff current).mp hs
  · rfl
  · rfl

theorem changesKind_eq_false_iff (hs : current.isStorable) (hd : d.isValid) :
    changesKind current d = false ↔ current.KeepsKind d := by
  have hkind := isData_eq_not_isAccessor hs
  simp only [isValid] at hd
  cases hdata : d.isData <;> cases haccessor : d.isAccessor <;> cases hc : current.isAccessor <;>
    simp_all [changesKind, KeepsKind, isGeneric]

theorem absentOrSame_iff_forall (wanted : Option Value) (current : Value) :
    absentOrSame wanted current ↔ ∀ v, wanted = some v → v.sameValue current := by
  cases wanted with
  | none => simp [absentOrSame]
  | some v => simp [absentOrSame]

/-- What is asked of the enumerable attribute of a property that is not configurable. -/
theorem enumerable_iff (hs : current.isStorable) :
    (match d.enumerable with
      | some e => e == current.isEnumerable
      | none => true) = true ↔ d.enumerable = none ∨ d.enumerable = current.enumerable := by
  obtain ⟨v, w, e, c, rfl⟩ | ⟨g, t, e, c, rfl⟩ := (isStorable_iff current).mp hs
  all_goals cases d.enumerable <;> simp [isEnumerable, data, accessor]

/-- What is asked of the attributes of one kind of a property that is not configurable. A request
that names none of them asks nothing. -/
theorem attributes_iff (hs : current.isStorable) :
    (if current.isData && d.isData then
        current.isWritable || (d.writable != some true && absentOrSame d.value current.valueD)
      else if current.isAccessor && d.isAccessor then
        absentOrSame d.get current.getter && absentOrSame d.set current.setter
      else true) = true ↔
    (current.isData → current.writable = some true
      ∨ (d.writable ≠ some true ∧ ∀ v, d.value = some v → v.sameValue current.valueD))
    ∧ (current.isAccessor → (∀ g, d.get = some g → g.sameValue current.getter)
      ∧ ∀ t, d.set = some t → t.sameValue current.setter) := by
  have hkind := isData_eq_not_isAccessor hs
  simp only [← absentOrSame_iff_forall]
  cases hc : current.isAccessor with
  | false =>
    have hw := getD_false_iff current.writable
    rw [hc, Bool.not_false] at hkind
    cases hd : d.isData with
    | true => simp [hkind, isWritable, hw]
    | false =>
      obtain ⟨hvalue, hwritable⟩ : d.value = none ∧ d.writable = none := by
        simpa [isData] using hd
      simp [hkind, hvalue, hwritable, absentOrSame]
  | true =>
    rw [hc, Bool.not_true] at hkind
    cases hd : d.isAccessor with
    | true => simp [hkind]
    | false =>
      obtain ⟨hget, hset⟩ : d.get = none ∧ d.set = none := by
        simpa [isAccessor] using hd
      simp [hkind, hget, hset, absentOrSame]

/-- A property that is not configurable accepts exactly what it permits. -/
theorem respectsFixed_iff (hs : current.isStorable) (hd : d.isValid) :
    respectsFixed current d ↔ current.Permits d := by
  rw [respectsFixed, Bool.and_eq_true, Bool.and_eq_true, Bool.and_eq_true, bne_iff_ne,
    attributes_iff hs, Bool.not_eq_true', changesKind_eq_false_iff hs hd]
  constructor
  · rintro ⟨⟨⟨hconfigurable, henumerable⟩, hkind⟩, hdata, haccessor⟩
    exact ⟨hconfigurable, (enumerable_iff hs).mp henumerable, hkind, hdata, haccessor⟩
  · rintro ⟨hconfigurable, henumerable, hkind, hdata, haccessor⟩
    exact ⟨⟨⟨hconfigurable, (enumerable_iff hs).mpr henumerable⟩, hkind⟩, hdata, haccessor⟩

/-- The checks accept exactly the requests that are permitted. -/
theorem isCompatible_iff (extensible : Bool) {current : Option Descriptor} (hd : d.isValid)
    (hs : ∀ c, current = some c → c.isStorable) :
    d.isCompatible extensible current ↔ d.Permitted extensible current := by
  cases current with
  | none => rfl
  | some current =>
    rw [isCompatible, accepts, Bool.or_eq_true, Bool.or_eq_true, Bool.not_eq_true',
      hasFields_eq_false_iff, isConfigurable, getD_false_iff, respectsFixed_iff (hs current rfl) hd,
      Permitted, or_assoc]

/-! ### What is stored -/

/-- The first form of a new property is the request with its defaults. -/
theorem initial_eq_complete (hd : d.isValid) : d.initial = d.complete := by
  obtain ⟨value, writable, get, set, enumerable, configurable⟩ := d
  rcases (isValid_iff _).mp hd with ⟨hv, hw⟩ | ⟨hg, hs⟩
  · obtain rfl : value = none := hv
    obtain rfl : writable = none := hw
    cases get <;> cases set <;> rfl
  · obtain rfl : get = none := hg
    obtain rfl : set = none := hs
    cases value <;> cases writable <;> rfl

/-- An accepted request that keeps the kind is written over the property, also where the checks end
before anything is written. -/
theorem apply_of_keepsKind (hs : current.isStorable) (hd : d.isValid) (ha : accepts current d)
    (hk : current.KeepsKind d) : current.apply current d = override current d := by
  unfold apply
  split
  · next hsettled => exact (override_of_within (within_of_isSettled hs hd ha hsettled)).symm
  · rw [(changesKind_eq_false_iff hs hd).mpr hk, if_neg Bool.false_ne_true]

/-- An accepted request that turns the kind leaves the attributes of the new kind that it names, and
of those that both kinds have the ones that it does not name. -/
theorem apply_of_not_keepsKind (hs : current.isStorable) (hd : d.isValid)
    (hk : ¬current.KeepsKind d) : current.apply current d =
      { d with
        enumerable := d.enumerable.or current.enumerable
        configurable := d.configurable.or current.configurable : Descriptor }.complete := by
  have hchanges : changesKind current d = true := by
    simpa using mt (changesKind_eq_false_iff hs hd).mp hk
  have hsettled : isSettled current d = false := by
    have hf : d.hasFields = true := by
      cases hf : d.hasFields with
      | true => rfl
      | false =>
        rw [hasFields_eq_false_iff.mp hf] at hchanges
        cases hchanges
    simp [isSettled, hf, hchanges]
  rw [apply, hsettled, hchanges, if_neg Bool.false_ne_true, if_pos rfl]
  simp only [KeepsKind, isGeneric, Bool.and_eq_true, Bool.not_eq_true', not_or, not_and,
    Bool.not_eq_true, Bool.not_eq_false] at hk
  obtain ⟨hgeneric, hnotData, hnotAccessor⟩ := hk
  obtain ⟨v, w, e, c, rfl⟩ | ⟨g, t, e, c, rfl⟩ := (isStorable_iff current).mp hs
  · have hdata : d.isData = false := Bool.eq_false_iff.mpr fun h => by cases hnotData h
    obtain ⟨hvalue, hwritable⟩ : d.value = none ∧ d.writable = none := by simpa [isData] using hdata
    have haccessor : d.isAccessor = true := hgeneric hdata
    have haccessor' : (d.get.isSome || d.set.isSome) = true := haccessor
    simp [override, convert, complete, data, isData, isAccessor, hvalue, hwritable, haccessor',
      getter, setter, isEnumerable, isConfigurable]
  · have haccessor : d.isAccessor = false := Bool.eq_false_iff.mpr fun h => by cases hnotAccessor h
    obtain ⟨hget, hset⟩ : d.get = none ∧ d.set = none := by simpa [isAccessor] using haccessor
    simp [override, convert, complete, accessor, isData, isAccessor, hget, hset, valueD, isWritable,
      isEnumerable, isConfigurable]

/-- What is stored after an accepted request is what the request leaves. -/
theorem leaves_definedOver {extensible : Bool} {current : Option Descriptor} (hd : d.isValid)
    (hs : ∀ c, current = some c → c.isStorable) (ha : d.isCompatible extensible current) :
    d.Leaves current (d.definedOver current) := by
  have hstorable := isStorable_definedOver hd hs
  rw [isStorable, Bool.and_eq_true] at hstorable
  refine ⟨hstorable.1, hstorable.2, ?_, fun c hc hk => ?_, fun c hc hk => ?_⟩
  · rintro rfl
    exact initial_eq_complete hd
  · subst hc
    have happly := apply_of_keepsKind (hs c rfl) hd ha hk
    rw [definedOver, happly, override]
    simp only [Option.orElse_eq_orElse, Option.orElse_eq_or]
  · subst hc
    exact apply_of_not_keepsKind (hs c rfl) hd hk

end Descriptor

/-! ### Requests -/

section Requests

variable {H : HostTypes} {realm : Realm H} {o : ObjectId} {object : Object H} {k : PropertyKey}
  {d : Descriptor} {current : Option Descriptor}

/-- A request to define a property is accepted exactly if it is permitted, whatever the object, and
given the property that the object stores, an accepted request stores the property that it leaves
and changes nothing else. A request that is refused changes nothing. -/
theorem applyDescriptor_permitted (s : Surroundings H) (extensible : Bool) (hd : d.isValid)
    (hs : ∀ c, current = some c → c.isStorable) (ho : realm.object? o = some object) :
    (d.isCompatible extensible current ↔ d.Permitted extensible current)
    ∧ ∃ verdict after, Ordinary.applyDescriptor o k extensible d current s realm = .ok verdict after
      ∧ (verdict = true ↔ d.Permitted extensible current)
      ∧ (verdict = false → after = realm)
      ∧ (verdict = true → object.properties.get? k = current →
        ∃ stored, d.Leaves current stored ∧ after = realm.withProperty o object k stored) := by
  have hiff := Descriptor.isCompatible_iff extensible hd hs
  obtain ⟨after, heq, hrefused, haccepted⟩ :=
    Ordinary.applyDescriptor_of_some (k := k) s ho extensible d current
  refine ⟨hiff, _, after, heq, hiff, hrefused, fun hverdict hk => ?_⟩
  refine ⟨_, Descriptor.leaves_definedOver hd hs hverdict, (haccepted hverdict hk).trans ?_⟩
  rw [Object.define, PropertyMap.define, hk]
  rfl

end Requests

/-- A property that is configurable is turned into an accessor and keeps that it is enumerable, and
a fixed element does not become writable. -/
theorem applyDescriptor_permitted_textRealm :
    (∃ after stored, Ordinary.applyDescriptor ⟨0⟩ (.string "x") true
          { get := some .undefined, configurable := some false } (some (.plain .null))
          (.bounded Host.bare 0) textRealm = .ok true after
        ∧ stored = .accessor .undefined .undefined true false
        ∧ after = textRealm.withProperty ⟨0⟩ textObject (.string "x") stored)
      ∧ Ordinary.applyDescriptor ⟨0⟩ lengthKey true { writable := some true }
          (some (.frozen (.nat 2))) (.bounded Host.bare 0) textRealm = .ok false textRealm := by
  have ho : textRealm.object? ⟨0⟩ = some textObject := rfl
  constructor
  · have hs : ∀ c, some (Descriptor.plain .null) = some c → c.isStorable := by
      rintro c ⟨⟩
      rfl
    obtain ⟨-, verdict, after, heq, hverdict, -, hstores⟩ := applyDescriptor_permitted
      (k := .string "x") (.bounded Host.bare 0) true
      (d := { get := some .undefined, configurable := some false }) rfl hs ho
    obtain rfl := hverdict.mpr (.inr (.inl rfl))
    obtain ⟨stored, hleaves, hafter⟩ := hstores rfl rfl
    refine ⟨after, stored, heq, ?_, hafter⟩
    exact hleaves.converted _ rfl (by rintro (h | ⟨h, -⟩ | ⟨-, h⟩) <;> cases h)
  · have hs : ∀ c, some (Descriptor.frozen (.nat 2)) = some c → c.isStorable := by
      rintro c ⟨⟩
      rfl
    obtain ⟨-, verdict, after, heq, hverdict, hrefused, -⟩ := applyDescriptor_permitted
      (k := lengthKey) (.bounded Host.bare 0) true (d := { writable := some true }) rfl hs ho
    have hnot : ¬({ writable := some true } : Descriptor).Permitted true
        (some (.frozen (.nat 2))) := by
      rintro (h | h | h)
      · cases h
      · cases h
      · rcases h.data rfl with h | ⟨h, -⟩
        · cases h
        · exact h rfl
    obtain rfl : verdict = false := Bool.eq_false_iff.mpr (mt hverdict.mp hnot)
    rw [heq, hrefused rfl]

end ScriptEngine
