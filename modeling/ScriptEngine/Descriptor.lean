import ScriptEngine.Value

/-!
# Property descriptors

A descriptor names some of the six attributes of a property. A request to define a property leaves
out what it does not want to fix; the stored form of a property has every attribute of its kind,
data or accessor.

## Main definitions

* `Descriptor`: six optional attributes.
* `Descriptor.isValid`, `Descriptor.isFullyPopulated`: not both data and accessor; nothing missing.
* `Descriptor.isStorable`: both at once, as every property in storage is.
* `Descriptor.complete`: the missing attributes set to their defaults.
* `Descriptor.isCompatible`: whether a property may be created or changed as a descriptor asks.
* `Descriptor.apply`, `Descriptor.definedOver`: a stored property after the change.
-/

namespace ScriptEngine

/-- Attributes of a property, each present or absent. -/
structure Descriptor where
  value : Option Value := none
  writable : Option Bool := none
  get : Option Value := none
  set : Option Value := none
  enumerable : Option Bool := none
  configurable : Option Bool := none
deriving DecidableEq

namespace Descriptor

instance : Inhabited Descriptor := ⟨{}⟩

/-! ### Constructors -/

/-- A data property with every attribute given. -/
def data (value : Value) (writable enumerable configurable : Bool) : Descriptor :=
  { value := some value
    writable := some writable
    enumerable := some enumerable
    configurable := some configurable }

/-- An accessor property with every attribute given. -/
def accessor (get set : Value) (enumerable configurable : Bool) : Descriptor :=
  { get := some get
    set := some set
    enumerable := some enumerable
    configurable := some configurable }

/-- What assignment creates: writable, enumerable and configurable. -/
def plain (value : Value) : Descriptor := data value true true true

/-- What built-in methods are: writable and configurable. -/
def builtin (value : Value) : Descriptor := data value true false true

/-- What constants are: nothing allowed. -/
def frozen (value : Value) : Descriptor := data value false false false

/-- A request to set the value only. -/
def ofValue (value : Value) : Descriptor := { value := some value }

/-! ### Kinds -/

/-- Some data attribute is present. -/
def isData (d : Descriptor) : Bool := d.value.isSome || d.writable.isSome

/-- Some accessor attribute is present. -/
def isAccessor (d : Descriptor) : Bool := d.get.isSome || d.set.isSome

/-- Neither data nor accessor. -/
def isGeneric (d : Descriptor) : Bool := !d.isData && !d.isAccessor

/-- Some attribute is present. -/
def hasFields (d : Descriptor) : Bool :=
  d.isData || d.isAccessor || d.enumerable.isSome || d.configurable.isSome

/-- Not both data and accessor. -/
def isValid (d : Descriptor) : Bool := !(d.isData && d.isAccessor)

/-- Every attribute of its kind is present. -/
def isFullyPopulated (d : Descriptor) : Bool :=
  (if d.isAccessor then d.get.isSome && d.set.isSome else d.value.isSome && d.writable.isSome)
    && d.enumerable.isSome && d.configurable.isSome

/-- What a property in storage is like: of one kind, with every attribute of it. -/
def isStorable (d : Descriptor) : Bool := d.isValid && d.isFullyPopulated

/-! ### Attributes with their defaults -/

/-- The value, `undefined` if absent. -/
def valueD (d : Descriptor) : Value := d.value.getD .undefined

/-- The getter, `undefined` if absent. -/
def getter (d : Descriptor) : Value := d.get.getD .undefined

/-- The setter, `undefined` if absent. -/
def setter (d : Descriptor) : Value := d.set.getD .undefined

/-- The writable attribute, `false` if absent. -/
def isWritable (d : Descriptor) : Bool := d.writable.getD false

/-- The enumerable attribute, `false` if absent. -/
def isEnumerable (d : Descriptor) : Bool := d.enumerable.getD false

/-- The configurable attribute, `false` if absent. -/
def isConfigurable (d : Descriptor) : Bool := d.configurable.getD false

/-- The missing attributes of the kind set to their defaults; a generic descriptor becomes a data
property. -/
def complete (d : Descriptor) : Descriptor :=
  if d.isAccessor && !d.isData then
    { d with
      get := some d.getter
      set := some d.setter
      enumerable := some d.isEnumerable
      configurable := some d.isConfigurable }
  else
    { d with
      value := some d.valueD
      writable := some d.isWritable
      enumerable := some d.isEnumerable
      configurable := some d.isConfigurable }

/-! ### Changing a property -/

/-- What a request stores where no property exists: its attributes of one kind over the
defaults. -/
def initial (d : Descriptor) : Descriptor :=
  if d.isAccessor then accessor d.getter d.setter d.isEnumerable d.isConfigurable
  else data d.valueD d.isWritable d.isEnumerable d.isConfigurable

/-- An optional attribute that is absent or the same. -/
def absentOrSame (wanted : Option Value) (current : Value) : Bool :=
  match wanted with
  | some v => v.sameValue current
  | none => true

/-- Whether a request turns a property of one kind into the other. -/
def changesKind (current d : Descriptor) : Bool :=
  !d.isGeneric && (d.isAccessor != current.isAccessor)

/-- Whether a request respects what is fixed in a non-configurable property. -/
def respectsFixed (current d : Descriptor) : Bool :=
  d.configurable != some true
    && (match d.enumerable with
        | some e => e == current.isEnumerable
        | none => true)
    && !changesKind current d
    && (if current.isData && d.isData then
          current.isWritable || (d.writable != some true && absentOrSame d.value current.valueD)
        else if current.isAccessor && d.isAccessor then
          absentOrSame d.get current.getter && absentOrSame d.set current.setter
        else true)

/-- Whether an existing property may be changed as a request asks. -/
def accepts (current d : Descriptor) : Bool :=
  !d.hasFields || current.isConfigurable || respectsFixed current d

/-- Whether a request may be carried out on a property that exists or not. -/
def isCompatible (extensible : Bool) (d : Descriptor) : Option Descriptor → Bool
  | none => extensible
  | some current => accepts current d

/-- Whether a change that was accepted leaves the stored property alone: nothing is asked, or all
that could be asked of a fixed property is already so. -/
def isSettled (current d : Descriptor) : Bool :=
  !d.hasFields
    || (!current.isConfigurable && !changesKind current d
        && ((current.isData && d.isData && !current.isWritable)
            || (!(current.isData && d.isData) && current.isAccessor && d.isAccessor)))

/-- The stored property turned into the other kind, with the defaults of that kind. -/
def convert (stored : Descriptor) : Descriptor :=
  if stored.isData then
    { stored with value := none, writable := none, get := some .undefined, set := some .undefined }
  else
    { stored with value := some .undefined, writable := some false, get := none, set := none }

/-- The attributes of a request written over those of a stored property. -/
def override (stored d : Descriptor) : Descriptor :=
  { value := d.value <|> stored.value
    writable := d.writable <|> stored.writable
    get := d.get <|> stored.get
    set := d.set <|> stored.set
    enumerable := d.enumerable <|> stored.enumerable
    configurable := d.configurable <|> stored.configurable }

/-- The stored property after an accepted change. -/
def apply (stored current d : Descriptor) : Descriptor :=
  if isSettled current d then stored
  else override (if changesKind current d then convert stored else stored) d

/-- What is stored after a request was accepted where a property exists or not. -/
def definedOver (d : Descriptor) : Option Descriptor → Descriptor
  | none => d.initial
  | some current => current.apply current d

/-! ### Stored properties -/

/-- A property in storage is a data property or an accessor with every attribute given. -/
theorem isStorable_iff (d : Descriptor) :
    d.isStorable ↔ (∃ v w e c, d = data v w e c) ∨ ∃ g s e c, d = accessor g s e c := by
  constructor
  · intro h
    obtain ⟨value, writable, get, set, enumerable, configurable⟩ := d
    cases value <;> cases writable <;> cases get <;> cases set <;> cases enumerable <;>
      cases configurable <;>
      simp_all [isStorable, isValid, isFullyPopulated, isData, isAccessor, data, accessor]
  · rintro (⟨v, w, e, c, rfl⟩ | ⟨g, s, e, c, rfl⟩)
    · rfl
    · rfl

theorem isValid_iff (d : Descriptor) :
    d.isValid ↔ (d.value = none ∧ d.writable = none) ∨ (d.get = none ∧ d.set = none) := by
  simp [isValid, isData, isAccessor, Decidable.or_iff_not_imp_left]

theorem isStorable_initial (d : Descriptor) : d.initial.isStorable := by
  unfold initial
  split
  · rfl
  · rfl

theorem isStorable_convert {stored : Descriptor} (hs : stored.isStorable) :
    (convert stored).isStorable := by
  obtain ⟨v, w, e, c, rfl⟩ | ⟨g, s, e, c, rfl⟩ := (isStorable_iff stored).mp hs
  · rfl
  · rfl

theorem isAccessor_convert {stored : Descriptor} (hs : stored.isStorable) :
    (convert stored).isAccessor = !stored.isAccessor := by
  obtain ⟨v, w, e, c, rfl⟩ | ⟨g, s, e, c, rfl⟩ := (isStorable_iff stored).mp hs
  · rfl
  · rfl

/-- A request that leaves a data property one names no accessor. -/
theorem get_set_eq_none {d : Descriptor} {v : Value} {w e c : Bool} (hd : d.isValid)
    (hk : changesKind (data v w e c) d = false) : d.get = none ∧ d.set = none := by
  rcases (isValid_iff d).mp hd with h | h
  · simpa [changesKind, isGeneric, isData, isAccessor, h, data] using hk
  · exact h

/-- A request that leaves an accessor one names no data. -/
theorem value_writable_eq_none {d : Descriptor} {g s : Value} {e c : Bool} (hd : d.isValid)
    (hk : changesKind (accessor g s e c) d = false) : d.value = none ∧ d.writable = none := by
  rcases (isValid_iff d).mp hd with h | h
  · exact h
  · simpa [changesKind, isGeneric, isData, isAccessor, h, accessor] using hk

/-- A request over a property of its own kind leaves it with the attributes of that kind. -/
theorem isStorable_override {stored d : Descriptor} (hs : stored.isStorable) (hd : d.isValid)
    (hk : changesKind stored d = false) : (override stored d).isStorable := by
  obtain ⟨v, w, e, c, rfl⟩ | ⟨g, s, e, c, rfl⟩ := (isStorable_iff stored).mp hs
  · have hn := get_set_eq_none hd hk
    simp [override, data, hn, isStorable, isValid, isData, isAccessor, isFullyPopulated]
  · have hn := value_writable_eq_none hd hk
    simp [override, accessor, hn, isStorable, isValid, isData, isAccessor, isFullyPopulated]

theorem isStorable_apply {current d : Descriptor} (hs : current.isStorable) (hd : d.isValid) :
    (current.apply current d).isStorable := by
  unfold apply
  split
  · exact hs
  · split
    · next hk =>
      refine isStorable_override (isStorable_convert hs) hd ?_
      simp_all [changesKind, isAccessor_convert hs]
    · next hk => exact isStorable_override hs hd (by simpa using hk)

theorem isStorable_definedOver {d : Descriptor} {current : Option Descriptor} (hd : d.isValid)
    (hs : ∀ c, current = some c → c.isStorable) : (d.definedOver current).isStorable := by
  cases current with
  | none => exact isStorable_initial d
  | some c => exact isStorable_apply (hs c rfl) hd

end Descriptor
end ScriptEngine
