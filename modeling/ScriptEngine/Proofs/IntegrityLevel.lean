import Mathlib.Data.List.Sort
import ScriptEngine.Operation.Integrity
import ScriptEngine.Proofs.OwnKeys
import ScriptEngine.Proofs.ProxyTrap
import ScriptEngine.Proofs.StoredLength

/-!
# Sealing and freezing

To raise an object to a level of integrity, it is made not extensible and each of its properties is
asked to meet the level. Every property accepts that, whatever it is like, and no other property is
disturbed; afterwards the object meets the level, and to raise it once more has no effect.

There is one exception. Where the limit on the depth of calls has left an array with elements above
its length, asking for such an element raises the length, or is refused if the length is read-only.

## Main definitions

* `IntegrityLevel.fix`: a property that was made to meet a level.
* `Object.fixAt`, `Object.fixAll`: the object after one of its properties or all were fixed.
* `Object.HasRoomAlong`: none of the properties is refused in its turn.
* `Object.Bounded`: the elements of an array are below its length.
* `Object.Settled`: what raising an object to a level leaves.

## Main results

* `Object.defines_fixAt`: a property for which there is room is fixed.
* `Object.Bounded.get?_foldl`, `Object.Bounded.fixAll_fixAll`: what becomes of an object, once and
  again.
* `ObjectId.fixProperties_gives`: a list of properties is fixed as far as there is room.
* `setIntegrity_outcome`: sealing and freezing do what is tested for, with the exception.
-/

namespace ScriptEngine

open Engine

variable {H : HostTypes}

/-! ### One property -/

/-- A property that was made to meet a level. -/
def IntegrityLevel.fix (level : IntegrityLevel) (d : Descriptor) : Descriptor :=
  match level with
  | .sealed => { d with configurable := some false }
  | .frozen =>
    { d with
      writable := if d.isAccessor then d.writable else some false
      configurable := some false }

namespace IntegrityLevel

variable {level : IntegrityLevel} {d : Descriptor}

theorem request_isValid : (level.request d).isValid := by
  unfold request
  split
  · rfl
  · rfl

theorem value_request : (level.request d).value = none := by
  unfold request
  split
  · rfl
  · rfl

/-- Every property accepts to meet a level. -/
theorem accepts_request (hs : d.isStorable) : Descriptor.accepts d (level.request d) := by
  obtain ⟨v, w, e, c, rfl⟩ | ⟨g, s, e, c, rfl⟩ := (Descriptor.isStorable_iff d).mp hs
  all_goals cases level <;> cases c <;> first | rfl | (cases w <;> rfl)

theorem definedOver_request (hs : d.isStorable) :
    (level.request d).definedOver (some d) = level.fix d := by
  obtain ⟨v, w, e, c, rfl⟩ | ⟨g, s, e, c, rfl⟩ := (Descriptor.isStorable_iff d).mp hs
  all_goals cases level <;> cases c <;> first | rfl | (cases w <;> rfl)

theorem isStorable_fix (hs : d.isStorable) : (level.fix d).isStorable := by
  rw [← definedOver_request hs]
  exact Descriptor.isStorable_apply hs request_isValid

/-- To fix a property once more has no effect. -/
theorem fix_fix (level : IntegrityLevel) (d : Descriptor) :
    level.fix (level.fix d) = level.fix d := by
  cases level with
  | «sealed» => rfl
  | frozen =>
    have haccessor : (IntegrityLevel.frozen.fix d).isAccessor = d.isAccessor := rfl
    rw [fix, haccessor]
    cases ha : d.isAccessor with
    | false => simp only [fix, ha, Bool.false_eq_true, if_false]
    | true => simp only [fix, ha, if_true]

/-- A property that was fixed meets the level, and is sealed in any case. -/
theorem holds_fix (level : IntegrityLevel) (hs : d.isStorable) :
    level.holds (level.fix d) ∧ IntegrityLevel.sealed.holds (level.fix d) := by
  obtain ⟨v, w, e, c, rfl⟩ | ⟨g, s, e, c, rfl⟩ := (Descriptor.isStorable_iff d).mp hs
  all_goals cases level
  all_goals exact ⟨rfl, rfl⟩

theorem fix_data (level : IntegrityLevel) (v : Value) (w : Bool) {e c : Bool} :
    level.fix (.data v w e c) = .data v (level = .sealed && w) e false := by
  cases level <;> rfl

theorem isWritable_fix (hw : d.isWritable = false) : (level.fix d).isWritable = false := by
  cases level with
  | «sealed» => exact hw
  | frozen =>
    rw [Descriptor.isWritable, fix]
    split
    · exact hw
    · rfl

theorem lengthOf_fix (level : IntegrityLevel) (d : Descriptor) :
    ArrayObject.lengthOf (level.fix d) = ArrayObject.lengthOf d := by
  cases level <;> rfl

/-- The property of a code unit meets every level as it is. -/
theorem fix_unit (v : Value) : level.fix (.data v false true false) = .data v false true false := by
  cases level <;> rfl

end IntegrityLevel

/-! ### One property of an object -/

namespace PropertyMap

variable {m : PropertyMap} {k : PropertyKey} {d : Descriptor} {f : Descriptor → Descriptor}

/-- A property that is there keeps its place. -/
theorem keys_insert_of_some (h : m.get? k = some d) (e : Descriptor) :
    (m.insert k e).keys = m.keys := by
  have hcontains : m.contains k = true := by rw [contains, h]; rfl
  have hnames : (m.insert k e).names = m.names :=
    (names_insert m k e).resolve_right fun hnew => by simp [hnew.1] at hcontains
  have hindices : (m.insert k e).indices = m.indices := by
    refine (m.insert k e).pairwise_indices.eq_of_mem_iff m.pairwise_indices fun i => ?_
    rw [mem_indices, mem_indices, get?_insert]
    split
    · next heq => rw [heq, h]; simp
    · rfl
  rw [keys_eq, keys_eq, hnames, hindices]

theorem keys_modify : (m.modify k f).keys = m.keys := by
  cases hk : m.get? k with
  | none => rw [modify, hk]
  | some d => rw [modify_of_some hk, keys_insert_of_some hk]

end PropertyMap

namespace Object

variable {object : Object H} {k : PropertyKey} {d current : Descriptor} {level : IntegrityLevel}
  {ks : List PropertyKey}

/-- The object after one of its properties was fixed. The length of an array is above it then. -/
def fixAt (level : IntegrityLevel) (object : Object H) (k : PropertyKey) : Object H :=
  let fixed := object.properties.modify k level.fix
  { object with
    properties :=
      if object.kind.isArray then
        fixed.modify lengthKey fun current => ArrayObject.raisedTo current k.leastLength
      else fixed }

theorem get?_fixAt (level : IntegrityLevel) (object : Object H) (k k' : PropertyKey) :
    (object.fixAt level k).properties.get? k'
      = ((object.properties.get? k').map (if k' = k then level.fix else id)).map
        (if object.kind.isArray ∧ k' = lengthKey then (ArrayObject.raisedTo · k.leastLength)
          else id) := by
  unfold fixAt
  by_cases harray : object.kind.isArray
  · simp only [harray, if_true, true_and, PropertyMap.get?_modify]
    split <;> split <;> simp
  · simp only [harray, false_and, if_false, Option.map_id, id, PropertyMap.get?_modify,
      Bool.false_eq_true]
    split <;> simp

theorem keys_fixAt : (object.fixAt level k).properties.keys = object.properties.keys := by
  unfold fixAt
  split
  · simp only [PropertyMap.keys_modify]
  · exact PropertyMap.keys_modify

/-- The property of a code unit is not stored, and nothing is to be done to fix it. -/
theorem defines_fixAt_unit (hs : object.Sound) (hk : object.ownProperty? k = some d)
    {unit : Descriptor} (hu : object.kind.unitProperty? k = some unit) :
    object.Defines k (level.request d) (object.fixAt level k) true := by
  have hnone := hs.unshadowed k (by rw [hu]; rfl)
  obtain rfl : unit = d := by
    rw [ownProperty?, hnone, hu, Option.none_or] at hk
    exact Option.some.inj hk
  have hnot : ¬object.kind.isArray := fun harray => by
    simp [unitless_of_isArray harray k] at hu
  have hsame : object.fixAt level k = object := by
    rw [fixAt, if_neg hnot, PropertyMap.modify_eq_self fun d hd => by simp [hnone] at hd]
  have haccepts : unit.accepts (level.request unit) = true := by
    obtain ⟨v, rfl⟩ := ObjectKind.unitProperty?_eq_some hu
    exact IntegrityLevel.accepts_request rfl
  rw [hsame, ← haccepts]
  exact .unit hu

section Stored

variable (hstored : object.properties.get? k = some d) (hd : d.isStorable)

include hstored hd

theorem accepts_request_of_stored : object.accepts k (level.request d) := by
  rw [accepts, hstored]
  exact IntegrityLevel.accepts_request hd

/-- Defining a stored property as its level requests fixes it. -/
theorem properties_define_request :
    (object.define k (level.request d)).properties = object.properties.modify k level.fix := by
  rw [define, PropertyMap.define, hstored, IntegrityLevel.definedOver_request hd,
    PropertyMap.modify_of_some hstored]

theorem defines_fixAt_element {i : ArrayIndex} (hk : k = .index i) (harray : object.kind.isArray)
    (hstores : object.StoresLength) (hroom : object.HasRoomFor k) :
    object.Defines k (level.request d) (object.fixAt level k) true := by
  subst hk
  obtain ⟨x, w, hc⟩ := hstores harray
  have haccepts : object.accepts (.index i) (level.request d) :=
    accepts_request_of_stored hstored hd
  have hdone := (defineElement_done_iff harray hc).mpr ⟨haccepts, hroom⟩
  have hdefines := Defines.element i (d := level.request d) _ harray hc
  rw [hdone, defineElement_of_done harray hc rfl hdone,
    properties_define_request hstored hd] at hdefines
  rw [fixAt, if_pos harray]
  exact hdefines

theorem defines_fixAt_plain (hu : object.kind.unitProperty? k = none)
    (hplain : object.kind.isArray → k.leastLength = 0 ∧ ∀ i, k ≠ .index i) :
    object.Defines k (level.request d) (object.fixAt level k) true := by
  have haccepts : object.accepts k (level.request d) := accepts_request_of_stored hstored hd
  have hdefines : object.Defines k (level.request d) _ _ := .stored hu fun harray =>
    ⟨(hplain harray).2, fun _ => IntegrityLevel.value_request⟩
  rw [defined_of_accepts haccepts, haccepts] at hdefines
  -- what is no element raises no length
  have hsame : object.fixAt level k = object.define k (level.request d) := by
    rw [fixAt, ← properties_define_request hstored hd]
    split
    · next harray =>
      rw [PropertyMap.modify_eq_self fun c _ => by
        rw [(hplain harray).1, ArrayObject.raisedTo_of_le (Nat.zero_le _)]]
      rfl
    · rfl
  rwa [hsame]

end Stored

/-- An object that has a property, and room for it, lets the property be fixed. -/
theorem defines_fixAt (hs : object.Sound) (hstores : object.StoresLength)
    (hk : object.ownProperty? k = some d) (hroom : object.HasRoomFor k) :
    object.Defines k (level.request d) (object.fixAt level k) true := by
  cases hu : object.kind.unitProperty? k with
  | some unit => exact defines_fixAt_unit hs hk hu
  | none =>
    have hstored := (ownProperty?_of_unitProperty?_eq_none hu).symm.trans hk
    have hd := hs.storable k d hstored
    cases k with
    | index i =>
      by_cases harray : object.kind.isArray
      · exact defines_fixAt_element hstored hd rfl harray hstores hroom
      · exact defines_fixAt_plain hstored hd hu fun h => absurd h harray
    | string | symbol => exact defines_fixAt_plain hstored hd hu fun _ => ⟨rfl, nofun⟩

/-- An element for which there is no room is left as it is. -/
theorem defines_of_not_hasRoomFor (hstores : object.StoresLength) (hroom : ¬object.HasRoomFor k)
    (d : Descriptor) : object.Defines k d object false := by
  have harray : object.kind.isArray := by
    by_contra hnot
    exact hroom fun harray => absurd harray hnot
  obtain ⟨i, rfl⟩ : ∃ i, k = .index i := by
    cases k with
    | index i => exact ⟨i, rfl⟩
    | _ => exact absurd (hasRoomFor_of_leastLength_eq_zero rfl) hroom
  obtain ⟨x, w, hc⟩ := hstores harray
  have hdefines := Defines.element i (d := d) _ harray hc
  have hdone : (object.defineElement (.data x w false false) i d).2 = false := by
    rw [← Bool.not_eq_true, defineElement_done_iff harray hc]
    exact fun h => hroom h.2
  rw [hdone] at hdefines
  rwa [hdefines.eq_of_refused rfl fun h => by simp [lengthKey] at h] at hdefines

/-! ### Several properties -/

theorem isSome_ownProperty?_fixAt (k' : PropertyKey) :
    ((object.fixAt level k).ownProperty? k').isSome = (object.ownProperty? k').isSome := by
  rw [ownProperty?, ownProperty?, get?_fixAt, Option.isSome_or, Option.isSome_or, Option.isSome_map,
    Option.isSome_map]
  rfl

theorem get?_fixAt_of_not {k' : PropertyKey} (h : ¬(object.kind.isArray ∧ k' = lengthKey)) :
    (object.fixAt level k).properties.get? k'
      = (object.properties.get? k').map (if k' = k then level.fix else id) := by
  rw [get?_fixAt, if_neg h, Option.map_id, id]

/-- The length is fixed in its turn, and raised above each element before. -/
theorem get?_lengthKey_fixAt (level : IntegrityLevel) (k : PropertyKey)
    (harray : object.kind.isArray) (hc : object.properties.get? lengthKey = some current) :
    (object.fixAt level k).properties.get? lengthKey
      = some (if k = lengthKey then level.fix current
          else ArrayObject.raisedTo current k.leastLength) := by
  rw [get?_fixAt, hc, if_pos ⟨harray, rfl⟩, Option.map_some, Option.map_some]
  by_cases hk : k = lengthKey
  · subst hk
    rw [if_pos rfl, if_pos rfl]
    exact congrArg some (ArrayObject.raisedTo_of_le (Nat.zero_le _))
  · rw [if_neg hk, if_neg (Ne.symm hk), id]

theorem StoresLength.fixAt (h : object.StoresLength) (level : IntegrityLevel) (k : PropertyKey) :
    (object.fixAt level k).StoresLength := by
  intro harray
  have harray' : object.kind.isArray := harray
  obtain ⟨v, w, hc⟩ := h harray'
  rw [get?_lengthKey_fixAt level k harray' hc]
  split
  · exact ⟨v, _, congrArg some (IntegrityLevel.fix_data level v w)⟩
  · exact ⟨_, w, congrArg some (ArrayObject.raisedTo_data v w _)⟩

theorem Sound.fixAt (hs : object.Sound) (hstores : object.StoresLength) :
    (object.fixAt level k).Sound where
  storable k' d' hd := by
    by_cases hlength : object.kind.isArray ∧ k' = lengthKey
    · obtain ⟨harray, rfl⟩ := hlength
      obtain ⟨v, w, hc⟩ := hstores.fixAt level k harray
      cases hc.symm.trans hd
      rfl
    · rw [get?_fixAt_of_not hlength] at hd
      obtain ⟨d, hstored, rfl⟩ := Option.map_eq_some_iff.mp hd
      split
      · exact IntegrityLevel.isStorable_fix (hs.storable k' d hstored)
      · exact hs.storable k' d hstored
  unshadowed k' hu := by rw [get?_fixAt, hs.unshadowed k' hu]; rfl
  lengthless hp := by rw [get?_fixAt, hs.lengthless hp]; rfl

/-- There is room for each of the properties in its turn. -/
def HasRoomAlong (level : IntegrityLevel) : List PropertyKey → Object H → Prop
  | [], _ => True
  | k :: ks, object => object.HasRoomFor k ∧ HasRoomAlong level ks (object.fixAt level k)

/-- There is room for all properties, or there is a first one for which there is none. -/
theorem hasRoomAlong_or_exists_not (level : IntegrityLevel) (ks : List PropertyKey)
    (object : Object H) : object.HasRoomAlong level ks ∨ ∃ before k after,
      ks = before ++ k :: after ∧ object.HasRoomAlong level before
        ∧ ¬(before.foldl (Object.fixAt level) object).HasRoomFor k := by
  induction ks generalizing object with
  | nil => exact .inl trivial
  | cons k ks ih =>
    by_cases hroom : object.HasRoomFor k
    · rcases ih (object.fixAt level k) with h | ⟨before, k', after, rfl, hbefore, hnot⟩
      · exact .inl ⟨hroom, h⟩
      · exact .inr ⟨k :: before, k', after, rfl, ⟨hroom, hbefore⟩, hnot⟩
    · exact .inr ⟨[], k, ks, rfl, trivial, hroom⟩

/-- There is room for what is no element. -/
theorem hasRoomAlong_of_forall (h : ∀ k ∈ ks, k.leastLength = 0) :
    object.HasRoomAlong level ks := by
  induction ks generalizing object with
  | nil => trivial
  | cons k ks ih =>
    rw [List.forall_mem_cons] at h
    exact ⟨hasRoomFor_of_leastLength_eq_zero h.1, ih h.2⟩

/-- While the length is writable, there is room for all elements. -/
theorem hasRoomAlong_of_isWritable (harray : object.kind.isArray)
    (hc : object.properties.get? lengthKey = some current) (hw : current.isWritable)
    (indices : List ArrayIndex) (hks : ∀ k ∈ ks, k.leastLength = 0) :
    object.HasRoomAlong level (indices.map .index ++ ks) := by
  induction indices generalizing object current with
  | nil => exact hasRoomAlong_of_forall hks
  | cons i indices ih =>
    have hc' := get?_lengthKey_fixAt level (.index i) harray hc
    rw [if_neg (by simp [lengthKey])] at hc'
    refine ⟨(hasRoomFor_iff harray hc).mpr fun _ => hw, ih harray hc' ?_⟩
    rwa [ArrayObject.isWritable_raisedTo]

/-- A length that is read-only has room for the elements below it alone. -/
theorem HasRoomAlong.leastLength_le (h : object.HasRoomAlong level ks)
    (harray : object.kind.isArray) (hc : object.properties.get? lengthKey = some current)
    (hw : current.isWritable = false) : ∀ k ∈ ks, k.leastLength ≤ ArrayObject.lengthOf current := by
  induction ks generalizing object current with
  | nil => exact fun k hk => by cases hk
  | cons k ks ih =>
    obtain ⟨hroom, h⟩ := h
    have hle : k.leastLength ≤ ArrayObject.lengthOf current := by
      rw [← Nat.not_lt]
      intro hlt
      simp [(hasRoomFor_iff harray hc).mp hroom hlt] at hw
    have hc' := get?_lengthKey_fixAt level k harray hc
    rw [ArrayObject.raisedTo_of_le hle] at hc'
    refine List.forall_mem_cons.mpr ⟨hle, ?_⟩
    split at hc'
    · have h := ih h harray hc' (IntegrityLevel.isWritable_fix hw)
      rwa [IntegrityLevel.lengthOf_fix] at h
    · exact ih h harray hc' hw

/-- The length does not get smaller, and it gets above all elements. -/
theorem exists_length_foldl (level : IntegrityLevel) (ks : List PropertyKey)
    (harray : object.kind.isArray)
    (hc : object.properties.get? lengthKey = some current) : ∃ current',
      (ks.foldl (Object.fixAt level) object).properties.get? lengthKey = some current'
        ∧ ArrayObject.lengthOf current ≤ ArrayObject.lengthOf current'
        ∧ ∀ k ∈ ks, k.leastLength ≤ ArrayObject.lengthOf current' := by
  induction ks generalizing object current with
  | nil => exact ⟨current, hc, Nat.le_refl _, fun k hk => by cases hk⟩
  | cons k ks ih =>
    have harray' : (object.fixAt level k).kind.isArray := harray
    obtain ⟨current', hc', hle, hks⟩ := ih harray' (get?_lengthKey_fixAt level k harray hc)
    have hmax : max (ArrayObject.lengthOf current) k.leastLength
        ≤ ArrayObject.lengthOf current' := by
      refine Nat.le_trans (Nat.le_of_eq ?_) hle
      split
      · next heq =>
        rw [IntegrityLevel.lengthOf_fix, heq]
        exact Nat.max_eq_left (Nat.zero_le _)
      · exact (ArrayObject.lengthOf_raisedTo current k.leastLength_lt).symm
    exact ⟨current', hc', (Nat.max_le.mp hmax).1,
      List.forall_mem_cons.mpr ⟨(Nat.max_le.mp hmax).2, hks⟩⟩

theorem foldl_fixAt_eq (level : IntegrityLevel) (ks : List PropertyKey) (object : Object H) :
    ks.foldl (Object.fixAt level) object
      = { object with properties := (ks.foldl (Object.fixAt level) object).properties } := by
  induction ks generalizing object with
  | nil => rfl
  | cons k ks ih =>
    rw [List.foldl_cons, ih]
    rfl

theorem isSome_ownProperty?_foldl (level : IntegrityLevel) (ks : List PropertyKey)
    (object : Object H) (k : PropertyKey) :
    ((ks.foldl (Object.fixAt level) object).ownProperty? k).isSome
      = (object.ownProperty? k).isSome := by
  induction ks generalizing object with
  | nil => rfl
  | cons k' ks ih => rw [List.foldl_cons, ih, isSome_ownProperty?_fixAt]

theorem StoresLength.foldl (h : object.StoresLength) (level : IntegrityLevel)
    (ks : List PropertyKey) : (ks.foldl (Object.fixAt level) object).StoresLength := by
  induction ks generalizing object with
  | nil => exact h
  | cons k ks ih => exact ih (h.fixAt level k)

theorem keys_foldl_fixAt (level : IntegrityLevel) (ks : List PropertyKey) (object : Object H) :
    (ks.foldl (Object.fixAt level) object).properties.keys = object.properties.keys := by
  induction ks generalizing object with
  | nil => rfl
  | cons k ks ih => rw [List.foldl_cons, ih, keys_fixAt]

/-! ### Arrays whose elements are below the length -/

/-- Every element of an array is below its length. -/
def Bounded (object : Object H) : Prop :=
  object.kind.isArray → ∀ current, object.properties.get? lengthKey = some current →
    ∀ i : ArrayIndex, (object.properties.get? (.index i)).isSome →
      i.val < ArrayObject.lengthOf current

theorem InOrder.bounded (h : object.InOrder) : object.Bounded := by
  intro harray current hc i hi
  obtain ⟨length, writable, hlength⟩ := h harray
  cases hlength.stored.symm.trans hc
  rw [ArrayObject.lengthOf_eq hlength.small rfl]
  exact hlength.below i hi

namespace Bounded

theorem leastLength_le (h : object.Bounded) (harray : object.kind.isArray)
    (hc : object.properties.get? lengthKey = some current) (hk : (object.ownProperty? k).isSome) :
    k.leastLength ≤ ArrayObject.lengthOf current := by
  rw [ownProperty?_of_unitProperty?_eq_none (unitless_of_isArray harray k)] at hk
  cases k with
  | index i => exact h harray current hc i hk
  | _ => exact Nat.zero_le _

theorem hasRoomFor (h : object.Bounded) (hk : (object.ownProperty? k).isSome) :
    object.HasRoomFor k :=
  fun harray _ hc hlt => absurd (h.leastLength_le harray hc hk) (Nat.not_le.mpr hlt)

theorem get?_fixAt (h : object.Bounded) (hk : (object.ownProperty? k).isSome) (k' : PropertyKey) :
    (object.fixAt level k).properties.get? k'
      = (object.properties.get? k').map (if k' = k then level.fix else id) := by
  by_cases hlength : object.kind.isArray ∧ k' = lengthKey
  · obtain ⟨harray, rfl⟩ := hlength
    cases hc : object.properties.get? lengthKey with
    | none => rw [Object.get?_fixAt, hc]; rfl
    | some current =>
      rw [get?_lengthKey_fixAt level k harray hc,
        ArrayObject.raisedTo_of_le (h.leastLength_le harray hc hk), Option.map_some]
      by_cases heq : k = lengthKey
      · rw [if_pos heq, if_pos heq.symm]
      · rw [if_neg heq, if_neg (Ne.symm heq), id]
  · exact get?_fixAt_of_not hlength

theorem fixAt (h : object.Bounded) (hk : (object.ownProperty? k).isSome) :
    (object.fixAt level k).Bounded := by
  intro harray current' hc' i hi
  rw [h.get?_fixAt hk] at hc' hi
  obtain ⟨current, hc, rfl⟩ := Option.map_eq_some_iff.mp hc'
  rw [Option.isSome_map] at hi
  have hlt := h harray current hc i hi
  split
  · rwa [IntegrityLevel.lengthOf_fix]
  · exact hlt

theorem hasRoomAlong (h : object.Bounded) (hks : ∀ k ∈ ks, (object.ownProperty? k).isSome) :
    object.HasRoomAlong level ks := by
  induction ks generalizing object with
  | nil => trivial
  | cons k ks ih =>
    obtain ⟨hk, hks⟩ := List.forall_mem_cons.mp hks
    refine ⟨h.hasRoomFor hk, ih (h.fixAt hk) fun k' hk' => ?_⟩
    rw [isSome_ownProperty?_fixAt]
    exact hks k' hk'

/-- Each of the properties is fixed, and nothing else happens. -/
theorem get?_foldl (h : object.Bounded) (hks : ∀ k ∈ ks, (object.ownProperty? k).isSome)
    (k' : PropertyKey) : (ks.foldl (Object.fixAt level) object).properties.get? k'
      = (object.properties.get? k').map (if k' ∈ ks then level.fix else id) := by
  induction ks generalizing object with
  | nil => simp
  | cons k ks ih =>
    obtain ⟨hk, hks⟩ := List.forall_mem_cons.mp hks
    rw [List.foldl_cons, ih (h.fixAt hk) fun k' hk' => by
      rw [isSome_ownProperty?_fixAt]
      exact hks k' hk']
    rw [h.get?_fixAt hk, Option.map_map]
    congr 1
    by_cases heq : k' = k
    · subst heq
      rw [if_pos rfl, if_pos List.mem_cons_self]
      funext d
      rw [Function.comp_apply]
      split
      · exact IntegrityLevel.fix_fix level d
      · rfl
    · rw [if_neg heq, Function.comp_id]
      simp only [List.mem_cons, heq, false_or]

end Bounded

theorem exists_of_not_bounded (h : ¬object.Bounded) : object.kind.isArray
    ∧ ∃ current, object.properties.get? lengthKey = some current
      ∧ ∃ i : ArrayIndex, (object.properties.get? (.index i)).isSome
        ∧ ArrayObject.lengthOf current ≤ i.val := by
  simpa [Bounded] using h

/-! ### All properties -/

/-- The object after it was raised to a level. -/
def fixAll (level : IntegrityLevel) (object : Object H) : Object H :=
  object.ownKeys.foldl (Object.fixAt level) { object with extensible := false }

theorem fixAll_eq (level : IntegrityLevel) (object : Object H) : object.fixAll level
    = { object with extensible := false, properties := (object.fixAll level).properties } :=
  foldl_fixAt_eq level object.ownKeys { object with extensible := false }

/-- What raising an object to a level leaves: the same keys in the same order, each property with no
more changed than the level asks for, and nothing else but that the object is not extensible. -/
structure Settled (level : IntegrityLevel) (object after : Object H) : Prop where
  keys : after.ownKeys = object.ownKeys
  own : ∀ k, after.ownProperty? k = (object.ownProperty? k).map level.fix
  rest : after = { object with extensible := false, properties := after.properties }

theorem Bounded.get?_fixAll (h : object.Bounded) (level : IntegrityLevel) (k : PropertyKey) :
    (object.fixAll level).properties.get? k = (object.properties.get? k).map level.fix := by
  have hbounded : ({ object with extensible := false } : Object H).Bounded := h
  have hks : ∀ k ∈ object.ownKeys, (object.ownProperty? k).isSome :=
    fun k hk => isSome_ownProperty?_of_mem_ownKeys hk
  rw [fixAll, hbounded.get?_foldl hks]
  cases hk : object.properties.get? k with
  | none => rfl
  | some d =>
    have hmem : k ∈ object.ownKeys :=
      List.mem_append_right _ (PropertyMap.mem_keys.mpr (by rw [hk]; rfl))
    rw [if_pos hmem]

theorem Bounded.settled_fixAll (h : object.Bounded) (level : IntegrityLevel) :
    object.Settled level (object.fixAll level) where
  keys := by
    rw [ownKeys, ownKeys, fixAll_eq]
    exact congrArg _ (keys_foldl_fixAt level object.ownKeys { object with extensible := false })
  own k := by
    have hkind : (object.fixAll level).kind = object.kind := by rw [fixAll_eq]
    have hunit : (object.kind.unitProperty? k).map level.fix = object.kind.unitProperty? k := by
      cases hu : object.kind.unitProperty? k with
      | none => rfl
      | some unit =>
        obtain ⟨v, rfl⟩ := ObjectKind.unitProperty?_eq_some hu
        exact congrArg some (IntegrityLevel.fix_unit v)
    rw [ownProperty?, ownProperty?, h.get?_fixAll, hkind, Option.map_or, hunit]
  rest := fixAll_eq level object

/-- An object whose properties are fixed stays as it is. -/
theorem foldl_fixAt_eq_self (hb : object.Bounded)
    (hfixed : ∀ k d, object.properties.get? k = some d → level.fix d = d)
    (hks : ∀ k ∈ ks, (object.ownProperty? k).isSome) :
    ks.foldl (Object.fixAt level) object = object := by
  induction ks with
  | nil => rfl
  | cons k ks ih =>
    obtain ⟨hk, hks⟩ := List.forall_mem_cons.mp hks
    have hsame : object.fixAt level k = object := by
      have hmodify : object.properties.modify k level.fix = object.properties :=
        PropertyMap.modify_eq_self (hfixed k)
      rw [Object.fixAt, hmodify]
      split
      · next harray =>
        rw [PropertyMap.modify_eq_self fun current hc =>
          ArrayObject.raisedTo_of_le (hb.leastLength_le harray hc hk)]
      · rfl
    rw [List.foldl_cons, hsame, ih hks]

theorem Bounded.fixAll (h : object.Bounded) (level : IntegrityLevel) :
    (object.fixAll level).Bounded := by
  intro harray current' hc' i hi
  rw [h.get?_fixAll] at hc' hi
  rw [fixAll_eq] at harray
  obtain ⟨current, hc, rfl⟩ := Option.map_eq_some_iff.mp hc'
  rw [Option.isSome_map] at hi
  rw [IntegrityLevel.lengthOf_fix]
  exact h harray current hc i hi

/-- To raise an object to a level once more has no effect. -/
theorem Bounded.fixAll_fixAll (h : object.Bounded) (level : IntegrityLevel) :
    (object.fixAll level).fixAll level = object.fixAll level := by
  have hextensible : ({ object.fixAll level with extensible := false } : Object H)
      = object.fixAll level := by rw [fixAll_eq]
  rw [Object.fixAll, hextensible]
  refine foldl_fixAt_eq_self (h.fixAll level) (fun k d hd => ?_)
    fun k hk => isSome_ownProperty?_of_mem_ownKeys hk
  rw [h.get?_fixAll] at hd
  obtain ⟨e, -, rfl⟩ := Option.map_eq_some_iff.mp hd
  exact IntegrityLevel.fix_fix level e

/-- An array lists its elements first. -/
theorem exists_ownKeys_eq (harray : object.kind.isArray) : ∃ names : List PropertyKey,
    object.ownKeys = object.properties.indices.map .index ++ names
      ∧ ∀ k ∈ names, k.leastLength = 0 := by
  have hunits : object.kind.unitIndices = [] := by
    refine List.eq_nil_iff_forall_not_mem.mpr fun i hi => ?_
    have hunit := ObjectKind.isSome_unitProperty?_of_mem_unitIndices hi
    rw [unitless_of_isArray harray] at hunit
    cases hunit
  refine ⟨_, by rw [ownKeys, hunits, PropertyMap.keys_eq, List.append_assoc]; rfl, fun k hk => ?_⟩
  have hname : k ∈ object.properties.names := by
    rcases List.mem_append.mp hk with hk | hk <;> exact (List.mem_filter.mp hk).1
  cases k with
  | index i => cases PropertyMap.index?_of_mem_names hname
  | _ => rfl

end Object

/-! ### The operations -/

section Operations

variable {host : Host H} {bound : Nat} {realm : Realm H} {o : ObjectId} {object after : Object H}
  {k : PropertyKey} {d : Descriptor} {level : IntegrityLevel} {ks : List PropertyKey} {done : Bool}

theorem Dispatch.preventExtensions_of_isPlain {s : Surroundings H}
    (ho : realm.object? o = some object) (hp : object.kind.isPlain) :
    Dispatch.preventExtensions o s realm = Ordinary.preventExtensions o s realm :=
  Action.getKind_bind_of_isPlain ho hp

theorem ObjectId.preventExtensions_gives (ho : realm.object? o = some object)
    (hp : object.kind.isPlain) (hl : ¬realm.AtLimit) :
    Gives 1 bound (o.preventExtensions.act (.bounded host bound) realm)
      (.ok true (realm.putObject o { object with extensible := false })) := by
  have ho' : realm.deeper.object? o = some object := ho
  refine Gives.answer fun bound => .of_eq (Action.nested_of_ok hl ?_)
  rw [Dispatch.preventExtensions_of_isPlain ho' hp]
  exact Action.bind_of_ok (Action.modifyObject_of_some ho')

theorem Object.Defines.defineOrThrow_gives (h : object.Defines k d after done)
    (ho : realm.object? o = some object) (hp : object.kind.isPlain) (hd : d.isValid)
    (hl : ¬realm.deeper.deeper.AtLimit) :
    Gives 3 bound ((o.defineOrThrow k d).act (.bounded host bound) realm)
      (if done then .ok () (realm.putObject o after)
        else .error (.failure (.typeError ("Cannot redefine property: " ++ k.text)))
          (realm.putObject o after)) := by
  have hdefine : Gives 3 bound ((o.defineOwnProperty k d).act (.bounded host bound) realm)
      (.ok done (realm.putObject o after)) := h.gives ho hp hd hl
  refine hdefine.bindEngine (.of_eq ?_)
  cases done <;> rfl

/-- To fix a property that is there is to ask for it to meet the level. -/
theorem ObjectId.fixProperty_gives {expected : EStateM.Result Stop (Realm H) Unit}
    (ho : realm.object? o = some object) (hp : object.kind.isPlain) (hl : ¬realm.AtLimit)
    (hk : object.ownProperty? k = some d)
    (h : Gives 3 bound ((o.defineOrThrow k (level.request d)).act (.bounded host bound) realm)
      expected) :
    Gives 3 bound ((o.fixProperty level k).act (.bounded host bound) realm) expected := by
  cases level with
  | «sealed» => exact h
  | frozen =>
    refine ((ObjectId.getOwnProperty_gives ho hp hl k).mono (by decide)).bindEngine ?_
    rw [hk]
    exact h

/-- Properties for which there is room are fixed before the others. -/
theorem ObjectId.fixProperties_gives {expected : EStateM.Result Stop (Realm H) Unit}
    (rest : List PropertyKey) (ho : realm.object? o = some object) (hp : object.kind.isPlain)
    (hs : object.Sound) (hstores : object.StoresLength)
    (hks : ∀ k ∈ ks, (object.ownProperty? k).isSome) (hroom : object.HasRoomAlong level ks)
    (hl : ¬realm.deeper.deeper.AtLimit)
    (hrest : Gives 3 bound ((rest.forM (o.fixProperty level)).act (.bounded host bound)
      (realm.putObject o (ks.foldl (Object.fixAt level) object))) expected) :
    Gives 3 bound (((ks ++ rest).forM (o.fixProperty level)).act (.bounded host bound) realm)
      expected := by
  induction ks generalizing realm object with
  | nil =>
    rw [List.foldl_nil, Realm.putObject_self ho] at hrest
    exact hrest
  | cons k ks ih =>
    obtain ⟨hk, hks⟩ := List.forall_mem_cons.mp hks
    obtain ⟨d, hd⟩ := Option.isSome_iff_exists.mp hk
    have hl' : ¬realm.AtLimit := fun h => hl (Realm.deeper_atLimit (Realm.deeper_atLimit h))
    have hdefines : object.Defines k (level.request d) (object.fixAt level k) true :=
      Object.defines_fixAt hs hstores hd hroom.1
    refine (ObjectId.fixProperty_gives ho hp hl' hd
      (hdefines.defineOrThrow_gives ho hp IntegrityLevel.request_isValid hl)).bindEngine ?_
    have ho' : (realm.putObject o (object.fixAt level k)).object? o
        = some (object.fixAt level k) := Realm.object?_putObject_self ho
    have hks' : ∀ k' ∈ ks, ((object.fixAt level k).ownProperty? k').isSome := fun k' hk' => by
      rw [Object.isSome_ownProperty?_fixAt]
      exact hks k' hk'
    refine ih ho' hp (hs.fixAt hstores) (hstores.fixAt level k) hks' hroom.2 hl ?_
    rwa [Realm.putObject_putObject]

/-- An element for which there is no room is not fixed. -/
theorem ObjectId.fixProperty_gives_of_not_hasRoomFor (ho : realm.object? o = some object)
    (hp : object.kind.isPlain) (hstores : object.StoresLength)
    (hk : (object.ownProperty? k).isSome) (hroom : ¬object.HasRoomFor k)
    (hl : ¬realm.deeper.deeper.AtLimit) :
    Gives 3 bound ((o.fixProperty level k).act (.bounded host bound) realm)
      (.error (.failure (.typeError ("Cannot redefine property: " ++ k.text))) realm) := by
  obtain ⟨d, hd⟩ := Option.isSome_iff_exists.mp hk
  have hl' : ¬realm.AtLimit := fun h => hl (Realm.deeper_atLimit (Realm.deeper_atLimit h))
  have hthrow : Gives 3 bound
      ((o.defineOrThrow k (level.request d)).act (.bounded host bound) realm)
      (.error (.failure (.typeError ("Cannot redefine property: " ++ k.text)))
        (realm.putObject o object)) :=
    (Object.defines_of_not_hasRoomFor hstores hroom _).defineOrThrow_gives ho hp
      IntegrityLevel.request_isValid hl
  rw [Realm.putObject_self ho] at hthrow
  exact ObjectId.fixProperty_gives ho hp hl' hd hthrow

/-- To raise an object to a level is to fix its keys once it is not extensible. -/
theorem ObjectId.setIntegrity_gives (ho : realm.object? o = some object) (hp : object.kind.isPlain)
    (hl : ¬realm.AtLimit) {expected : EStateM.Result Stop (Realm H) Bool}
    (h : Gives 3 bound ((object.ownKeys.forM (o.fixProperty level) >>= fun _ => pure true).act
      (.bounded host bound) (realm.putObject o { object with extensible := false })) expected) :
    Gives 3 bound ((o.setIntegrity level).act (.bounded host bound) realm) expected := by
  have ho' : (realm.putObject o { object with extensible := false }).object? o
    = some { object with extensible := false } := Realm.object?_putObject_self ho
  unfold ObjectId.setIntegrity
  refine ((ObjectId.preventExtensions_gives ho hp hl).mono (by decide)).bindEngine ?_
  exact ((ObjectId.ownKeys_gives ho' hp hl).mono (by decide)).bindEngine h

theorem ObjectId.allHold_gives (ho : realm.object? o = some object) (hp : object.kind.isPlain)
    (hl : ¬realm.AtLimit)
    (h : ∀ k ∈ ks, ∀ d, object.ownProperty? k = some d → level.holds d) :
    Gives 1 bound ((o.allHold level ks).act (.bounded host bound) realm) (.ok true realm) := by
  induction ks with
  | nil => exact .of_eq rfl
  | cons k ks ih =>
    obtain ⟨hk, hks⟩ := List.forall_mem_cons.mp h
    refine (ObjectId.getOwnProperty_gives ho hp hl k).bindEngine ?_
    cases hd : object.ownProperty? k with
    | none => exact ih hks
    | some d =>
      simp only [hk d hd, if_true]
      exact ih hks

theorem ObjectId.testIntegrity_gives (ho : realm.object? o = some object)
    (hp : object.kind.isPlain) (hl : ¬realm.AtLimit) (hx : object.extensible = false)
    (h : ∀ k d, object.ownProperty? k = some d → level.holds d) :
    Gives 1 bound ((o.testIntegrity level).act (.bounded host bound) realm) (.ok true realm) := by
  refine (ObjectId.isExtensible_gives ho hp hl).bindEngine ?_
  rw [hx, if_neg Bool.false_ne_true]
  refine (ObjectId.ownKeys_gives ho hp hl).bindEngine ?_
  exact ObjectId.allHold_gives ho hp hl fun k _ => h k

/-- The keys of an object that is not extensible any more are fixed as far as there is room. -/
theorem ObjectId.fixOwnKeys_gives {before rest : List PropertyKey}
    {expected : EStateM.Result Stop (Realm H) Unit} (ho : realm.object? o = some object)
    (hp : object.kind.isPlain) (hs : object.Sound) (hstores : object.StoresLength)
    (hkeys : object.ownKeys = before ++ rest)
    (hbefore : ({ object with extensible := false } : Object H).HasRoomAlong level before)
    (hl : ¬realm.deeper.deeper.AtLimit)
    (hrest : Gives 3 bound ((rest.forM (o.fixProperty level)).act (.bounded host bound)
      (realm.putObject o (before.foldl (Object.fixAt level) { object with extensible := false })))
      expected) :
    Gives 3 bound ((object.ownKeys.forM (o.fixProperty level)).act (.bounded host bound)
      (realm.putObject o { object with extensible := false })) expected := by
  have ho' : (realm.putObject o { object with extensible := false }).object? o
    = some { object with extensible := false } := Realm.object?_putObject_self ho
  have hs' : ({ object with extensible := false } : Object H).Sound :=
    ⟨hs.storable, hs.unshadowed, hs.lengthless⟩
  have hks : ∀ k ∈ before, (object.ownProperty? k).isSome := fun k hk =>
    Object.isSome_ownProperty?_of_mem_ownKeys (hkeys ▸ List.mem_append_left rest hk)
  rw [hkeys]
  refine ObjectId.fixProperties_gives rest ho' hp hs' hstores hks hbefore hl ?_
  rwa [Realm.putObject_putObject]

/-- Where there is room for all its properties, an object is raised to a level. -/
theorem ObjectId.setIntegrity_gives_fixAll (ho : realm.object? o = some object)
    (hp : object.kind.isPlain) (hs : object.Sound) (hstores : object.StoresLength)
    (hroom : ({ object with extensible := false } : Object H).HasRoomAlong level object.ownKeys)
    (hl : ¬realm.deeper.deeper.AtLimit) :
    Gives 3 bound ((o.setIntegrity level).act (.bounded host bound) realm)
      (.ok true (realm.putObject o (object.fixAll level))) := by
  have hl' : ¬realm.AtLimit := fun h => hl (Realm.deeper_atLimit (Realm.deeper_atLimit h))
  have hloop : Gives 3 bound ((object.ownKeys.forM (o.fixProperty level)).act
      (.bounded host bound) (realm.putObject o { object with extensible := false }))
      (.ok () (realm.putObject o (object.fixAll level))) :=
    ObjectId.fixOwnKeys_gives ho hp hs hstores (List.append_nil _).symm hroom hl (.of_eq rfl)
  exact ObjectId.setIntegrity_gives ho hp hl' (hloop.bindEngine (.of_eq rfl))

/-- Where there is no room for an element, raising the array to a level ends there. -/
theorem ObjectId.setIntegrity_gives_of_not_hasRoomFor {before later : List PropertyKey}
    (ho : realm.object? o = some object) (hp : object.kind.isPlain) (hs : object.Sound)
    (hstores : object.StoresLength) (hkeys : object.ownKeys = before ++ k :: later)
    (hbefore : ({ object with extensible := false } : Object H).HasRoomAlong level before)
    (hroom : ¬(before.foldl (Object.fixAt level) { object with extensible := false }).HasRoomFor k)
    (hl : ¬realm.deeper.deeper.AtLimit) :
    Gives 3 bound ((o.setIntegrity level).act (.bounded host bound) realm)
      (.error (.failure (.typeError ("Cannot redefine property: " ++ k.text)))
        (realm.putObject o
          (before.foldl (Object.fixAt level) { object with extensible := false }))) := by
  have hl' : ¬realm.AtLimit := fun h => hl (Realm.deeper_atLimit (Realm.deeper_atLimit h))
  have hkey : ((before.foldl (Object.fixAt level)
      { object with extensible := false }).ownProperty? k).isSome := by
    rw [Object.isSome_ownProperty?_foldl]
    exact Object.isSome_ownProperty?_of_mem_ownKeys
      (hkeys ▸ List.mem_append_right before List.mem_cons_self)
  have hplain : (before.foldl (Object.fixAt level)
      { object with extensible := false }).kind.isPlain := by
    rw [Object.foldl_fixAt_eq]
    exact hp
  have hstores' : ({ object with extensible := false } : Object H).StoresLength := hstores
  refine ObjectId.setIntegrity_gives ho hp hl' (Gives.bindEngine_error ?_)
  refine ObjectId.fixOwnKeys_gives ho hp hs hstores hkeys hbefore hl ?_
  exact (ObjectId.fixProperty_gives_of_not_hasRoomFor (Realm.object?_putObject_self ho) hplain
    (hstores'.foldl level before) hkey hroom hl).bindEngine_error

/-- An object whose elements are below its length is raised to a level. -/
theorem Object.Bounded.setIntegrity_run (host : Host H) (h : object.Bounded) (hb : 3 ≤ bound)
    (hr : realm.Reachable) (ho : realm.object? o = some object) (hp : object.kind.isPlain)
    (hl : ¬realm.deeper.deeper.AtLimit) (level : IntegrityLevel) :
    (o.setIntegrity level).run host bound realm
      = .ok true (realm.putObject o (object.fixAll level)) := by
  have hstart : ({ object with extensible := false } : Object H).Bounded := h
  have hks : ∀ k ∈ object.ownKeys, (object.ownProperty? k).isSome :=
    fun k hk => Object.isSome_ownProperty?_of_mem_ownKeys hk
  exact (ObjectId.setIntegrity_gives_fixAll ho hp (hr.sound o object ho)
    (hr.storesLength o object ho) (hstart.hasRoomAlong hks) hl).eq_of_le hb

/-- An object that was settled meets the level, and is sealed in any case. -/
theorem Object.Settled.testIntegrity_run (host : Host H) (h : object.Settled level after)
    (hs : object.Sound) (hb : 1 ≤ bound) (ho : realm.object? o = some after)
    (hp : after.kind.isPlain) (hl : ¬realm.AtLimit) :
    (o.testIntegrity level).run host bound realm = .ok true realm
      ∧ (o.testIntegrity .sealed).run host bound realm = .ok true realm := by
  have hx : after.extensible = false := by rw [h.rest]
  have hholds (k : PropertyKey) (d : Descriptor) (hd : after.ownProperty? k = some d) :
      level.holds d ∧ IntegrityLevel.sealed.holds d := by
    rw [h.own] at hd
    obtain ⟨e, he, rfl⟩ := Option.map_eq_some_iff.mp hd
    exact IntegrityLevel.holds_fix level (hs.isStorable_of_ownProperty? he)
  exact ⟨(ObjectId.testIntegrity_gives ho hp hl hx fun k d hd => (hholds k d hd).1).eq_of_le hb,
    (ObjectId.testIntegrity_gives ho hp hl hx fun k d hd => (hholds k d hd).2).eq_of_le hb⟩

/-- While its length is writable, an array with an element that is not below it gets a greater
length. -/
theorem ObjectId.setIntegrity_raises {current : Descriptor} {i : ArrayIndex} (host : Host H)
    (hb : 3 ≤ bound) (hr : realm.Reachable) (ho : realm.object? o = some object)
    (harray : object.kind.isArray) (hc : object.properties.get? lengthKey = some current)
    (hi : (object.properties.get? (.index i)).isSome) (hle : ArrayObject.lengthOf current ≤ i.val)
    (hw : current.isWritable) (hl : ¬realm.deeper.deeper.AtLimit) (level : IntegrityLevel) :
    ∃ after current', (o.setIntegrity level).run host bound realm
        = .ok true (realm.putObject o after)
      ∧ after.properties.get? lengthKey = some current'
      ∧ ArrayObject.lengthOf current < ArrayObject.lengthOf current' := by
  obtain ⟨names, hkeys, hnames⟩ := Object.exists_ownKeys_eq harray
  have harray' : ({ object with extensible := false } : Object H).kind.isArray := harray
  have hroom : ({ object with extensible := false } : Object H).HasRoomAlong level
      object.ownKeys := by
    rw [hkeys]
    exact Object.hasRoomAlong_of_isWritable harray' hc hw _ hnames
  obtain ⟨current', hc', -, hks⟩ := Object.exists_length_foldl level object.ownKeys harray' hc
  have hmem : .index i ∈ object.ownKeys :=
    List.mem_append_right _ (PropertyMap.mem_keys.mpr hi)
  exact ⟨object.fixAll level, current',
    (ObjectId.setIntegrity_gives_fixAll ho (ObjectKind.isPlain_of_isArray harray)
      (hr.sound o object ho) (hr.storesLength o object ho) hroom hl).eq_of_le hb, hc',
    Nat.lt_of_le_of_lt hle (hks _ hmem)⟩

/-- Where its length is read-only, an array with an element that is not below it is not raised to
the level. -/
theorem ObjectId.setIntegrity_fails {current : Descriptor} {i : ArrayIndex} (host : Host H)
    (hb : 3 ≤ bound) (hr : realm.Reachable) (ho : realm.object? o = some object)
    (harray : object.kind.isArray) (hc : object.properties.get? lengthKey = some current)
    (hi : (object.properties.get? (.index i)).isSome) (hle : ArrayObject.lengthOf current ≤ i.val)
    (hw : current.isWritable = false) (hl : ¬realm.deeper.deeper.AtLimit)
    (level : IntegrityLevel) :
    ∃ (after : Object H) (j : ArrayIndex), ArrayObject.lengthOf current ≤ j.val
      ∧ (o.setIntegrity level).run host bound realm
        = .error (.failure (.typeError
            ("Cannot redefine property: " ++ (PropertyKey.index j).text)))
          (realm.putObject o after) := by
  have harray' : ({ object with extensible := false } : Object H).kind.isArray := harray
  have hmem : .index i ∈ object.ownKeys :=
    List.mem_append_right _ (PropertyMap.mem_keys.mpr hi)
  rcases Object.hasRoomAlong_or_exists_not level object.ownKeys { object with extensible := false }
    with hroom | ⟨before, k, later, hkeys, hbefore, hroom⟩
  · have hlt := hroom.leastLength_le harray' hc hw _ hmem
    exact absurd hle (Nat.not_le.mpr hlt)
  · obtain ⟨current', hc', hgrown, -⟩ := Object.exists_length_foldl level before harray' hc
    obtain ⟨j, rfl⟩ : ∃ j, k = .index j := by
      cases k with
      | index j => exact ⟨j, rfl⟩
      | _ => exact absurd (Object.hasRoomFor_of_leastLength_eq_zero rfl) hroom
    have hfull : ¬j.val < ArrayObject.lengthOf current' := fun hlt =>
      hroom fun _ current'' hc'' hover => by
        cases hc'.symm.trans hc''
        exact absurd hlt (Nat.not_lt.mpr (Nat.le_of_lt_succ hover))
    exact ⟨_, j, Nat.le_trans hgrown (Nat.not_lt.mp hfull),
      (ObjectId.setIntegrity_gives_of_not_hasRoomFor ho (ObjectKind.isPlain_of_isArray harray)
        (hr.sound o object ho) (hr.storesLength o object ho) hkeys hbefore hroom hl).eq_of_le hb⟩

/-- Sealing and freezing an object that keeps its own properties. If its elements are below its
length, or it is no array, it is raised to the level: the object is settled and nothing else
changes, the level holds afterwards, and so does the one below; the keys are listed as before, and
to raise it once more has no effect. If not, the array gets a greater length while its length is
writable, and is left half way with a failure where it is read-only. -/
theorem setIntegrity_outcome (host : Host H) (hb : 3 ≤ bound) (hr : realm.Reachable)
    (ho : realm.object? o = some object) (hp : object.kind.isPlain)
    (hl : ¬realm.deeper.deeper.AtLimit) (level : IntegrityLevel) :
    (object.Bounded → ∃ after, object.Settled level after
      ∧ (o.setIntegrity level).run host bound realm = .ok true (realm.putObject o after)
      ∧ (o.testIntegrity level).run host bound (realm.putObject o after)
        = .ok true (realm.putObject o after)
      ∧ (o.testIntegrity .sealed).run host bound (realm.putObject o after)
        = .ok true (realm.putObject o after)
      ∧ o.ownKeys.run host bound realm = .ok object.ownKeys realm
      ∧ o.ownKeys.run host bound (realm.putObject o after)
        = .ok object.ownKeys (realm.putObject o after)
      ∧ (o.setIntegrity level).run host bound (realm.putObject o after)
        = .ok true (realm.putObject o after))
    ∧ (¬object.Bounded → object.kind.isArray
      ∧ ∃ current, object.properties.get? lengthKey = some current
        ∧ (current.isWritable → ∃ after current',
          (o.setIntegrity level).run host bound realm = .ok true (realm.putObject o after)
            ∧ after.properties.get? lengthKey = some current'
            ∧ ArrayObject.lengthOf current < ArrayObject.lengthOf current')
        ∧ (current.isWritable = false → ∃ (after : Object H) (i : ArrayIndex),
          ArrayObject.lengthOf current ≤ i.val
            ∧ (o.setIntegrity level).run host bound realm
              = .error (.failure (.typeError
                  ("Cannot redefine property: " ++ (PropertyKey.index i).text)))
                (realm.putObject o after))) := by
  have hl' : ¬realm.AtLimit := fun h => hl (Realm.deeper_atLimit (Realm.deeper_atLimit h))
  refine ⟨fun hbounded => ?_, fun hnot => ?_⟩
  · have hset := hbounded.setIntegrity_run host hb hr ho hp hl level
    have hsettled := hbounded.settled_fixAll level
    have ho' : (realm.putObject o (object.fixAll level)).object? o = some (object.fixAll level) :=
      Realm.object?_putObject_self ho
    have hp' : (object.fixAll level).kind.isPlain := by rwa [Object.fixAll_eq]
    have hr' : (realm.putObject o (object.fixAll level)).Reachable :=
      (Engine.leads_of_ok hr.sound hset).steps.reachable hr
    have hkeys : o.ownKeys.run host bound (realm.putObject o (object.fixAll level)) = _ :=
      (ObjectId.ownKeys_gives ho' hp' hl').eq_of_le (Nat.le_trans (by decide) hb)
    have hagain := (hbounded.fixAll level).setIntegrity_run host hb hr' ho' hp' hl level
    rw [hbounded.fixAll_fixAll, Realm.putObject_putObject] at hagain
    obtain ⟨htest, hsealed⟩ := hsettled.testIntegrity_run host (hr.sound o object ho)
      (Nat.le_trans (by decide) hb) ho' hp' hl'
    rw [hsettled.keys] at hkeys
    exact ⟨object.fixAll level, hsettled, hset, htest, hsealed,
      (ObjectId.ownKeys_gives ho hp hl').eq_of_le (Nat.le_trans (by decide) hb), hkeys, hagain⟩
  · obtain ⟨harray, current, hc, i, hi, hle⟩ := Object.exists_of_not_bounded hnot
    exact ⟨harray, current, hc,
      fun hw => ObjectId.setIntegrity_raises host hb hr ho harray hc hi hle hw hl level,
      fun hw => ObjectId.setIntegrity_fails host hb hr ho harray hc hi hle hw hl level⟩

end Operations

/-! ### An array of length three -/

/-- The array when its length was lowered to one and its element was left. -/
def cutArray : Object HostTypes.bare :=
  (shortArray (.plain .null)).lengthWritten (.ofValue (.nat 1)) 1

/-- A realm with such an array alone. -/
def cutRealm : Realm HostTypes.bare :=
  (shortRealm (.plain .null) 3).putObject ⟨0⟩ cutArray

theorem cutRealm_reachable : cutRealm.Reachable :=
  (shortRealm_reachable rfl 3).step (.update _ ⟨0⟩ rfl
    (.tail (.refl _) (.define _ lengthKey _ rfl rfl rfl (by decide +kernel))) nofun)

/-- Freezing an array in order settles it. After its length was cut short and its element left,
sealing it gives it a greater length. -/
theorem setIntegrity_outcome_shortRealm :
    (∃ after : Object HostTypes.bare, (shortArray (.plain .null)).Settled .frozen after
      ∧ ((⟨0⟩ : ObjectId).setIntegrity .frozen).run Host.bare 3 (shortRealm (.plain .null) 3)
        = .ok true ((shortRealm (.plain .null) 3).putObject ⟨0⟩ after))
    ∧ ∃ (after : Object HostTypes.bare) (length : Descriptor),
      ((⟨0⟩ : ObjectId).setIntegrity .sealed).run Host.bare 3 cutRealm
          = .ok true (cutRealm.putObject ⟨0⟩ after)
        ∧ after.properties.get? lengthKey = some length ∧ 1 < ArrayObject.lengthOf length := by
  constructor
  · have hbounded : (shortArray (.plain .null)).Bounded :=
      Object.InOrder.bounded fun _ => ⟨3, true, shortArray_hasLength _⟩
    obtain ⟨after, hsettled, hset, -⟩ := (setIntegrity_outcome Host.bare (Nat.le_refl 3)
      (shortRealm_reachable rfl 3) (o := ⟨0⟩) rfl rfl (by decide) .frozen).1 hbounded
    exact ⟨after, hsettled, hset⟩
  · have hlength : ArrayObject.lengthOf (.data (.nat 1) true false false) = 1 :=
      ArrayObject.lengthOf_eq (by decide) rfl
    have hstart : cutArray.properties.get? lengthKey = some (.data (.nat 1) true false false) := rfl
    have hnot : ¬cutArray.Bounded := fun h => by
      have hlt := h rfl _ hstart ⟨1, by decide⟩ rfl
      rw [hlength] at hlt
      exact absurd hlt (by decide)
    obtain ⟨-, current, hc, hraises, -⟩ := (setIntegrity_outcome Host.bare (Nat.le_refl 3)
      cutRealm_reachable (o := ⟨0⟩) rfl rfl (by decide) .sealed).2 hnot
    obtain rfl : .data (.nat 1) true false false = current := Option.some.inj (hstart.symm.trans hc)
    obtain ⟨after, length, hset, hstored, hlt⟩ := hraises rfl
    rw [hlength] at hlt
    exact ⟨after, length, hset, hstored, hlt⟩

end ScriptEngine
