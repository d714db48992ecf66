import ScriptEngine.Proofs.Definition

/-!
# The length that an array stores

Where the depth of calls is limited, an array can be left with elements above its length. Even then
its length is a property of its own that stays what it is in kind: hidden and not configurable data.
This is all that the methods of arrays rely on when an element is defined.

## Main definitions

* `Object.StoresLength`: the length is stored, if the object is an array.
* `ArrayObject.raisedTo`: the length after it was raised.
* `Object.HasRoomFor`: the length can be raised where an element is above it.

## Main results

* `Realm.Reachable.storesLength`: the length is stored in every realm that can be reached.
* `Object.defineElement_done_iff`, `Object.defineElement_of_done`: when a request for an element is
  carried out, and what is stored then.
-/

namespace ScriptEngine

variable {H : HostTypes}

namespace Object

variable {object after : Object H} {k : PropertyKey} {d : Descriptor}

/-- If the object is an array, its length is stored as hidden data that is not configurable. -/
def StoresLength (object : Object H) : Prop :=
  object.kind.isArray → ∃ v w, object.properties.get? lengthKey = some (.data v w false false)

theorem InOrder.storesLength (h : object.InOrder) : object.StoresLength := by
  intro harray
  obtain ⟨length, writable, hlength⟩ := h harray
  exact ⟨.nat length, writable, hlength.stored⟩

/-- The length outlives every change. -/
theorem Change.storesLength (hc : object.Change after) (h : object.StoresLength) :
    after.StoresLength := by
  cases hc with
  | preventExtensions => exact h
  | define k d hp hu hv hc =>
    intro harray
    obtain ⟨v, w, hlength⟩ := h harray
    rw [Object.define, PropertyMap.define, PropertyMap.get?_insert]
    split
    · next heq =>
      subst heq
      rw [hlength] at hc ⊢
      exact ⟨_, _, congrArg some (Descriptor.definedOver_data hv hc)⟩
    · exact ⟨v, w, hlength⟩
  | delete k d hp hk hd =>
    intro harray
    obtain ⟨v, w, hlength⟩ := h harray
    refine ⟨v, w, (PropertyMap.get?_erase_of_ne ?_ _).trans hlength⟩
    rintro rfl
    rw [hlength] at hk
    cases hk
    cases hd
  | become kind hk => exact fun harray => h (hk.isArray ▸ harray)

theorem Changes.storesLength (hc : object.Changes after) (h : object.StoresLength) :
    after.StoresLength := by
  induction hc with
  | refl => exact h
  | tail _ last ih => exact last.storesLength ih

end Object

namespace Realm

variable {realm after : Realm H}

theorem Step.storesLength (hs : realm.Step after)
    (h : ∀ o object, realm.object? o = some object → object.StoresLength) (o : ObjectId)
    (object : Object H) (ho : after.object? o = some object) : object.StoresLength := by
  cases hs with
  | beside hb =>
    rw [object?, hb.heap] at ho
    exact h o object ho
  | allocate object _ hi => exact forall_push h hi.storesLength o _ ho
  | update o hold hc => exact forall_putObject h (hc.storesLength (h _ _ hold)) _ _ ho
  | inherit o prototype hold =>
    have hlength := h _ _ hold
    refine forall_putObject h ?_ _ _ ho
    exact fun harray => hlength harray
  | dispose _ hh => simp [object?, hh] at ho

/-- Every array that can be reached stores its length. -/
theorem Reachable.storesLength (hr : realm.Reachable) (o : ObjectId) (object : Object H)
    (ho : realm.object? o = some object) : object.StoresLength := by
  induction hr generalizing o object with
  | empty hh => simp [object?, hh] at ho
  | step _ hs ih => exact hs.storesLength ih o object ho

end Realm

/-! ### Changing a property in its place -/

namespace PropertyMap

variable {m : PropertyMap} {k : PropertyKey} {d : Descriptor} {f : Descriptor → Descriptor}

theorem get?_modify (m : PropertyMap) (k : PropertyKey) (f : Descriptor → Descriptor)
    (k' : PropertyKey) :
    (m.modify k f).get? k' = if k' = k then (m.get? k').map f else m.get? k' := by
  cases hk : m.get? k with
  | none =>
    have hsame : m.modify k f = m := by rw [modify, hk]
    rw [hsame]
    split
    · next heq => rw [heq, hk, Option.map_none]
    · rfl
  | some d =>
    rw [modify, hk, get?_insert]
    split
    · next heq => rw [heq, hk, Option.map_some]
    · rfl

theorem modify_of_some (h : m.get? k = some d) : m.modify k f = m.insert k (f d) := by
  rw [modify, h]

theorem modify_eq_self (h : ∀ d, m.get? k = some d → f d = d) : m.modify k f = m := by
  cases hk : m.get? k with
  | none => rw [modify, hk]
  | some d => rw [modify_of_some hk, h d hk, insert_of_get?_eq_some hk]

end PropertyMap

/-! ### Elements and the length -/

/-- The least length of an array that has a property of the key. -/
def PropertyKey.leastLength : PropertyKey → Nat
  | .index i => i.val + 1
  | _ => 0

theorem PropertyKey.leastLength_lt (k : PropertyKey) : k.leastLength < Number.twoPow 32 := by
  cases k with
  | index i => exact ArrayIndex.succ_lt_twoPow i
  | _ => exact Nat.two_pow_pos 32

/-- A stored length, raised to a number if it is below. -/
def ArrayObject.raisedTo (current : Descriptor) (n : Nat) : Descriptor :=
  if lengthOf current < n then { current with value := some (.nat n) } else current

theorem ArrayObject.raisedTo_of_le {current : Descriptor} {n : Nat} (h : n ≤ lengthOf current) :
    raisedTo current n = current :=
  if_neg (Nat.not_lt.mpr h)

theorem ArrayObject.raisedTo_data (v : Value) (w : Bool) {e c : Bool} (n : Nat) :
    raisedTo (.data v w e c) n
      = .data (if lengthOf (.data v w e c) < n then .nat n else v) w e c := by
  unfold raisedTo
  split
  · rfl
  · rfl

theorem ArrayObject.isWritable_raisedTo (current : Descriptor) (n : Nat) :
    (raisedTo current n).isWritable = current.isWritable := by
  unfold raisedTo
  split
  · rfl
  · rfl

theorem ArrayObject.lengthOf_raisedTo (current : Descriptor) {n : Nat}
    (hn : n < Number.twoPow 32) : lengthOf (raisedTo current n) = max (lengthOf current) n := by
  unfold raisedTo
  split
  · next hlt => rw [lengthOf_eq hn rfl, Nat.max_eq_right (Nat.le_of_lt hlt)]
  · next hlt => rw [Nat.max_eq_left (Nat.not_lt.mp hlt)]

namespace Object

variable {object : Object H} {k : PropertyKey} {d current : Descriptor} {i : ArrayIndex}

/-- An array has room for an element if the element is below the length or the length can be
raised. -/
def HasRoomFor (object : Object H) (k : PropertyKey) : Prop :=
  object.kind.isArray → ∀ current, object.properties.get? lengthKey = some current →
    ArrayObject.lengthOf current < k.leastLength → current.isWritable

theorem hasRoomFor_iff (harray : object.kind.isArray)
    (hc : object.properties.get? lengthKey = some current) : object.HasRoomFor k
      ↔ (ArrayObject.lengthOf current < k.leastLength → current.isWritable) := by
  refine ⟨fun h => h harray current hc, fun h _ current' hc' => ?_⟩
  cases hc.symm.trans hc'
  exact h

/-- There is room for what is no element. -/
theorem hasRoomFor_of_leastLength_eq_zero (h : k.leastLength = 0) : object.HasRoomFor k :=
  fun _ _ _ hlt => absurd (h ▸ hlt) (Nat.not_lt_zero _)

/-- A request for an element is carried out if it is accepted and there is room for the element. -/
theorem defineElement_done_iff (harray : object.kind.isArray)
    (hc : object.properties.get? lengthKey = some current) :
    (object.defineElement current i d).2 = true
      ↔ object.accepts (.index i) d ∧ object.HasRoomFor (.index i) := by
  rw [hasRoomFor_iff harray hc, PropertyKey.leastLength]
  unfold defineElement
  split
  · next hfull =>
    refine iff_of_false Bool.false_ne_true fun h => ?_
    simp [h.2 (Nat.lt_succ_of_le hfull.1)] at hfull
  · next hfull =>
    have hroom : ArrayObject.lengthOf current < i.val + 1 → current.isWritable := fun hle => by
      simpa [Nat.le_of_lt_succ hle] using hfull
    split
    · next ha =>
      split
      · exact iff_of_true rfl ⟨ha, hroom⟩
      · exact iff_of_true rfl ⟨ha, hroom⟩
    · next ha => exact iff_of_false Bool.false_ne_true fun h => ha h.1

/-- A request for an element that was carried out is stored, and the length is raised above the
element. -/
theorem defineElement_of_done (harray : object.kind.isArray)
    (hc : object.properties.get? lengthKey = some current) (hs : current.isStorable)
    (hdone : (object.defineElement current i d).2 = true) :
    (object.defineElement current i d).1
      = { object with
          properties := (object.define (.index i) d).properties.modify lengthKey
            (ArrayObject.raisedTo · (i.val + 1)) } := by
  obtain ⟨ha, hroom⟩ := (defineElement_done_iff harray hc).mp hdone
  rw [hasRoomFor_iff harray hc, PropertyKey.leastLength] at hroom
  have hstored : (object.define (.index i) d).properties.get? lengthKey = some current :=
    (PropertyMap.get?_insert_of_ne (by simp [lengthKey]) ..).trans hc
  have hfull : ¬(ArrayObject.lengthOf current ≤ i.val ∧ current.isWritable = false) :=
    fun h => by simp [hroom (Nat.lt_succ_of_le h.1)] at h
  rw [defineElement, if_neg hfull, if_pos ha, PropertyMap.modify_of_some hstored,
    ArrayObject.raisedTo]
  by_cases hle : ArrayObject.lengthOf current ≤ i.val
  · rw [if_pos hle, if_pos (Nat.lt_succ_of_le hle)]
    have hw := hroom (Nat.lt_succ_of_le hle)
    obtain ⟨v, w, e, c, rfl⟩ | ⟨g, s, e, c, rfl⟩ := (Descriptor.isStorable_iff current).mp hs
    · obtain rfl : w = true := hw
      have ha' : (object.define (.index i) d).accepts lengthKey
          (.data (.nat (i.val + 1)) true e c) := by
        rw [accepts, hstored]
        exact Descriptor.accepts_data_value _
      refine (defined_of_accepts ha').trans ?_
      rw [define, PropertyMap.define, hstored, Descriptor.definedOver_data_value]
      rfl
    · cases hw
  · rw [if_neg hle, if_neg fun h => hle (Nat.le_of_lt_succ h),
      PropertyMap.insert_of_get?_eq_some hstored]
    rfl

end Object

end ScriptEngine
