import ScriptEngine.Proofs.PlainObject

/-!
# The methods of arrays on a single object

The methods of arrays are compositions of requests to the array itself. For a request whose value
is known they come down to a function of the array as an object, which is given here. Lowering the
length is the one method of which the limit on the depth of calls can leave a part undone: the
elements are deleted one level deeper than the length is written.

## Main definitions

* `Object.deleteElements`, `Object.lowerLength`, `Object.setLength`, `Object.defineElement`: the
  methods as functions of the array.

## Main results

* `ArrayObject.setLengthTo_gives`, `ArrayObject.defineElement_gives`: the methods do as the
  functions say.
* `ArrayObject.setLengthTo_gives_of_deeper_atLimit`: what the limit leaves undone.
-/

namespace ScriptEngine

open Engine

variable {H : HostTypes}

/-! ### The methods as functions -/

namespace Object

/-- Deletes elements in the given order, with the index of the first one that stays. -/
def deleteElements (object : Object H) : List ArrayIndex → Object H × Option ArrayIndex
  | [] => (object, none)
  | i :: is =>
    if object.deletes (.index i) then (object.deleted (.index i)).deleteElements is
    else (object, some i)

/-- The array when its length is set in the end, where an element remained or none. -/
def settleLength (cut : Object H) (d : Descriptor) : Option ArrayIndex → Object H × Bool
  | some i => (cut.defined lengthKey { d with value := some (.nat (i.val + 1)) }, false)
  | none =>
    if d.writable = some false then (cut.defined lengthKey { writable := some false }, true)
    else (cut, true)

/-- The array after a request for a smaller length, and whether the request was carried out. -/
def lowerLength (object : Object H) (d : Descriptor) (length : Nat) : Object H × Bool :=
  if object.accepts lengthKey (ArrayObject.lowerRequest d) then
    let cut := (object.define lengthKey (ArrayObject.lowerRequest d)).deleteElements
      (object.properties.descendingFrom length)
    cut.1.settleLength d cut.2
  else (object, false)

/-- The array after a request for a length, and whether the request was carried out; `current` is
the stored length. -/
def setLength (object : Object H) (current d : Descriptor) (length : Nat) : Object H × Bool :=
  let d := { d with value := some (.nat length) }
  if ArrayObject.lengthOf current ≤ length then
    (object.defined lengthKey d, object.accepts lengthKey d)
  else if current.isWritable then object.lowerLength d length
  else (object, false)

/-- Whether a request for a length gets as far as deleting elements. -/
structure StartsDeleting (object : Object H) (current d : Descriptor) (length : Nat) : Prop where
  lowers : length < ArrayObject.lengthOf current
  writable : current.isWritable
  accepted : object.accepts lengthKey
    (ArrayObject.lowerRequest { d with value := some (.nat length) })
  doomed : object.properties.descendingFrom length ≠ []

/-- The array after a request for an element, and whether the request was carried out; `current` is
the stored length. -/
def defineElement (object : Object H) (current : Descriptor) (i : ArrayIndex) (d : Descriptor) :
    Object H × Bool :=
  if ArrayObject.lengthOf current ≤ i.val ∧ current.isWritable = false then (object, false)
  else if object.accepts (.index i) d then
    if ArrayObject.lengthOf current ≤ i.val then
      ((object.define (.index i) d).defined lengthKey
        { current with value := some (.nat (i.val + 1)) }, true)
    else (object.define (.index i) d, true)
  else (object, false)

variable {object : Object H} {k : PropertyKey} {d : Descriptor}

@[simp] theorem kind_define : (object.define k d).kind = object.kind := rfl

@[simp] theorem kind_defined : (object.defined k d).kind = object.kind := by
  unfold defined
  split
  · rfl
  · rfl

@[simp] theorem kind_deleted : (object.deleted k).kind = object.kind := by
  unfold deleted
  split
  · rfl
  · rfl

@[simp] theorem kind_deleteElements (is : List ArrayIndex) :
    (object.deleteElements is).1.kind = object.kind := by
  induction is generalizing object with
  | nil => rfl
  | cons i is ih =>
    rw [deleteElements]
    split
    · rw [ih, kind_deleted]
    · rfl

@[simp] theorem kind_settleLength (remaining : Option ArrayIndex) :
    (object.settleLength d remaining).1.kind = object.kind := by
  cases remaining with
  | some i => exact kind_defined
  | none =>
    rw [settleLength]
    split
    · exact kind_defined
    · rfl

@[simp] theorem kind_lowerLength (length : Nat) :
    (object.lowerLength d length).1.kind = object.kind := by
  rw [lowerLength]
  split
  · rw [kind_settleLength, kind_deleteElements, kind_define]
  · rfl

@[simp] theorem kind_setLength (current : Descriptor) (length : Nat) :
    (object.setLength current d length).1.kind = object.kind := by
  rw [setLength]
  split
  · exact kind_defined
  · split
    · exact kind_lowerLength length
    · rfl

@[simp] theorem kind_defineElement (current : Descriptor) (i : ArrayIndex) :
    (object.defineElement current i d).1.kind = object.kind := by
  rw [defineElement]
  split
  · rfl
  · split
    · split
      · exact kind_defined
      · rfl
    · rfl

theorem deleted_of_not_deletes (h : ¬object.deletes k) : object.deleted k = object := by
  unfold deletes at h
  unfold deleted
  cases hk : object.ownProperty? k with
  | none => rfl
  | some d =>
    rw [hk, Option.all_some] at h
    rw [Option.any_some, if_neg h]

theorem defined_of_accepts (h : object.accepts k d) : object.defined k d = object.define k d :=
  if_pos h

end Object

/-! ### Deleting elements -/

section Delete

variable {host : Host H} {bound : Nat} {realm : Realm H} {o : ObjectId} {object : Object H}

theorem Dispatch.delete_eq_ordinary {s : Surroundings H} (ho : realm.object? o = some object)
    (hp : object.kind.isPlain) (k : PropertyKey) :
    Dispatch.delete o k s realm = Ordinary.delete o k s realm :=
  Action.getKind_bind_of_isPlain ho hp

theorem Dispatch.defineOwnProperty_of_isArray {s : Surroundings H} {d : Descriptor}
    (ho : realm.object? o = some object) (harray : object.kind.isArray) (k : PropertyKey) :
    Dispatch.defineOwnProperty o k d s realm = ArrayObject.defineOwnProperty o k d s realm := by
  have hk : object.kind = .array := by
    cases h : object.kind with
    | array => rfl
    | _ => simp [h, ObjectKind.isArray] at harray
  refine (Action.bind_of_ok (getKind_of_some ho)).trans ?_
  rw [hk]

theorem ObjectId.delete_gives (ho : realm.object? o = some object) (hp : object.kind.isPlain)
    (hl : ¬realm.deeper.AtLimit) (k : PropertyKey) :
    Gives 2 bound ((o.delete k).act (.bounded host bound) realm)
      (.ok (object.deletes k) (realm.putObject o (object.deleted k))) := by
  have ho' : realm.deeper.object? o = some object := ho
  refine Gives.answer fun bound => .nested (fun h => hl (Realm.deeper_atLimit h)) ?_
  rw [Dispatch.delete_eq_ordinary ho' hp]
  exact Ordinary.delete_gives ho' hp hl

theorem ObjectId.delete_gives_of_deeper_atLimit (ho : realm.object? o = some object)
    (hp : object.kind.isPlain) (hl : realm.deeper.AtLimit) (k : PropertyKey) :
    Gives 2 bound ((o.delete k).act (.bounded host bound) realm) (.error .overflow realm) := by
  have ho' : realm.deeper.object? o = some object := ho
  refine Gives.answer fun bound => ?_
  by_cases hr : realm.AtLimit
  · exact .of_eq (Action.nested_of_atLimit hr)
  · refine .nested_error hr ?_
    rw [Dispatch.delete_eq_ordinary ho' hp]
    exact Ordinary.delete_gives_of_atLimit hl

theorem ArrayObject.deleteElements_gives (ho : realm.object? o = some object)
    (hp : object.kind.isPlain) {is : List ArrayIndex} (hl : realm.deeper.AtLimit → is = []) :
    Gives 2 bound ((ArrayObject.deleteElements o is).act (.bounded host bound) realm)
      (.ok (object.deleteElements is).2
        (realm.putObject o (object.deleteElements is).1)) := by
  induction is generalizing realm object with
  | nil =>
    rw [Object.deleteElements, Realm.putObject_self ho]
    exact .of_eq rfl
  | cons i is ih =>
    have hl' : ¬realm.deeper.AtLimit := fun h => by cases hl h
    refine (ObjectId.delete_gives ho hp hl' (.index i)).bindEngine ?_
    by_cases hd : object.deletes (.index i)
    · have ho' : (realm.putObject o (object.deleted (.index i))).object? o
          = some (object.deleted (.index i)) := Realm.object?_putObject_self ho
      have hp' : (object.deleted (.index i)).kind.isPlain := by rwa [Object.kind_deleted]
      have h := ih ho' hp' (fun h => absurd h hl')
      rw [Realm.putObject_putObject] at h
      rw [Object.deleteElements, if_pos hd, if_pos hd]
      exact h
    · rw [Object.deleteElements, if_neg hd, if_neg hd, Object.deleted_of_not_deletes hd]
      exact .of_eq rfl

/-- Where the limit does not allow to delete, the first element stays, and so does all else. -/
theorem ArrayObject.deleteElements_gives_of_deeper_atLimit (ho : realm.object? o = some object)
    (hp : object.kind.isPlain) (hl : realm.deeper.AtLimit) {is : List ArrayIndex} (hi : is ≠ []) :
    Gives 2 bound ((ArrayObject.deleteElements o is).act (.bounded host bound) realm)
      (.error .overflow realm) := by
  cases is with
  | nil => exact absurd rfl hi
  | cons i is =>
    exact (ObjectId.delete_gives_of_deeper_atLimit ho hp hl (.index i)).bindEngine_error

end Delete

/-! ### Lowering the length -/

section LowerLength

variable {host : Host H} {bound : Nat} {realm : Realm H} {o : ObjectId} {object : Object H}
  {d : Descriptor} {length : Nat}

theorem ObjectKind.unitProperty?_lengthKey (kind : ObjectKind H) :
    kind.unitProperty? lengthKey = none := by
  unfold unitProperty? lengthKey
  split
  · next heq => cases heq
  · rfl

theorem Ordinary.define_length_gives (ho : realm.object? o = some object)
    (hp : object.kind.isPlain) (hl : ¬realm.AtLimit) :
    Gives 2 bound (Ordinary.defineOwnProperty o lengthKey d (.bounded host bound) realm)
      (.ok (object.accepts lengthKey d) (realm.putObject o (object.defined lengthKey d))) :=
  (Ordinary.defineOwnProperty_gives ho hp object.kind.unitProperty?_lengthKey hl).mono (by decide)

/-- Lowering the length of an array, unless the limit stands in the way of deleting elements. -/
theorem ArrayObject.lowerLength_gives (ho : realm.object? o = some object)
    (hp : object.kind.isPlain) (hl : ¬realm.AtLimit)
    (hd : realm.deeper.AtLimit → object.accepts lengthKey (ArrayObject.lowerRequest d) →
      object.properties.descendingFrom length = []) :
    Gives 2 bound (ArrayObject.lowerLength o d length (.bounded host bound) realm)
      (.ok (object.lowerLength d length).2
        (realm.putObject o (object.lowerLength d length).1)) := by
  unfold ArrayObject.lowerLength
  refine (Ordinary.define_length_gives ho hp hl).bind ?_
  by_cases ha : object.accepts lengthKey (ArrayObject.lowerRequest d)
  · rw [ha, Object.defined_of_accepts ha]
    generalize hlow : object.define lengthKey (ArrayObject.lowerRequest d) = low
    have hlowo : (realm.putObject o low).object? o = some low := Realm.object?_putObject_self ho
    have hlowp : low.kind.isPlain := by rwa [← hlow]
    have hdoomed : low.properties.descendingFrom length
        = object.properties.descendingFrom length := by
      rw [← hlow]
      rfl
    refine Gives.bind (.of_eq (getObject_of_some hlowo)) ?_
    rw [hdoomed]
    refine (ArrayObject.deleteElements_gives hlowo hlowp fun h => hd h ha).bind ?_
    have hcutp : (low.deleteElements (object.properties.descendingFrom length)).1.kind.isPlain := by
      rwa [Object.kind_deleteElements]
    unfold Object.lowerLength
    rw [if_pos ha, hlow, Realm.putObject_putObject]
    generalize low.deleteElements (object.properties.descendingFrom length) = result at hcutp
    obtain ⟨cut, remaining⟩ := result
    have hcuto : (realm.putObject o cut).object? o = some cut := Realm.object?_putObject_self ho
    cases remaining with
    | some i =>
      refine (Ordinary.define_length_gives hcuto hcutp hl).bind (.of_eq ?_)
      rw [Realm.putObject_putObject]
      rfl
    | none =>
      by_cases hw : d.writable = some false
      · simp only [if_pos hw, Object.settleLength]
        refine (Ordinary.define_length_gives hcuto hcutp hl).bind (.of_eq ?_)
        rw [Realm.putObject_putObject]
        rfl
      · simp only [if_neg hw, Object.settleLength]
        exact .of_eq rfl
  · have hrefused : object.defined lengthKey (ArrayObject.lowerRequest d) = object := if_neg ha
    unfold Object.lowerLength
    rw [if_neg ha, hrefused]
    simp only [ha]
    exact .of_eq rfl

/-- Where the limit stands in the way, the length is lowered and the elements stay. -/
theorem ArrayObject.lowerLength_gives_of_deeper_atLimit (ho : realm.object? o = some object)
    (hp : object.kind.isPlain) (hl : ¬realm.AtLimit) (hd : realm.deeper.AtLimit)
    (ha : object.accepts lengthKey (ArrayObject.lowerRequest d))
    (hi : object.properties.descendingFrom length ≠ []) :
    Gives 2 bound (ArrayObject.lowerLength o d length (.bounded host bound) realm)
      (.error .overflow
        (realm.putObject o (object.define lengthKey (ArrayObject.lowerRequest d)))) := by
  unfold ArrayObject.lowerLength
  refine (Ordinary.define_length_gives ho hp hl).bind ?_
  rw [ha, Object.defined_of_accepts ha]
  generalize hlow : object.define lengthKey (ArrayObject.lowerRequest d) = low
  have hlowo : (realm.putObject o low).object? o = some low := Realm.object?_putObject_self ho
  have hlowp : low.kind.isPlain := by rwa [← hlow]
  have hdoomed : low.properties.descendingFrom length
      = object.properties.descendingFrom length := by
    rw [← hlow]
    rfl
  refine Gives.bind (.of_eq (getObject_of_some hlowo)) ?_
  rw [hdoomed]
  exact (ArrayObject.deleteElements_gives_of_deeper_atLimit hlowo hlowp hd hi).bind_error

end LowerLength

/-! ### Defining the length and the elements -/

section Define

variable {host : Host H} {bound : Nat} {s : Surroundings H} {realm : Realm H} {o : ObjectId}
  {object : Object H} {current d : Descriptor} {length : Nat} {i : ArrayIndex}

theorem ArrayObject.lengthProperty_of_some (ho : realm.object? o = some object)
    (hc : object.properties.get? lengthKey = some current) :
    (ArrayObject.lengthProperty o).act s realm = .ok current realm := by
  unfold ArrayObject.lengthProperty
  rw [Engine.bind_of_ok (Ordinary.getOwnProperty_of_some ho lengthKey), hc]
  rfl

/-- The stored length is read, or something is missing. -/
theorem ArrayObject.lengthProperty_cases (s : Surroundings H) (realm : Realm H) (o : ObjectId) :
    (∃ object current, realm.object? o = some object
      ∧ object.properties.get? lengthKey = some current)
      ∨ ∃ f, (ArrayObject.lengthProperty o).act s realm = .error (.failure f) realm := by
  cases ho : realm.object? o with
  | none =>
    exact .inr ⟨_, Engine.bind_of_error (Engine.bind_of_error (getObject_of_none ho))⟩
  | some object =>
    cases hc : object.properties.get? lengthKey with
    | none =>
      refine .inr ⟨.internal "array without a length property", ?_⟩
      unfold ArrayObject.lengthProperty
      rw [Engine.bind_of_ok (Ordinary.getOwnProperty_of_some ho lengthKey), hc]
      rfl
    | some current => exact .inl ⟨object, current, rfl, hc⟩

/-- Defining the length of an array, unless the limit stands in the way of deleting elements. -/
theorem ArrayObject.setLengthTo_gives (ho : realm.object? o = some object)
    (hp : object.kind.isPlain) (hc : object.properties.get? lengthKey = some current)
    (hl : ¬realm.AtLimit) (hd : realm.deeper.AtLimit → ¬object.StartsDeleting current d length) :
    Gives 2 bound (ArrayObject.setLengthTo o d length (.bounded host bound) realm)
      (.ok (object.setLength current d length).2
        (realm.putObject o (object.setLength current d length).1)) := by
  unfold ArrayObject.setLengthTo Object.setLength
  refine Gives.bind (.of_eq (ArrayObject.lengthProperty_of_some ho hc)) ?_
  by_cases hle : ArrayObject.lengthOf current ≤ length
  · simp only [if_pos hle]
    exact Ordinary.define_length_gives ho hp hl
  · simp only [if_neg hle]
    by_cases hw : current.isWritable
    · simp only [hw]
      refine ArrayObject.lowerLength_gives ho hp hl fun h ha => ?_
      refine Decidable.byContradiction fun hdoomed => ?_
      exact hd h ⟨Nat.not_le.mp hle, hw, ha, hdoomed⟩
    · simp only [hw]
      rw [Bool.not_false, if_pos rfl, if_neg Bool.false_ne_true, Realm.putObject_self ho]
      exact .of_eq rfl

/-- Where the limit stands in the way, the length is lowered and the elements stay. -/
theorem ArrayObject.setLengthTo_gives_of_deeper_atLimit (ho : realm.object? o = some object)
    (hp : object.kind.isPlain) (hc : object.properties.get? lengthKey = some current)
    (hl : ¬realm.AtLimit) (hd : realm.deeper.AtLimit)
    (h : object.StartsDeleting current d length) :
    Gives 2 bound (ArrayObject.setLengthTo o d length (.bounded host bound) realm)
      (.error .overflow (realm.putObject o (object.define lengthKey
        (ArrayObject.lowerRequest { d with value := some (.nat length) })))) := by
  unfold ArrayObject.setLengthTo
  refine Gives.bind (.of_eq (ArrayObject.lengthProperty_of_some ho hc)) ?_
  simp only [if_neg (Nat.not_le.mpr h.lowers), h.writable]
  exact ArrayObject.lowerLength_gives_of_deeper_atLimit ho hp hl hd h.accepted h.doomed

theorem ArrayObject.setLengthTo_gives_of_atLimit (ho : realm.object? o = some object)
    (hc : object.properties.get? lengthKey = some current) (hl : realm.AtLimit) :
    Gives 2 bound (ArrayObject.setLengthTo o d length (.bounded host bound) realm)
      (if length < ArrayObject.lengthOf current ∧ current.isWritable = false
        then .ok false realm else .error .overflow realm) := by
  unfold ArrayObject.setLengthTo
  refine Gives.bind (.of_eq (ArrayObject.lengthProperty_of_some ho hc)) ?_
  by_cases hle : ArrayObject.lengthOf current ≤ length
  · simp only [if_pos hle, Nat.not_lt.mpr hle, false_and, if_false]
    exact (Ordinary.defineOwnProperty_gives_of_atLimit hl).mono (by decide)
  · simp only [if_neg hle, Nat.not_le.mp hle, true_and]
    by_cases hw : current.isWritable
    · simp only [hw]
      exact ((Ordinary.defineOwnProperty_gives_of_atLimit hl).mono (by decide)).bind_error
    · simp only [hw]
      exact .of_eq rfl

/-- Whether an element has no place, because the length is below it and read-only. -/
theorem ArrayObject.isFull_iff :
    (decide (ArrayObject.lengthOf current ≤ i.val) && !current.isWritable) = true
      ↔ ArrayObject.lengthOf current ≤ i.val ∧ current.isWritable = false := by
  simp

theorem ArrayObject.defineElement_gives (ho : realm.object? o = some object)
    (hp : object.kind.isPlain) (hu : object.kind.unitProperty? (.index i) = none)
    (hc : object.properties.get? lengthKey = some current) (hl : ¬realm.AtLimit) :
    Gives 2 bound (ArrayObject.defineElement o i d (.bounded host bound) realm)
      (.ok (object.defineElement current i d).2
        (realm.putObject o (object.defineElement current i d).1)) := by
  unfold ArrayObject.defineElement Object.defineElement
  refine Gives.bind (.of_eq (ArrayObject.lengthProperty_of_some ho hc)) ?_
  by_cases hfull : ArrayObject.lengthOf current ≤ i.val ∧ current.isWritable = false
  · have hfull' := ArrayObject.isFull_iff.mpr hfull
    simp only [if_pos hfull, hfull', if_true, Realm.putObject_self ho]
    exact .of_eq rfl
  · have hfull' := mt ArrayObject.isFull_iff.mp hfull
    simp only [if_neg hfull, if_neg hfull']
    refine ((Ordinary.defineOwnProperty_gives ho hp hu hl).mono (by decide)).bind ?_
    by_cases ha : object.accepts (.index i) d
    · have ho' : (realm.putObject o (object.define (.index i) d)).object? o
          = some (object.define (.index i) d) := Realm.object?_putObject_self ho
      simp only [ha, Object.defined_of_accepts ha]
      by_cases hle : ArrayObject.lengthOf current ≤ i.val
      · simp only [if_pos hle]
        refine (Ordinary.define_length_gives ho' hp hl).bind (.of_eq ?_)
        rw [Realm.putObject_putObject]
        rfl
      · simp only [if_neg hle]
        exact .of_eq rfl
    · have hrefused : object.defined (.index i) d = object := if_neg ha
      simp only [ha, hrefused]
      exact .of_eq rfl

theorem ArrayObject.defineElement_gives_of_atLimit (ho : realm.object? o = some object)
    (hc : object.properties.get? lengthKey = some current) (hl : realm.AtLimit) :
    Gives 2 bound (ArrayObject.defineElement o i d (.bounded host bound) realm)
      (if ArrayObject.lengthOf current ≤ i.val ∧ current.isWritable = false
        then .ok false realm else .error .overflow realm) := by
  unfold ArrayObject.defineElement
  refine Gives.bind (.of_eq (ArrayObject.lengthProperty_of_some ho hc)) ?_
  by_cases hfull : ArrayObject.lengthOf current ≤ i.val ∧ current.isWritable = false
  · have hfull' := ArrayObject.isFull_iff.mpr hfull
    simp only [if_pos hfull, hfull', if_true]
    exact .of_eq rfl
  · have hfull' := mt ArrayObject.isFull_iff.mp hfull
    simp only [if_neg hfull, if_neg hfull']
    exact ((Ordinary.defineOwnProperty_gives_of_atLimit hl).mono (by decide)).bind_error

end Define

end ScriptEngine
