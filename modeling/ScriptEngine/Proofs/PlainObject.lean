import ScriptEngine.Proofs.Outcome

/-!
# Objects that keep their own properties

What the internal methods do with an object that is neither a proxy nor a namespace. They run no
code of the program, so each outcome is known: it is read off the object, or a changed object is put
in its place. Where the depth of calls is at its limit they fail and change nothing.

## Main definitions

* `Object.accepts`, `Object.defined`: whether a request to define a property is accepted, and the
  object after it.
* `Object.deletes`, `Object.deleted`: the same for a request to delete one.

## Main results

* `ObjectId.getOwnProperty_gives`, `ObjectId.isExtensible_gives`, `ObjectId.getPrototypeOf_gives`:
  reading an object.
* `ObjectId.eq_of_getOwnProperty`, `ObjectId.eq_of_isExtensible`, `ObjectId.eq_of_getPrototypeOf`:
  what it means that reading an object has a result.
* `Ordinary.defineOwnProperty_gives`, `Ordinary.delete_gives`: writing to an object.
-/

namespace ScriptEngine

open Engine

variable {H : HostTypes} {α : Type}

/-! ### Storage -/

namespace Realm

variable {realm : Realm H} {o o' : ObjectId} {object after : Object H}

theorem index_lt_of_object? (h : realm.object? o = some object) : o.index < realm.heap.size :=
  (Array.getElem?_eq_some_iff.mp h).1

theorem object?_putObject_self (h : realm.object? o = some object) :
    (realm.putObject o after).object? o = some after := by
  simp [object?, putObject, index_lt_of_object? h]

theorem object?_putObject_of_ne (h : o' ≠ o) :
    (realm.putObject o after).object? o' = realm.object? o' := by
  have hne : o.index ≠ o'.index := fun heq => h (by cases o; cases o'; simp_all)
  simp [object?, putObject, hne]

theorem putObject_putObject (before after : Object H) :
    (realm.putObject o before).putObject o after = realm.putObject o after := by
  simp [putObject]

theorem putObject_self (h : realm.object? o = some object) : realm.putObject o object = realm := by
  have hset : realm.heap.setIfInBounds o.index object = realm.heap := by
    apply Array.ext_getElem?
    intro i
    rw [Array.getElem?_setIfInBounds]
    split
    · next heq =>
      subst heq
      rw [if_pos (index_lt_of_object? h)]
      exact h.symm
    · rfl
  rw [putObject, hset]

end Realm

/-! ### Requests and objects -/

namespace Object

variable {object : Object H} {k : PropertyKey} {d e : Descriptor}

/-- Whether a request to define a property that is not that of a code unit is accepted. -/
def accepts (object : Object H) (k : PropertyKey) (d : Descriptor) : Bool :=
  d.isCompatible object.extensible (object.properties.get? k)

/-- The object after a request to define a property. -/
def defined (object : Object H) (k : PropertyKey) (d : Descriptor) : Object H :=
  if object.accepts k d then object.define k d else object

/-- Whether a request to delete a property is accepted. -/
def deletes (object : Object H) (k : PropertyKey) : Bool :=
  (object.ownProperty? k).all Descriptor.isConfigurable

/-- The object after a request to delete a property. -/
def deleted (object : Object H) (k : PropertyKey) : Object H :=
  if (object.ownProperty? k).any Descriptor.isConfigurable
  then { object with properties := object.properties.erase k } else object

theorem ownProperty?_of_unitProperty?_eq_none (h : object.kind.unitProperty? k = none) :
    object.ownProperty? k = object.properties.get? k := by
  rw [ownProperty?, h, Option.or_none]

theorem define_of_definedOver (hk : object.properties.get? k = some e)
    (h : d.definedOver (some e) = e) : object.define k d = object := by
  rw [define, PropertyMap.define, hk, h, PropertyMap.insert_of_get?_eq_some hk]

end Object

/-! ### Reading an object -/

section Read

variable {s : Surroundings H} {realm : Realm H} {o : ObjectId} {object : Object H}

theorem ObjectKind.unitProperty?_eq_none {kind : ObjectKind H} (h : ∀ text, kind ≠ .string text)
    (k : PropertyKey) : kind.unitProperty? k = none := by
  unfold unitProperty?
  split
  · next text _ => exact absurd rfl (h text)
  · rfl

/-- The property of a code unit is fixed. -/
theorem ObjectKind.unitProperty?_eq_some {kind : ObjectKind H} {k : PropertyKey} {d : Descriptor}
    (h : kind.unitProperty? k = some d) : ∃ v, d = .data v false true false := by
  unfold unitProperty? at h
  split at h
  · obtain ⟨u, -, rfl⟩ := Option.map_eq_some_iff.mp h
    exact ⟨_, rfl⟩
  · cases h

/-- A property that an object shows as its own has all its attributes. -/
theorem Object.Sound.isStorable_of_ownProperty? {k : PropertyKey}
    {d : Descriptor} (hs : object.Sound) (hk : object.ownProperty? k = some d) :
    d.isStorable := by
  rcases Option.or_eq_some_iff.mp hk with hk | ⟨-, hk⟩
  · exact hs.storable k d hk
  · obtain ⟨v, rfl⟩ := ObjectKind.unitProperty?_eq_some hk
    rfl

theorem Ordinary.getOwnProperty_of_some (ho : realm.object? o = some object) (k : PropertyKey) :
    (Ordinary.getOwnProperty o k).act s realm = .ok (object.properties.get? k) realm := by
  unfold Ordinary.getOwnProperty
  rw [Engine.bind_of_ok (getObject_of_some ho)]
  rfl

theorem StringObject.getUnitProperty_of_some (ho : realm.object? o = some object)
    (k : PropertyKey) :
    (StringObject.getUnitProperty o k).act s realm = .ok (object.kind.unitProperty? k) realm := by
  unfold StringObject.getUnitProperty
  rw [Engine.bind_of_ok (getKind_of_some ho)]
  rfl

theorem StringObject.getOwnProperty_of_some (ho : realm.object? o = some object)
    (k : PropertyKey) :
    (StringObject.getOwnProperty o k).act s realm = .ok (object.ownProperty? k) realm := by
  unfold StringObject.getOwnProperty
  rw [Engine.bind_of_ok (Ordinary.getOwnProperty_of_some ho k)]
  cases hk : object.properties.get? k with
  | some d => simp [Object.ownProperty?, hk, pure]
  | none =>
    rw [StringObject.getUnitProperty_of_some ho]
    simp [Object.ownProperty?, hk]

theorem Dispatch.getOwnProperty_of_isPlain (ho : realm.object? o = some object)
    (hp : object.kind.isPlain) (k : PropertyKey) :
    (Dispatch.getOwnProperty o k).act s realm = .ok (object.ownProperty? k) realm := by
  unfold Dispatch.getOwnProperty
  rw [Engine.bind_of_ok (getKind_of_some ho)]
  split
  · next hk => simp [hk, ObjectKind.isPlain] at hp
  · next hk => simp [hk, ObjectKind.isPlain] at hp
  · exact StringObject.getOwnProperty_of_some ho k
  · next hs =>
    rw [Ordinary.getOwnProperty_of_some ho, Object.ownProperty?,
      ObjectKind.unitProperty?_eq_none hs, Option.or_none]

/-- An object that keeps its own properties itself has the ordinary method, also where that is no
computation of the engine. -/
theorem Action.getKind_bind_of_isPlain {proxy : ProxyData → Action H α}
    {namespace_ : NamespaceData → Action H α} {ordinary : Action H α}
    (ho : realm.object? o = some object) (hp : object.kind.isPlain) :
    ((getKind o).act >>= fun
      | .proxy data => proxy data
      | .moduleNamespace data => namespace_ data
      | _ => ordinary) s realm = ordinary s realm := by
  refine (Action.bind_of_ok (getKind_of_some ho)).trans ?_
  cases hk : object.kind with
  | proxy data => simp [hk, ObjectKind.isPlain] at hp
  | moduleNamespace data => simp [hk, ObjectKind.isPlain] at hp
  | _ => rfl

/-- An object that keeps its own properties itself has the ordinary method. -/
theorem Engine.getKind_bind_of_isPlain {proxy : ProxyData → Engine H α}
    {namespace_ : NamespaceData → Engine H α} {ordinary : Engine H α}
    (ho : realm.object? o = some object) (hp : object.kind.isPlain) :
    (getKind o >>= fun
      | .proxy data => proxy data
      | .moduleNamespace data => namespace_ data
      | _ => ordinary).act s realm = ordinary.act s realm := by
  rw [Engine.bind_of_ok (getKind_of_some ho)]
  cases hk : object.kind with
  | proxy data => simp [hk, ObjectKind.isPlain] at hp
  | moduleNamespace data => simp [hk, ObjectKind.isPlain] at hp
  | _ => rfl

theorem Dispatch.isExtensible_of_isPlain (ho : realm.object? o = some object)
    (hp : object.kind.isPlain) :
    (Dispatch.isExtensible o).act s realm = .ok object.extensible realm := by
  refine (Engine.getKind_bind_of_isPlain ho hp).trans ?_
  unfold Ordinary.isExtensible
  rw [Engine.bind_of_ok (getObject_of_some ho)]
  rfl

theorem Dispatch.getPrototypeOf_of_isPlain (ho : realm.object? o = some object)
    (hp : object.kind.isPlain) :
    (Dispatch.getPrototypeOf o).act s realm = .ok object.prototype realm := by
  refine (Engine.getKind_bind_of_isPlain ho hp).trans ?_
  unfold Ordinary.getPrototypeOf
  rw [Engine.bind_of_ok (getObject_of_some ho)]
  rfl

variable {host : Host H} {bound : Nat}

/-- The own property of a key is read off the object. -/
theorem ObjectId.getOwnProperty_gives (ho : realm.object? o = some object)
    (hp : object.kind.isPlain) (hl : ¬realm.AtLimit) (k : PropertyKey) :
    Gives 1 bound ((o.getOwnProperty k).act (.bounded host bound) realm)
      (.ok (object.ownProperty? k) realm) := by
  have ho' : realm.deeper.object? o = some object := ho
  exact Gives.answer fun _ =>
    .of_eq (Action.nested_of_ok hl (Dispatch.getOwnProperty_of_isPlain ho' hp k))

theorem ObjectId.getOwnProperty_gives_of_atLimit (hl : realm.AtLimit) (k : PropertyKey) :
    Gives 1 bound ((o.getOwnProperty k).act (.bounded host bound) realm)
      (.error .overflow realm) :=
  Gives.answer fun _ => .of_eq (Action.nested_of_atLimit hl)

theorem ObjectId.isExtensible_gives (ho : realm.object? o = some object)
    (hp : object.kind.isPlain) (hl : ¬realm.AtLimit) :
    Gives 1 bound (o.isExtensible.act (.bounded host bound) realm)
      (.ok object.extensible realm) := by
  have ho' : realm.deeper.object? o = some object := ho
  exact Gives.answer fun _ =>
    .of_eq (Action.nested_of_ok hl (Dispatch.isExtensible_of_isPlain ho' hp))

theorem ObjectId.getPrototypeOf_gives (ho : realm.object? o = some object)
    (hp : object.kind.isPlain) (hl : ¬realm.AtLimit) :
    Gives 1 bound (o.getPrototypeOf.act (.bounded host bound) realm)
      (.ok object.prototype realm) := by
  have ho' : realm.deeper.object? o = some object := ho
  exact Gives.answer fun _ =>
    .of_eq (Action.nested_of_ok hl (Dispatch.getPrototypeOf_of_isPlain ho' hp))

theorem ObjectId.isExtensible_gives_of_atLimit (hl : realm.AtLimit) :
    Gives 1 bound (o.isExtensible.act (.bounded host bound) realm) (.error .overflow realm) :=
  Gives.answer fun _ => .of_eq (Action.nested_of_atLimit hl)

theorem ObjectId.getPrototypeOf_gives_of_atLimit (hl : realm.AtLimit) :
    Gives 1 bound (o.getPrototypeOf.act (.bounded host bound) realm) (.error .overflow realm) :=
  Gives.answer fun _ => .of_eq (Action.nested_of_atLimit hl)

/-- A computation that gives one result, or fails where the depth of calls is at its limit. -/
theorem Gives.eq_of_ok_or_atLimit {need : Nat} {outcome : EStateM.Result Stop (Realm H) α}
    {a b : α} {after : Realm H} (h : ¬realm.AtLimit → Gives need bound outcome (.ok a realm))
    (hl : realm.AtLimit → Gives need bound outcome (.error .overflow realm))
    (ho : outcome = .ok b after) : b = a ∧ after = realm := by
  by_cases hlimit : realm.AtLimit
  · cases (hl hlimit).eq_of_ok ho
  · cases (h hlimit).eq_of_ok ho
    exact ⟨rfl, rfl⟩

theorem ObjectId.eq_of_getOwnProperty {k : PropertyKey} {d : Option Descriptor} {after : Realm H}
    (ho : realm.object? o = some object) (hp : object.kind.isPlain)
    (h : (o.getOwnProperty k).act (.bounded host bound) realm = .ok d after) :
    d = object.ownProperty? k ∧ after = realm :=
  Gives.eq_of_ok_or_atLimit (fun hl => ObjectId.getOwnProperty_gives ho hp hl k)
    (fun hl => ObjectId.getOwnProperty_gives_of_atLimit hl k) h

theorem ObjectId.eq_of_isExtensible {b : Bool} {after : Realm H}
    (ho : realm.object? o = some object) (hp : object.kind.isPlain)
    (h : o.isExtensible.act (.bounded host bound) realm = .ok b after) :
    b = object.extensible ∧ after = realm :=
  Gives.eq_of_ok_or_atLimit (fun hl => ObjectId.isExtensible_gives ho hp hl)
    (fun hl => ObjectId.isExtensible_gives_of_atLimit hl) h

theorem ObjectId.eq_of_getPrototypeOf {prototype : Option ObjectId} {after : Realm H}
    (ho : realm.object? o = some object) (hp : object.kind.isPlain)
    (h : o.getPrototypeOf.act (.bounded host bound) realm = .ok prototype after) :
    prototype = object.prototype ∧ after = realm :=
  Gives.eq_of_ok_or_atLimit (fun hl => ObjectId.getPrototypeOf_gives ho hp hl)
    (fun hl => ObjectId.getPrototypeOf_gives_of_atLimit hl) h

end Read

/-! ### Writing to an object -/

section Write

variable {host : Host H} {bound : Nat} {realm : Realm H} {o : ObjectId} {object : Object H}
  {k : PropertyKey} {d : Descriptor}

/-- The check of a request looks at no more than what it is given, and a request that is accepted is
written to the object, given that the property is what it is said to be. -/
theorem Ordinary.applyDescriptor_of_some (s : Surroundings H) (ho : realm.object? o = some object)
    (extensible : Bool) (d : Descriptor) (current : Option Descriptor) :
    ∃ after, Ordinary.applyDescriptor o k extensible d current s realm
        = .ok (d.isCompatible extensible current) after
      ∧ (d.isCompatible extensible current = false → after = realm)
      ∧ (d.isCompatible extensible current = true → object.properties.get? k = current →
        after = realm.putObject o (object.define k d)) := by
  unfold Ordinary.applyDescriptor
  by_cases hc : d.isCompatible extensible current
  · simp only [hc, Bool.not_true, Bool.false_eq_true, if_false]
    cases current with
    | none =>
      refine ⟨_, Action.bind_of_ok (Action.modifyObject_of_some ho), fun h => (by cases h),
        fun _ hk => ?_⟩
      rw [Object.define, PropertyMap.define, hk]
      rfl
    | some current =>
      simp only
      by_cases hs : Descriptor.isSettled current d
      · simp only [hs]
        refine ⟨realm, rfl, fun h => (by cases h), fun _ hk => ?_⟩
        have hd : d.definedOver (some current) = current := by
          simp [Descriptor.definedOver, Descriptor.apply, hs]
        rw [Object.define_of_definedOver hk hd, Realm.putObject_self ho]
      · simp only [hs]
        refine ⟨_, Action.bind_of_ok (Action.modifyObject_of_some ho), fun h => (by cases h),
          fun _ hk => ?_⟩
        rw [Object.define, PropertyMap.define, PropertyMap.modify, hk]
        rfl
  · simp only [hc]
    exact ⟨realm, rfl, fun _ => rfl, fun h => by cases h⟩

theorem Ordinary.applyDescriptor_eq (s : Surroundings H) (ho : realm.object? o = some object) :
    Ordinary.applyDescriptor o k object.extensible d (object.properties.get? k) s realm
      = .ok (object.accepts k d) (realm.putObject o (object.defined k d)) := by
  obtain ⟨after, heq, hrefused, haccepted⟩ := Ordinary.applyDescriptor_of_some (k := k) s ho
    object.extensible d (object.properties.get? k)
  rw [heq, Object.accepts, Object.defined, Object.accepts]
  cases hc : d.isCompatible object.extensible (object.properties.get? k) with
  | false => rw [hrefused hc, if_neg Bool.false_ne_true, Realm.putObject_self ho]
  | true => rw [haccepted hc rfl, if_pos rfl]

theorem Ordinary.defineOwnProperty_gives_of_atLimit (hl : realm.AtLimit) :
    Gives 1 bound (Ordinary.defineOwnProperty o k d (.bounded host bound) realm)
      (.error .overflow realm) :=
  (ObjectId.getOwnProperty_gives_of_atLimit hl k).bind_error

/-- Defining a property of an object: the request is carried out if it is compatible with the
object as it is. -/
theorem Ordinary.defineOwnProperty_gives (ho : realm.object? o = some object)
    (hp : object.kind.isPlain) (hu : object.kind.unitProperty? k = none) (hl : ¬realm.AtLimit) :
    Gives 1 bound (Ordinary.defineOwnProperty o k d (.bounded host bound) realm)
      (.ok (object.accepts k d) (realm.putObject o (object.defined k d))) := by
  refine (ObjectId.getOwnProperty_gives ho hp hl k).bind ?_
  refine (ObjectId.isExtensible_gives ho hp hl).bind (.of_eq ?_)
  rw [Object.ownProperty?_of_unitProperty?_eq_none hu]
  exact Ordinary.applyDescriptor_eq _ ho

theorem Ordinary.delete_gives_of_atLimit (hl : realm.AtLimit) :
    Gives 1 bound (Ordinary.delete o k (.bounded host bound) realm) (.error .overflow realm) :=
  (ObjectId.getOwnProperty_gives_of_atLimit hl k).bind_error

/-- Deleting a property of an object: it goes if it is configurable. -/
theorem Ordinary.delete_gives (ho : realm.object? o = some object) (hp : object.kind.isPlain)
    (hl : ¬realm.AtLimit) :
    Gives 1 bound (Ordinary.delete o k (.bounded host bound) realm)
      (.ok (object.deletes k) (realm.putObject o (object.deleted k))) := by
  refine (ObjectId.getOwnProperty_gives ho hp hl k).bind (.of_eq ?_)
  unfold Object.deletes Object.deleted
  cases hk : object.ownProperty? k with
  | none =>
    simp only [Option.any_none, Option.all_none, Bool.false_eq_true, if_false,
      Realm.putObject_self ho]
    rfl
  | some d =>
    by_cases hc : d.isConfigurable
    · simp only [hc, Option.any_some, Option.all_some, if_true]
      exact Action.bind_of_ok (Action.modifyObject_of_some ho)
    · simp only [hc, Option.any_some, Option.all_some, Bool.false_eq_true, if_false,
        Realm.putObject_self ho]
      rfl

end Write

end ScriptEngine
