import Mathlib.Data.List.Nodup
import ScriptEngine.Proofs.DataProperty

/-!
# Descriptors as objects, there and back

The object that describes a descriptor has one member for each attribute that is present. Read back,
it gives the same descriptor: an absent attribute stays absent, as long as the object does not
inherit a member of that name, and a getter or setter that is `undefined` stays apart from none.

## Main definitions

* `Descriptor.attributes`, `Descriptor.attributeNames`: the attributes of a descriptor, present or
  absent.
* `Descriptor.described`: the object that describes a descriptor.

## Main results

* `Descriptor.toObject_gives`, `ObjectId.member?_gives`: writing and reading such an object.
* `toObject_toDescriptor`: there and back.
-/

namespace ScriptEngine

open Engine

variable {H : HostTypes}

namespace Descriptor

/-- The attributes of a descriptor with their names, present or absent. -/
def attributes (d : Descriptor) : List (String × Option Value) :=
  [("value", d.value), ("writable", d.writable.map .bool), ("get", d.get), ("set", d.set),
   ("enumerable", d.enumerable.map .bool), ("configurable", d.configurable.map .bool)]

/-- The names of the attributes. -/
def attributeNames : List String :=
  ["value", "writable", "get", "set", "enumerable", "configurable"]

/-- The object that describes a descriptor. -/
def described (d : Descriptor) (prototype : ObjectId) : Object H :=
  { Object.ofKind (some prototype) .ordinary with
    properties := ({} : PropertyMap).insertAll
      (d.members.map fun (name, v) => (.string name, .plain v)) }

variable {d : Descriptor} {name : String} {v : Value} {v? : Option Value}

theorem mem_attributeNames (h : (name, v?) ∈ d.attributes) : name ∈ attributeNames := by
  have hmem : name ∈ d.attributes.map Prod.fst := List.mem_map.mpr ⟨_, h, rfl⟩
  exact hmem

theorem attributeNames_nodup : attributeNames.Nodup := by decide

/-- A name stands for one attribute. -/
theorem attributes_unique {v?' : Option Value} (h : (name, v?) ∈ d.attributes)
    (h' : (name, v?') ∈ d.attributes) : v? = v?' := by
  have hnodup : (d.attributes.map Prod.fst).Nodup := attributeNames_nodup
  exact congrArg Prod.snd (List.inj_on_of_nodup_map hnodup h h' rfl)

/-- The members are the attributes that are present. -/
theorem mem_members : (name, v) ∈ d.members ↔ (name, some v) ∈ d.attributes := by
  change (name, v) ∈ d.attributes.filterMap (fun a => a.2.map fun v => (a.1, v)) ↔ _
  rw [List.mem_filterMap]
  constructor
  · rintro ⟨⟨name', v?⟩, hmem, heq⟩
    obtain ⟨v', rfl, hpair⟩ := Option.map_eq_some_iff.mp heq
    cases hpair
    exact hmem
  · intro hmem
    exact ⟨_, hmem, rfl⟩

theorem members_names_nodup (d : Descriptor) : (d.members.map Prod.fst).Nodup := by
  have hnames : d.members.map Prod.fst
      = (d.attributes.filter fun a => a.2.isSome).map Prod.fst := by
    change (d.attributes.filterMap fun a => a.2.map fun v => (a.1, v)).map Prod.fst = _
    induction d.attributes with
    | nil => rfl
    | cons a rest ih =>
      obtain ⟨name, _ | v⟩ := a
      · exact ih
      · exact congrArg (name :: ·) ih
  rw [hnames]
  exact attributeNames_nodup.sublist (List.filter_sublist.map Prod.fst)

/-- A member of the object is the attribute of that name. -/
theorem ownProperty?_described (prototype : ObjectId) (h : (name, v?) ∈ d.attributes) :
    (d.described prototype : Object H).ownProperty? (.string name) = v?.map .plain := by
  rw [Object.ownProperty?_of_unitProperty?_eq_none rfl]
  change (({} : PropertyMap).insertAll _).get? _ = _
  have hkeys : (d.members.map fun (name, v) =>
      ((PropertyKey.string name, plain v) : PropertyKey × Descriptor)).map Prod.fst
        = (d.members.map Prod.fst).map PropertyKey.string := by
    rw [List.map_map, List.map_map]
    rfl
  cases v? with
  | some v =>
    refine PropertyMap.get?_insertAll_of_mem ?_ (List.mem_map.mpr ⟨_, mem_members.mpr h, rfl⟩)
    rw [hkeys]
    exact d.members_names_nodup.map fun _ _ => PropertyKey.string.inj
  | none =>
    refine (PropertyMap.get?_insertAll_of_notMem fun hmem => ?_).trans
      (PropertyMap.get?_empty _)
    rw [hkeys, List.mem_map] at hmem
    obtain ⟨name', hmem, heq⟩ := hmem
    cases heq
    obtain ⟨⟨_, v⟩, hmember, rfl⟩ := List.mem_map.mp hmem
    cases attributes_unique h (mem_members.mp hmember)

/-- A boolean attribute is written as a boolean. -/
theorem map_toBoolean (b? : Option Bool) : (b?.map Value.bool).map Value.toBoolean = b? := by
  cases b? <;> rfl

end Descriptor

/-! ### Writing and reading -/

section Run

variable {host : Host H} {bound n : Nat} {realm : Realm H} {d : Descriptor} {o : ObjectId}
  {name title : String} {v? : Option Value}

/-- The object that describes a descriptor is the only thing that is new. -/
theorem Descriptor.toObject_gives (hl : ¬realm.deeper.deeper.AtLimit) :
    Gives 3 bound (d.toObject.act (.bounded host bound) realm)
      (.ok ⟨realm.heap.size⟩
        (realm.push (d.described (realm.intrinsics.get .objectPrototype)))) := by
  let empty : Object H := .ofKind (some (realm.intrinsics.get .objectPrototype)) .ordinary
  have hnew : (newPlain : Engine H ObjectId).act (.bounded host bound) realm
      = .ok ⟨realm.heap.size⟩ (realm.push empty) := rfl
  refine Gives.bindEngine (.of_eq hnew) ?_
  refine Gives.bindEngine (ObjectId.createMembers_gives d.members
    (realm.object?_push_self empty) rfl rfl (fun m _ => PropertyMap.get?_empty _)
    d.members_names_nodup hl) (.of_eq ?_)
  rw [Realm.push, Realm.putObject_push]
  rfl

/-- An object has the members that are attributes, and inherits none of the others. -/
theorem ObjectId.member?_gives {p : ObjectId} (h : (name, v?) ∈ d.attributes)
    (ho : realm.object? o = some (d.described p)) (hlacks : realm.Lacks (.string name) n p)
    (hl : ¬(realm.atDepth (realm.callDepth + n + 2)).AtLimit) :
    Gives (n + 3) bound ((o.member? name).act (.bounded host bound) realm) (.ok v? realm) := by
  have hown := Descriptor.ownProperty?_described (H := H) p h
  cases v? with
  | some v =>
    have hfinds : realm.FindsAfter (.string name) 0 o (some (.plain v)) := .own ho rfl hown
    have hdepth : ¬(realm.atDepth (realm.callDepth + 0 + 1)).AtLimit :=
      fun h => hl (Realm.atLimit_of_le (by omega) h)
    refine Gives.bindEngine ((hfinds.hasProperty_gives realm.callDepth hdepth).mono (by omega)) ?_
    refine Gives.bindEngine ((hfinds.getFor_gives (fun e he => ?_) realm.callDepth hdepth).mono
      (by omega)) (.of_eq rfl)
    cases he
    rfl
  | none =>
    have hlacks' : realm.Lacks (.string name) (n + 1) o := .next ho rfl hown rfl hlacks
    refine Gives.bindEngine (hlacks'.hasProperty_gives realm.callDepth fun h => hl ?_) (.of_eq rfl)
    exact Realm.atLimit_of_le (by omega) h

/-- A getter or setter is read back if it is `undefined` or can be called. -/
theorem ObjectId.accessorMember?_gives
    (h : Gives (n + 3) bound ((o.member? name).act (.bounded host bound) realm) (.ok v? realm))
    (hv : ∀ f, v? = some f → f.isUndefined ∨ realm.isCallable f) :
    Gives (n + 3) bound ((o.accessorMember? name title).act (.bounded host bound) realm)
      (.ok v? realm) := by
  refine Gives.bindEngine h (.of_eq ?_)
  cases v? with
  | none => rfl
  | some f =>
    have hcallable : (isCallable f).act (.bounded host bound) realm
        = .ok (realm.isCallable f) realm := rfl
    cases hu : f.isUndefined with
    | true =>
      simp only [hu]
      rfl
    | false =>
      have hf := (hv f rfl).resolve_left (by simp [hu])
      simp only [hu, Bool.not_false]
      rw [Engine.bind_of_ok hcallable, hf]
      rfl

/-- What is read from an object that describes a descriptor is the descriptor. -/
theorem Value.toDescriptor_gives {p : ObjectId} (hd : d.isValid)
    (hget : ∀ f, d.get = some f → f.isUndefined ∨ realm.isCallable f)
    (hset : ∀ f, d.set = some f → f.isUndefined ∨ realm.isCallable f)
    (ho : realm.object? o = some (d.described p))
    (hlacks : ∀ name ∈ Descriptor.attributeNames, realm.Lacks (.string name) n p)
    (hl : ¬(realm.atDepth (realm.callDepth + n + 2)).AtLimit) :
    Gives (n + 3) bound ((Value.object o).toDescriptor.act (.bounded host bound) realm)
      (.ok d realm) := by
  have hmember (name : String) (v? : Option Value) (h : (name, v?) ∈ d.attributes) :
      Gives (n + 3) bound ((o.member? name).act (.bounded host bound) realm) (.ok v? realm) :=
    ObjectId.member?_gives h ho (hlacks name (Descriptor.mem_attributeNames h)) hl
  refine Gives.bindEngine
    (hmember "enumerable" (d.enumerable.map .bool) (by simp [Descriptor.attributes])) ?_
  refine Gives.bindEngine
    (hmember "configurable" (d.configurable.map .bool) (by simp [Descriptor.attributes])) ?_
  refine Gives.bindEngine
    (hmember "value" d.value (by simp [Descriptor.attributes])) ?_
  refine Gives.bindEngine
    (hmember "writable" (d.writable.map .bool) (by simp [Descriptor.attributes])) ?_
  refine (ObjectId.accessorMember?_gives
    (hmember "get" d.get (by simp [Descriptor.attributes])) hget).bindEngine ?_
  refine (ObjectId.accessorMember?_gives
    (hmember "set" d.set (by simp [Descriptor.attributes])) hset).bindEngine (.of_eq ?_)
  simp only [Descriptor.map_toBoolean, hd, Bool.not_true, Bool.false_eq_true, if_false]
  rfl

/-- A descriptor is written to a new object, and read back from it as it was, if no member is
inherited from the prototype of objects. A getter or setter has to be `undefined` or a function, and
the new object is the only thing that is new. -/
theorem toObject_toDescriptor (host : Host H) (hd : d.isValid)
    (hget : ∀ f, d.get = some f → f.isUndefined ∨ realm.isCallable f)
    (hset : ∀ f, d.set = some f → f.isUndefined ∨ realm.isCallable f)
    (hlacks : ∀ name ∈ Descriptor.attributeNames,
      realm.Lacks (.string name) n (realm.intrinsics.get .objectPrototype))
    (hl : ¬(realm.atDepth (realm.callDepth + n + 2)).AtLimit) (hb : n + 3 ≤ bound) :
    ∃ object, d.toObject.run host bound realm = .ok ⟨realm.heap.size⟩ (realm.push object)
      ∧ (Value.object ⟨realm.heap.size⟩).toDescriptor.run host bound (realm.push object)
        = .ok d (realm.push object) := by
  let object : Object H := d.described (realm.intrinsics.get .objectPrototype)
  have hretains : realm.Retains (realm.push object) := realm.retains_push object
  have hcallable (f : Value) (h : f.isUndefined ∨ realm.isCallable f) :
      f.isUndefined ∨ (realm.push object).isCallable f := h.imp_right hretains.isCallable
  refine ⟨object, ?_, ?_⟩
  · refine (Descriptor.toObject_gives fun h => hl ?_).eq_of_le (by omega)
    exact Realm.atLimit_of_le (m := realm.callDepth + 2) (by omega) h
  · exact (Value.toDescriptor_gives hd (fun f hf => hcallable f (hget f hf))
      (fun f hf => hcallable f (hset f hf)) (realm.object?_push_self object)
      (fun name hname => (hlacks name hname).retained hretains) hl).eq_of_le hb

end Run

/-- A getter that is `undefined` comes back, and a setter that is absent stays absent. -/
theorem toObject_toDescriptor_parentRealm :
    ∃ object, (Descriptor.toObject { get := some .undefined, enumerable := some false }).run
          Host.bare 3 parentRealm = .ok ⟨1⟩ (parentRealm.push object)
      ∧ (Value.object ⟨1⟩).toDescriptor.run Host.bare 3 (parentRealm.push object)
        = .ok { get := some .undefined, enumerable := some false } (parentRealm.push object) := by
  let d : Descriptor := { get := some .undefined, enumerable := some false }
  have hlacks : ∀ name ∈ Descriptor.attributeNames,
      parentRealm.Lacks (.string name) 0 (parentRealm.intrinsics.get .objectPrototype) :=
    fun name _ => .last rfl rfl rfl rfl
  exact toObject_toDescriptor Host.bare (d := d) rfl (fun f hf => by cases hf; exact .inl rfl)
    (fun f hf => by cases hf) hlacks (by decide) (Nat.le_refl 3)

end ScriptEngine
