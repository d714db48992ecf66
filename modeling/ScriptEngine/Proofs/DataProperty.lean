import ScriptEngine.Proofs.Definition
import ScriptEngine.Proofs.History
import ScriptEngine.Proofs.PropertySearch

/-!
# Creating data properties

An object that may get new properties and stores them itself gets one that it does not have, with
all its attributes, and nothing else changes. Objects that are built from known members are built
so.

## Main results

* `Object.Defines.createDataProperty_gives`: creating a property is a request to define it.
* `Object.defines_new`: a property that an object does not have is stored.
* `ObjectId.createMembers_gives`: the object after all members of a list were created.
-/

namespace ScriptEngine

open Engine

variable {H : HostTypes} {host : Host H} {bound : Nat} {realm : Realm H} {o : ObjectId}
  {object after : Object H} {k : PropertyKey} {v : Value}

/-- Creating a property that an object accepts. -/
theorem Object.Defines.createDataProperty_gives (h : object.Defines k (.plain v) after true)
    (ho : realm.object? o = some object) (hp : object.kind.isPlain)
    (hl : ¬realm.deeper.deeper.AtLimit) :
    Gives 3 bound ((o.createDataPropertyOrThrow k v).act (.bounded host bound) realm)
      (.ok () (realm.putObject o after)) := by
  have hdefine : Gives 3 bound ((o.createDataProperty k v).act (.bounded host bound) realm)
      (.ok true (realm.putObject o after)) := h.gives ho hp rfl hl
  exact hdefine.bindEngine (.of_eq rfl)

/-- A property that an object does not have is stored with all its attributes. -/
theorem Object.defines_new (hu : object.kind.unitProperty? k = none)
    (harray : object.kind.isArray = false) (he : object.extensible)
    (hk : object.properties.get? k = none) : object.Defines k (.plain v)
      { object with properties := object.properties.insert k (.plain v) } true := by
  have ha : object.accepts k (.plain v) = true := by
    rw [accepts, hk]
    exact he
  have hdefined : object.defined k (.plain v)
      = { object with properties := object.properties.insert k (.plain v) } := by
    rw [defined_of_accepts ha, define, PropertyMap.define, hk]
    rfl
  have hdefines : object.Defines k (.plain v) (object.defined k (.plain v))
      (object.accepts k (.plain v)) :=
    .stored hu fun h => absurd (harray ▸ h) Bool.false_ne_true
  rwa [hdefined, ha] at hdefines

/-- Members with different names are created one after the other. -/
theorem ObjectId.createMembers_gives (members : List (String × Value))
    (ho : realm.object? o = some object) (hk : object.kind = .ordinary) (he : object.extensible)
    (hnew : ∀ m ∈ members, object.properties.get? (.string m.1) = none)
    (hd : (members.map Prod.fst).Nodup) (hl : ¬realm.deeper.deeper.AtLimit) :
    Gives 3 bound
      ((members.forM fun (name, v) => o.createDataPropertyOrThrow (.string name) v).act
        (.bounded host bound) realm)
      (.ok () (realm.putObject o { object with
        properties := object.properties.insertAll
          (members.map fun (name, v) => (.string name, .plain v)) })) := by
  induction members generalizing realm object with
  | nil =>
    refine .of_eq (congrArg (EStateM.Result.ok ()) ?_)
    exact (Realm.putObject_self ho).symm
  | cons member rest ih =>
    obtain ⟨name, v⟩ := member
    obtain ⟨hname, hrest⟩ := List.forall_mem_cons.mp hnew
    obtain ⟨hnot, hd⟩ := List.nodup_cons.mp hd
    have hdefines : object.Defines (.string name) (.plain v) _ true :=
      Object.defines_new (by rw [hk]; rfl) (by rw [hk]; rfl) he hname
    refine (hdefines.createDataProperty_gives ho (by rw [hk]; rfl) hl).bindEngine ?_
    let object' : Object H := { object with
      properties := object.properties.insert (.string name) (.plain v) }
    have hput : (realm.putObject o object').object? o = some object' :=
      Realm.object?_putObject_self ho
    have hlater := ih hput hk he (fun m hm => ?_) hd hl
    · rwa [Realm.putObject_putObject] at hlater
    · have hne : PropertyKey.string m.1 ≠ .string name :=
        fun heq => hnot (List.mem_map.mpr ⟨m, hm, PropertyKey.string.inj heq⟩)
      exact (PropertyMap.get?_insert_of_ne hne ..).trans (hrest m hm)

/-! ### What is stored of members -/

namespace PropertyMap

variable {m : PropertyMap} {entries : List (PropertyKey × Descriptor)} {d : Descriptor}

theorem get?_insertAll_of_notMem (h : k ∉ entries.map Prod.fst) :
    (m.insertAll entries).get? k = m.get? k := by
  induction entries generalizing m with
  | nil => rfl
  | cons e rest ih =>
    rw [List.map_cons, List.mem_cons, not_or] at h
    exact (ih h.2).trans (get?_insert_of_ne h.1 ..)

/-- Where the keys are different, each has the property that was set for it. -/
theorem get?_insertAll_of_mem (hd : (entries.map Prod.fst).Nodup) (h : (k, d) ∈ entries) :
    (m.insertAll entries).get? k = some d := by
  induction entries generalizing m with
  | nil => cases h
  | cons e rest ih =>
    obtain ⟨hnot, hd⟩ := List.nodup_cons.mp hd
    rcases List.mem_cons.mp h with rfl | h
    · exact (get?_insertAll_of_notMem hnot).trans (get?_insert_self ..)
    · exact ih hd h

end PropertyMap

end ScriptEngine
