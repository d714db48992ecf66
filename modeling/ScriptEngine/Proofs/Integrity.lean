import ScriptEngine.Evaluation
import ScriptEngine.Proofs.Lawful

/-!
# What programs cannot undo

An object that is not extensible stays so, with its prototype and without new properties, and a
property that is not configurable stays with what is fixed in it. No request can change that,
whatever code of the program it runs, as long as the realm is not disposed of in between.

## Main definitions

* `Object.Keeps`: what an object has kept from before.

## Main results

* `Object.Change.keeps`: one change of an object keeps what is fixed.
* `Realm.Steps.keeps`: so does every run of a realm.
* `answer_keeps`: so does every request.
-/

namespace ScriptEngine

variable {H : HostTypes}

/-! ### Objects -/

namespace Object

/-- What an object has kept from before. -/
structure Keeps (object after : Object H) : Prop where
  isPlain : after.kind.isPlain = object.kind.isPlain
  extensible : object.extensible = false → after.extensible = false
  prototype : object.extensible = false → after.prototype = object.prototype
  keys : object.extensible = false →
    ∀ k, (after.ownProperty? k).isSome → (object.ownProperty? k).isSome
  properties : ∀ k d, object.ownProperty? k = some d → d.isConfigurable = false →
    ∃ d', after.ownProperty? k = some d' ∧ d.Fixes d'

variable {object middle after : Object H}

/-- Where the own properties and the extensibility are the same, all is kept. -/
theorem Keeps.of_eq (hplain : after.kind.isPlain = object.kind.isPlain)
    (hextensible : object.extensible = false → after.extensible = false)
    (hprototype : object.extensible = false → after.prototype = object.prototype)
    (hown : ∀ k, after.ownProperty? k = object.ownProperty? k) : object.Keeps after where
  isPlain := hplain
  extensible := hextensible
  prototype := hprototype
  keys _ k hk := by rwa [hown] at hk
  properties k d hk hc := ⟨d, (hown k).trans hk, .refl hc⟩

theorem Keeps.refl (object : Object H) : object.Keeps object :=
  .of_eq rfl id (fun _ => rfl) fun _ => rfl

theorem Keeps.trans (h : object.Keeps middle) (h' : middle.Keeps after) : object.Keeps after where
  isPlain := h'.isPlain.trans h.isPlain
  extensible he := h'.extensible (h.extensible he)
  prototype he := (h'.prototype (h.extensible he)).trans (h.prototype he)
  keys he k hk := h.keys he k (h'.keys (h.extensible he) k hk)
  properties k d hk hc := by
    obtain ⟨d', hk', hd⟩ := h.properties k d hk hc
    obtain ⟨d'', hk'', hd'⟩ := h'.properties k d' hk' hd.configurable
    exact ⟨d'', hk'', hd.trans hd'⟩

theorem ownProperty?_define (object : Object H) (k : PropertyKey) (d : Descriptor)
    (k' : PropertyKey) : (object.define k d).ownProperty? k'
      = if k' = k then some (d.definedOver (object.properties.get? k))
        else object.ownProperty? k' := by
  simp only [ownProperty?, define, PropertyMap.define, PropertyMap.get?_insert]
  split
  · rfl
  · rfl

/-- An accepted request to define a property keeps what is fixed. -/
theorem keeps_define {k : PropertyKey} {d : Descriptor} (hs : object.Sound)
    (hu : object.kind.unitProperty? k = none) (hv : d.isValid) (ha : object.accepts k d) :
    object.Keeps (object.define k d) where
  isPlain := rfl
  extensible := id
  prototype _ := rfl
  keys he k' hk' := by
    rw [ownProperty?_define] at hk'
    split at hk'
    · next heq =>
      subst heq
      rw [ownProperty?_of_unitProperty?_eq_none hu]
      cases hk : object.properties.get? k' with
      | none => simp [accepts, hk, Descriptor.isCompatible, he] at ha
      | some current => rfl
    · exact hk'
  properties k' d' hk' hc := by
    rw [ownProperty?_define]
    split
    · next heq =>
      subst heq
      rw [ownProperty?_of_unitProperty?_eq_none hu] at hk'
      rw [accepts, hk'] at ha
      rw [hk']
      exact ⟨_, rfl, Descriptor.fixes_apply (hs.storable k' d' hk') hc hv ha⟩
    · exact ⟨d', hk', .refl hc⟩

/-- Deleting a property that is configurable keeps what is fixed. -/
theorem keeps_erase {k : PropertyKey} {d : Descriptor} (hs : object.Sound)
    (hk : object.properties.get? k = some d) (hd : d.isConfigurable) :
    object.Keeps { object with properties := object.properties.erase k } := by
  have hu : object.kind.unitProperty? k = none := by
    cases hu : object.kind.unitProperty? k with
    | none => rfl
    | some unit => simp [hs.unshadowed k (by rw [hu]; rfl)] at hk
  have hown : ∀ k',
      ({ object with properties := object.properties.erase k } : Object H).ownProperty? k'
        = if k' = k then none else object.ownProperty? k' := fun k' => by
    simp only [ownProperty?, PropertyMap.get?_erase]
    split
    · next heq => rw [heq, hu, Option.none_or]
    · rfl
  refine ⟨rfl, id, fun _ => rfl, fun _ k' hk' => ?_, fun k' d' hk' hc => ?_⟩
  · rw [hown] at hk'
    split at hk'
    · cases hk'
    · exact hk'
  · rw [hown]
    split
    · next heq =>
      subst heq
      rw [ownProperty?_of_unitProperty?_eq_none hu, hk] at hk'
      cases hk'
      simp [hd] at hc
    · exact ⟨d', hk', .refl hc⟩

/-- One change of an object keeps what is fixed in it. -/
theorem Change.keeps (hc : object.Change after) (hs : object.Sound) : object.Keeps after := by
  cases hc with
  | preventExtensions => exact .of_eq rfl (fun _ => rfl) (fun _ => rfl) fun _ => rfl
  | define k d _ hu hv ha => exact keeps_define hs hu hv ha
  | delete k d _ hk hd => exact keeps_erase hs hk hd
  | become kind hk =>
    exact .of_eq hk.isPlain id (fun _ => rfl) fun k => by
      simp only [ownProperty?, hk.unitProperty?]

theorem Changes.keeps (hc : object.Changes after) (hs : object.Sound) : object.Keeps after := by
  induction hc with
  | refl => exact .refl object
  | tail first last ih => exact ih.trans (last.keeps (first.sound hs))

end Object

/-! ### Realms -/

namespace Realm

variable {realm middle after : Realm H}

/-- Every object is still there and has kept what was fixed in it. -/
def Keeps (realm after : Realm H) : Prop :=
  ∀ o object, realm.object? o = some object →
    ∃ object', after.object? o = some object' ∧ object.Keeps object'

theorem Keeps.refl (realm : Realm H) : realm.Keeps realm :=
  fun _ object ho => ⟨object, ho, .refl object⟩

theorem Keeps.trans (h : realm.Keeps middle) (h' : middle.Keeps after) : realm.Keeps after := by
  intro o object ho
  obtain ⟨object', ho', hk⟩ := h o object ho
  obtain ⟨object'', ho'', hk'⟩ := h' o object' ho'
  exact ⟨object'', ho'', hk.trans hk'⟩

theorem keeps_putObject {o : ObjectId} {object object' : Object H}
    (ho : realm.object? o = some object) (hk : object.Keeps object') :
    realm.Keeps (realm.putObject o object') := by
  intro o' other ho'
  by_cases heq : o' = o
  · subst heq
    rw [ho] at ho'
    cases ho'
    exact ⟨object', object?_putObject_self ho, hk⟩
  · exact ⟨other, (object?_putObject_of_ne heq).trans ho', .refl other⟩

/-- A step keeps what is fixed in the objects, or it is the end of the realm. -/
theorem Step.keeps (hs : realm.Step after) (h : realm.Sound) :
    realm.Keeps after ∧ after.disposed = realm.disposed
      ∨ realm.disposed = false ∧ after.disposed = true := by
  cases hs with
  | beside hb =>
    refine .inl ⟨fun o object ho => ⟨object, ?_, .refl object⟩, hb.disposed⟩
    rwa [object?, hb.heap]
  | allocate new =>
    refine .inl ⟨fun o object ho => ⟨object, ?_, .refl object⟩, rfl⟩
    obtain ⟨hlt, -⟩ := Array.getElem?_eq_some_iff.mp ho
    exact (Array.getElem?_push_lt hlt).trans (by rw [← ho, object?, Array.getElem?_eq_getElem hlt])
  | update o ho hc => exact .inl ⟨keeps_putObject ho (hc.keeps (h o _ ho)), rfl⟩
  | inherit o prototype ho _ he =>
    refine .inl ⟨keeps_putObject ho (.of_eq rfl id (fun hn => ?_) fun _ => rfl), rfl⟩
    rw [he] at hn
    cases hn
  | dispose hd _ _ ha => exact .inr ⟨hd, ha⟩

/-- A run keeps what is fixed in the objects, unless the realm is disposed of on the way; a realm
that was disposed of is never set up again. -/
theorem Steps.keeps (hs : realm.Steps after) (h : realm.Sound) :
    realm.Keeps after ∧ after.disposed = realm.disposed
      ∨ realm.disposed = false ∧ after.disposed = true := by
  induction hs with
  | refl => exact .inl ⟨.refl realm, rfl⟩
  | tail first last ih =>
    rcases ih with ⟨hk, hd⟩ | ⟨hd, hd'⟩
    · rcases last.keeps (first.sound h) with ⟨hk', hd'⟩ | ⟨hd', ha⟩
      · exact .inl ⟨hk.trans hk', hd'.trans hd⟩
      · exact .inr ⟨hd ▸ hd', ha⟩
    · rcases last.keeps (first.sound h) with ⟨-, ha⟩ | ⟨hd'', -⟩
      · exact .inr ⟨hd, ha.trans hd'⟩
      · rw [hd'] at hd''
        cases hd''

end Realm

/-! ### Requests -/

/-- Whatever a request does, with all the code of the program that it runs, and whether it gives a
result or fails: an object that is not extensible stays so, with its prototype and its keys, and a
property that is not configurable stays with what is fixed in it. Only the end of the realm takes
objects away. -/
theorem answer_keeps (host : Host H) (bound : Nat) (r : Request H) {realm after : Realm H}
    (hr : realm.Reachable) (he : EndsIn (answer host bound r realm) after)
    (hd : after.disposed = realm.disposed) {o : ObjectId} {object : Object H}
    (ho : realm.object? o = some object) :
    ∃ object', after.object? o = some object' ∧ object.Keeps object' := by
  have hl := (Surroundings.bounded_lawful host bound r realm hr.sound).leads he
  rcases hl.steps.keeps hr.sound with ⟨hk, -⟩ | ⟨hd', ha⟩
  · exact hk o object ho
  · rw [hd', ha] at hd
    cases hd

/-! ### A getter that ends the realm -/

/-- A host whose functions dispose of the realm. -/
def endingHost : Host HostTypes.bare
  | .native .. => do
    dispose
    return .undefined
  | r => Host.bare r

/-- A function that is not extensible and is the getter of its only property, which is fixed. -/
def endingFunction : Object HostTypes.bare :=
  .ofKindWith none (.function (.native (.host ()) false)) (.string "end")
    (.accessor (.object ⟨0⟩) .undefined false false) false

/-- A realm with that function alone. -/
def endingRealm : Realm HostTypes.bare :=
  { heap := #[endingFunction], config := { timeoutMs := 0 }, store := () }

theorem endingRealm_reachable : endingRealm.Reachable := by
  have empty : Realm.Reachable ({ endingRealm with heap := #[] } : Realm HostTypes.bare) :=
    .empty rfl
  refine empty.step (.allocate _ endingFunction ?_ (.of_not_isArray rfl))
  exact .ofKindWith _ _ rfl rfl (.inl rfl)

/-- The property of the function cannot be deleted, and is kept when that is tried. -/
theorem answer_keeps_endingFunction :
    answer endingHost 3 (.delete ⟨0⟩ (.string "end")) endingRealm = .ok false endingRealm
      ∧ ∃ object', endingRealm.object? ⟨0⟩ = some object' ∧ endingFunction.Keeps object' :=
  ⟨rfl, answer_keeps endingHost 3 (.delete ⟨0⟩ (.string "end")) endingRealm_reachable
    (.inl ⟨false, rfl⟩) rfl rfl⟩

/-- Reading the property ends the realm, and the function is gone although nothing about it could
be changed. -/
theorem not_answer_keeps :
    ¬∀ (host : Host HostTypes.bare) (bound : Nat) (r : Request HostTypes.bare)
      (realm after : Realm HostTypes.bare), realm.Reachable →
      EndsIn (answer host bound r realm) after → ∀ o object, realm.object? o = some object →
      object.kind.isPlain → ∃ object', after.object? o = some object' ∧ object.Keeps object' := by
  intro h
  obtain ⟨object', ho, -⟩ := h endingHost 5 (.get ⟨0⟩ (.string "end") .undefined) endingRealm
    { endingRealm.emptied with contexts := { lastId := 1 } } endingRealm_reachable
    (.inr ⟨_, rfl⟩) ⟨0⟩ endingFunction rfl rfl
  cases ho

end ScriptEngine
