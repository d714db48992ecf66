import ScriptEngine.Proofs.PlainObject

/-!
# Plans for new objects

New objects get their properties through the internal methods, as the objects of a program do, and
that succeeds as long as no property is defined that is there to stay. A plan says what is known of
the objects that are being made: the properties that each of them keeps, and which of them are which
intrinsic objects. Everything that is not in the plan may change.

## Main definitions

* `Attributes`, `Fixtures`: properties that an object keeps.
* `Object.Shows`: an object that has its fixtures, and beside them only what may change.
* `Plan`: the objects that are being made.
* `Realm.Underway`: a realm in which all is as planned.

## Main results

* `Object.Shows.accepts`, `Object.Shows.defined`: a request to define a property beside the
  fixtures.
* `Realm.Underway.allocate`, `Realm.Underway.putObject`, `Realm.Underway.setIntrinsic`: what changes
  of a realm mean for the plan.
-/

namespace ScriptEngine

variable {H : HostTypes}

/-! ### Properties to keep -/

/-- The attributes of a data property that is not enumerable. -/
structure Attributes where
  writable : Bool
  configurable : Bool
deriving DecidableEq

namespace Attributes

/-- The attributes of constants. -/
def constant : Attributes := ⟨false, false⟩

/-- The attributes of methods. -/
def method : Attributes := ⟨true, true⟩

/-- The property with a value. -/
def holding (a : Attributes) (v : Value) : Descriptor := .data v a.writable false a.configurable

theorem isStorable_holding (a : Attributes) (v : Value) : (a.holding v).isStorable := rfl

end Attributes

/-- Properties that an object keeps. -/
abbrev Fixtures : Type := List (PropertyKey × Attributes)

namespace Fixtures

variable {fixtures : Fixtures} {k : PropertyKey}

/-- Whether a property may be defined beside the fixtures. Elements of arrays are left out. -/
def allows (fixtures : Fixtures) (k : PropertyKey) : Bool :=
  k.index?.isNone && (OrderedMap.lookup k fixtures).isNone

/-- Whether properties may be defined one after the other and be kept. -/
def allowsInTurn (a : Attributes) : List PropertyKey → Fixtures → Bool
  | [], _ => true
  | k :: ks, fixtures => fixtures.allows k && allowsInTurn a ks ((k, a) :: fixtures)

/-- The fixtures and the properties that are kept beside them. -/
def settled (a : Attributes) : List PropertyKey → Fixtures → Fixtures
  | [], fixtures => fixtures
  | k :: ks, fixtures => settled a ks ((k, a) :: fixtures)

theorem ne_index_of_allows (h : fixtures.allows k) (i : ArrayIndex) : k ≠ .index i := by
  rintro rfl
  simp [allows, PropertyKey.index?] at h

theorem lookup_of_allows (h : fixtures.allows k) : OrderedMap.lookup k fixtures = none := by
  simpa using (Bool.and_eq_true_iff.mp h).2

end Fixtures

/-! ### Objects with fixtures -/

/-- A request for every attribute of a property that may change is stored as it is. -/
theorem Descriptor.definedOver_of_isConfigurable {d current : Descriptor} (hd : d.isStorable)
    (hs : current.isStorable) (hc : current.isConfigurable) : d.definedOver (some current) = d := by
  obtain ⟨v, w, e, c, rfl⟩ | ⟨g, s, e, c, rfl⟩ := (isStorable_iff d).mp hd <;>
    obtain ⟨v', w', e', c', rfl⟩ | ⟨g', s', e', c', rfl⟩ := (isStorable_iff current).mp hs <;>
    obtain rfl : c' = true := hc <;> rfl

theorem Descriptor.initial_of_isStorable {d : Descriptor} (hd : d.isStorable) : d.initial = d := by
  obtain ⟨v, w, e, c, rfl⟩ | ⟨g, s, e, c, rfl⟩ := (isStorable_iff d).mp hd
  · rfl
  · rfl

namespace Object

/-- The object with a property in storage. -/
def store (object : Object H) (k : PropertyKey) (d : Descriptor) : Object H :=
  { object with properties := object.properties.insert k d }

/-- An object that keeps its own properties, of which the fixtures are there and all others may
change. -/
structure Shows (object : Object H) (fixtures : Fixtures) : Prop where
  plain : object.kind.isPlain
  extensible : object.extensible = true
  length : object.kind.isArray → (OrderedMap.lookup lengthKey fixtures).isSome
  storable : ∀ k d, object.properties.get? k = some d → d.isStorable
  fixed : ∀ k a, OrderedMap.lookup k fixtures = some a →
    ∃ v, object.properties.get? k = some (a.holding v)
  free : ∀ k d, object.properties.get? k = some d →
    d.isConfigurable ∨ (OrderedMap.lookup k fixtures).isSome

variable {object : Object H} {fixtures : Fixtures} {k : PropertyKey} {d : Descriptor}
  {a : Attributes}

theorem unitProperty?_of_allows (object : Object H) (hk : fixtures.allows k) :
    object.kind.unitProperty? k = none := by
  cases k with
  | index i => exact absurd rfl (Fixtures.ne_index_of_allows hk i)
  | _ => cases object.kind <;> rfl

namespace Shows

/-- A new object without properties. -/
theorem ofKind (prototype : Option ObjectId) {kind : ObjectKind H} (hp : kind.isPlain)
    (hnot : kind.isArray = false) : (Object.ofKind prototype kind).Shows [] where
  plain := hp
  extensible := rfl
  length ha := by simp [Object.ofKind, hnot] at ha
  storable k d h := by simp [Object.ofKind] at h
  fixed k a h := by cases h
  free k d h := by simp [Object.ofKind] at h

/-- A new object with its length. -/
theorem ofKindWith (prototype : Option ObjectId) {kind : ObjectKind H} (hp : kind.isPlain)
    (a : Attributes) (v : Value) :
    (Object.ofKindWith prototype kind lengthKey (a.holding v)).Shows [(lengthKey, a)] where
  plain := hp
  extensible := rfl
  length _ := rfl
  storable k d h := by
    simp only [Object.ofKindWith, PropertyMap.get?_insert, PropertyMap.get?_empty] at h
    split at h
    · cases h
      rfl
    · cases h
  fixed k a' h := by
    simp only [OrderedMap.lookup] at h
    split at h
    · next hk =>
      cases h
      exact ⟨v, by simp [Object.ofKindWith, hk]⟩
    · cases h
  free k d h := by
    simp only [Object.ofKindWith, PropertyMap.get?_insert, PropertyMap.get?_empty] at h
    split at h
    · next hk => exact .inr (by simp [OrderedMap.lookup, hk])
    · cases h

theorem accepts (h : object.Shows fixtures) (hk : fixtures.allows k) : object.accepts k d := by
  rw [Object.accepts]
  cases hget : object.properties.get? k with
  | none => exact h.extensible
  | some current =>
    have hc : current.isConfigurable = true := by
      simpa [Fixtures.lookup_of_allows hk] using h.free k current hget
    simp [Descriptor.isCompatible, Descriptor.accepts, hc]

theorem defined (h : object.Shows fixtures) (hk : fixtures.allows k) (hd : d.isStorable) :
    object.defined k d = object.store k d := by
  rw [Object.defined, if_pos (h.accepts hk), Object.define, PropertyMap.define, Object.store]
  cases hget : object.properties.get? k with
  | none => rw [Descriptor.definedOver, Descriptor.initial_of_isStorable hd]
  | some current =>
    have hc : current.isConfigurable = true := by
      simpa [Fixtures.lookup_of_allows hk] using h.free k current hget
    rw [Descriptor.definedOver_of_isConfigurable hd (h.storable k current hget) hc]

/-- A property that may change is defined beside the fixtures. -/
theorem store (h : object.Shows fixtures) (hk : fixtures.allows k) (hd : d.isStorable)
    (hc : d.isConfigurable) : (object.store k d).Shows fixtures where
  plain := h.plain
  extensible := h.extensible
  length := h.length
  storable k' d' hget := by
    simp only [Object.store, PropertyMap.get?_insert] at hget
    split at hget
    · cases hget
      exact hd
    · exact h.storable k' d' hget
  fixed k' a hfixed := by
    have hne : k' ≠ k := by
      rintro rfl
      simp [Fixtures.lookup_of_allows hk] at hfixed
    obtain ⟨v, hv⟩ := h.fixed k' a hfixed
    exact ⟨v, by rwa [Object.store, PropertyMap.get?_insert_of_ne hne]⟩
  free k' d' hget := by
    simp only [Object.store, PropertyMap.get?_insert] at hget
    split at hget
    · cases hget
      exact .inl hc
    · exact h.free k' d' hget

/-- A property is defined that is kept from now on. -/
theorem settle (h : object.Shows fixtures) (a : Attributes) (v : Value) :
    (object.store k (a.holding v)).Shows ((k, a) :: fixtures) where
  plain := h.plain
  extensible := h.extensible
  length ha := by
    simp only [OrderedMap.lookup]
    split
    · rfl
    · exact h.length ha
  storable k' d' hget := by
    simp only [Object.store, PropertyMap.get?_insert] at hget
    split at hget
    · cases hget
      rfl
    · exact h.storable k' d' hget
  fixed k' a' hfixed := by
    simp only [OrderedMap.lookup] at hfixed
    simp only [Object.store, PropertyMap.get?_insert]
    split at hfixed
    · next heq =>
      cases hfixed
      exact ⟨v, if_pos heq⟩
    · next hne =>
      obtain ⟨v', hv'⟩ := h.fixed k' a' hfixed
      exact ⟨v', by rwa [if_neg hne]⟩
  free k' d' hget := by
    simp only [OrderedMap.lookup]
    simp only [Object.store, PropertyMap.get?_insert] at hget
    split at hget
    · next heq => exact .inr (by simp [heq])
    · next hne =>
      rw [if_neg hne]
      exact h.free k' d' hget

end Shows

end Object

/-! ### Plans -/

/-- What is known of the objects that are being made: the fixtures of each, which of them are which
intrinsic objects, and which one is the global object. -/
@[ext]
structure Plan where
  objects : ObjectId → Option Fixtures
  known : Intrinsic → Option ObjectId
  global : Option ObjectId
  placed : ∀ i o, known i = some o → (objects o).isSome
  distinct : ∀ i j o, known i = some o → known j = some o → i = j

namespace Plan

/-- The plan with other fixtures for an object. -/
def set (plan : Plan) (o : ObjectId) (fixtures : Fixtures) : Plan :=
  { plan with
    objects := fun o' => if o' = o then some fixtures else plan.objects o'
    placed := fun i o' h => by
      split
      · rfl
      · exact plan.placed i o' h }

/-- The plan with an intrinsic object made known, which was made already. -/
def name (plan : Plan) (i : Intrinsic) (o : ObjectId) (hplaced : (plan.objects o).isSome)
    (hnew : ∀ j, plan.known j ≠ some o) : Plan :=
  { plan with
    known := fun j => if j = i then some o else plan.known j
    placed := fun j o' h => by
      split at h
      · cases h
        exact hplaced
      · exact plan.placed j o' h
    distinct := fun j j' o' h h' => by
      split at h <;> split at h'
      · simp_all
      · cases h
        exact absurd h' (hnew j')
      · cases h'
        exact absurd h (hnew j)
      · exact plan.distinct j j' o' h h' }

/-- A plan that knows no more than another one. -/
structure Below (plan plan' : Plan) : Prop where
  objects : ∀ o fixtures, plan.objects o = some fixtures → plan'.objects o = some fixtures
  known : ∀ i o, plan.known i = some o → plan'.known i = some o
  global : ∀ o, plan.global = some o → plan'.global = some o

variable {plan plan' plan'' : Plan} {o o' : ObjectId} {fixtures fixtures' : Fixtures}
  {i j : Intrinsic}

@[simp] theorem objects_set_self (plan : Plan) (o : ObjectId) (fixtures : Fixtures) :
    (plan.set o fixtures).objects o = some fixtures :=
  if_pos rfl

theorem objects_set_of_ne (h : o' ≠ o) (plan : Plan) (fixtures : Fixtures) :
    (plan.set o fixtures).objects o' = plan.objects o' :=
  if_neg h

@[simp] theorem known_set (plan : Plan) (o : ObjectId) (fixtures : Fixtures) :
    (plan.set o fixtures).known = plan.known :=
  rfl

@[simp] theorem set_set (plan : Plan) (o : ObjectId) (fixtures fixtures' : Fixtures) :
    (plan.set o fixtures).set o fixtures' = plan.set o fixtures' := by
  refine Plan.ext (funext fun o' => ?_) rfl rfl
  by_cases h : o' = o <;> simp [set, h]

theorem set_self (h : plan.objects o = some fixtures) : plan.set o fixtures = plan := by
  refine Plan.ext (funext fun o' => ?_) rfl rfl
  by_cases heq : o' = o
  · subst heq
    exact (objects_set_self ..).trans h.symm
  · exact objects_set_of_ne heq ..

theorem ne_of_objects (h : plan.objects o = some fixtures) (hnew : plan.objects o' = none) :
    o ≠ o' := by
  rintro rfl
  cases h.symm.trans hnew

theorem ne_of_known (h : plan.known i = some o) (hnew : plan.objects o' = none) : o ≠ o' := by
  rintro rfl
  simpa [hnew] using plan.placed i o h

theorem Below.refl (plan : Plan) : plan.Below plan := ⟨fun _ _ => id, fun _ _ => id, fun _ => id⟩

theorem Below.trans (h : plan.Below plan') (h' : plan'.Below plan'') : plan.Below plan'' :=
  ⟨fun o fixtures ho => h'.objects o fixtures (h.objects o fixtures ho),
    fun i o hi => h'.known i o (h.known i o hi), fun o ho => h'.global o (h.global o ho)⟩

theorem Below.set (h : plan.Below plan') (o : ObjectId) (fixtures : Fixtures) :
    (plan.set o fixtures).Below (plan'.set o fixtures) where
  objects o' fixtures' ho' := by
    by_cases heq : o' = o
    · subst heq
      exact (objects_set_self ..).trans ((objects_set_self ..).symm.trans ho')
    · rw [objects_set_of_ne heq] at ho' ⊢
      exact h.objects o' fixtures' ho'
  known := h.known
  global := h.global

/-- A new object adds to what is known. -/
theorem below_set (h : plan.objects o = none) (fixtures : Fixtures) :
    plan.Below (plan.set o fixtures) :=
  ⟨fun _ _ ho => (objects_set_of_ne (ne_of_objects ho h) ..).trans ho, fun _ _ => id, fun _ => id⟩

end Plan

/-! ### Realms under construction -/

namespace Realm

/-- A realm in which no evaluation has begun and the objects of a plan are as planned. Properties
can be defined where calls may be nested two deep; where they may not, no object has got any beside
its length. -/
structure Underway (realm : Realm H) (roomy : Bool) (plan : Plan) : Prop where
  room : roomy = true ↔ ¬realm.deeper.AtLimit
  running : realm.aborted = none
  contexts : realm.contexts.contexts = []
  linked : ∀ o object p, realm.object? o = some object → object.prototype = some p →
    p.index < realm.heap.size
  intrinsics : ∀ i, (realm.intrinsics.get i).index < realm.heap.size
  known : ∀ i o, plan.known i = some o → realm.intrinsics.get i = o
  global : ∀ o, plan.global = some o → realm.globalObject = o
  shows : ∀ o fixtures, plan.objects o = some fixtures →
    ∃ object, realm.object? o = some object ∧ object.Shows fixtures
  bare : roomy = false → ∀ o object k, realm.object? o = some object → k ≠ lengthKey →
    object.properties.get? k = none

variable {realm : Realm H} {roomy : Bool} {plan plan' : Plan} {o : ObjectId}
  {object after : Object H} {fixtures : Fixtures}

namespace Underway

theorem below (h : realm.Underway roomy plan') (hb : plan.Below plan') :
    realm.Underway roomy plan :=
  { h with
    known := fun i o hi => h.known i o (hb.known i o hi)
    global := fun o ho => h.global o (hb.global o ho)
    shows := fun o fixtures ho => h.shows o fixtures (hb.objects o fixtures ho) }

theorem index_lt (h : realm.Underway roomy plan) (ho : (plan.objects o).isSome) :
    o.index < realm.heap.size := by
  obtain ⟨fixtures, ho⟩ := Option.isSome_iff_exists.mp ho
  obtain ⟨object, hobject, -⟩ := h.shows o fixtures ho
  exact index_lt_of_object? hobject

/-- An object is replaced by one with other properties. -/
theorem putObject (h : realm.Underway true plan) (ho : realm.object? o = some object)
    (hp : ∀ p, after.prototype = some p → p.index < realm.heap.size) (hs : after.Shows fixtures) :
    (realm.putObject o after).Underway true (plan.set o fixtures) := by
  have hsize : (realm.putObject o after).heap.size = realm.heap.size :=
    Array.size_setIfInBounds
  have hroom : ¬(realm.putObject o after).deeper.AtLimit := h.room.mp rfl
  refine { h with
    room := iff_of_true rfl hroom, linked := ?_, intrinsics := ?_, shows := ?_, bare := nofun }
  · intro o' object' p ho' hp'
    rw [hsize]
    by_cases heq : o' = o
    · subst heq
      cases (object?_putObject_self ho).symm.trans ho'
      exact hp p hp'
    · exact h.linked o' object' p ((object?_putObject_of_ne heq).symm.trans ho') hp'
  · intro i
    rw [hsize]
    exact h.intrinsics i
  · intro o' fixtures' ho'
    by_cases heq : o' = o
    · subst heq
      cases (Plan.objects_set_self ..).symm.trans ho'
      exact ⟨after, object?_putObject_self ho, hs⟩
    · obtain ⟨object', hobject', hs'⟩ :=
        h.shows o' fixtures' ((Plan.objects_set_of_ne heq ..).symm.trans ho')
      exact ⟨object', (object?_putObject_of_ne heq).trans hobject', hs'⟩

theorem object?_push (realm : Realm H) (object : Object H) (o : ObjectId) :
    ({ realm with heap := realm.heap.push object } : Realm H).object? o
      = if o.index = realm.heap.size then some object else realm.object? o :=
  Array.getElem?_push

theorem objects_next (h : realm.Underway roomy plan) : plan.objects ⟨realm.heap.size⟩ = none := by
  refine Option.not_isSome_iff_eq_none.mp fun hsome => ?_
  exact absurd (h.index_lt hsome) (Nat.lt_irrefl _)

/-- A new object is added. -/
theorem allocate (h : realm.Underway roomy plan)
    (hp : ∀ p, object.prototype = some p → p.index < realm.heap.size)
    (hs : object.Shows fixtures) (hb : ∀ k, k ≠ lengthKey → object.properties.get? k = none) :
    ({ realm with heap := realm.heap.push object } : Realm H).Underway roomy
      (plan.set ⟨realm.heap.size⟩ fixtures) := by
  refine { h with room := h.room, linked := ?_, intrinsics := ?_, shows := ?_, bare := ?_ }
  · intro o' object' p ho' hp'
    rw [Array.size_push]
    rw [object?_push] at ho'
    split at ho'
    · cases ho'
      exact Nat.lt_succ_of_lt (hp p hp')
    · exact Nat.lt_succ_of_lt (h.linked o' object' p ho' hp')
  · intro i
    rw [Array.size_push]
    exact Nat.lt_succ_of_lt (h.intrinsics i)
  · intro o' fixtures' ho'
    rw [object?_push]
    by_cases heq : o' = ⟨realm.heap.size⟩
    · subst heq
      cases (Plan.objects_set_self ..).symm.trans ho'
      exact ⟨object, if_pos rfl, hs⟩
    · rw [Plan.objects_set_of_ne heq] at ho'
      have hlt := h.index_lt (Option.isSome_iff_exists.mpr ⟨fixtures', ho'⟩)
      rw [if_neg (Nat.ne_of_lt hlt)]
      exact h.shows o' fixtures' ho'
  · intro hroomy o' object' k ho'
    rw [object?_push] at ho'
    split at ho'
    · cases ho'
      exact hb k
    · exact h.bare hroomy o' object' k ho'

/-- An intrinsic object is set, of which the plan knew nothing or knows the new one. -/
theorem setIntrinsic (h : realm.Underway roomy plan) {i : Intrinsic}
    (ho : o.index < realm.heap.size)
    (hk : ∀ j o', plan'.known j = some o' → if j = i then o' = o else plan.known j = some o')
    (hobjects : plan'.objects = plan.objects) (hglobal : plan'.global = plan.global) :
    ({ realm with intrinsics := realm.intrinsics.set i o } : Realm H).Underway roomy plan' := by
  have hget : ∀ j, (realm.intrinsics.set i o).get j
      = if j = i then o else realm.intrinsics.get j := fun j => by
    simp only [Intrinsics.get, Intrinsics.set, OrderedMap.lookup]
    split
    · rfl
    · rfl
  refine { h with room := h.room, intrinsics := ?_, known := ?_, global := ?_, shows := ?_ }
  · intro j
    rw [hget]
    split
    · exact ho
    · exact h.intrinsics j
  · intro j o' hj
    rw [hget]
    have hj' := hk j o' hj
    split at hj'
    · next heq => rw [if_pos heq, hj']
    · next hne =>
      rw [if_neg hne]
      exact h.known j o' hj'
  · exact hglobal ▸ h.global
  · exact hobjects ▸ h.shows

end Underway

end Realm

end ScriptEngine
