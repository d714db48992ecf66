import ScriptEngine.Realm
import ScriptEngine.Text.Units

/-!
# How a realm changes

Everything that a computation does to a realm is a sequence of steps of a few kinds. An object is
put on the heap complete, its own methods change one object at a time and only as its fixed parts
allow, and the heap is emptied only when the realm is disposed of. What holds of all realms that a
program can reach is proved on these steps.

## Main definitions

* `Object.ownProperty?`: the own properties of an object that keeps them itself.
* `Object.Sound`, `Object.InOrder`: what storage looks like, and the length of an array.
* `ObjectKind.Becomes`, `Object.Change`, `Object.Changes`: how one object changes.
* `Realm.Step`, `Realm.Steps`, `Realm.Leads`: how a realm changes.
* `Realm.Reachable`: the realms that arise from an empty heap.
-/

namespace ScriptEngine

variable {H : HostTypes}

/-! ### Kinds -/

namespace ObjectKind

/-- Whether an object of the kind keeps its own properties itself; proxies and namespaces show
those of something else. -/
def isPlain : ObjectKind H → Bool
  | proxy _ => false
  | moduleNamespace _ => false
  | _ => true

/-- Whether an object of the kind is an array. -/
def isArray : ObjectKind H → Bool
  | array => true
  | _ => false

/-- The property of a code unit of a string object: enumerable and fixed. -/
def unitProperty? (kind : ObjectKind H) (k : PropertyKey) : Option Descriptor :=
  match kind, k with
  | string s, .index i =>
    (Text.unitAt? s i.val).map fun u => .data (.string (Text.ofUnits [u])) false true false
  | _, _ => none

/-- What may become of the data of a kind. The kind itself stays. -/
inductive Becomes : ObjectKind H → ObjectKind H → Prop
  | function (before after : FunctionData H) : Becomes (.function before) (.function after)
  | proxy (before after : ProxyData) : Becomes (.proxy before) (.proxy after)
  | generator (before after : GeneratorData H) : Becomes (.generator before) (.generator after)
  | promise (before after : PromiseData) : Becomes (.promise before) (.promise after)
  | arrayIterator (before after : ArrayIterator) :
      Becomes (.arrayIterator before) (.arrayIterator after)

variable {kind after : ObjectKind H}

theorem Becomes.isArray (h : kind.Becomes after) : after.isArray = kind.isArray := by
  cases h <;> rfl

theorem Becomes.isPlain (h : kind.Becomes after) : after.isPlain = kind.isPlain := by
  cases h <;> rfl

theorem Becomes.unitProperty? (h : kind.Becomes after) :
    after.unitProperty? = kind.unitProperty? := by
  cases h <;> rfl

theorem Becomes.promise?_eq_none (h : kind.Becomes after) (hp : kind.promise? = none) :
    after.promise? = none := by
  cases h with
  | promise => cases hp
  | _ => rfl

theorem Becomes.generator?_eq_none (h : kind.Becomes after) (hg : kind.generator? = none) :
    after.generator? = none := by
  cases h with
  | generator => cases hg
  | _ => rfl

end ObjectKind

/-! ### Objects -/

/-- An array in order with a given length: the length is stored as a hidden and fixed number of 32
bits, and every index is below it. -/
structure PropertyMap.HasLength (m : PropertyMap) (length : Nat) (writable : Bool) : Prop where
  stored : m.get? lengthKey = some (.data (.nat length) writable false false)
  small : length < Number.twoPow 32
  below : ∀ i, (m.get? (.index i)).isSome → i.val < length

namespace Object

/-- The own property of a key, stored or of a code unit, of an object that is neither a proxy nor a
namespace. -/
def ownProperty? (object : Object H) (k : PropertyKey) : Option Descriptor :=
  (object.properties.get? k).or (object.kind.unitProperty? k)

/-- The object after a request to define a property, given that the request is accepted. -/
def define (object : Object H) (k : PropertyKey) (d : Descriptor) : Object H :=
  { object with properties := object.properties.define k d }

/-- What the storage of an object looks like. Properties are stored with all their attributes, the
code units of a string are not stored, and an object that shows the properties of something else
stores no length. -/
structure Sound (object : Object H) : Prop where
  storable : ∀ k d, object.properties.get? k = some d → d.isStorable
  unshadowed : ∀ k, (object.kind.unitProperty? k).isSome → object.properties.get? k = none
  lengthless : object.kind.isPlain = false → object.properties.get? lengthKey = none

/-- An object that has its length and its indices in order if it is an array. -/
def InOrder (object : Object H) : Prop :=
  object.kind.isArray → ∃ length writable, object.properties.HasLength length writable

/-- One change of an object by its own methods, or of the data of its kind. -/
inductive Change : Object H → Object H → Prop
  | preventExtensions (object : Object H) (hp : object.kind.isPlain) :
      Change object { object with extensible := false }
  | define (object : Object H) (k : PropertyKey) (d : Descriptor) (hp : object.kind.isPlain)
      (hu : object.kind.unitProperty? k = none) (hv : d.isValid)
      (hc : d.isCompatible object.extensible (object.properties.get? k)) :
      Change object (object.define k d)
  | delete (object : Object H) (k : PropertyKey) (d : Descriptor) (hp : object.kind.isPlain)
      (hk : object.properties.get? k = some d) (hd : d.isConfigurable) :
      Change object { object with properties := object.properties.erase k }
  | become (object : Object H) (kind : ObjectKind H) (hk : object.kind.Becomes kind) :
      Change object { object with kind }

/-- Changes of an object one after the other. -/
inductive Changes : Object H → Object H → Prop
  | refl (object : Object H) : Changes object object
  | tail {object middle after : Object H} (first : Changes object middle)
      (last : Change middle after) : Changes object after

variable {object after : Object H}

theorem Sound.define {k : PropertyKey} {d : Descriptor} (h : object.Sound)
    (hp : object.kind.isPlain) (hu : object.kind.unitProperty? k = none) (hv : d.isValid) :
    (object.define k d).Sound where
  storable k' d' hk := by
    simp only [Object.define, PropertyMap.define, PropertyMap.get?_insert] at hk
    split at hk
    · cases hk
      exact Descriptor.isStorable_definedOver hv (h.storable k)
    · exact h.storable k' d' hk
  unshadowed k' hk := by
    have hne : k' ≠ k := by
      rintro rfl
      simp [Object.define, hu] at hk
    simp only [Object.define, PropertyMap.define, PropertyMap.get?_insert_of_ne hne]
    exact h.unshadowed k' hk
  lengthless hk := by simp [Object.define, hp] at hk

theorem Sound.erase (h : object.Sound) (k : PropertyKey) (hp : object.kind.isPlain) :
    ({ object with properties := object.properties.erase k } : Object H).Sound where
  storable k' d hk := by
    simp only [PropertyMap.get?_erase] at hk
    split at hk
    · cases hk
    · exact h.storable k' d hk
  unshadowed k' hk := by
    simp only [PropertyMap.get?_erase, h.unshadowed k' hk, ite_self]
  lengthless hk := by simp [hp] at hk

theorem Change.sound (hc : object.Change after) (h : object.Sound) : after.Sound := by
  cases hc with
  | preventExtensions => exact ⟨h.storable, h.unshadowed, h.lengthless⟩
  | define k d hp hu hv => exact h.define hp hu hv
  | delete k d hp => exact h.erase k hp
  | become kind hk =>
    exact ⟨h.storable, hk.unitProperty? ▸ h.unshadowed, hk.isPlain ▸ h.lengthless⟩

theorem Changes.sound (hc : object.Changes after) (h : object.Sound) : after.Sound := by
  induction hc with
  | refl => exact h
  | tail _ last ih => exact last.sound ih

end Object

/-! ### Realms -/

namespace Realm

/-- The object of a handle, if it is on the heap. -/
def object? (realm : Realm H) (o : ObjectId) : Option (Object H) := realm.heap[o.index]?

/-- The realm at another depth of calls. -/
def atDepth (realm : Realm H) (depth : Nat) : Realm H := { realm with callDepth := depth }

/-- The realm as code sees it: without the depth of calls where the host does not see that. -/
def seen (realm : Realm H) : Realm H :=
  realm.atDepth (if H.seesDepth then realm.callDepth else 0)

/-- Whether the storage of every object looks as it should. -/
def Sound (realm : Realm H) : Prop := ∀ o object, realm.object? o = some object → object.Sound

/-- The realm with an object in the place of that of a handle. -/
def putObject (realm : Realm H) (o : ObjectId) (object : Object H) : Realm H :=
  { realm with heap := realm.heap.setIfInBounds o.index object }

/-- The realm with the kind of an object changed. -/
def changeKind (realm : Realm H) (o : ObjectId) (f : ObjectKind H → ObjectKind H) : Realm H :=
  { realm with
    heap := realm.heap.modify o.index fun object => { object with kind := f object.kind } }

/-- What a view of kinds shows of the object of a handle. -/
def view (realm : Realm H) {δ : Type} (of : ObjectKind H → Option δ) (o : ObjectId) : Option δ :=
  (realm.object? o).bind fun object => of object.kind

/-- Whether the chain of prototypes from `p` on, followed for at most `fuel` objects and not through
proxies, meets `o`; a handle of no object on the way fails. -/
def reaches (realm : Realm H) (o : ObjectId) :
    (fuel : Nat) → (p : Option ObjectId) → Except ObjectId Bool
  | _, none => .ok false
  | 0, some _ => .ok false
  | fuel + 1, some p =>
    if p = o then .ok true
    else
      match realm.object? p with
      | none => .error p
      | some object =>
        if object.kind.isProxy then .ok false else reaches realm o fuel object.prototype

@[simp] theorem object?_atDepth (realm : Realm H) (depth : Nat) (o : ObjectId) :
    (realm.atDepth depth).object? o = realm.object? o :=
  rfl

@[simp] theorem reaches_atDepth (realm : Realm H) (depth : Nat) (o : ObjectId) (fuel : Nat)
    (p : Option ObjectId) : (realm.atDepth depth).reaches o fuel p = realm.reaches o fuel p := by
  induction fuel generalizing p with
  | zero => cases p <;> rfl
  | succ fuel ih =>
    cases p with
    | none => rfl
    | some p => simp only [reaches, object?_atDepth, ih]

section View

variable {δ : Type} {of : ObjectKind H → Option δ} {realm : Realm H} {o : ObjectId}
  {object object' : Object H}

theorem view_of_some (ho : realm.object? o = some object) : realm.view of o = of object.kind := by
  rw [view, ho, Option.bind_some]

theorem view_push (realm : Realm H) (object : Object H) (o : ObjectId) :
    ({ realm with heap := realm.heap.push object } : Realm H).view of o
      = if o = ⟨realm.heap.size⟩ then of object.kind else realm.view of o := by
  obtain ⟨i⟩ := o
  simp only [view, object?, Array.getElem?_push, ObjectId.mk.injEq]
  split
  · rfl
  · rfl

theorem view_putObject (ho : realm.object? o = some object) (o' : ObjectId) :
    (realm.putObject o object').view of o'
      = if o' = o then of object'.kind else realm.view of o' := by
  obtain ⟨hlt, -⟩ := Array.getElem?_eq_some_iff.mp ho
  obtain ⟨i⟩ := o'
  obtain ⟨j⟩ := o
  simp only [view, object?, putObject, Array.getElem?_setIfInBounds, if_pos hlt,
    ObjectId.mk.injEq, eq_comm (a := j)]
  split
  · rfl
  · rfl

theorem view_size (realm : Realm H) : realm.view of ⟨realm.heap.size⟩ = none := by
  simp [view, object?]

/-- A new object of which nothing shows leaves the view as it is. -/
theorem view_push_of_none (realm : Realm H) (h : of object.kind = none) :
    ({ realm with heap := realm.heap.push object } : Realm H).view of = realm.view of := by
  funext o
  rw [view_push]
  split
  · next heq => rw [h, heq, view_size]
  · rfl

/-- A change of an object that does not show leaves the view as it is. -/
theorem view_putObject_of_eq (ho : realm.object? o = some object)
    (h : of object'.kind = of object.kind) :
    (realm.putObject o object').view of = realm.view of := by
  funext o'
  rw [view_putObject ho]
  split
  · next heq => rw [h, heq, view_of_some ho]
  · rfl

theorem view_changeKind (realm : Realm H) (o : ObjectId) (f : ObjectKind H → ObjectKind H)
    (o' : ObjectId) : (realm.changeKind o f).view of o'
      = if o' = o then realm.view (of ∘ f) o' else realm.view of o' := by
  obtain ⟨i⟩ := o'
  obtain ⟨j⟩ := o
  simp only [view, object?, changeKind, Array.getElem?_modify, ObjectId.mk.injEq, eq_comm (a := j)]
  split
  · cases realm.heap[i]? <;> rfl
  · rfl

/-- A change of kinds that does not show leaves the view as it is. -/
theorem view_changeKind_of_eq (realm : Realm H) (o : ObjectId) {f : ObjectKind H → ObjectKind H}
    (h : ∀ kind, of (f kind) = of kind) : (realm.changeKind o f).view of = realm.view of := by
  funext o'
  rw [view_changeKind, show of ∘ f = of from funext h, ite_self]

/-- A change of the kind of an object that is seen. -/
theorem view_changeKind_of_some {f : ObjectKind H → ObjectKind H} {data data' : δ}
    (ho : realm.view of o = some data)
    (h : ∀ kind, of kind = some data → of (f kind) = some data') (o' : ObjectId) :
    (realm.changeKind o f).view of o' = if o' = o then some data' else realm.view of o' := by
  rw [view_changeKind]
  split
  · next heq =>
    obtain ⟨object, hobject, hk⟩ := Option.bind_eq_some_iff.mp ho
    rw [heq, view_of_some hobject]
    exact h object.kind hk
  · rfl

end View

/-- Realms that differ neither in their objects nor in their limits. -/
structure Beside (realm after : Realm H) : Prop where
  heap : after.heap = realm.heap
  config : after.config = realm.config
  disposed : after.disposed = realm.disposed

/-- One step of a realm. The changes of an array by one of its methods count as one step, because
its length and its indices are in order only at the end; where the depth of calls is limited, the
limit may cut the method short. -/
inductive Step : Realm H → Realm H → Prop
  | beside {realm after : Realm H} (h : realm.Beside after) : Step realm after
  | allocate (realm : Realm H) (object : Object H) (hs : object.Sound) (ho : object.InOrder) :
      Step realm { realm with heap := realm.heap.push object }
  | update (realm : Realm H) (o : ObjectId) {object after : Object H}
      (ho : realm.object? o = some object) (hc : object.Changes after)
      (hi : realm.config.maxCallDepth = 0 → object.InOrder → after.InOrder) :
      Step realm (realm.putObject o after)
  | inherit (realm : Realm H) (o : ObjectId) {object : Object H} (prototype : Option ObjectId)
      (ho : realm.object? o = some object) (hp : object.kind.isPlain) (he : object.extensible)
      (hr : realm.reaches o (realm.heap.size + 1) prototype = .ok false) :
      Step realm (realm.putObject o { object with prototype })
  | dispose {realm after : Realm H} (hd : realm.disposed = false) (hh : after.heap = #[])
      (hc : after.config = realm.config) (ha : after.disposed = true) : Step realm after

/-- Steps one after the other. -/
inductive Steps : Realm H → Realm H → Prop
  | refl (realm : Realm H) : Steps realm realm
  | tail {realm middle after : Realm H} (first : Steps realm middle) (last : Step middle after) :
      Steps realm after

theorem Steps.trans {realm middle after : Realm H} (h : Steps realm middle)
    (h' : Steps middle after) : Steps realm after := by
  induction h' with
  | refl => exact h
  | tail _ last ih => exact ih.tail last

theorem Step.steps {realm after : Realm H} (h : Step realm after) : Steps realm after :=
  .tail (.refl realm) h

theorem Beside.steps {realm after : Realm H} (h : realm.Beside after) : Steps realm after :=
  (Step.beside h).steps

theorem changeKind_of_some {realm : Realm H} {o : ObjectId} {object : Object H}
    (ho : realm.object? o = some object) (f : ObjectKind H → ObjectKind H) :
    realm.changeKind o f = realm.putObject o { object with kind := f object.kind } := by
  obtain ⟨hlt, hget⟩ := Array.getElem?_eq_some_iff.mp ho
  unfold changeKind putObject
  congr 1
  rw [Array.setIfInBounds_def, dif_pos hlt]
  ext i hi hi'
  · simp
  · rw [Array.getElem_modify, Array.getElem_set]
    split
    · next heq =>
      subst heq
      rw [hget]
    · rfl

theorem changeKind_of_none {realm : Realm H} {o : ObjectId} (ho : realm.object? o = none)
    (f : ObjectKind H → ObjectKind H) : realm.changeKind o f = realm := by
  have hle : ¬ o.index < realm.heap.size := Nat.not_lt.mpr (Array.getElem?_eq_none_iff.mp ho)
  simp only [changeKind, Array.modify, Array.modifyM, dif_neg hle]
  rfl

theorem steps_changeKind (realm : Realm H) (o : ObjectId) {f : ObjectKind H → ObjectKind H}
    (h : ∀ kind, f kind = kind ∨ kind.Becomes (f kind)) : realm.Steps (realm.changeKind o f) := by
  cases ho : realm.object? o with
  | none =>
    rw [changeKind_of_none ho]
    exact .refl realm
  | some object =>
    rw [changeKind_of_some ho]
    rcases h object.kind with heq | hk
    · refine (Step.update realm o ho ?_ fun _ hi => ?_).steps
      · rw [heq]
        exact .refl object
      · rw [heq]
        exact hi
    · exact (Step.update realm o ho (.tail (.refl object) (.become object _ hk)) fun _ hi ha =>
        hi (hk.isArray ▸ ha)).steps

/-- How a realm is related to the one after a computation: steps lead from one to the other, and the
calls that were begun have ended. -/
structure Leads (realm after : Realm H) : Prop where
  steps : realm.Steps after
  callDepth : after.callDepth = realm.callDepth

theorem Leads.refl (realm : Realm H) : realm.Leads realm := ⟨.refl realm, rfl⟩

theorem Leads.trans {realm middle after : Realm H} (h : realm.Leads middle)
    (h' : middle.Leads after) : realm.Leads after :=
  ⟨h.steps.trans h'.steps, h'.callDepth.trans h.callDepth⟩

theorem Step.leads {realm after : Realm H} (h : Step realm after)
    (hd : after.callDepth = realm.callDepth) : realm.Leads after :=
  ⟨h.steps, hd⟩

/-! ### Storage along steps -/

section Sound

variable {realm after : Realm H} {o : ObjectId} {object : Object H}

/-- What holds of every object holds still when another such object is put in the place of one. -/
theorem forall_putObject {P : Object H → Prop}
    (h : ∀ o object, realm.object? o = some object → P object) (ho : P object) (o' : ObjectId)
    (object' : Object H)
    (ho' : (realm.putObject o object).object? o' = some object') : P object' := by
  simp only [object?, Realm.putObject, Array.getElem?_setIfInBounds] at ho'
  split at ho'
  · split at ho'
    · cases ho'
      exact ho
    · cases ho'
  · exact h o' object' ho'

theorem forall_push {P : Object H → Prop}
    (h : ∀ o object, realm.object? o = some object → P object) (ho : P object) (o' : ObjectId)
    (object' : Object H)
    (ho' : ({ realm with heap := realm.heap.push object } : Realm H).object? o' = some object') :
    P object' := by
  simp only [object?, Array.getElem?_push] at ho'
  split at ho'
  · cases ho'
    exact ho
  · exact h o' object' ho'

theorem Beside.sound (hb : realm.Beside after) (h : realm.Sound) : after.Sound := by
  intro o object ho
  rw [object?, hb.heap] at ho
  exact h o object ho

theorem Step.sound (hs : realm.Step after) (h : realm.Sound) : after.Sound := by
  cases hs with
  | beside hb => exact hb.sound h
  | allocate object ho => exact forall_push h ho
  | update o ho hc => exact forall_putObject h (hc.sound (h o _ ho))
  | inherit o prototype ho =>
    have hobject := h o _ ho
    exact forall_putObject h ⟨hobject.storable, hobject.unshadowed, hobject.lengthless⟩
  | dispose _ hh =>
    intro o object ho
    simp [object?, hh] at ho

theorem Steps.sound (hs : realm.Steps after) (h : realm.Sound) : after.Sound := by
  induction hs with
  | refl => exact h
  | tail _ last ih => exact last.sound ih

end Sound

/-- The limits of a realm never change. -/
theorem Step.config {realm after : Realm H} (hs : realm.Step after) :
    after.config = realm.config := by
  cases hs with
  | beside hb => exact hb.config
  | dispose _ _ hc => exact hc
  | _ => rfl

theorem Steps.config {realm after : Realm H} (hs : realm.Steps after) :
    after.config = realm.config := by
  induction hs with
  | refl => rfl
  | tail _ last ih => exact last.config.trans ih

/-- The realms that arise from an empty heap. -/
inductive Reachable : Realm H → Prop
  | empty {realm : Realm H} (h : realm.heap = #[]) : Reachable realm
  | step {realm after : Realm H} (hr : Reachable realm) (h : Step realm after) : Reachable after

theorem Reachable.sound {realm : Realm H} (h : realm.Reachable) : realm.Sound := by
  induction h with
  | empty h =>
    intro o object ho
    simp [object?, h] at ho
  | step _ h ih => exact h.sound ih

end Realm
end ScriptEngine
