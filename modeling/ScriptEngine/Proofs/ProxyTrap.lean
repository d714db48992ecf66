import ScriptEngine.Proofs.Integrity
import ScriptEngine.Proofs.Prototype
import ScriptEngine.Proofs.ProxyObject

/-!
# What the traps of a proxy cannot deny

A trap is code of the program and may do and answer whatever it likes. The proxy checks the answer
against its target as the trap has left it, and passes it on only if it agrees with what is fixed
there. Nothing runs between the check and the return, so the answer still agrees then.

## Main definitions

* `Method.Promises`: what the answer to a method promises about the target.
* `Realm.DescribesPlainly`: an object that describes a property by plain data.

## Main results

* `Value.toDescriptor_reads`: such a description is read without a trace.
* `Method.checkedIn_ofProxy`: every answer that comes from a trap has been checked.
* `trap_promises`: at the return of a method of a proxy, what its answer promises holds.
-/

namespace ScriptEngine

open Engine

variable {H : HostTypes} {α β : Type}

/-! ### Promises -/

/-- A property may be said to be absent: it is not fixed, and if there is one, others may be added
as well. -/
def Object.MayLack (object : Object H) (k : PropertyKey) : Prop :=
  (∀ d, object.ownProperty? k = some d → d.isConfigurable)
    ∧ (object.extensible = false → object.ownProperty? k = none)

/-- A property may be reported with the given attributes: they are compatible with the property as
it is, and say no more to be fixed than is. -/
structure Object.MayReport (object : Object H) (k : PropertyKey) (d : Descriptor) : Prop where
  isStorable : d.isStorable
  isCompatible : d.isCompatible object.extensible (object.ownProperty? k)
  extensible : object.ownProperty? k = none → object.extensible
  fixed : d.isConfigurable = false → ∃ current, object.ownProperty? k = some current
    ∧ current.isConfigurable = false ∧ (d.writable = some false → current.isWritable = false)

/-- A request to define a property may be reported as carried out. -/
structure Object.MayHaveDefined (object : Object H) (k : PropertyKey) (d : Descriptor) : Prop where
  added : object.ownProperty? k = none → object.extensible ∧ d.configurable ≠ some false
  changed : ∀ current, object.ownProperty? k = some current →
    d.isCompatible object.extensible (some current)
      ∧ (d.configurable = some false → current.isConfigurable = false)
      ∧ (current.isData → current.isConfigurable = false → current.isWritable →
        d.writable ≠ some false)

/-- A value may be reported for a property, or as written to it: a fixed constant has no other. -/
def Object.MayHold (object : Object H) (k : PropertyKey) (v : Value) : Prop :=
  ∀ d, object.ownProperty? k = some d → d.isConfigurable = false → d.isData →
    d.isWritable = false → v.sameValue d.valueD

/-- What the answer to a method promises about the object that it is about. The own keys are left
out. -/
def Method.Promises (object : Object H) : {α : Type} → Method α → α → Prop
  | _, getPrototypeOf, prototype => object.extensible ∨ object.prototype = prototype
  | _, setPrototypeOf prototype, done =>
    done = true → object.extensible ∨ object.prototype = prototype
  | _, isExtensible, answer => answer = object.extensible
  | _, preventExtensions, done => done = true → object.extensible = false
  | _, getOwnProperty k, none => object.MayLack k
  | _, getOwnProperty k, some d => object.MayReport k d
  | _, defineOwnProperty k d, done => done = true → object.MayHaveDefined k d
  | _, hasProperty k, answer => answer = false → object.MayLack k
  | _, get k _, v => object.MayHold k v ∧ ∀ d, object.ownProperty? k = some d →
    d.isConfigurable = false → d.isAccessor → d.getter.isUndefined → v.isUndefined
  | _, set k v _, done => done = true → object.MayHold k v ∧ ∀ d, object.ownProperty? k = some d →
    d.isConfigurable = false → d.isAccessor → d.setter.isUndefined = false
  | _, delete k, done => done = true → object.MayLack k
  | _, ownKeys, _ => True

/-- An answer that came about between two realms has been checked in a realm in between, and nothing
happened any more: it promises nothing, or the object was there and, if it keeps its own properties
itself, what the answer promises holds. -/
def Method.CheckedIn (m : Method α) (o : ObjectId) (a : α) (realm after : Realm H) : Prop :=
  ∃ checked, realm.Leads checked ∧ checked.Leads after
    ∧ (after = checked ∧ (∀ object : Object H, m.Promises object a)
      ∨ ∃ object, checked.object? o = some object
        ∧ (object.kind.isPlain → after = checked ∧ m.Promises object a))

/-! ### Checks -/

section Checks

variable {host : Host H} {bound : Nat} {s : Surroundings H} {realm after : Realm H} {o : ObjectId}
  {a : α}

theorem Engine.leads_of_ok {x : Engine H α} (hr : realm.Sound)
    (h : x.act (.bounded host bound) realm = .ok a after) : realm.Leads after := by
  have hx := x.lawful _ (Surroundings.bounded_lawful host bound) realm hr
  rwa [h] at hx

/-- An object that is asked for its kind before anything else is there. -/
theorem Engine.exists_of_ask {r : Request H} {a : r.Answer} {f : ObjectKind H → Engine H r.Answer}
    (hr : respond host r = (nested (getKind o >>= f)).act)
    (h : (ask r).act (.bounded host bound) realm = .ok a after) :
    ∃ object, realm.object? o = some object := by
  cases bound with
  | zero => cases h
  | succ bound =>
    cases ho : realm.object? o with
    | some object => exact ⟨object, rfl⟩
    | none =>
      have ho' : realm.deeper.object? o = none := ho
      have hrespond : respond host r (.bounded host bound) realm = .ok a after := h
      rw [hr] at hrespond
      by_cases hl : realm.AtLimit
      · cases (Action.nested_of_atLimit hl).symm.trans hrespond
      · cases (Action.nested_of_stop hl (Engine.bind_of_error (getKind_of_none ho'))).symm.trans
          hrespond

theorem ObjectId.exists_of_isExtensible {f : Bool → Engine H α}
    (h : (o.isExtensible >>= f).act (.bounded host bound) realm = .ok a after) :
    ∃ object, realm.object? o = some object := by
  obtain ⟨b, middle, hread, -⟩ := Engine.ok_of_bind h
  exact Engine.exists_of_ask rfl hread

theorem ObjectId.exists_of_getOwnProperty {k : PropertyKey} {f : Option Descriptor → Engine H α}
    (h : (o.getOwnProperty k >>= f).act (.bounded host bound) realm = .ok a after) :
    ∃ object, realm.object? o = some object := by
  obtain ⟨d, middle, hread, -⟩ := Engine.ok_of_bind h
  exact Engine.exists_of_ask rfl hread

section Continue

variable {object : Object H} (ho : realm.object? o = some object) (hp : object.kind.isPlain)
include ho hp

theorem ObjectId.ok_of_isExtensible {f : Bool → Engine H α}
    (h : (o.isExtensible >>= f).act (.bounded host bound) realm = .ok a after) :
    (f object.extensible).act (.bounded host bound) realm = .ok a after := by
  obtain ⟨b, middle, hread, hrest⟩ := Engine.ok_of_bind h
  obtain ⟨rfl, rfl⟩ := ObjectId.eq_of_isExtensible ho hp hread
  exact hrest

theorem ObjectId.ok_of_getPrototypeOf {f : Option ObjectId → Engine H α}
    (h : (o.getPrototypeOf >>= f).act (.bounded host bound) realm = .ok a after) :
    (f object.prototype).act (.bounded host bound) realm = .ok a after := by
  obtain ⟨prototype, middle, hread, hrest⟩ := Engine.ok_of_bind h
  obtain ⟨rfl, rfl⟩ := ObjectId.eq_of_getPrototypeOf ho hp hread
  exact hrest

theorem ObjectId.ok_of_getOwnProperty {k : PropertyKey} {f : Option Descriptor → Engine H α}
    (h : (o.getOwnProperty k >>= f).act (.bounded host bound) realm = .ok a after) :
    (f (object.ownProperty? k)).act (.bounded host bound) realm = .ok a after := by
  obtain ⟨d, middle, hread, hrest⟩ := Engine.ok_of_bind h
  obtain ⟨rfl, rfl⟩ := ObjectId.eq_of_getOwnProperty ho hp hread
  exact hrest

end Continue

theorem Method.CheckedIn.of_bind {m : Method α} {x : Engine H β} {f : β → Engine H α}
    (hr : realm.Sound) (h : (x >>= f).act (.bounded host bound) realm = .ok a after)
    (hf : ∀ v checked, x.act (.bounded host bound) realm = .ok v checked →
      (f v).act (.bounded host bound) checked = .ok a after →
      after = checked ∧ (∀ object : Object H, m.Promises object a)
        ∨ ∃ object, checked.object? o = some object
          ∧ (object.kind.isPlain → after = checked ∧ m.Promises object a)) :
    m.CheckedIn o a realm after := by
  obtain ⟨v, checked, hfirst, hlast⟩ := Engine.ok_of_bind h
  have hleads := Engine.leads_of_ok hr hfirst
  exact ⟨checked, hleads, Engine.leads_of_ok (hleads.steps.sound hr) hlast,
    hf v checked hfirst hlast⟩

theorem Method.CheckedIn.of_leads {m : Method α} {middle : Realm H} (hl : realm.Leads middle)
    (h : m.CheckedIn o a middle after) : m.CheckedIn o a realm after := by
  obtain ⟨checked, hfirst, hlast, hpromises⟩ := h
  exact ⟨checked, hl.trans hfirst, hlast, hpromises⟩

/-- A result behind a check means that the check was passed. -/
theorem ProxyObject.ok_of_check {c : Prop} [Decidable c] {trap detail : String}
    {rest : Unit → Engine H α}
    (h : (if c then ProxyObject.violation trap detail >>= rest else rest ()).act s realm
      = .ok a after) : ¬c ∧ (rest ()).act s realm = .ok a after := by
  by_cases hc : c
  · rw [if_pos hc] at h
    cases h
  · rw [if_neg hc] at h
    exact ⟨hc, h⟩

theorem ProxyObject.ok_of_lastCheck {c : Prop} [Decidable c] {trap detail : String} {u : Unit}
    (h : (if c then ProxyObject.violation trap detail else pure () : Engine H Unit).act s realm
      = .ok u after) : ¬c ∧ after = realm := by
  by_cases hc : c
  · rw [if_pos hc] at h
    cases h
  · rw [if_neg hc] at h
    cases h
    exact ⟨hc, rfl⟩

theorem ProxyObject.mayLack_of_checkAbsent {trap answer fixed : String} {k : PropertyKey}
    {object : Object H} {u : Unit} (ho : realm.object? o = some object) (hp : object.kind.isPlain)
    (h : (ProxyObject.checkAbsent o trap answer fixed k (object.ownProperty? k)).act
      (.bounded host bound) realm = .ok u after) : after = realm ∧ object.MayLack k := by
  unfold Object.MayLack
  cases hk : object.ownProperty? k with
  | none =>
    rw [hk] at h
    cases h
    exact ⟨rfl, fun d hd => (by cases hd), fun _ => rfl⟩
  | some d =>
    rw [hk] at h
    obtain ⟨hconfigurable, h⟩ := ProxyObject.ok_of_check h
    obtain ⟨hextensible, rfl⟩ :=
      ProxyObject.ok_of_lastCheck (ObjectId.ok_of_isExtensible ho hp h)
    refine ⟨rfl, fun d' hd => ?_, fun hnot => ?_⟩
    · cases hd
      simpa using hconfigurable
    · simp [hnot] at hextensible

/-- What is said after a check that a property may be absent. -/
theorem ProxyObject.mayLack_of_absent {trap answer fixed : String} {k : PropertyKey} {b : α}
    (h : (o.getOwnProperty k >>= fun d =>
      ProxyObject.checkAbsent o trap answer fixed k d >>= fun _ => pure b).act
        (.bounded host bound) realm = .ok a after) :
    ∃ object, realm.object? o = some object
      ∧ (object.kind.isPlain → after = realm ∧ object.MayLack k) := by
  obtain ⟨object, ho⟩ := ObjectId.exists_of_getOwnProperty h
  refine ⟨object, ho, fun hp => ?_⟩
  obtain ⟨_, _, habsent, hlast⟩ := Engine.ok_of_bind (ObjectId.ok_of_getOwnProperty ho hp h)
  cases hlast
  exact ProxyObject.mayLack_of_checkAbsent ho hp habsent

theorem ProxyObject.mayReport_of_checkReported {k : PropertyKey} {object : Object H}
    {d : Descriptor} {u : Unit} (hd : d.isStorable)
    (h : (ProxyObject.checkReported k object.extensible d (object.ownProperty? k)).act s realm
      = .ok u after) : after = realm ∧ object.MayReport k d := by
  obtain ⟨hcompatible, h⟩ := ProxyObject.ok_of_check h
  have hcompatible : d.isCompatible object.extensible (object.ownProperty? k) := by
    simpa using hcompatible
  have hextensible (hnone : object.ownProperty? k = none) : object.extensible := by
    rwa [hnone] at hcompatible
  by_cases hfixed : d.configurable = some false
  · simp only [hfixed, if_true] at h
    cases hk : object.ownProperty? k with
    | none =>
      rw [hk] at h
      cases h
    | some current =>
      rw [hk] at h
      obtain ⟨hc, h⟩ := ProxyObject.ok_of_check h
      obtain ⟨hw, rfl⟩ := ProxyObject.ok_of_lastCheck h
      refine ⟨rfl, hd, hcompatible, hextensible, fun _ => ⟨current, hk, by simpa using hc, ?_⟩⟩
      intro hwritable
      simpa [hwritable] using hw
  · simp only [hfixed, if_false] at h
    cases h
    refine ⟨rfl, hd, hcompatible, hextensible, fun hc => absurd ?_ hfixed⟩
    obtain ⟨v, w, e, c, rfl⟩ | ⟨g, t, e, c, rfl⟩ := (Descriptor.isStorable_iff d).mp hd
    · exact congrArg some hc
    · exact congrArg some hc

theorem ProxyObject.mayHaveDefined_of_checkDefined {k : PropertyKey} {object : Object H}
    {d : Descriptor} {u : Unit}
    (h : (ProxyObject.checkDefined k object.extensible d (object.ownProperty? k)).act s realm
      = .ok u after) : after = realm ∧ object.MayHaveDefined k d := by
  unfold ProxyObject.checkDefined at h
  cases hk : object.ownProperty? k with
  | none =>
    rw [hk] at h
    obtain ⟨hextensible, h⟩ := ProxyObject.ok_of_check h
    obtain ⟨hfixes, rfl⟩ := ProxyObject.ok_of_lastCheck h
    refine ⟨rfl, fun _ => ⟨by simpa using hextensible, by simpa using hfixes⟩, fun current hc => ?_⟩
    simp [hk] at hc
  | some current =>
    rw [hk] at h
    obtain ⟨hcompatible, h⟩ := ProxyObject.ok_of_check h
    obtain ⟨hfixes, h⟩ := ProxyObject.ok_of_check h
    obtain ⟨hwritable, rfl⟩ := ProxyObject.ok_of_lastCheck h
    refine ⟨rfl, fun hnone => ?_, fun current' hc => ?_⟩
    · simp [hk] at hnone
    · cases hk.symm.trans hc
      refine ⟨by simpa using hcompatible, fun hfalse => ?_, fun hdata hconf hw hfalse => ?_⟩
      · simpa [hfalse] using hfixes
      · simp [hdata, hconf, hw, hfalse] at hwritable

/-- What passes the check of a value that a trap reports for a property. -/
theorem ProxyObject.ok_of_checkRead {k : PropertyKey} {d : Descriptor} {v : Value} {u : Unit}
    (h : (ProxyObject.checkRead k d v).act s realm = .ok u after) :
    after = realm ∧ (d.isConfigurable = false → d.isData → d.isWritable = false →
        v.sameValue d.valueD)
      ∧ (d.isConfigurable = false → d.isAccessor → d.getter.isUndefined → v.isUndefined) := by
  unfold ProxyObject.checkRead at h
  cases hc : d.isConfigurable with
  | true =>
    rw [hc] at h
    cases h
    exact ⟨rfl, fun hfalse => (by cases hfalse), fun hfalse => (by cases hfalse)⟩
  | false =>
    rw [hc, Bool.not_false, if_pos rfl] at h
    obtain ⟨hdata, h⟩ := ProxyObject.ok_of_check h
    obtain ⟨haccessor, rfl⟩ := ProxyObject.ok_of_lastCheck h
    refine ⟨rfl, fun _ hd hw => ?_, fun _ ha hg => ?_⟩
    · simpa [hd, hw] using hdata
    · simpa [ha, hg] using haccessor

/-- What passes the check of a value that a trap reports as written to a property. -/
theorem ProxyObject.ok_of_checkWritten {k : PropertyKey} {d : Descriptor} {v : Value} {u : Unit}
    (h : (ProxyObject.checkWritten k d v).act s realm = .ok u after) :
    after = realm ∧ (d.isConfigurable = false → d.isData → d.isWritable = false →
        v.sameValue d.valueD)
      ∧ (d.isConfigurable = false → d.isAccessor → d.setter.isUndefined = false) := by
  unfold ProxyObject.checkWritten at h
  cases hc : d.isConfigurable with
  | true =>
    rw [hc] at h
    cases h
    exact ⟨rfl, fun hfalse => (by cases hfalse), fun hfalse => (by cases hfalse)⟩
  | false =>
    rw [hc, Bool.not_false, if_pos rfl] at h
    obtain ⟨hdata, h⟩ := ProxyObject.ok_of_check h
    obtain ⟨haccessor, rfl⟩ := ProxyObject.ok_of_lastCheck h
    refine ⟨rfl, fun _ hd hw => ?_, fun _ ha => ?_⟩
    · simpa [hd, hw] using hdata
    · simpa [ha] using haccessor

end Checks

/-! ### Descriptions of properties -/

theorem Descriptor.isStorable_complete {d : Descriptor} (hd : d.isValid) :
    d.complete.isStorable := by
  unfold complete
  split
  · next hkind =>
    have hdata : d.isData = false := by simp_all
    simp_all [isStorable, isValid, isFullyPopulated, isData, isAccessor]
  · next hkind =>
    have haccessor : d.isAccessor = false := by
      cases ha : d.isAccessor with
      | false => rfl
      | true => simp_all [isValid]
    simp_all [isStorable, isValid, isFullyPopulated, isData, isAccessor]

/-- The names of the members by which an object describes a property. -/
def memberNames : List String := ["enumerable", "configurable", "value", "writable", "get", "set"]

/-- An object describes a property by plain data: its members are found, where there are any, along
a chain of objects that keep their own properties themselves, and none is an accessor. -/
def Realm.DescribesPlainly (realm : Realm H) (o : ObjectId) : Prop :=
  ∀ name ∈ memberNames, ∃ found, realm.Finds (.string name) o found
    ∧ ∀ d, found = some d → d.isData

section Description

variable {host : Host H} {bound : Nat} {s : Surroundings H} {realm after : Realm H} {o : ObjectId}
  {name : String}

theorem Engine.Reads.fail (f : Failure) : (fail f : Engine H α).Reads s realm := by
  intro a after h
  cases h

theorem ObjectId.member?_reads (h : realm.DescribesPlainly o) (hn : name ∈ memberNames) :
    (o.member? name).Reads (.bounded host bound) realm := by
  obtain ⟨found, hfinds, hdata⟩ := h name hn
  refine (hfinds.hasProperty_reads bound realm.callDepth).bind fun has _ => ?_
  cases has with
  | true =>
    exact (hfinds.getFor_reads hdata bound realm.callDepth).bind fun v _ => .pure (some v)
  | false => exact .pure none

theorem ObjectId.accessorMember?_reads {title : String} (h : realm.DescribesPlainly o)
    (hn : name ∈ memberNames) :
    (o.accessorMember? name title).Reads (.bounded host bound) realm := by
  refine (ObjectId.member?_reads h hn).bind fun member? _ => ?_
  cases member? with
  | none => exact .pure none
  | some f =>
    refine (Engine.reads_isCallable f).bind fun callable _ => ?_
    split
    · exact Engine.Reads.bind (.fail _) fun _ h => by cases h
    · exact .pure (some f)

/-- A description by plain data is read without a trace. -/
theorem Value.toDescriptor_reads (h : realm.DescribesPlainly o) :
    (Value.object o).toDescriptor.Reads (.bounded host bound) realm := by
  refine (ObjectId.member?_reads h (by decide)).bind fun enumerable _ => ?_
  refine (ObjectId.member?_reads h (by decide)).bind fun configurable _ => ?_
  refine (ObjectId.member?_reads h (by decide)).bind fun value _ => ?_
  refine (ObjectId.member?_reads h (by decide)).bind fun writable _ => ?_
  refine (ObjectId.accessorMember?_reads h (by decide)).bind fun get _ => ?_
  refine (ObjectId.accessorMember?_reads h (by decide)).bind fun set _ => ?_
  simp only
  split
  · exact Engine.Reads.bind (.fail _) fun _ h => by cases h
  · exact .pure _

theorem Value.isValid_of_toDescriptor {v : Value} {d : Descriptor}
    (h : v.toDescriptor.act s realm = .ok d after) : d.isValid := by
  cases v with
  | object o =>
    obtain ⟨enumerable, _, -, h⟩ := Engine.ok_of_bind h
    obtain ⟨configurable, _, -, h⟩ := Engine.ok_of_bind h
    obtain ⟨value, _, -, h⟩ := Engine.ok_of_bind h
    obtain ⟨writable, _, -, h⟩ := Engine.ok_of_bind h
    obtain ⟨get, _, -, h⟩ := Engine.ok_of_bind h
    obtain ⟨set, _, -, h⟩ := Engine.ok_of_bind h
    simp only at h
    split at h
    · cases h
    · next hvalid =>
      cases h
      simpa using hvalid
  | _ => cases h

end Description

/-! ### Methods of a proxy with a trap -/

/-- The trap of a handler for a method is found, and looking for it leads from one realm to
another. -/
def Method.TrapFound (m : Method α) (host : Host H) (bound : Nat) (handler : ObjectId)
    (trap : Value) (realm middle : Realm H) : Prop :=
  ((Value.object handler).getMethod? (.ofString m.trap)).act (.bounded host bound) realm
    = .ok (some trap) middle

/-- If the trap for an own property answers with an object, that object is plain data. -/
def Method.ReportsPlainly (host : Host H) (bound : Nat) (target handler : ObjectId) (trap : Value)
    (middle : Realm H) : {α : Type} → Method α → Prop
  | _, getOwnProperty k => ∀ o called,
    (trap.call (.object handler) [.object target, k.toValue]).act (.bounded host bound) middle
      = .ok (.object o) called → called.DescribesPlainly o
  | _, _ => True

section Trapped

variable {host : Host H} {bound : Nat} {realm middle after : Realm H}
  {p target handler : ObjectId} {trap : Value} {k : PropertyKey}

theorem ProxyObject.prototypeOf_reads {s : Surroundings H} (v : Value) :
    (ProxyObject.prototypeOf v).Reads s realm := by
  cases v with
  | object o => exact .pure (some o)
  | null => exact .pure none
  | _ => exact .fail _

theorem ProxyObject.getPrototypeOf_checkedIn {prototype : Option ObjectId} (hr : middle.Sound)
    (hp : realm.Forwards p target handler)
    (ht : Method.getPrototypeOf.TrapFound host bound handler trap realm middle)
    (h : (ProxyObject.getPrototypeOf p).act (.bounded host bound) realm = .ok prototype after) :
    Method.getPrototypeOf.CheckedIn target prototype middle after := by
  unfold ProxyObject.getPrototypeOf at h
  refine .of_bind hr ((ProxyObject.dispatch_of_some hp ht).symm.trans h)
    fun v checked _ h => ?_
  obtain ⟨answer, checked', hanswer, hrest⟩ := Engine.ok_of_bind h
  obtain rfl := ProxyObject.prototypeOf_reads v _ _ hanswer
  obtain ⟨object, ho⟩ := ObjectId.exists_of_isExtensible hrest
  refine .inr ⟨object, ho, fun hplain => ?_⟩
  replace h := ObjectId.ok_of_isExtensible ho hplain hrest
  cases he : object.extensible with
  | true =>
    rw [he] at h
    cases h
    exact ⟨rfl, .inl he⟩
  | false =>
    rw [he] at h
    replace h := ObjectId.ok_of_getPrototypeOf ho hplain h
    obtain ⟨hsame, h⟩ := ProxyObject.ok_of_check h
    cases h
    exact ⟨rfl, .inr (Decidable.of_not_not hsame).symm⟩

theorem ProxyObject.setPrototypeOf_checkedIn {prototype : Option ObjectId} {done : Bool}
    (hr : middle.Sound) (hp : realm.Forwards p target handler)
    (ht : (Method.setPrototypeOf prototype).TrapFound host bound handler trap realm middle)
    (h : (ProxyObject.setPrototypeOf p prototype).act (.bounded host bound) realm
      = .ok done after) :
    (Method.setPrototypeOf prototype).CheckedIn target done middle after := by
  unfold ProxyObject.setPrototypeOf at h
  refine .of_bind hr ((ProxyObject.dispatch_of_some hp ht).symm.trans h)
    fun v checked _ h => ?_
  cases hv : v.toBoolean with
  | false =>
    rw [hv] at h
    cases h
    exact .inl ⟨rfl, fun _ hfalse => by cases hfalse⟩
  | true =>
    rw [hv] at h
    obtain ⟨object, ho⟩ := ObjectId.exists_of_isExtensible h
    refine .inr ⟨object, ho, fun hplain => ?_⟩
    replace h := ObjectId.ok_of_isExtensible ho hplain h
    cases he : object.extensible with
    | true =>
      rw [he] at h
      cases h
      exact ⟨rfl, fun _ => .inl he⟩
    | false =>
      rw [he] at h
      replace h := ObjectId.ok_of_getPrototypeOf ho hplain h
      obtain ⟨hsame, h⟩ := ProxyObject.ok_of_check h
      cases h
      exact ⟨rfl, fun _ => .inr (Decidable.of_not_not hsame)⟩

theorem ProxyObject.isExtensible_checkedIn {answer : Bool} (hr : middle.Sound)
    (hp : realm.Forwards p target handler)
    (ht : Method.isExtensible.TrapFound host bound handler trap realm middle)
    (h : (ProxyObject.isExtensible p).act (.bounded host bound) realm = .ok answer after) :
    Method.isExtensible.CheckedIn target answer middle after := by
  unfold ProxyObject.isExtensible at h
  refine .of_bind hr ((ProxyObject.dispatch_of_some hp ht).symm.trans h)
    fun v checked _ h => ?_
  obtain ⟨object, ho⟩ := ObjectId.exists_of_isExtensible h
  refine .inr ⟨object, ho, fun hplain => ?_⟩
  replace h := ObjectId.ok_of_isExtensible ho hplain h
  obtain ⟨hsame, h⟩ := ProxyObject.ok_of_check h
  cases h
  have hsame : v.toBoolean = object.extensible := Decidable.of_not_not hsame
  exact ⟨rfl, hsame⟩

theorem ProxyObject.preventExtensions_checkedIn {done : Bool} (hr : middle.Sound)
    (hp : realm.Forwards p target handler)
    (ht : Method.preventExtensions.TrapFound host bound handler trap realm middle)
    (h : (ProxyObject.preventExtensions p).act (.bounded host bound) realm = .ok done after) :
    Method.preventExtensions.CheckedIn target done middle after := by
  unfold ProxyObject.preventExtensions at h
  refine .of_bind hr ((ProxyObject.dispatch_of_some hp ht).symm.trans h)
    fun v checked _ h => ?_
  cases hv : v.toBoolean with
  | false =>
    simp only [hv] at h
    cases h
    exact .inl ⟨rfl, fun _ hfalse => by cases hfalse⟩
  | true =>
    simp only [hv] at h
    obtain ⟨object, ho⟩ := ObjectId.exists_of_isExtensible h
    refine .inr ⟨object, ho, fun hplain => ?_⟩
    replace h := ObjectId.ok_of_isExtensible ho hplain h
    obtain ⟨hnot, h⟩ := ProxyObject.ok_of_check h
    cases h
    exact ⟨rfl, fun _ => by simpa using hnot⟩

theorem ProxyObject.getOwnProperty_checkedIn {d : Option Descriptor} (hr : middle.Sound)
    (hp : realm.Forwards p target handler)
    (ht : (Method.getOwnProperty k).TrapFound host bound handler trap realm middle)
    (hplainly : ∀ o called, (trap.call (.object handler) [.object target, k.toValue]).act
      (.bounded host bound) middle = .ok (.object o) called → called.DescribesPlainly o)
    (h : (ProxyObject.getOwnProperty p k).act (.bounded host bound) realm = .ok d after) :
    (Method.getOwnProperty k).CheckedIn target d middle after := by
  unfold ProxyObject.getOwnProperty at h
  refine .of_bind hr ((ProxyObject.dispatch_of_some hp ht).symm.trans h)
    fun v checked hcall h => ?_
  obtain ⟨hkind, h⟩ := ProxyObject.ok_of_check h
  obtain ⟨object, ho⟩ := ObjectId.exists_of_getOwnProperty h
  refine .inr ⟨object, ho, fun hplain => ?_⟩
  replace h := ObjectId.ok_of_getOwnProperty ho hplain h
  cases v with
  | undefined =>
    obtain ⟨_, _, habsent, hlast⟩ := Engine.ok_of_bind h
    obtain ⟨rfl, hlack⟩ := ProxyObject.mayLack_of_checkAbsent ho hplain habsent
    cases hlast
    exact ⟨rfl, hlack⟩
  | object o =>
    replace h := ObjectId.ok_of_isExtensible ho hplain h
    obtain ⟨described, _, hdescribed, hrest⟩ := Engine.ok_of_bind h
    obtain rfl := Value.toDescriptor_reads (hplainly o _ hcall) _ _ hdescribed
    obtain ⟨_, _, hreported, hlast⟩ := Engine.ok_of_bind hrest
    obtain ⟨rfl, hreport⟩ := ProxyObject.mayReport_of_checkReported
      (Descriptor.isStorable_complete (Value.isValid_of_toDescriptor hdescribed)) hreported
    cases hlast
    exact ⟨rfl, hreport⟩
  | _ => exact absurd rfl hkind

theorem ProxyObject.defineOwnProperty_checkedIn {d : Descriptor} {done : Bool}
    (hr : middle.Sound) (hp : realm.Forwards p target handler)
    (ht : (Method.defineOwnProperty k d).TrapFound host bound handler trap realm middle)
    (h : (ProxyObject.defineOwnProperty p k d).act (.bounded host bound) realm = .ok done after) :
    (Method.defineOwnProperty k d).CheckedIn target done middle after := by
  unfold ProxyObject.defineOwnProperty at h
  -- the description is put together before the trap is called
  obtain ⟨description, described, hdescribed, hcalls⟩ :=
    Engine.ok_of_bind ((ProxyObject.dispatch_of_some hp ht).symm.trans h)
  have hleads := Engine.leads_of_ok hr hdescribed
  refine Method.CheckedIn.of_leads hleads (.of_bind (hleads.steps.sound hr) hcalls
    fun v checked _ h => ?_)
  cases hv : v.toBoolean with
  | false =>
    rw [hv] at h
    cases h
    exact .inl ⟨rfl, fun _ hfalse => by cases hfalse⟩
  | true =>
    rw [hv] at h
    obtain ⟨object, ho⟩ := ObjectId.exists_of_getOwnProperty h
    refine .inr ⟨object, ho, fun hplain => ?_⟩
    replace h := ObjectId.ok_of_getOwnProperty ho hplain h
    replace h := ObjectId.ok_of_isExtensible ho hplain h
    obtain ⟨_, _, hdefined, hlast⟩ := Engine.ok_of_bind h
    obtain ⟨rfl, hdefine⟩ := ProxyObject.mayHaveDefined_of_checkDefined hdefined
    cases hlast
    exact ⟨rfl, fun _ => hdefine⟩

theorem ProxyObject.hasProperty_checkedIn {answer : Bool} (hr : middle.Sound)
    (hp : realm.Forwards p target handler)
    (ht : (Method.hasProperty k).TrapFound host bound handler trap realm middle)
    (h : (ProxyObject.hasProperty p k).act (.bounded host bound) realm = .ok answer after) :
    (Method.hasProperty k).CheckedIn target answer middle after := by
  unfold ProxyObject.hasProperty at h
  refine .of_bind hr ((ProxyObject.dispatch_of_some hp ht).symm.trans h)
    fun v checked _ h => ?_
  cases hv : v.toBoolean with
  | true =>
    rw [hv] at h
    cases h
    exact .inl ⟨rfl, fun _ hfalse => by cases hfalse⟩
  | false =>
    rw [hv] at h
    obtain ⟨object, ho, hlack⟩ := ProxyObject.mayLack_of_absent h
    exact .inr ⟨object, ho, fun hplain => (hlack hplain).imp_right fun hlack _ => hlack⟩

theorem ProxyObject.delete_checkedIn {done : Bool} (hr : middle.Sound)
    (hp : realm.Forwards p target handler)
    (ht : (Method.delete k).TrapFound host bound handler trap realm middle)
    (h : (ProxyObject.delete p k).act (.bounded host bound) realm = .ok done after) :
    (Method.delete k).CheckedIn target done middle after := by
  unfold ProxyObject.delete at h
  refine .of_bind hr ((ProxyObject.dispatch_of_some hp ht).symm.trans h)
    fun v checked _ h => ?_
  cases hv : v.toBoolean with
  | false =>
    rw [hv] at h
    cases h
    exact .inl ⟨rfl, fun _ hfalse => by cases hfalse⟩
  | true =>
    rw [hv] at h
    obtain ⟨object, ho, hlack⟩ := ProxyObject.mayLack_of_absent h
    exact .inr ⟨object, ho, fun hplain => (hlack hplain).imp_right fun hlack _ => hlack⟩

theorem ProxyObject.get_checkedIn {receiver v : Value} (hr : middle.Sound)
    (hp : realm.Forwards p target handler)
    (ht : (Method.get k receiver).TrapFound host bound handler trap realm middle)
    (h : (ProxyObject.get p k receiver).act (.bounded host bound) realm = .ok v after) :
    (Method.get k receiver).CheckedIn target v middle after := by
  unfold ProxyObject.get at h
  refine .of_bind hr ((ProxyObject.dispatch_of_some hp ht).symm.trans h)
    fun answer checked _ h => ?_
  obtain ⟨object, ho⟩ := ObjectId.exists_of_getOwnProperty h
  refine .inr ⟨object, ho, fun hplain => ?_⟩
  replace h := ObjectId.ok_of_getOwnProperty ho hplain h
  cases hk : object.ownProperty? k with
  | none =>
    rw [hk] at h
    cases h
    exact ⟨rfl, fun d hd => (by cases hk.symm.trans hd),
      fun d hd => (by cases hk.symm.trans hd)⟩
  | some d =>
    rw [hk] at h
    obtain ⟨_, _, hread, hlast⟩ := Engine.ok_of_bind h
    obtain ⟨rfl, hdata, haccessor⟩ := ProxyObject.ok_of_checkRead hread
    cases hlast
    exact ⟨rfl, fun d' hd => (by cases hk.symm.trans hd; exact hdata),
      fun d' hd => (by cases hk.symm.trans hd; exact haccessor)⟩

theorem ProxyObject.set_checkedIn {v receiver : Value} {done : Bool} (hr : middle.Sound)
    (hp : realm.Forwards p target handler)
    (ht : (Method.set k v receiver).TrapFound host bound handler trap realm middle)
    (h : (ProxyObject.set p k v receiver).act (.bounded host bound) realm = .ok done after) :
    (Method.set k v receiver).CheckedIn target done middle after := by
  unfold ProxyObject.set at h
  refine .of_bind hr ((ProxyObject.dispatch_of_some hp ht).symm.trans h)
    fun answer checked _ h => ?_
  cases hv : answer.toBoolean with
  | false =>
    rw [hv] at h
    cases h
    exact .inl ⟨rfl, fun _ hfalse => by cases hfalse⟩
  | true =>
    rw [hv] at h
    obtain ⟨object, ho⟩ := ObjectId.exists_of_getOwnProperty h
    refine .inr ⟨object, ho, fun hplain => ?_⟩
    replace h := ObjectId.ok_of_getOwnProperty ho hplain h
    cases hk : object.ownProperty? k with
    | none =>
      rw [hk] at h
      cases h
      exact ⟨rfl, fun _ => ⟨fun d hd => (by cases hk.symm.trans hd),
        fun d hd => (by cases hk.symm.trans hd)⟩⟩
    | some d =>
      rw [hk] at h
      obtain ⟨_, _, hwritten, hlast⟩ := Engine.ok_of_bind h
      obtain ⟨rfl, hdata, haccessor⟩ := ProxyObject.ok_of_checkWritten hwritten
      cases hlast
      exact ⟨rfl, fun _ => ⟨fun d' hd => (by cases hk.symm.trans hd; exact hdata),
        fun d' hd => (by cases hk.symm.trans hd; exact haccessor)⟩⟩

/-- Every answer that comes from a trap has been checked. -/
theorem Method.checkedIn_ofProxy (m : Method α) {a : α} (hr : middle.Sound)
    (hp : realm.Forwards p target handler)
    (ht : m.TrapFound host bound handler trap realm middle)
    (hplainly : m.ReportsPlainly host bound target handler trap middle)
    (h : (m.ofProxy p).act (.bounded host bound) realm = .ok a after) :
    m.CheckedIn target a middle after := by
  cases m with
  | getPrototypeOf => exact ProxyObject.getPrototypeOf_checkedIn hr hp ht h
  | setPrototypeOf prototype => exact ProxyObject.setPrototypeOf_checkedIn hr hp ht h
  | isExtensible => exact ProxyObject.isExtensible_checkedIn hr hp ht h
  | preventExtensions => exact ProxyObject.preventExtensions_checkedIn hr hp ht h
  | getOwnProperty k => exact ProxyObject.getOwnProperty_checkedIn hr hp ht hplainly h
  | defineOwnProperty k d => exact ProxyObject.defineOwnProperty_checkedIn hr hp ht h
  | hasProperty k => exact ProxyObject.hasProperty_checkedIn hr hp ht h
  | get k receiver => exact ProxyObject.get_checkedIn hr hp ht h
  | set k v receiver => exact ProxyObject.set_checkedIn hr hp ht h
  | delete k => exact ProxyObject.delete_checkedIn hr hp ht h
  | ownKeys =>
    obtain ⟨trapped, hproxy⟩ := Method.ownKeys.exists_ofProxy_eq (H := H) p
    rw [hproxy] at h
    have htrapped := (ProxyObject.dispatch_of_some hp ht).symm.trans h
    exact ⟨after, Engine.leads_of_ok hr htrapped, .refl after, .inl ⟨rfl, fun _ => trivial⟩⟩

end Trapped

/-! ### Requests to a proxy with a trap -/

section Requests

variable {host : Host H} {bound : Nat} {realm middle after : Realm H}
  {p target handler : ObjectId} {trap : Value} {object : Object H} {m : Method α} {a : α}

/-- An answer of a proxy comes from its method, one level deeper. -/
theorem Method.ok_ofProxy (hp : realm.Forwards p target handler)
    (h : (m.of p).run host (bound + 1) realm = .ok a after) :
    ∃ inner, (m.ofProxy p).act (.bounded host bound) realm.deeper = .ok a inner
      ∧ after = inner.atDepth (inner.callDepth - 1) := by
  cases hm : m.isValid with
  | false =>
    rw [Method.run_of_not_isValid hm] at h
    cases h
  | true =>
    by_cases hl : realm.AtLimit
    · rw [Method.run_of_atLimit hm hl] at h
      cases h
    · rw [m.run_ofProxy hm hp hl] at h
      cases hinner : (m.ofProxy p).act (.bounded host bound) realm.deeper with
      | ok b inner =>
        rw [hinner] at h
        cases h
        exact ⟨inner, rfl, rfl⟩
      | error stop inner =>
        rw [hinner] at h
        cases h

/-- An object that keeps its own properties itself was plain when it was checked, if it is so in the
end. -/
theorem Method.CheckedIn.promises (hr : realm.Sound) (ho : realm.object? target = some object)
    (hplain : object.kind.isPlain) (h : m.CheckedIn target a realm after) {object' : Object H}
    (ho' : after.object? target = some object') (hplain' : object'.kind.isPlain) :
    m.Promises object' a := by
  obtain ⟨checked, hfirst, hlast, ⟨rfl, hpromises⟩ | ⟨found, hfound, hpromises⟩⟩ := h
  · exact hpromises object'
  · have hkind : found.kind.isPlain := by
      rcases hfirst.steps.keeps hr with ⟨hkeeps, -⟩ | ⟨-, hdisposed⟩
      · obtain ⟨kept, hkept, hk⟩ := hkeeps target object ho
        cases hfound.symm.trans hkept
        exact hk.isPlain.trans hplain
      · -- a realm ends only once, so the object that was checked is still there
        rcases hlast.steps.keeps (hfirst.steps.sound hr) with ⟨hkeeps, -⟩ | ⟨hnot, -⟩
        · obtain ⟨kept, hkept, hk⟩ := hkeeps target found hfound
          cases ho'.symm.trans hkept
          exact hk.isPlain.symm.trans hplain'
        · cases hdisposed.symm.trans hnot
    obtain ⟨rfl, hpromise⟩ := hpromises hkind
    cases hfound.symm.trans ho'
    exact hpromise

/-- Whatever a trap does and answers, if the method of the proxy has a result, then what the result
promises about the target holds in the realm at the return. The target is still there, as an object
that keeps its own properties itself, unless the realm was disposed of. -/
theorem trap_promises (host : Host H) (hr : realm.Reachable)
    (hp : realm.Forwards p target handler) (ho : realm.object? target = some object)
    (hplain : object.kind.isPlain)
    (ht : m.TrapFound host bound handler trap realm.deeper middle)
    (hplainly : m.ReportsPlainly host bound target handler trap middle)
    (h : (m.of p).run host (bound + 1) realm = .ok a after) :
    (∀ object', after.object? target = some object' → object'.kind.isPlain →
      m.Promises object' a)
    ∧ (after.disposed = realm.disposed →
      ∃ object', after.object? target = some object' ∧ object'.kind.isPlain) := by
  have hsound : realm.deeper.Sound := hr.sound
  have ho' : realm.deeper.object? target = some object := ho
  refine ⟨?_, fun hd => ?_⟩
  · obtain ⟨inner, hinner, rfl⟩ := Method.ok_ofProxy hp h
    have hfound := Engine.leads_of_ok hsound ht
    have hchecked := Method.checkedIn_ofProxy m (hfound.steps.sound hsound) (hp.atDepth _) ht
      hplainly hinner
    exact fun object' hobject hkind =>
      (hchecked.of_leads hfound).promises hsound ho' hplain hobject hkind
  · rcases (Engine.leads_of_ok hr.sound h).steps.keeps hr.sound with ⟨hkeeps, -⟩ | ⟨hd', ha⟩
    · obtain ⟨object', hobject, hk⟩ := hkeeps target object ho
      exact ⟨object', hobject, hk.isPlain.trans hplain⟩
    · rw [hd', ha] at hd
      cases hd

end Requests

/-! ### A trap that tells the truth -/

/-- A host whose functions answer `null`. -/
def nullHost : Host HostTypes.bare
  | .native .. => return .null
  | r => Host.bare r

/-- A realm with a function, a handler whose trap for reading a property is that function, an object
with a constant, and a proxy of the object. -/
def trappedRealm : Realm HostTypes.bare :=
  { heap := #[.ofKind none (.function (.native (.host ()) false)),
      .ofKindWith none .ordinary (.string "get") (.plain (.object ⟨0⟩)) true,
      .ofKindWith none .ordinary (.string "constant") (.frozen .null) true,
      .ofKind none (.proxy
        { target := some ⟨2⟩, handler := some ⟨1⟩, callable := false, isConstructor := false })]
    config := { timeoutMs := 0 }
    store := () }

theorem trappedRealm_reachable : trappedRealm.Reachable := by
  have empty : Realm.Reachable ({ trappedRealm with heap := #[] } : Realm HostTypes.bare) :=
    .empty rfl
  have function := empty.step (.allocate _ (.ofKind none (.function (.native (.host ()) false)))
    (.ofKind _ _) (.of_not_isArray rfl))
  have handler := function.step (.allocate _
    (.ofKindWith none .ordinary (.string "get") (.plain (.object ⟨0⟩)) true)
    (.ofKindWith _ _ rfl rfl (.inl rfl)) (.of_not_isArray rfl))
  have target := handler.step (.allocate _
    (.ofKindWith none .ordinary (.string "constant") (.frozen .null) true)
    (.ofKindWith _ _ rfl rfl (.inl rfl)) (.of_not_isArray rfl))
  exact target.step (.allocate _ _ (.ofKind _ _) (.of_not_isArray rfl))

/-- The trap is asked for the constant, and its answer is passed on. -/
theorem trap_promises_trappedRealm :
    ∃ after, ((Method.get (.string "constant") .undefined).of ⟨3⟩).run nullHost 4 trappedRealm
        = .ok .null after
      ∧ ∀ object', after.object? ⟨2⟩ = some object' → object'.kind.isPlain →
        object'.MayHold (.string "constant") .null := by
  have hkey : PropertyKey.ofString "get" = .string "get" := by decide +kernel
  have hp : trappedRealm.Forwards ⟨3⟩ ⟨2⟩ ⟨1⟩ := ⟨_, _, _, rfl, rfl⟩
  have ht : (Method.get (.string "constant") .undefined).TrapFound nullHost 3 ⟨1⟩ (.object ⟨0⟩)
      trappedRealm.deeper trappedRealm.deeper := by
    unfold Method.TrapFound Method.trap
    rw [hkey]
    rfl
  obtain ⟨after, h⟩ : ∃ after, ((Method.get (.string "constant") .undefined).of ⟨3⟩).run nullHost 4
      trappedRealm = .ok .null after := by
    rw [Method.run_ofProxy _ rfl hp (by decide)]
    obtain ⟨after, h⟩ : ∃ after, (ProxyObject.get ⟨3⟩ (.string "constant") .undefined).act
        (.bounded nullHost 3) trappedRealm.deeper = .ok .null after := by
      unfold ProxyObject.get
      exact ⟨_, (ProxyObject.dispatch_of_some (hp.atDepth _) ht).trans rfl⟩
    exact ⟨_, congrArg outcomeShallower h⟩
  exact ⟨after, h, fun object' ho hplain => ((trap_promises nullHost trappedRealm_reachable hp rfl
    rfl ht trivial h).1 object' ho hplain).1⟩

end ScriptEngine
