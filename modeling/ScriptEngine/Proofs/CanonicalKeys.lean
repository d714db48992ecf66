import ScriptEngine.Proofs.Outcome
import ScriptEngine.Scope.Reference

/-!
# Canonical keys

The key of a string is an index if the string spells one, so a string and the number that it spells
name one property. Storage is canonical if it keeps to that: no property is stored under a string
that spells an index. A computation of the engine writes to storage by requests and by putting new
objects on the heap. It keeps storage canonical if the requests that may store a property name
canonical keys and if the new objects have canonical keys; whatever else it asks for is up to those
who answer. Here this is shown of what reads and writes properties, of conversions, and of all that
is done to the names of scopes.

## Main definitions

* `PropertyKey.isCanonical`: keys that are not strings that spell an index.
* `Realm.Canonical`: all properties are stored under such keys.
* `Request.isCanonical`: requests that store under such keys, if they store at all.
* `Surroundings.KeepsKeys`, `Action.KeepsKeys`, `Engine.KeepsKeys`: keeping storage canonical.

## Main results

* `PropertyKey.isCanonical_ofString`: the key of a string is canonical.
* `Engine.KeepsKeys.bind`, `Engine.KeepsKeys.ask`, …: how computations that keep storage canonical
  are put together.
* `EnvironmentId.keepsKeys_setMutableBinding`, …: the names of scopes.
-/

namespace ScriptEngine

open Engine

variable {H : HostTypes} {α β σ : Type}

/-! ### Canonical keys -/

namespace PropertyKey

/-- Whether a key is not a string that spells an index. -/
def isCanonical : PropertyKey → Bool
  | string s => (parseIndex? s).isNone
  | _ => true

theorem parseIndex?_le {s : String} {n : Nat} (h : parseIndex? s = some n) : n ≤ maxIndex := by
  simp only [parseIndex?] at h
  split at h
  · cases h
  · split at h
    · next hle =>
      cases h
      exact hle
    · cases h

/-- A string that spells an index has that index for its key. -/
theorem ofString_of_some {s : String} {n : Nat} (h : parseIndex? s = some n) :
    ofString s = index ⟨n, Nat.lt_succ_of_le (parseIndex?_le h)⟩ := by
  rw [ofString, h]
  exact dif_pos (parseIndex?_le h)

theorem ofString_of_none {s : String} (h : parseIndex? s = none) : ofString s = string s := by
  rw [ofString, h]

/-- The key of a string is canonical. -/
theorem isCanonical_ofString (s : String) : (ofString s).isCanonical := by
  cases h : parseIndex? s with
  | none =>
    rw [ofString_of_none h, isCanonical, h]
    rfl
  | some n =>
    rw [ofString_of_some h]
    rfl

/-- The length is stored under a canonical key. -/
theorem isCanonical_lengthKey : lengthKey.isCanonical := by decide

end PropertyKey

/-- Whether all properties are stored under canonical keys. -/
def Realm.Canonical (realm : Realm H) : Prop :=
  ∀ o object, realm.object? o = some object →
    ∀ k, object.properties.contains k → k.isCanonical

/-- Whether a request that may store a property names a canonical key for it. -/
def Request.isCanonical : Request H → Bool
  | defineOwnProperty _ k _ => k.isCanonical
  | set _ k _ _ => k.isCanonical
  | _ => true

/-! ### Properties under canonical keys -/

/-- Whether all keys of a map are canonical. -/
def PropertyMap.IsCanonical (m : PropertyMap) : Prop := ∀ k, m.contains k → k.isCanonical

namespace PropertyMap.IsCanonical

variable {m : PropertyMap} {k : PropertyKey}

protected theorem empty : ({} : PropertyMap).IsCanonical := by
  intro k hk
  rw [contains, get?_empty] at hk
  cases hk

protected theorem insert (h : m.IsCanonical) (hk : k.isCanonical) (d : Descriptor) :
    (m.insert k d).IsCanonical := by
  intro k' hk'
  rw [contains, get?_insert] at hk'
  split at hk'
  · next heq => exact heq ▸ hk
  · exact h k' hk'

protected theorem erase (h : m.IsCanonical) (k : PropertyKey) : (m.erase k).IsCanonical := by
  intro k' hk'
  rw [contains, get?_erase] at hk'
  split at hk'
  · cases hk'
  · exact h k' hk'

/-- A property is changed where it is, whatever its key. -/
protected theorem modify (h : m.IsCanonical) (k : PropertyKey) (f : Descriptor → Descriptor) :
    (m.modify k f).IsCanonical := by
  unfold PropertyMap.modify
  split
  · next d hd => exact h.insert (h k (by rw [contains, hd]; rfl)) (f d)
  · exact h

end PropertyMap.IsCanonical

/-! ### Computations that keep storage canonical -/

/-- Surroundings that keep storage canonical when they are asked to store under canonical keys. -/
def Surroundings.KeepsKeys (s : Surroundings H) : Prop :=
  ∀ (r : Request H) (realm : Realm H), r.isCanonical → realm.Canonical →
    (outcomeRealm (s.perform r realm)).Canonical

/-- A computation that keeps storage canonical, if the answers to its requests do. -/
def Action.KeepsKeys (x : Action H α) : Prop :=
  ∀ s : Surroundings H, s.KeepsKeys → ∀ realm : Realm H, realm.Canonical →
    (outcomeRealm (x s realm)).Canonical

/-- A computation of the engine that keeps storage canonical, if the answers to its requests do. -/
def Engine.KeepsKeys (x : Engine H α) : Prop := x.act.KeepsKeys

namespace Action.KeepsKeys

variable {x : Action H α} {f : α → Action H β}

protected theorem pure (a : α) : (pure a : Action H α).KeepsKeys := fun _ _ _ hc => hc

protected theorem bind (hx : x.KeepsKeys) (hf : ∀ a, (f a).KeepsKeys) : (x >>= f).KeepsKeys := by
  intro s hs realm hc
  have h := hx s hs realm hc
  match hm : x s realm with
  | .ok a middle =>
    rw [hm] at h
    rw [Action.bind_of_ok hm]
    exact hf a s hs middle h
  | .error stop middle =>
    rw [hm] at h
    rw [Action.bind_of_error hm]
    exact h

protected theorem ite {c : Prop} [Decidable c] {y : Action H α} (hx : x.KeepsKeys)
    (hy : y.KeepsKeys) : (if c then x else y).KeepsKeys := by
  split
  · exact hx
  · exact hy

protected theorem nested (hx : x.KeepsKeys) : x.nested.KeepsKeys := by
  intro s hs realm hc
  have h := hx s hs { realm with callDepth := realm.callDepth + 1 } hc
  unfold Action.nested
  simp only
  split
  · exact hc
  · cases hm : x s { realm with callDepth := realm.callDepth + 1 } with
    | ok a after =>
      rw [hm] at h
      exact h
    | error stop after =>
      rw [hm] at h
      exact h

/-- Writing to one object keeps storage canonical if it does so to the object. -/
protected theorem modifyObject (o : ObjectId) {f : Object H → Object H}
    (h : ∀ object, object.properties.IsCanonical → (f object).properties.IsCanonical) :
    (modifyObject o f).KeepsKeys := by
  intro s hs realm hc
  unfold Action.modifyObject
  cases ho : realm.object? o with
  | some object => exact Realm.forall_putObject hc (h object (hc o object ho))
  | none => exact hc

end Action.KeepsKeys

namespace Engine

namespace KeepsKeys

variable {x y : Engine H α} {f : α → Engine H β}

protected theorem pure (a : α) : (pure a : Engine H α).KeepsKeys := fun _ _ _ hc => hc

protected theorem bind (hx : x.KeepsKeys) (hf : ∀ a, (f a).KeepsKeys) : (x >>= f).KeepsKeys := by
  intro s hs realm hc
  have h := hx s hs realm hc
  match hm : x.act s realm with
  | .ok a middle =>
    rw [hm] at h
    rw [Engine.bind_of_ok hm]
    exact hf a s hs middle h
  | .error stop middle =>
    rw [hm] at h
    rw [Engine.bind_of_error hm]
    exact h

protected theorem ite {c : Prop} [Decidable c] (hx : x.KeepsKeys) (hy : y.KeepsKeys) :
    (if c then x else y).KeepsKeys := by
  split
  · exact hx
  · exact hy

protected theorem ask (r : Request H) (hr : r.isCanonical) : (ask r).KeepsKeys :=
  fun _ hs realm hc => hs r realm hr hc

protected theorem fail (f : Failure) : (fail f : Engine H α).KeepsKeys := fun _ _ _ hc => hc

/-- Failing under a condition before going on. -/
protected theorem orFail {c : Prop} [Decidable c] {failure : Failure} {next : β → Engine H α}
    (hx : x.KeepsKeys) : (if c then fail failure >>= next else x).KeepsKeys :=
  .ite (fun _ _ _ hc => hc) hx

protected theorem getRealm : (getRealm : Engine H (Realm H)).KeepsKeys := fun _ _ _ hc => hc

/-- What has nothing to do with the objects of a realm keeps storage canonical. -/
protected theorem adjustGet (g : Realm H → α × Realm H)
    (aside : ∀ realm : Realm H, realm.Aside (g realm).2) : (adjustGet g aside).KeepsKeys := by
  intro s hs realm hc o object ho
  rw [Engine.adjustGet, outcomeRealm, Realm.object?_atDepth, Realm.object?,
    (aside realm.seen).beside.heap] at ho
  exact hc o object ho

/-- A new object keeps storage canonical if its keys are canonical. -/
protected theorem allocate {object : Object H} {sound : object.Sound} {inOrder : object.InOrder}
    {promise : object.kind.promise? = none}
    {generator : object.kind.generator? = none ∨ object.kind.generator? = some {}}
    (h : object.properties.IsCanonical) :
    (allocate object sound inOrder promise generator).KeepsKeys :=
  fun _ _ _ hc => Realm.forall_push hc h

protected theorem loopFor {step : σ → Engine H (Round σ α)} (h : ∀ state, (step state).KeepsKeys)
    (fuel : Nat) (state : σ) : (loopFor step fuel state).KeepsKeys := by
  induction fuel generalizing state with
  | zero => exact fun _ _ _ hc => hc
  | succ fuel ih =>
    refine .bind (h state) fun round => ?_
    cases round with
    | again state => exact ih state
    | finish a => exact .pure a

protected theorem loop {step : σ → Engine H (Round σ α)} (h : ∀ state, (step state).KeepsKeys)
    (state : σ) : (loop step state).KeepsKeys :=
  have fuel : (getFuel : Engine H Nat).KeepsKeys := fun _ _ _ hc => hc
  .bind fuel fun n => .loopFor h n state

protected theorem forM {l : List σ} {step : σ → Engine H PUnit}
    (h : ∀ a ∈ l, (step a).KeepsKeys) : (l.forM step).KeepsKeys := by
  induction l with
  | nil => exact .pure _
  | cons a l ih =>
    obtain ⟨ha, hl⟩ := List.forall_mem_cons.mp h
    exact .bind ha fun _ => ih hl

end KeepsKeys

/-! ### Access to the state -/

theorem keepsKeys_getObject (o : ObjectId) : (getObject o : Engine H (Object H)).KeepsKeys := by
  refine .bind .getRealm fun realm => ?_
  split
  · exact .pure _
  · exact .fail _

theorem keepsKeys_getKind (o : ObjectId) : (getKind o : Engine H (ObjectKind H)).KeepsKeys :=
  .bind (keepsKeys_getObject o) fun _ => .pure _

theorem keepsKeys_intrinsic (name : Intrinsic) : (intrinsic name : Engine H ObjectId).KeepsKeys :=
  .bind .getRealm fun _ => .pure _

theorem keepsKeys_isCallable (v : Value) : (isCallable v : Engine H Bool).KeepsKeys :=
  .bind .getRealm fun _ => .pure _

theorem keepsKeys_newObject (prototype : Option ObjectId) (kind : ObjectKind H)
    (isNew : kind.isNew = true) : (newObject prototype kind isNew).KeepsKeys :=
  .allocate .empty

theorem keepsKeys_getEnvironment (e : EnvironmentId) :
    (getEnvironment e : Engine H Environment).KeepsKeys := by
  refine .bind .getRealm fun realm => ?_
  split
  · exact .pure _
  · exact .fail _

theorem keepsKeys_modifyEnvironment (e : EnvironmentId) (f : Environment → Environment) :
    (modifyEnvironment e f : Engine H Unit).KeepsKeys :=
  .bind .getRealm fun _ => .ite (.adjustGet _ _) (.fail _)

theorem keepsKeys_getModule (m : ModuleId) : (getModule m : Engine H ModuleRecord).KeepsKeys := by
  refine .bind .getRealm fun realm => ?_
  split
  · exact .pure _
  · exact .fail _

end Engine

/-! ### Properties of objects -/

namespace ObjectId

variable (o : ObjectId) {k : PropertyKey}

theorem keepsKeys_get (k : PropertyKey) : (o.get k : Engine H Value).KeepsKeys := .ask _ rfl

theorem keepsKeys_put (hk : k.isCanonical) (v : Value) (throwing : Bool) :
    (o.put k v throwing : Engine H Unit).KeepsKeys :=
  .bind (.ask _ hk) fun _ => .ite (.fail _) (.pure _)

theorem keepsKeys_createDataPropertyOrThrow (hk : k.isCanonical) (v : Value) :
    (o.createDataPropertyOrThrow k v : Engine H Unit).KeepsKeys :=
  .bind (.ask _ hk) fun _ => .ite (.fail _) (.pure _)

theorem keepsKeys_defineOrThrow (hk : k.isCanonical) (d : Descriptor) :
    (o.defineOrThrow k d : Engine H Unit).KeepsKeys :=
  .bind (.ask _ hk) fun _ => .ite (.fail _) (.pure _)

theorem keepsKeys_hasOwnProperty (k : PropertyKey) :
    (o.hasOwnProperty k : Engine H Bool).KeepsKeys :=
  .bind (.ask _ rfl) fun _ => .pure _

end ObjectId

theorem keepsKeys_stringCreate (s : String) (prototype : Option ObjectId) :
    (stringCreate s prototype : Engine H ObjectId).KeepsKeys :=
  .allocate (.insert .empty PropertyKey.isCanonical_lengthKey _)

namespace Value

variable (v : Value)

theorem keepsKeys_call (this : Value) (args : List Value) :
    (v.call this args : Engine H Value).KeepsKeys := .ask _ rfl

theorem keepsKeys_toObject : (v.toObject : Engine H ObjectId).KeepsKeys := by
  unfold toObject
  split
  · exact .pure _
  · exact .bind (keepsKeys_intrinsic _) fun _ => keepsKeys_stringCreate _ _
  · exact .bind (keepsKeys_intrinsic _) fun _ => keepsKeys_newObject _ _ _
  · exact .bind (keepsKeys_intrinsic _) fun _ => keepsKeys_newObject _ _ _
  · exact .bind (keepsKeys_intrinsic _) fun _ => keepsKeys_newObject _ _ _
  · exact .fail _

theorem keepsKeys_getProperty (k : PropertyKey) : (v.getProperty k : Engine H Value).KeepsKeys :=
  .bind v.keepsKeys_toObject fun _ => .ask _ rfl

theorem keepsKeys_getMethod? (k : PropertyKey) :
    (v.getMethod? k : Engine H (Option Value)).KeepsKeys :=
  .bind (v.keepsKeys_getProperty k) fun f => .ite (.pure _) <|
    .bind (keepsKeys_isCallable f) fun _ => .orFail (.pure _)

end Value

/-! ### Conversions -/

theorem ObjectId.keepsKeys_firstPrimitive (o : ObjectId) (names : List String) :
    (o.firstPrimitive names : Engine H Value).KeepsKeys := by
  induction names with
  | nil => exact .fail _
  | cons name names ih =>
    refine .bind (o.keepsKeys_get _) fun method => .bind (keepsKeys_isCallable method) fun _ => ?_
    exact .ite (.bind (method.keepsKeys_call _ _) fun _ => .ite (.pure _) ih) ih

namespace Value

variable (v : Value)

theorem keepsKeys_toPrimitive (preferred : PreferredType) :
    (v.toPrimitive preferred : Engine H Value).KeepsKeys := by
  unfold toPrimitive
  split
  · next o =>
    refine .bind (keepsKeys_getMethod? _ _) fun exotic => ?_
    split
    · next f => exact .bind (f.keepsKeys_call _ _) fun _ => .orFail (.pure _)
    · exact .ite (o.keepsKeys_firstPrimitive _) (o.keepsKeys_firstPrimitive _)
  · exact .pure _

theorem keepsKeys_toNumber : (v.toNumber : Engine H Float).KeepsKeys := by
  have primitive (v : Value) : (v.primitiveToNumber : Engine H Float).KeepsKeys := by
    cases v with
    | symbol => exact .fail _
    | object => exact .fail _
    | _ => exact .pure _
  exact .ite (.bind (v.keepsKeys_toPrimitive _) primitive) (primitive v)

theorem keepsKeys_toLength : (v.toLength : Engine H Nat).KeepsKeys :=
  .bind (.bind v.keepsKeys_toNumber fun _ => .pure _) fun _ => .ite (.pure _) (.pure _)

end Value

/-! ### Lists and descriptors as objects -/

theorem ObjectId.keepsKeys_elementsFrom (o : ObjectId) {check : Value → Engine H Unit}
    (h : ∀ v, (check v).KeepsKeys) (i count : Nat) : (o.elementsFrom check i count).KeepsKeys := by
  induction count generalizing i with
  | zero => exact .pure _
  | succ count ih =>
    exact .bind (o.keepsKeys_get _) fun v => .bind (h v) fun _ => .bind (ih _) fun _ => .pure _

theorem Value.keepsKeys_namesFromArrayLike (v : Value) :
    (v.namesFromArrayLike : Engine H (List Value)).KeepsKeys := by
  have check (v : Value) : (v.requirePropertyName : Engine H Unit).KeepsKeys := by
    cases v with
    | string => exact .pure _
    | symbol => exact .pure _
    | _ => exact .fail _
  unfold namesFromArrayLike checkedListFromArrayLike
  split
  · next o =>
    exact .bind (.bind (o.keepsKeys_get _) fun v => v.keepsKeys_toLength) fun _ =>
      o.keepsKeys_elementsFrom check _ _
  · exact .fail _

theorem ObjectId.keepsKeys_member? (o : ObjectId) (name : String) :
    (o.member? name : Engine H (Option Value)).KeepsKeys :=
  .bind (.ask _ rfl) fun _ => .ite (.bind (o.keepsKeys_get _) fun _ => .pure _) (.pure _)

theorem ObjectId.keepsKeys_accessorMember? (o : ObjectId) (name title : String) :
    (o.accessorMember? name title : Engine H (Option Value)).KeepsKeys := by
  refine .bind (o.keepsKeys_member? name) fun member? => ?_
  split
  · next f => exact .bind (keepsKeys_isCallable f) fun _ => .orFail (.pure _)
  · exact .pure _

theorem Value.keepsKeys_toDescriptor (v : Value) :
    (v.toDescriptor : Engine H Descriptor).KeepsKeys := by
  unfold toDescriptor
  split
  · next o =>
    exact .bind (o.keepsKeys_member? _) fun _ => .bind (o.keepsKeys_member? _) fun _ =>
      .bind (o.keepsKeys_member? _) fun _ => .bind (o.keepsKeys_member? _) fun _ =>
      .bind (o.keepsKeys_accessorMember? _ _) fun _ =>
      .bind (o.keepsKeys_accessorMember? _ _) fun _ => .orFail (.pure _)
  · exact .fail _

/-- The names of the attributes are no indices. -/
theorem Descriptor.isCanonical_of_mem_members {d : Descriptor} {member : String × Value}
    (h : member ∈ d.members) : (PropertyKey.string member.1).isCanonical := by
  obtain ⟨⟨name, v?⟩, hname, hv⟩ := List.mem_filterMap.mp h
  have hcanonical : (PropertyKey.string name).isCanonical := by
    simp only [List.mem_cons, Prod.mk.injEq, List.not_mem_nil, or_false] at hname
    rcases hname with ⟨rfl, -⟩ | ⟨rfl, -⟩ | ⟨rfl, -⟩ | ⟨rfl, -⟩ | ⟨rfl, -⟩ | ⟨rfl, -⟩ <;> decide
  obtain ⟨v, -, rfl⟩ := Option.map_eq_some_iff.mp hv
  exact hcanonical

theorem Descriptor.keepsKeys_toObject (d : Descriptor) :
    (d.toObject : Engine H ObjectId).KeepsKeys := by
  refine .bind (.bind (keepsKeys_intrinsic _) fun _ => keepsKeys_newObject _ _ _) fun o => ?_
  refine .bind (.forM fun member hmember => ?_) fun _ => .pure _
  exact o.keepsKeys_createDataPropertyOrThrow (isCanonical_of_mem_members hmember) _

/-! ### Names of scopes -/

theorem ModuleId.keepsKeys_getNamespace (m : ModuleId) :
    (m.getNamespace : Engine H ObjectId).KeepsKeys := by
  refine .bind .getRealm fun realm => ?_
  split
  · exact .pure _
  · refine .bind (keepsKeys_getModule m) fun record => .bind (.allocate ?_) fun o => ?_
    · exact .insert .empty rfl _
    · exact .bind (.adjustGet _ _) fun _ => .pure _

theorem ResolvedExport.keepsKeys_follow (resolved : ResolvedExport) (missing : Failure) :
    (resolved.follow missing : Engine H ((EnvironmentId × String) ⊕ ObjectId)).KeepsKeys := by
  unfold follow
  split
  · next module => exact .bind module.keepsKeys_getNamespace fun _ => .pure _
  · refine .bind (keepsKeys_getModule _) fun record => ?_
    split
    · exact .pure _
    · exact .fail _
  · exact .fail _

theorem ModuleId.keepsKeys_followExport (m : ModuleId) (name : String) :
    (m.followExport name : Engine H ((EnvironmentId × String) ⊕ ObjectId)).KeepsKeys :=
  .bind (keepsKeys_getModule m) fun _ => ResolvedExport.keepsKeys_follow _ _

namespace ObjectId

variable (o : ObjectId) (name : String)

theorem keepsKeys_scopeHas (isWith : Bool) :
    (o.scopeHas isWith name : Engine H Bool).KeepsKeys := by
  refine .bind (.ask _ rfl) fun _ => .ite (.pure _) (.ite (.pure _) ?_)
  refine .bind (o.keepsKeys_get _) fun unscopables => ?_
  split
  · next u => exact .bind (u.keepsKeys_get _) fun _ => .pure _
  · exact .pure _

theorem keepsKeys_scopeGet (strict : Bool) : (o.scopeGet name strict : Engine H Value).KeepsKeys :=
  .bind (.ask _ rfl) fun _ => .ite (o.keepsKeys_get _) (.ite (.fail _) (.pure _))

theorem keepsKeys_scopeSet (v : Value) (strict : Bool) :
    (o.scopeSet name v strict : Engine H Unit).KeepsKeys :=
  .bind (.ask _ rfl) fun _ =>
    .orFail (o.keepsKeys_put (PropertyKey.isCanonical_ofString name) v strict)

end ObjectId

namespace EnvironmentId

variable (e : EnvironmentId) (name : String)

theorem keepsKeys_hasBinding : (e.hasBinding name : Engine H Bool).KeepsKeys := by
  refine .loop (fun e => .bind (keepsKeys_getEnvironment e) fun environment => ?_) e
  split
  · next target isWith _ => exact .bind (target.keepsKeys_scopeHas name isWith) fun _ => .pure _
  · split
    · exact .pure _
    · exact .pure _

theorem keepsKeys_insertSlot (slot : Slot) : (e.insertSlot name slot : Engine H Unit).KeepsKeys :=
  keepsKeys_modifyEnvironment e _

theorem keepsKeys_refuseRedeclaration (environment : Environment) :
    (refuseRedeclaration environment name : Engine H Unit).KeepsKeys := by
  unfold refuseRedeclaration
  split
  · exact .ite (.fail _) (.pure _)
  · exact .pure _

theorem keepsKeys_createMutableBinding (deletable : Bool) :
    (e.createMutableBinding name deletable : Engine H Unit).KeepsKeys := by
  refine .bind (keepsKeys_getEnvironment e) fun environment => ?_
  split
  · next target _ _ =>
    exact target.keepsKeys_defineOrThrow (PropertyKey.isCanonical_ofString name) _
  · exact .bind (keepsKeys_refuseRedeclaration name environment) fun _ =>
      e.keepsKeys_insertSlot name _

theorem keepsKeys_createImmutableBinding (strict : Bool) :
    (e.createImmutableBinding name strict : Engine H Unit).KeepsKeys := by
  refine .bind (keepsKeys_getEnvironment e) fun environment => ?_
  split
  · exact .fail _
  · exact .bind (keepsKeys_refuseRedeclaration name environment) fun _ =>
      e.keepsKeys_insertSlot name _

theorem keepsKeys_initializeOwn (v : Value) :
    (e.initializeOwn name v : Engine H Unit).KeepsKeys := by
  refine .bind (keepsKeys_getEnvironment e) fun environment => ?_
  split
  · exact e.keepsKeys_insertSlot name _
  · exact .fail _
  · exact .fail _

theorem keepsKeys_initializeBinding (v : Value) :
    (e.initializeBinding name v : Engine H Unit).KeepsKeys := by
  refine .loop (fun e => .bind (keepsKeys_getEnvironment e) fun environment => ?_) e
  split
  · next target _ _ => exact .bind (target.keepsKeys_scopeSet name v false) fun _ => .pure _
  · split
    · exact .pure _
    · exact .bind (e.keepsKeys_initializeOwn name v) fun _ => .pure _

theorem keepsKeys_setOwn (v : Value) (strict : Bool) :
    (e.setOwn name v strict : Engine H Unit).KeepsKeys := by
  refine .bind (keepsKeys_getEnvironment e) fun environment => ?_
  split
  · exact .orFail <| .bind (e.keepsKeys_createMutableBinding name true) fun _ =>
      e.keepsKeys_initializeBinding name v
  · exact .fail _
  · exact .orFail (.ite (e.keepsKeys_insertSlot name _) (.ite (.fail _) (.pure _)))

theorem keepsKeys_setMutableBinding (v : Value) (strict : Bool) :
    (e.setMutableBinding name v strict : Engine H Unit).KeepsKeys := by
  refine .loop (fun e => .bind (keepsKeys_getEnvironment e) fun environment => ?_) e
  split
  · next target _ _ => exact .bind (target.keepsKeys_scopeSet name v strict) fun _ => .pure _
  · split
    · exact .pure _
    · exact .bind (e.keepsKeys_setOwn name v strict) fun _ => .pure _

theorem keepsKeys_getBindingValue (strict : Bool) :
    (e.getBindingValue name strict : Engine H Value).KeepsKeys := by
  refine .loop (fun ⟨e, name, strict⟩ => .bind (keepsKeys_getEnvironment e) fun environment => ?_) _
  split
  · next target _ _ => exact .bind (target.keepsKeys_scopeGet name strict) fun _ => .pure _
  · split
    · exact .pure _
    · split
      · split
        · exact .pure _
        · exact .fail _
      · next module exportName _ =>
        refine .bind (module.keepsKeys_followExport exportName) fun followed => ?_
        split
        · exact .pure _
        · exact .pure _
      · exact .fail _

theorem keepsKeys_deleteOwn : (e.deleteOwn name : Engine H Bool).KeepsKeys := by
  refine .bind (keepsKeys_getEnvironment e) fun environment => ?_
  split
  · exact .pure _
  · exact .bind (keepsKeys_modifyEnvironment e _) fun _ => .pure _
  · exact .pure _

theorem keepsKeys_deleteGlobal (scope : GlobalScope) :
    (e.deleteGlobal scope name : Engine H Bool).KeepsKeys := by
  refine .bind (scope.object.keepsKeys_hasOwnProperty _) fun _ => .ite (.pure _) ?_
  refine .bind (keepsKeys_getEnvironment _) fun environment => ?_
  split
  · exact .bind (.ask _ rfl) fun _ =>
      .ite (.bind (keepsKeys_modifyEnvironment e _) fun _ => .pure _) (.pure _)
  · exact .pure _

theorem keepsKeys_deleteBinding : (e.deleteBinding name : Engine H Bool).KeepsKeys := by
  refine .bind (keepsKeys_getEnvironment e) fun environment => ?_
  split
  · exact .ask _ rfl
  · exact .pure _
  · exact .ite (e.keepsKeys_deleteOwn name) (e.keepsKeys_deleteGlobal name _)
  · exact e.keepsKeys_deleteOwn name

theorem keepsKeys_globalScope : (e.globalScope : Engine H GlobalScope).KeepsKeys := by
  refine .bind (keepsKeys_getEnvironment e) fun environment => ?_
  split
  · exact .pure _
  · exact .fail _

theorem keepsKeys_createGlobalVarBinding (deletable : Bool) :
    (e.createGlobalVarBinding name deletable : Engine H Unit).KeepsKeys := by
  refine .bind e.keepsKeys_globalScope fun scope =>
    .bind (scope.object.keepsKeys_hasOwnProperty _) fun _ => .bind (.ask _ rfl) fun _ => ?_
  have add : (e.addVarName name : Engine H Unit).KeepsKeys := keepsKeys_modifyEnvironment e _
  refine .ite ?_ add
  exact .bind (scope.objectRecord.keepsKeys_createMutableBinding name deletable) fun _ =>
    .bind (scope.objectRecord.keepsKeys_initializeBinding name _) fun _ => add

theorem keepsKeys_createGlobalFunctionBinding (v : Value) (deletable : Bool) :
    (e.createGlobalFunctionBinding name v deletable : Engine H Unit).KeepsKeys := by
  have hk := PropertyKey.isCanonical_ofString name
  refine .bind e.keepsKeys_globalScope fun scope => .bind (.ask _ rfl) fun _ => ?_
  exact .bind (scope.object.keepsKeys_defineOrThrow hk _) fun _ =>
    .bind (scope.object.keepsKeys_put hk v false) fun _ => keepsKeys_modifyEnvironment e _

theorem keepsKeys_createImportBinding (module : ModuleId) (exportName : String) :
    (e.createImportBinding name module exportName : Engine H Unit).KeepsKeys := by
  refine .bind (keepsKeys_getEnvironment e) fun environment => ?_
  split
  · exact e.keepsKeys_insertSlot name _
  · exact .fail _

end EnvironmentId

end ScriptEngine
