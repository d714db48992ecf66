import Mathlib.Logic.Relation
import ScriptEngine.Proofs.Answer
import ScriptEngine.Proofs.Prototype
import ScriptEngine.Proofs.ProxyObject

/-!
# Proxies without traps

A proxy whose handler has no traps answers every method as its target does, one level of calls
deeper. Where the code of the host does not see the depth of calls, nothing tells the two apart.
Setting a property goes to the target and back to the receiver; where the receiver is the proxy
itself, that leads to the target once more, and the outcome is that for the target.

## Main definitions

* `Realm.Trapless`: a handler without traps.
* `Realm.Inherits`, `Realm.ClearFor`: the chain of prototypes, without proxies and accessors.

## Main results

* `Method.run_of_trapless`: a method of a proxy without traps.
* `Method.run_set_of_trapless`: setting a property of such a proxy for the proxy itself.
* `Surroundings.bounded_blind`: answers do not depend on the depth of calls where the host does not
  see it.
* `trapless_transparent`: both, also as the code of the host sees them.
-/

namespace ScriptEngine

open Engine

variable {H : HostTypes} {α : Type}

/-! ### Handlers without traps -/

/-- A handler has no traps: where requests may be nested `need` deep, reading the name of a trap
gives `undefined` or `null` at every depth of calls and changes nothing. -/
def Realm.Trapless (realm : Realm H) (host : Host H) (need : Nat) (handler : ObjectId) : Prop :=
  ∀ {α : Type} (m : Method α), ∃ v : Value, v.isNullish ∧ ∀ bound, need ≤ bound → ∀ depth,
    answer host bound (.get handler (.ofString m.trap) (.object handler)) (realm.atDepth depth)
      = .ok v (realm.atDepth depth)

section Trapless

variable {host : Host H} {need bound : Nat} {realm : Realm H} {p target handler : ObjectId}

theorem Realm.Trapless.pos (h : realm.Trapless host need handler) (hb : need ≤ bound) :
    0 < bound := by
  obtain ⟨v, -, hget⟩ := h .ownKeys
  cases bound with
  | zero => cases hget 0 hb 0
  | succ bound => exact Nat.succ_pos bound

theorem Value.getMethod?_of_isNullish {v : Value} {k : PropertyKey} (hv : v.isNullish)
    (h : answer host bound (.get handler k (.object handler)) realm = .ok v realm) :
    ((Value.object handler).getMethod? k).act (.bounded host bound) realm = .ok none realm := by
  have hget : ((Value.object handler).getProperty k).act (.bounded host bound) realm
      = .ok v realm := h
  unfold Value.getMethod?
  rw [Engine.bind_of_ok hget, if_pos hv]
  rfl

/-- A method of a proxy without traps is that of its target, one level deeper. -/
theorem Method.run_of_trapless (m : Method α) (hp : realm.Forwards p target handler)
    (hh : realm.Trapless host need handler) (hl : ¬realm.AtLimit) (hb : need ≤ bound) :
    (m.of p).run host (bound + 1) realm
      = outcomeShallower ((m.of target).run host bound realm.deeper) := by
  cases hm : m.isValid with
  | true =>
    obtain ⟨trapped, hproxy⟩ := m.exists_ofProxy_eq (H := H) p
    obtain ⟨v, hv, hget⟩ := hh m
    have hp' : realm.deeper.Forwards p target handler := hp.atDepth _
    have hnone := Value.getMethod?_of_isNullish hv (hget bound hb (realm.callDepth + 1))
    rw [m.run_ofProxy hm hp hl, hproxy]
    exact congrArg outcomeShallower (ProxyObject.dispatch_of_none hp' hnone)
  | false =>
    -- a descriptor of both kinds is refused before the object is looked at
    obtain ⟨bound, rfl⟩ := Nat.exists_eq_add_one.mpr (hh.pos hb)
    rw [Method.run_of_not_isValid hm, Method.run_of_not_isValid hm]
    rfl

end Trapless

/-! ### Setting a property for the proxy itself -/

/-- An object inherits from another one, its prototype. -/
def Realm.Inherits (realm : Realm H) (o parent : ObjectId) : Prop :=
  ∃ object, realm.object? o = some object ∧ object.prototype = some parent

/-- An object and its chain of prototypes contain no proxy and no accessor for a key. -/
def Realm.ClearFor (realm : Realm H) (k : PropertyKey) (o : ObjectId) : Prop :=
  ∀ o' object, Relation.ReflTransGen realm.Inherits o o' → realm.object? o' = some object →
    object.kind.isProxy = false ∧ ∀ d, object.ownProperty? k = some d → d.isAccessor = false

/-- Where the search for a property goes on if an object keeps its own properties itself and does
not have this one. -/
def Realm.next? (realm : Realm H) (k : PropertyKey) (o : ObjectId) : Option ObjectId :=
  match realm.object? o with
  | some object =>
    if object.kind.isPlain ∧ object.ownProperty? k = none then object.prototype else none
  | none => none

section Set

variable {host : Host H} {need bound : Nat} {realm : Realm H} {p target handler o : ObjectId}
  {object : Object H} {k : PropertyKey} {v receiver : Value}

theorem Realm.next?_eq_some {parent : ObjectId} (h : realm.next? k o = some parent) :
    ∃ object, realm.object? o = some object ∧ object.kind.isPlain ∧ object.ownProperty? k = none
      ∧ object.prototype = some parent := by
  unfold next? at h
  split at h
  · next object ho =>
    split at h
    · next hc => exact ⟨object, ho, hc.1, hc.2, h⟩
    · cases h
  · cases h

theorem Realm.ClearFor.next? {parent : ObjectId} (h : realm.ClearFor k o)
    (hn : realm.next? k o = some parent) : realm.ClearFor k parent := by
  obtain ⟨object, ho, -, -, hparent⟩ := Realm.next?_eq_some hn
  exact fun o' object' hchain => h o' object' (.head ⟨object, ho, hparent⟩ hchain)

/-- A property of the proxy itself is set on its target, two levels deeper. -/
theorem Ordinary.setOnReceiver_of_trapless (hp : realm.Forwards p target handler)
    (hh : realm.Trapless host need handler) (hl : ¬realm.AtLimit) (hl' : ¬realm.deeper.AtLimit)
    (hb : need ≤ bound) (ho : realm.object? target = some object) (hplain : object.kind.isPlain) :
    (Ordinary.setOnReceiver k v (.object p)).act (.bounded host (bound + 1)) realm
      = outcomeShallower
        ((Ordinary.setOnReceiver k v (.object target)).act (.bounded host bound) realm.deeper) := by
  have ho' : realm.deeper.object? target = some object := ho
  have htarget : (target.getOwnProperty k).act (.bounded host bound) realm.deeper = _ :=
    (ObjectId.getOwnProperty_gives ho' hplain hl' k).eq_of_le (hh.pos hb)
  have hproxy : (p.getOwnProperty k).act (.bounded host (bound + 1)) realm
      = .ok (object.ownProperty? k) realm :=
    ((Method.getOwnProperty k).run_of_trapless hp hh hl hb).trans
      (congrArg outcomeShallower htarget)
  unfold Ordinary.setOnReceiver
  simp only
  rw [Engine.bind_of_ok hproxy, Engine.bind_of_ok htarget]
  cases object.ownProperty? k with
  | none => exact (Method.defineOwnProperty k (.plain v)).run_of_trapless hp hh hl hb
  | some existing =>
    simp only
    split
    · rfl
    · exact (Method.defineOwnProperty k (.ofValue v)).run_of_trapless hp hh hl hb

theorem Ordinary.setFound_of_trapless {own : Descriptor} (hown : own.isAccessor = false)
    (hp : realm.Forwards p target handler) (hh : realm.Trapless host need handler)
    (hl : ¬realm.AtLimit) (hl' : ¬realm.deeper.AtLimit) (hb : need ≤ bound)
    (ho : realm.object? target = some object) (hplain : object.kind.isPlain) :
    (Ordinary.setFound own k v (.object p)).act (.bounded host (bound + 1)) realm
      = outcomeShallower
        ((Ordinary.setFound own k v (.object target)).act (.bounded host bound) realm.deeper) := by
  have hsetter : own.setter.isUndefined := by
    simp only [Descriptor.isAccessor, Bool.or_eq_false_iff, Option.isSome_eq_false_iff,
      Option.isNone_iff_eq_none] at hown
    rw [Descriptor.setter, hown.2]
    rfl
  unfold Ordinary.setFound
  simp only [hsetter, if_true]
  split
  · split
    · exact Ordinary.setOnReceiver_of_trapless hp hh hl hl' hb ho hplain
    · rfl
  · rfl

theorem Dispatch.set_of_none (s : Surroundings H) (ho : realm.object? o = none) :
    (Dispatch.set o k v receiver).act s realm
      = .error (.failure (.internal ("dangling object handle " ++ o.text))) realm :=
  Engine.bind_of_error (getKind_of_none ho)

/-- An object that is neither a proxy nor keeps its own properties itself is a namespace, and
refuses. -/
theorem Dispatch.set_of_not_isPlain (s : Surroundings H) (ho : realm.object? o = some object)
    (hp : object.kind.isProxy = false) (hn : object.kind.isPlain = false) :
    (Dispatch.set o k v receiver).act s realm = .ok false realm := by
  unfold Dispatch.set
  rw [Engine.bind_of_ok (getKind_of_some ho)]
  cases hk : object.kind with
  | moduleNamespace data => rfl
  | proxy data => simp [hk, ObjectKind.isProxy] at hp
  | _ => simp [hk, ObjectKind.isPlain] at hn

/-- Setting a property along a chain of prototypes that comes to an end. The chain starts at the
target or goes on from there. -/
theorem Dispatch.set_of_acc (hz : realm.config.maxCallDepth = 0)
    (hp : realm.Forwards p target handler) (hh : realm.Trapless host need handler)
    (hstart : o = target ∨ ∃ object, realm.object? target = some object ∧ object.kind.isPlain)
    (hacc : Acc (fun parent o => realm.next? k o = some parent) o) (hc : realm.ClearFor k o) :
    ∃ least, ∀ bound, least ≤ bound → ∀ depth,
      (Dispatch.set o k v (.object p)).act (.bounded host (bound + 1)) (realm.atDepth depth)
        = outcomeShallower ((Dispatch.set o k v (.object target)).act (.bounded host bound)
          (realm.atDepth (depth + 1))) := by
  have hl := Realm.not_atLimit_atDepth hz
  induction hacc with
  | intro o _ ih =>
    cases ho' : realm.object? o with
    | none =>
      have hdangling (depth : Nat) : (realm.atDepth depth).object? o = none := ho'
      refine ⟨0, fun bound _ depth => ?_⟩
      rw [Dispatch.set_of_none _ (hdangling _), Dispatch.set_of_none _ (hdangling _)]
      rfl
    | some found =>
      have hfound (depth : Nat) : (realm.atDepth depth).object? o = some found := ho'
      obtain ⟨hproxy, haccessor⟩ := hc o found .refl ho'
      cases hkind : found.kind.isPlain with
      | false =>
        refine ⟨0, fun bound _ depth => ?_⟩
        rw [Dispatch.set_of_not_isPlain _ (hfound _) hproxy hkind,
          Dispatch.set_of_not_isPlain _ (hfound _) hproxy hkind]
        rfl
      | true =>
        obtain ⟨object, ho, hplain⟩ :
            ∃ object, realm.object? target = some object ∧ object.kind.isPlain :=
          hstart.elim (fun heq => ⟨found, heq ▸ ho', hkind⟩) id
        have hset (receiver : Value) {bound : Nat} (hb : 0 < bound) (depth : Nat) :
            (Dispatch.set o k v receiver).act (.bounded host bound) (realm.atDepth depth) = _ :=
          Dispatch.set_eq (hfound depth) hkind (hl depth) hb
        cases hown : found.ownProperty? k with
        | some own =>
          refine ⟨need, fun bound hb depth => ?_⟩
          rw [hset _ (Nat.succ_pos _), hset _ (hh.pos hb), hown]
          exact Ordinary.setFound_of_trapless (haccessor own hown) hp hh (hl _) (hl _) hb ho hplain
        | none =>
          cases hparent : found.prototype with
          | none =>
            refine ⟨need, fun bound hb depth => ?_⟩
            rw [hset _ (Nat.succ_pos _), hset _ (hh.pos hb), hown, hparent]
            exact Ordinary.setFound_of_trapless rfl hp hh (hl _) (hl _) hb ho hplain
          | some parent =>
            have hnext : realm.next? k o = some parent := by
              rw [Realm.next?, ho']
              exact (if_pos ⟨hkind, hown⟩).trans hparent
            obtain ⟨least, hleast⟩ := ih parent hnext (.inr ⟨object, ho, hplain⟩) (hc.next? hnext)
            refine ⟨least + 1, fun bound hb depth => ?_⟩
            obtain ⟨bound, rfl⟩ := Nat.exists_eq_add_one.mpr (Nat.lt_of_lt_of_le least.succ_pos hb)
            rw [hset _ (Nat.succ_pos _), hset _ (Nat.succ_pos _), hown, hparent]
            simp only
            rw [ObjectId.setFor_atDepth hz, ObjectId.setFor_atDepth hz,
              hleast bound (Nat.le_of_succ_le_succ hb)]

/-- Setting a property along a chain of prototypes that never ends has no outcome. -/
theorem ObjectId.setFor_of_not_acc (hz : realm.config.maxCallDepth = 0)
    (hacc : ¬Acc (fun parent o => realm.next? k o = some parent) o) (bound depth : Nat) :
    (o.setFor k v receiver).act (.bounded host bound) (realm.atDepth depth)
      = .error .exhausted (realm.atDepth depth) := by
  have hl := Realm.not_atLimit_atDepth hz
  induction bound generalizing o depth with
  | zero => rfl
  | succ bound ih =>
    obtain ⟨parent, hnext, hparent⟩ : ∃ parent, realm.next? k o = some parent
        ∧ ¬Acc (fun parent o => realm.next? k o = some parent) parent := by
      refine Classical.byContradiction fun hnone => hacc ⟨o, fun parent hnext => ?_⟩
      exact Classical.byContradiction fun hparent => hnone ⟨parent, hnext, hparent⟩
    obtain ⟨found, ho, hkind, hown, hproto⟩ := Realm.next?_eq_some hnext
    have ho' : (realm.atDepth (depth + 1)).object? o = some found := ho
    rw [ObjectId.setFor_atDepth hz]
    cases bound with
    | zero =>
      rw [Dispatch.set_of_isPlain _ ho' hkind]
      rfl
    | succ bound =>
      rw [Dispatch.set_eq ho' hkind (hl _) (Nat.succ_pos _), hown, hproto]
      simp only
      rw [ih hparent]
      rfl

/-- Setting a property of a proxy without traps for the proxy itself is setting it on the target for
the target, two levels deeper. -/
theorem Method.run_set_of_trapless (hz : realm.config.maxCallDepth = 0)
    (hp : realm.Forwards p target handler) (hh : realm.Trapless host need handler)
    (hc : realm.ClearFor k target) :
    ∃ least, ∀ bound, least ≤ bound →
      ((Method.set k v (.object p)).of p).run host (bound + 2) realm
        = outcomeShallower (outcomeShallower
          (((Method.set k v (.object target)).of target).run host bound realm.deeper.deeper)) := by
  have hl : ¬realm.AtLimit := fun h => h.1 hz
  -- it is enough to compare the two receivers on the target
  suffices ∃ least, ∀ bound, least ≤ bound → ∀ depth,
      (target.setFor k v (.object p)).act (.bounded host (bound + 1)) (realm.atDepth depth)
        = outcomeShallower ((target.setFor k v (.object target)).act (.bounded host bound)
          (realm.atDepth (depth + 1))) by
    obtain ⟨least, hleast⟩ := this
    refine ⟨max least need, fun bound hb => ?_⟩
    have hneed : need ≤ bound + 1 := by omega
    rw [(Method.set k v (.object p)).run_of_trapless hp hh hl hneed]
    exact congrArg outcomeShallower (hleast bound (by omega) (realm.callDepth + 1))
  by_cases hacc : Acc (fun parent o => realm.next? k o = some parent) target
  · obtain ⟨least, hleast⟩ := Dispatch.set_of_acc (v := v) hz hp hh (.inl rfl) hacc hc
    refine ⟨least + 1, fun bound hb depth => ?_⟩
    obtain ⟨bound, rfl⟩ := Nat.exists_eq_add_one.mpr (Nat.lt_of_lt_of_le least.succ_pos hb)
    rw [ObjectId.setFor_atDepth hz, ObjectId.setFor_atDepth hz,
      hleast bound (Nat.le_of_succ_le_succ hb)]
  · refine ⟨0, fun bound _ depth => ?_⟩
    rw [ObjectId.setFor_of_not_acc hz hacc, ObjectId.setFor_of_not_acc hz hacc]
    rfl

end Set

/-! ### What the host can see

How deep calls are nested shows in two ways only: where the depth is limited, and in what the code
of the host can see. Computations of the engine are of this kind by their type, and the way in which
requests are answered is put together from such; the rest is an induction on the bound on nesting.
-/

section Blind

variable (hd : H.seesDepth = false)
include hd

theorem Action.closed_blind : Action.Closed (fun {_} (x : Action H _) => x.Blind) where
  engine x := x.blind hd
  modifyObject o f _ := Action.blind_modifyObject o f
  andThen hx hf := hx.andThen hf
  nested hx := hx.nested

/-- Whether a request has a result, and which, does not depend on the depth of calls. -/
theorem blind_respond (host : Host H) (r : Request H) : (respond host r).Blind :=
  (Action.closed_blind hd).respond (fun request => (host request).blind hd) r

/-- The answers to requests do not depend on the depth of calls. -/
theorem Surroundings.bounded_blind (host : Host H) (bound : Nat) :
    (Surroundings.bounded host bound).Blind := by
  -- the bound decreases at every level of nesting
  induction bound with
  | zero => exact fun r => ⟨fun _ => rfl, fun _ _ _ => rfl⟩
  | succ bound ih => exact fun r => blind_respond hd host r (.bounded host bound) ih

end Blind

theorem Engine.outcomeShallower_run_deeper (hd : H.seesDepth = false) {realm : Realm H}
    (hz : realm.config.maxCallDepth = 0) (host : Host H) (bound : Nat) (x : Engine H α) :
    outcomeShallower (x.run host bound realm.deeper) = x.run host bound realm := by
  have hsame := (x.blind hd _ (Surroundings.bounded_blind hd host bound)).same realm hz
  have hdeeper : x.run host bound realm.deeper = outcomeAtDepth _ (x.run host bound realm) :=
    hsame (realm.callDepth + 1)
  have hhere : x.run host bound realm = outcomeAtDepth _ (x.run host bound realm) :=
    hsame realm.callDepth
  rw [hdeeper, hhere]
  cases x.run host bound realm with
  | ok a after => rfl
  | error stop after => rfl

/-- A proxy without traps is transparent: every method is answered as by the target one level of
calls deeper, and a property set for the proxy itself is set on the target, two levels deeper. Where
the code of the host does not see the depth of calls, the outcome is that of the target. -/
theorem trapless_transparent (host : Host H) {realm : Realm H} {p target handler : ObjectId}
    {need : Nat} (hz : realm.config.maxCallDepth = 0) (hp : realm.Forwards p target handler)
    (hh : realm.Trapless host need handler) :
    (∀ {α : Type} (m : Method α) (bound : Nat), need ≤ bound →
      (m.of p).run host (bound + 1) realm
          = outcomeShallower ((m.of target).run host bound realm.deeper)
        ∧ (H.seesDepth = false →
          (m.of p).run host (bound + 1) realm = (m.of target).run host bound realm))
    ∧ ∀ k v, realm.ClearFor k target → ∃ least, ∀ bound, least ≤ bound →
      ((Method.set k v (.object p)).of p).run host (bound + 2) realm
          = outcomeShallower (outcomeShallower
            (((Method.set k v (.object target)).of target).run host bound realm.deeper.deeper))
        ∧ (H.seesDepth = false →
          ((Method.set k v (.object p)).of p).run host (bound + 2) realm
            = ((Method.set k v (.object target)).of target).run host bound realm) := by
  have hl : ¬realm.AtLimit := fun h => h.1 hz
  have hz' : realm.deeper.config.maxCallDepth = 0 := hz
  refine ⟨fun m bound hb => ?_, fun k v hc => ?_⟩
  · have hm := m.run_of_trapless hp hh hl hb
    refine ⟨hm, fun hd => ?_⟩
    rw [hm, Engine.outcomeShallower_run_deeper hd hz]
  · obtain ⟨least, hleast⟩ := Method.run_set_of_trapless (v := v) hz hp hh hc
    refine ⟨least, fun bound hb => ⟨hleast bound hb, fun hd => ?_⟩⟩
    rw [hleast bound hb, Engine.outcomeShallower_run_deeper hd hz',
      Engine.outcomeShallower_run_deeper hd hz]

/-! ### A proxy of one object -/

/-- A realm with a handler without traps, an object and a proxy of the object. -/
def wrappedRealm (target : Object H) (store : H.Store) : Realm H :=
  { heap := #[.ofKind none .ordinary, target, .ofKind none (.proxy
      { target := some ⟨1⟩, handler := some ⟨0⟩, callable := false, isConstructor := false })]
    config := { timeoutMs := 0, maxCallDepth := 0 }
    store }

theorem wrappedRealm_forwards (target : Object H) (store : H.Store) :
    (wrappedRealm target store).Forwards ⟨2⟩ ⟨1⟩ ⟨0⟩ :=
  ⟨_, _, _, rfl, rfl⟩

theorem wrappedRealm_reachable {target : Object H} (hs : target.Sound) (ho : target.InOrder)
    (store : H.Store) : (wrappedRealm target store).Reachable := by
  have empty : Realm.Reachable ({ wrappedRealm target store with heap := #[] } : Realm H) :=
    .empty rfl
  have handler := empty.step (.allocate _ (.ofKind none .ordinary) (.ofKind _ _)
    (.of_not_isArray rfl))
  exact (handler.step (.allocate _ target hs ho)).step
    (.allocate _ _ (.ofKind _ _) (.of_not_isArray rfl))

theorem wrappedRealm_trapless (host : Host H) (target : Object H) (store : H.Store) :
    (wrappedRealm target store).Trapless host 2 ⟨0⟩ := by
  refine fun m => ⟨.undefined, rfl, fun bound hb depth => ?_⟩
  obtain ⟨bound, rfl⟩ := Nat.exists_eq_add_of_le' hb
  have hl (depth : Nat) : ¬((wrappedRealm target store).atDepth depth).AtLimit :=
    Realm.not_atLimit_atDepth rfl depth
  have ho (depth : Nat) : ((wrappedRealm target store).atDepth depth).object? ⟨0⟩
      = some (.ofKind none .ordinary) := rfl
  have hown : (Object.ofKind none .ordinary : Object H).ownProperty? (.ofString m.trap) = none := by
    simp [Object.ownProperty?, Object.ofKind, ObjectKind.unitProperty?]
  have hget : (Dispatch.get ⟨0⟩ (.ofString m.trap) (.object ⟨0⟩)).act
      (.bounded host (bound + 1)) ((wrappedRealm target store).atDepth (depth + 1)) = _ :=
    Dispatch.get_eq (ho (depth + 1)) rfl (hl _) (Nat.succ_pos bound)
  rw [hown] at hget
  exact Action.nested_of_ok (hl depth) hget

/-- The types of a host without a program whose code does not see the depth of calls. -/
def HostTypes.blind : HostTypes := { HostTypes.bare with seesDepth := false }

/-- The properties of an object are listed and set through a proxy as on the object itself. -/
theorem trapless_transparent_wrappedRealm :
    (∀ bound, 2 ≤ bound →
      (Method.ownKeys.of ⟨2⟩).run (.idle ()) (bound + 1)
          (wrappedRealm (H := HostTypes.blind) (.ofKind none .ordinary) ())
        = (Method.ownKeys.of ⟨1⟩).run (.idle ()) bound
          (wrappedRealm (H := HostTypes.blind) (.ofKind none .ordinary) ()))
    ∧ ∃ least, ∀ bound, least ≤ bound →
      ((Method.set lengthKey .null (.object ⟨2⟩)).of ⟨2⟩).run (.idle ())
          (bound + 2) (wrappedRealm (H := HostTypes.blind) (.ofKind none .ordinary) ())
        = ((Method.set lengthKey .null (.object ⟨1⟩)).of ⟨1⟩).run (.idle ()) bound
          (wrappedRealm (H := HostTypes.blind) (.ofKind none .ordinary) ()) := by
  have hclear : (wrappedRealm (H := HostTypes.blind) (.ofKind none .ordinary) ()).ClearFor
      lengthKey ⟨1⟩ := by
    intro o object hchain ho
    obtain rfl | ⟨parent, ⟨object', ho', hparent⟩, -⟩ := hchain.cases_head
    · cases ho
      exact ⟨rfl, fun d hd => by cases hd⟩
    · cases ho'
      cases hparent
  obtain ⟨hmethod, hset⟩ := trapless_transparent (.idle ()) rfl
    (wrappedRealm_forwards (H := HostTypes.blind) (.ofKind none .ordinary) ())
    (wrappedRealm_trapless _ _ _)
  obtain ⟨least, hleast⟩ := hset lengthKey .null hclear
  exact ⟨fun bound hb => (hmethod .ownKeys bound hb).2 rfl,
    least, fun bound hb => (hleast bound hb).2 rfl⟩

/-- A host whose functions tell whether calls are nested more than two deep. -/
def depthHost : Host HostTypes.bare
  | .native .. => return .bool (2 < (← getRealm.toRoutine).callDepth)
  | r => Host.bare r

/-- A function of the host that is the getter of a property of its own. -/
def depthFunction : Object HostTypes.bare :=
  .ofKindWith none (.function (.native (.host ()) false)) (.string "depth")
    (.accessor (.object ⟨1⟩) .undefined false false) false

/-- A getter that sees the depth of calls can tell a proxy without traps from its target. -/
theorem not_trapless_transparent :
    ¬∀ (host : Host HostTypes.bare) (realm : Realm HostTypes.bare) (p target handler : ObjectId)
      (need : Nat), realm.Reachable → realm.config.maxCallDepth = 0 →
      realm.Forwards p target handler → realm.Trapless host need handler →
      ∀ {α : Type} (m : Method α), ∃ least, ∀ bound, least ≤ bound →
        (m.of p).run host (bound + 1) realm = (m.of target).run host bound realm := by
  intro h
  have hsound : depthFunction.Sound := .ofKindWith _ _ rfl rfl (.inl rfl)
  obtain ⟨least, hleast⟩ := h depthHost (wrappedRealm depthFunction ()) ⟨2⟩ ⟨1⟩ ⟨0⟩ 2
    (wrappedRealm_reachable hsound (.of_not_isArray rfl) ()) rfl
    (wrappedRealm_forwards _ _) (wrappedRealm_trapless _ _ _) (.get (.string "depth") .undefined)
  obtain ⟨after, htarget⟩ : ∃ after, ((Method.get (.string "depth") .undefined).of ⟨1⟩).run
      depthHost (least + 4) (wrappedRealm depthFunction ()) = .ok (.bool false) after := ⟨_, rfl⟩
  obtain ⟨deeper, hdeeper⟩ : ∃ after, ((Method.get (.string "depth") .undefined).of ⟨1⟩).run
      depthHost (least + 4) (wrappedRealm depthFunction ()).deeper = .ok (.bool true) after :=
    ⟨_, rfl⟩
  have hproxy := (Method.get (.string "depth") .undefined).run_of_trapless
    (wrappedRealm_forwards depthFunction ()) (wrappedRealm_trapless depthHost depthFunction ())
    (fun h => h.1 rfl) (Nat.le_add_left 2 (least + 2))
  have heq := (hleast (least + 4) (Nat.le_add_right least 4)).symm.trans hproxy
  rw [htarget, hdeeper] at heq
  cases heq

end ScriptEngine
