import Mathlib.Data.Fintype.Card
import Mathlib.Data.Set.Finite.Basic
import Mathlib.Data.Set.Finite.Range
import ScriptEngine.Proofs.Prototype
import ScriptEngine.Proofs.ProxyObject

/-!
# Walks along prototypes

Whether an object is the prototype of another, or an instance of a constructor, is found out by a
walk from prototype to prototype. Each step of the walk is a request of its own, answered at the
same depth of calls, so that the limit on the depth cuts short a single request but not the walk. A
prototype behind a proxy is not seen when prototypes are set, and objects may stand in a circle.

## Main definitions

* `Engine.EndsAt`, `Engine.Endless`: computations that come to an end, and those that never do.
* `Realm.Untrapped`: no handler of a proxy has a trap for the prototype.
* `Realm.WalksOn`, `Realm.Circles`: one step of a walk, and walks that come to a circle.

## Main results

* `Realm.Untrapped.getPrototypeOf_endsAt`: a single request for a prototype ends.
* `prototype_walk_ends_iff`: a walk ends exactly if it does not come to a circle.
-/

namespace ScriptEngine

open Engine Relation

variable {H : HostTypes} {α β : Type}

/-! ### Computations that end and computations that do not -/

/-- A computation comes to an end, and in a certain realm: it has one outcome, up to giving up where
requests may not be nested deep enough. -/
def Engine.EndsAt (x : Engine H α) (host : Host H) (realm after : Realm H) : Prop :=
  ∃ need outcome, EndsIn outcome after ∧ ∀ bound, Gives need bound (x.run host bound realm) outcome

/-- A computation never ends: it gives up however deep requests may be nested and however often
loops may go round. -/
def Engine.Endless (x : Engine H α) (host : Host H) (realm : Realm H) : Prop :=
  ∀ bound, ∃ after, x.run host bound realm = .error .exhausted after

section Ends

variable {host : Host H} {realm middle after : Realm H} {need need' bound : Nat}
  {s : Surroundings H} {expected : EStateM.Result Stop (Realm H) α}

theorem EndsIn.shallower (h : EndsIn expected realm.deeper) :
    EndsIn (outcomeShallower expected) realm := by
  rcases h with ⟨a, rfl⟩ | ⟨f, rfl⟩
  · exact .inl ⟨a, rfl⟩
  · exact .inr ⟨f, rfl⟩

/-- A computation one level deeper. -/
theorem Gives.nested_of_not_atLimit {x : Action H α} (hl : ¬realm.AtLimit)
    (h : Gives need bound (x s realm.deeper) expected) :
    Gives need bound (x.nested s realm) (outcomeShallower expected) := by
  rw [Action.nested_of_not_atLimit hl]
  rcases h with h | ⟨hb, after, h⟩
  · exact .inl (by rw [h])
  · exact .inr ⟨hb, _, by rw [h]; rfl⟩

/-- A request whose answer is computed one level deeper ends, if the depth of calls is at its limit
or if the computation of the answer ends. -/
theorem Engine.EndsAt.ask {r : Request H} {x : Engine H r.Answer}
    (hr : respond host r = (Engine.nested x).act)
    (hx : ¬realm.AtLimit → x.EndsAt host realm.deeper realm.deeper) :
    (Engine.ask r).EndsAt host realm realm := by
  by_cases hl : realm.AtLimit
  · refine ⟨1, .error .overflow realm, .inr ⟨_, rfl⟩, fun _ => Gives.answer fun _ => .of_eq ?_⟩
    rw [hr]
    exact Action.nested_of_atLimit hl
  · obtain ⟨need, outcome, hends, hgives⟩ := hx hl
    refine ⟨need + 1, outcomeShallower outcome, hends.shallower, fun _ =>
      Gives.answer fun bound => ?_⟩
    rw [hr]
    exact .nested_of_not_atLimit hl (hgives bound)

theorem Engine.EndsAt.of_ok {x : Engine H α} {a : α} (h : ∀ s, x.act s realm = .ok a after) :
    x.EndsAt host realm after :=
  ⟨0, _, .inl ⟨a, rfl⟩, fun _ => .of_eq (h _)⟩

theorem Engine.EndsAt.of_failure {x : Engine H α} {f : Failure}
    (h : ∀ s, x.act s realm = .error (.failure f) after) : x.EndsAt host realm after :=
  ⟨0, _, .inr ⟨f, rfl⟩, fun _ => .of_eq (h _)⟩

/-- What follows on a result ends where the whole does. -/
theorem Engine.EndsAt.of_bind {x : Engine H α} {f : α → Engine H β} {a : α}
    (hx : ∀ bound, Gives need bound (x.run host bound realm) (.ok a middle))
    (hf : (f a).EndsAt host middle after) : (x >>= f).EndsAt host realm after := by
  obtain ⟨need', outcome, hends, hgives⟩ := hf
  exact ⟨max need need', outcome, hends, fun bound =>
    ((hx bound).mono (Nat.le_max_left _ _)).bindEngine
      ((hgives bound).mono (Nat.le_max_right _ _))⟩

theorem Engine.Endless.of_bind {x : Engine H α} {f : α → Engine H β} {a : α}
    (hx : ∀ bound, Gives need bound (x.run host bound realm) (.ok a middle))
    (hf : (f a).Endless host middle) : (x >>= f).Endless host realm := by
  intro bound
  rcases hx bound with h | ⟨-, after, h⟩
  · obtain ⟨after, hafter⟩ := hf bound
    exact ⟨after, (Engine.bind_of_ok h).trans hafter⟩
  · exact ⟨after, Engine.bind_of_error h⟩

end Ends

/-! ### Handlers without a trap -/

/-- Where the trap for the prototype is looked for. -/
def prototypeTrap : PropertyKey := .ofString "getPrototypeOf"

/-- A handler has no trap for the prototype: at every depth of calls, reading it gives `undefined`
or `null` or exceeds the limit on the depth, and changes nothing. -/
def Realm.TraplessAt (realm : Realm H) (host : Host H) (handler : ObjectId) : Prop :=
  ∀ depth, ∃ need outcome,
    (outcome = .error .overflow (realm.atDepth depth)
      ∨ ∃ v : Value, v.isNullish ∧ outcome = .ok v (realm.atDepth depth))
    ∧ ∀ bound, Gives need bound
      ((handler.get prototypeTrap).run host bound (realm.atDepth depth)) outcome

/-- No handler of a proxy has a trap for the prototype. -/
def Realm.Untrapped (realm : Realm H) (host : Host H) : Prop :=
  ∀ p target handler, realm.Forwards p target handler → realm.TraplessAt host handler

section Handler

variable {host : Host H} {realm middle : Realm H} {need bound : Nat} {handler o : ObjectId}
  {k : PropertyKey}

/-- Reading a property that an object does not have: the prototype is asked one level deeper. -/
theorem ObjectId.getFor_gives_of_missing {object : Object H} {receiver : Value}
    {outcome : EStateM.Result Stop (Realm H) Value} (ho : realm.object? o = some object)
    (hp : object.kind.isPlain) (hk : object.ownProperty? k = none) (hl : ¬realm.AtLimit)
    (hl' : ¬realm.deeper.AtLimit)
    (hnext : ∀ bound, Gives need bound ((match object.prototype with
      | some parent => parent.getFor k receiver
      | none => pure .undefined : Engine H Value).run host bound realm.deeper) outcome) :
    Gives (max need 1 + 1) bound ((o.getFor k receiver).run host bound realm)
      (outcomeShallower outcome) := by
  have ho' : realm.deeper.object? o = some object := ho
  refine Gives.answer fun bound => .nested_of_not_atLimit hl ?_
  rw [Dispatch.get_of_isPlain _ ho' hp]
  refine Gives.bindEngine ((ObjectId.getOwnProperty_gives ho' hp hl' k).mono
    (Nat.le_max_right _ _)) ?_
  rw [hk]
  refine Gives.bindEngine ((ObjectId.getPrototypeOf_gives ho' hp hl').mono
    (Nat.le_max_right _ _)) ?_
  have hrest := (hnext bound).mono (Nat.le_max_left need 1)
  cases hproto : object.prototype with
  | some parent =>
    rw [hproto] at hrest
    exact hrest
  | none =>
    rw [hproto] at hrest
    exact hrest

theorem ObjectId.getFor_gives_of_atLimit (hl : realm.AtLimit) (receiver : Value) :
    Gives 1 bound ((o.getFor k receiver).run host bound realm) (.error .overflow realm) :=
  Gives.answer fun _ => .of_eq (Action.nested_of_atLimit hl)

theorem ObjectId.getFor_gives_of_deeper_atLimit {object : Object H}
    (ho : realm.object? o = some object) (hp : object.kind.isPlain) (hl : ¬realm.AtLimit)
    (hl' : realm.deeper.AtLimit) (receiver : Value) :
    Gives 2 bound ((o.getFor k receiver).run host bound realm) (.error .overflow realm) := by
  have ho' : realm.deeper.object? o = some object := ho
  refine Gives.answer fun bound => .nested_error hl ?_
  rw [Dispatch.get_of_isPlain _ ho' hp]
  exact (ObjectId.getOwnProperty_gives_of_atLimit hl' k).bindEngine_error

/-- The same at any depth of calls, if the rest of the search finds nothing or exceeds the limit. -/
theorem Realm.getFor_none_step {object : Object H} {receiver : Value} {depth : Nat}
    (ho : realm.object? o = some object) (hp : object.kind.isPlain)
    (hk : object.ownProperty? k = none)
    (hnext : ∃ need outcome,
      (outcome = .error .overflow (realm.atDepth (depth + 1))
        ∨ outcome = .ok .undefined (realm.atDepth (depth + 1)))
      ∧ ∀ bound, Gives need bound ((match object.prototype with
        | some parent => parent.getFor k receiver
        | none => pure .undefined : Engine H Value).run host bound (realm.atDepth (depth + 1)))
          outcome) : ∃ need outcome,
      (outcome = .error .overflow (realm.atDepth depth)
        ∨ outcome = .ok .undefined (realm.atDepth depth))
      ∧ ∀ bound, Gives need bound
        ((o.getFor k receiver).run host bound (realm.atDepth depth)) outcome := by
  have ho' : (realm.atDepth depth).object? o = some object := ho
  by_cases hl : (realm.atDepth depth).AtLimit
  · exact ⟨1, _, .inl rfl, fun _ => ObjectId.getFor_gives_of_atLimit hl receiver⟩
  by_cases hl' : (realm.atDepth (depth + 1)).AtLimit
  · exact ⟨2, _, .inl rfl, fun _ =>
      ObjectId.getFor_gives_of_deeper_atLimit ho' hp hl hl' receiver⟩
  obtain ⟨need, outcome, hout, hgives⟩ := hnext
  refine ⟨_, _, ?_, fun _ => ObjectId.getFor_gives_of_missing ho' hp hk hl hl' hgives⟩
  rcases hout with rfl | rfl
  · exact .inl rfl
  · exact .inr rfl

/-- Reading a property that no object has on the chain from `o` on. -/
theorem Realm.Finds.getFor_none_gives {found : Option Descriptor} (h : realm.Finds k o found)
    (hn : found = none) (receiver : Value) (depth : Nat) : ∃ need outcome,
      (outcome = .error .overflow (realm.atDepth depth)
        ∨ outcome = .ok .undefined (realm.atDepth depth))
      ∧ ∀ bound, Gives need bound
        ((o.getFor k receiver).run host bound (realm.atDepth depth)) outcome := by
  induction h generalizing depth with
  | own => cases hn
  | missing ho hp hk hproto =>
    refine getFor_none_step ho hp hk ?_
    rw [hproto]
    exact ⟨0, _, .inr rfl, fun _ => .of_eq rfl⟩
  | inherited ho hp hk hproto _ ih =>
    refine getFor_none_step ho hp hk ?_
    rw [hproto]
    exact ih hn (depth + 1)

/-- A handler has no trap for the prototype if no object on its chain has a property of that
name. -/
theorem Realm.Finds.traplessAt (h : realm.Finds prototypeTrap handler none) :
    realm.TraplessAt host handler := by
  intro depth
  obtain ⟨need, outcome, hout, hgives⟩ := h.getFor_none_gives rfl (.object handler) depth
  exact ⟨need, outcome, hout.imp id fun h => ⟨.undefined, rfl, h⟩, hgives⟩

theorem Value.getMethod?_gives_of_isNullish {v : Value} (hv : v.isNullish)
    (h : Gives need bound ((handler.get k).run host bound realm) (.ok v middle)) :
    Gives need bound (((Value.object handler).getMethod? k).run host bound realm)
      (.ok none middle) := by
  have hget : Gives need bound
      (((Value.object handler).getProperty k).act (.bounded host bound) realm) (.ok v middle) := h
  unfold Value.getMethod?
  refine hget.bindEngine (.of_eq ?_)
  rw [if_pos hv]
  rfl

theorem Value.getMethod?_gives_error {stop : Stop}
    (h : Gives need bound ((handler.get k).run host bound realm) (.error stop middle)) :
    Gives need bound (((Value.object handler).getMethod? k).run host bound realm)
      (.error stop middle) := by
  have hget : Gives need bound
      (((Value.object handler).getProperty k).act (.bounded host bound) realm)
      (.error stop middle) := h
  unfold Value.getMethod?
  exact hget.bindEngine_error

end Handler

/-! ### One request for a prototype -/

section Request

variable {host : Host H} {realm : Realm H} {need bound : Nat}

/-- What a proxy does, once its handler has been read. -/
theorem ProxyObject.getPrototypeOf_gives {p target handler : ObjectId} {v : Value}
    {outcome : EStateM.Result Stop (Realm H) (Option ObjectId)}
    (hp : realm.Forwards p target handler) (hv : v.isNullish)
    (hread : Gives need bound ((handler.get prototypeTrap).run host bound realm) (.ok v realm))
    (ht : Gives need bound (target.getPrototypeOf.run host bound realm) outcome) :
    Gives need bound ((ProxyObject.getPrototypeOf p).run host bound realm) outcome := by
  obtain ⟨object, callable, isConstructor, ho, hk⟩ := hp
  unfold ProxyObject.getPrototypeOf ProxyObject.dispatch
  refine Gives.bindEngine (.of_eq (getKind_of_some ho)) ?_
  rw [hk]
  exact (Value.getMethod?_gives_of_isNullish hv hread).bindEngine ht

/-- A proxy is asked one level deeper. -/
theorem ObjectId.getPrototypeOf_gives_of_proxy {p target handler : ObjectId}
    {outcome : EStateM.Result Stop (Realm H) (Option ObjectId)}
    (hp : realm.Forwards p target handler) (hl : ¬realm.AtLimit)
    (h : ∀ bound, Gives need bound ((ProxyObject.getPrototypeOf p).run host bound realm.deeper)
      outcome) :
    Gives (need + 1) bound (p.getPrototypeOf.run host bound realm) (outcomeShallower outcome) := by
  obtain ⟨object, callable, isConstructor, ho, hk⟩ := hp
  have ho' : realm.deeper.object? p = some object := ho
  refine Gives.answer fun bound => .nested_of_not_atLimit hl ?_
  refine Gives.bindEngine (.of_eq (getKind_of_some ho')) ?_
  rw [hk]
  exact h bound

theorem ProxyObject.getPrototypeOf_gives_error {p target handler : ObjectId} {stop : Stop}
    (hp : realm.Forwards p target handler)
    (hread : Gives need bound ((handler.get prototypeTrap).run host bound realm)
      (.error stop realm)) :
    Gives need bound ((ProxyObject.getPrototypeOf p).run host bound realm) (.error stop realm) := by
  obtain ⟨object, callable, isConstructor, ho, hk⟩ := hp
  unfold ProxyObject.getPrototypeOf ProxyObject.dispatch
  refine Gives.bindEngine (.of_eq (getKind_of_some ho)) ?_
  rw [hk]
  exact (Value.getMethod?_gives_error hread).bindEngine_error

/-- A proxy without a trap for the prototype answers as its target does, or reading its handler
exceeds the limit. -/
theorem ProxyObject.getPrototypeOf_endsAt {p target handler : ObjectId} {depth : Nat}
    (hp : realm.Forwards p target handler) (hh : realm.TraplessAt host handler)
    (ht : target.getPrototypeOf.EndsAt host (realm.atDepth depth) (realm.atDepth depth)) :
    (ProxyObject.getPrototypeOf p).EndsAt host (realm.atDepth depth) (realm.atDepth depth) := by
  have hp' : (realm.atDepth depth).Forwards p target handler := hp.atDepth depth
  obtain ⟨need, outcome, rfl | ⟨v, hv, rfl⟩, hread⟩ := hh depth
  · exact ⟨need, .error .overflow _, .inr ⟨_, rfl⟩, fun bound =>
      ProxyObject.getPrototypeOf_gives_error hp' (hread bound)⟩
  · obtain ⟨need', outcome, hends, hgives⟩ := ht
    exact ⟨max need need', outcome, hends, fun bound => ProxyObject.getPrototypeOf_gives hp' hv
      ((hread bound).mono (Nat.le_max_left _ _)) ((hgives bound).mono (Nat.le_max_right _ _))⟩

theorem ProxyObject.getPrototypeOf_endsAt_of_revoked {p : ObjectId} {object : Object H}
    {data : ProxyData} (ho : realm.object? p = some object) (hk : object.kind = .proxy data)
    (hr : data.target = none ∨ data.handler = none) :
    (ProxyObject.getPrototypeOf p).EndsAt host realm realm := by
  refine .of_failure (f := .typeError ("Cannot perform 'getPrototypeOf"
    ++ "' on a proxy that has been revoked")) fun s => ?_
  unfold ProxyObject.getPrototypeOf ProxyObject.dispatch
  rw [Engine.bind_of_ok (getKind_of_some ho), hk]
  obtain ⟨target, handler, callable, isConstructor⟩ := data
  rcases hr with rfl | rfl
  · rfl
  · cases target <;> rfl

theorem Dispatch.getPrototypeOf_endsAt {o : ObjectId} {depth : Nat} (hh : realm.Untrapped host)
    (ht : ∀ target : ObjectId,
      target.getPrototypeOf.EndsAt host (realm.atDepth depth) (realm.atDepth depth)) :
    (Dispatch.getPrototypeOf o).EndsAt host (realm.atDepth depth) (realm.atDepth depth) := by
  cases ho : realm.object? o with
  | none =>
    have ho' : (realm.atDepth depth).object? o = none := ho
    exact .of_failure fun s => Engine.bind_of_error (getKind_of_none ho')
  | some object =>
    have ho' : (realm.atDepth depth).object? o = some object := ho
    have hkind (bound : Nat) : Gives 0 bound ((getKind o).run host bound (realm.atDepth depth)) _ :=
      .of_eq (getKind_of_some ho')
    cases hk : object.kind with
    | proxy data =>
      refine .of_bind hkind ?_
      rw [hk]
      obtain ⟨target, handler, callable, isConstructor⟩ := data
      match target, handler with
      | some target, some handler =>
        have hp : realm.Forwards o target handler := ⟨object, _, _, ho, hk⟩
        exact ProxyObject.getPrototypeOf_endsAt hp (hh o target handler hp) (ht target)
      | some target, none => exact ProxyObject.getPrototypeOf_endsAt_of_revoked ho' hk (.inr rfl)
      | none, _ => exact ProxyObject.getPrototypeOf_endsAt_of_revoked ho' hk (.inl rfl)
    | moduleNamespace data =>
      refine .of_ok (a := none) fun s => ?_
      refine (Engine.bind_of_ok (getKind_of_some ho')).trans ?_
      rw [hk]
      rfl
    | _ =>
      exact .of_ok fun s => Dispatch.getPrototypeOf_of_isPlain ho' (by rw [hk]; rfl)

/-- A single request for a prototype ends and changes nothing, where the depth of calls is limited:
a circle of proxies is cut short. -/
theorem Realm.Untrapped.getPrototypeOf_endsAt (hh : realm.Untrapped host)
    (hlimit : realm.config.maxCallDepth ≠ 0) (o : ObjectId) :
    o.getPrototypeOf.EndsAt host realm realm := by
  suffices ∀ room depth, realm.config.maxCallDepth - depth ≤ room → ∀ o : ObjectId,
      o.getPrototypeOf.EndsAt host (realm.atDepth depth) (realm.atDepth depth) from
    this _ realm.callDepth (Nat.le_refl _) o
  intro room
  induction room with
  | zero =>
    intro depth hroom o
    exact .ask rfl fun hl => absurd ⟨hlimit, Nat.sub_eq_zero_iff_le.mp (Nat.le_zero.mp hroom)⟩ hl
  | succ room ih =>
    intro depth hroom o
    refine .ask rfl fun _ => ?_
    change (Dispatch.getPrototypeOf o).EndsAt host (realm.atDepth (depth + 1))
      (realm.atDepth (depth + 1))
    exact Dispatch.getPrototypeOf_endsAt hh fun target => ih (depth + 1) (by omega) target

end Request

/-! ### The walk -/

/-- One step of a walk that looks for `q`: on to a prototype that is not `q`. -/
def Realm.WalksOn (realm : Realm H) (host : Host H) (q o p : ObjectId) : Prop :=
  p ≠ q ∧ ∃ need, ∀ bound,
    Gives need bound (o.getPrototypeOf.run host bound realm) (.ok (some p) realm)

/-- The walk from `o` on comes to a circle of objects, and not to `q` before. -/
def Realm.Circles (realm : Realm H) (host : Host H) (q o : ObjectId) : Prop :=
  ∃ p, ReflTransGen (realm.WalksOn host q) o p ∧ TransGen (realm.WalksOn host q) p p

/-- One round of the walk. -/
def ObjectId.walkStep (q o : ObjectId) : Engine H (Round ObjectId Bool) := do
  match ← o.getPrototypeOf with
  | none => return .finish false
  | some p => return if p = q then .finish true else .again p

theorem ObjectId.isPrototypeOf_eq (q o : ObjectId) :
    (q.isPrototypeOf o : Engine H Bool) = loop q.walkStep o :=
  rfl

section Walk

variable {host : Host H} {realm : Realm H} {q o p : ObjectId} {need bound : Nat}

/-- Where a relation is between finitely many things and comes to no circle, it comes to an end. -/
theorem acc_of_finite {r : α → α → Prop} {a : α} (hfinite : {x | ∃ y, r x y}.Finite)
    (h : ¬∃ x, ReflTransGen r a x ∧ TransGen r x x) : Acc (fun y x => r x y) a := by
  let S := {x // x ∈ {x | ∃ y, r x y} ∧ ReflTransGen r a x}
  have : Finite S := (hfinite.subset fun x hx => hx.1).to_subtype
  let after : S → S → Prop := fun y x => TransGen r x.1 y.1
  have : IsTrans S after := ⟨fun _ _ _ hzy hyx => hyx.trans hzy⟩
  have : Std.Irrefl after := ⟨fun x hx => h ⟨x.1, x.2.2, hx⟩⟩
  have hwf : WellFounded after := Finite.wellFounded_of_trans_of_irrefl after
  have hacc (x : S) : Acc (fun y x => r x y) x.1 := by
    refine hwf.induction (C := fun x => Acc (fun y x => r x y) x.1) x fun x ih => ?_
    refine ⟨_, fun y hy => ?_⟩
    by_cases hnext : ∃ z, r y z
    · exact ih ⟨y, hnext, x.2.2.tail hy⟩ (.single hy)
    · exact ⟨_, fun z hz => absurd ⟨z, hz⟩ hnext⟩
  by_cases hnext : ∃ y, r a y
  · exact hacc ⟨a, hnext, .refl⟩
  · exact ⟨_, fun y hy => absurd ⟨y, hy⟩ hnext⟩

/-- Only objects on the heap have prototypes. -/
theorem Realm.WalksOn.index_lt (h : realm.WalksOn host q o p) : o.index < realm.heap.size := by
  obtain ⟨-, need, hgives⟩ := h
  cases ho : realm.object? o with
  | some object => exact Realm.index_lt_of_object? ho
  | none =>
    have hok := (hgives (need + 1)).eq_of_le (Nat.le_succ need)
    have ho' : realm.deeper.object? o = none := ho
    by_cases hl : realm.AtLimit
    · cases hok.symm.trans (Action.nested_of_atLimit hl)
    · cases hok.symm.trans (Action.nested_of_stop hl (Engine.bind_of_error (getKind_of_none ho')))

/-- A walk that does not come to a circle comes to an end. -/
theorem Realm.acc_of_not_circles (h : ¬realm.Circles host q o) :
    Acc (fun p o => realm.WalksOn host q o p) o := by
  refine acc_of_finite ?_ h
  have hfinite : (Set.range fun i : Fin realm.heap.size => ObjectId.mk i.val).Finite :=
    Set.finite_range _
  exact hfinite.subset fun o ⟨p, hp⟩ => ⟨⟨o.index, hp.index_lt⟩, rfl⟩

/-- What the rounds of a walk that comes to an end add up to. -/
theorem ObjectId.walk_ends (hh : realm.Untrapped host) (hlimit : realm.config.maxCallDepth ≠ 0)
    (h : Acc (fun p o => realm.WalksOn host q o p) o) :
    ∃ need outcome, EndsIn outcome realm ∧ ∀ bound fuel, Gives need (min bound fuel)
      ((loopFor q.walkStep fuel o).run host bound realm) outcome := by
  induction h with
  | intro o _ ih =>
    obtain ⟨need, outcome, hends, hgives⟩ := hh.getPrototypeOf_endsAt hlimit o
    obtain ⟨prototype, rfl⟩ | ⟨f, rfl⟩ := hends
    · cases prototype with
      | none =>
        exact ⟨need + 1, .ok false realm, .inl ⟨_, rfl⟩, fun bound =>
          Engine.loopFor_gives_finish ((hgives bound).bindEngine (.of_eq rfl))⟩
      | some p =>
        by_cases hp : p = q
        · refine ⟨need + 1, .ok true realm, .inl ⟨_, rfl⟩, fun bound =>
            Engine.loopFor_gives_finish ((hgives bound).bindEngine (.of_eq ?_))⟩
          simp only [if_pos hp]
          rfl
        · obtain ⟨need', outcome, hends, hrest⟩ := ih p ⟨hp, need, hgives⟩
          refine ⟨max need (need' + 1), outcome, hends, fun bound =>
            Engine.loopFor_gives_again ((hgives bound).bindEngine (.of_eq ?_)) (hrest bound)⟩
          simp only [if_neg hp]
          rfl
    · exact ⟨need + 1, .error (.failure f) realm, .inr ⟨_, rfl⟩, fun bound =>
        Engine.loopFor_gives_error (hgives bound).bindEngine_error⟩

/-- From every object on the way to a circle the walk goes on, to an object that is on the way to a
circle again. -/
theorem Realm.Circles.exists_walksOn (h : realm.Circles host q o) :
    ∃ p, realm.WalksOn host q o p ∧ realm.Circles host q p := by
  obtain ⟨c, hto, hround⟩ := h
  rcases hto.cases_head with rfl | ⟨p, hp, hrest⟩
  · obtain ⟨p, hp, hrest⟩ := TransGen.head'_iff.mp hround
    exact ⟨p, hp, o, hrest, hround⟩
  · exact ⟨p, hp, c, hrest, hround⟩

/-- A walk that comes to a circle goes round for ever. -/
theorem ObjectId.walk_endless (h : realm.Circles host q o) (bound fuel : Nat) :
    ∃ after, (loopFor q.walkStep fuel o).run host bound realm = .error .exhausted after := by
  induction fuel generalizing o with
  | zero => exact ⟨realm, rfl⟩
  | succ fuel ih =>
    obtain ⟨p, ⟨hp, need, hgives⟩, hcircles⟩ := h.exists_walksOn
    rcases hgives bound with hok | ⟨-, after, hstop⟩
    · obtain ⟨after, hafter⟩ := ih hcircles
      have hround : (q.walkStep o).run host bound realm = .ok (.again p) realm := by
        refine (Engine.bind_of_ok hok).trans ?_
        simp only [if_neg hp]
        rfl
      exact ⟨after, (Engine.bind_of_ok hround).trans hafter⟩
    · exact ⟨after, Engine.bind_of_error (Engine.bind_of_error hstop)⟩

/-- A walk ends, and changes nothing, exactly if it does not come to a circle. -/
theorem ObjectId.isPrototypeOf_endsAt (hh : realm.Untrapped host)
    (hlimit : realm.config.maxCallDepth ≠ 0) (h : ¬realm.Circles host q o) :
    (q.isPrototypeOf o).EndsAt host realm realm := by
  rw [ObjectId.isPrototypeOf_eq]
  obtain ⟨need, outcome, hends, hgives⟩ :=
    ObjectId.walk_ends hh hlimit (Realm.acc_of_not_circles h)
  exact ⟨need, outcome, hends, fun bound => Engine.loop_gives (hgives bound)⟩

theorem ObjectId.isPrototypeOf_endless (h : realm.Circles host q o) :
    (q.isPrototypeOf o).Endless host realm := by
  rw [ObjectId.isPrototypeOf_eq]
  exact fun bound => ObjectId.walk_endless h bound bound

end Walk

/-! ### Instances of a constructor -/

/-- A function whose instances are those that inherit from `q`: it is not a bound one, and reading
its property of that name gives `q` and leads to a certain realm. -/
structure Realm.Constructs (realm : Realm H) (host : Host H) (c q : ObjectId) (after : Realm H) :
    Prop where
  callable : ∃ object, realm.object? c = some object ∧ object.kind.isCallable
    ∧ ∀ bound, object.kind ≠ .boundFunction bound
  reads : ∃ need, ∀ bound,
    Gives need bound ((c.getNamed "prototype").run host bound realm) (.ok (.object q) after)

section Instance

variable {host : Host H} {realm after : Realm H} {c q o : ObjectId}

/-- The test for an instance is the walk. -/
theorem Realm.Constructs.ordinaryHasInstance_run (h : realm.Constructs host c q after)
    (bound : Nat) :
    (Value.ordinaryHasInstance (.object c) (.object o)).run host bound realm
      = (c.hasInstance (.object o)).run host bound realm := by
  obtain ⟨object, ho, hcall, hbound⟩ := h.callable
  let s : Surroundings H := .bounded host bound
  change (Value.ordinaryHasInstance (.object c) (.object o)).act s realm
    = (c.hasInstance (.object o)).act s realm
  have hcallable : (Engine.isCallable (.object c)).act s realm = .ok true realm := by
    refine (Engine.bind_of_ok (getRealm_eq s realm)).trans ?_
    have hkind : realm.seen.kind? c = some object.kind := by
      rw [Realm.kind?, Realm.seen, Realm.object?_atDepth, ho]
      rfl
    simp only [Realm.isCallable, hkind, Option.any_some, hcall]
    rfl
  have htarget : (c.boundTarget? : Engine H _).act s realm = .ok none realm := by
    refine (Engine.bind_of_ok (getKind_of_some ho)).trans ?_
    split
    · next bound hk => exact absurd hk (hbound bound)
    · rfl
  have hstep : (c.instanceStep (.object o)).act s realm
      = (c.hasInstance (.object o) >>= fun b => pure (.finish b)).act s realm := by
    unfold ObjectId.instanceStep
    rw [Engine.bind_of_ok hcallable, Bool.not_true, if_neg Bool.false_ne_true]
    exact Engine.bind_of_ok htarget
  unfold Value.ordinaryHasInstance
  match hrun : (c.hasInstance (.object o)).act s realm with
  | .ok b middle =>
    rw [Engine.bind_of_ok hrun] at hstep
    exact Engine.bind_of_ok hstep
  | .error stop middle =>
    rw [Engine.bind_of_error hrun] at hstep
    exact Engine.bind_of_error hstep

theorem Realm.Constructs.ordinaryHasInstance_endsAt (h : realm.Constructs host c q after)
    (hwalk : (q.isPrototypeOf o).EndsAt host after after) :
    (Value.ordinaryHasInstance (.object c) (.object o)).EndsAt host realm after := by
  obtain ⟨need, hreads⟩ := h.reads
  obtain ⟨need', outcome, hends, hgives⟩ :
      (c.hasInstance (.object o)).EndsAt host realm after := .of_bind hreads hwalk
  refine ⟨need', outcome, hends, fun bound => ?_⟩
  rw [h.ordinaryHasInstance_run]
  exact hgives bound

theorem Realm.Constructs.ordinaryHasInstance_endless (h : realm.Constructs host c q after)
    (hwalk : (q.isPrototypeOf o).Endless host after) :
    (Value.ordinaryHasInstance (.object c) (.object o)).Endless host realm := by
  obtain ⟨need, hreads⟩ := h.reads
  have hloop : (c.hasInstance (.object o)).Endless host realm := .of_bind hreads hwalk
  intro bound
  rw [h.ordinaryHasInstance_run]
  exact hloop bound

end Instance

/-! ### Which walks end -/

/-- What ends, does not go on for ever. -/
theorem Engine.EndsAt.not_endless {x : Engine H α} {host : Host H} {realm after : Realm H}
    (h : x.EndsAt host realm after) : ¬x.Endless host realm := by
  intro hloop
  obtain ⟨need, outcome, hends, hgives⟩ := h
  obtain ⟨middle, hstop⟩ := hloop need
  have heq := (hgives need).eq_of_le (Nat.le_refl need)
  rw [hstop] at heq
  rcases hends with ⟨a, h⟩ | ⟨f, h⟩
  · cases heq.trans h
  · cases heq.trans h

/-- Where the depth of calls is limited and no handler of a proxy has a trap for the prototype, a
walk ends, and changes nothing, exactly if it does not come to a circle; otherwise it goes on for
ever. The test for the instances of a constructor is such a walk, once the constructor has told
what to look for. -/
theorem prototype_walk_ends_iff {host : Host H} {realm : Realm H} (hh : realm.Untrapped host)
    (hlimit : realm.config.maxCallDepth ≠ 0) (q o : ObjectId) :
    ((q.isPrototypeOf o).EndsAt host realm realm ↔ ¬realm.Circles host q o)
    ∧ ((q.isPrototypeOf o).Endless host realm ↔ realm.Circles host q o)
    ∧ ∀ (c : ObjectId) (start : Realm H), start.Constructs host c q realm →
      ((Value.ordinaryHasInstance (.object c) (.object o)).EndsAt host start realm
          ↔ ¬realm.Circles host q o)
      ∧ ((Value.ordinaryHasInstance (.object c) (.object o)).Endless host start
          ↔ realm.Circles host q o) := by
  by_cases hc : realm.Circles host q o
  · have hwalk := ObjectId.isPrototypeOf_endless hc
    refine ⟨?_, ?_, fun c start hstart => ⟨?_, ?_⟩⟩
    · exact ⟨fun h => absurd hwalk h.not_endless, absurd hc⟩
    · exact ⟨fun _ => hc, fun _ => hwalk⟩
    · exact ⟨fun h => absurd (hstart.ordinaryHasInstance_endless hwalk) h.not_endless, absurd hc⟩
    · exact ⟨fun _ => hc, fun _ => hstart.ordinaryHasInstance_endless hwalk⟩
  · have hwalk := ObjectId.isPrototypeOf_endsAt hh hlimit hc
    refine ⟨?_, ?_, fun c start hstart => ⟨?_, ?_⟩⟩
    · exact ⟨fun _ => hc, fun _ => hwalk⟩
    · exact ⟨fun h => absurd h hwalk.not_endless, fun h => absurd h hc⟩
    · exact ⟨fun _ => hc, fun _ => hstart.ordinaryHasInstance_endsAt hwalk⟩
    · exact ⟨fun h => absurd h (hstart.ordinaryHasInstance_endsAt hwalk).not_endless,
        fun h => absurd h hc⟩

/-! ### A circle -/

/-- The proxy of an object, with a handler without traps. -/
def circleProxy : Object HostTypes.bare :=
  .ofKind none (.proxy
    { target := some ⟨1⟩, handler := some ⟨0⟩, callable := false, isConstructor := false })

/-- A function whose instances are those that inherit from the handler. -/
def circleFunction : Object HostTypes.bare :=
  .ofKindWith none (.function (.native (.host ()) true)) (.string "prototype")
    (.data (.object ⟨0⟩) false false false)

/-- A realm with a handler, an object, a proxy of it and a function. -/
def straightRealm : Realm HostTypes.bare :=
  { heap := #[.ofKind none .ordinary, .ofKind none .ordinary, circleProxy, circleFunction]
    store := () }

/-- The realm after the proxy has become the prototype of its own target. -/
def circleRealm : Realm HostTypes.bare :=
  { straightRealm with
    heap := #[.ofKind none .ordinary, .ofKind (some ⟨2⟩) .ordinary, circleProxy, circleFunction] }

theorem circleRealm_reachable : circleRealm.Reachable := by
  have empty : Realm.Reachable ({ straightRealm with heap := #[] } : Realm HostTypes.bare) :=
    .empty rfl
  have handler := empty.step (.allocate _ (.ofKind none .ordinary) (.ofKind _ _)
    (.of_not_isArray rfl))
  have target := handler.step (.allocate _ (.ofKind none .ordinary) (.ofKind _ _)
    (.of_not_isArray rfl))
  have proxy := target.step (.allocate _ circleProxy (.ofKind _ _) (.of_not_isArray rfl))
  have straight : straightRealm.Reachable :=
    proxy.step (.allocate _ circleFunction (.ofKindWith _ _ rfl rfl (.inl rfl))
      (.of_not_isArray rfl))
  exact straight.step (.inherit straightRealm ⟨1⟩ (some ⟨2⟩) rfl rfl rfl rfl)

theorem circleRealm_untrapped (host : Host HostTypes.bare) : circleRealm.Untrapped host := by
  rintro ⟨i⟩ target handler ⟨object, callable, isConstructor, ho, hk⟩
  match i, ho with
  | 0, ho =>
    cases ho
    cases hk
  | 1, ho =>
    cases ho
    cases hk
  | 2, ho =>
    cases ho
    cases hk
    exact Realm.Finds.traplessAt (.missing rfl rfl rfl rfl)
  | 3, ho =>
    cases ho
    cases hk

theorem circleRealm_circles (host : Host HostTypes.bare) : circleRealm.Circles host ⟨0⟩ ⟨1⟩ := by
  have ho : circleRealm.object? ⟨1⟩ = some (.ofKind (some ⟨2⟩) .ordinary) := rfl
  have ho' : circleRealm.deeper.object? ⟨1⟩ = some (.ofKind (some ⟨2⟩) .ordinary) := rfl
  have hhandler : circleRealm.deeper.object? ⟨0⟩ = some (.ofKind none .ordinary) := rfl
  have hp : circleRealm.Forwards ⟨2⟩ ⟨1⟩ ⟨0⟩ := ⟨circleProxy, _, _, rfl, rfl⟩
  have hl : ¬circleRealm.AtLimit := by decide
  have hl' : ¬circleRealm.deeper.AtLimit := by decide
  have hl'' : ¬circleRealm.deeper.deeper.AtLimit := by decide
  have first : circleRealm.WalksOn host ⟨0⟩ ⟨1⟩ ⟨2⟩ :=
    ⟨by decide, 1, fun _ => ObjectId.getPrototypeOf_gives ho rfl hl⟩
  have hread (bound : Nat) : Gives 2 bound
      (((⟨0⟩ : ObjectId).get prototypeTrap).run host bound circleRealm.deeper)
      (.ok .undefined circleRealm.deeper) := by
    have hend (bound : Nat) : Gives 0 bound
        ((pure .undefined : Engine HostTypes.bare Value).run host bound circleRealm.deeper.deeper)
        (.ok .undefined circleRealm.deeper.deeper) := .of_eq rfl
    exact ObjectId.getFor_gives_of_missing hhandler rfl rfl hl' hl'' hend
  have hproxy (bound : Nat) : Gives 2 bound
      ((ProxyObject.getPrototypeOf ⟨2⟩).run host bound circleRealm.deeper)
      (.ok (some ⟨2⟩) circleRealm.deeper) :=
    ProxyObject.getPrototypeOf_gives (hp.atDepth 1) rfl (hread bound)
      ((ObjectId.getPrototypeOf_gives ho' rfl hl').mono (Nat.le_succ 1))
  have round : circleRealm.WalksOn host ⟨0⟩ ⟨2⟩ ⟨2⟩ :=
    ⟨by decide, 3, fun _ => ObjectId.getPrototypeOf_gives_of_proxy hp hl hproxy⟩
  exact ⟨⟨2⟩, .single first, .single round⟩

theorem circleRealm_constructs (host : Host HostTypes.bare) :
    circleRealm.Constructs host ⟨3⟩ ⟨0⟩ circleRealm where
  callable := ⟨circleFunction, rfl, rfl, fun _ hk => by cases hk⟩
  reads := by
    refine ⟨2, fun bound => ?_⟩
    match bound with
    | 0 => exact .inr ⟨by decide, _, rfl⟩
    | 1 => exact .inr ⟨by decide, _, rfl⟩
    | bound + 2 => exact .inl rfl

/-- The walk from the object goes on for ever, and with it the test whether it is an instance. -/
theorem prototype_walk_ends_iff_circleRealm :
    circleRealm.Reachable
    ∧ (ObjectId.isPrototypeOf ⟨0⟩ ⟨1⟩).Endless Host.bare circleRealm
    ∧ (Value.ordinaryHasInstance (.object ⟨3⟩) (.object ⟨1⟩)).Endless Host.bare circleRealm := by
  have hc := circleRealm_circles Host.bare
  obtain ⟨-, hwalk, hinstance⟩ := prototype_walk_ends_iff (circleRealm_untrapped Host.bare)
    (by decide) ⟨0⟩ ⟨1⟩
  exact ⟨circleRealm_reachable, hwalk.mpr hc,
    (hinstance ⟨3⟩ circleRealm (circleRealm_constructs Host.bare)).2.mpr hc⟩

end ScriptEngine
