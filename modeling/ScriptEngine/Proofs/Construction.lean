import ScriptEngine.Builtin.Install
import ScriptEngine.Proofs.Definition
import ScriptEngine.Proofs.Plan
import ScriptEngine.Proofs.Prototype

/-!
# Computations that make objects

What a computation makes of a plan is found without running it: a computation builds certain plans
from a given one if it has a result in every realm that is as planned, and leaves the realm as one
of the new plans says. This is shown of the operations that install functions and constants, and put
together for all that is composed of them.

## Main definitions

* `Engine.Builds`: what a computation makes of a plan.
* `Plan.Adds`: one more object.

## Main results

* `Engine.Builds.bind`, `Engine.Builds.andThen`, `Engine.Builds.forM_keep`,
  `Engine.Builds.forM_settle`: computations that are put together.
* `ObjectId.store_builds`, `ObjectId.settle_builds`: defining a property that may change, or that is
  kept from now on.
* `ObjectId.getNamed_builds`, `ObjectId.setPrototypeOf_builds`: reading a property that is kept, and
  replacing a prototype.
* `builtinFunction_builds`, `ObjectId.installMethods_builds`, `installConstructor_builds`:
  functions, methods and constructors.
-/

namespace ScriptEngine

open Engine

variable {H : HostTypes} {α β γ : Type}

/-! ### Computations under a plan -/

/-- A computation has a result in every realm that is as planned, and the realm after it is as one
of certain plans says. -/
def Engine.Builds (host : Host H) (roomy : Bool) (x : Engine H α) (plan : Plan)
    (Q : α → Plan → Prop) : Prop :=
  ∀ realm : Realm H, realm.Underway roomy plan → ∃ a after,
    (∀ bound, Gives 2 bound (x.run host bound realm) (.ok a after))
      ∧ ∃ plan', Q a plan' ∧ after.Underway roomy plan'

theorem Engine.run_assoc (x : Engine H α) (f : α → Engine H β) (g : β → Engine H γ)
    {host : Host H} {bound : Nat} {realm : Realm H} :
    (x >>= f >>= g).run host bound realm = (x >>= fun a => f a >>= g).run host bound realm := by
  match hx : x.act (.bounded host bound) realm with
  | .ok a middle =>
    refine Eq.trans ?_ (Engine.bind_of_ok hx).symm
    match hf : (f a).act (.bounded host bound) middle with
    | .ok b last =>
      exact (Engine.bind_of_ok ((Engine.bind_of_ok hx).trans hf)).trans (Engine.bind_of_ok hf).symm
    | .error stop last =>
      exact (Engine.bind_of_error ((Engine.bind_of_ok hx).trans hf)).trans
        (Engine.bind_of_error hf).symm
  | .error stop middle =>
    exact (Engine.bind_of_error (Engine.bind_of_error hx)).trans (Engine.bind_of_error hx).symm

section Builds

variable {host : Host H} {roomy : Bool} {plan plan' : Plan} {o p : ObjectId} {k : PropertyKey}
  {d : Descriptor} {a : Attributes} {fixtures : Fixtures} {i : Intrinsic}

namespace Engine.Builds

variable {x : Engine H α} {f : α → Engine H β} {g : β → Engine H γ} {Q Q' : α → Plan → Prop}
  {R : β → Plan → Prop} {S : γ → Plan → Prop}

/-- A computation whose one result is known. -/
theorem of_run (result : Realm H → α) (after : Realm H → Realm H)
    (hrun : ∀ s realm, x.act s realm = .ok (result realm) (after realm))
    (h : ∀ realm : Realm H, realm.Underway roomy plan →
      ∃ plan', Q (result realm) plan' ∧ (after realm).Underway roomy plan') :
    Builds host roomy x plan Q :=
  fun realm hr => ⟨result realm, after realm, fun _ => .of_eq (hrun _ realm), h realm hr⟩

theorem pure {b : α} (h : Q b plan) : Builds host roomy (Pure.pure b : Engine H α) plan Q :=
  of_run _ _ (fun _ _ => rfl) fun _ hr => ⟨plan, h, hr⟩

theorem bind (hx : Builds host roomy x plan Q)
    (hf : ∀ b plan', Q b plan' → Builds host roomy (f b) plan' R) :
    Builds host roomy (x >>= f) plan R := by
  intro realm hr
  obtain ⟨b, middle, hgives, plan', hq, hm⟩ := hx realm hr
  obtain ⟨c, after, hgives', hafter⟩ := hf b plan' hq middle hm
  exact ⟨c, after, fun bound => (hgives bound).bindEngine (hgives' bound), hafter⟩

/-- A computation after one that makes a known plan. -/
theorem andThen (hx : Builds host roomy x plan fun _ p => p = plan')
    (hf : ∀ b, Builds host roomy (f b) plan' R) : Builds host roomy (x >>= f) plan R :=
  hx.bind fun b _ heq => heq ▸ hf b

theorem assoc (h : Builds host roomy (x >>= f >>= g) plan S) :
    Builds host roomy (x >>= fun a => f a >>= g) plan S := by
  intro realm hr
  obtain ⟨c, after, hgives, hafter⟩ := h realm hr
  exact ⟨c, after, fun bound => Engine.run_assoc x f g ▸ hgives bound, hafter⟩

/-- Some of what a plan says may be forgotten. -/
theorem forget (hx : Builds host roomy x plan Q)
    (h : ∀ b plan', Q b plan' → ∃ plan'', plan''.Below plan' ∧ Q' b plan'') :
    Builds host roomy x plan Q' := by
  intro realm hr
  obtain ⟨b, after, hgives, plan', hq, hafter⟩ := hx realm hr
  obtain ⟨plan'', hbelow, hq'⟩ := h b plan' hq
  exact ⟨b, after, hgives, plan'', hq', hafter.below hbelow⟩

/-- A computation that only adds to a plan is one after which the plan still holds. -/
theorem keep (hx : Builds host roomy x plan Q) (h : ∀ b plan', Q b plan' → plan.Below plan') :
    Builds host roomy x plan fun _ plan' => plan' = plan :=
  hx.forget fun b plan' hq => ⟨plan, h b plan' hq, rfl⟩

theorem mono (hx : Builds host roomy x plan Q) (h : ∀ b plan', Q b plan' → Q' b plan') :
    Builds host roomy x plan Q' :=
  hx.forget fun b plan' hq => ⟨plan', .refl plan', h b plan' hq⟩

/-- Computations one after the other under one plan. -/
theorem forM_keep {xs : List α} {body : α → Engine H PUnit}
    (h : ∀ b ∈ xs, Builds host roomy (body b) plan fun _ plan' => plan' = plan) :
    Builds host roomy (xs.forM body) plan fun _ plan' => plan' = plan := by
  induction xs with
  | nil => exact pure rfl
  | cons b xs ih =>
    refine (h b List.mem_cons_self).bind ?_
    rintro _ _ rfl
    exact ih fun b hb => h b (List.mem_cons_of_mem _ hb)

/-- Properties of an object that are defined one after the other, each of them to be kept. -/
theorem forM_settle {xs : List α} {body : α → Engine H PUnit} (key : α → PropertyKey)
    (a : Attributes)
    (h : ∀ fixtures b, b ∈ xs → fixtures.allows (key b) →
      Builds host roomy (body b) (plan.set o fixtures) fun _ plan' =>
        plan' = plan.set o ((key b, a) :: fixtures))
    (hk : fixtures.allowsInTurn a (xs.map key)) :
    Builds host roomy (xs.forM body) (plan.set o fixtures) fun _ plan' =>
      plan' = plan.set o (fixtures.settled a (xs.map key)) := by
  induction xs generalizing fixtures with
  | nil => exact pure rfl
  | cons b xs ih =>
    obtain ⟨hb, hrest⟩ := Bool.and_eq_true_iff.mp hk
    refine (h fixtures b List.mem_cons_self hb).bind ?_
    rintro _ _ rfl
    exact ih (fun fixtures b hb => h fixtures b (List.mem_cons_of_mem _ hb)) hrest

end Engine.Builds

/-! ### Objects and their properties -/

/-- A computation that goes on with an intrinsic object of the plan. -/
theorem Engine.Builds.intrinsic {f : ObjectId → Engine H β} {R : β → Plan → Prop}
    (h : plan.known i = some o) (hf : Builds host roomy (f o) plan R) :
    Builds host roomy (Engine.intrinsic i >>= f) plan R := by
  have hx : Builds host roomy (Engine.intrinsic i) plan fun o' plan' => o' = o ∧ plan' = plan :=
    .of_run _ _ (fun _ _ => rfl) fun _ hr => ⟨plan, ⟨hr.known i o h, rfl⟩, hr⟩
  refine hx.bind ?_
  rintro _ _ ⟨rfl, rfl⟩
  exact hf

/-- The intrinsic object of a name, whatever it is. -/
theorem anyIntrinsic_builds (i : Intrinsic) :
    Builds host roomy (intrinsic i) plan fun _ plan' => plan' = plan :=
  .of_run _ _ (fun _ _ => rfl) fun _ hr => ⟨plan, rfl, hr⟩

/-- What a new object adds to a plan. -/
def Plan.Adds (plan : Plan) (fixtures : Fixtures) (o : ObjectId) (plan' : Plan) : Prop :=
  plan.objects o = none ∧ plan' = plan.set o fixtures

theorem Plan.Adds.below (h : plan.Adds fixtures o plan') : plan.Below plan' := by
  obtain ⟨hnew, rfl⟩ := h
  exact Plan.below_set hnew fixtures

/-- A computation that makes an object for its own use, whatever the object keeps in the end. -/
theorem Engine.Builds.adding_settled {x : Engine H ObjectId} {f : ObjectId → Engine H β}
    (hx : Builds host roomy x plan (plan.Adds fixtures))
    (hf : ∀ o, plan.objects o = none → plan.Below (plan.set o fixtures) →
      Builds host roomy (f o) (plan.set o fixtures) fun _ plan' =>
        ∃ fixtures', plan' = plan.set o fixtures') :
    Builds host roomy (x >>= f) plan fun _ plan' => plan' = plan := by
  refine Builds.keep (hx.bind (R := fun _ plan' => plan.Below plan') ?_) fun _ _ => id
  rintro o _ ⟨hnew, rfl⟩
  refine (hf o hnew (Plan.below_set hnew fixtures)).mono ?_
  rintro _ _ ⟨fixtures', rfl⟩
  exact Plan.below_set hnew fixtures'

/-- A computation that makes an object for its own use. -/
theorem Engine.Builds.adding {x : Engine H ObjectId} {f : ObjectId → Engine H β}
    (hx : Builds host roomy x plan (plan.Adds fixtures))
    (hf : ∀ o, plan.objects o = none → plan.Below (plan.set o fixtures) →
      Builds host roomy (f o) (plan.set o fixtures) fun _ plan' => plan' = plan.set o fixtures) :
    Builds host roomy (x >>= f) plan fun _ plan' => plan' = plan :=
  hx.adding_settled fun o hnew hbelow => (hf o hnew hbelow).mono fun _ _ heq => ⟨fixtures, heq⟩

/-- A computation that makes an object for a property of another one, which is kept. -/
theorem Engine.Builds.settling {x : Engine H ObjectId} {f : ObjectId → Engine H β}
    {fixtures' fixtures'' : Fixtures}
    (hx : Builds host roomy x (plan.set o fixtures) ((plan.set o fixtures).Adds fixtures'))
    (hf : ∀ p plan', plan'.objects o = some fixtures →
      Builds host roomy (f p) plan' fun _ plan'' => plan'' = plan'.set o fixtures'') :
    Builds host roomy (x >>= f) (plan.set o fixtures) fun _ plan' =>
      plan' = plan.set o fixtures'' := by
  refine Builds.forget (hx.bind (R := fun _ plan' => (plan.set o fixtures'').Below plan') ?_)
    fun _ _ hbelow => ⟨_, hbelow, rfl⟩
  rintro p _ ⟨hnew, rfl⟩
  have hbelow := Plan.below_set hnew fixtures'
  refine (hf p _ (hbelow.objects o fixtures (Plan.objects_set_self ..))).mono ?_
  rintro _ _ rfl
  exact Plan.set_set plan o fixtures fixtures'' ▸ hbelow.set o fixtures''

theorem allocate_builds {object : Object H} {sound : object.Sound} {inOrder : object.InOrder}
    {promise : object.kind.promise? = none}
    {generator : object.kind.generator? = none ∨ object.kind.generator? = some {}}
    (hp : ∀ p, object.prototype = some p → (plan.objects p).isSome) (hs : object.Shows fixtures)
    (hb : ∀ k, k ≠ lengthKey → object.properties.get? k = none) :
    Builds host roomy (allocate object sound inOrder promise generator) plan (plan.Adds fixtures) :=
  .of_run _ _ (fun _ _ => rfl) fun _ hr =>
    ⟨_, ⟨hr.objects_next, rfl⟩, hr.allocate (fun p h => hr.index_lt (hp p h)) hs hb⟩

/-- A new object that inherits from an intrinsic one. -/
theorem newHeir_builds (i : Intrinsic) {kind : ObjectKind H} {isNew : kind.isNew = true}
    (hp : kind.isPlain) :
    Builds host roomy (intrinsic i >>= fun parent => newObject (some parent) kind isNew) plan
      (plan.Adds []) :=
  .of_run (fun realm => ⟨realm.heap.size⟩)
    (fun realm =>
      { realm with heap := realm.heap.push (.ofKind (some (realm.intrinsics.get i)) kind) })
    (fun _ _ => rfl) fun _ hr =>
    ⟨_, ⟨hr.objects_next, rfl⟩, hr.allocate (fun _ h => Option.some.inj h ▸ hr.intrinsics i)
      (.ofKind _ hp (ObjectKind.isArray_of_isNew isNew)) fun k _ => PropertyMap.get?_empty k⟩

theorem newPlain_builds : Builds host roomy (newPlain : Engine H _) plan (plan.Adds []) :=
  newHeir_builds .objectPrototype rfl

theorem newEnvironment_builds (outer : Option EnvironmentId) (kind : EnvironmentKind) :
    Builds host roomy (newEnvironment outer kind : Engine H _) plan fun _ plan' => plan' = plan :=
  .of_run (fun realm => ⟨realm.environments.size⟩)
    (fun realm => { realm with environments := realm.environments.push { outer, kind } })
    (fun _ _ => rfl) fun _ hr => ⟨plan, rfl, { hr with room := hr.room }⟩

/-- An object of the plan gets an intrinsic name that the plan does not speak of. -/
theorem setIntrinsic_builds (ho : plan.objects o = some fixtures) (hi : plan.known i = none) :
    Builds host roomy (setIntrinsic i o : Engine H _) plan fun _ plan' => plan' = plan :=
  .of_run _ _ (fun _ _ => rfl) fun realm hr => by
    refine ⟨plan, rfl, hr.setIntrinsic (hr.index_lt (by simp [ho])) (fun j o' hj => ?_) rfl rfl⟩
    split
    · next heq =>
      subst heq
      cases hi.symm.trans hj
    · exact hj

/-- An object of the plan is made known as an intrinsic one. -/
theorem setIntrinsic_builds_name (ho : (plan.objects o).isSome)
    (hnew : ∀ j, plan.known j ≠ some o) :
    Builds host roomy (setIntrinsic i o : Engine H _) plan fun _ plan' =>
      plan' = plan.name i o ho hnew :=
  .of_run _ _ (fun _ _ => rfl) fun realm hr => by
    refine ⟨_, rfl, hr.setIntrinsic (hr.index_lt ho) (fun j o' hj => ?_) rfl rfl⟩
    simp only [Plan.name] at hj
    split at hj
    · next heq =>
      rw [if_pos heq]
      exact (Option.some.inj hj).symm
    · next hne => rwa [if_neg hne]

/-! ### Properties -/

/-- A request beside the fixtures of an object is carried out. -/
theorem ObjectId.defineOrThrow_gives {realm : Realm H} {object : Object H} {bound : Nat}
    (hl : ¬realm.deeper.AtLimit) (ho : realm.object? o = some object) (hs : object.Shows fixtures)
    (hk : fixtures.allows k) (hd : d.isStorable) :
    Gives 2 bound ((o.defineOrThrow k d).run host bound realm)
      (.ok () (realm.putObject o (object.store k d))) := by
  have hv : d.isValid = true := (Bool.and_eq_true_iff.mp hd).1
  have ho' : realm.deeper.object? o = some object := ho
  have hu := object.unitProperty?_of_allows hk
  have hdefine : Gives 2 bound ((o.defineOwnProperty k d).act (.bounded host bound) realm)
      (.ok true (realm.putObject o (object.store k d))) := by
    rw [← hs.accepts (d := d) hk, ← hs.defined hk hd]
    refine gives_answer_define hv (fun h => hl (Realm.deeper_atLimit h)) fun bound => ?_
    have hordinary : Dispatch.defineOwnProperty o k d (.bounded host bound) realm.deeper
        = Ordinary.defineOwnProperty o k d (.bounded host bound) realm.deeper := by
      cases harray : object.kind.isArray with
      | false => exact Dispatch.defineOwnProperty_of_not_isArray ho' hs.plain hu harray
      | true =>
        rw [Dispatch.defineOwnProperty_of_isArray ho' harray,
          ArrayObject.defineOwnProperty_of_stored (Fixtures.ne_index_of_allows hk)]
        rintro rfl
        have hlength := hs.length harray
        simp [Fixtures.lookup_of_allows hk] at hlength
    rw [hordinary]
    exact Ordinary.defineOwnProperty_gives ho' hs.plain hu hl
  unfold ObjectId.defineOrThrow
  exact hdefine.bindEngine (.of_eq rfl)

theorem ObjectId.defineOrThrow_builds (ho : plan.objects o = some fixtures)
    (hk : fixtures.allows k) (hd : d.isStorable) {fixtures' : Fixtures}
    (h : ∀ object : Object H, object.Shows fixtures → (object.store k d).Shows fixtures') :
    Builds host true (o.defineOrThrow k d : Engine H _) plan fun _ plan' =>
      plan' = plan.set o fixtures' := by
  intro realm hr
  obtain ⟨object, hobject, hs⟩ := hr.shows o fixtures ho
  exact ⟨(), _, fun bound => defineOrThrow_gives (hr.room.mp rfl) hobject hs hk hd, _, rfl,
    hr.putObject hobject (fun p => hr.linked o object p hobject) (h object hs)⟩

/-- Defining a property that may change. -/
theorem ObjectId.store_builds (ho : plan.objects o = some fixtures) (hk : fixtures.allows k)
    (hd : d.isStorable) (hc : d.isConfigurable) :
    Builds host true (o.defineOrThrow k d : Engine H _) plan fun _ plan' => plan' = plan :=
  (o.defineOrThrow_builds ho hk hd fun _ hs => hs.store hk hd hc).mono fun _ _ h =>
    h.trans (Plan.set_self ho)

/-- Defining a property that is kept from now on. -/
theorem ObjectId.settle_builds (ho : plan.objects o = some fixtures) (hk : fixtures.allows k)
    (a : Attributes) (v : Value) :
    Builds host true (o.defineOrThrow k (a.holding v) : Engine H _) plan fun _ plan' =>
      plan' = plan.set o ((k, a) :: fixtures) :=
  o.defineOrThrow_builds ho hk (a.isStorable_holding v) fun _ hs => hs.settle a v

theorem ObjectId.defineConstant_builds {name : String} (ho : plan.objects o = some fixtures)
    (hk : fixtures.allows (.string name)) (v : Value) :
    Builds host true (o.defineConstant name v : Engine H _) plan fun _ plan' =>
      plan' = plan.set o ((.string name, .constant) :: fixtures) :=
  o.settle_builds ho hk .constant v

theorem ObjectId.defineConstant_settle {name : String} (hk : fixtures.allows (.string name))
    (v : Value) :
    Builds host true (o.defineConstant name v : Engine H _) (plan.set o fixtures) fun _ plan' =>
      plan' = plan.set o ((.string name, .constant) :: fixtures) :=
  (o.defineConstant_builds (Plan.objects_set_self ..) hk v).mono fun _ _ heq => by
    rw [heq, Plan.set_set]

/-- Constants that are defined one after the other. -/
theorem ObjectId.defineConstants_builds {xs : List α} (name : α → String) (value : α → Value)
    (hk : fixtures.allowsInTurn .constant (xs.map fun x => .string (name x))) :
    Builds host true (xs.forM fun x => (o.defineConstant (name x) (value x) : Engine H PUnit))
      (plan.set o fixtures) fun _ plan' =>
        plan' = plan.set o (fixtures.settled .constant (xs.map fun x => .string (name x))) :=
  .forM_settle _ _ (fun _ x _ hk => o.defineConstant_settle hk (value x)) hk

theorem ObjectId.defineBuiltin_builds (ho : plan.objects o = some fixtures)
    (hk : fixtures.allows k) (v : Value) :
    Builds host true (o.defineBuiltin k v : Engine H _) plan fun _ plan' => plan' = plan :=
  o.store_builds ho hk rfl rfl

theorem ObjectId.defineTag_builds (ho : plan.objects o = some fixtures)
    (hk : fixtures.allows (.wellKnown .toStringTag)) (tag : String) :
    Builds host true (o.defineTag tag : Engine H _) plan fun _ plan' => plan' = plan :=
  o.store_builds ho hk rfl rfl

/-- Reading a property that an object keeps. -/
theorem ObjectId.getNamed_builds {name : String} (ho : plan.objects o = some fixtures)
    (hk : OrderedMap.lookup (.string name) fixtures = some a) :
    Builds host true (o.getNamed name : Engine H _) plan fun _ plan' => plan' = plan := by
  intro realm hr
  obtain ⟨object, hobject, hs⟩ := hr.shows o fixtures ho
  obtain ⟨v, hv⟩ := hs.fixed _ a hk
  have hown : object.ownProperty? (.string name) = some (a.holding v) := by
    rw [Object.ownProperty?, hv, Option.some_or]
  exact ⟨v, realm, fun bound => ObjectId.getFor_gives_of_isData hobject hs.plain (hr.room.mp rfl)
    hown rfl, plan, rfl, hr⟩

/-- Where prototypes lead to objects, the walk along them finds out whether it meets an object. -/
theorem Realm.exists_reaches_eq {realm : Realm H}
    (h : ∀ o object p, realm.object? o = some object → object.prototype = some p →
      p.index < realm.heap.size) (o : ObjectId) (fuel : Nat) {p : Option ObjectId}
    (hp : ∀ q, p = some q → q.index < realm.heap.size) : ∃ b, realm.reaches o fuel p = .ok b := by
  induction fuel generalizing p with
  | zero => cases p <;> exact ⟨false, rfl⟩
  | succ fuel ih =>
    cases p with
    | none => exact ⟨false, rfl⟩
    | some q =>
      have hlt : q.index < realm.heap.size := hp q rfl
      have hq : realm.object? q = some realm.heap[q.index] := Array.getElem?_eq_getElem hlt
      unfold Realm.reaches
      split
      · exact ⟨true, rfl⟩
      · simp only [hq]
        split
        · exact ⟨false, rfl⟩
        · exact ih fun q' hq' => h q _ q' hq hq'

/-- What setting a prototype does, where the walk along the new one has found out its answer. -/
theorem Ordinary.setPrototypeOf_of_reaches {realm : Realm H} {object : Object H}
    {p : Option ObjectId} {meets : Bool} (ho : realm.object? o = some object)
    (hmeets : realm.reaches o (realm.heap.size + 1) p = .ok meets) (s : Surroundings H) :
    Ordinary.setPrototypeOf o p s realm
      = if object.prototype = p then .ok true realm
        else if object.extensible = false ∨ meets = true then .ok false realm
        else .ok true (realm.putObject o { object with prototype := p }) := by
  unfold Ordinary.setPrototypeOf
  rw [Action.bind_of_ok (getObject_of_some ho)]
  by_cases hproto : object.prototype = p
  · rw [if_pos hproto, if_pos hproto]
    rfl
  rw [if_neg hproto, if_neg hproto]
  by_cases he : object.extensible = true
  · have hseen : realm.seen.reaches o (realm.seen.heap.size + 1) p = .ok meets :=
      (realm.reaches_atDepth ..).trans hmeets
    rw [if_neg (by simp [he]), Action.bind_of_ok (Engine.getRealm_eq s realm), hseen]
    cases meets with
    | true =>
      rw [if_pos (.inr rfl)]
      rfl
    | false =>
      rw [if_neg (by simp [he])]
      exact Action.bind_of_ok (Action.modifyObject_of_some ho)
  · rw [if_pos (by simpa using he), if_pos (.inl (by simpa using he))]
    rfl

/-- Setting a prototype that leads to objects has a result, whether it is replaced or not. -/
theorem Ordinary.exists_setPrototypeOf_eq {realm : Realm H} {object : Object H}
    {p : Option ObjectId} (ho : realm.object? o = some object)
    (h : ∀ o object p, realm.object? o = some object → object.prototype = some p →
      p.index < realm.heap.size) (hp : ∀ q, p = some q → q.index < realm.heap.size) :
    ∃ b prototype, (prototype = object.prototype ∨ prototype = p)
      ∧ ∀ s, Ordinary.setPrototypeOf o p s realm
        = .ok b (realm.putObject o { object with prototype }) := by
  have hsame : realm.putObject o { object with prototype := object.prototype } = realm :=
    Realm.putObject_self ho
  obtain ⟨meets, hmeets⟩ := Realm.exists_reaches_eq h o (realm.heap.size + 1) hp
  have heq := Ordinary.setPrototypeOf_of_reaches ho hmeets
  by_cases hproto : object.prototype = p
  · exact ⟨true, _, .inl rfl, fun s => by rw [heq, if_pos hproto, hsame]⟩
  by_cases hrefused : object.extensible = false ∨ meets = true
  · exact ⟨false, _, .inl rfl, fun s => by rw [heq, if_neg hproto, if_pos hrefused, hsame]⟩
  · exact ⟨true, p, .inr rfl, fun s => by rw [heq, if_neg hproto, if_neg hrefused]⟩

theorem Dispatch.setPrototypeOf_of_isPlain {s : Surroundings H} {realm : Realm H}
    {object : Object H} {p : Option ObjectId} (ho : realm.object? o = some object)
    (hp : object.kind.isPlain) :
    Dispatch.setPrototypeOf o p s realm = Ordinary.setPrototypeOf o p s realm :=
  Action.getKind_bind_of_isPlain ho hp

/-- The prototype of an object is replaced by another object, unless that inherits from it. -/
theorem ObjectId.setPrototypeOf_builds (ho : plan.objects o = some fixtures)
    (hp : (plan.objects p).isSome) :
    Builds host true (o.setPrototypeOf (some p) : Engine H _) plan fun _ plan' => plan' = plan := by
  intro realm hr
  obtain ⟨object, hobject, hs⟩ := hr.shows o fixtures ho
  have hobject' : realm.deeper.object? o = some object := hobject
  have hindex : ∀ q, some p = some q → q.index < realm.heap.size := fun q hq =>
    Option.some.inj hq ▸ hr.index_lt hp
  obtain ⟨b, prototype, hproto, heq⟩ :=
    Ordinary.exists_setPrototypeOf_eq hobject' hr.linked hindex
  refine ⟨b, realm.putObject o { object with prototype }, fun bound => ?_, plan, rfl, ?_⟩
  · have hanswer : Gives 1 bound ((o.setPrototypeOf (some p)).run host bound realm)
        (.ok b (realm.putObject o { object with prototype })) :=
      Gives.answer fun bound => .nested (fun h => hr.room.mp rfl (Realm.deeper_atLimit h))
        (.of_eq ((Dispatch.setPrototypeOf_of_isPlain hobject' hs.plain).trans (heq _)))
    exact hanswer.mono (by decide)
  · have hs' : Object.Shows { object with prototype } fixtures := { hs with }
    rw [← Plan.set_self ho]
    refine hr.putObject hobject (fun q hq => ?_) hs'
    rcases hproto with rfl | rfl
    · exact hr.linked o object q hobject hq
    · exact hindex q hq

/-! ### Functions -/

theorem ObjectId.setFunctionLength_builds (ho : plan.objects o = some fixtures)
    (hk : fixtures.allows lengthKey) (length : Float) :
    Builds host true (o.setFunctionLength length : Engine H _) plan fun _ plan' => plan' = plan :=
  o.store_builds ho hk rfl rfl

theorem ObjectId.setFunctionName_builds (ho : plan.objects o = some fixtures)
    (hk : fixtures.allows (.string "name")) (key : PropertyKey) (word : Option String) :
    Builds host true (o.setFunctionName key word : Engine H _) plan fun _ plan' => plan' = plan :=
  o.store_builds ho hk rfl rfl

/-- A new function keeps none of its properties. -/
theorem builtinFunction_builds (behaviour : Builtin) (length : Nat) (key : PropertyKey)
    (isConstructor : Bool) :
    Builds host true (builtinFunction behaviour length key isConstructor : Engine H _) plan
      (plan.Adds []) := by
  refine .assoc ((newHeir_builds .functionPrototype rfl).bind ?_)
  rintro f _ ⟨hnew, rfl⟩
  refine (f.setFunctionLength_builds (Plan.objects_set_self ..) rfl _).bind ?_
  rintro _ _ rfl
  refine (f.setFunctionName_builds (Plan.objects_set_self ..) rfl _ _).bind ?_
  rintro _ _ rfl
  exact .pure ⟨hnew, rfl⟩

theorem ObjectId.installMethod_builds {entry : MethodEntry} (ho : plan.objects o = some fixtures)
    (hk : fixtures.allows entry.key) :
    Builds host true (o.installMethod entry : Engine H _) plan (plan.Adds []) := by
  refine (builtinFunction_builds _ _ _ _).bind ?_
  rintro f _ ⟨hnew, rfl⟩
  have ho' := (Plan.below_set hnew []).objects o fixtures ho
  refine (o.store_builds ho' hk rfl rfl).bind ?_
  rintro _ _ rfl
  exact .pure ⟨hnew, rfl⟩

theorem ObjectId.installMethods_builds {entries : List MethodEntry}
    (ho : plan.objects o = some fixtures)
    (hk : entries.all fun entry => fixtures.allows entry.key) :
    Builds host true (o.installMethods entries : Engine H _) plan fun _ plan' => plan' = plan := by
  refine .forM_keep fun entry hentry => ?_
  have hk' : fixtures.allows entry.key := List.all_eq_true.mp hk entry hentry
  refine (((o.installMethod_builds ho hk').keep fun _ _ => Plan.Adds.below).bind ?_)
  rintro _ _ rfl
  exact .pure rfl

/-- Methods that an object keeps. -/
theorem ObjectId.installMethods_settle {entries : List MethodEntry}
    (hk : fixtures.allowsInTurn .method (entries.map MethodEntry.key)) :
    Builds host true (o.installMethods entries : Engine H _) (plan.set o fixtures) fun _ plan' =>
      plan' = plan.set o (fixtures.settled .method (entries.map MethodEntry.key)) := by
  refine .forM_settle _ _ (fun fixtures entry _ hk' => ?_) hk
  have hinstall : Builds host true (o.installMethod entry : Engine H _) (plan.set o fixtures)
      fun _ plan' => plan' = plan.set o ((entry.key, .method) :: fixtures) := by
    refine .settling (builtinFunction_builds _ _ _ _) fun f plan' ho => ?_
    exact (o.settle_builds ho hk' .method _).andThen fun _ => .pure rfl
  exact hinstall.andThen fun _ => .pure rfl

theorem ObjectId.installGetter_builds (ho : plan.objects o = some fixtures) (hk : fixtures.allows k)
    (behaviour : Builtin) :
    Builds host true (o.installGetter k behaviour : Engine H _) plan fun _ plan' =>
      plan' = plan := by
  refine Builds.keep ((builtinFunction_builds _ _ _ _).bind (R := fun _ plan' =>
    plan.Below plan') ?_) fun _ _ => id
  rintro getter _ ⟨hnew, rfl⟩
  have hbelow := Plan.below_set hnew []
  refine (getter.setFunctionName_builds (Plan.objects_set_self ..) rfl _ _).bind ?_
  rintro _ _ rfl
  exact (o.store_builds (hbelow.objects o fixtures ho) hk rfl rfl).mono fun _ _ h => h ▸ hbelow

/-- A new constructor keeps its prototype. -/
theorem installConstructor_builds {prototype : ObjectId}
    (ho : plan.objects prototype = some fixtures)
    (hk : fixtures.allows (.string "constructor")) (behaviour : Builtin) (length : Nat)
    (name : String) :
    Builds host true (installConstructor behaviour length name prototype : Engine H _) plan
      (plan.Adds [(.string "prototype", .constant)]) := by
  refine (builtinFunction_builds _ _ _ _).bind ?_
  rintro c _ ⟨hnew, rfl⟩
  refine (c.defineConstant_builds (Plan.objects_set_self ..) rfl _).bind ?_
  rintro _ _ rfl
  rw [Plan.set_set]
  have ho' := (Plan.below_set hnew [(.string "prototype", .constant)]).objects prototype fixtures ho
  refine (prototype.defineBuiltin_builds ho' hk _).bind ?_
  rintro _ _ rfl
  exact .pure ⟨hnew, rfl⟩

end Builds

end ScriptEngine
