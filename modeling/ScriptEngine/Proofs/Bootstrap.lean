import ScriptEngine.Proofs.ContextBalance
import ScriptEngine.Proofs.Installation

/-!
# Making a realm

The contents of a realm are made through the same requests as those of a program, one level deep,
and the methods that answer them ask the object once more, two levels deep. So two levels are enough
for all of them: where the limit on the depth of calls allows these, no limit stands in the way, and
the global object has its properties for good. Where it allows one level only, the length of the
first function cannot be defined. The realm then counts as stopped, and its global object has no
properties.

## Main definitions

* `defaultGlobals`: the names of the global object.
* `Engine.Overflows`: a computation that needs more levels than there are.
* `Realm.Vacant`: a realm without contents.
* `Realm.globalProperty?`: a property of the global object.

## Main results

* `makeGlobal_builds`: the global object keeps its properties.
* `installFunctions_overflows`: no function can be installed where calls may not be nested.
* `bootstrap_completes_or_stops`: what comes of making a realm.
-/

namespace ScriptEngine

open Engine

variable {H : HostTypes}

/-! ### The global object -/

/-- The names of the global object. -/
def defaultGlobals : List String :=
  ["globalThis", "Infinity", "NaN", "undefined"] ++ globalNames.map Prod.fst
    ++ ["isNaN", "isFinite", "parseFloat", "parseInt"]

/-- What the global object keeps. -/
def globalFixtures : Fixtures := Fixtures.settled .constant (defaultGlobals.map .string) []

section Global

variable {host : Host H} {plan : Plan} {o : ObjectId} {fixtures : Fixtures}

/-- The plan with a global object. -/
def Plan.withGlobal (plan : Plan) (o : ObjectId) : Plan := { plan with global := some o }

theorem setGlobalObject_builds :
    Builds host true (adjust fun realm : Realm H => { realm with globalObject := o }) plan
      fun _ plan' => plan' = plan.withGlobal o :=
  .of_run _ (fun realm => { realm with globalObject := o }) (fun _ _ => rfl) fun _ hr =>
    ⟨plan.withGlobal o, rfl,
      { hr with room := hr.room, global := fun _ ho => Option.some.inj ho }⟩

theorem setGlobalEnvironment_builds (scope : EnvironmentId) :
    Builds host true (adjust fun realm : Realm H => { realm with globalEnvironment := scope }) plan
      fun _ plan' => plan' = plan :=
  .of_run _ (fun realm => { realm with globalEnvironment := scope }) (fun _ _ => rfl) fun _ hr =>
    ⟨plan, rfl, { hr with room := hr.room }⟩

theorem newGlobalEnvironment_builds (object thisObject : ObjectId) :
    Builds host true (newGlobalEnvironment object thisObject : Engine H _) plan fun _ plan' =>
      plan' = plan :=
  (newEnvironment_builds _ _).andThen fun _ => newEnvironment_builds _ _

/-- The global functions that read numbers are those of the constructor of numbers. -/
theorem GlobalFunction.installOn_builds {number : ObjectId}
    (hknown : plan.known .number = some number)
    (hnumber : plan.objects number = some numberFixtures) (hne : number ≠ o)
    (hk : fixtures.allowsInTurn .constant
      (["isNaN", "isFinite", "parseFloat", "parseInt"].map .string)) :
    Builds host true (GlobalFunction.installOn o : Engine H _) (plan.set o fixtures) fun _ plan' =>
      plan' = plan.set o (fixtures.settled .constant
        (["isNaN", "isFinite", "parseFloat", "parseInt"].map .string)) := by
  obtain ⟨hNaN, hk⟩ := Bool.and_eq_true_iff.mp hk
  obtain ⟨hFinite, hk⟩ := Bool.and_eq_true_iff.mp hk
  refine Builds.assoc (.andThen (.settling (builtinFunction_builds _ _ _ _) fun f _ ho =>
    o.defineConstant_builds ho hNaN _) fun _ => ?_)
  refine Builds.assoc (.andThen (.settling (builtinFunction_builds _ _ _ _) fun f _ ho =>
    o.defineConstant_builds ho hFinite _) fun _ => ?_)
  refine .intrinsic hknown ?_
  refine .forM_settle _ _ (fun fixtures name hname hk => ?_) hk
  have hnumber' := (Plan.objects_set_of_ne hne plan fixtures).trans hnumber
  have hlookup : OrderedMap.lookup (.string name) numberFixtures = some .method := by
    rcases List.mem_pair.mp hname with rfl | rfl <;> rfl
  exact (number.getNamed_builds hnumber' hlookup).andThen fun v => o.defineConstant_settle hk v

theorem makeGlobal_builds (h : plan.Has functionTable) :
    Builds host true (makeGlobal : Engine H _) plan fun _ plan' =>
      ∃ o, plan'.global = some o ∧ plan'.objects o = some globalFixtures := by
  obtain ⟨number, hknown, hnumber⟩ :=
    h.exists_object (show functionTable .number = some numberFixtures from rfl)
  refine newPlain_builds.bind ?_
  rintro o _ ⟨hnew, rfl⟩
  refine setGlobalObject_builds.andThen fun _ => ?_
  refine (newGlobalEnvironment_builds o o).andThen fun scope => ?_
  refine (setGlobalEnvironment_builds scope).andThen fun _ => ?_
  have hplan : (plan.set o []).withGlobal o = (plan.withGlobal o).set o [] := rfl
  rw [hplan]
  refine (o.defineConstant_settle rfl _).andThen fun _ => ?_
  refine (o.defineConstant_settle rfl _).andThen fun _ => ?_
  refine (o.defineConstant_settle rfl _).andThen fun _ => ?_
  refine (o.defineConstant_settle rfl _).andThen fun _ => ?_
  refine (Builds.forM_settle (fun entry => .string entry.1) .constant
    (fun fixtures entry _ hk => ?_) (by decide)).andThen fun _ => ?_
  · exact (anyIntrinsic_builds entry.2).andThen fun i => o.defineConstant_settle hk (.object i)
  have hknown' : (plan.withGlobal o).known .number = some number := hknown
  refine (GlobalFunction.installOn_builds hknown' hnumber (Plan.ne_of_objects hnumber hnew)
    ?_).mono ?_
  · decide
  rintro _ _ rfl
  exact ⟨o, rfl, Plan.objects_set_self ..⟩

end Global

/-! ### Where calls may not be nested -/

section Overflows

variable {host : Host H} {plan plan' : Plan} {o : ObjectId} {k : PropertyKey} {d : Descriptor}
  {α β γ : Type} {x : Engine H α} {f : α → Engine H β} {g : β → Engine H γ}
  {Q : α → Plan → Prop}

/-- A computation that needs nested calls exceeds the limit where they are not allowed; until then
it only adds to a plan. -/
def Engine.Overflows (host : Host H) (x : Engine H α) (plan : Plan) : Prop :=
  ∀ realm : Realm H, realm.Underway false plan → ∃ after,
    (∀ bound, Gives 2 bound (x.run host bound realm) (.error .overflow after))
      ∧ after.Underway false plan

namespace Engine.Overflows

theorem bind (hx : Overflows host x plan) : Overflows host (x >>= f) plan := by
  intro realm hr
  obtain ⟨after, hgives, hafter⟩ := hx realm hr
  exact ⟨after, fun bound => (hgives bound).bindEngine_error, hafter⟩

theorem after (hx : Builds host false x plan Q)
    (hf : ∀ b plan', Q b plan' → plan.Below plan' ∧ Overflows host (f b) plan') :
    Overflows host (x >>= f) plan := by
  intro realm hr
  obtain ⟨b, middle, hgives, plan', hq, hm⟩ := hx realm hr
  obtain ⟨hbelow, hover⟩ := hf b plan' hq
  obtain ⟨after, hgives', hafter⟩ := hover middle hm
  exact ⟨after, fun bound => (hgives bound).bindEngine (hgives' bound), hafter.below hbelow⟩

theorem assoc (h : Overflows host (x >>= f >>= g) plan) :
    Overflows host (x >>= fun a => f a >>= g) plan := by
  intro realm hr
  obtain ⟨after, hgives, hafter⟩ := h realm hr
  exact ⟨after, fun bound => Engine.run_assoc x f g ▸ hgives bound, hafter⟩

end Engine.Overflows

theorem ObjectId.defineOrThrow_overflows (ho : plan.objects o = some [])
    (hk : Fixtures.allows [] k) (hd : d.isValid) :
    Overflows host (o.defineOrThrow k d : Engine H _) plan := by
  intro realm hr
  obtain ⟨object, hobject, hs⟩ := hr.shows o [] ho
  have hlimit : realm.deeper.AtLimit := by
    by_contra hl
    cases hr.room.mpr hl
  have hnot : object.kind.isArray = false := by
    by_contra harray
    cases hs.length (by simpa using harray)
  have hu := object.unitProperty?_of_allows hk
  exact ⟨realm, fun _ =>
    (ObjectId.defineOwnProperty_gives_of_atLimit hobject hs.plain hu hnot hd
      hlimit).bindEngine_error, hr⟩

/-- No function can be made: its length is a property. -/
theorem builtinFunction_overflows (behaviour : Builtin) (length : Nat) (key : PropertyKey)
    (isConstructor : Bool) :
    Overflows host (builtinFunction behaviour length key isConstructor : Engine H _) plan := by
  refine .assoc (.after (newHeir_builds .functionPrototype rfl) ?_)
  rintro o _ ⟨hnew, rfl⟩
  exact ⟨Plan.below_set hnew [],
    (o.defineOrThrow_overflows (Plan.objects_set_self ..) rfl rfl).bind⟩

/-- The first method of the first prototype cannot be made. -/
theorem installFunctions_overflows : Overflows host (installFunctions : Engine H _) plan := by
  have hinstall (o : ObjectId) (entry : MethodEntry) (entries : List MethodEntry) :
      Overflows host (o.installMethods (entry :: entries) : Engine H _) plan :=
    (builtinFunction_overflows _ _ _ _).bind.bind.bind
  refine Overflows.bind ?_
  refine .after (anyIntrinsic_builds .objectPrototype) fun o plan' heq => ?_
  subst heq
  exact ⟨.refl _, (hinstall o _ _).bind⟩

end Overflows

/-! ### The realm -/

/-- The property of the global object under a name. -/
def Realm.globalProperty? (realm : Realm H) (name : String) : Option Descriptor :=
  (realm.object? realm.globalObject).bind fun object => object.ownProperty? (.string name)

theorem Realm.parked_withRootContext {realm : Realm H} (h : realm.contexts.contexts = []) :
    realm.withRootContext.Parked := by
  refine ⟨false, ?_⟩
  simp [withRootContext, withNewContext, pushContext, marks, ContextStack.marks,
    ContextStack.newContext, ContextStack.push, ContextStack.modifyTop, Context.mark, Context.stop,
    Context.start, h]

/-- The plan of a realm that has the object prototype only, which stands for the global object
until that is made. -/
def Plan.root : Plan where
  objects o := if o = ⟨0⟩ then some [] else none
  known i := if i = .objectPrototype then some ⟨0⟩ else none
  global := some ⟨0⟩
  placed i o h := by
    split at h
    · cases h
      rfl
    · cases h
  distinct i j o h h' := by
    split at h <;> split at h' <;> simp_all

theorem Plan.has_root : Plan.root.Has rootTable := by
  intro i
  by_cases h : i = .objectPrototype
  · subst h
    exact .inl ⟨[], ⟨0⟩, rfl, rfl, rfl⟩
  · exact .inr ⟨Function.update_of_ne h .., if_neg h⟩

/-- The realm with the object prototype. -/
def Realm.rooted (realm : Realm H) : Realm H :=
  { realm with
    heap := #[.ofKind none .ordinary]
    intrinsics := ⟨[(.objectPrototype, ⟨0⟩)]⟩ }

theorem Realm.object?_rooted {realm : Realm H} {o : ObjectId} {object : Object H}
    (h : realm.rooted.object? o = some object) : o = ⟨0⟩ ∧ object = .ofKind none .ordinary := by
  obtain ⟨hlt, hobject⟩ := Array.getElem?_eq_some_iff.mp h
  have hindex : o.index = 0 := Nat.lt_one_iff.mp hlt
  refine ⟨congrArg ObjectId.mk hindex, ?_⟩
  rw [← hobject]
  simp only [rooted, hindex]
  rfl

theorem Realm.get_rooted (realm : Realm H) (i : Intrinsic) :
    realm.rooted.intrinsics.get i = ⟨0⟩ := by
  simp only [rooted, Intrinsics.get, OrderedMap.lookup]
  split
  · rfl
  · rfl

theorem Realm.underway_rooted {realm : Realm H} {roomy : Bool}
    (hroom : roomy = true ↔ ¬realm.deeper.AtLimit) (hrunning : realm.aborted = none)
    (hcontexts : realm.contexts.contexts = []) (hglobal : realm.globalObject = ⟨0⟩) :
    realm.rooted.Underway roomy Plan.root where
  room := hroom
  running := hrunning
  contexts := hcontexts
  linked o object p ho hp := by
    obtain ⟨-, rfl⟩ := object?_rooted ho
    cases hp
  intrinsics i := by
    rw [realm.get_rooted]
    exact Nat.zero_lt_one
  known i o h := by
    rw [realm.get_rooted]
    by_cases hi : i = .objectPrototype
    · exact Option.some.inj ((if_pos hi).symm.trans h)
    · cases (if_neg hi).symm.trans h
  global o h := hglobal.trans (Option.some.inj h)
  shows o fixtures h := by
    by_cases ho : o = ⟨0⟩
    · subst ho
      cases h
      exact ⟨_, rfl, .ofKind none rfl rfl⟩
    · cases (if_neg ho).symm.trans h
  bare _ o object k ho _ := by
    obtain ⟨-, rfl⟩ := object?_rooted ho
    exact PropertyMap.get?_empty k

/-- The contents are made where calls may be nested two deep. -/
theorem makeContents_builds (host : Host H) :
    Builds host true (do makePrototypes; installFunctions; makeGlobal : Engine H _) Plan.root
      fun _ plan' => ∃ o, plan'.global = some o ∧ plan'.objects o = some globalFixtures :=
  (makePrototypes_builds Plan.has_root).bind fun _ _ h =>
    (installFunctions_builds h.has).bind fun _ _ h => makeGlobal_builds h

theorem makeContents_overflows (host : Host H) :
    Overflows host (do makePrototypes; installFunctions; makeGlobal : Engine H _) Plan.root :=
  .after (makePrototypes_builds Plan.has_root) fun _ _ h =>
    ⟨h.below, installFunctions_overflows.bind⟩

theorem Realm.Underway.globalProperty?_eq {realm : Realm H} {plan : Plan} {o : ObjectId}
    (hr : realm.Underway true plan) (ho : plan.global = some o)
    (hglobal : plan.objects o = some globalFixtures) {name : String}
    (hname : name ∈ defaultGlobals) : ∃ v, realm.globalProperty? name = some (.frozen v) := by
  obtain ⟨object, hobject, hs⟩ := hr.shows o globalFixtures hglobal
  have hlookup : OrderedMap.lookup (.string name) globalFixtures = some .constant := by
    have hall : defaultGlobals.all fun name =>
        OrderedMap.lookup (.string name) globalFixtures = some Attributes.constant := by decide
    simpa using List.all_eq_true.mp hall name hname
  obtain ⟨v, hv⟩ := hs.fixed _ _ hlookup
  refine ⟨v, ?_⟩
  rw [globalProperty?, hr.global o ho, hobject, Option.bind_some, Object.ownProperty?, hv]
  rfl

/-- What becomes of an empty realm, by the outcome of making its contents. -/
theorem bootstrap_eq {s : Surroundings H} {realm middle : Realm H} {outcome : Except Failure Unit}
    (hheap : realm.heap = #[]) (hintrinsics : realm.intrinsics = {})
    (h : (attempt do makePrototypes; installFunctions; makeGlobal).act s realm.rooted
      = .ok outcome middle) :
    bootstrap s realm = .ok () (middle.stoppedBy outcome).withRootContext := by
  have hcontents : makeContents.act s realm = .ok outcome middle := by
    rw [← h, Realm.rooted]
    obtain ⟨heap, environments, contexts, intrinsics⟩ := realm
    cases hheap
    cases hintrinsics
    rfl
  exact Action.bind_of_ok hcontents

theorem Realm.atLimit_iff {realm : Realm H} (h : realm.callDepth = 0) :
    realm.deeper.AtLimit ↔ realm.config.maxCallDepth = 1 := by
  simp only [AtLimit, deeper, h]
  omega

/-- A realm without contents. -/
structure Realm.Vacant (realm : Realm H) : Prop where
  heap : realm.heap = #[]
  intrinsics : realm.intrinsics = {}
  contexts : realm.contexts.contexts = []
  global : realm.globalObject = ⟨0⟩
  depth : realm.callDepth = 0
  running : realm.aborted = none

section Bootstrap

variable {realm : Realm H}

/-- Where calls may be nested, a realm gets all its contents. -/
theorem Realm.Vacant.bootstrap_completes (hr : realm.Vacant) (host : Host H)
    (hdepth : realm.config.maxCallDepth ≠ 1) :
    ∃ after : Realm H, (∀ bound, 2 ≤ bound →
        bootstrap (.bounded host bound) realm = .ok () after)
      ∧ after.Parked ∧ after.aborted = none
      ∧ ∀ name ∈ defaultGlobals, ∃ v, after.globalProperty? name = some (.frozen v) := by
  have hroom : ¬realm.deeper.AtLimit := fun h => hdepth ((atLimit_iff hr.depth).mp h)
  have hrooted := underway_rooted (iff_of_true rfl hroom) hr.running hr.contexts hr.global
  obtain ⟨_, middle, hgives, plan, ⟨o, ho, hglobal⟩, hm⟩ :=
    makeContents_builds host _ hrooted
  refine ⟨middle.withRootContext, fun bound hb => ?_, parked_withRootContext hm.contexts,
    hm.running, fun name hname => hm.globalProperty?_eq ho hglobal hname⟩
  have hrun : (attempt do makePrototypes; installFunctions; makeGlobal).act (.bounded host bound)
      realm.rooted = .ok (.ok ()) middle := Engine.attempt_of_ok ((hgives bound).eq_of_le hb)
  exact bootstrap_eq hr.heap hr.intrinsics hrun

/-- Where calls may not be nested, nothing can be defined, and the realm counts as stopped. -/
theorem Realm.Vacant.bootstrap_stops (hr : realm.Vacant) (host : Host H)
    (hdepth : realm.config.maxCallDepth = 1) :
    ∃ after : Realm H, (∀ bound, 2 ≤ bound →
        bootstrap (.bounded host bound) realm = .ok () after)
      ∧ after.Parked ∧ after.aborted = some 0
      ∧ ∀ name ≠ "length", after.globalProperty? name = none := by
  have hlimit : realm.deeper.AtLimit := (atLimit_iff hr.depth).mpr hdepth
  have hrooted := underway_rooted (iff_of_false Bool.false_ne_true (not_not_intro hlimit))
    hr.running hr.contexts hr.global
  obtain ⟨middle, hgives, hm⟩ := makeContents_overflows host _ hrooted
  obtain ⟨object, hobject, -⟩ := hm.shows ⟨0⟩ [] rfl
  have hmade : ∀ f, (middle.stoppedBy (.error f)).contexts.contexts = [] := fun _ => hm.contexts
  refine ⟨(middle.stoppedBy (.error _)).withRootContext, fun bound hb => ?_,
    parked_withRootContext (hmade (.rangeError "Maximum call stack size exceeded")), ?_,
    fun name hname => ?_⟩
  · have hrun : (attempt do makePrototypes; installFunctions; makeGlobal).act
        (.bounded host bound) realm.rooted = .ok (.error _) middle :=
      Engine.attempt_of_failure ((hgives bound).eq_of_le hb)
    exact bootstrap_eq hr.heap hr.intrinsics hrun
  · change some (middle.aborted.getD 0) = some 0
    rw [hm.running]
    rfl
  · change (middle.object? middle.globalObject).bind _ = none
    have hkey : PropertyKey.string name ≠ lengthKey := fun h => hname (PropertyKey.string.inj h)
    rw [hm.global ⟨0⟩ rfl, hobject, Option.bind_some, Object.ownProperty?,
      hm.bare rfl ⟨0⟩ object _ hobject hkey]
    cases object.kind <;> rfl

end Bootstrap

/-- Making a realm stops at nothing: for all limits there is a realm, with its root context alone on
the stack and suspended. It has all its contents, unless calls may not be nested at all: then it
counts as stopped, and its global object has no properties. -/
theorem bootstrap_completes_or_stops (host : Host H) (config : Config) (time : Clock)
    (random : RandomSource) (store : H.Store) :
    ∃ after : Realm H,
      (∀ bound, 2 ≤ bound →
        bootstrap (.bounded host bound) { config, time, random, store } = .ok () after)
      ∧ after.Parked
      ∧ (config.maxCallDepth ≠ 1 → after.aborted = none
        ∧ ∀ name ∈ defaultGlobals, ∃ v, after.globalProperty? name = some (.frozen v))
      ∧ (config.maxCallDepth = 1 → after.aborted = some 0
        ∧ ∀ name ∈ defaultGlobals, after.globalProperty? name = none) := by
  have hr : Realm.Vacant ({ config, time, random, store } : Realm H) :=
    ⟨rfl, rfl, rfl, rfl, rfl, rfl⟩
  by_cases hdepth : config.maxCallDepth = 1
  · obtain ⟨after, hrun, hparked, haborted, hglobal⟩ := hr.bootstrap_stops host hdepth
    refine ⟨after, hrun, hparked, fun h => absurd hdepth h, fun _ => ⟨haborted, ?_⟩⟩
    intro name hname
    have hlength : "length" ∉ defaultGlobals := by decide
    exact hglobal name fun h => hlength (h ▸ hname)
  · obtain ⟨after, hrun, hparked, hcomplete⟩ := hr.bootstrap_completes host hdepth
    exact ⟨after, hrun, hparked, fun _ => hcomplete, fun h => absurd h hdepth⟩

end ScriptEngine
