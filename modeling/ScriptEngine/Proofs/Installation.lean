import ScriptEngine.Bootstrap
import ScriptEngine.Proofs.Construction

/-!
# Installing the built-in functions

The prototypes are made first, and then every function, method and constant is put in its place. No
property is defined over one that is there to stay, whatever the order of the parts: each part is
shown to succeed under any plan that has the prototypes it needs. What is known of the intrinsic
objects is kept in a table.

## Main definitions

* `Plan.Has`: the intrinsic objects of a table are known.
* `prototypeTable`, `functionTable`: the prototypes, and all that later parts rely on.

## Main results

* `makePrototypes_builds`: the prototypes are made, however few calls may be nested.
* `installFunctions_builds`: the functions are installed where calls may be nested two deep.
-/

namespace ScriptEngine

open Engine

variable {H : HostTypes}

/-! ### Tables of intrinsic objects -/

namespace Plan

variable {plan plan' : Plan} {table : Intrinsic → Option Fixtures} {i : Intrinsic} {o : ObjectId}
  {fixtures fixtures' : Fixtures}

/-- The intrinsic objects that are known, and what each of them keeps. -/
def Has (plan : Plan) (table : Intrinsic → Option Fixtures) : Prop :=
  ∀ i, (∃ fixtures o, table i = some fixtures ∧ plan.known i = some o
      ∧ plan.objects o = some fixtures)
    ∨ table i = none ∧ plan.known i = none

theorem Has.congr {table' : Intrinsic → Option Fixtures} (h : plan.Has table)
    (heq : ∀ i, table i = table' i) : plan.Has table' :=
  fun i => heq i ▸ h i

theorem Has.exists_object (h : plan.Has table) (hi : table i = some fixtures) :
    ∃ o, plan.known i = some o ∧ plan.objects o = some fixtures := by
  rcases h i with ⟨fixtures', o, hi', hknown, ho⟩ | ⟨hi', -⟩
  · cases hi.symm.trans hi'
    exact ⟨o, hknown, ho⟩
  · cases hi.symm.trans hi'

theorem Has.unknown (h : plan.Has table) (hi : table i = none) : plan.known i = none := by
  rcases h i with ⟨fixtures', o, hi', -⟩ | ⟨-, hknown⟩
  · cases hi.symm.trans hi'
  · exact hknown

theorem Has.objects (h : plan.Has table) (hi : table i = some fixtures)
    (hknown : plan.known i = some o) : plan.objects o = some fixtures := by
  obtain ⟨o', hknown', ho⟩ := h.exists_object hi
  cases hknown.symm.trans hknown'
  exact ho

/-- A new object is none of those that are known. -/
theorem Has.set (h : plan.Has table) (hnew : plan.objects o = none) (fixtures : Fixtures) :
    (plan.set o fixtures).Has table := by
  intro i
  rcases h i with ⟨fixtures', o', hi, hknown, ho⟩ | hnone
  · exact .inl ⟨fixtures', o', hi, hknown, (below_set hnew fixtures).objects o' fixtures' ho⟩
  · exact .inr hnone

/-- Other fixtures for one of the objects that are known. -/
theorem Has.update (h : plan.Has table) (hi : plan.known i = some o) (fixtures : Fixtures) :
    (plan.set o fixtures).Has (Function.update table i (some fixtures)) := by
  intro j
  by_cases heq : j = i
  · subst heq
    exact .inl ⟨fixtures, o, Function.update_self .., hi, objects_set_self ..⟩
  · rw [Function.update_of_ne heq]
    rcases h j with ⟨fixtures', o', hj, hknown, ho'⟩ | hnone
    · have hne : o' ≠ o := fun ho => heq (plan.distinct j i o' hknown (ho ▸ hi))
      exact .inl ⟨fixtures', o', hj, hknown, (objects_set_of_ne hne ..).trans ho'⟩
    · exact .inr hnone

/-- One more object is known. -/
theorem Has.name (h : plan.Has table) (hi : table i = none) (ho : plan.objects o = some fixtures)
    (hplaced : (plan.objects o).isSome) (hnew : ∀ j, plan.known j ≠ some o) :
    (plan.name i o hplaced hnew).Has (Function.update table i (some fixtures)) := by
  intro j
  by_cases heq : j = i
  · subst heq
    exact .inl ⟨fixtures, o, Function.update_self .., if_pos rfl, ho⟩
  · rw [Function.update_of_ne heq]
    have hknown : (plan.name i o hplaced hnew).known j = plan.known j := if_neg heq
    rw [hknown]
    exact h j

theorem Has.below_name (h : plan.Has table) (hi : table i = none)
    (hplaced : (plan.objects o).isSome) (hnew : ∀ j, plan.known j ≠ some o) :
    plan.Below (plan.name i o hplaced hnew) where
  objects _ _ := id
  known j o' hj := by
    have hne : j ≠ i := by
      rintro rfl
      cases (h.unknown hi).symm.trans hj
    exact (if_neg hne).trans hj
  global _ := id

/-- What another plan says is still the case, and the intrinsic objects of a table are known. -/
structure Grows (base : Plan) (table : Intrinsic → Option Fixtures) (plan : Plan) : Prop where
  below : base.Below plan
  has : plan.Has table

end Plan

/-! ### Prototypes -/

section Prototypes

variable {host : Host H} {roomy : Bool} {base plan : Plan} {table : Intrinsic → Option Fixtures}
  {i : Intrinsic} {fixtures : Fixtures} {α : Type}

/-- A new object becomes an intrinsic one. -/
theorem setIntrinsic_builds_grows {o : ObjectId} (h : base.Grows table plan) (hi : table i = none)
    (hnew : plan.objects o = none) :
    Builds host roomy (setIntrinsic i o : Engine H _) (plan.set o fixtures) fun _ plan' =>
      base.Grows (Function.update table i (some fixtures)) plan' ∧ plan'.known i = some o := by
  have ho := Plan.objects_set_self plan o fixtures
  have hfresh : ∀ j, (plan.set o fixtures).known j ≠ some o := fun j hj =>
    have hknown : plan.known j = some o := hj
    Plan.ne_of_known hknown hnew rfl
  have hbelow := h.below.trans (Plan.below_set hnew fixtures)
  have hhas := h.has.set hnew fixtures
  refine (setIntrinsic_builds_name (by rw [ho]; rfl) hfresh).mono ?_
  rintro _ _ rfl
  exact ⟨⟨hbelow.trans (hhas.below_name hi _ _), hhas.name hi ho _ _⟩, if_pos rfl⟩

/-- A computation that goes on with a new intrinsic object. -/
theorem named_bind {x : Engine H ObjectId} {next : ObjectId → Unit → Engine H α}
    {R : α → Plan → Prop} (hx : Builds host roomy x plan (plan.Adds fixtures))
    (h : base.Grows table plan) (hi : table i = none)
    (hnext : ∀ o plan', base.Grows (Function.update table i (some fixtures)) plan' →
      plan'.known i = some o → Builds host roomy (next o ()) plan' R) :
    Builds host roomy (x >>= fun o => setIntrinsic i o >>= next o) plan R := by
  refine hx.bind ?_
  rintro o _ ⟨hnew, rfl⟩
  exact (setIntrinsic_builds_grows h hi hnew).bind fun _ plan' hplan =>
    hnext o plan' hplan.1 hplan.2

theorem makeIntrinsic_builds {name parent : Intrinsic} {kind : ObjectKind H}
    {isNew : kind.isNew = true} (hp : kind.isPlain) (h : base.Grows table plan)
    (hn : table name = none) :
    Builds host roomy (makeIntrinsic name parent kind isNew) plan fun _ plan' =>
      base.Grows (Function.update table name (some [])) plan' := by
  refine .assoc ((newHeir_builds parent hp).bind ?_)
  rintro o _ ⟨hnew, rfl⟩
  exact (setIntrinsic_builds_grows h hn hnew).mono fun _ _ hplan => hplan.1

theorem makeIntrinsic_bind {name parent : Intrinsic} {kind : ObjectKind H}
    {isNew : kind.isNew = true} {next : Unit → Engine H α} {R : α → Plan → Prop}
    (hp : kind.isPlain) (h : base.Grows table plan) (hn : table name = none)
    (hnext : ∀ plan', base.Grows (Function.update table name (some [])) plan' →
      Builds host roomy (next ()) plan' R) :
    Builds host roomy (makeIntrinsic name parent kind isNew >>= next) plan R :=
  (makeIntrinsic_builds hp h hn).bind fun _ => hnext

theorem Object.get?_ofKindWith_of_ne {k k' : PropertyKey} (h : k' ≠ k)
    (prototype : Option ObjectId) (kind : ObjectKind H) (d : Descriptor) :
    (Object.ofKindWith prototype kind k d).properties.get? k' = none :=
  (PropertyMap.get?_insert_of_ne h ..).trans (PropertyMap.get?_empty k')

theorem arrayCreate_builds {root : ObjectId} (hr : (plan.objects root).isSome) :
    Builds host roomy (arrayCreate 0 (some root) : Engine H _) plan
      (plan.Adds [(lengthKey, ⟨true, false⟩)]) := by
  refine Builds.bind (Q := fun p plan' => p = root ∧ plan' = plan) (.pure ⟨rfl, rfl⟩) ?_
  rintro _ _ ⟨rfl, rfl⟩
  exact allocate_builds (fun _ hp => Option.some.inj hp ▸ hr) (.ofKindWith _ rfl ⟨true, false⟩ _)
    fun _ hk => Object.get?_ofKindWith_of_ne hk ..

theorem stringCreate_builds {root : ObjectId} (hr : (plan.objects root).isSome) (s : String) :
    Builds host roomy (stringCreate s (some root) : Engine H _) plan
      (plan.Adds [(lengthKey, .constant)]) :=
  allocate_builds (fun _ hp => Option.some.inj hp ▸ hr) (.ofKindWith _ rfl .constant _)
    fun _ hk => Object.get?_ofKindWith_of_ne hk ..

/-- The table of the object prototype alone. -/
def rootTable : Intrinsic → Option Fixtures :=
  Function.update (fun _ => none) .objectPrototype (some [])

/-- The table of the prototypes. -/
def prototypeTable : Intrinsic → Option Fixtures
  | .objectPrototype => some []
  | .functionPrototype => some []
  | .arrayPrototype => some [(lengthKey, ⟨true, false⟩)]
  | .stringPrototype => some [(lengthKey, .constant)]
  | .numberPrototype => some []
  | .booleanPrototype => some []
  | .symbolPrototype => some []
  | .errorPrototype _ => some []
  | .iteratorPrototype => some []
  | .arrayIteratorPrototype => some []
  | .generatorFunctionPrototype => some []
  | .generatorPrototype => some []
  | .promisePrototype => some []
  | _ => none

/-- The table with the prototypes of more kinds of errors. -/
def withErrorPrototypes (table : Intrinsic → Option Fixtures) (kinds : List ErrorKind) :
    Intrinsic → Option Fixtures :=
  kinds.foldl (fun table kind => Function.update table (.errorPrototype kind) (some [])) table

theorem makeErrorPrototypes_builds {kinds : List ErrorKind} {parent : Intrinsic}
    (hkinds : kinds.Nodup) (h : base.Grows table plan)
    (hn : ∀ kind ∈ kinds, table (.errorPrototype kind) = none) :
    Builds host roomy (kinds.forM fun kind =>
        (makeIntrinsic (.errorPrototype kind) parent .ordinary : Engine H PUnit)) plan
      fun _ plan' => base.Grows (withErrorPrototypes table kinds) plan' := by
  induction kinds generalizing plan table with
  | nil => exact .pure h
  | cons kind kinds ih =>
    obtain ⟨hnot, hrest⟩ := List.nodup_cons.mp hkinds
    refine makeIntrinsic_bind rfl h (hn kind List.mem_cons_self) fun plan' h => ?_
    refine ih hrest h fun kind' hkind' => ?_
    have hne : Intrinsic.errorPrototype kind' ≠ .errorPrototype kind := by
      rintro heq
      cases heq
      exact hnot hkind'
    exact (Function.update_of_ne hne ..).trans (hn kind' (List.mem_cons_of_mem _ hkind'))

/-- The prototypes are made. Objects are put on the heap for that, and no property is defined. -/
theorem makePrototypes_builds (h : plan.Has rootTable) :
    Builds host roomy (makePrototypes : Engine H _) plan fun _ plan' =>
      plan.Grows prototypeTable plan' := by
  obtain ⟨root, hroot, ho⟩ :=
    h.exists_object (show rootTable .objectPrototype = some [] from rfl)
  have hmade : ∀ {table plan'}, plan.Grows table plan' → (plan'.objects root).isSome :=
    fun h => Option.isSome_iff_exists.mpr ⟨[], h.below.objects root [] ho⟩
  have h : plan.Grows rootTable plan := ⟨.refl plan, h⟩
  refine .intrinsic hroot ?_
  refine makeIntrinsic_bind rfl h rfl fun _ h => ?_
  refine named_bind (arrayCreate_builds (hmade h)) h rfl fun _ _ h _ => ?_
  refine named_bind (stringCreate_builds (hmade h) "") h rfl fun _ _ h _ => ?_
  refine makeIntrinsic_bind rfl h rfl fun _ h => ?_
  refine makeIntrinsic_bind rfl h rfl fun _ h => ?_
  refine makeIntrinsic_bind rfl h rfl fun _ h => ?_
  refine makeIntrinsic_bind rfl h rfl fun _ h => ?_
  refine (makeErrorPrototypes_builds (by decide) h (by decide)).bind fun _ _ h => ?_
  refine makeIntrinsic_bind rfl h rfl fun _ h => ?_
  refine makeIntrinsic_bind rfl h rfl fun _ h => ?_
  refine makeIntrinsic_bind rfl h rfl fun _ h => ?_
  refine makeIntrinsic_bind rfl h rfl fun _ h => ?_
  refine (makeIntrinsic_builds rfl h rfl).mono fun _ _ h => ⟨h.below, h.has.congr fun i => ?_⟩
  cases i with
  | errorPrototype kind => cases kind <;> rfl
  | _ => rfl

end Prototypes

/-! ### Functions -/

section Functions

variable {host : Host H} {plan : Plan} {table : Intrinsic → Option Fixtures}

theorem ObjectFunction.install_builds (h : plan.Has table)
    (hp : table .objectPrototype = some []) (hc : table .object = none) :
    Builds host true (ObjectFunction.install : Engine H _) plan fun _ plan' => plan' = plan := by
  obtain ⟨prototype, hknown, ho⟩ := h.exists_object hp
  refine .intrinsic hknown ?_
  refine (prototype.installMethods_builds ho (by decide)).andThen fun _ => ?_
  refine .adding (installConstructor_builds ho rfl _ _ _) fun c _ _ => ?_
  refine (setIntrinsic_builds (Plan.objects_set_self ..) (h.unknown hc)).andThen fun _ => ?_
  exact c.installMethods_builds (Plan.objects_set_self ..) (by decide)

/-- The method that decides about instances is kept by the prototype of functions. -/
theorem FunctionFunction.install_builds (h : plan.Has table)
    (hp : table .functionPrototype = some []) (hc : table .function = none) :
    Builds host true (FunctionFunction.install : Engine H _) plan fun _ plan' =>
      plan'.Has (Function.update table .functionPrototype
        (some [(.wellKnown .hasInstance, .constant)])) := by
  obtain ⟨prototype, hknown, ho⟩ := h.exists_object hp
  refine .intrinsic hknown ?_
  refine (prototype.setFunctionLength_builds ho rfl _).andThen fun _ => ?_
  refine (prototype.setFunctionName_builds ho rfl _ _).andThen fun _ => ?_
  refine (prototype.installMethods_builds ho (by decide)).andThen fun _ => ?_
  refine (builtinFunction_builds _ _ _ _).bind ?_
  rintro f _ ⟨hnew, rfl⟩
  have ho' := (Plan.below_set hnew []).objects prototype [] ho
  refine (prototype.settle_builds ho' rfl .constant _).andThen fun _ => ?_
  have hhas := (h.set hnew []).update hknown [(.wellKnown .hasInstance, .constant)]
  refine .mono (.adding (installConstructor_builds (Plan.objects_set_self ..) rfl _ _ _)
    fun c _ _ => ?_) fun _ _ heq => heq ▸ hhas
  exact setIntrinsic_builds (Plan.objects_set_self ..) (h.unknown hc)

theorem GeneratorFunction.installIterator_builds (h : plan.Has table)
    (hp : table .iteratorPrototype = some []) :
    Builds host true (GeneratorFunction.installIterator : Engine H _) plan fun _ plan' =>
      plan' = plan := by
  obtain ⟨prototype, hknown, ho⟩ := h.exists_object hp
  refine .intrinsic hknown ?_
  refine .adding (prototype.installMethod_builds ho rfl) fun f _ _ => ?_
  exact .pure rfl

theorem ArrayFunction.install_builds (h : plan.Has table)
    (hp : table .arrayPrototype = some [(lengthKey, ⟨true, false⟩)])
    (hi : table .arrayIteratorPrototype = some []) (hv : table .arrayPrototypeValues = none)
    (hc : table .array = none) :
    Builds host true (ArrayFunction.install : Engine H _) plan fun _ plan' => plan' = plan := by
  obtain ⟨prototype, hknown, ho⟩ := h.exists_object hp
  obtain ⟨iterator, hiterator, ho'⟩ := h.exists_object hi
  refine .intrinsic hknown ?_
  refine (prototype.installMethods_builds ho (by decide)).andThen fun _ => ?_
  refine .adding (prototype.installMethod_builds ho rfl) fun f _ hf => ?_
  refine (setIntrinsic_builds (Plan.objects_set_self ..) (h.unknown hv)).andThen fun _ => ?_
  refine (prototype.defineBuiltin_builds (hf.objects _ _ ho) rfl _).andThen fun _ => ?_
  refine .adding (installConstructor_builds (hf.objects _ _ ho) rfl _ _ _) fun c _ hc' => ?_
  refine (setIntrinsic_builds (Plan.objects_set_self (plan.set f []) c _)
    (h.unknown hc)).andThen fun _ => ?_
  refine (c.installMethods_builds (Plan.objects_set_self ..) (by decide)).andThen fun _ => ?_
  refine (c.installGetter_builds (Plan.objects_set_self ..) rfl _).andThen fun _ => ?_
  refine .intrinsic hiterator ?_
  have hiterator' := (hf.trans hc').objects _ _ ho'
  refine .adding (iterator.installMethod_builds hiterator' rfl) fun _ _ hnext => ?_
  exact iterator.defineTag_builds (hnext.objects _ _ hiterator') rfl _

theorem StringFunction.install_builds (h : plan.Has table)
    (hp : table .stringPrototype = some [(lengthKey, .constant)]) (hc : table .string = none) :
    Builds host true (StringFunction.install : Engine H _) plan fun _ plan' => plan' = plan := by
  obtain ⟨prototype, hknown, ho⟩ := h.exists_object hp
  refine .intrinsic hknown ?_
  refine (prototype.installMethods_builds ho (by decide)).andThen fun _ => ?_
  refine .adding (installConstructor_builds ho rfl _ _ _) fun c _ _ => ?_
  refine (setIntrinsic_builds (Plan.objects_set_self ..) (h.unknown hc)).andThen fun _ => ?_
  exact c.installMethods_builds (Plan.objects_set_self ..) (by decide)

/-- What the constructor of numbers keeps. The global object shares some of its functions. -/
def numberFixtures : Fixtures :=
  Fixtures.settled .method (NumberFunction.constructorMethods.map MethodEntry.key)
    (Fixtures.settled .constant
      (NumberFunction.constants.map fun entry => .string entry.1)
      [(.string "prototype", .constant)])

theorem NumberFunction.install_builds (h : plan.Has table)
    (hp : table .numberPrototype = some []) (hc : table .number = none) :
    Builds host true (NumberFunction.install : Engine H _) plan fun _ plan' =>
      plan'.Has (Function.update table .number (some numberFixtures)) := by
  obtain ⟨prototype, hknown, ho⟩ := h.exists_object hp
  refine .intrinsic hknown ?_
  refine (prototype.installMethods_builds ho (by decide)).andThen fun _ => ?_
  refine named_bind (installConstructor_builds ho rfl _ _ _) ⟨.refl plan, h⟩ hc
    fun c plan hgrows hc => ?_
  have hplan := Plan.set_self (hgrows.has.objects (Function.update_self ..) hc)
  rw [← hplan]
  refine (c.defineConstants_builds Prod.fst (fun entry => .number entry.2) (by decide)).andThen
    fun _ => ?_
  refine (c.installMethods_settle (by decide)).mono ?_
  rintro _ _ rfl
  exact (hgrows.has.update hc numberFixtures).congr fun i => by rw [Function.update_idem]

theorem BooleanFunction.install_builds (h : plan.Has table)
    (hp : table .booleanPrototype = some []) (hc : table .boolean = none) :
    Builds host true (BooleanFunction.install : Engine H _) plan fun _ plan' => plan' = plan := by
  obtain ⟨prototype, hknown, ho⟩ := h.exists_object hp
  refine .intrinsic hknown ?_
  refine (prototype.installMethods_builds ho (by decide)).andThen fun _ => ?_
  refine .adding (installConstructor_builds ho rfl _ _ _) fun c _ _ => ?_
  exact setIntrinsic_builds (Plan.objects_set_self ..) (h.unknown hc)

theorem SymbolFunction.install_builds (h : plan.Has table)
    (hp : table .symbolPrototype = some []) (hc : table .symbol = none) :
    Builds host true (SymbolFunction.install : Engine H _) plan fun _ plan' => plan' = plan := by
  obtain ⟨prototype, hknown, ho⟩ := h.exists_object hp
  refine .intrinsic hknown ?_
  refine (prototype.installGetter_builds ho rfl _).andThen fun _ => ?_
  refine (prototype.installMethods_builds ho (by decide)).andThen fun _ => ?_
  refine (prototype.defineTag_builds ho rfl _).andThen fun _ => ?_
  refine .adding (builtinFunction_builds _ _ _ _) fun f _ hf => ?_
  refine (prototype.store_builds (hf.objects _ _ ho) rfl rfl rfl).andThen fun _ => ?_
  refine .adding_settled (installConstructor_builds (hf.objects _ _ ho) rfl _ _ _) fun c _ _ => ?_
  refine (setIntrinsic_builds (Plan.objects_set_self (plan.set f []) c _)
    (h.unknown hc)).andThen fun _ => ?_
  refine (c.installMethods_builds (Plan.objects_set_self ..) (by decide)).andThen fun _ => ?_
  exact (c.defineConstants_builds WellKnownSymbol.name (fun w => .symbol w.symbol)
    (by decide)).mono fun _ _ heq => ⟨_, heq⟩

/-- A constructor of errors. -/
theorem installError_builds {kind : ErrorKind} {methods : List MethodEntry} (h : plan.Has table)
    (hp : table (.errorPrototype kind) = some [])
    (hm : methods.all fun entry => Fixtures.allows [] entry.key) :
    Builds host true (installError kind methods : Engine H _) plan
      (plan.Adds [(.string "prototype", .constant)]) := by
  obtain ⟨prototype, hknown, ho⟩ := h.exists_object hp
  refine .intrinsic hknown ?_
  refine (prototype.defineBuiltin_builds ho rfl _).andThen fun _ => ?_
  refine (prototype.defineBuiltin_builds ho rfl _).andThen fun _ => ?_
  refine (prototype.installMethods_builds ho hm).andThen fun _ => ?_
  exact installConstructor_builds ho rfl _ _ _

theorem installErrors_builds (h : plan.Has table)
    (hp : ∀ kind, table (.errorPrototype kind) = some [])
    (hc : ∀ kind, table (.error kind) = none) :
    Builds host true (installErrors : Engine H _) plan fun _ plan' => plan' = plan := by
  refine .adding (installError_builds h (hp .error) (by decide)) fun general hnew _ => ?_
  refine (setIntrinsic_builds (Plan.objects_set_self ..) (h.unknown (hc _))).andThen fun _ => ?_
  refine .forM_keep fun kind _ => ?_
  have h' := h.set hnew [(.string "prototype", .constant)]
  refine .adding (installError_builds h' (hp kind) (by decide)) fun c _ hbelow => ?_
  have hgeneral := hbelow.objects general _ (Plan.objects_set_self ..)
  refine (c.setPrototypeOf_builds (Plan.objects_set_self ..) (by rw [hgeneral]; rfl)).andThen
    fun _ => ?_
  exact setIntrinsic_builds (Plan.objects_set_self ..) (h'.unknown (hc kind))

theorem GeneratorFunction.install_builds (h : plan.Has table)
    (hf : table .generatorFunctionPrototype = some [])
    (hp : table .generatorPrototype = some []) :
    Builds host true (GeneratorFunction.install : Engine H _) plan fun _ plan' => plan' = plan := by
  obtain ⟨functionPrototype, hfunction, ho'⟩ := h.exists_object hf
  obtain ⟨prototype, hknown, ho⟩ := h.exists_object hp
  refine .intrinsic hfunction ?_
  refine .intrinsic hknown ?_
  refine (functionPrototype.store_builds ho' rfl rfl rfl).andThen fun _ => ?_
  refine (prototype.store_builds ho rfl rfl rfl).andThen fun _ => ?_
  refine (functionPrototype.defineTag_builds ho' rfl _).andThen fun _ => ?_
  refine (prototype.installMethods_builds ho (by decide)).andThen fun _ => ?_
  exact prototype.defineTag_builds ho rfl _

theorem PromiseFunction.install_builds (h : plan.Has table)
    (hp : table .promisePrototype = some []) (hc : table .promise = none) :
    Builds host true (PromiseFunction.install : Engine H _) plan fun _ plan' => plan' = plan := by
  obtain ⟨prototype, hknown, ho⟩ := h.exists_object hp
  refine .intrinsic hknown ?_
  refine (prototype.installMethods_builds ho (by decide)).andThen fun _ => ?_
  refine (prototype.defineTag_builds ho rfl _).andThen fun _ => ?_
  refine .adding (installConstructor_builds ho rfl _ _ _) fun c _ _ => ?_
  refine (setIntrinsic_builds (Plan.objects_set_self ..) (h.unknown hc)).andThen fun _ => ?_
  refine (c.installMethods_builds (Plan.objects_set_self ..) (by decide)).andThen fun _ => ?_
  exact c.installGetter_builds (Plan.objects_set_self ..) rfl _

theorem ProxyFunction.install_builds (h : plan.Has table) (hc : table .proxy = none) :
    Builds host true (ProxyFunction.install : Engine H _) plan fun _ plan' => plan' = plan := by
  refine .adding (builtinFunction_builds _ _ _ _) fun c _ _ => ?_
  refine .adding (c.installMethod_builds (Plan.objects_set_self ..) rfl) fun _ _ hbelow => ?_
  exact setIntrinsic_builds (hbelow.objects c [] (Plan.objects_set_self ..)) (h.unknown hc)

/-- The methods, the tag and the name of an object whose properties are functions. -/
theorem ObjectId.furnish_builds {o : ObjectId} {fixtures : Fixtures} {methods : List MethodEntry}
    {tag : String} {i : Intrinsic} (ho : plan.objects o = some fixtures)
    (hm : methods.all fun entry => fixtures.allows entry.key)
    (ht : fixtures.allows (.wellKnown .toStringTag)) (hi : plan.known i = none) :
    Builds host true (do
        o.installMethods methods
        o.defineTag tag
        setIntrinsic i o : Engine H Unit) plan fun _ plan' => plan' = plan := by
  refine (o.installMethods_builds ho hm).andThen fun _ => ?_
  refine (o.defineTag_builds ho ht tag).andThen fun _ => ?_
  exact setIntrinsic_builds ho hi

theorem ReflectFunction.install_builds (h : plan.Has table) (hc : table .reflect = none) :
    Builds host true (ReflectFunction.install : Engine H _) plan fun _ plan' => plan' = plan :=
  .adding newPlain_builds fun o _ _ =>
    o.furnish_builds (Plan.objects_set_self ..) (by decide) rfl (h.unknown hc)

theorem JsonFunction.install_builds (h : plan.Has table) (hc : table .json = none) :
    Builds host true (JsonFunction.install : Engine H _) plan fun _ plan' => plan' = plan :=
  .adding newPlain_builds fun o _ _ =>
    o.furnish_builds (Plan.objects_set_self ..) (by decide) rfl (h.unknown hc)

theorem MathFunction.install_builds (h : plan.Has table) (hc : table .math = none) :
    Builds host true (MathFunction.install : Engine H _) plan fun _ plan' => plan' = plan := by
  refine .adding_settled newPlain_builds fun o _ _ => ?_
  refine (o.defineConstants_builds Prod.fst (fun entry => .number entry.2) (by decide)).andThen
    fun _ => ?_
  exact (o.furnish_builds (Plan.objects_set_self ..) (by decide) rfl (h.unknown hc)).mono
    fun _ _ heq => ⟨_, heq⟩

theorem GlobalFunction.install_builds (h : plan.Has table) (hc : table .eval = none) :
    Builds host true (GlobalFunction.install : Engine H _) plan fun _ plan' => plan' = plan :=
  .adding (builtinFunction_builds _ _ _ _) fun _ _ _ =>
    setIntrinsic_builds (Plan.objects_set_self ..) (h.unknown hc)

/-- The table when all functions are installed. -/
def functionTable : Intrinsic → Option Fixtures :=
  Function.update
    (Function.update prototypeTable .functionPrototype
      (some [(.wellKnown .hasInstance, .constant)]))
    .number (some numberFixtures)

theorem installFunctions_builds (h : plan.Has prototypeTable) :
    Builds host true (installFunctions : Engine H _) plan fun _ plan' =>
      plan'.Has functionTable := by
  refine (ObjectFunction.install_builds h rfl rfl).andThen fun _ => ?_
  refine (FunctionFunction.install_builds h rfl rfl).bind fun _ plan h => ?_
  refine (GeneratorFunction.installIterator_builds h rfl).andThen fun _ => ?_
  refine (ArrayFunction.install_builds h rfl rfl rfl rfl).andThen fun _ => ?_
  refine (StringFunction.install_builds h rfl rfl).andThen fun _ => ?_
  refine (NumberFunction.install_builds h rfl rfl).bind fun _ plan h => ?_
  refine (BooleanFunction.install_builds h rfl rfl).andThen fun _ => ?_
  refine (SymbolFunction.install_builds h rfl rfl).andThen fun _ => ?_
  refine (installErrors_builds h (fun _ => rfl) fun _ => rfl).andThen fun _ => ?_
  refine (GeneratorFunction.install_builds h rfl rfl).andThen fun _ => ?_
  refine (PromiseFunction.install_builds h rfl rfl).andThen fun _ => ?_
  refine (ProxyFunction.install_builds h rfl).andThen fun _ => ?_
  refine (ReflectFunction.install_builds h rfl).andThen fun _ => ?_
  refine (JsonFunction.install_builds h rfl).andThen fun _ => ?_
  refine (MathFunction.install_builds h rfl).andThen fun _ => ?_
  exact (GlobalFunction.install_builds h rfl).mono fun _ _ heq => heq ▸ h

end Functions

end ScriptEngine
