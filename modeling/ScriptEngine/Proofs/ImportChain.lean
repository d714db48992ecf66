import Mathlib.Data.Finite.Prod
import ScriptEngine.Proofs.ModuleHistory
import ScriptEngine.Proofs.PrototypeWalk

/-!
# Chains of imports

A name in the scope of a module is a variable or the import of a name that a module exports, and the
exported name may itself be an import by then. Reading it follows the imports one after the other.
Each of them is resolved by itself, without regard to those before it, so that a read ends unless
the imports lead round in a circle.

## Main definitions

* `LinkedModule`, `ModuleTable`: what modules with imports are.
* `ModuleTable.readStep`, `ModuleTable.Reads`: one step of reading a name, and what it comes to.
* `ModuleTable.Circles`: names from which imports lead to a circle.
* `ImportSession`: modules in use, whose names are made imports of each other.

## Main results

* `ModuleTable.Describes.bindingStep_eq`: the scopes of modules are read as the table tells.
* `ImportSession.describes`: the realm of a session is as its table tells.
* `import_read_ends_iff`: which reads end, and with what.
-/

namespace ScriptEngine

open Engine Relation

variable {H : HostTypes}

/-! ### Tables of modules -/

/-- What a name of a module stands for: a variable of its own, or a name that a module exports. -/
inductive ModuleEntry where
  | own (v : Value)
  | imported (m : ModuleId) (name : String)

/-- What a scope holds for a name. -/
def ModuleEntry.slot : ModuleEntry → Slot
  | own v => .direct (.exporting v)
  | imported m name => .imported m name

/-- A module with imports: its scope, the names that it exports, what its names stand for, and
whether it was cut off from its scope. -/
structure LinkedModule where
  scope : EnvironmentId
  names : List String
  entries : String → Option ModuleEntry
  detached : Bool := false

namespace LinkedModule

/-- A new module, whose exports are undefined. -/
def made (scope : EnvironmentId) (names : List String) : LinkedModule :=
  { scope, names
    entries := fun name => if name ∈ names then some (.own .undefined) else none }

/-- The module with a name that stands for something. -/
def binding (module : LinkedModule) (name : String) (entry : ModuleEntry) : LinkedModule :=
  { module with entries := Function.update module.entries name (some entry) }

@[simp] theorem entries_binding (module : LinkedModule) (name : String) (entry : ModuleEntry) :
    (module.binding name entry).entries = Function.update module.entries name (some entry) :=
  rfl

/-- The module with the value of an export set. An export that has become an import keeps its
value, and so does every export of a module that was cut off from its scope. -/
def exporting (module : LinkedModule) (name : String) (v : Value) : LinkedModule :=
  match module.entries name with
  | some (.own _) =>
    if name ∈ module.names ∧ module.detached = false then module.binding name (.own v) else module
  | _ => module

/-- The record of the module. -/
def record (module : LinkedModule) (m : ModuleId) : ModuleRecord :=
  ({ names := module.names, detached := module.detached } : ModuleState).record m module.scope

end LinkedModule

/-- The modules that there are. -/
abbrev ModuleTable := ModuleId → Option LinkedModule

namespace ModuleTable

/-- Where an import leads: to a name in the scope of the module that exports it. -/
def follow (modules : ModuleTable) (m : ModuleId) (name : String) :
    Except Failure (ModuleId × String) :=
  match modules m with
  | none => .error (.internal "dangling module handle")
  | some module =>
    if name ∉ module.names then
      .error (.syntaxError
        ("The requested module does not provide an export named '" ++ name ++ "'"))
    else if module.detached then
      .error (.referenceError ("Cannot access '" ++ name ++ "': module environment is gone"))
    else .ok (m, name)

/-- One step of reading a name of a module: its value, or the name to go on with. -/
def readStep (modules : ModuleTable) (place : ModuleId × String) :
    Except Failure (Round (ModuleId × String) Value) :=
  match (modules place.1).bind (·.entries place.2) with
  | none => .error (.notDefined place.2)
  | some (.own v) => .ok (.finish v)
  | some (.imported m name) => (modules.follow m name).map .again

/-- Reading a name leads on to another name. -/
def Leads (modules : ModuleTable) (place next : ModuleId × String) : Prop :=
  modules.readStep place = .ok (.again next)

/-- Reading a name comes to a circle of names. -/
def Circles (modules : ModuleTable) (place : ModuleId × String) : Prop :=
  ∃ next, ReflTransGen modules.Leads place next ∧ TransGen modules.Leads next next

/-- What reading a name comes to: the value of a variable, or a failure on the way there. -/
inductive Reads (modules : ModuleTable) : ModuleId × String → Except Failure Value → Prop
  | value {place : ModuleId × String} {v : Value} (h : modules.readStep place = .ok (.finish v)) :
    Reads modules place (.ok v)
  | failure {place : ModuleId × String} {f : Failure} (h : modules.readStep place = .error f) :
    Reads modules place (.error f)
  | again {place next : ModuleId × String} {result : Except Failure Value}
    (h : modules.Leads place next) (hnext : Reads modules next result) : Reads modules place result

variable {modules : ModuleTable} {place next : ModuleId × String}

/-- From every name on the way to a circle reading leads on, to a name that is on the way to a
circle again. -/
theorem Circles.exists_leads (h : modules.Circles place) :
    ∃ next, modules.Leads place next ∧ modules.Circles next := by
  obtain ⟨c, hto, hround⟩ := h
  rcases hto.cases_head with rfl | ⟨next, hnext, hrest⟩
  · obtain ⟨next, hnext, hrest⟩ := TransGen.head'_iff.mp hround
    exact ⟨next, hnext, place, hrest, hround⟩
  · exact ⟨next, hnext, c, hrest, hround⟩

/-- Where reading comes to an end, it comes to something. -/
theorem exists_reads (h : Acc (fun next place => modules.Leads place next) place) :
    ∃ result, modules.Reads place result := by
  induction h with
  | intro place _ ih =>
    cases hstep : modules.readStep place with
    | error f => exact ⟨_, .failure hstep⟩
    | ok round =>
      cases round with
      | finish v => exact ⟨_, .value hstep⟩
      | again next =>
        obtain ⟨result, hresult⟩ := ih next hstep
        exact ⟨result, .again hstep hresult⟩

end ModuleTable

/-! ### Realms that are as a table tells -/

/-- The module of a realm is what it is said to be, with its names in its scope. -/
structure Realm.Bears (realm : Realm H) (m : ModuleId) (module : LinkedModule) : Prop where
  record : realm.modules[m.index]? = some (module.record m)
  scope : ∃ environment, realm.scope? module.scope = some environment
    ∧ environment.kind = .module
    ∧ ∀ name, environment.bindings.get? name = (module.entries name).map ModuleEntry.slot

/-- A realm is as a table tells: its modules are what they are said to be, no two of them have one
scope, and only they are imported from. -/
structure ModuleTable.Describes (modules : ModuleTable) (realm : Realm H) : Prop where
  bears : ∀ m module, modules m = some module → realm.Bears m module
  apart : ∀ m m' module module', modules m = some module → modules m' = some module' →
    module.scope = module'.scope → m = m'
  known : ∀ m module name m' name', modules m = some module →
    module.entries name = some (.imported m' name') → (modules m').isSome

/-- What code that does not use a module leaves alone: its record and its scope. -/
structure Realm.KeepsLinked (realm after : Realm H) (m : ModuleId) (e : EnvironmentId) : Prop where
  record : after.modules[m.index]? = realm.modules[m.index]?
  scope : after.scope? e = realm.scope? e

section Describes

variable {host : Host H} {bound : Nat} {s : Surroundings H} {realm after : Realm H}
  {modules : ModuleTable} {m m' : ModuleId} {module : LinkedModule} {name : String}
  {place : ModuleId × String}

theorem Realm.KeepsLinked.bears (hkeep : realm.KeepsLinked after m module.scope)
    (h : realm.Bears m module) : after.Bears m module where
  record := hkeep.record.trans h.record
  scope := by
    rw [hkeep.scope]
    exact h.scope

theorem Realm.Bears.index_lt (h : realm.Bears m module) : m.index < realm.modules.size :=
  (Array.getElem?_eq_some_iff.mp h.record).1

theorem Realm.Bears.scope_lt (h : realm.Bears m module) :
    module.scope.index < realm.environments.size := by
  obtain ⟨environment, hscope, -⟩ := h.scope
  exact Realm.index_lt_of_scope? hscope

/-! ### Reading a name -/

theorem ModuleState.resolveExport_record_of_notMem {state : ModuleState} {e : EnvironmentId}
    (hname : name ∉ state.names) : (state.record m e).resolveExport name = .null := by
  have hlookup : OrderedMap.lookup name
      (state.names.map fun name => (name, ResolvedExport.binding m (.name name))) = none := by
    refine OrderedMap.lookup_eq_none_of_forall_ne fun entry hentry heq => hname ?_
    obtain ⟨name', hname', rfl⟩ := List.mem_map.mp hentry
    exact heq ▸ hname'
  exact congrArg (·.getD .null) hlookup

/-- The scope of a module of a table. -/
def ModuleTable.scopeOf (modules : ModuleTable) (m : ModuleId) : EnvironmentId :=
  (modules m).elim ⟨0⟩ LinkedModule.scope

/-- Where a name of a table is found in a realm. -/
def ModuleTable.locate (modules : ModuleTable) :
    Round (ModuleId × String) Value → Round (EnvironmentId × String × Bool) Value
  | .again (m, name) => .again (modules.scopeOf m, name, true)
  | .finish v => .finish v

/-- An import leads where the table tells. -/
theorem Realm.Bears.followExport_eq (h : realm.Bears m module) (hm : modules m = some module)
    (name : String) : (m.followExport name).act s realm = realm.outcome
      ((modules.follow m name).map fun place => .inl (modules.scopeOf place.1, place.2)) := by
  refine (Engine.bind_of_ok (getModule_of_some h.record)).trans ?_
  unfold ModuleTable.follow
  rw [hm]
  dsimp only
  by_cases hname : name ∈ module.names
  · rw [if_neg (not_not_intro hname), LinkedModule.record,
      ModuleState.resolveExport_record m module.scope hname]
    have hscope : (module.record m).environment
        = if module.detached then none else some module.scope := rfl
    refine (Engine.bind_of_ok (getModule_of_some h.record)).trans ?_
    rw [hscope]
    cases module.detached with
    | true => rfl
    | false =>
      simp only [Bool.false_eq_true, if_false, Except.map, ModuleTable.scopeOf, hm]
      rfl
  · rw [if_pos hname, LinkedModule.record, ModuleState.resolveExport_record_of_notMem hname]
    rfl

/-- The scope of a module is read as the table tells. -/
theorem ModuleTable.Describes.bindingStep_eq (h : modules.Describes realm)
    (hm : modules m = some module) (name : String) (strict : Bool) :
    (EnvironmentId.bindingStep module.scope name strict).act s realm
      = realm.outcome ((modules.readStep (m, name)).map modules.locate) := by
  obtain ⟨environment, hscope, hk, hget⟩ := (h.bears m module hm).scope
  have hlexical := Environment.isLexical_of_kind_eq_module hk
  refine (EnvironmentId.getEnvironment_bind_of_isLexical hscope hlexical).trans ?_
  rw [Environment.fallback?_of_isLexical hlexical, ModuleTable.readStep, hm, Option.bind_some,
    hget name]
  cases hentry : module.entries name with
  | none => rfl
  | some entry =>
    cases entry with
    | own v => rfl
    | imported m' name' =>
      obtain ⟨module', hm'⟩ :=
        Option.isSome_iff_exists.mp (h.known m module name m' name' hm hentry)
      have hfollow := (h.bears m' module' hm').followExport_eq (s := s) hm' name'
      simp only [Option.map_some, ModuleEntry.slot]
      cases hplace : modules.follow m' name' with
      | error f =>
        rw [hplace] at hfollow
        exact Engine.bind_of_error hfollow
      | ok place =>
        rw [hplace] at hfollow
        exact Engine.bind_of_ok hfollow

theorem ModuleTable.exists_module_of_follow (h : modules.follow m name = .ok place) :
    ∃ module, modules place.1 = some module := by
  unfold follow at h
  split at h
  · cases h
  · next module hm =>
    split at h
    · cases h
    · split at h
      · cases h
      · cases h
        exact ⟨module, hm⟩

/-- A name that reading leads on to is one of a module. -/
theorem ModuleTable.Leads.exists_module {next : ModuleId × String}
    (h : modules.Leads place next) : ∃ module, modules next.1 = some module := by
  unfold Leads readStep at h
  split at h
  · cases h
  · cases h
  · next m name _ =>
    cases hfollow : modules.follow m name with
    | error f =>
      rw [hfollow] at h
      cases h
    | ok place =>
      rw [hfollow] at h
      obtain rfl : place = next := Round.again.inj (Except.ok.inj h)
      exact exists_module_of_follow hfollow

/-- One round of reading a name. -/
def EnvironmentId.readRound (place : EnvironmentId × String × Bool) :
    Engine H (Round (EnvironmentId × String × Bool) Value) :=
  place.1.bindingStep place.2.1 place.2.2

/-- A round of reading is a step of the table. -/
theorem ModuleTable.Describes.readRound_eq (h : modules.Describes realm)
    (hm : modules place.1 = some module)
    {outcome : Except Failure (Round (ModuleId × String) Value)}
    (hstep : modules.readStep place = outcome) (strict : Bool) :
    (EnvironmentId.readRound (module.scope, place.2, strict)).act s realm
      = realm.outcome (outcome.map modules.locate) :=
  hstep ▸ h.bindingStep_eq hm place.2 strict

/-- Where reading leads on, the rest is read in the next scope. -/
theorem ModuleTable.Describes.readRound_of_leads (h : modules.Describes realm)
    {next : ModuleId × String} {module' : LinkedModule} (hm : modules place.1 = some module)
    (hm' : modules next.1 = some module') (hleads : modules.Leads place next) (strict : Bool) :
    (EnvironmentId.readRound (module.scope, place.2, strict)).act s realm
      = .ok (.again (module'.scope, next.2, true)) realm := by
  refine (h.readRound_eq hm hleads strict).trans ?_
  simp only [Except.map, locate, scopeOf, hm']
  rfl

/-- What reading a name comes to. -/
theorem ModuleTable.Reads.gives {result : Except Failure Value} (h : modules.Reads place result)
    (hd : modules.Describes realm) (hm : modules place.1 = some module) (strict : Bool) :
    ∃ need, ∀ bound fuel, Gives need (min bound fuel)
      ((loopFor EnvironmentId.readRound fuel (module.scope, place.2, strict)).run host bound realm)
      (realm.outcome result) := by
  induction h generalizing module strict with
  | value h =>
    exact ⟨1, fun bound => Engine.loopFor_gives_finish (.of_eq (hd.readRound_eq hm h strict))⟩
  | failure h =>
    exact ⟨1, fun bound => Engine.loopFor_gives_error (.of_eq (hd.readRound_eq hm h strict))⟩
  | again h _ ih =>
    obtain ⟨module', hm'⟩ := h.exists_module
    obtain ⟨need, hrest⟩ := ih hm' true
    refine ⟨max 0 (need + 1), fun bound => Engine.loopFor_gives_again ?_ (hrest bound)⟩
    exact .of_eq (hd.readRound_of_leads hm hm' h strict)

/-- Reading a name that comes to a circle goes round for ever. -/
theorem ModuleTable.Circles.endless (h : modules.Circles place) (hd : modules.Describes realm)
    (hm : modules place.1 = some module) (strict : Bool) (bound fuel : Nat) :
    (loopFor EnvironmentId.readRound fuel (module.scope, place.2, strict)).run host bound realm
      = .error .exhausted realm := by
  induction fuel generalizing place module strict with
  | zero => rfl
  | succ fuel ih =>
    obtain ⟨next, hnext, hcircles⟩ := h.exists_leads
    obtain ⟨module', hm'⟩ := hnext.exists_module
    exact (Engine.bind_of_ok (hd.readRound_of_leads hm hm' hnext strict)).trans
      (ih hcircles hm' true)

/-- Only the names that scopes hold lead on. -/
theorem ModuleTable.Describes.finite_leads (h : modules.Describes realm) :
    {place | ∃ next, modules.Leads place next}.Finite := by
  have hmodules : (Set.range fun i : Fin realm.modules.size => ModuleId.mk i.val).Finite :=
    Set.finite_range _
  have hnames : {name | name ∈ realm.environments.toList.flatMap fun environment =>
      environment.bindings.entries.map Prod.fst}.Finite := List.finite_toSet _
  refine (hmodules.prod hnames).subset fun ⟨m, name⟩ ⟨next, hnext⟩ => ?_
  have hentry : ∃ module entry, modules m = some module ∧ module.entries name = some entry := by
    unfold ModuleTable.Leads ModuleTable.readStep at hnext
    cases hm : modules m with
    | none => simp [hm] at hnext
    | some module =>
      cases hentry : module.entries name with
      | none => simp [hm, hentry] at hnext
      | some entry => exact ⟨module, entry, rfl, hentry⟩
  obtain ⟨module, entry, hm, hentry⟩ := hentry
  obtain ⟨environment, hscope, -, hget⟩ := (h.bears m module hm).scope
  have hmem := (OrderedMap.get?_eq_some_iff _ _ _).mp ((hget name).trans (congrArg _ hentry))
  refine ⟨⟨⟨m.index, (h.bears m module hm).index_lt⟩, rfl⟩, List.mem_flatMap.mpr
    ⟨environment, Array.mem_toList_iff.mpr (Array.mem_of_getElem? hscope), ?_⟩⟩
  exact List.mem_map.mpr ⟨_, hmem, rfl⟩

/-- Reading comes to an end, unless it comes to a circle. -/
theorem ModuleTable.Describes.acc_of_not_circles (h : modules.Describes realm)
    (hc : ¬modules.Circles place) : Acc (fun next place => modules.Leads place next) place :=
  acc_of_finite h.finite_leads hc

/-! ### One operation -/

/-- A change of one module that leaves the others alone, and does not give it the scope of one. -/
theorem ModuleTable.Describes.change (h : modules.Describes realm) (hbears : after.Bears m module)
    (hkeep : ∀ m' module', m' ≠ m → modules m' = some module' →
      realm.KeepsLinked after m' module'.scope)
    (happart : ∀ m' module', m' ≠ m → modules m' = some module' → module'.scope ≠ module.scope)
    (hknown : ∀ name m' name', module.entries name = some (.imported m' name') →
      (modules m').isSome) :
    ModuleTable.Describes (Function.update modules m (some module)) after where
  bears m' module' hm' := by
    by_cases heq : m' = m
    · subst heq
      rw [Function.update_self] at hm'
      cases hm'
      exact hbears
    · rw [Function.update_of_ne heq] at hm'
      exact (hkeep m' module' heq hm').bears (h.bears m' module' hm')
  apart m₁ m₂ module₁ module₂ h₁ h₂ hscope := by
    by_cases heq₁ : m₁ = m
    · by_cases heq₂ : m₂ = m
      · exact heq₁.trans heq₂.symm
      · subst heq₁
        rw [Function.update_self] at h₁
        rw [Function.update_of_ne heq₂] at h₂
        cases h₁
        exact absurd hscope.symm (happart m₂ module₂ heq₂ h₂)
    · rw [Function.update_of_ne heq₁] at h₁
      by_cases heq₂ : m₂ = m
      · subst heq₂
        rw [Function.update_self] at h₂
        cases h₂
        exact absurd hscope (happart m₁ module₁ heq₁ h₁)
      · rw [Function.update_of_ne heq₂] at h₂
        exact h.apart m₁ m₂ module₁ module₂ h₁ h₂ hscope
  known m₁ module₁ name m' name' h₁ hentry := by
    have hsome : (modules m').isSome := by
      by_cases heq : m₁ = m
      · subst heq
        rw [Function.update_self] at h₁
        cases h₁
        exact hknown name m' name' hentry
      · rw [Function.update_of_ne heq] at h₁
        exact h.known m₁ module₁ name m' name' h₁ hentry
    by_cases heq : m' = m
    · subst heq
      rw [Function.update_self]
      rfl
    · rwa [Function.update_of_ne heq]

/-- A new module. -/
theorem ModuleTable.Describes.created (h : modules.Describes realm) (names : List String) :
    ModuleTable.Describes (Function.update modules ⟨realm.modules.size⟩
      (some (.made ⟨realm.environments.size⟩ names))) (realm.withModule names) := by
  let scope : Environment :=
    { outer := some realm.globalEnvironment, bindings := declareExports names {}, kind := .module }
  have hbears : (realm.withModule names).Bears ⟨realm.modules.size⟩
      (.made ⟨realm.environments.size⟩ names) := by
    refine ⟨by simp [Realm.withModule, LinkedModule.record, LinkedModule.made, ModuleState.record,
      ModuleRecord.ofOwnNames], scope, ?_, rfl, fun name => ?_⟩
    · simp [Realm.scope?, Realm.withModule, LinkedModule.made, scope]
    · simp only [scope, get?_declareExports, LinkedModule.made]
      by_cases hname : name ∈ names
      · rw [if_pos hname, if_pos hname]
        rfl
      · rw [if_neg hname, if_neg hname]
        rfl
  refine h.change hbears (fun m' module' _ hm' => ⟨?_, ?_⟩) (fun m' module' _ hm' heq => ?_)
    fun name m' name' hentry => ?_
  · have hlt := (h.bears m' module' hm').index_lt
    simp [Realm.withModule, Array.getElem?_push, Nat.ne_of_lt hlt]
  · have hlt := (h.bears m' module' hm').scope_lt
    simp [Realm.scope?, Realm.withModule, Array.getElem?_push, Nat.ne_of_lt hlt]
  · have hlt := (h.bears m' module' hm').scope_lt
    rw [heq] at hlt
    exact absurd hlt (Nat.lt_irrefl _)
  · simp only [LinkedModule.made] at hentry
    split at hentry
    · cases hentry
    · cases hentry

/-- The realm with a name of a scope that stands for something. -/
def Realm.withEntry (realm : Realm H) (e : EnvironmentId) (name : String) (entry : ModuleEntry) :
    Realm H :=
  realm.withBindings e (·.insert name entry.slot)

/-- A name of a module comes to stand for something. -/
theorem ModuleTable.Describes.entered (h : modules.Describes realm) (hm : modules m = some module)
    (name : String) {entry : ModuleEntry}
    (hknown : ∀ m' name', entry = .imported m' name' → (modules m').isSome) :
    ModuleTable.Describes (Function.update modules m (some (module.binding name entry)))
      (realm.withEntry module.scope name entry) := by
  have hold := h.bears m module hm
  obtain ⟨environment, hscope, hk, hget⟩ := hold.scope
  have hbears : (realm.withEntry module.scope name entry).Bears m (module.binding name entry) := by
    refine ⟨hold.record, _, Realm.scope?_withBindings_self hscope, hk, fun name' => ?_⟩
    rw [OrderedMap.get?_insert, LinkedModule.entries_binding]
    by_cases heq : name' = name
    · rw [if_pos heq, heq]
      simp
    · rw [if_neg heq, hget name', Function.update_of_ne heq]
  refine h.change hbears (fun m' module' hne hm' => ⟨rfl, ?_⟩) (fun m' module' hne hm' heq => ?_)
    fun name' m' name'' hentry => ?_
  · exact Realm.scope?_withBindings_of_ne fun heq => hne (h.apart m' m module' module hm' hm heq)
  · exact hne (h.apart m' m module' module hm' hm heq)
  · rw [LinkedModule.entries_binding] at hentry
    by_cases heq : name' = name
    · subst heq
      rw [Function.update_self] at hentry
      exact hknown m' name'' (Option.some.inj hentry)
    · rw [Function.update_of_ne heq] at hentry
      exact h.known m module name' m' name'' hm hentry

/-- A module is cut off from its scope. -/
theorem ModuleTable.Describes.cutOff (h : modules.Describes realm) (hm : modules m = some module) :
    ModuleTable.Describes (Function.update modules m (some { module with detached := true }))
      (realm.withoutScope m) := by
  have hold := h.bears m module hm
  have hbears : (realm.withoutScope m).Bears m { module with detached := true } := by
    refine ⟨?_, hold.scope⟩
    simp only [Realm.withoutScope, Array.getElem?_modify, if_true, hold.record, Option.map_some]
    rfl
  refine h.change hbears (fun m' module' hne hm' => ⟨?_, rfl⟩) (fun m' module' hne hm' heq => ?_)
    fun name m' name' hentry => h.known m module name m' name' hm hentry
  · simp [Realm.withoutScope, Array.getElem?_modify, ModuleId.index_ne hne.symm]
  · exact hne (h.apart m' m module' module hm' hm heq)

/-- A name of the scope of a module is made an import. -/
theorem Realm.Bears.createImportBinding_eq (h : realm.Bears m module) (name : String)
    (m' : ModuleId) (exportName : String) :
    (module.scope.createImportBinding name m' exportName).act s realm
      = .ok () (realm.withEntry module.scope name (.imported m' exportName)) := by
  obtain ⟨environment, hscope, hk, -⟩ := h.scope
  refine (Engine.bind_of_ok (getEnvironment_of_some hscope)).trans ?_
  rw [hk]
  exact Engine.modifyBindings_of_some hscope
    (·.insert name (ModuleEntry.imported m' exportName).slot)

/-- What assigning to a name of a module comes to. -/
def LinkedModule.assigned (module : LinkedModule) (realm : Realm H) (name : String) (v : Value) :
    EStateM.Result Stop (Realm H) Unit :=
  match module.entries name with
  | none => .error (.failure (.notDefined name)) realm
  | some (.own _) => .ok () (realm.withEntry module.scope name (.own v))
  | some (.imported ..) => .error (.failure (constantAssignment name)) realm

theorem Realm.Bears.setMutableBinding_gives (h : realm.Bears m module) (name : String) (v : Value) :
    Gives 2 bound ((module.scope.setMutableBinding name v true).run host bound realm)
      (module.assigned realm name v) := by
  obtain ⟨environment, hscope, hk, hget⟩ := h.scope
  have hlexical := Environment.isLexical_of_kind_eq_module hk
  have hb := hget name
  unfold LinkedModule.assigned
  cases hentry : module.entries name with
  | none =>
    have hnone : environment.bindings.get? name = (none : Option Binding).map .direct := by
      rw [hb, hentry]
      rfl
    exact EnvironmentId.setMutableBinding_gives hscope hlexical hnone v true
  | some entry =>
    cases entry with
    | own w =>
      have hown : environment.bindings.get? name = (some (Binding.exporting w)).map .direct := by
        rw [hb, hentry]
        rfl
      exact EnvironmentId.setMutableBinding_gives hscope hlexical hown v true
    | imported m' exportName =>
      have hset : Gives 1 bound ((module.scope.setOwn name v true).run host bound realm)
          (.error (.failure (constantAssignment name)) realm) := by
        refine Gives.bindEngine (.of_eq (getEnvironment_of_some hscope)) ?_
        rw [hb, hentry]
        exact .of_eq rfl
      exact EnvironmentId.loop_gives_own hscope hlexical hset

/-- The value of an export is set, unless the module does not export the name, was cut off from its
scope or imports the name itself. -/
theorem ModuleTable.Describes.exported (h : modules.Describes realm) (hm : modules m = some module)
    (name : String) (v : Value)
    (he : EndsIn ((m.setExport name v).run host bound realm) after) :
    ModuleTable.Describes (Function.update modules m (some (module.exporting name v))) after := by
  have hold := h.bears m module hm
  have hset : Gives 2 bound ((m.setExport name v).run host bound realm) _ :=
    ModuleId.setExport_gives_of_record hold.record fun _ _ => hold.setMutableBinding_gives name v
  rw [hset.eq_of_endsIn he] at he
  -- a failure leaves both the realm and the module as they are
  have hsame (hafter : after = realm) (hmodule : module.exporting name v = module) :
      ModuleTable.Describes (Function.update modules m (some (module.exporting name v))) after := by
    rwa [hafter, hmodule, ← hm, Function.update_eq_self]
  by_cases hopen : name ∈ module.names ∧ module.detached = false
  · rw [if_neg (not_not_intro hopen.1), if_neg (Bool.not_eq_true _ ▸ hopen.2),
      LinkedModule.assigned] at he
    cases hentry : module.entries name with
    | none =>
      rw [hentry] at he
      exact hsame he.realm_eq_of_error.symm (by rw [LinkedModule.exporting, hentry])
    | some entry =>
      rw [hentry] at he
      cases entry with
      | own w =>
        have hmodule : module.exporting name v = module.binding name (.own v) := by
          rw [LinkedModule.exporting, hentry]
          exact if_pos hopen
        rw [hmodule, ← he.realm_eq]
        exact h.entered hm name fun _ _ hown => nomatch hown
      | imported m' exportName =>
        exact hsame he.realm_eq_of_error.symm (by rw [LinkedModule.exporting, hentry])
  · have hmodule : module.exporting name v = module := by
      unfold LinkedModule.exporting
      split
      · exact if_neg hopen
      · rfl
    refine hsame ?_ hmodule
    by_cases hname : name ∈ module.names
    · have hd : module.detached = true := by simpa [hname] using hopen
      rw [if_neg (not_not_intro hname), if_pos hd] at he
      exact he.realm_eq_of_error.symm
    · rw [if_pos hname] at he
      exact he.realm_eq_of_error.symm

end Describes

/-! ### Sessions -/

/-- Modules in use: they are made, the values of their exports are set, and they are cut off from
their scopes. Any name of a module may be made an import of any name of any of these modules, itself
among them. Between the operations other code may run that leaves these modules alone. -/
inductive ImportSession (host : Host H) : Realm H → ModuleTable → Prop
  | start (realm : Realm H) : ImportSession host realm fun _ => none
  | create {realm after : Realm H} {modules : ModuleTable} {bound : Nat} {names : List String}
    (h : ImportSession host realm modules)
    (he : EndsIn ((createModule names).run host bound realm) after) :
    ImportSession host after (Function.update modules ⟨realm.modules.size⟩
      (some (.made ⟨realm.environments.size⟩ names)))
  | createImport {realm after : Realm H} {modules : ModuleTable} {bound : Nat} {m m' : ModuleId}
    {module : LinkedModule} {name exportName : String} (h : ImportSession host realm modules)
    (hm : modules m = some module) (hm' : (modules m').isSome)
    (he : EndsIn ((module.scope.createImportBinding name m' exportName).run host bound realm)
      after) :
    ImportSession host after (Function.update modules m
      (some (module.binding name (.imported m' exportName))))
  | setExport {realm after : Realm H} {modules : ModuleTable} {bound : Nat} {m : ModuleId}
    {module : LinkedModule} {name : String} {v : Value} (h : ImportSession host realm modules)
    (hm : modules m = some module)
    (he : EndsIn ((m.setExport name v).run host bound realm) after) :
    ImportSession host after (Function.update modules m (some (module.exporting name v)))
  | detach {realm after : Realm H} {modules : ModuleTable} {bound : Nat} {m : ModuleId}
    {module : LinkedModule} (h : ImportSession host realm modules) (hm : modules m = some module)
    (he : EndsIn (m.detachEnvironment.run host bound realm) after) :
    ImportSession host after (Function.update modules m (some { module with detached := true }))
  | aside {realm after : Realm H} {modules : ModuleTable} (h : ImportSession host realm modules)
    (hkeep : ∀ m module, modules m = some module → realm.KeepsLinked after m module.scope) :
    ImportSession host after modules

section Session

variable {host : Host H} {realm : Realm H} {modules : ModuleTable} {m : ModuleId}
  {module : LinkedModule}

/-- The realm of a session is as its table tells. -/
theorem ImportSession.describes (h : ImportSession host realm modules) :
    modules.Describes realm := by
  induction h with
  | start realm =>
    exact ⟨(fun _ _ h => nomatch h), (fun _ _ _ _ h => nomatch h), fun _ _ _ _ _ h => nomatch h⟩
  | create _ he ih =>
    rw [(createModule_gives _).eq_of_endsIn he] at he
    exact he.realm_eq ▸ ih.created _
  | @createImport _ _ _ bound m m' module name exportName _ hm hm' he ih =>
    have hrun : (module.scope.createImportBinding name m' exportName).run host bound _ = _ :=
      (ih.bears m module hm).createImportBinding_eq name m' exportName
    rw [hrun] at he
    refine he.realm_eq ▸ ih.entered hm name fun m'' name' heq => ?_
    cases heq
    exact hm'
  | setExport _ hm he ih => exact ih.exported hm _ _ he
  | @detach realm _ _ bound m module _ hm he ih =>
    have hrun : m.detachEnvironment.run host bound realm = .ok () (realm.withoutScope m) := rfl
    rw [hrun] at he
    exact he.realm_eq ▸ ih.cutOff hm
  | aside _ hkeep ih =>
    exact ⟨fun m module hm => (hkeep m module hm).bears (ih.bears m module hm), ih.apart, ih.known⟩

/-- A module can always be made. -/
theorem ImportSession.made (h : ImportSession host realm modules) (names : List String) :
    ImportSession host (realm.withModule names) (Function.update modules ⟨realm.modules.size⟩
      (some (.made ⟨realm.environments.size⟩ names))) :=
  .create h (.inl ⟨_, (createModule_gives names).eq_of_le (Nat.le_refl 1)⟩)

/-- Every name of a module can be made an import of every name. -/
theorem ImportSession.imports (h : ImportSession host realm modules)
    (hm : modules m = some module) (name : String) (m' : ModuleId) (hm' : (modules m').isSome)
    (exportName : String) :
    ImportSession host (realm.withEntry module.scope name (.imported m' exportName))
      (Function.update modules m (some (module.binding name (.imported m' exportName)))) := by
  have hrun : (module.scope.createImportBinding name m' exportName).run host 0 realm = _ :=
    (h.describes.bears m module hm).createImportBinding_eq name m' exportName
  exact .createImport h hm hm' (.inl ⟨_, hrun⟩)

theorem Realm.outcome_inj {α : Type} {result result' : Except Failure α}
    (h : realm.outcome result = realm.outcome result') : result = result' := by
  cases result <;> cases result' <;> cases h <;> rfl

/-- A computation that leaves the realm alone comes to one result at most. -/
theorem Gives.outcome_unique {α : Type} {x : Engine H α} {need need' : Nat}
    {result result' : Except Failure α}
    (h : ∀ bound, Gives need bound (x.run host bound realm) (realm.outcome result))
    (h' : ∀ bound, Gives need' bound (x.run host bound realm) (realm.outcome result')) :
    result = result' :=
  Realm.outcome_inj (((h _).eq_of_le (Nat.le_max_left need need')).symm.trans
    ((h' _).eq_of_le (Nat.le_max_right need need')))

/-- In every session, reading a name of a module ends, and changes nothing, exactly if the imports
do not lead round in a circle from there; otherwise it goes on for ever. It comes to the value of
the variable at the end of the imports, or to a failure on the way there. -/
theorem import_read_ends_iff (h : ImportSession host realm modules) (hm : modules m = some module)
    (name : String) (strict : Bool) :
    ((module.scope.getBindingValue name strict).EndsAt host realm realm
        ↔ ¬modules.Circles (m, name))
      ∧ ((module.scope.getBindingValue name strict).Endless host realm
        ↔ modules.Circles (m, name))
      ∧ ∀ result, modules.Reads (m, name) result ↔ ∃ need, ∀ bound,
        Gives need bound ((module.scope.getBindingValue name strict).run host bound realm)
          (realm.outcome result) := by
  have hd := h.describes
  have hgives {result : Except Failure Value} (hr : modules.Reads (m, name) result) :
      ∃ need, ∀ bound,
        Gives need bound ((module.scope.getBindingValue name strict).run host bound realm)
          (realm.outcome result) := by
    obtain ⟨need, hloop⟩ := hr.gives hd hm strict
    exact ⟨need, fun bound => Engine.loop_gives (hloop bound)⟩
  have hendless (hc : modules.Circles (m, name)) :
      (module.scope.getBindingValue name strict).Endless host realm :=
    fun bound => ⟨realm, hc.endless hd hm strict bound bound⟩
  have hreads (hc : ¬modules.Circles (m, name)) : ∃ result, modules.Reads (m, name) result :=
    ModuleTable.exists_reads (hd.acc_of_not_circles hc)
  have hends (hc : ¬modules.Circles (m, name)) :
      (module.scope.getBindingValue name strict).EndsAt host realm realm := by
    obtain ⟨result, hr⟩ := hreads hc
    obtain ⟨need, hx⟩ := hgives hr
    exact ⟨need, _, realm.endsIn_outcome result, hx⟩
  refine ⟨⟨fun he hc => he.not_endless (hendless hc), hends⟩, ⟨fun he => ?_, hendless⟩,
    fun result => ⟨hgives, fun ⟨need, hx⟩ => ?_⟩⟩
  · by_contra hc
    exact (hends hc).not_endless he
  · have he : (module.scope.getBindingValue name strict).EndsAt host realm realm :=
      ⟨need, _, realm.endsIn_outcome result, hx⟩
    obtain ⟨result', hr⟩ := hreads fun hc => he.not_endless (hendless hc)
    obtain ⟨need', hx'⟩ := hgives hr
    exact Gives.outcome_unique hx' hx ▸ hr

end Session

/-! ### A module that imports its own export -/

/-- Two modules that are made one after the other. The first one exports `x`, imports its own `x`
under that name, and imports what the other one exports. -/
def circularModules : ModuleTable
  | ⟨0⟩ => some (((LinkedModule.made ⟨0⟩ ["x"]).binding "x" (.imported ⟨0⟩ "x")).binding "y"
      (.imported ⟨1⟩ "v"))
  | ⟨1⟩ => some ((LinkedModule.made ⟨1⟩ ["v"]).binding "v" (.own (.nat 7)))
  | _ => none

/-- A realm with these modules. -/
def circularRealm : Realm HostTypes.bare :=
  let empty : Realm HostTypes.bare := { store := () }
  ((((empty.withModule ["x"]).withModule ["v"]).withEntry ⟨1⟩ "v" (.own (.nat 7))).withEntry ⟨0⟩
    "x" (.imported ⟨0⟩ "x")).withEntry ⟨0⟩ "y" (.imported ⟨1⟩ "v")

theorem circularRealm_session : ImportSession Host.bare circularRealm circularModules := by
  have start : ImportSession Host.bare { store := () } fun _ => none := .start _
  have made := (start.made ["x"]).made ["v"]
  have other := made.describes.bears ⟨1⟩ _ rfl
  have valued : ImportSession Host.bare _ _ :=
    .setExport made rfl (.inl ⟨_, (ModuleId.setExport_gives_of_record other.record fun _ _ =>
      other.setMutableBinding_gives "v" (.nat 7)).eq_of_le (Nat.le_refl 2)⟩)
  have circular := valued.imports (m := ⟨0⟩) rfl "x" ⟨0⟩ rfl "x"
  convert circular.imports (m := ⟨0⟩) rfl "y" ⟨1⟩ rfl "v" using 1
  · rfl
  · funext m
    match m with
    | ⟨0⟩ => rfl
    | ⟨1⟩ => rfl
    | ⟨_ + 2⟩ => rfl

theorem circularModules_circles : circularModules.Circles (⟨0⟩, "x") :=
  ⟨_, .refl, .single rfl⟩

theorem circularModules_reads : circularModules.Reads (⟨0⟩, "y") (.ok (.nat 7)) :=
  .again rfl (.value rfl)

/-- Reading `x` goes on for ever; reading `y` gives what the other module exports. -/
theorem import_read_ends_iff_circularRealm :
    ImportSession Host.bare circularRealm circularModules
      ∧ ((⟨0⟩ : EnvironmentId).getBindingValue "x" true).Endless Host.bare circularRealm
      ∧ ∃ need, ((⟨0⟩ : EnvironmentId).getBindingValue "y" true).run Host.bare need circularRealm
        = .ok (.nat 7) circularRealm := by
  have hm : circularModules ⟨0⟩ = some _ := rfl
  obtain ⟨-, hendless, -⟩ := import_read_ends_iff circularRealm_session hm "x" true
  obtain ⟨-, -, hreads⟩ := import_read_ends_iff circularRealm_session hm "y" true
  obtain ⟨need, hgives⟩ := (hreads _).mp circularModules_reads
  exact ⟨circularRealm_session, hendless.mpr circularModules_circles, need,
    (hgives need).eq_of_le (Nat.le_refl need)⟩

end ScriptEngine
