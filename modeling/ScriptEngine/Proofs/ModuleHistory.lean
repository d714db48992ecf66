import ScriptEngine.Evaluation
import ScriptEngine.Proofs.CodeUnits
import ScriptEngine.Proofs.PlainObject
import ScriptEngine.Proofs.ScopeRecord

/-!
# Modules of the host

A host makes modules with names to export, sets their values, and may cut a module off from its
variables. What a module is at a moment follows from what has happened to it: the names that it was
made with, the values set last, whether it was cut off, and its namespace, which is made when it is
first asked for. The modules of a realm do not get in the way of each other.

## Main definitions

* `ModuleState`, `ModuleChange`, `ModuleHistory.state?`: what has happened to modules, and what they
  are after it.
* `ModuleRequest`, `ModuleHistory.response`: the operations on modules, and what a history says of
  them.
* `Realm.Carries`, `Realm.Hosts`: realms whose modules are as a history tells.
* `ModuleSession`: modules in use, with their history.

## Main results

* `createModule_gives`, `ModuleId.setExport_gives`, `ModuleId.getNamespace_eq`: what the operations
  do.
* `Realm.Hosts.performs`: a realm that is as a history tells does as the history says.
* `ModuleSession.hosts`: the realm of a session is as the history tells.
-/

namespace ScriptEngine

open Engine

variable {H : HostTypes}

/-! ### Histories -/

/-- What a module is: the names that it exports and their values, whether it was cut off from its
variables, and its namespace, if that was made. -/
structure ModuleState where
  names : List String
  values : String → Value := fun _ => .undefined
  detached : Bool := false
  shown? : Option ObjectId := none

/-- The module with the value of an export set. -/
def ModuleState.exporting (state : ModuleState) (name : String) (v : Value) : ModuleState :=
  { state with values := fun name' => if name' = name then v else state.values name' }

/-- Something that happened to a module: it was made, the value of an export was set, it was cut off
from its variables, or its namespace was made. -/
inductive ModuleChange where
  | created (names : List String)
  | exported (name : String) (v : Value)
  | detached
  | shown (ns : ObjectId)

/-- What a module is after a change. -/
def ModuleChange.apply : ModuleChange → Option ModuleState → Option ModuleState
  | created names, _ => some { names }
  | exported name v, state? => state?.map (·.exporting name v)
  | detached, state? => state?.map fun state => { state with detached := true }
  | shown ns, state? => state?.map fun state => { state with shown? := some ns }

/-- What has happened to modules, the latest first. -/
abbrev ModuleHistory := List (ModuleId × ModuleChange)

/-- What a module is after all that has happened to it. -/
def ModuleHistory.state? : ModuleHistory → ModuleId → Option ModuleState
  | [], _ => none
  | (m', change) :: earlier, m =>
    if m = m' then change.apply (state? earlier m) else state? earlier m

/-! ### Operations on modules -/

/-- An operation on modules. -/
inductive ModuleRequest where
  | create (names : List String)
  | setExport (m : ModuleId) (name : String) (v : Value)
  | detach (m : ModuleId)
  | getNamespace (m : ModuleId)

/-- What an operation on modules answers. -/
inductive ModuleAnswer where
  | done
  | module (m : ModuleId)
  | object (o : ObjectId)

/-- What an operation does. -/
def ModuleRequest.perform : ModuleRequest → Engine H ModuleAnswer
  | create names => return .module (← createModule names)
  | setExport m name v => do
    m.setExport name v
    return .done
  | detach m => do
    m.detachEnvironment
    return .done
  | getNamespace m => return .object (← m.getNamespace)

namespace ModuleHistory

/-- The operations of a session are on modules of the session. -/
def Admits (history : ModuleHistory) : ModuleRequest → Prop
  | .create _ => True
  | .setExport m _ _ => (history.state? m).isSome
  | .detach m => (history.state? m).isSome
  | .getNamespace m => (history.state? m).isSome

/-- What setting an export comes to, and what happens. -/
def settingExport (state : ModuleState) (m : ModuleId) (name : String) (v : Value) :
    Except Failure ModuleAnswer × ModuleHistory :=
  if name ∉ state.names then
    (.error (.referenceError ("module does not export '" ++ name ++ "'")), [])
  else if state.detached then
    (.error (.referenceError ("Cannot assign '" ++ name ++ "': module environment is gone")), [])
  else (.ok .done, [(m, .exported name v)])

/-- What an operation comes to, and what happens, by the history alone. A new module and a new
namespace get the next handles. -/
def response (history : ModuleHistory) (nextModule : ModuleId) (nextObject : ObjectId) :
    ModuleRequest → Except Failure ModuleAnswer × ModuleHistory
  | .create names => (.ok (.module nextModule), [(nextModule, .created names)])
  | .setExport m name v =>
    match history.state? m with
    | some state => settingExport state m name v
    | none => (.error (.internal "dangling module handle"), [])
  | .detach m => (.ok .done, [(m, .detached)])
  | .getNamespace m =>
    match (history.state? m).bind (·.shown?) with
    | some ns => (.ok (.object ns), [])
    | none => (.ok (.object nextObject), [(m, .shown nextObject)])

variable {history : ModuleHistory} {m m' : ModuleId} {change : ModuleChange}

theorem state?_cons_self (m : ModuleId) (change : ModuleChange) (history : ModuleHistory) :
    state? ((m, change) :: history) m = change.apply (state? history m) :=
  if_pos rfl

theorem state?_cons_of_ne (h : m ≠ m') (change : ModuleChange) (history : ModuleHistory) :
    state? ((m', change) :: history) m = state? history m :=
  if_neg h

end ModuleHistory

/-! ### Variables of a module -/

/-- The variable of an export. -/
def Binding.exporting (v : Value) : Binding := (Binding.fresh true false false).holding v

/-- The variables with names declared whose values are undefined. -/
def declareExports (names : List String) (bindings : OrderedMap String Slot) :
    OrderedMap String Slot :=
  names.foldl (fun bindings name => bindings.insert name (.direct (.exporting .undefined)))
    bindings

theorem get?_declareExports (names : List String) (bindings : OrderedMap String Slot)
    (name : String) : (declareExports names bindings).get? name
      = if name ∈ names then some (.direct (.exporting .undefined)) else bindings.get? name := by
  induction names generalizing bindings with
  | nil => rfl
  | cons first names ih =>
    rw [declareExports, List.foldl_cons]
    refine (ih _).trans ?_
    rw [OrderedMap.get?_insert]
    by_cases hname : name ∈ names
    · simp [hname]
    · by_cases hfirst : name = first <;> simp [hname, hfirst]

theorem Realm.withBindings_id (realm : Realm H) (e : EnvironmentId) :
    realm.withBindings e id = realm := by
  simp only [withBindings]
  congr 1
  refine Array.ext_getElem? fun i => ?_
  simp only [Array.getElem?_modify]
  split
  · cases realm.environments[i]? <;> rfl
  · rfl

section Create

variable {host : Host H} {bound : Nat} {realm : Realm H} {e : EnvironmentId}
  {environment : Environment}

/-- Names are declared one after the other; one that is given twice is declared anew. -/
theorem forM_declare_gives (names : List String) (he : realm.scope? e = some environment)
    (hk : environment.kind = .module) :
    Gives 1 bound ((names.forM fun name => do
        e.createMutableBinding name false
        e.initializeBinding name .undefined : Engine H PUnit).run host bound realm)
      (.ok () (realm.withBindings e (declareExports names))) := by
  induction names generalizing realm environment with
  | nil =>
    refine .of_eq ?_
    exact congrArg (EStateM.Result.ok ()) (realm.withBindings_id e).symm
  | cons name names ih =>
    have hlexical := Environment.isLexical_of_kind_eq_module hk
    have he' := Realm.scope?_withBinding_self name (.fresh true false false) he
    have hget : (environment.bindings.insert name (.direct (.fresh true false false))).get? name
        = (some (.fresh true false false)).map .direct := by
      rw [OrderedMap.get?_insert, if_pos rfl]
      rfl
    have hinit : Gives 1 bound ((e.initializeBinding name .undefined).run host bound
        (realm.withBinding e name (.fresh true false false)))
        (.ok () ((realm.withBinding e name (.fresh true false false)).withBinding e name
          (.exporting .undefined))) :=
      EnvironmentId.initializeBinding_gives he' hlexical hget .undefined
    rw [Realm.withBinding_withBinding] at hinit
    have hrest := ih (Realm.scope?_withBinding_self name (.exporting .undefined) he) hk
    rw [Realm.withBinding, Realm.withBindings_withBindings] at hrest
    have hfirst : Gives 1 bound ((e.createMutableBinding name false >>= fun _ =>
        e.initializeBinding name .undefined).run host bound realm)
        (.ok () (realm.withBinding e name (.exporting .undefined))) :=
      .bindEngine (.of_eq (EnvironmentId.createMutableBinding_eq he hlexical false)) hinit
    exact hfirst.bindEngine hrest

/-- The realm with a new module. -/
def Realm.withModule (realm : Realm H) (names : List String) : Realm H :=
  let scope : Environment :=
    { outer := some realm.globalEnvironment, bindings := declareExports names {}, kind := .module }
  { realm with
    environments := realm.environments.push scope
    modules := realm.modules.push
      (.ofOwnNames ⟨realm.modules.size⟩ ⟨realm.environments.size⟩ names) }

/-- Changing the variables of the newest scope. -/
theorem Realm.withBindings_push (realm : Realm H) (scope : Environment)
    (f : OrderedMap String Slot → OrderedMap String Slot) :
    ({ realm with environments := realm.environments.push scope } : Realm H).withBindings
      ⟨realm.environments.size⟩ f
      = { realm with
          environments :=
            realm.environments.push { scope with bindings := f scope.bindings } } := by
  simp only [Realm.withBindings]
  congr 1
  refine Array.ext_getElem? fun i => ?_
  simp only [Array.getElem?_modify, Array.getElem?_push]
  by_cases h : i = realm.environments.size
  · simp [h]
  · simp [h, Ne.symm h]

/-- A module is made: its scope is opened, its names are declared, and it is recorded. -/
theorem createModule_gives (names : List String) :
    Gives 1 bound ((createModule names).run host bound realm)
      (.ok ⟨realm.modules.size⟩ (realm.withModule names)) := by
  let scope : Environment := { outer := some realm.globalEnvironment, kind := .module }
  have hscope : ({ realm with environments := realm.environments.push scope } : Realm H).scope?
      ⟨realm.environments.size⟩ = some scope := by
    simp [Realm.scope?]
  have hdeclared : Gives 1 bound ((names.forM fun name => do
        (⟨realm.environments.size⟩ : EnvironmentId).createMutableBinding name false
        (⟨realm.environments.size⟩ : EnvironmentId).initializeBinding name .undefined :
          Engine H PUnit).run host bound
        { realm with environments := realm.environments.push scope }) _ :=
    forM_declare_gives names hscope rfl
  rw [Realm.withBindings_push] at hdeclared
  refine Gives.bindEngine (.of_eq (getRealm_eq _ realm)) ?_
  refine Gives.bindEngine (.of_eq (newEnvironment_eq _ _ _ _)) ?_
  exact hdeclared.bindEngine (.of_eq rfl)

end Create

/-! ### Realms that are as a history tells -/

/-- The namespace object of a module that exports names. -/
def Object.namespaceOf (m : ModuleId) (names : List String) : Object H :=
  .ofKindWith none (.moduleNamespace { module := m, exports := sortNames names })
    (.wellKnown .toStringTag) (.frozen (.string "Module")) false

/-- The record of a module. -/
def ModuleState.record (state : ModuleState) (m : ModuleId) (e : EnvironmentId) : ModuleRecord :=
  { ModuleRecord.ofOwnNames m e state.names with
    environment := if state.detached then none else some e }

/-- The scope of a module, unless it was cut off from it. -/
def Realm.moduleScope? (realm : Realm H) (m : ModuleId) : Option EnvironmentId :=
  realm.modules[m.index]?.bind (·.environment)

/-- The module of a realm is what it is said to be, with its variables in a certain scope. -/
structure Realm.Carries (realm : Realm H) (m : ModuleId) (state : ModuleState)
    (e : EnvironmentId) : Prop where
  record : realm.modules[m.index]? = some (state.record m e)
  current : state.detached = false → ∃ environment, realm.scope? e = some environment
    ∧ environment.kind = .module ∧ ∀ name ∈ state.names,
      environment.bindings.get? name = some (.direct (.exporting (state.values name)))
  cached : realm.namespaces.get? m = state.shown?
  shown : ∀ ns, state.shown? = some ns → realm.object? ns = some (.namespaceOf m state.names)

/-- A realm is as a history tells: its modules are what they became, no two of them share a scope,
and namespaces are kept for modules that exist. -/
structure Realm.Hosts (realm : Realm H) (history : ModuleHistory) : Prop where
  carries : ∀ m state, history.state? m = some state → ∃ e, realm.Carries m state e
  apart : ∀ m m' e, (history.state? m).isSome → (history.state? m').isSome →
    realm.moduleScope? m = some e → realm.moduleScope? m' = some e → m = m'
  cached : ∀ m, (realm.namespaces.get? m).isSome → m.index < realm.modules.size

/-- What code that does not use the modules of a history leaves alone: their records and scopes,
and the namespaces that were made for them. -/
structure Realm.KeepsModule (realm after : Realm H) (m : ModuleId) (state : ModuleState) :
    Prop where
  record : after.modules[m.index]? = realm.modules[m.index]?
  scope : ∀ e, realm.moduleScope? m = some e → after.scope? e = realm.scope? e
  cached : after.namespaces.get? m = realm.namespaces.get? m
  shown : ∀ ns, state.shown? = some ns → after.object? ns = realm.object? ns

section Carries

variable {realm after : Realm H} {m m' : ModuleId} {state : ModuleState} {e : EnvironmentId}
  {history : ModuleHistory}

theorem ModuleId.index_ne (h : m ≠ m') : m.index ≠ m'.index := fun heq => h (by
  cases m
  cases m'
  exact congrArg ModuleId.mk heq)

theorem Realm.Carries.moduleScope?_eq (h : realm.Carries m state e) :
    realm.moduleScope? m = if state.detached then none else some e := by
  rw [moduleScope?, h.record]
  rfl

theorem Realm.Carries.index_lt (h : realm.Carries m state e) : m.index < realm.modules.size :=
  (Array.getElem?_eq_some_iff.mp h.record).1

theorem Realm.KeepsModule.moduleScope?_eq (h : realm.KeepsModule after m state) :
    after.moduleScope? m = realm.moduleScope? m := by
  rw [moduleScope?, h.record]
  rfl

theorem Realm.KeepsModule.carries (hkeep : realm.KeepsModule after m state)
    (h : realm.Carries m state e) : after.Carries m state e where
  record := hkeep.record.trans h.record
  current hd := by
    have hscope : realm.moduleScope? m = some e := by
      rw [h.moduleScope?_eq, hd]
      rfl
    rw [hkeep.scope e hscope]
    exact h.current hd
  cached := hkeep.cached.trans h.cached
  shown ns hns := (hkeep.shown ns hns).trans (h.shown ns hns)

/-- What happens elsewhere leaves the realm as the history tells. -/
theorem Realm.Hosts.keep (h : realm.Hosts history)
    (hkeep : ∀ m state, history.state? m = some state → realm.KeepsModule after m state)
    (hcached : ∀ m, (after.namespaces.get? m).isSome → m.index < after.modules.size) :
    after.Hosts history where
  carries m state hstate := by
    obtain ⟨e, hcarries⟩ := h.carries m state hstate
    exact ⟨e, (hkeep m state hstate).carries hcarries⟩
  apart m m' e hm hm' he he' := by
    obtain ⟨state, hstate⟩ := Option.isSome_iff_exists.mp hm
    obtain ⟨state', hstate'⟩ := Option.isSome_iff_exists.mp hm'
    rw [(hkeep m state hstate).moduleScope?_eq] at he
    rw [(hkeep m' state' hstate').moduleScope?_eq] at he'
    exact h.apart m m' e hm hm' he he'
  cached := hcached

/-- A change of one module that leaves the others alone, and does not give it the scope of one. -/
theorem Realm.Hosts.change (h : realm.Hosts history) {change : ModuleChange}
    (hstate : change.apply (history.state? m) = some state) (hcarries : after.Carries m state e)
    (hkeep : ∀ m' state, m' ≠ m → history.state? m' = some state →
      realm.KeepsModule after m' state)
    (happart : ∀ m', m' ≠ m → (history.state? m').isSome → state.detached = false →
      realm.moduleScope? m' ≠ some e)
    (hcached : ∀ m, (after.namespaces.get? m).isSome → m.index < after.modules.size) :
    after.Hosts ((m, change) :: history) where
  carries m' state' hstate' := by
    by_cases heq : m' = m
    · subst heq
      rw [ModuleHistory.state?_cons_self, hstate] at hstate'
      cases hstate'
      exact ⟨e, hcarries⟩
    · rw [ModuleHistory.state?_cons_of_ne heq] at hstate'
      obtain ⟨e', hcarries'⟩ := h.carries m' state' hstate'
      exact ⟨e', (hkeep m' state' heq hstate').carries hcarries'⟩
  apart m₁ m₂ e' h₁ h₂ he₁ he₂ := by
    have hscope {m'} (hne : m' ≠ m) (hknown : (history.state? m').isSome) :
        after.moduleScope? m' = realm.moduleScope? m' := by
      obtain ⟨state', hstate'⟩ := Option.isSome_iff_exists.mp hknown
      exact (hkeep m' state' hne hstate').moduleScope?_eq
    -- the module that changed shares its scope with no other
    have hdiffer {m'} (hne : m' ≠ m) (hknown : (history.state? m').isSome)
        (he : after.moduleScope? m = some e') : after.moduleScope? m' ≠ some e' := by
      rw [hcarries.moduleScope?_eq] at he
      cases hd : state.detached with
      | true => simp [hd] at he
      | false =>
        obtain rfl : e = e' := by simpa [hd] using he
        rw [hscope hne hknown]
        exact happart m' hne hknown hd
    by_cases heq₁ : m₁ = m
    · by_cases heq₂ : m₂ = m
      · exact heq₁.trans heq₂.symm
      · rw [ModuleHistory.state?_cons_of_ne heq₂] at h₂
        exact absurd he₂ (hdiffer heq₂ h₂ (heq₁ ▸ he₁))
    · rw [ModuleHistory.state?_cons_of_ne heq₁] at h₁
      by_cases heq₂ : m₂ = m
      · exact absurd he₁ (hdiffer heq₁ h₁ (heq₂ ▸ he₂))
      · rw [ModuleHistory.state?_cons_of_ne heq₂] at h₂
        exact h.apart m₁ m₂ e' h₁ h₂ (hscope heq₁ h₁ ▸ he₁) (hscope heq₂ h₂ ▸ he₂)
  cached := hcached

theorem Realm.Hosts.index_lt (h : realm.Hosts history) (hknown : (history.state? m).isSome) :
    m.index < realm.modules.size := by
  obtain ⟨state, hstate⟩ := Option.isSome_iff_exists.mp hknown
  obtain ⟨e, hcarries⟩ := h.carries m state hstate
  exact hcarries.index_lt

/-- The scope of a module is there. -/
theorem Realm.Hosts.scope_lt (h : realm.Hosts history) (hknown : (history.state? m).isSome)
    (he : realm.moduleScope? m = some e) : e.index < realm.environments.size := by
  obtain ⟨state, hstate⟩ := Option.isSome_iff_exists.mp hknown
  obtain ⟨e', hcarries⟩ := h.carries m state hstate
  rw [hcarries.moduleScope?_eq] at he
  cases hd : state.detached with
  | true => simp [hd] at he
  | false =>
    obtain rfl : e' = e := by simpa [hd] using he
    obtain ⟨environment, hscope, -⟩ := hcarries.current hd
    exact Realm.index_lt_of_scope? hscope

/-! ### One operation -/

/-- A new module. -/
theorem Realm.Hosts.created (h : realm.Hosts history) (names : List String) :
    (realm.withModule names).Hosts ((⟨realm.modules.size⟩, .created names) :: history) := by
  let scope : Environment :=
    { outer := some realm.globalEnvironment, bindings := declareExports names {}, kind := .module }
  have hcarries : (realm.withModule names).Carries ⟨realm.modules.size⟩ { names }
      ⟨realm.environments.size⟩ := by
    refine ⟨by simp [Realm.withModule, ModuleState.record, ModuleRecord.ofOwnNames], fun _ => ?_,
      ?_, fun ns hns => nomatch hns⟩
    · refine ⟨scope, by simp [Realm.scope?, Realm.withModule, scope], rfl, fun name hname => ?_⟩
      rw [get?_declareExports, if_pos hname]
    · refine Option.not_isSome_iff_eq_none.mp fun hsome => ?_
      exact Nat.lt_irrefl _ (h.cached _ hsome)
  refine h.change rfl hcarries (fun m' state hne hstate => ?_) (fun m' hne hknown _ he => ?_)
    fun m' hsome => ?_
  · have hknown : (history.state? m').isSome := Option.isSome_iff_exists.mpr ⟨state, hstate⟩
    refine ⟨?_, fun e he => ?_, rfl, fun _ _ => rfl⟩
    · simp [Realm.withModule, Array.getElem?_push, Nat.ne_of_lt (h.index_lt hknown)]
    · simp [Realm.scope?, Realm.withModule, Array.getElem?_push,
        Nat.ne_of_lt (h.scope_lt hknown he)]
  · exact Nat.lt_irrefl _ (h.scope_lt hknown he)
  · rw [Realm.withModule, Array.size_push]
    exact Nat.lt_succ_of_lt (h.cached m' hsome)

/-- The value of an export is set. -/
theorem Realm.Hosts.exported (h : realm.Hosts history) (hstate : history.state? m = some state)
    (hcarries : realm.Carries m state e) (hd : state.detached = false) (name : String) (v : Value) :
    (realm.withBinding e name (.exporting v)).Hosts ((m, .exported name v) :: history) := by
  obtain ⟨environment, hscope, hk, hget⟩ := hcarries.current hd
  have hknown : (history.state? m).isSome := Option.isSome_iff_exists.mpr ⟨state, hstate⟩
  have hmine : realm.moduleScope? m = some e := by
    rw [hcarries.moduleScope?_eq, hd]
    rfl
  have hafter : (realm.withBinding e name (.exporting v)).Carries m (state.exporting name v) e := by
    refine ⟨hcarries.record, fun _ => ?_, hcarries.cached, hcarries.shown⟩
    refine ⟨_, Realm.scope?_withBinding_self name _ hscope, hk, fun name' hname' => ?_⟩
    rw [OrderedMap.get?_insert, ModuleState.exporting]
    by_cases heq : name' = name
    · rw [if_pos heq]
      simp [heq]
    · rw [if_neg heq, hget name' hname']
      simp [heq]
  refine h.change (congrArg _ hstate) hafter (fun m' state' hne hstate' => ?_)
    (fun m' hne hknown' _ he => hne (h.apart m' m e hknown' hknown he hmine)) h.cached
  have hknown' : (history.state? m').isSome := Option.isSome_iff_exists.mpr ⟨state', hstate'⟩
  refine ⟨rfl, fun e' he' => Realm.scope?_withBindings_of_ne fun heq => ?_, rfl, fun _ _ => rfl⟩
  exact hne (h.apart m' m e' hknown' hknown he' (heq ▸ hmine))

/-- The realm with a module cut off from its variables. -/
def Realm.withoutScope (realm : Realm H) (m : ModuleId) : Realm H :=
  { realm with
    modules := realm.modules.modify m.index fun record => { record with environment := none } }

/-- A module is cut off from its variables. -/
theorem Realm.Hosts.detached (h : realm.Hosts history) (hstate : history.state? m = some state)
    (hcarries : realm.Carries m state e) :
    (realm.withoutScope m).Hosts ((m, .detached) :: history) := by
  have hafter : (realm.withoutScope m).Carries m { state with detached := true } e := by
    refine ⟨?_, (fun hd => nomatch hd), hcarries.cached, hcarries.shown⟩
    simp only [Realm.withoutScope, Array.getElem?_modify, if_true, hcarries.record, Option.map_some]
    rfl
  refine h.change (congrArg _ hstate) hafter (fun m' state' hne hstate' => ?_)
    (fun m' hne hknown hd => nomatch hd) fun m' hsome => ?_
  · refine ⟨?_, fun _ _ => rfl, rfl, fun _ _ => rfl⟩
    simp [Realm.withoutScope, Array.getElem?_modify, ModuleId.index_ne hne.symm]
  · rw [Realm.withoutScope, Array.size_modify]
    exact h.cached m' hsome

/-- The realm with a namespace made for a module. -/
def Realm.withNamespace (realm : Realm H) (m : ModuleId) (names : List String) : Realm H :=
  { realm with
    heap := realm.heap.push (.namespaceOf m names)
    namespaces := realm.namespaces.insert m ⟨realm.heap.size⟩ }

/-- The namespace of a module is made. -/
theorem Realm.Hosts.shown (h : realm.Hosts history) (hstate : history.state? m = some state)
    (hcarries : realm.Carries m state e) :
    (realm.withNamespace m state.names).Hosts ((m, .shown ⟨realm.heap.size⟩) :: history) := by
  have hknown : (history.state? m).isSome := Option.isSome_iff_exists.mpr ⟨state, hstate⟩
  have hafter : (realm.withNamespace m state.names).Carries m
      { state with shown? := some ⟨realm.heap.size⟩ } e := by
    refine ⟨hcarries.record, hcarries.current, ?_, fun ns hns => ?_⟩
    · rw [Realm.withNamespace, OrderedMap.get?_insert, if_pos rfl]
    · cases hns
      simp [Realm.object?, Realm.withNamespace]
  refine h.change (congrArg _ hstate) hafter (fun m' state' hne hstate' => ?_)
    (fun m' hne hknown' hd he => ?_) fun m' hsome => ?_
  · refine ⟨rfl, fun _ _ => rfl, ?_, fun ns hns => ?_⟩
    · rw [Realm.withNamespace, OrderedMap.get?_insert, if_neg hne]
    · obtain ⟨e', hcarries'⟩ := h.carries m' state' hstate'
      have hlt := Realm.index_lt_of_object? (hcarries'.shown ns hns)
      simp [Realm.object?, Realm.withNamespace, Array.getElem?_push, Nat.ne_of_lt hlt]
  · have hmine : realm.moduleScope? m = some e := by
      rw [hcarries.moduleScope?_eq]
      simpa using hd
    exact hne (h.apart m' m e hknown' hknown he hmine)
  · rw [Realm.withNamespace, OrderedMap.get?_insert] at hsome
    split at hsome
    · next heq => exact heq ▸ hcarries.index_lt
    · exact h.cached m' hsome

end Carries

section Perform

variable {host : Host H} {bound : Nat} {s : Surroundings H} {realm : Realm H} {m : ModuleId}
  {state : ModuleState} {e : EnvironmentId} {history : ModuleHistory} {name : String}

theorem Engine.getModule_of_some {record : ModuleRecord}
    (h : realm.modules[m.index]? = some record) :
    (getModule m).act s realm = .ok record realm := by
  have hseen : realm.seen.modules[m.index]? = some record := h
  unfold getModule
  rw [Engine.bind_of_ok (getRealm_eq s realm), hseen]
  rfl

theorem ModuleState.exportedNames_record (state : ModuleState) (m : ModuleId) (e : EnvironmentId) :
    (state.record m e).exportedNames = state.names := by
  simp [ModuleState.record, ModuleRecord.exportedNames, ModuleRecord.ofOwnNames,
    Function.comp_def]

/-- An exported name stands for the variable of that name. -/
theorem ModuleState.resolveExport_record (m : ModuleId) (e : EnvironmentId)
    (hname : name ∈ state.names) :
    (state.record m e).resolveExport name = .binding m (.name name) := by
  have hlookup (names : List String) (hname : name ∈ names) :
      OrderedMap.lookup name (names.map fun name => (name, ResolvedExport.binding m (.name name)))
        = some (.binding m (.name name)) := by
    induction names with
    | nil => cases hname
    | cons first names ih =>
      rw [List.map_cons, OrderedMap.lookup]
      split
      · next heq => rw [heq]
      · next hne => exact ih ((List.mem_cons.mp hname).resolve_left hne)
  rw [ModuleRecord.resolveExport]
  exact congrArg (·.getD .null) (hlookup state.names hname)

/-- Setting an export assigns to the name in the scope of the module. -/
theorem ModuleId.setExport_gives_of_record {need : Nat} {v : Value}
    {expected : EStateM.Result Stop (Realm H) Unit}
    (h : realm.modules[m.index]? = some (state.record m e))
    (hset : state.detached = false → name ∈ state.names →
      Gives need bound ((e.setMutableBinding name v true).run host bound realm) expected) :
    Gives need bound ((m.setExport name v).run host bound realm)
      (if name ∉ state.names then
          .error (.failure (.referenceError ("module does not export '" ++ name ++ "'"))) realm
        else if state.detached then
          .error (.failure (.referenceError
            ("Cannot assign '" ++ name ++ "': module environment is gone"))) realm
        else expected) := by
  refine Gives.bindEngine (.of_eq (getModule_of_some h)) ?_
  simp only [state.exportedNames_record, List.contains_eq_mem]
  by_cases hname : name ∈ state.names
  · rw [if_neg (Decidable.not_not.mpr hname)]
    have hscope : (state.record m e).environment = if state.detached then none else some e := rfl
    simp only [hname, decide_true, Bool.not_true, hscope]
    cases hd : state.detached with
    | true => exact .of_eq rfl
    | false => exact hset hd hname
  · rw [if_pos hname]
    simp only [hname, decide_false, Bool.not_false]
    exact .of_eq rfl

/-- What setting an export does. -/
theorem ModuleId.setExport_gives (h : realm.Carries m state e) (name : String) (v : Value) :
    Gives 2 bound ((m.setExport name v).run host bound realm)
      (if name ∉ state.names then
          .error (.failure (.referenceError ("module does not export '" ++ name ++ "'"))) realm
        else if state.detached then
          .error (.failure (.referenceError
            ("Cannot assign '" ++ name ++ "': module environment is gone"))) realm
        else .ok () (realm.withBinding e name (.exporting v))) := by
  refine setExport_gives_of_record h.record fun hd hname => ?_
  obtain ⟨environment, hscope, hk, hget⟩ := h.current hd
  have hb : environment.bindings.get? name
      = (some (Binding.exporting (state.values name))).map .direct :=
    hget name hname
  exact EnvironmentId.setMutableBinding_gives hscope (Environment.isLexical_of_kind_eq_module hk) hb
    v true

/-- The namespace of a module is the one that was made for it, or a new one. -/
theorem ModuleId.getNamespace_eq (h : realm.Carries m state e) :
    m.getNamespace.act s realm
      = match state.shown? with
        | some ns => .ok ns realm
        | none => .ok ⟨realm.heap.size⟩ (realm.withNamespace m state.names) := by
  refine (Engine.bind_of_ok (getRealm_eq s realm)).trans ?_
  have hcached : realm.seen.namespaces.get? m = state.shown? := h.cached
  rw [hcached]
  cases state.shown? with
  | some ns => rfl
  | none =>
    have hnames : (state.record m e).exportedNames.filter (fun name =>
        ((state.record m e).resolveExport name).isBinding) = state.names := by
      rw [state.exportedNames_record, List.filter_eq_self]
      intro name hname
      rw [ModuleState.resolveExport_record m e hname]
      rfl
    refine (Engine.bind_of_ok (getModule_of_some h.record)).trans ?_
    simp only [hnames]
    rfl

/-- A realm that is as a history tells does as the history says: every operation ends with the
answer that the history tells, in a realm that is as the history tells with what has happened. -/
theorem Realm.Hosts.performs (host : Host H) (h : realm.Hosts history) {request : ModuleRequest}
    (ha : history.Admits request) :
    ∃ after, (∀ bound, Gives 2 bound (request.perform.run host bound realm) (after.outcome
        (history.response ⟨realm.modules.size⟩ ⟨realm.heap.size⟩ request).1))
      ∧ after.Hosts ((history.response ⟨realm.modules.size⟩ ⟨realm.heap.size⟩ request).2 ++ history)
      ∧ ((history.response ⟨realm.modules.size⟩ ⟨realm.heap.size⟩ request).2 = []
        → after = realm) := by
  cases request with
  | create names =>
    have hx (bound : Nat) : Gives 1 bound
        ((ModuleRequest.create names).perform.run host bound realm)
        (.ok (.module ⟨realm.modules.size⟩) (realm.withModule names)) :=
      (createModule_gives names).bindEngine (.of_eq rfl)
    exact ⟨_, fun bound => (hx bound).mono (by decide), h.created names, fun hnil => nomatch hnil⟩
  | setExport m name v =>
    obtain ⟨state, hstate⟩ := Option.isSome_iff_exists.mp ha
    obtain ⟨e, hcarries⟩ := h.carries m state hstate
    have hset (bound : Nat) : Gives 2 bound ((m.setExport name v).run host bound realm) _ :=
      ModuleId.setExport_gives hcarries name v
    simp only [ModuleHistory.response, hstate]
    unfold ModuleHistory.settingExport
    by_cases hname : name ∈ state.names
    · rw [if_neg (Decidable.not_not.mpr hname)] at hset ⊢
      cases hd : state.detached with
      | true =>
        rw [hd, if_pos rfl] at hset
        exact ⟨realm, fun bound => (hset bound).bindEngine_error, h, fun _ => rfl⟩
      | false =>
        rw [hd, if_neg Bool.false_ne_true] at hset
        exact ⟨_, fun bound => (hset bound).bindEngine (.of_eq rfl),
          h.exported hstate hcarries hd name v, fun hnil => nomatch hnil⟩
    · rw [if_pos hname] at hset ⊢
      exact ⟨realm, fun bound => (hset bound).bindEngine_error, h, fun _ => rfl⟩
  | detach m =>
    obtain ⟨state, hstate⟩ := Option.isSome_iff_exists.mp ha
    obtain ⟨e, hcarries⟩ := h.carries m state hstate
    have hx (bound : Nat) : Gives 2 bound ((ModuleRequest.detach m).perform.run host bound realm)
        (.ok .done (realm.withoutScope m)) :=
      .of_eq rfl
    exact ⟨_, hx, h.detached hstate hcarries, fun hnil => nomatch hnil⟩
  | getNamespace m =>
    obtain ⟨state, hstate⟩ := Option.isSome_iff_exists.mp ha
    obtain ⟨e, hcarries⟩ := h.carries m state hstate
    have hnamespace (bound : Nat) : m.getNamespace.act (.bounded host bound) realm = _ :=
      ModuleId.getNamespace_eq hcarries
    simp only [ModuleHistory.response, hstate, Option.bind_some]
    cases hshown : state.shown? with
    | some ns =>
      rw [hshown] at hnamespace
      have hx (bound : Nat) : Gives 2 bound
          ((ModuleRequest.getNamespace m).perform.run host bound realm) (.ok (.object ns) realm) :=
        .of_eq (Engine.bind_of_ok (hnamespace bound))
      exact ⟨realm, hx, h, fun _ => rfl⟩
    | none =>
      rw [hshown] at hnamespace
      have hx (bound : Nat) : Gives 2 bound
          ((ModuleRequest.getNamespace m).perform.run host bound realm)
          (.ok (.object ⟨realm.heap.size⟩) (realm.withNamespace m state.names)) :=
        .of_eq (Engine.bind_of_ok (hnamespace bound))
      exact ⟨_, hx, h.shown hstate hcarries, fun hnil => nomatch hnil⟩

end Perform

/-! ### Sessions -/

/-- Modules in use, with what has happened to them. The realm in which a session starts keeps
namespaces for modules that exist only. Between the operations other code may run that leaves these
modules alone. -/
inductive ModuleSession (host : Host H) : Realm H → ModuleHistory → Prop
  | start {realm : Realm H}
    (hcached : ∀ m, (realm.namespaces.get? m).isSome → m.index < realm.modules.size) :
    ModuleSession host realm []
  | perform {realm after : Realm H} {history : ModuleHistory} {request : ModuleRequest}
    {bound : Nat} (h : ModuleSession host realm history) (ha : history.Admits request)
    (he : EndsIn (request.perform.run host bound realm) after) :
    ModuleSession host after
      ((history.response ⟨realm.modules.size⟩ ⟨realm.heap.size⟩ request).2 ++ history)
  | aside {realm after : Realm H} {history : ModuleHistory} (h : ModuleSession host realm history)
    (hkeep : ∀ m state, history.state? m = some state → realm.KeepsModule after m state)
    (hcached : ∀ m, (after.namespaces.get? m).isSome → m.index < after.modules.size) :
    ModuleSession host after history

/-- The realm of a session is as the history tells. -/
theorem ModuleSession.hosts {host : Host H} {realm : Realm H} {history : ModuleHistory}
    (h : ModuleSession host realm history) : realm.Hosts history := by
  induction h with
  | start hcached =>
    exact ⟨(fun _ _ h => nomatch h), (fun _ _ _ h => nomatch h), hcached⟩
  | @perform realm after history request bound h ha he ih =>
    obtain ⟨expected, hx, hhosts, -⟩ := ih.performs host ha
    rw [(hx bound).eq_of_endsIn he] at he
    exact he.realm_eq_of_outcome ▸ hhosts
  | aside h hkeep hcached ih => exact ih.keep hkeep hcached

end ScriptEngine
