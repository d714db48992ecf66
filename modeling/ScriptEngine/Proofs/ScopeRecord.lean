import ScriptEngine.Proofs.Outcome
import ScriptEngine.Scope.Reference

/-!
# Scopes that hold their names themselves

The scopes of blocks, functions and modules keep all their names as variables of their own; object
and global scopes hand names on to an object. What the operations on names do to a scope of the
first sort is read off its variables: no code runs, and no other scope takes part.

## Main definitions

* `EnvironmentKind.isLexical`: the kinds of scopes that hold their names themselves.
* `Realm.scope?`, `Realm.withBindings`: a scope, and the realm with the variables of one changed.
* `Binding.reading`, `Binding.initializing`, `Binding.assigning`: what reading a variable, setting
  its first value and assigning to it come to.

## Main results

* `EnvironmentId.hasBinding_gives`, `EnvironmentId.getBindingValue_gives`: asking for names.
* `EnvironmentId.createMutableBinding_eq`, `EnvironmentId.initializeBinding_gives`,
  `EnvironmentId.setMutableBinding_gives`, `EnvironmentId.deleteBinding_eq`: changing them.
-/

namespace ScriptEngine

open Engine

variable {H : HostTypes}

/-! ### Scopes -/

/-- Whether the scopes of a kind hold their names themselves. -/
def EnvironmentKind.isLexical : EnvironmentKind → Bool
  | declarative => true
  | function _ => true
  | module => true
  | object .. => false
  | global _ => false

/-- The scope of a module holds its names itself. -/
theorem Environment.isLexical_of_kind_eq_module {environment : Environment}
    (hk : environment.kind = .module) : environment.kind.isLexical := by
  rw [hk]
  rfl

namespace Realm

/-- The scope of a handle. -/
def scope? (realm : Realm H) (e : EnvironmentId) : Option Environment :=
  realm.environments[e.index]?

/-- The realm with the variables of a scope changed. -/
def withBindings (realm : Realm H) (e : EnvironmentId)
    (f : OrderedMap String Slot → OrderedMap String Slot) : Realm H :=
  { realm with
    environments := realm.environments.modify e.index fun environment =>
      { environment with bindings := f environment.bindings } }

variable {realm : Realm H} {e e' : EnvironmentId} {environment : Environment}
  {f : OrderedMap String Slot → OrderedMap String Slot}

theorem index_lt_of_scope? (h : realm.scope? e = some environment) :
    e.index < realm.environments.size :=
  (Array.getElem?_eq_some_iff.mp h).1

theorem scope?_withBindings_self (h : realm.scope? e = some environment) :
    (realm.withBindings e f).scope? e
      = some { environment with bindings := f environment.bindings } := by
  rw [scope?] at h
  simp only [scope?, withBindings, Array.getElem?_modify, if_true, h, Option.map_some]

theorem withBindings_withBindings (realm : Realm H) (e : EnvironmentId)
    (f g : OrderedMap String Slot → OrderedMap String Slot) :
    (realm.withBindings e f).withBindings e g = realm.withBindings e (g ∘ f) := by
  simp only [withBindings]
  congr 1
  refine Array.ext_getElem? fun i => ?_
  simp only [Array.getElem?_modify]
  split
  · cases realm.environments[i]? <;> rfl
  · rfl

theorem scope?_withBindings_of_ne (h : e' ≠ e) :
    (realm.withBindings e f).scope? e' = realm.scope? e' := by
  have hne : e.index ≠ e'.index := fun heq => h (by cases e; cases e'; simp_all)
  simp only [scope?, withBindings, Array.getElem?_modify, if_neg hne]

end Realm

section Run

variable {s : Surroundings H} {realm : Realm H} {e : EnvironmentId} {environment : Environment}

theorem Engine.getEnvironment_of_some (h : realm.scope? e = some environment) :
    (getEnvironment e).act s realm = .ok environment realm := by
  have hseen : realm.seen.environments[e.index]? = some environment := h
  unfold getEnvironment
  rw [Engine.bind_of_ok (getRealm_eq s realm), hseen]
  rfl

theorem Engine.modifyBindings_of_some (h : realm.scope? e = some environment)
    (f : OrderedMap String Slot → OrderedMap String Slot) :
    (modifyEnvironment e fun environment =>
      { environment with bindings := f environment.bindings }).act s realm
        = .ok () (realm.withBindings e f) := by
  have hlt : e.index < realm.seen.environments.size := Realm.index_lt_of_scope? h
  unfold modifyEnvironment
  rw [Engine.bind_of_ok (getRealm_eq s realm), if_pos hlt]
  rfl

/-- A new scope has no names. -/
theorem Engine.newEnvironment_eq (s : Surroundings H) (realm : Realm H)
    (outer : Option EnvironmentId) (kind : EnvironmentKind) :
    (newEnvironment outer kind).act s realm
      = .ok ⟨realm.environments.size⟩
        { realm with environments := realm.environments.push { outer, kind } } :=
  rfl

end Run

/-- A scope that holds its names itself has none behind it. -/
theorem Environment.fallback?_of_isLexical {environment : Environment}
    (hk : environment.kind.isLexical) (name : String) : environment.fallback? name = none := by
  unfold fallback?
  split
  · next scope heq => simp [heq, EnvironmentKind.isLexical] at hk
  · rfl

/-! ### Variables -/

/-- The outcome of a computation that ends in a realm. -/
def Realm.outcome {α : Type} (realm : Realm H) :
    Except Failure α → EStateM.Result Stop (Realm H) α
  | .ok a => .ok a realm
  | .error f => .error (.failure f) realm

theorem Realm.endsIn_outcome {α : Type} (realm : Realm H) (answer : Except Failure α) :
    EndsIn (realm.outcome answer) realm := by
  cases answer with
  | ok a => exact .inl ⟨a, rfl⟩
  | error f => exact .inr ⟨f, rfl⟩

theorem EndsIn.realm_eq_of_outcome {α : Type} {after middle : Realm H} {answer : Except Failure α}
    (h : EndsIn (middle.outcome answer) after) : middle = after := by
  cases answer with
  | ok a => exact h.realm_eq
  | error f => exact h.realm_eq_of_error

namespace Binding

/-- A variable that has no value yet. -/
def fresh (mutable strict deletable : Bool) : Binding :=
  { value := none, mutable, strict, deletable }

/-- The variable with a value. -/
def holding (b : Binding) (v : Value) : Binding := { b with value := some v }

/-- What reading a name comes to: there is no variable, it is not initialized, or it has a value. -/
def reading (name : String) : Option Binding → Except Failure Value
  | none => .error (.notDefined name)
  | some b => b.value.elim (.error (uninitialized name)) .ok

/-- What initializing a name comes to. -/
def initializing (name : String) (v : Value) : Option Binding → Except Failure Binding
  | none => .error (.internal ("initializing missing binding '" ++ name ++ "'"))
  | some b => .ok (b.holding v)

/-- What an assignment to a name comes to: a failure, a variable with the value, or nothing for a
constant that is not strict in sloppy code. In sloppy code a missing variable is created. -/
def assigning (name : String) (v : Value) (strict : Bool) :
    Option Binding → Except Failure (Option Binding)
  | none =>
    if strict then .error (.notDefined name) else .ok (some ((fresh true false true).holding v))
  | some b =>
    if b.value.isNone then .error (uninitialized name)
    else if b.mutable then .ok (some (b.holding v))
    else if strict || b.strict then .error (constantAssignment name)
    else .ok none

/-- Whether deleting a name succeeds: it is missing, or may be deleted. -/
def deletes : Option Binding → Bool
  | none => true
  | some b => b.deletable

end Binding

/-- Storing a variable in a scope. -/
def Realm.withBinding (realm : Realm H) (e : EnvironmentId) (name : String) (b : Binding) :
    Realm H :=
  realm.withBindings e (·.insert name (.direct b))

theorem Realm.withBinding_withBinding (realm : Realm H) (e : EnvironmentId) (name : String)
    (b b' : Binding) :
    (realm.withBinding e name b).withBinding e name b' = realm.withBinding e name b' := by
  rw [withBinding, withBinding, withBindings_withBindings]
  exact congrArg _ (funext fun m => m.insert_insert name _ _)

theorem Realm.scope?_withBinding_self {realm : Realm H} {e : EnvironmentId}
    {environment : Environment} (name : String) (b : Binding)
    (h : realm.scope? e = some environment) :
    (realm.withBinding e name b).scope? e
      = some { environment with bindings := environment.bindings.insert name (.direct b) } :=
  Realm.scope?_withBindings_self h

namespace EnvironmentId

/-! ### Operations on names -/

section Operations

variable {host : Host H} {bound : Nat} {s : Surroundings H} {realm : Realm H} {e : EnvironmentId}
  {environment : Environment} {name : String} {b? : Option Binding}

/-- What an operation does to a scope that holds its names itself. -/
theorem getEnvironment_bind_of_isLexical {α : Type} {onObject : ObjectId → Bool → Engine H α}
    {otherwise : Environment → Engine H α} (he : realm.scope? e = some environment)
    (hk : environment.kind.isLexical) :
    (getEnvironment e >>= fun environment =>
      match environment.kind with
      | .object target isWith => onObject target isWith
      | _ => otherwise environment).act s realm = (otherwise environment).act s realm := by
  rw [Engine.bind_of_ok (getEnvironment_of_some he)]
  split
  · next target isWith heq => simp [heq, EnvironmentKind.isLexical] at hk
  · rfl

/-- The scope has a name exactly if it is one of its variables. -/
theorem hasBinding_gives (he : realm.scope? e = some environment)
    (hk : environment.kind.isLexical) (name : String) :
    Gives 1 bound ((e.hasBinding name).run host bound realm)
      (.ok (environment.binds name) realm) := by
  refine Engine.loop_gives_finish (.of_eq ?_)
  refine (getEnvironment_bind_of_isLexical he hk).trans ?_
  rw [Environment.fallback?_of_isLexical hk]
  rfl

theorem insertSlot_eq (he : realm.scope? e = some environment) (b : Binding) :
    (e.insertSlot name (.direct b)).act s realm = .ok () (realm.withBinding e name b) :=
  Engine.modifyBindings_of_some he (·.insert name (.direct b))

/-- Only global scopes refuse to declare a name twice. -/
theorem refuseRedeclaration_of_isLexical (hk : environment.kind.isLexical) (name : String) :
    (refuseRedeclaration environment name : Engine H Unit) = pure () := by
  unfold refuseRedeclaration
  split
  · next scope heq => simp [heq, EnvironmentKind.isLexical] at hk
  · rfl

theorem createMutableBinding_eq (he : realm.scope? e = some environment)
    (hk : environment.kind.isLexical) (deletable : Bool) :
    (e.createMutableBinding name deletable).act s realm
      = .ok () (realm.withBinding e name (.fresh true false deletable)) := by
  refine (getEnvironment_bind_of_isLexical he hk).trans ?_
  rw [refuseRedeclaration_of_isLexical hk]
  exact insertSlot_eq he _

theorem createImmutableBinding_eq (he : realm.scope? e = some environment)
    (hk : environment.kind.isLexical) (strict : Bool) :
    (e.createImmutableBinding name strict).act s realm
      = .ok () (realm.withBinding e name (.fresh false strict false)) := by
  refine (getEnvironment_bind_of_isLexical he hk).trans ?_
  rw [refuseRedeclaration_of_isLexical hk]
  exact insertSlot_eq he _

/-- What setting the first value of a name does to a scope: it stores the variable that has it. -/
def initialized (realm : Realm H) (e : EnvironmentId) (name : String) :
    Except Failure Binding → EStateM.Result Stop (Realm H) Unit
  | .ok b => .ok () (realm.withBinding e name b)
  | .error f => .error (.failure f) realm

theorem initializeOwn_eq (he : realm.scope? e = some environment)
    (hb : environment.bindings.get? name = b?.map .direct) (v : Value) :
    (e.initializeOwn name v).act s realm
      = initialized realm e name (Binding.initializing name v b?) := by
  refine (Engine.bind_of_ok (getEnvironment_of_some he)).trans ?_
  rw [hb]
  cases b? with
  | none => rfl
  | some b => exact insertSlot_eq he _

/-- An operation that the scope carries out itself, rather than one behind it. -/
theorem loop_gives_own {α : Type} {need : Nat} {own : EnvironmentId → Engine H α}
    {onObject : ObjectId → Engine H α} {expected : EStateM.Result Stop (Realm H) α}
    (he : realm.scope? e = some environment) (hk : environment.kind.isLexical)
    (h : Gives need bound ((own e).run host bound realm) expected) :
    Gives (need + 1) bound ((loop (fun e => do
      let environment ← getEnvironment e
      match environment.kind with
      | .object target _ => return .finish (← onObject target)
      | _ =>
        match environment.fallback? name with
        | some behind => return .again behind
        | none => return .finish (← own e)) e).run host bound realm) expected := by
  have hround {expected : EStateM.Result Stop (Realm H) (Round EnvironmentId α)}
      (h : Gives need bound ((own e >>= fun a => pure (.finish a)).run host bound realm) expected) :
      Gives need bound ((getEnvironment e >>= fun environment =>
        match environment.kind with
        | .object target _ => onObject target >>= fun a => pure (.finish a)
        | _ =>
          match environment.fallback? name with
          | some behind => pure (.again behind)
          | none => own e >>= fun a => pure (.finish a)).run host bound realm) expected := by
    refine Gives.bindEngine (.of_eq (getEnvironment_of_some he)) ?_
    rw [Environment.fallback?_of_isLexical hk]
    split
    · next target isWith heq => simp [heq, EnvironmentKind.isLexical] at hk
    · exact h
  match expected, h with
  | .ok a after, h => exact Engine.loop_gives_finish (hround (h.bindEngine (.of_eq rfl)))
  | .error stop after, h => exact Engine.loop_gives_error (hround h.bindEngine_error)

/-- Initializing a name. -/
theorem initializeBinding_gives (he : realm.scope? e = some environment)
    (hk : environment.kind.isLexical) (hb : environment.bindings.get? name = b?.map .direct)
    (v : Value) :
    Gives 1 bound ((e.initializeBinding name v).run host bound realm)
      (initialized realm e name (Binding.initializing name v b?)) :=
  loop_gives_own he hk (.of_eq (initializeOwn_eq he hb v))

/-- What an assignment does to a scope: it stores the variable that the assignment makes, if any. -/
def assigned (realm : Realm H) (e : EnvironmentId) (name : String) :
    Except Failure (Option Binding) → EStateM.Result Stop (Realm H) Unit
  | .ok (some b) => .ok () (realm.withBinding e name b)
  | .ok none => .ok () realm
  | .error f => .error (.failure f) realm

theorem setOwn_gives (he : realm.scope? e = some environment)
    (hk : environment.kind.isLexical) (hb : environment.bindings.get? name = b?.map .direct)
    (v : Value) (strict : Bool) :
    Gives 1 bound ((e.setOwn name v strict).run host bound realm)
      (assigned realm e name (Binding.assigning name v strict b?)) := by
  unfold setOwn
  refine Gives.bindEngine (.of_eq (getEnvironment_of_some he)) ?_
  rw [hb]
  cases b? with
  | none =>
    cases strict with
    | true => exact .of_eq rfl
    | false =>
      have he' := Realm.scope?_withBinding_self name (.fresh true false true) he
      have hget : (environment.bindings.insert name (.direct (.fresh true false true))).get? name
          = (some (.fresh true false true)).map .direct := by
        rw [OrderedMap.get?_insert, if_pos rfl]
        rfl
      have hinit : Gives 1 bound ((e.initializeBinding name v).run host bound
          (realm.withBinding e name (.fresh true false true)))
          (.ok () ((realm.withBinding e name (.fresh true false true)).withBinding e name
            ((Binding.fresh true false true).holding v))) :=
        initializeBinding_gives he' hk hget v
      rw [Realm.withBinding_withBinding] at hinit
      exact Gives.bindEngine (.of_eq (createMutableBinding_eq he hk true)) hinit
  | some b =>
    refine .of_eq ?_
    obtain ⟨value, mutable, constant, deletable⟩ := b
    match value, mutable with
    | none, _ => rfl
    | some _, true => exact insertSlot_eq he (.holding ⟨_, true, constant, deletable⟩ v)
    | some _, false => cases strict <;> cases constant <;> rfl

/-- An assignment to a name. -/
theorem setMutableBinding_gives (he : realm.scope? e = some environment)
    (hk : environment.kind.isLexical) (hb : environment.bindings.get? name = b?.map .direct)
    (v : Value) (strict : Bool) :
    Gives 2 bound ((e.setMutableBinding name v strict).run host bound realm)
      (assigned realm e name (Binding.assigning name v strict b?)) :=
  loop_gives_own he hk (setOwn_gives he hk hb v strict)

/-- The value of a name. -/
theorem getBindingValue_gives (he : realm.scope? e = some environment)
    (hk : environment.kind.isLexical) (hb : environment.bindings.get? name = b?.map .direct)
    (strict : Bool) :
    Gives 1 bound ((e.getBindingValue name strict).run host bound realm)
      (realm.outcome (Binding.reading name b?)) := by
  have hround : (bindingStep e name strict).act (.bounded host bound) realm
      = realm.outcome ((Binding.reading name b?).map .finish) := by
    refine (getEnvironment_bind_of_isLexical he hk).trans ?_
    rw [Environment.fallback?_of_isLexical hk]
    simp only [hb]
    cases b? with
    | none => rfl
    | some b =>
      obtain ⟨value, mutable, strict, deletable⟩ := b
      cases value <;> rfl
  unfold getBindingValue
  cases hr : Binding.reading name b? with
  | ok v =>
    rw [hr] at hround
    exact Engine.loop_gives_finish (.of_eq hround)
  | error f =>
    rw [hr] at hround
    exact Engine.loop_gives_error (.of_eq hround)

/-- Deleting a name: a module keeps all its names. -/
theorem deleteBinding_eq (he : realm.scope? e = some environment)
    (hk : environment.kind.isLexical) (hb : environment.bindings.get? name = b?.map .direct) :
    (e.deleteBinding name).act s realm
      = if environment.kind = .module then .ok false realm
        else .ok (Binding.deletes b?)
          (if b?.any Binding.deletable then realm.withBindings e (·.erase name) else realm) := by
  have hown : (e.deleteOwn name).act s realm = .ok (Binding.deletes b?)
      (if b?.any Binding.deletable then realm.withBindings e (·.erase name) else realm) := by
    refine (Engine.bind_of_ok (getEnvironment_of_some he)).trans ?_
    rw [hb]
    match b? with
    | none => rfl
    | some { value, mutable, strict, deletable := false } => rfl
    | some { value, mutable, strict, deletable := true } =>
      exact Engine.bind_of_ok (Engine.modifyBindings_of_some he (·.erase name))
  refine (Engine.bind_of_ok (getEnvironment_of_some he)).trans ?_
  cases hkind : environment.kind with
  | declarative => exact hown
  | function scope => exact hown
  | module => rfl
  | object target isWith => simp [hkind, EnvironmentKind.isLexical] at hk
  | global scope => simp [hkind, EnvironmentKind.isLexical] at hk

end Operations
end EnvironmentId
end ScriptEngine
