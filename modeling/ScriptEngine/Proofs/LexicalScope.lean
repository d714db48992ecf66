import ScriptEngine.Proofs.ScopeRecord

/-!
# Lexical scoping

What a name means in a scope is told by the history of the scopes alone: which were opened inside
which, and what was declared, stored and removed in each. Looking a name up finds the innermost
scope that has it, and reading it gives what was stored there last. A reference that was found once
stays with its scope, also after its name was removed and declared again.

## Main definitions

* `ScopeEvent`, `ScopeHistory`: what has happened to scopes.
* `ScopeHistory.binding?`, `ScopeHistory.chain`, `ScopeHistory.innermost?`: what a history says of
  names.
* `ScopeRequest`, `ScopeHistory.response`: the operations on scopes, and what a history says of
  them.
* `ScopeSession`: scopes in use, with their history.

## Main results

* `Realm.Agrees.performs`: a realm that agrees with a history does as the history says.
* `scopes_follow_history`: every operation of a session ends, with the answer that the history of
  the session tells.
-/

namespace ScriptEngine

open Engine

variable {H : HostTypes}

/-! ### Histories -/

/-- Something that happened to scopes: one was opened, a variable was declared, a value stored or a
variable removed, and a name looked up. -/
inductive ScopeEvent where
  | opened (e : EnvironmentId) (outer : Option EnvironmentId) (kind : EnvironmentKind)
  | declared (e : EnvironmentId) (name : String) (b : Binding)
  | stored (e : EnvironmentId) (name : String) (v : Value)
  | removed (e : EnvironmentId) (name : String)
  | resolved (r : Reference)

/-- What has happened to scopes, the latest first. -/
abbrev ScopeHistory := List ScopeEvent

namespace ScopeHistory

/-- What is outside a scope and its kind, if it was opened. -/
def scope? : ScopeHistory → EnvironmentId → Option (Option EnvironmentId × EnvironmentKind)
  | [], _ => none
  | .opened e' outer kind :: earlier, e => if e = e' then some (outer, kind) else scope? earlier e
  | _ :: earlier, e => scope? earlier e

/-- The variable of a name in a scope: declared since the scope was opened, with the value stored
last, and not removed. -/
def binding? : ScopeHistory → EnvironmentId → String → Option Binding
  | [], _, _ => none
  | .opened e' _ _ :: earlier, e, name => if e = e' then none else binding? earlier e name
  | .declared e' name' b :: earlier, e, name =>
    if e = e' ∧ name = name' then some b else binding? earlier e name
  | .stored e' name' v :: earlier, e, name =>
    if e = e' ∧ name = name' then (binding? earlier e name).map (·.holding v)
    else binding? earlier e name
  | .removed e' name' :: earlier, e, name =>
    if e = e' ∧ name = name' then none else binding? earlier e name
  | .resolved _ :: earlier, e, name => binding? earlier e name

/-- A scope and those outside it, from the inside out. A scope is opened after those outside it. -/
def chain : ScopeHistory → Option EnvironmentId → List EnvironmentId
  | _, none => []
  | [], some _ => []
  | .opened e' outer _ :: earlier, some e =>
    if e = e' then e :: chain earlier outer else chain earlier (some e)
  | _ :: earlier, some e => chain earlier (some e)

/-- The innermost scope that has a name, from a scope outwards. -/
def innermost? (history : ScopeHistory) (e : Option EnvironmentId) (name : String) :
    Option EnvironmentId :=
  (chain history e).find? fun e => (binding? history e name).isSome

/-- Whether a scope was opened. -/
def IsOpen (history : ScopeHistory) (e : EnvironmentId) : Prop := (scope? history e).isSome

/-- Whether a scope, if there is one, was opened. -/
def IsOpen? (history : ScopeHistory) (e : Option EnvironmentId) : Prop :=
  ∀ e', e = some e' → IsOpen history e'

/-- The reference for a name that was looked up. -/
def reference (history : ScopeHistory) (e : Option EnvironmentId) (name : String) (strict : Bool) :
    Reference :=
  { base := (innermost? history e name).elim .unresolvable .environment
    name := .string name, strict }

end ScopeHistory

/-! ### Operations on scopes -/

/-- An operation on scopes, or on a reference. -/
inductive ScopeRequest where
  | openScope (outer : Option EnvironmentId) (kind : EnvironmentKind)
  | declareVariable (e : EnvironmentId) (name : String) (deletable : Bool)
  | declareConstant (e : EnvironmentId) (name : String) (strict : Bool)
  | setFirst (e : EnvironmentId) (name : String) (v : Value)
  | assign (e : EnvironmentId) (name : String) (v : Value) (strict : Bool)
  | delete (e : EnvironmentId) (name : String)
  | resolve (e : Option EnvironmentId) (name : String) (strict : Bool)
  | getValue (r : Reference)
  | putValue (r : Reference) (v : Value)
  | deleteReference (r : Reference)

/-- What an operation on scopes answers. -/
inductive ScopeAnswer where
  | done
  | scope (e : EnvironmentId)
  | flag (b : Bool)
  | reference (r : Reference)
  | value (v : Value)

/-- What an operation does. -/
def ScopeRequest.perform : ScopeRequest → Engine H ScopeAnswer
  | openScope outer kind => return .scope (← newEnvironment outer kind)
  | declareVariable e name deletable => do
    e.createMutableBinding name deletable
    return .done
  | declareConstant e name strict => do
    e.createImmutableBinding name strict
    return .done
  | setFirst e name v => do
    e.initializeBinding name v
    return .done
  | assign e name v strict => do
    e.setMutableBinding name v strict
    return .done
  | delete e name => return .flag (← e.deleteBinding name)
  | resolve e name strict => return .reference (← identifierReference e name strict)
  | getValue r => return .value (← r.getValue)
  | putValue r v => do
    r.putValue v
    return .done
  | deleteReference r => return .flag (← r.delete)

namespace ScopeHistory

/-- The operations of a session. Scopes hold their names themselves and are opened inside others of
the session, names are declared where they are not declared already, and references are those that
were found before. An assignment through a reference to nothing is an operation on scopes only in
strict code; in sloppy code it sets a property of the global object. -/
def Admits (history : ScopeHistory) : ScopeRequest → Prop
  | .openScope outer kind => kind.isLexical ∧ IsOpen? history outer
  | .declareVariable e name _ => IsOpen history e ∧ binding? history e name = none
  | .declareConstant e name _ => IsOpen history e ∧ binding? history e name = none
  | .setFirst e _ _ => IsOpen history e
  | .assign e _ _ _ => IsOpen history e
  | .delete e _ => IsOpen history e
  | .resolve e _ _ => IsOpen? history e
  | .getValue r => .resolved r ∈ history
  | .putValue r _ => .resolved r ∈ history ∧ (r.isUnresolvable → r.strict)
  | .deleteReference r => .resolved r ∈ history

/-- What setting the first value of a name in a scope comes to, and what happens. -/
def initializing (history : ScopeHistory) (e : EnvironmentId) (name : String) (v : Value) :
    Except Failure ScopeAnswer × List ScopeEvent :=
  match binding? history e name with
  | none => (.error (.internal ("initializing missing binding '" ++ name ++ "'")), [])
  | some _ => (.ok .done, [.stored e name v])

/-- What an assignment to a name in a scope comes to, and what happens. -/
def assignment (history : ScopeHistory) (e : EnvironmentId) (name : String) (v : Value)
    (strict : Bool) : Except Failure ScopeAnswer × List ScopeEvent :=
  match binding? history e name with
  | none =>
    if strict then (.error (.notDefined name), [])
    else (.ok .done, [.stored e name v, .declared e name (.fresh true false true)])
  | some b =>
    if b.value.isNone then (.error (uninitialized name), [])
    else if b.mutable then (.ok .done, [.stored e name v])
    else if strict || b.strict then (.error (constantAssignment name), [])
    else (.ok .done, [])

/-- What deleting a name of a scope comes to, and what happens: a module keeps its names, and other
scopes those that may not be deleted. -/
def deletion (history : ScopeHistory) (e : EnvironmentId) (name : String) :
    Bool × List ScopeEvent :=
  if (scope? history e).any (·.2 = .module) then (false, [])
  else
    match binding? history e name with
    | none => (true, [])
    | some b => if b.deletable then (true, [.removed e name]) else (false, [])

/-- What an operation comes to, and what happens, by the history alone. -/
def response (history : ScopeHistory) (next : EnvironmentId) :
    ScopeRequest → Except Failure ScopeAnswer × List ScopeEvent
  | .openScope outer kind => (.ok (.scope next), [.opened next outer kind])
  | .declareVariable e name deletable =>
    (.ok .done, [.declared e name (.fresh true false deletable)])
  | .declareConstant e name strict => (.ok .done, [.declared e name (.fresh false strict false)])
  | .setFirst e name v => initializing history e name v
  | .assign e name v strict => assignment history e name v strict
  | .delete e name => ((deletion history e name).map (.ok ∘ .flag) id)
  | .resolve e name strict =>
    (.ok (.reference (reference history e name strict)),
      [.resolved (reference history e name strict)])
  | .getValue r =>
    match r.base with
    | .environment e =>
      ((Binding.reading r.name.text (binding? history e r.name.text)).map .value, [])
    | _ => (.error (.notDefined r.name.text), [])
  | .putValue r v =>
    match r.base with
    | .environment e => assignment history e r.name.text v r.strict
    | _ => (.error (.notDefined r.name.text), [])
  | .deleteReference r =>
    match r.base with
    | .environment e => ((deletion history e r.name.text).map (.ok ∘ .flag) id)
    | _ => (.ok (.flag true), [])

/-- Whether every scope was opened once, after those outside it. -/
def Nested : ScopeHistory → Prop
  | [] => True
  | .opened e outer _ :: earlier => scope? earlier e = none ∧ IsOpen? earlier outer ∧ Nested earlier
  | _ :: earlier => Nested earlier

/-! ### Scopes of a history -/

section Nested

variable {history : ScopeHistory} {e e' : EnvironmentId} {outer : Option EnvironmentId}
  {kind : EnvironmentKind}

theorem isOpen?_none (history : ScopeHistory) : IsOpen? history none := fun _ h => by cases h

theorem IsOpen.isOpen? (h : IsOpen history e) : IsOpen? history (some e) := by
  rintro _ ⟨⟩
  exact h

@[simp] theorem chain_none (history : ScopeHistory) : chain history none = [] := by
  cases history <;> rfl

/-- Only opening scopes has to do with chains. -/
theorem chain_cons {event : ScopeEvent} (h : ∀ e outer kind, event ≠ .opened e outer kind)
    (history : ScopeHistory) (e : Option EnvironmentId) :
    chain (event :: history) e = chain history e := by
  cases e with
  | none => rw [chain_none, chain_none]
  | some e =>
    cases event with
    | opened e' outer kind => exact absurd rfl (h e' outer kind)
    | _ => rfl

/-- What is outside a scope was opened too. -/
theorem Nested.isOpen?_outer (hn : Nested history) (h : scope? history e = some (outer, kind)) :
    IsOpen? history outer := by
  induction history with
  | nil => cases h
  | cons event earlier ih =>
    cases event with
    | opened e' outer' kind' =>
      obtain ⟨hnew, houter, hn⟩ := hn
      have hlater (outer : Option EnvironmentId) (hout : IsOpen? earlier outer) :
          IsOpen? (.opened e' outer' kind' :: earlier) outer := by
        intro o ho
        have hopen := hout o ho
        unfold IsOpen scope?
        split
        · rfl
        · exact hopen
      simp only [scope?] at h
      split at h
      · cases h
        exact hlater _ houter
      · exact hlater _ (ih hn h)
    | _ => exact ih hn h

/-- A scope comes first on its chain, then those outside it. -/
theorem Nested.chain_eq (hn : Nested history) (h : scope? history e = some (outer, kind)) :
    chain history (some e) = e :: chain history outer := by
  induction history with
  | nil => cases h
  | cons event earlier ih =>
    cases event with
    | opened e' outer' kind' =>
      obtain ⟨hnew, houter, hn⟩ := hn
      -- scopes that were open before are not the new one
      have hother (outer : Option EnvironmentId) (hopen : IsOpen? earlier outer) :
          chain (.opened e' outer' kind' :: earlier) outer = chain earlier outer := by
        cases outer with
        | none => rw [chain_none, chain_none]
        | some o =>
          have hne : o ≠ e' := fun heq => by simpa [IsOpen, heq, hnew] using hopen o rfl
          exact if_neg hne
      simp only [scope?] at h
      split at h
      · next heq =>
        cases h
        rw [hother outer houter]
        exact if_pos heq
      · next heq =>
        rw [hother outer (hn.isOpen?_outer h)]
        exact (if_neg heq).trans (ih hn h)
    | _ =>
      rw [chain_cons (by simp), chain_cons (by simp)]
      exact ih hn h

@[simp] theorem innermost?_none (history : ScopeHistory) (name : String) :
    innermost? history none name = none := by
  rw [innermost?, chain_none]
  rfl

/-- A name is looked for in a scope, then in those outside it. -/
theorem Nested.innermost?_eq (hn : Nested history) (h : scope? history e = some (outer, kind))
    (name : String) : innermost? history (some e) name
      = if (binding? history e name).isSome then some e else innermost? history outer name := by
  rw [innermost?, hn.chain_eq h, List.find?_cons]
  split
  · next hb => rw [if_pos hb]
  · next hb => rw [if_neg (by simp [hb]), innermost?]

theorem reference_none (history : ScopeHistory) (name : String) (strict : Bool) :
    reference history none name strict
      = { base := .unresolvable, name := .string name, strict } := by
  rw [reference, innermost?_none]
  rfl

/-- A name refers to the scope itself or, where that has it not, to what it refers to outside. -/
theorem Nested.reference_eq (hn : Nested history) (h : scope? history e = some (outer, kind))
    (name : String) (strict : Bool) : reference history (some e) name strict
      = if (binding? history e name).isSome then
          { base := .environment e, name := .string name, strict }
        else reference history outer name strict := by
  rw [reference, hn.innermost?_eq h]
  split <;> rfl

/-- The scopes on a chain were opened. -/
theorem isOpen_of_mem_chain (history : ScopeHistory) {e : Option EnvironmentId}
    (h : e' ∈ chain history e) : IsOpen history e' := by
  induction history generalizing e with
  | nil => cases e <;> cases h
  | cons event earlier ih =>
    cases e with
    | none => cases h
    | some e =>
      cases event with
      | opened e₁ outer kind =>
        unfold IsOpen scope?
        split
        · rfl
        · next hne =>
          simp only [chain] at h
          split at h
          · next heq =>
            obtain rfl | h := List.mem_cons.mp h
            · exact absurd heq hne
            · exact ih h
          · exact ih h
      | _ => exact ih (e := some e) h

theorem isOpen?_innermost? (history : ScopeHistory) (e : Option EnvironmentId) (name : String) :
    IsOpen? history (innermost? history e name) :=
  fun _ h => isOpen_of_mem_chain history (List.mem_of_find?_eq_some h)

end Nested

theorem scope?_cons {event : ScopeEvent} (h : ∀ e outer kind, event ≠ .opened e outer kind)
    (history : ScopeHistory) (e : EnvironmentId) :
    scope? (event :: history) e = scope? history e := by
  cases event with
  | opened e' outer kind => exact absurd rfl (h e' outer kind)
  | _ => rfl

theorem IsOpen.cons {history : ScopeHistory} {e : EnvironmentId} (h : IsOpen history e)
    (event : ScopeEvent) : IsOpen (event :: history) e := by
  cases event with
  | opened e' outer kind =>
    unfold IsOpen scope?
    split
    · rfl
    · exact h
  | _ => exact h

theorem IsOpen?.cons {history : ScopeHistory} {e : Option EnvironmentId} (h : IsOpen? history e)
    (event : ScopeEvent) : IsOpen? (event :: history) e :=
  fun e' he => (h e' he).cons event

end ScopeHistory

open ScopeHistory

/-! ### Realms that are as a history tells -/

/-- A realm is as a history tells: the scopes that were opened have the variables that were declared
and not removed, and references lead to open scopes. -/
structure Realm.Agrees (realm : Realm H) (history : ScopeHistory) : Prop where
  scopes : ∀ e outer kind, history.scope? e = some (outer, kind) → kind.isLexical
    ∧ ∃ bindings, realm.scope? e = some { outer, bindings, kind }
      ∧ ∀ name, bindings.get? name = (history.binding? e name).map .direct
  references : ∀ r, .resolved r ∈ history → ∃ e name strict,
    r = { base := e.elim .unresolvable .environment, name := .string name, strict }
      ∧ history.IsOpen? e
  nested : history.Nested

section Agrees

variable {host : Host H} {bound : Nat} {realm : Realm H} {history : ScopeHistory}
  {e : EnvironmentId} {name : String}

theorem Realm.Agrees.empty (realm : Realm H) : realm.Agrees [] :=
  ⟨(fun _ _ _ h => nomatch h), (fun _ h => nomatch h), trivial⟩

/-- A scope that is open, with its variables. -/
theorem Realm.Agrees.exists_scope (h : realm.Agrees history) (he : history.IsOpen e) :
    ∃ environment, realm.scope? e = some environment ∧ environment.kind.isLexical
      ∧ history.scope? e = some (environment.outer, environment.kind)
      ∧ ∀ name, environment.bindings.get? name = (history.binding? e name).map .direct := by
  obtain ⟨⟨outer, kind⟩, hs⟩ := Option.isSome_iff_exists.mp he
  obtain ⟨hk, bindings, hscope, hget⟩ := h.scopes e outer kind hs
  exact ⟨_, hscope, hk, hs, hget⟩

/-- The next scope has not been opened. -/
theorem Realm.Agrees.scope?_size (h : realm.Agrees history) :
    history.scope? ⟨realm.environments.size⟩ = none := by
  refine Option.eq_none_iff_forall_ne_some.mpr fun ⟨outer, kind⟩ hs => ?_
  obtain ⟨-, bindings, hscope, -⟩ := h.scopes _ outer kind hs
  exact absurd (Realm.index_lt_of_scope? hscope) (Nat.lt_irrefl _)

/-- What happens elsewhere leaves the agreement. -/
theorem Realm.Agrees.of_scope?_eq {after : Realm H} (h : realm.Agrees history)
    (hkeep : ∀ e, history.IsOpen e → after.scope? e = realm.scope? e) : after.Agrees history where
  scopes e outer kind hs := by
    obtain ⟨hk, bindings, hscope, hget⟩ := h.scopes e outer kind hs
    exact ⟨hk, bindings, (hkeep e (Option.isSome_iff_exists.mpr ⟨_, hs⟩)).trans hscope, hget⟩
  references := h.references
  nested := h.nested

theorem Realm.Agrees.opened (h : realm.Agrees history) {outer : Option EnvironmentId}
    {kind : EnvironmentKind} (hk : kind.isLexical) (houter : history.IsOpen? outer) :
    ({ realm with environments := realm.environments.push { outer, kind } } : Realm H).Agrees
      (.opened ⟨realm.environments.size⟩ outer kind :: history) where
  scopes e outer' kind' hs := by
    simp only [ScopeHistory.scope?] at hs
    split at hs
    · next heq =>
      subst heq
      cases hs
      refine ⟨hk, {}, by simp [Realm.scope?], fun name => ?_⟩
      simp [ScopeHistory.binding?, OrderedMap.get?, OrderedMap.lookup]
    · next hne =>
      obtain ⟨hk', bindings, hscope, hget⟩ := h.scopes e outer' kind' hs
      have hlt := Realm.index_lt_of_scope? hscope
      refine ⟨hk', bindings, ?_, fun name => ?_⟩
      · rw [← hscope]
        simp only [Realm.scope?, Array.getElem?_push, if_neg (Nat.ne_of_lt hlt)]
      · rw [hget, ScopeHistory.binding?, if_neg hne]
  references r hr := by
    obtain ⟨e, name, strict, heq, hopen⟩ :=
      h.references r ((List.mem_cons.mp hr).resolve_left (by simp))
    exact ⟨e, name, strict, heq, hopen.cons _⟩
  nested := ⟨h.scope?_size, houter, h.nested⟩

/-- Changing the variable of a name. -/
theorem Realm.Agrees.changed (h : realm.Agrees history) {event : ScopeEvent} {b? : Option Binding}
    {f : OrderedMap String Slot → OrderedMap String Slot}
    (hf : ∀ m name', (f m).get? name' = if name' = name then b?.map .direct else m.get? name')
    (hopened : ∀ e outer kind, event ≠ .opened e outer kind)
    (hresolved : ∀ r, event ≠ .resolved r)
    (hevent : ∀ e' name', binding? (event :: history) e' name'
      = if e' = e ∧ name' = name then b? else history.binding? e' name') :
    (realm.withBindings e f).Agrees (event :: history) where
  scopes e' outer kind hs := by
    rw [scope?_cons hopened] at hs
    obtain ⟨hk, bindings, hscope, hget⟩ := h.scopes e' outer kind hs
    by_cases heq : e' = e
    · subst heq
      refine ⟨hk, f bindings, Realm.scope?_withBindings_self hscope, fun name' => ?_⟩
      rw [hf, hevent, hget]
      by_cases hname : name' = name <;> simp [hname]
    · refine ⟨hk, bindings, (Realm.scope?_withBindings_of_ne heq).trans hscope, fun name' => ?_⟩
      rw [hevent, hget, if_neg fun hc => heq hc.1]
  references r hr := by
    obtain ⟨e, name, strict, heq, hopen⟩ :=
      h.references r ((List.mem_cons.mp hr).resolve_left (hresolved r).symm)
    exact ⟨e, name, strict, heq, hopen.cons _⟩
  nested := by
    cases event with
    | opened e' outer kind => exact absurd rfl (hopened e' outer kind)
    | _ => exact h.nested

theorem Realm.Agrees.declared (h : realm.Agrees history) (e : EnvironmentId) (name : String)
    (b : Binding) : (realm.withBinding e name b).Agrees (.declared e name b :: history) :=
  h.changed (fun m name' => m.get?_insert name name' _) (by simp) (by simp) fun _ _ => rfl

theorem Realm.Agrees.stored (h : realm.Agrees history) {b : Binding}
    (hb : history.binding? e name = some b) (v : Value) :
    (realm.withBinding e name (b.holding v)).Agrees (.stored e name v :: history) := by
  have hinsert (m : OrderedMap String Slot) (name' : String) :
      (m.insert name (.direct (b.holding v))).get? name'
        = if name' = name then (some (b.holding v)).map .direct else m.get? name' :=
    m.get?_insert name name' _
  refine h.changed hinsert (by simp) (by simp) fun e' name' => ?_
  rw [ScopeHistory.binding?]
  split
  · next heq =>
    rw [heq.1, heq.2, hb]
    rfl
  · rfl

theorem Realm.Agrees.removed (h : realm.Agrees history) (e : EnvironmentId) (name : String) :
    (realm.withBindings e (·.erase name)).Agrees (.removed e name :: history) :=
  h.changed (fun m name' => m.get?_erase name name') (by simp) (by simp) fun _ _ => rfl

theorem Realm.Agrees.resolved (h : realm.Agrees history) {e : Option EnvironmentId}
    (he : history.IsOpen? e) (name : String) (strict : Bool) :
    realm.Agrees (.resolved
      { base := e.elim .unresolvable .environment, name := .string name, strict } :: history) where
  scopes := h.scopes
  references r hr := by
    obtain heq | hr := List.mem_cons.mp hr
    · cases heq
      exact ⟨e, name, strict, rfl, he⟩
    · exact h.references r hr
  nested := h.nested

end Agrees

/-! ### Looking a name up -/

/-- One round of looking a name up: the scope has it, or those outside it are asked. -/
def resolveStep (name : String) (strict : Bool) :
    Option EnvironmentId → Engine H (Round (Option EnvironmentId) Reference)
  | none => return .finish { base := .unresolvable, name := .string name, strict }
  | some e => do
    if ← e.hasBinding name then
      return .finish { base := .environment e, name := .string name, strict }
    return .again (← getEnvironment e).outer

theorem identifierReference_eq (e : Option EnvironmentId) (name : String) (strict : Bool) :
    (identifierReference e name strict : Engine H Reference)
      = loop (resolveStep name strict) e := by
  unfold identifierReference
  congr 1

section Resolve

variable {host : Host H} {bound : Nat} {realm : Realm H} {history : ScopeHistory}

/-- The rounds from a scope outwards find the innermost scope that has the name. -/
theorem Realm.Agrees.resolve_rounds (h : realm.Agrees history) (name : String) (strict : Bool)
    {e : Option EnvironmentId} (he : history.IsOpen? e) {ids : List EnvironmentId}
    (hids : history.chain e = ids) (fuel : Nat) :
    Gives (ids.length + 1) (min bound fuel)
      ((loopFor (resolveStep name strict) fuel e).run host bound realm)
      (.ok (history.reference e name strict) realm) := by
  induction ids generalizing e fuel with
  | nil =>
    cases e with
    | none =>
      rw [reference_none]
      exact Engine.loopFor_gives_finish (.of_eq rfl) fuel
    | some e =>
      obtain ⟨environment, -, -, hs, -⟩ := h.exists_scope (he e rfl)
      rw [h.nested.chain_eq hs] at hids
      cases hids
  | cons e' ids ih =>
    cases e with
    | none => rw [chain_none] at hids; cases hids
    | some e =>
      obtain ⟨environment, hscope, hk, hs, hget⟩ := h.exists_scope (he e rfl)
      rw [h.nested.chain_eq hs, List.cons.injEq] at hids
      obtain ⟨rfl, hids⟩ := hids
      have hbinds : environment.binds name = (history.binding? e name).isSome := by
        rw [Environment.binds, OrderedMap.contains, hget, Option.isSome_map]
      have hfound : Gives 1 bound ((e.hasBinding name).run host bound realm) _ :=
        EnvironmentId.hasBinding_gives hscope hk name
      rw [hbinds] at hfound
      rw [h.nested.reference_eq hs]
      cases hb : (history.binding? e name).isSome with
      | true =>
        rw [hb] at hfound
        rw [if_pos rfl]
        exact (Engine.loopFor_gives_finish (hfound.bindEngine (.of_eq rfl)) fuel).mono (by simp)
      | false =>
        rw [hb] at hfound
        rw [if_neg Bool.false_ne_true]
        have hround : Gives 1 bound ((resolveStep name strict (some e)).run host bound realm)
            (.ok (.again environment.outer) realm) :=
          hfound.bindEngine (.of_eq (Engine.bind_of_ok (Engine.getEnvironment_of_some hscope)))
        refine (Engine.loopFor_gives_again hround
          (fun fuel => ih (h.nested.isOpen?_outer hs) hids fuel) fuel).mono ?_
        simp

/-- Looking a name up ends, and finds the innermost scope that has it. -/
theorem Realm.Agrees.identifierReference_gives (h : realm.Agrees history) (name : String)
    (strict : Bool) {e : Option EnvironmentId} (he : history.IsOpen? e) :
    Gives ((history.chain e).length + 1) bound
      ((identifierReference e name strict).run host bound realm)
      (.ok (history.reference e name strict) realm) := by
  rw [identifierReference_eq]
  exact Engine.loop_gives (h.resolve_rounds name strict he rfl)

end Resolve

/-! ### One operation -/

/-- A computation does what a response says: it ends with the answer, in a realm that agrees with
the history and with what happened. Where nothing happened the realm is as it was. -/
def Realm.Follows (realm : Realm H) (host : Host H) (history : ScopeHistory)
    (x : Engine H ScopeAnswer) (response : Except Failure ScopeAnswer × List ScopeEvent) : Prop :=
  ∃ need after,
    (∀ bound, Gives need bound (x.run host bound realm) (after.outcome response.1))
    ∧ after.Agrees (response.2 ++ history) ∧ (response.2 = [] → after = realm)

section Perform

variable {host : Host H} {realm : Realm H} {history : ScopeHistory} {e : EnvironmentId}
  {name : String}

/-- Nothing happens. -/
theorem Realm.Follows.of_nothing {x : Engine H ScopeAnswer} {need : Nat}
    {answer : Except Failure ScopeAnswer} (h : realm.Agrees history)
    (hx : ∀ bound, Gives need bound (x.run host bound realm) (realm.outcome answer)) :
    realm.Follows host history x (answer, []) :=
  ⟨need, realm, hx, h, fun _ => rfl⟩

/-- Something happens. -/
theorem Realm.Follows.of_events {x : Engine H ScopeAnswer} {need : Nat} {after : Realm H}
    {answer : ScopeAnswer} {event : ScopeEvent} {events : List ScopeEvent}
    (hx : ∀ bound, Gives need bound (x.run host bound realm) (.ok answer after))
    (h : after.Agrees (event :: events ++ history)) :
    realm.Follows host history x (.ok answer, event :: events) :=
  ⟨need, after, hx, h, fun hnil => nomatch hnil⟩

/-- An assignment to a name of a scope. -/
theorem Realm.Agrees.follows_assignment (h : realm.Agrees history) (he : history.IsOpen e)
    (name : String) (v : Value) (strict : Bool) :
    realm.Follows host history (e.setMutableBinding name v strict >>= fun _ => pure .done)
      (history.assignment e name v strict) := by
  obtain ⟨environment, hscope, hk, -, hget⟩ := h.exists_scope he
  have hset (bound : Nat) : Gives 2 bound ((e.setMutableBinding name v strict).run host bound realm)
      (EnvironmentId.assigned realm e name
        (Binding.assigning name v strict (history.binding? e name))) :=
    EnvironmentId.setMutableBinding_gives hscope hk (hget name) v strict
  unfold ScopeHistory.assignment
  cases hb : history.binding? e name with
  | none =>
    rw [hb] at hset
    cases strict with
    | true => exact .of_nothing h fun bound => (hset bound).bindEngine_error
    | false =>
      have hdeclared := h.declared e name (.fresh true false true)
      have hstored := hdeclared.stored (e := e) (if_pos ⟨rfl, rfl⟩) v
      rw [Realm.withBinding_withBinding] at hstored
      exact .of_events (fun bound => (hset bound).bindEngine (.of_eq rfl)) hstored
  | some b =>
    have hstored := h.stored hb v
    rw [hb] at hset
    obtain ⟨value, mutable, constant, deletable⟩ := b
    match value, mutable with
    | none, _ => exact .of_nothing h fun bound => (hset bound).bindEngine_error
    | some _, true =>
      exact .of_events (fun bound => (hset bound).bindEngine (.of_eq rfl)) hstored
    | some _, false =>
      cases strict with
      | true => exact .of_nothing h fun bound => (hset bound).bindEngine_error
      | false =>
        cases constant with
        | true => exact .of_nothing h fun bound => (hset bound).bindEngine_error
        | false =>
          have hnothing (bound : Nat) : Gives 2 bound ((e.setMutableBinding name v false >>=
              fun _ => pure ScopeAnswer.done).run host bound realm) (.ok .done realm) :=
            (hset bound).bindEngine (.of_eq rfl)
          exact .of_nothing h hnothing

/-- Deleting a name of a scope. -/
theorem Realm.Agrees.follows_deletion (h : realm.Agrees history) (he : history.IsOpen e)
    (name : String) :
    realm.Follows host history (e.deleteBinding name >>= fun b => pure (.flag b))
      ((history.deletion e name).map (.ok ∘ .flag) id) := by
  obtain ⟨environment, hscope, hk, hs, hget⟩ := h.exists_scope he
  have hdelete (bound : Nat) : (e.deleteBinding name).act (.bounded host bound) realm = _ :=
    EnvironmentId.deleteBinding_eq hscope hk (hget name)
  have hanswer {b : Bool} {after : Realm H}
      (hx : ∀ bound, (e.deleteBinding name).act (.bounded host bound) realm = .ok b after)
      (bound : Nat) : Gives 0 bound
        ((e.deleteBinding name >>= fun b => pure (ScopeAnswer.flag b)).run host bound realm)
        (.ok (.flag b) after) :=
    .of_eq (Engine.bind_of_ok (hx bound))
  unfold ScopeHistory.deletion
  rw [hs, Option.any_some]
  by_cases hmodule : environment.kind = .module
  · rw [if_pos hmodule] at hdelete
    rw [if_pos (by simpa using hmodule)]
    exact .of_nothing h (hanswer hdelete)
  · rw [if_neg hmodule] at hdelete
    rw [if_neg (by simpa using hmodule)]
    match hb : history.binding? e name with
    | none =>
      rw [hb] at hdelete
      exact .of_nothing h (hanswer hdelete)
    | some ⟨value, mutable, strict, false⟩ =>
      rw [hb] at hdelete
      exact .of_nothing h (hanswer hdelete)
    | some ⟨value, mutable, strict, true⟩ =>
      rw [hb] at hdelete
      exact .of_events (hanswer hdelete) (h.removed e name)

/-- Reading a name of a scope. -/
theorem Realm.Agrees.follows_reading (h : realm.Agrees history) (he : history.IsOpen e)
    (name : String) (strict : Bool) :
    realm.Follows host history (e.getBindingValue name strict >>= fun v => pure (.value v))
      ((Binding.reading name (history.binding? e name)).map .value, []) := by
  obtain ⟨environment, hscope, hk, -, hget⟩ := h.exists_scope he
  have hread (bound : Nat) : Gives 1 bound ((e.getBindingValue name strict).run host bound realm)
      (realm.outcome (Binding.reading name (history.binding? e name))) :=
    EnvironmentId.getBindingValue_gives hscope hk (hget name) strict
  cases hr : Binding.reading name (history.binding? e name) with
  | error f =>
    rw [hr] at hread
    exact .of_nothing h fun bound => (hread bound).bindEngine_error
  | ok v =>
    rw [hr] at hread
    have hvalue (bound : Nat) : Gives 1 bound ((e.getBindingValue name strict >>=
        fun v => pure (ScopeAnswer.value v)).run host bound realm) (.ok (.value v) realm) :=
      (hread bound).bindEngine (.of_eq rfl)
    exact .of_nothing h hvalue

/-- Setting the first value of a name of a scope. -/
theorem Realm.Agrees.follows_initializing (h : realm.Agrees history) (he : history.IsOpen e)
    (name : String) (v : Value) :
    realm.Follows host history (e.initializeBinding name v >>= fun _ => pure .done)
      (history.initializing e name v) := by
  obtain ⟨environment, hscope, hk, -, hget⟩ := h.exists_scope he
  have hinit (bound : Nat) : Gives 1 bound ((e.initializeBinding name v).run host bound realm)
      (EnvironmentId.initialized realm e name
        (Binding.initializing name v (history.binding? e name))) :=
    EnvironmentId.initializeBinding_gives hscope hk (hget name) v
  unfold ScopeHistory.initializing
  cases hb : history.binding? e name with
  | none =>
    rw [hb] at hinit
    exact .of_nothing h fun bound => (hinit bound).bindEngine_error
  | some b =>
    rw [hb] at hinit
    exact .of_events (fun bound => (hinit bound).bindEngine (.of_eq rfl)) (h.stored hb v)

/-- Declaring a name in a scope. -/
theorem Realm.Agrees.follows_declaration (h : realm.Agrees history) {x : Engine H Unit}
    {b : Binding}
    (hx : ∀ bound, x.act (.bounded host bound) realm = .ok () (realm.withBinding e name b)) :
    realm.Follows host history (x >>= fun _ => pure .done)
      (.ok .done, [.declared e name b]) := by
  have hdone (bound : Nat) : Gives 0 bound
      ((x >>= fun _ => pure ScopeAnswer.done).run host bound realm)
      (.ok .done (realm.withBinding e name b)) :=
    .of_eq (Engine.bind_of_ok (hx bound))
  exact .of_events hdone (h.declared e name b)

/-- Looking a name up. -/
theorem Realm.Agrees.follows_resolution (h : realm.Agrees history) {e : Option EnvironmentId}
    (he : history.IsOpen? e) (name : String) (strict : Bool) :
    realm.Follows host history (identifierReference e name strict >>= fun r => pure (.reference r))
      (.ok (.reference (history.reference e name strict)),
        [.resolved (history.reference e name strict)]) := by
  have hfound (bound : Nat) : Gives ((history.chain e).length + 1) bound
      ((identifierReference e name strict >>= fun r =>
        pure (ScopeAnswer.reference r)).run host bound realm)
      (.ok (.reference (history.reference e name strict)) realm) :=
    (h.identifierReference_gives name strict he).bindEngine (.of_eq rfl)
  exact .of_events hfound (h.resolved (isOpen?_innermost? history e name) name strict)

/-- A realm that agrees with a history does as the history says. -/
theorem Realm.Agrees.performs (host : Host H) (h : realm.Agrees history)
    {request : ScopeRequest} (ha : history.Admits request) :
    realm.Follows host history request.perform
      (history.response ⟨realm.environments.size⟩ request) := by
  cases request with
  | openScope outer kind =>
    have hopen (bound : Nat) : Gives 0 bound
        ((ScopeRequest.openScope outer kind).perform.run host bound realm) _ :=
      .of_eq rfl
    exact .of_events hopen (h.opened ha.1 ha.2)
  | declareVariable e name deletable =>
    obtain ⟨environment, hscope, hk, -, -⟩ := h.exists_scope ha.1
    exact h.follows_declaration fun _ => EnvironmentId.createMutableBinding_eq hscope hk deletable
  | declareConstant e name strict =>
    obtain ⟨environment, hscope, hk, -, -⟩ := h.exists_scope ha.1
    exact h.follows_declaration fun _ => EnvironmentId.createImmutableBinding_eq hscope hk strict
  | setFirst e name v => exact h.follows_initializing ha name v
  | assign e name v strict => exact h.follows_assignment ha name v strict
  | delete e name => exact h.follows_deletion ha name
  | resolve e name strict => exact h.follows_resolution ha name strict
  | getValue r =>
    obtain ⟨e?, name, strict, rfl, hopen⟩ := h.references r ha
    cases e? with
    | none =>
      have hfail (bound : Nat) : Gives 0 bound ((ScopeRequest.getValue
          { base := .unresolvable, name := .string name, strict }).perform.run host bound realm)
          (realm.outcome (.error (.notDefined name))) :=
        .of_eq rfl
      exact .of_nothing h hfail
    | some e => exact h.follows_reading (hopen e rfl) name strict
  | putValue r v =>
    obtain ⟨e?, name, strict, rfl, hopen⟩ := h.references r ha.1
    cases e? with
    | none =>
      obtain rfl : strict = true := ha.2 rfl
      have hfail (bound : Nat) : Gives 0 bound ((ScopeRequest.putValue
          { base := .unresolvable, name := .string name, strict := true } v).perform.run
            host bound realm)
          (realm.outcome (.error (.notDefined name))) :=
        .of_eq rfl
      exact .of_nothing h hfail
    | some e => exact h.follows_assignment (hopen e rfl) name v strict
  | deleteReference r =>
    obtain ⟨e?, name, strict, rfl, hopen⟩ := h.references r ha
    cases e? with
    | none =>
      have hdone (bound : Nat) : Gives 0 bound ((ScopeRequest.deleteReference
          { base := .unresolvable, name := .string name, strict }).perform.run host bound realm)
          (realm.outcome (.ok (.flag true))) :=
        .of_eq rfl
      exact .of_nothing h hdone
    | some e => exact h.follows_deletion (hopen e rfl) name

end Perform

/-! ### Sessions -/

/-- Scopes in use, with what has happened to them. Between the operations other code may run that
leaves the variables of these scopes alone, such as the assignment to a property of the global
object that a name comes to in sloppy code where no scope has it. -/
inductive ScopeSession (host : Host H) : Realm H → ScopeHistory → Prop
  | start (realm : Realm H) : ScopeSession host realm []
  | perform {realm after : Realm H} {history : ScopeHistory} {request : ScopeRequest} {bound : Nat}
    (h : ScopeSession host realm history) (ha : history.Admits request)
    (he : EndsIn (request.perform.run host bound realm) after) :
    ScopeSession host after ((history.response ⟨realm.environments.size⟩ request).2 ++ history)
  | aside {realm after : Realm H} {history : ScopeHistory} (h : ScopeSession host realm history)
    (hkeep : ∀ e, history.IsOpen e → after.scope? e = realm.scope? e) :
    ScopeSession host after history

section Session

variable {host : Host H} {realm : Realm H} {history : ScopeHistory} {request : ScopeRequest}

/-- The realm of a session agrees with the history: every operation does as the history says. -/
theorem ScopeSession.agrees (h : ScopeSession host realm history) : realm.Agrees history := by
  induction h with
  | start realm => exact .empty realm
  | @perform realm after history request bound h ha he ih =>
    obtain ⟨need, expected, hx, hagrees, -⟩ := ih.performs host ha
    rw [(hx bound).eq_of_endsIn he] at he
    exact he.realm_eq_of_outcome ▸ hagrees
  | aside h hkeep ih => exact ih.of_scope?_eq hkeep

/-- Every operation of a session ends, whatever the limit on the depth of calls: with the answer
that the history tells, in a realm in which the session goes on with what the history says has
happened. Where nothing has happened, as where the operation fails, the realm is as it was. -/
theorem scopes_follow_history (hs : ScopeSession host realm history)
    (ha : history.Admits request) :
    ∃ need after, (∀ bound, Gives need bound (request.perform.run host bound realm)
        (after.outcome (history.response ⟨realm.environments.size⟩ request).1))
      ∧ ScopeSession host after
        ((history.response ⟨realm.environments.size⟩ request).2 ++ history)
      ∧ ((history.response ⟨realm.environments.size⟩ request).2 = [] → after = realm) := by
  obtain ⟨need, after, hx, -, hkeep⟩ := hs.agrees.performs host ha
  have he : EndsIn (request.perform.run host need realm) after := by
    rw [(hx need).eq_of_le (Nat.le_refl _)]
    exact after.endsIn_outcome _
  exact ⟨need, after, hx, hs.perform ha he, hkeep⟩

end Session

/-- The reference for `x` from a scope inside the one that declares it. -/
def outerReference : Reference :=
  { base := .environment ⟨0⟩, name := .string "x", strict := false }

/-- A scope with a constant `x`, a scope inside it, and `x` looked up from there. -/
def constantHistory : ScopeHistory :=
  [.resolved outerReference, .stored ⟨0⟩ "x" (.nat 1), .opened ⟨1⟩ (some ⟨0⟩) .declarative,
    .declared ⟨0⟩ "x" (.fresh false false false), .opened ⟨0⟩ none .declarative]

theorem exists_scopeSession_constantHistory :
    ∃ realm, ScopeSession Host.bare realm constantHistory := by
  have step {realm after : Realm HostTypes.bare} {history : ScopeHistory} {a : ScopeAnswer}
      (request : ScopeRequest) (h : ScopeSession Host.bare realm history)
      (ha : history.Admits request)
      (hx : request.perform.run Host.bare 2 realm = .ok a after) :
      ScopeSession Host.bare after _ :=
    h.perform ha (.inl ⟨a, hx⟩)
  have outer := step (.openScope none .declarative) (.start { store := () })
    ⟨rfl, isOpen?_none _⟩ rfl
  have declared := step (.declareConstant ⟨0⟩ "x" false) outer ⟨rfl, rfl⟩ rfl
  have inner := step (.openScope (some ⟨0⟩) .declarative) declared ⟨rfl, IsOpen.isOpen? rfl⟩ rfl
  have stored := step (.setFirst ⟨0⟩ "x" (.nat 1)) inner rfl rfl
  have resolved := step (.resolve (some ⟨1⟩) "x" false) stored (IsOpen.isOpen? rfl) rfl
  exact ⟨_, resolved⟩

/-- In sloppy code an assignment to the constant does nothing. -/
theorem scopes_follow_history_constant :
    ∃ realm, ScopeSession Host.bare realm constantHistory
      ∧ constantHistory.Admits (.putValue outerReference (.nat 2))
      ∧ ∃ need, ∀ bound, Gives need bound
        ((ScopeRequest.putValue outerReference (.nat 2)).perform.run Host.bare bound realm)
        (.ok .done realm) := by
  obtain ⟨realm, hs⟩ := exists_scopeSession_constantHistory
  have ha : constantHistory.Admits (.putValue outerReference (.nat 2)) :=
    ⟨List.mem_cons_self, fun h => nomatch h⟩
  obtain ⟨need, after, hx, -, hkeep⟩ := scopes_follow_history hs ha
  obtain rfl := hkeep rfl
  exact ⟨after, hs, ha, need, hx⟩

end ScriptEngine
