import ScriptEngine.Proofs.KeyText
import ScriptEngine.Proofs.ModuleHistory
import ScriptEngine.Respond

/-!
# Namespaces of modules

A namespace shows the exports of a module: its keys are the exported names in the order of their
code units, and reading one goes to the variable of the module. It shows what the history of the
module tells, and nothing that is done to it changes anything.

## Main definitions

* `ModuleState.reading`, `ModuleState.property`: what a namespace shows under a key.
* `Realm.Answers`: an internal method that ends without a change of the realm.
* `Realm.Views`: what the internal methods of a namespace answer.

## Main results

* `Realm.Carries.views`: a namespace shows what its module is.
* `namespaces_follow_history`: modules and their namespaces in a session do as the history tells.
-/

namespace ScriptEngine

open Engine

variable {H : HostTypes}

/-! ### What a namespace shows -/

namespace ModuleState

/-- What reading an export comes to. -/
def reading (state : ModuleState) (name : String) : Except Failure Value :=
  if state.detached then
    .error (.referenceError ("Cannot access '" ++ name ++ "': module environment is gone"))
  else .ok (state.values name)

/-- What reading a key that is no symbol comes to. -/
def value (state : ModuleState) (k : PropertyKey) : Except Failure Value :=
  if k.text ∈ state.names then state.reading k.text else .ok .undefined

/-- What asking for the property of a key that is no symbol comes to. -/
def property (state : ModuleState) (k : PropertyKey) : Except Failure (Option Descriptor) :=
  if k.text ∈ state.names then
    (state.reading k.text).map fun v => some (.data v true true false)
  else .ok none

end ModuleState

/-- The property of a namespace for a symbol: its tag. -/
def namespaceTag? (s : Symbol) : Option Descriptor :=
  if s = WellKnownSymbol.toStringTag.symbol then some (.frozen (.string "Module")) else none

/-- An internal method comes to a result or a failure, and leaves the realm as it is. -/
def Realm.Answers (realm : Realm H) (host : Host H) (r : Request H)
    (result : Except Failure r.Answer) : Prop :=
  ∀ bound, Gives 3 bound (answer host bound r realm) (realm.outcome result)

/-- What the internal methods of the namespace of a module answer. -/
structure Realm.Views (realm : Realm H) (host : Host H) (ns : ObjectId)
    (state : ModuleState) : Prop where
  getPrototypeOf : realm.Answers host (.getPrototypeOf ns) (.ok none)
  setPrototypeOf : ∀ prototype,
    realm.Answers host (.setPrototypeOf ns prototype) (.ok prototype.isNone)
  isExtensible : realm.Answers host (.isExtensible ns) (.ok false)
  preventExtensions : realm.Answers host (.preventExtensions ns) (.ok true)
  defineOwnProperty : ∀ k d, d.isValid →
    realm.Answers host (.defineOwnProperty ns k d) (.ok false)
  set : ∀ k v receiver, realm.Answers host (.set ns k v receiver) (.ok false)
  delete : ∀ k, realm.Answers host (.delete ns k) (.ok false)
  getOwnProperty : ∀ k, k.isSymbol = false →
    realm.Answers host (.getOwnProperty ns k) (state.property k)
  hasProperty : ∀ k, k.isSymbol = false →
    realm.Answers host (.hasProperty ns k) (.ok (k.text ∈ state.names))
  get : ∀ k receiver, k.isSymbol = false → realm.Answers host (.get ns k receiver) (state.value k)
  getOwnProperty_symbol : ∀ s,
    realm.Answers host (.getOwnProperty ns (.symbol s)) (.ok (namespaceTag? s))
  hasProperty_symbol : ∀ s,
    realm.Answers host (.hasProperty ns (.symbol s)) (.ok (namespaceTag? s).isSome)
  get_symbol : ∀ s receiver, realm.Answers host (.get ns (.symbol s) receiver)
    (.ok ((namespaceTag? s).elim .undefined (·.valueD)))
  /-- The names in ascending order, then the tag. A key that is no symbol is among them exactly if
  its text is an exported name. -/
  ownKeys : ∃ sorted, NamesAscend sorted ∧ (∀ name, name ∈ sorted ↔ name ∈ state.names)
    ∧ (∀ k : PropertyKey, k.isCanonical → k.isSymbol = false →
      (k ∈ sorted.map .ofString ++ [.wellKnown .toStringTag] ↔ k.text ∈ state.names))
    ∧ realm.Answers host (.ownKeys ns)
      (.ok (sorted.map .ofString ++ [.wellKnown .toStringTag]))

/-! ### Exports -/

section Exports

variable {host : Host H} {bound : Nat} {realm : Realm H} {m : ModuleId} {state : ModuleState}
  {e : EnvironmentId} {name : String}

/-- The depth of calls has nothing to do with modules. -/
theorem Realm.Carries.deeper (h : realm.Carries m state e) : realm.deeper.Carries m state e :=
  ⟨h.record, h.current, h.cached, h.shown⟩

theorem NamespaceObject.exportedName_eq (names : List String) (k : PropertyKey) :
    exportedName { module := m, exports := sortNames names } k
      = if k.text ∈ names then some k.text else none := by
  rw [exportedName, findName_eq (namesAscend_sortNames names)]
  simp only [mem_sortNames]

/-- The value of an export is that of the variable, unless the module was cut off from it. -/
theorem NamespaceObject.exportValue_gives (h : realm.Carries m state e)
    (hname : name ∈ state.names) (data : NamespaceData) (hdata : data.module = m) :
    Gives 1 bound ((exportValue data name).run host bound realm)
      (realm.outcome (state.reading name)) := by
  subst hdata
  refine Gives.bindEngine (.of_eq (getModule_of_some h.record)) ?_
  rw [ModuleState.resolveExport_record _ _ hname]
  have hscope : (state.record data.module e).environment
      = if state.detached then none else some e := rfl
  have hfollow {s : Surroundings H} {failure : Failure} :
      (ResolvedExport.follow (.binding data.module (.name name)) failure).act s realm
        = if state.detached then .error (.failure (.referenceError
            ("Cannot access '" ++ name ++ "': module environment is gone"))) realm
          else .ok (.inl (e, name)) realm := by
    refine (Engine.bind_of_ok (getModule_of_some h.record)).trans ?_
    rw [hscope]
    cases state.detached <;> rfl
  cases hd : state.detached with
  | true =>
    rw [ModuleState.reading, hd, if_pos rfl]
    refine Gives.bindEngine_error (.of_eq ?_)
    rw [hfollow, hd]
    rfl
  | false =>
    obtain ⟨environment, hscope, hk, hget⟩ := h.current hd
    have hlexical := Environment.isLexical_of_kind_eq_module hk
    have hb : environment.bindings.get? name
        = (some (Binding.exporting (state.values name))).map .direct :=
      hget name hname
    rw [ModuleState.reading, hd, if_neg Bool.false_ne_true]
    refine Gives.bindEngine (.of_eq (hfollow.trans (by rw [hd]; rfl))) ?_
    exact EnvironmentId.getBindingValue_gives hscope hlexical hb true

end Exports

/-! ### Internal methods -/

section Methods

variable {host : Host H} {bound : Nat} {s : Surroundings H} {realm : Realm H} {m : ModuleId}
  {state : ModuleState} {e : EnvironmentId} {ns : ObjectId} {names : List String}

/-- An internal method that is carried out one level deeper. -/
theorem Realm.Answers.of_nested {r : Request H} {x : Action H r.Answer}
    {result : Except Failure r.Answer} (hr : respond host r = x.nested) (hl : ¬realm.AtLimit)
    (h : ∀ bound, Gives 2 bound (x (.bounded host bound) realm.deeper)
      (realm.deeper.outcome result)) : realm.Answers host r result := by
  intro bound
  refine Gives.answer fun bound => ?_
  rw [hr]
  cases result with
  | ok a => exact .nested hl (h bound)
  | error f => exact .nested_error hl (h bound)

theorem namespace_getKind (ho : realm.object? ns = some (.namespaceOf m names)) :
    (getKind ns).act s realm
      = .ok (.moduleNamespace { module := m, exports := sortNames names }) realm :=
  getKind_of_some ho

theorem NamespaceObject.getData_eq (ho : realm.object? ns = some (.namespaceOf m names)) :
    (getData ns).act s realm = .ok { module := m, exports := sortNames names } realm :=
  Engine.bind_of_ok (namespace_getKind ho)

/-- The only property that a namespace stores is its tag. -/
theorem Ordinary.getOwnProperty_namespace (ho : realm.object? ns = some (.namespaceOf m names))
    (symbol : Symbol) :
    (Ordinary.getOwnProperty ns (.symbol symbol)).act s realm
      = .ok (namespaceTag? symbol) realm := by
  rw [Ordinary.getOwnProperty_of_some ho, Object.namespaceOf, Object.ofKindWith,
    PropertyMap.get?_insert, PropertyKey.wellKnown, namespaceTag?]
  congr 1
  by_cases h : symbol = WellKnownSymbol.toStringTag.symbol
  · rw [if_pos h, if_pos (congrArg PropertyKey.symbol h)]
  · rw [if_neg h, if_neg fun heq => h (PropertyKey.symbol.inj heq)]
    rfl

theorem Dispatch.getOwnProperty_namespace (ho : realm.object? ns = some (.namespaceOf m names))
    (k : PropertyKey) :
    (Dispatch.getOwnProperty ns k).act s realm
      = (NamespaceObject.getOwnProperty ns k).act s realm :=
  Engine.bind_of_ok (namespace_getKind ho)

theorem Dispatch.hasProperty_namespace (ho : realm.object? ns = some (.namespaceOf m names))
    (k : PropertyKey) :
    (Dispatch.hasProperty ns k).act s realm = (NamespaceObject.hasProperty ns k).act s realm :=
  Engine.bind_of_ok (namespace_getKind ho)

theorem Dispatch.get_namespace (ho : realm.object? ns = some (.namespaceOf m names))
    (k : PropertyKey) (receiver : Value) :
    (Dispatch.get ns k receiver).act s realm = (NamespaceObject.get ns k receiver).act s realm :=
  Engine.bind_of_ok (namespace_getKind ho)

/-- The tag of a namespace is found one level deeper. -/
theorem ObjectId.getOwnProperty_namespace_gives
    (ho : realm.object? ns = some (.namespaceOf m names)) (hl : ¬realm.AtLimit) (symbol : Symbol) :
    Gives 1 bound ((ns.getOwnProperty (.symbol symbol)).run host bound realm)
      (.ok (namespaceTag? symbol) realm) := by
  have ho' : realm.deeper.object? ns = some (.namespaceOf m names) := ho
  exact Gives.answer fun _ => .of_eq (Action.nested_of_ok hl
    ((Dispatch.getOwnProperty_namespace ho' _).trans
      (Ordinary.getOwnProperty_namespace ho' symbol)))

/-- A namespace has no prototype. -/
theorem ObjectId.getPrototypeOf_namespace_gives
    (ho : realm.object? ns = some (.namespaceOf m names)) (hl : ¬realm.AtLimit) :
    Gives 1 bound (ns.getPrototypeOf.run host bound realm) (.ok none realm) := by
  have ho' : realm.deeper.object? ns = some (.namespaceOf m names) := ho
  exact Gives.answer fun _ => .of_eq (Action.nested_of_ok hl
    (Engine.bind_of_ok (namespace_getKind ho')))

theorem Ordinary.hasProperty_namespace_gives
    (ho : realm.object? ns = some (.namespaceOf m names)) (hl : ¬realm.AtLimit) (symbol : Symbol) :
    Gives 1 bound ((Ordinary.hasProperty ns (.symbol symbol)).run host bound realm)
      (.ok (namespaceTag? symbol).isSome realm) := by
  refine Gives.bindEngine (ObjectId.getOwnProperty_namespace_gives ho hl symbol) ?_
  cases namespaceTag? symbol with
  | some d => exact .of_eq rfl
  | none => exact Gives.bindEngine (ObjectId.getPrototypeOf_namespace_gives ho hl) (.of_eq rfl)

theorem Ordinary.get_namespace_gives (ho : realm.object? ns = some (.namespaceOf m names))
    (hl : ¬realm.AtLimit) (symbol : Symbol) (receiver : Value) :
    Gives 1 bound ((Ordinary.get ns (.symbol symbol) receiver).run host bound realm)
      (.ok ((namespaceTag? symbol).elim .undefined (·.valueD)) realm) := by
  refine Gives.bindEngine (ObjectId.getOwnProperty_namespace_gives ho hl symbol) ?_
  by_cases h : symbol = WellKnownSymbol.toStringTag.symbol
  · rw [namespaceTag?, if_pos h]
    exact .of_eq rfl
  · rw [namespaceTag?, if_neg h]
    exact Gives.bindEngine (ObjectId.getPrototypeOf_namespace_gives ho hl) (.of_eq rfl)

/-- Reading a key that is no symbol. -/
theorem NamespaceObject.get_gives (h : realm.Carries m state e)
    (ho : realm.object? ns = some (.namespaceOf m state.names)) {k : PropertyKey}
    (hk : k.isSymbol = false) (receiver : Value) :
    Gives 1 bound ((NamespaceObject.get ns k receiver).run host bound realm)
      (realm.outcome (state.value k)) := by
  unfold NamespaceObject.get
  rw [hk, if_neg Bool.false_ne_true]
  refine Gives.bindEngine (.of_eq (getData_eq ho)) ?_
  rw [exportedName_eq, ModuleState.value]
  by_cases hname : k.text ∈ state.names
  · rw [if_pos hname, if_pos hname]
    exact exportValue_gives h hname _ rfl
  · rw [if_neg hname, if_neg hname]
    exact .of_eq rfl

/-- The property of a key that is no symbol. -/
theorem NamespaceObject.getOwnProperty_gives (h : realm.Carries m state e)
    (ho : realm.object? ns = some (.namespaceOf m state.names)) {k : PropertyKey}
    (hk : k.isSymbol = false) :
    Gives 1 bound ((NamespaceObject.getOwnProperty ns k).run host bound realm)
      (realm.outcome (state.property k)) := by
  unfold NamespaceObject.getOwnProperty
  rw [hk, if_neg Bool.false_ne_true]
  refine Gives.bindEngine (.of_eq (getData_eq ho)) ?_
  rw [exportedName_eq, ModuleState.property]
  by_cases hname : k.text ∈ state.names
  · rw [if_pos hname, if_pos hname]
    have hvalue : Gives 1 bound ((exportValue { module := m, exports := sortNames state.names }
        k.text).run host bound realm) (realm.outcome (state.reading k.text)) :=
      exportValue_gives h hname _ rfl
    cases hr : state.reading k.text with
    | ok v =>
      rw [hr] at hvalue
      exact hvalue.bindEngine (.of_eq rfl)
    | error f =>
      rw [hr] at hvalue
      exact hvalue.bindEngine_error
  · rw [if_neg hname, if_neg hname]
    exact .of_eq rfl

/-- Whether there is a key that is no symbol. -/
theorem NamespaceObject.hasProperty_eq (ho : realm.object? ns = some (.namespaceOf m names))
    {k : PropertyKey} (hk : k.isSymbol = false) :
    (NamespaceObject.hasProperty ns k).act s realm = .ok (decide (k.text ∈ names)) realm := by
  unfold NamespaceObject.hasProperty
  rw [hk, if_neg Bool.false_ne_true, Engine.bind_of_ok (getData_eq ho), exportedName_eq]
  by_cases hname : k.text ∈ names
  · rw [if_pos hname, decide_eq_true hname]
    rfl
  · rw [if_neg hname, decide_eq_false hname]
    rfl

/-- The keys are the names in ascending order and the tag. -/
theorem NamespaceObject.ownKeys_eq (ho : realm.object? ns = some (.namespaceOf m names)) :
    (NamespaceObject.ownKeys ns).act s realm
      = .ok ((sortNames names).map .ofString ++ [.wellKnown .toStringTag]) realm := by
  refine (Engine.bind_of_ok (getData_eq ho)).trans ?_
  have hkeys : (Ordinary.ownKeys ns).act s realm = .ok [.wellKnown .toStringTag] realm :=
    Engine.bind_of_ok (getObject_of_some ho)
  exact Engine.bind_of_ok hkeys

end Methods

/-- A key that is no symbol is among the keys of names exactly if its text is one of the names. -/
theorem mem_namespaceKeys {names : List String} {k : PropertyKey} (hk : k.isCanonical)
    (hs : k.isSymbol = false) :
    k ∈ names.map .ofString ++ [.wellKnown .toStringTag] ↔ k.text ∈ names := by
  have htag : k ≠ .wellKnown .toStringTag := by
    rintro rfl
    cases hs
  rw [List.mem_append, List.mem_singleton, or_iff_left htag, List.mem_map]
  constructor
  · rintro ⟨name, hname, rfl⟩
    rwa [PropertyKey.text_ofString]
  · exact fun htext => ⟨k.text, htext, PropertyKey.ofString_text hk hs⟩

section Views

variable {host : Host H} {realm : Realm H} {m : ModuleId} {state : ModuleState}
  {e : EnvironmentId} {ns : ObjectId}

/-- A namespace shows what its module is, where there is room for two more levels of calls. -/
theorem Realm.Carries.views (host : Host H) (h : realm.Carries m state e)
    (hshown : state.shown? = some ns) (hl : ¬realm.AtLimit) (hl' : ¬realm.deeper.AtLimit) :
    realm.Views host ns state := by
  have hd := h.deeper
  have ho : realm.deeper.object? ns = some (.namespaceOf m state.names) := hd.shown ns hshown
  exact {
    getPrototypeOf := .of_nested rfl hl fun _ => .of_eq (Engine.bind_of_ok (namespace_getKind ho))
    setPrototypeOf := fun prototype => .of_nested rfl hl fun _ =>
      .of_eq (Action.bind_of_ok (namespace_getKind ho))
    isExtensible := .of_nested rfl hl fun _ => .of_eq (Engine.bind_of_ok (namespace_getKind ho))
    preventExtensions := .of_nested rfl hl fun _ =>
      .of_eq (Action.bind_of_ok (namespace_getKind ho))
    defineOwnProperty := fun k d hvalid bound => gives_answer_define hvalid hl fun _ =>
      .of_eq (Action.bind_of_ok (namespace_getKind ho))
    set := fun k v receiver => .of_nested rfl hl fun _ =>
      .of_eq (Engine.bind_of_ok (namespace_getKind ho))
    delete := fun k => .of_nested rfl hl fun _ => .of_eq (Action.bind_of_ok (namespace_getKind ho))
    getOwnProperty := fun k hk => .of_nested rfl hl fun _ => by
      rw [Dispatch.getOwnProperty_namespace ho k]
      exact (NamespaceObject.getOwnProperty_gives hd ho hk).mono (by decide)
    hasProperty := fun k hk => .of_nested rfl hl fun _ =>
      .of_eq ((Dispatch.hasProperty_namespace ho k).trans (NamespaceObject.hasProperty_eq ho hk))
    get := fun k receiver hk => .of_nested rfl hl fun _ => by
      rw [Dispatch.get_namespace ho k receiver]
      exact (NamespaceObject.get_gives hd ho hk receiver).mono (by decide)
    getOwnProperty_symbol := fun symbol => .of_nested rfl hl fun _ =>
      .of_eq ((Dispatch.getOwnProperty_namespace ho _).trans
        (Ordinary.getOwnProperty_namespace ho symbol))
    hasProperty_symbol := fun symbol => .of_nested rfl hl fun _ => by
      rw [Dispatch.hasProperty_namespace ho]
      exact (Ordinary.hasProperty_namespace_gives ho hl' symbol).mono (by decide)
    get_symbol := fun symbol receiver => .of_nested rfl hl fun _ => by
      rw [Dispatch.get_namespace ho]
      exact (Ordinary.get_namespace_gives ho hl' symbol receiver).mono (by decide)
    ownKeys := ⟨sortNames state.names, namesAscend_sortNames _, fun _ => mem_sortNames,
      fun k hk hs => (mem_namespaceKeys hk hs).trans mem_sortNames,
      .of_nested rfl hl fun _ => .of_eq ((Engine.bind_of_ok (namespace_getKind ho)).trans
        (NamespaceObject.ownKeys_eq ho))⟩ }

/-- In a session every operation on modules ends, with the answer and the change that the history of
the modules tells: a namespace is made once and is the same from then on. Namespaces of different
modules differ, and each shows what has become of its module: its exports in ascending order, with
the values that were set last, or failures once the module was cut off from its variables. Nothing
that is done to a namespace changes it, or anything else. -/
theorem namespaces_follow_history {history : ModuleHistory}
    (hs : ModuleSession host realm history) :
    (∀ request, history.Admits request → ∃ after,
      (∀ bound, Gives 2 bound (request.perform.run host bound realm) (after.outcome
        (history.response ⟨realm.modules.size⟩ ⟨realm.heap.size⟩ request).1))
      ∧ ModuleSession host after
        ((history.response ⟨realm.modules.size⟩ ⟨realm.heap.size⟩ request).2 ++ history)
      ∧ ((history.response ⟨realm.modules.size⟩ ⟨realm.heap.size⟩ request).2 = []
        → after = realm))
    ∧ (∀ m state ns, history.state? m = some state → state.shown? = some ns →
      ¬realm.AtLimit → ¬realm.deeper.AtLimit → realm.Views host ns state)
    ∧ ∀ m m' state state' ns, history.state? m = some state → history.state? m' = some state' →
      state.shown? = some ns → state'.shown? = some ns → m = m' := by
  have hhosts := hs.hosts
  refine ⟨fun request ha => ?_, fun m state ns hstate hshown hl hl' => ?_,
    fun m m' state state' ns hstate hstate' hshown hshown' => ?_⟩
  · obtain ⟨after, hx, -, hkeep⟩ := hhosts.performs host ha
    have he : EndsIn (request.perform.run host 2 realm) after := by
      rw [(hx 2).eq_of_le (Nat.le_refl _)]
      exact after.endsIn_outcome _
    exact ⟨after, hx, hs.perform ha he, hkeep⟩
  · obtain ⟨e, hcarries⟩ := hhosts.carries m state hstate
    exact hcarries.views host hshown hl hl'
  · obtain ⟨e, hcarries⟩ := hhosts.carries m state hstate
    obtain ⟨e', hcarries'⟩ := hhosts.carries m' state' hstate'
    have hsame := (hcarries.shown ns hshown).symm.trans (hcarries'.shown ns hshown')
    have hkind := congrArg Object.kind (Option.some.inj hsame)
    simp only [Object.namespaceOf, Object.ofKindWith, ObjectKind.moduleNamespace.injEq,
      NamespaceData.mk.injEq] at hkind
    exact hkind.1

end Views

/-- A module with a name given twice, its namespace, and the value of an export set after that. -/
def exportHistory : ModuleHistory :=
  [(⟨0⟩, .exported "a" (.nat 1)), (⟨0⟩, .shown ⟨0⟩), (⟨0⟩, .created ["b", "a", "b"])]

theorem exists_moduleSession_exportHistory :
    ∃ realm : Realm HostTypes.bare, ModuleSession Host.bare realm exportHistory
      ∧ ¬realm.AtLimit ∧ ¬realm.deeper.AtLimit := by
  have step {realm after : Realm HostTypes.bare} {history : ModuleHistory} {a : ModuleAnswer}
      (request : ModuleRequest) (h : ModuleSession Host.bare realm history)
      (ha : history.Admits request) (hx : request.perform.run Host.bare 2 realm = .ok a after) :
      ModuleSession Host.bare after _ :=
    h.perform ha (.inl ⟨a, hx⟩)
  have start : ModuleSession Host.bare { store := (), config := { maxCallDepth := 0 } } [] :=
    .start fun _ h => nomatch h
  have created := step (.create ["b", "a", "b"]) start trivial rfl
  have shown_ := step (.getNamespace ⟨0⟩) created rfl rfl
  have exported := step (.setExport ⟨0⟩ "a" (.nat 1)) shown_ rfl rfl
  exact ⟨_, exported, by decide, by decide⟩

/-- The namespace shows the value that was set after it was made. -/
theorem namespaces_follow_history_export :
    ∃ realm : Realm HostTypes.bare, ModuleSession Host.bare realm exportHistory
      ∧ realm.Answers Host.bare (.get ⟨0⟩ (.string "a") .undefined) (.ok (.nat 1)) := by
  obtain ⟨realm, hs, hl, hl'⟩ := exists_moduleSession_exportHistory
  obtain ⟨-, hviews, -⟩ := namespaces_follow_history hs
  exact ⟨realm, hs, (hviews ⟨0⟩ _ ⟨0⟩ rfl rfl hl hl').get (.string "a") .undefined rfl⟩

end ScriptEngine
