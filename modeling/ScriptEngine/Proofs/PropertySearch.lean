import ScriptEngine.Proofs.Assignment
import ScriptEngine.Proofs.ModuleNamespace
import ScriptEngine.Proofs.Transparency

/-!
# Where a search for a property ends

Looking for a property and reading it follow the chain of prototypes, one level of calls deeper for
each object on it. Where the search runs no code of the program, its outcome is known with the depth
that it takes. That a property is nowhere on a chain can also be said of namespaces and of proxies
that have no trap for the question, for these hand it on.

## Main definitions

* `Realm.push`: a realm with one object more.
* `Realm.Retains`: a realm in which every object of another one is as it was.
* `Realm.Lacks`: a property is nowhere on a chain.

## Main results

* `Realm.FindsAfter.hasProperty_gives`, `Realm.FindsAfter.getFor_gives`: the outcome of a search.
* `Realm.Lacks.hasProperty_gives`: a property that is nowhere is not found.
* `Realm.Finds.exists_findsAfter`: a search that ends meets no object twice.
* `Realm.FindsAfter.retained`, `Realm.Lacks.retained`: what a larger heap does not change.
-/

namespace ScriptEngine

open Engine

variable {H : HostTypes}

/-! ### Larger heaps -/

/-- Every object of a realm is an object of another one, and as it was. -/
def Realm.Retains (realm after : Realm H) : Prop :=
  ∀ o object, realm.object? o = some object → after.object? o = some object

namespace Realm

variable {realm after : Realm H} {o : ObjectId} {object : Object H} {k : PropertyKey}
  {n : Nat} {found : Option Descriptor}

/-- A realm with one object more. -/
def push (realm : Realm H) (object : Object H) : Realm H :=
  { realm with heap := realm.heap.push object }

theorem object?_push (realm : Realm H) (object : Object H) (o : ObjectId) :
    (realm.push object).object? o
      = if o.index = realm.heap.size then some object else realm.object? o :=
  Array.getElem?_push

theorem object?_push_self (realm : Realm H) (object : Object H) :
    (realm.push object).object? ⟨realm.heap.size⟩ = some object := by
  rw [object?_push, if_pos rfl]

theorem retains_push (realm : Realm H) (object : Object H) :
    realm.Retains (realm.push object) := by
  intro o existing ho
  rw [object?_push, if_neg (Nat.ne_of_lt (index_lt_of_object? ho))]
  exact ho

/-- What can be called can be called still. -/
theorem Retains.isCallable {v : Value} (h : realm.Retains after) (hv : realm.isCallable v) :
    after.isCallable v := by
  cases v with
  | object o =>
    obtain ⟨kind, hkind, hc⟩ := Option.any_eq_true _ _ |>.mp hv
    obtain ⟨object, ho, rfl⟩ := Option.map_eq_some_iff.mp hkind
    change (after.kind? o).any ObjectKind.isCallable
    rw [kind?, h o object ho]
    exact hc
  | _ => cases hv

/-- A search that ended ends as it did. -/
theorem FindsAfter.retained (h : realm.FindsAfter k n o found) (hr : realm.Retains after) :
    after.FindsAfter k n o found := by
  induction h with
  | own ho hp hk => exact .own (hr _ _ ho) hp hk
  | missing ho hp hk hn => exact .missing (hr _ _ ho) hp hk hn
  | inherited ho hp hk hn _ ih => exact .inherited (hr _ _ ho) hp hk hn ih

/-- A search that does not come by an object ends as it did, whatever becomes of the object. -/
theorem FindsAfter.putObject {p : ObjectId} (h : realm.FindsAfter k n p found)
    (hnot : ∀ m ≤ n, ¬realm.FindsAfter k m o found) (object : Object H) :
    (realm.putObject o object).FindsAfter k n p found := by
  have hstays {m : Nat} {q : ObjectId} {existing : Object H} (hm : m ≤ n)
      (hq : realm.object? q = some existing) (hfinds : realm.FindsAfter k m q found) :
      (realm.putObject o object).object? q = some existing := by
    refine (object?_putObject_of_ne ?_).trans hq
    rintro rfl
    exact hnot m hm hfinds
  induction h with
  | own ho hp hk => exact .own (hstays (Nat.le_refl 0) ho (.own ho hp hk)) hp hk
  | missing ho hp hk hn =>
    exact .missing (hstays (Nat.le_refl 0) ho (.missing ho hp hk hn)) hp hk hn
  | inherited ho hp hk hn hrest ih =>
    refine .inherited (hstays (Nat.le_refl _) ho (.inherited ho hp hk hn hrest)) hp hk hn ?_
    exact ih (fun m hm => hnot m (Nat.le_succ_of_le hm)) fun hm => hstays (Nat.le_succ_of_le hm)

/-- A search ends as it did after a change of an object that does not matter to the search. -/
theorem FindsAfter.putObject_of_alike {q : ObjectId} {object' : Object H}
    (h : realm.FindsAfter k n q found) (ho : realm.object? o = some object)
    (hplain : object'.kind.isPlain = object.kind.isPlain)
    (hown : object'.ownProperty? k = object.ownProperty? k)
    (hproto : object'.prototype = object.prototype) :
    (realm.putObject o object').FindsAfter k n q found := by
  have hstep {q : ObjectId} {existing : Object H} (hq : realm.object? q = some existing) :
      ∃ after, (realm.putObject o object').object? q = some after
        ∧ after.kind.isPlain = existing.kind.isPlain
        ∧ after.ownProperty? k = existing.ownProperty? k
        ∧ after.prototype = existing.prototype := by
    by_cases heq : q = o
    · subst heq
      cases ho.symm.trans hq
      exact ⟨object', object?_putObject_self ho, hplain, hown, hproto⟩
    · exact ⟨existing, (object?_putObject_of_ne heq).trans hq, rfl, rfl, rfl⟩
  induction h with
  | own hq hp hd =>
    obtain ⟨after, hafter, hkind, hown, -⟩ := hstep hq
    exact .own hafter (hkind.trans hp) (hown.trans hd)
  | missing hq hp hd hn =>
    obtain ⟨after, hafter, hkind, hown, hproto⟩ := hstep hq
    exact .missing hafter (hkind.trans hp) (hown.trans hd) (hproto.trans hn)
  | inherited hq hp hd hn _ ih =>
    obtain ⟨after, hafter, hkind, hown, hproto⟩ := hstep hq
    exact .inherited hafter (hkind.trans hp) (hown.trans hd) (hproto.trans hn) ih

end Realm

/-! ### The length of a search -/

namespace Realm

variable {realm : Realm H} {k : PropertyKey} {o : ObjectId} {found : Option Descriptor}

/-- The objects that a search meets are different ones. -/
theorem Finds.exists_trail (h : realm.Finds k o found) :
    ∃ ids : List ObjectId, realm.FindsAfter k ids.length o found ∧ (o :: ids).Nodup
      ∧ ∀ p ∈ o :: ids, p.index < realm.heap.size
        ∧ ∃ m ≤ ids.length, realm.FindsAfter k m p found := by
  induction h with
  | own ho hp hk =>
    refine ⟨[], .own ho hp hk, List.nodup_singleton _, fun p hmem => ?_⟩
    obtain rfl := List.mem_singleton.mp hmem
    exact ⟨index_lt_of_object? ho, 0, Nat.le_refl 0, .own ho hp hk⟩
  | missing ho hp hk hn =>
    refine ⟨[], .missing ho hp hk hn, List.nodup_singleton _, fun p hmem => ?_⟩
    obtain rfl := List.mem_singleton.mp hmem
    exact ⟨index_lt_of_object? ho, 0, Nat.le_refl 0, .missing ho hp hk hn⟩
  | @inherited o parent object found ho hp hk hn _ ih =>
    obtain ⟨ids, hfinds, hnodup, hmem⟩ := ih
    have hfinds' : realm.FindsAfter k (ids.length + 1) o found := .inherited ho hp hk hn hfinds
    refine ⟨parent :: ids, hfinds', List.nodup_cons.mpr ⟨fun ho => ?_, hnodup⟩,
      List.forall_mem_cons.mpr ⟨⟨index_lt_of_object? ho, _, Nat.le_refl _, hfinds'⟩,
        fun p hp => ?_⟩⟩
    · -- were the object met again, its search would be shorter than it is
      obtain ⟨-, m, hm, hagain⟩ := hmem o ho
      have := (hagain.unique hfinds').1
      omega
    · obtain ⟨hlt, m, hm, hagain⟩ := hmem p hp
      exact ⟨hlt, m, Nat.le_succ_of_le hm, hagain⟩

/-- A search that ends goes over fewer prototypes than there are objects. -/
theorem Finds.exists_findsAfter (h : realm.Finds k o found) :
    ∃ n, n < realm.heap.size ∧ realm.FindsAfter k n o found := by
  obtain ⟨ids, hfinds, hnodup, hmem⟩ := h.exists_trail
  exact ⟨ids.length, length_le_of_nodup hnodup fun p hp => (hmem p hp).1, hfinds⟩

end Realm

namespace Realm

variable {realm after : Realm H} {o : ObjectId} {object : Object H} {k : PropertyKey} {n : Nat}
  {found : Option Descriptor}

/-! ### The whole search -/

namespace FindsAfter

variable {host : Host H} {bound : Nat} {receiver : Value}

/-- A property exists if the search finds one. -/
theorem hasProperty_gives (h : realm.FindsAfter k n o found) (depth : Nat)
    (hl : ¬(realm.atDepth (depth + n + 1)).AtLimit) :
    Gives (n + 2) bound
      ((o.hasProperty k).act (.bounded host bound) (realm.atDepth depth))
      (.ok found.isSome (realm.atDepth depth)) :=
  (h.request_gives (ObjectId.searches_hasProperty host k) depth hl (Nat.le_refl 1)
    fun _ => .of_eq rfl).mono (by omega)

/-- Reading a property comes down to the value of what is found. -/
theorem getFor_leads {need : Nat} {v : Value} (h : realm.FindsAfter k n o found) (depth : Nat)
    (hl : ¬(realm.atDepth (depth + n + 1)).AtLimit) (hneed : 1 ≤ need)
    (hvalue : ∀ bound, Gives need bound
      ((found.elim (pure .undefined) (Ordinary.valueFor · receiver) : Engine H Value).act
        (.bounded host bound) (realm.atDepth (depth + n + 1)))
      (.ok v (after.atDepth (depth + n + 1)))) :
    Gives (need + n + 1) bound
      ((o.getFor k receiver).act (.bounded host bound) (realm.atDepth depth))
      (.ok v (after.atDepth depth)) :=
  h.request_gives (ObjectId.searches_getFor host k receiver) depth hl hneed hvalue

/-- The value of a data property is the one that the search finds. -/
theorem getFor_gives (h : realm.FindsAfter k n o found) (hdata : ∀ d, found = some d → d.isData)
    (depth : Nat) (hl : ¬(realm.atDepth (depth + n + 1)).AtLimit) :
    Gives (n + 2) bound
      ((o.getFor k receiver).act (.bounded host bound) (realm.atDepth depth))
      (.ok (found.elim .undefined Descriptor.valueD) (realm.atDepth depth)) := by
  refine (h.getFor_leads depth hl (Nat.le_refl 1) fun bound => .of_eq ?_).mono (by omega)
  cases hfound : found with
  | none => rfl
  | some d =>
    simp only [Option.elim_some, Ordinary.valueFor, hdata d hfound, if_true]
    rfl

end FindsAfter

/-! ### Properties that are nowhere -/

/-- A property is nowhere on the chain of prototypes that begins with an object. A namespace has no
prototype, and its properties are its exports; a proxy hands the question to its target if its
handler has no trap for it. The number bounds the levels of calls that the question goes down. -/
inductive Lacks (realm : Realm H) (k : PropertyKey) : Nat → ObjectId → Prop
  | last {n : Nat} {o : ObjectId} {object : Object H} (ho : realm.object? o = some object)
      (hp : object.kind.isPlain) (hk : object.ownProperty? k = none)
      (hn : object.prototype = none) : Lacks realm k n o
  | next {n : Nat} {o parent : ObjectId} {object : Object H} (ho : realm.object? o = some object)
      (hp : object.kind.isPlain) (hk : object.ownProperty? k = none)
      (hn : object.prototype = some parent) (h : Lacks realm k n parent) :
      Lacks realm k (n + 1) o
  | module {n : Nat} {o : ObjectId} {object : Object H} {data : NamespaceData}
      (ho : realm.object? o = some object) (hkind : object.kind = .moduleNamespace data)
      (hs : k.isSymbol = false) (hk : NamespaceObject.exportedName data k = none) :
      Lacks realm k n o
  | proxy {m n : Nat} {o target handler : ObjectId} {trap : Option Descriptor}
      (hp : realm.Forwards o target handler)
      (htrap : realm.FindsAfter (.ofString "has") m handler trap)
      (hdata : ∀ d, trap = some d → d.isData ∧ d.valueD.isNullish) (hm : m ≤ n)
      (h : Lacks realm k n target) : Lacks realm k (n + 1) o

namespace Lacks

theorem retained (h : realm.Lacks k n o) (hr : realm.Retains after) : after.Lacks k n o := by
  induction h with
  | last ho hp hk hn => exact .last (hr _ _ ho) hp hk hn
  | next ho hp hk hn _ ih => exact .next (hr _ _ ho) hp hk hn ih
  | module ho hkind hs hk => exact .module (hr _ _ ho) hkind hs hk
  | proxy hp htrap hdata hm _ ih =>
    obtain ⟨object, callable, isConstructor, ho, hkind⟩ := hp
    exact .proxy ⟨object, callable, isConstructor, hr _ _ ho, hkind⟩ (htrap.retained hr) hdata hm ih

variable {host : Host H} {bound : Nat}

/-- A trap that is searched for and is not there. -/
theorem getMethod?_gives {m depth : Nat} {handler : ObjectId} {trap : Option Descriptor}
    (htrap : realm.FindsAfter k m handler trap)
    (hdata : ∀ d, trap = some d → d.isData ∧ d.valueD.isNullish)
    (hl : ¬(realm.atDepth (depth + m + 1)).AtLimit) :
    Gives (m + 2) bound
      (((Value.object handler).getMethod? k).act (.bounded host bound) (realm.atDepth depth))
      (.ok none (realm.atDepth depth)) := by
  refine Gives.bindEngine
    (htrap.getFor_gives (fun d hd => (hdata d hd).1) depth hl) (.of_eq ?_)
  have hnullish : (trap.elim Value.undefined Descriptor.valueD).isNullish := by
    cases trap with
    | none => rfl
    | some d => exact (hdata d rfl).2
  rw [if_pos hnullish]
  rfl

/-- A property that is nowhere is not found. -/
theorem hasProperty_gives (h : realm.Lacks k n o) (depth : Nat)
    (hl : ¬(realm.atDepth (depth + n + 1)).AtLimit) :
    Gives (n + 2) bound ((o.hasProperty k).act (.bounded host bound) (realm.atDepth depth))
      (.ok false (realm.atDepth depth)) := by
  have hs := ObjectId.searches_hasProperty host k
  induction h generalizing depth bound with
  | @last n o object ho hp hk hn =>
    have hl' : ¬(realm.atDepth (depth + 1)).AtLimit := fun h => hl (atLimit_of_le (by omega) h)
    have hneed : 1 ≤ n + 1 := Nat.le_add_left 1 n
    refine hs.gives_step (ho : (realm.atDepth depth).object? _ = _) hp hl' hneed fun bound => ?_
    rw [Object.search, hk, hn]
    exact .of_eq rfl
  | @next n o parent object ho hp hk hn _ ih =>
    have hdepth : depth + 1 + n + 1 = depth + (n + 1) + 1 := by omega
    have hl' : ¬(realm.atDepth (depth + 1)).AtLimit := fun h => hl (atLimit_of_le (by omega) h)
    have hneed : 1 ≤ n + 2 := by omega
    refine hs.gives_step (ho : (realm.atDepth depth).object? _ = _) hp hl' hneed fun bound => ?_
    rw [Object.search, hk, hn]
    exact ih (depth + 1) (hdepth ▸ hl)
  | @module n o object data ho hkind hs hk =>
    have ho' : (realm.atDepth depth).deeper.object? o = some object := ho
    refine Gives.answer fun bound => .nested (fun h => hl (atLimit_of_le (by omega) h)) (.of_eq ?_)
    have hof := getKind_of_some (s := .bounded host bound) ho'
    rw [hkind] at hof
    refine (Engine.bind_of_ok hof).trans ?_
    unfold NamespaceObject.hasProperty
    rw [if_neg (by simp [hs])]
    refine (Engine.bind_of_ok (a := data) (Engine.bind_of_ok hof)).trans ?_
    rw [hk]
    rfl
  | @proxy m n o target handler trap hp htrap hdata hm _ ih =>
    have hdepth : depth + 1 + n + 1 = depth + (n + 1) + 1 := by omega
    obtain ⟨object, callable, isConstructor, ho, hkind⟩ := hp
    refine Gives.answer fun bound => .nested (fun h => hl (atLimit_of_le (by omega) h)) ?_
    have hof : (getKind o).act (.bounded host bound) (realm.atDepth (depth + 1)) = _ :=
      getKind_of_some ho
    refine Gives.bindEngine (.of_eq hof) ?_
    rw [hkind]
    refine Gives.bindEngine (.of_eq hof) ?_
    rw [hkind]
    refine Gives.bindEngine ((getMethod?_gives htrap hdata
      fun h => hl (atLimit_of_le (by omega) h)).mono (by omega)) ?_
    exact ih (depth + 1) (hdepth ▸ hl)

end Lacks

end Realm

end ScriptEngine
