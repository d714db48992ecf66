import Mathlib.Data.List.Nodup
import Mathlib.Data.List.Perm.Subperm
import ScriptEngine.Evaluation
import ScriptEngine.Proofs.PlainObject

/-!
# Chains of prototypes end

Who follows prototypes from object to object, and stops at proxies, comes to an end. No object says
so by itself. It holds because handles are given out by the heap alone, so that a new object finds
its prototype there already, and because a prototype is replaced only after the chain from the new
one on has been walked and found not to come back. Disposing of the realm takes the objects from the
heap and leaves the handles; what is made with those afterwards may inherit from itself.

## Main definitions

* `Realm.Chain`: the objects that are met when prototypes are followed.
* `Realm.Issued`: the realms that arise when new objects get prototypes the heap has given out.
* `Realm.Founded`: all handles are of objects on the heap, and every chain of prototypes ends.

## Main results

* `Realm.Chain.nodup`, `Realm.Chain.length_le`: a chain meets each object of the heap at most once.
* `Realm.Chain.reaches_eq`: whether the walk along a chain meets an object, with fuel to spare.
* `Realm.Founded.step`, `Realm.Issued.founded`: chains end in every realm that arises, unless it
  has been disposed of.
* `Ordinary.setPrototypeOf_eq`: when a prototype is replaced.
* `not_chains_end`: a realm that has been disposed of, with an object that inherits from itself.
-/

namespace ScriptEngine

open Engine

variable {H : HostTypes}

namespace Realm

variable {realm after : Realm H} {o : ObjectId} {object : Object H} {p : Option ObjectId}
  {ids : List ObjectId} {n : Nat}

/-! ### Chains -/

/-- The objects that are met when prototypes are followed from `p` on, up to the first that has none
or the first proxy. -/
inductive Chain (realm : Realm H) : Option ObjectId → List ObjectId → Prop
  | null : Chain realm none []
  | proxy {o : ObjectId} {object : Object H} (ho : realm.object? o = some object)
      (hk : object.kind.isProxy = true) : Chain realm (some o) [o]
  | next {o : ObjectId} {object : Object H} {ids : List ObjectId}
      (ho : realm.object? o = some object) (hk : object.kind.isProxy = false)
      (h : Chain realm object.prototype ids) : Chain realm (some o) (o :: ids)

/-- A list of different objects is no longer than the heap. -/
theorem length_le_of_nodup (hnodup : ids.Nodup) (h : ∀ o ∈ ids, o.index < realm.heap.size) :
    ids.length ≤ realm.heap.size := by
  have hindices : (ids.map ObjectId.index).Nodup :=
    hnodup.map fun a b hab => by
      cases a
      cases b
      exact congrArg ObjectId.mk hab
  have hsub : ids.map ObjectId.index ⊆ List.range realm.heap.size := by
    intro i hi
    obtain ⟨o, ho, rfl⟩ := List.mem_map.mp hi
    exact List.mem_range.mpr (h o ho)
  simpa using (List.subperm_of_subset hindices hsub).length_le

namespace Chain

/-- There is one way to follow prototypes. -/
theorem unique {ids' : List ObjectId} (h : realm.Chain p ids) (h' : realm.Chain p ids') :
    ids = ids' := by
  induction h generalizing ids' with
  | null =>
    cases h'
    rfl
  | proxy ho hk =>
    cases h' with
    | proxy => rfl
    | next ho' hk' =>
      cases ho.symm.trans ho'
      cases hk.symm.trans hk'
  | next ho hk _ ih =>
    cases h' with
    | proxy ho' hk' =>
      cases ho.symm.trans ho'
      cases hk.symm.trans hk'
    | next ho' hk' h' =>
      cases ho.symm.trans ho'
      rw [ih h']

/-- From each object that is met, the rest of the chain leads on. -/
theorem of_mem (h : realm.Chain p ids) (ho : o ∈ ids) :
    ∃ rest, rest.length < ids.length ∧ realm.Chain (some o) (o :: rest) := by
  induction h with
  | null => cases ho
  | proxy hm hk =>
    obtain rfl := List.mem_singleton.mp ho
    exact ⟨[], Nat.one_pos, .proxy hm hk⟩
  | @next _ _ ids hm hk h ih =>
    rcases List.mem_cons.mp ho with rfl | ho
    · exact ⟨ids, Nat.lt_succ_self _, .next hm hk h⟩
    · obtain ⟨rest, hlt, hrest⟩ := ih ho
      exact ⟨rest, Nat.lt_trans hlt (Nat.lt_succ_self _), hrest⟩

/-- A chain that ends does not come back. -/
theorem nodup (h : realm.Chain p ids) : ids.Nodup := by
  induction h with
  | null => exact List.nodup_nil
  | proxy => exact List.nodup_singleton _
  | next ho hk h ih =>
    refine List.nodup_cons.mpr ⟨fun hmem => ?_, ih⟩
    -- from the object on, the chain would be shorter than it is
    obtain ⟨rest, hlt, hrest⟩ := h.of_mem hmem
    have heq := (List.cons.inj (hrest.unique (.next ho hk h))).2
    exact absurd (heq ▸ hlt) (Nat.lt_irrefl _)

theorem index_lt (h : realm.Chain p ids) (ho : o ∈ ids) : o.index < realm.heap.size := by
  obtain ⟨rest, -, hrest⟩ := h.of_mem ho
  cases hrest with
  | proxy hm => exact (Array.getElem?_eq_some_iff.mp hm).1
  | next hm => exact (Array.getElem?_eq_some_iff.mp hm).1

/-- A chain is no longer than the heap. -/
theorem length_le (h : realm.Chain p ids) : ids.length ≤ realm.heap.size :=
  length_le_of_nodup h.nodup fun _ ho => h.index_lt ho

/-- The walk along a chain meets the objects of the chain, and the fuel does not decide. -/
theorem reaches_eq {fuel : Nat} (h : realm.Chain p ids) (o : ObjectId) (hf : ids.length ≤ fuel) :
    realm.reaches o fuel p = .ok (decide (o ∈ ids)) := by
  induction h generalizing fuel with
  | null => cases fuel <;> rfl
  | @proxy q object hq hk =>
    obtain ⟨fuel, rfl⟩ := Nat.exists_eq_succ_of_ne_zero (Nat.ne_of_gt hf)
    by_cases heq : q = o
    · simp [reaches, heq]
    · simp [reaches, heq, hq, hk, Ne.symm heq]
  | @next q object ids hq hk _ ih =>
    obtain ⟨fuel, rfl⟩ := Nat.exists_eq_succ_of_ne_zero
      (Nat.ne_of_gt (Nat.lt_of_lt_of_le (Nat.succ_pos _) hf))
    by_cases heq : q = o
    · simp [reaches, heq]
    · simp [reaches, heq, hq, hk, ih (Nat.le_of_succ_le_succ hf), Ne.symm heq]

/-- A chain is the same where its objects link on as they did. -/
theorem mono (h : realm.Chain p ids)
    (hlink : ∀ q ∈ ids, ∀ object, realm.object? q = some object →
      ∃ object', after.object? q = some object'
        ∧ object'.kind.isProxy = object.kind.isProxy ∧ object'.prototype = object.prototype) :
    after.Chain p ids := by
  induction h with
  | null => exact .null
  | proxy ho hk =>
    obtain ⟨object', ho', hk', -⟩ := hlink _ List.mem_cons_self _ ho
    exact .proxy ho' (hk'.trans hk)
  | next ho hk _ ih =>
    obtain ⟨object', ho', hk', hp⟩ := hlink _ List.mem_cons_self _ ho
    refine .next ho' (hk'.trans hk) (hp ▸ ih fun q hq => ?_)
    exact hlink q (List.mem_cons_of_mem _ hq)

/-- Once an object inherits from where its own chain does not pass, the chains through it go on
there. -/
theorem inherit {q : Option ObjectId} {ids' : List ObjectId} (ho : realm.object? o = some object)
    (hk : object.kind.isProxy = false) (hp : realm.Chain p ids) (hmem : o ∉ ids)
    (h : realm.Chain q ids') :
    ∃ ids'', (realm.putObject o { object with prototype := p }).Chain q ids'' := by
  have hothers (r : ObjectId) (hr : r ≠ o) :
      (realm.putObject o { object with prototype := p }).object? r = realm.object? r :=
    object?_putObject_of_ne hr
  induction h with
  | null => exact ⟨[], .null⟩
  | @proxy r object' hr hk' =>
    by_cases heq : r = o
    · subst heq
      cases ho.symm.trans hr
      cases hk.symm.trans hk'
    · exact ⟨[r], .proxy ((hothers r heq).trans hr) hk'⟩
  | @next r object' ids' hr hk' _ ih =>
    by_cases heq : r = o
    · subst heq
      refine ⟨r :: ids, .next (object?_putObject_self ho) hk (hp.mono fun q hq object'' hq' => ?_)⟩
      exact ⟨object'', (hothers q (ne_of_mem_of_not_mem hq hmem)).trans hq', rfl, rfl⟩
    · obtain ⟨ids'', hrest⟩ := ih
      exact ⟨r :: ids'', .next ((hothers r heq).trans hr) hk' hrest⟩

end Chain

/-! ### Realms whose chains end -/

/-- The realms that arise when each new object gets a prototype that the heap has given out, if it
gets one, together with the number of handles given out so far. Disposing of a realm does not take
them back. -/
inductive Issued : Nat → Realm H → Prop
  | empty {realm : Realm H} (h : realm.heap = #[]) : Issued 0 realm
  | step {n : Nat} {realm after : Realm H} (hr : Issued n realm) (h : realm.Step after)
      (hnew : ∀ o object p, realm.object? o = none → after.object? o = some object →
        object.prototype = some p → p.index < n) : Issued (max n after.heap.size) after

theorem Issued.reachable (h : realm.Issued n) : realm.Reachable := by
  induction h with
  | empty h => exact .empty h
  | step _ h _ ih => exact ih.step h

/-- All handles given out are of objects on the heap, and every chain of prototypes ends. -/
structure Founded (n : Nat) (realm : Realm H) : Prop where
  size : realm.heap.size = n
  ends : ∀ o : ObjectId, o.index < n → ∃ ids, realm.Chain (some o) ids

theorem Founded.exists_chain (h : realm.Founded n) (hp : ∀ o, p = some o → o.index < n) :
    ∃ ids, realm.Chain p ids := by
  cases p with
  | none => exact ⟨[], .null⟩
  | some o => exact h.ends o (hp o rfl)

end Realm

theorem ObjectKind.Becomes.isProxy {kind after : ObjectKind H} (h : kind.Becomes after) :
    after.isProxy = kind.isProxy := by
  cases h <;> rfl

/-- The methods of an object other than the one that is for it leave the prototype alone. -/
theorem Object.Changes.link {object after : Object H} (h : object.Changes after) :
    after.kind.isProxy = object.kind.isProxy ∧ after.prototype = object.prototype := by
  induction h with
  | refl => exact ⟨rfl, rfl⟩
  | tail _ last ih =>
    cases last with
    | become kind hk => exact ⟨hk.isProxy.trans ih.1, ih.2⟩
    | _ => exact ih

theorem ObjectKind.isProxy_of_isPlain {kind : ObjectKind H} (h : kind.isPlain) :
    kind.isProxy = false := by
  cases kind with
  | proxy => cases h
  | _ => rfl

namespace Realm

variable {realm after : Realm H} {o : ObjectId} {object : Object H} {p : Option ObjectId} {n : Nat}

theorem object?_eq_none_of_size (realm : Realm H) : realm.object? ⟨realm.heap.size⟩ = none :=
  Array.getElem?_eq_none (Nat.le_refl _)

namespace Founded

theorem of_size_eq (h : realm.Founded n) (hs : after.heap.size = realm.heap.size)
    (hc : ∀ q ids, realm.Chain q ids → ∃ ids', after.Chain q ids') :
    after.Founded (max n after.heap.size) := by
  have hn : max n after.heap.size = n := by rw [hs, h.size, Nat.max_self]
  rw [hn]
  refine ⟨hs.trans h.size, fun o ho => ?_⟩
  obtain ⟨ids, hids⟩ := h.ends o ho
  exact hc _ _ hids

/-- A new object inherits from an object of the heap, whose chain ends. -/
theorem allocate (h : realm.Founded n) (hp : ∀ p, object.prototype = some p → p.index < n) :
    Founded (max n (realm.heap.push object).size)
      { realm with heap := realm.heap.push object } := by
  have hn : max n (realm.heap.push object).size = n + 1 := by
    rw [Array.size_push, h.size]
    exact Nat.max_eq_right (Nat.le_succ n)
  have hold {q : Option ObjectId} {ids : List ObjectId} (hq : realm.Chain q ids) :
      Realm.Chain { realm with heap := realm.heap.push object } q ids := by
    refine hq.mono fun r hr object' hobject => ⟨object', ?_, rfl, rfl⟩
    have hlt := hq.index_lt hr
    exact (Array.getElem?_push_lt hlt).trans (Array.getElem?_eq_getElem hlt ▸ hobject)
  rw [hn]
  refine ⟨(Array.size_push _).trans (congrArg (· + 1) h.size), fun o ho => ?_⟩
  rcases Nat.lt_succ_iff_lt_or_eq.mp ho with hlt | heq
  · obtain ⟨ids, hids⟩ := h.ends o hlt
    exact ⟨ids, hold hids⟩
  · have hnew : Realm.object? { realm with heap := realm.heap.push object } o = some object := by
      obtain ⟨i⟩ := o
      obtain rfl : i = realm.heap.size := heq.trans h.size.symm
      exact Array.getElem?_push_size
    cases hk : object.kind.isProxy with
    | true => exact ⟨[o], .proxy hnew hk⟩
    | false =>
      obtain ⟨ids, hids⟩ := h.exists_chain hp
      exact ⟨o :: ids, .next hnew hk (hold hids)⟩

/-- Chains end still after an object changed that keeps its prototype. -/
theorem update {object' : Object H} (h : realm.Founded n) (ho : realm.object? o = some object)
    (hc : object.Changes object') :
    (realm.putObject o object').Founded (max n (realm.putObject o object').heap.size) := by
  refine h.of_size_eq Array.size_setIfInBounds fun q ids hq => ⟨ids, hq.mono fun r _ other hr => ?_⟩
  by_cases heq : r = o
  · subst heq
    cases ho.symm.trans hr
    exact ⟨object', object?_putObject_self ho, hc.link⟩
  · exact ⟨other, (object?_putObject_of_ne heq).trans hr, rfl, rfl⟩

/-- The walk of the method that replaces a prototype keeps chains from closing. -/
theorem inherit (h : realm.Founded n) (ho : realm.object? o = some object)
    (hp : object.kind.isPlain) (hr : realm.reaches o (realm.heap.size + 1) p = .ok false) :
    (realm.putObject o { object with prototype := p }).Founded
      (max n (realm.putObject o { object with prototype := p }).heap.size) := by
  have hchain : ∃ ids, realm.Chain p ids := by
    refine h.exists_chain fun q hq => ?_
    subst hq
    unfold reaches at hr
    split at hr
    · cases hr
    · split at hr
      · cases hr
      · next hq => exact h.size ▸ (Array.getElem?_eq_some_iff.mp hq).1
  obtain ⟨ids, hids⟩ := hchain
  have hmem : o ∉ ids := by
    rw [hids.reaches_eq o (Nat.le_trans hids.length_le (Nat.le_succ _))] at hr
    simpa using hr
  refine h.of_size_eq Array.size_setIfInBounds fun q ids' hq => ?_
  exact hids.inherit ho (ObjectKind.isProxy_of_isPlain hp) hmem hq

/-- Chains end still after a step in which new objects got prototypes of the heap. -/
theorem step (h : realm.Founded n) (hs : realm.Step after) (hd : after.disposed = false)
    (hnew : ∀ o object p, realm.object? o = none → after.object? o = some object →
      object.prototype = some p → p.index < n) : after.Founded (max n after.heap.size) := by
  cases hs with
  | beside hb =>
    refine h.of_size_eq (congrArg Array.size hb.heap) fun q ids hq => ⟨ids, hq.mono ?_⟩
    intro r _ object hr
    exact ⟨object, (congrArg (·[r.index]?) hb.heap).trans hr, rfl, rfl⟩
  | allocate object _ _ =>
    refine h.allocate fun p hp => ?_
    exact hnew ⟨realm.heap.size⟩ object p realm.object?_eq_none_of_size Array.getElem?_push_size hp
  | update o ho hc _ => exact h.update ho hc
  | inherit o prototype ho hp _ hr => exact h.inherit ho hp hr
  | dispose _ _ _ ha => cases ha.symm.trans hd

end Founded

/-- No step brings back a realm that has been disposed of. -/
theorem Step.usable (h : realm.Step after) (hd : after.disposed = false) :
    realm.disposed = false := by
  cases h with
  | beside hb => exact hb.disposed.symm.trans hd
  | dispose _ _ _ ha => cases ha.symm.trans hd
  | _ => exact hd

/-- Every chain of prototypes ends in a realm that has not been disposed of. -/
theorem Issued.founded (h : realm.Issued n) (hd : realm.disposed = false) : realm.Founded n := by
  induction h with
  | empty h => exact ⟨by rw [h, Array.size_empty], fun o ho => absurd ho (Nat.not_lt_zero _)⟩
  | step _ hs hnew ih => exact (ih (hs.usable hd)).step hs hd hnew

end Realm

/-! ### Replacing a prototype -/

/-- A prototype is replaced if it is no other one, or if the object is extensible and the chain from
the new one on does not meet it. Nothing else changes. -/
theorem Ordinary.setPrototypeOf_eq {realm : Realm H} {o : ObjectId} {object : Object H}
    {p : Option ObjectId} {ids : List ObjectId} (s : Surroundings H)
    (ho : realm.object? o = some object) (h : realm.Chain p ids) :
    Ordinary.setPrototypeOf o p s realm
      = if object.prototype = p ∨ object.extensible = true ∧ o ∉ ids then
          .ok true (realm.putObject o { object with prototype := p })
        else .ok false realm := by
  unfold Ordinary.setPrototypeOf
  rw [Action.bind_of_ok (getObject_of_some ho)]
  by_cases hsame : object.prototype = p
  · rw [if_pos hsame, if_pos (.inl hsame)]
    subst hsame
    rw [Realm.putObject_self ho]
    rfl
  rw [if_neg hsame]
  by_cases he : object.extensible
  · rw [if_neg (by simp [he]), Action.bind_of_ok (Engine.getRealm_eq s realm), Realm.seen,
      Realm.reaches_atDepth]
    have hwalk : realm.reaches o (realm.heap.size + 1) p = .ok (decide (o ∈ ids)) :=
      h.reaches_eq o (Nat.le_trans h.length_le (Nat.le_succ _))
    match hr : realm.reaches o (realm.heap.size + 1) p with
    | .error missing => cases hr.symm.trans hwalk
    | .ok true =>
      have hmem : o ∈ ids := of_decide_eq_true (Except.ok.inj (hr.symm.trans hwalk)).symm
      rw [if_neg (by simp [hsame, hmem])]
      rfl
    | .ok false =>
      have hmem : o ∉ ids := of_decide_eq_false (Except.ok.inj (hr.symm.trans hwalk)).symm
      rw [if_pos (.inr ⟨he, hmem⟩)]
      exact Action.bind_of_ok (Action.modifyObject_of_some ho)
  · rw [if_pos (by simpa using he), if_neg (by simp [hsame, he])]
    rfl

/-- In a realm that has not been disposed of, every chain of prototypes ends. The walk from any
handle that was given out ends too, after at most as many objects as there are, and a prototype is
replaced exactly if it is no other one, or if the object is extensible and the walk does not meet
it. -/
theorem prototype_chains_end {realm : Realm H} {n : Nat} (hr : realm.Issued n)
    (hd : realm.disposed = false) (s : Surroundings H) :
    (∀ o object, realm.object? o = some object → ∃ ids, realm.Chain (some o) ids)
      ∧ ∀ p : Option ObjectId, (∀ q, p = some q → q.index < n) →
        ∃ ids, realm.Chain p ids
          ∧ (∀ o fuel, realm.heap.size ≤ fuel →
            realm.reaches o fuel p = .ok (decide (o ∈ ids)))
          ∧ ∀ o object, realm.object? o = some object →
            Ordinary.setPrototypeOf o p s realm
              = if object.prototype = p ∨ object.extensible = true ∧ o ∉ ids then
                  .ok true (realm.putObject o { object with prototype := p })
                else .ok false realm := by
  have hfounded := hr.founded hd
  refine ⟨fun o object ho => ?_, fun p hp => ?_⟩
  · exact hfounded.ends o (hfounded.size ▸ Realm.index_lt_of_object? ho)
  · obtain ⟨ids, hids⟩ := hfounded.exists_chain hp
    refine ⟨ids, hids, fun o fuel hf => ?_, fun o object ho => ?_⟩
    · exact hids.reaches_eq o (Nat.le_trans hids.length_le hf)
    · exact Ordinary.setPrototypeOf_eq s ho hids

/-! ### A parent and a child -/

/-- A realm with an object without prototype. -/
def parentRealm : Realm HostTypes.bare := { heap := #[.ofKind none .ordinary], store := () }

/-- The realm with another object, which inherits from the first. -/
def childRealm : Realm HostTypes.bare :=
  { parentRealm with heap := parentRealm.heap.push (.ofKind (some ⟨0⟩) .ordinary) }

theorem parentRealm_issued : parentRealm.Issued 1 := by
  have empty : Realm.Issued 0 ({ parentRealm with heap := #[] } : Realm HostTypes.bare) :=
    .empty rfl
  refine empty.step (.allocate _ (.ofKind none .ordinary) (.ofKind none _) (.of_not_isArray rfl)) ?_
  rintro ⟨_ | i⟩ object p - ho hp
  · cases ho
    cases hp
  · cases ho

theorem childRealm_issued : childRealm.Issued 2 := by
  refine parentRealm_issued.step
    (.allocate _ (.ofKind (some ⟨0⟩) .ordinary) (.ofKind _ _) (.of_not_isArray rfl)) ?_
  rintro ⟨_ | _ | i⟩ object p hnone ho hp
  · cases hnone
  · cases ho
    cases hp
    exact Nat.one_pos
  · cases ho

/-- The parent cannot inherit from the child. -/
theorem prototype_chains_end_childRealm :
    childRealm.Chain (some ⟨1⟩) [⟨1⟩, ⟨0⟩]
      ∧ Ordinary.setPrototypeOf ⟨0⟩ (some ⟨1⟩) (.bounded Host.bare 0) childRealm
        = .ok false childRealm := by
  have hchain : childRealm.Chain (some ⟨1⟩) [⟨1⟩, ⟨0⟩] := .next rfl rfl (.next rfl rfl .null)
  obtain ⟨-, hset⟩ := prototype_chains_end childRealm_issued rfl (.bounded Host.bare 0)
  obtain ⟨ids, hids, -, heq⟩ := hset (some ⟨1⟩) (by rintro q ⟨⟩; decide)
  obtain rfl := hids.unique hchain
  exact ⟨hchain, (heq ⟨0⟩ _ rfl).trans (if_neg (by decide))⟩

/-- Disposes of the realm and makes an object with the handle of one that is gone. -/
def disposeAndCreate : Routine HostTypes.bare ObjectId := do
  dispose
  let o ← (newOrdinary (some ⟨0⟩) : Engine HostTypes.bare ObjectId)
  return o

/-- The realm after that. -/
def selfRealm : Realm HostTypes.bare :=
  { parentRealm.emptied with heap := #[.ofKind (some ⟨0⟩) .ordinary] }

theorem selfRealm_issued : selfRealm.Issued 1 := by
  have hstep : parentRealm.Step parentRealm.emptied := .dispose rfl rfl rfl rfl
  have emptied : parentRealm.emptied.Issued 1 :=
    parentRealm_issued.step hstep fun _ _ _ _ ho => by cases ho
  refine emptied.step
    (.allocate _ (.ofKind (some ⟨0⟩) .ordinary) (.ofKind _ _) (.of_not_isArray rfl)) ?_
  rintro ⟨_ | i⟩ object p - ho hp
  · cases ho
    cases hp
    exact Nat.one_pos
  · cases ho

/-- After the realm was disposed of, an object can be made that inherits from itself. -/
theorem not_chains_end :
    disposeAndCreate.run Host.bare 0 parentRealm = .ok ⟨0⟩ selfRealm
      ∧ ¬∀ (n : Nat) (realm : Realm HostTypes.bare) (o : ObjectId) (object : Object HostTypes.bare),
        realm.Issued n → realm.object? o = some object → ∃ ids, realm.Chain (some o) ids := by
  refine ⟨rfl, fun h => ?_⟩
  obtain ⟨ids, hids⟩ := h 1 selfRealm ⟨0⟩ (.ofKind (some ⟨0⟩) .ordinary) selfRealm_issued rfl
  cases hids with
  | proxy ho hk =>
    cases ho
    cases hk
  | next ho _ hrest =>
    cases ho
    -- the chain from the object on would be longer than itself
    have hlength := congrArg List.length (hrest.unique (.next rfl rfl hrest))
    exact absurd hlength (Nat.ne_of_lt (Nat.lt_succ_self _))

end ScriptEngine
