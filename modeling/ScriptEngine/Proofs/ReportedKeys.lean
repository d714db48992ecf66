import Mathlib.Data.List.Nodup
import ScriptEngine.Proofs.OwnKeys
import ScriptEngine.Proofs.ProxyTrap
import ScriptEngine.Proofs.UnresolvedName

/-!
# The keys that a trap reports

A trap for the own keys answers with a list of values. The proxy turns them into keys and takes the
keys of its target out of them one by one, the fixed ones first. Here it is shown that the lists
which pass are those that a declarative rule admits, and that every other list is a type error.

## Main definitions

* `Engine.Decides`: a check that changes nothing, with the results that it lets pass.
* `Value.Names`: the key that a value names.
* `Object.MayList`: the lists of keys that may be reported for a target.
* `Realm.HasElements`: the elements of an array-like object that are read without a trace.

## Main results

* `ProxyObject.keysOfValues_decides`, `ProxyObject.splitKeys_of_isPlain`,
  `ProxyObject.consume_decides`, `ProxyObject.checkKeys_decides`: the parts of the check.
* `ownKeys_reported`: the outcome of a request for the own keys of a proxy with a trap.
-/

namespace ScriptEngine

open Engine

variable {H : HostTypes} {α β : Type}

/-! ### Checks that change nothing -/

/-- A computation leaves the realm as it is and has the one result that is described, or there is no
such result and the computation is a type error. -/
def Engine.Decides (x : Engine H α) (s : Surroundings H) (realm : Realm H) (P : α → Prop) : Prop :=
  (∃ a, x.act s realm = .ok a realm ∧ ∀ b, P b ↔ b = a)
    ∨ (∃ text, x.act s realm = .error (.failure (.typeError text)) realm) ∧ ∀ b, ¬P b

namespace Engine.Decides

variable {s : Surroundings H} {realm : Realm H} {x : Engine H α} {a : α} {P Q : α → Prop}

theorem of_ok (h : x.act s realm = .ok a realm) : x.Decides s realm (· = a) :=
  .inl ⟨a, h, fun _ => .rfl⟩

theorem pure (a : α) : (pure a : Engine H α).Decides s realm (· = a) := of_ok rfl

theorem typeError (text : String) : (typeError text : Engine H α).Decides s realm fun _ => False :=
  .inr ⟨⟨text, rfl⟩, fun _ h => h⟩

theorem congr (h : x.Decides s realm P) (hiff : ∀ a, Q a ↔ P a) : x.Decides s realm Q := by
  rwa [show Q = P from funext fun a => propext (hiff a)]

theorem bind {f : α → Engine H β} {R : α → β → Prop} (hx : x.Decides s realm P)
    (hf : ∀ a, P a → (f a).Decides s realm (R a)) :
    (x >>= f).Decides s realm fun b => ∃ a, P a ∧ R a b := by
  rcases hx with ⟨a, hx, hP⟩ | ⟨⟨text, hx⟩, hP⟩
  · have hR (b : β) : (∃ a, P a ∧ R a b) ↔ R a b := by simp [hP]
    rcases hf a ((hP a).mpr rfl) with ⟨b, hb, hunique⟩ | ⟨⟨text, hb⟩, hnone⟩
    · exact .inl ⟨b, (Engine.bind_of_ok hx).trans hb, fun b' => (hR b').trans (hunique b')⟩
    · exact .inr ⟨⟨text, (Engine.bind_of_ok hx).trans hb⟩, fun b' => (hR b').not.mpr (hnone b')⟩
  · exact .inr ⟨⟨text, Engine.bind_of_error hx⟩, fun b ⟨a, ha, _⟩ => hP a ha⟩

/-- A step with a known result that leaves the realm as it is. -/
theorem ok_bind {f : α → Engine H β} {R : β → Prop} (hx : x.act s realm = .ok a realm)
    (hf : (f a).Decides s realm R) : (x >>= f).Decides s realm R := by
  rw [Decides, Engine.bind_of_ok hx]
  exact hf

/-- A condition that has to be met before the rest is done. -/
theorem check {c : Prop} [Decidable c] {trap detail : String} {f : Unit → Engine H α}
    (hf : ¬c → (f ()).Decides s realm P) :
    (if c then ProxyObject.violation trap detail >>= f else f ()).Decides s realm
      fun a => ¬c ∧ P a := by
  by_cases hc : c
  · rw [if_pos hc]
    exact .inr ⟨⟨_, rfl⟩, fun a h => h.1 hc⟩
  · rw [if_neg hc]
    exact (hf hc).congr fun a => and_iff_right hc

theorem lastCheck {c : Prop} [Decidable c] {trap detail : String} :
    (if c then ProxyObject.violation trap detail else Pure.pure () : Engine H Unit).Decides s realm
      fun _ => ¬c := by
  by_cases hc : c
  · rw [if_pos hc]
    exact .inr ⟨⟨_, rfl⟩, fun _ h => h hc⟩
  · rw [if_neg hc]
    exact (pure ()).congr fun _ => iff_of_true hc rfl

end Engine.Decides

/-! ### Keys and values -/

/-- The key that a value names: it is a string or a symbol. -/
inductive Value.Names : Value → PropertyKey → Prop
  | string (text : String) : Names (.string text) (.ofString text)
  | symbol (symbol : Symbol) : Names (.symbol symbol) (.symbol symbol)

theorem Value.Names.isCanonical {v : Value} {k : PropertyKey} (h : v.Names k) : k.isCanonical := by
  cases h with
  | string text => exact PropertyKey.isCanonical_ofString text
  | symbol symbol => rfl

theorem Value.forall_isCanonical {values : List Value} {keys : List PropertyKey}
    (h : List.Forall₂ Value.Names values keys) : ∀ k ∈ keys, k.isCanonical := by
  induction h with
  | nil => simp
  | cons hv _ ih => exact List.forall_mem_cons.mpr ⟨hv.isCanonical, ih⟩

theorem Value.forall_exists_names {values : List Value} {keys : List PropertyKey}
    (h : List.Forall₂ Value.Names values keys) : ∀ v ∈ values, ∃ k, v.Names k := by
  induction h with
  | nil => simp
  | cons hv _ ih => exact List.forall_mem_cons.mpr ⟨⟨_, hv⟩, ih⟩

theorem Value.Names.eq {v : Value} {k k' : PropertyKey} (h : v.Names k) (h' : v.Names k') :
    k' = k := by
  cases h <;> cases h' <;> rfl

section Values

variable {s : Surroundings H} {realm : Realm H}

theorem Value.requirePropertyName_decides (v : Value) :
    (v.requirePropertyName : Engine H Unit).Decides s realm fun _ => ∃ k, v.Names k := by
  cases v with
  | string text => exact (Engine.Decides.pure ()).congr fun _ => by simpa using ⟨_, .string text⟩
  | symbol symbol =>
    exact (Engine.Decides.pure ()).congr fun _ => by simpa using ⟨_, .symbol symbol⟩
  | _ => exact (Engine.Decides.typeError _).congr fun _ => by simpa using fun k hk => by cases hk

/-- Each value names a key, and no key is named twice. -/
theorem ProxyObject.keysOfValues_decides {seen : List PropertyKey} (hs : seen.Nodup)
    (values : List Value) :
    (ProxyObject.keysOfValues seen values : Engine H (List PropertyKey)).Decides s realm
      fun keys => keys.Nodup
        ∧ ∃ new, List.Forall₂ Value.Names values new ∧ keys = seen.reverse ++ new := by
  induction values generalizing seen with
  | nil =>
    refine (Engine.Decides.pure seen.reverse).congr fun keys => ?_
    constructor
    · rintro ⟨-, new, ⟨⟩, rfl⟩
      exact List.append_nil _
    · rintro rfl
      exact ⟨List.nodup_reverse.mpr hs, [], .nil, (List.append_nil _).symm⟩
  | cons v values ih =>
    -- once the key of the first value is known, it is compared with those seen before
    have hkey {k : PropertyKey} (hk : v.Names k) :
        (if seen.contains k = true then
            (ProxyObject.violation "ownKeys"
              ("trap returned duplicate entries ('" ++ k.text ++ "')") : Engine H Unit)
              >>= fun _ => ProxyObject.keysOfValues (k :: seen) values
          else ProxyObject.keysOfValues (k :: seen) values).Decides s realm
        fun keys => keys.Nodup
          ∧ ∃ new, List.Forall₂ Value.Names (v :: values) new ∧ keys = seen.reverse ++ new := by
      refine (Engine.Decides.check (f := fun _ => ProxyObject.keysOfValues (k :: seen) values)
        fun hnot => ih (List.nodup_cons.mpr ⟨by simpa using hnot, hs⟩)).congr fun keys => ?_
      simp only [List.reverse_cons, List.append_assoc, List.singleton_append,
        List.forall₂_cons_left_iff, List.contains_eq_mem, decide_eq_true_eq]
      constructor
      · rintro ⟨hnodup, -, ⟨k', new, hk', hnew, rfl⟩, rfl⟩
        obtain rfl := hk.eq hk'
        refine ⟨fun hmem => ?_, hnodup, new, hnew, rfl⟩
        exact (List.nodup_append.mp hnodup).2.2 _ (List.mem_reverse.mpr hmem) _
          List.mem_cons_self rfl
      · rintro ⟨-, hnodup, new, hnew, rfl⟩
        exact ⟨hnodup, k :: new, ⟨k, new, hk, hnew, rfl⟩, rfl⟩
    cases v with
    | string text => exact hkey (.string text)
    | symbol symbol => exact hkey (.symbol symbol)
    | _ =>
      refine .inr ⟨⟨_, rfl⟩, ?_⟩
      rintro keys ⟨-, new, hnames, -⟩
      obtain _ | ⟨hv, -⟩ := hnames
      cases hv

/-! ### The keys of the target -/

/-- Keys are taken out of a list if all of them are there. -/
theorem ProxyObject.consume_decides {complaint : PropertyKey → String} {keys : List PropertyKey}
    (hn : keys.Nodup) (rest : List PropertyKey) :
    (ProxyObject.consume complaint keys rest : Engine H (List PropertyKey)).Decides s realm
      fun left => keys ⊆ rest ∧ left = rest.diff keys := by
  induction keys generalizing rest with
  | nil => exact (Engine.Decides.pure rest).congr fun left => by simp
  | cons k keys ih =>
    obtain ⟨hk, hn⟩ := List.nodup_cons.mp hn
    refine (Engine.Decides.check (f := fun _ => ProxyObject.consume complaint keys
      (rest.erase k)) fun _ => ih hn (rest.erase k)).congr fun left => ?_
    have herase : keys ⊆ rest.erase k ↔ keys ⊆ rest := by
      refine ⟨fun h k' hk' => List.mem_of_mem_erase (h hk'), fun h k' hk' => ?_⟩
      have hne : k' ≠ k := fun heq => hk (heq ▸ hk')
      exact (List.mem_erase_of_ne hne).mpr (h hk')
    simp [List.cons_subset, and_assoc, List.diff_cons, herase]

/-- What is left of a list of keys once two others are taken out of it. -/
theorem ProxyObject.diff_diff_eq_nil_iff {keys fixed free : List PropertyKey} (hk : keys.Nodup)
    (hdisjoint : fixed.Disjoint free) (hfixed : fixed ⊆ keys) :
    free ⊆ keys.diff fixed ∧ (keys.diff fixed).diff free = []
      ↔ ∀ k, k ∈ keys ↔ k ∈ fixed ∨ k ∈ free := by
  simp only [List.eq_nil_iff_forall_not_mem, hk.diff.mem_sdiff_iff, hk.mem_sdiff_iff,
    List.subset_def]
  constructor
  · rintro ⟨hfree, hleft⟩ k
    refine ⟨fun hmem => ?_, fun hmem => hmem.elim (hfixed ·) fun h => (hfree h).1⟩
    by_cases h : k ∈ fixed
    · exact .inl h
    · exact .inr (Decidable.byContradiction fun h' => hleft k ⟨⟨hmem, h⟩, h'⟩)
  · intro h
    refine ⟨fun {k} hmem => ⟨(h k).mpr (.inr hmem), fun h' => hdisjoint h' hmem⟩, ?_⟩
    rintro k ⟨⟨hmem, hnot⟩, hnot'⟩
    exact ((h k).mp hmem).elim hnot hnot'

/-- The fixed keys have to be listed, and all keys and no others where none can be added. -/
theorem ProxyObject.checkKeys_decides {keys fixed free : List PropertyKey} {extensible : Bool}
    (hk : keys.Nodup) (hfixed : fixed.Nodup) (hfree : free.Nodup)
    (hdisjoint : fixed.Disjoint free) :
    (ProxyObject.checkKeys keys fixed free extensible : Engine H Unit).Decides s realm
      fun _ => fixed ⊆ keys
        ∧ (extensible = false → ∀ k, k ∈ keys ↔ k ∈ fixed ∨ k ∈ free) := by
  unfold ProxyObject.checkKeys
  split
  · next hnone =>
    obtain ⟨rfl, hempty⟩ : extensible = true ∧ fixed = [] := by simpa using hnone
    exact (Engine.Decides.pure ()).congr fun _ => by simp [hempty]
  · cases extensible with
    | true =>
      refine ((ProxyObject.consume_decides hfixed keys).bind
        fun left _ => Engine.Decides.pure ()).congr fun _ => ?_
      simp
    | false =>
      refine ((ProxyObject.consume_decides hfixed keys).bind fun left _ =>
        (ProxyObject.consume_decides hfree left).bind fun _ _ =>
          Engine.Decides.lastCheck).congr fun _ => ?_
      constructor
      · rintro ⟨hsub, hall⟩
        obtain ⟨hsub', hnil⟩ := (ProxyObject.diff_diff_eq_nil_iff hk hdisjoint hsub).mpr (hall rfl)
        exact ⟨_, ⟨hsub, rfl⟩, _, ⟨hsub', rfl⟩, by simp [hnil]⟩
      · rintro ⟨-, ⟨hsub, rfl⟩, -, ⟨hsub', rfl⟩, hnil⟩
        refine ⟨hsub, fun _ => (ProxyObject.diff_diff_eq_nil_iff hk hdisjoint hsub).mp ⟨hsub', ?_⟩⟩
        simpa using hnil

end Values

/-! ### Elements and keys of objects -/

/-- The elements of an array-like object that are read without a trace. -/
structure Realm.HasElements (realm : Realm H) (host : Host H) (bound : Nat) (array : ObjectId)
    (elements : List Value) : Prop where
  length : array.lengthOfArrayLike.act (.bounded host bound) realm = .ok elements.length realm
  element : ∀ i (hi : i < elements.length),
    (array.get (.ofNat i)).act (.bounded host bound) realm = .ok elements[i] realm

namespace Object

/-- Whether an own key is fixed. -/
def isFixedKey (object : Object H) (k : PropertyKey) : Bool :=
  (object.ownProperty? k).any fun d => !d.isConfigurable

/-- The keys that may be reported for a target, for a list of values: each value names one of them,
none is named twice, the fixed keys of the target are among them, and if no key can be added they
are those of the target. -/
structure MayList (object : Object H) (elements : List Value) (keys : List PropertyKey) :
    Prop where
  named : List.Forall₂ Value.Names elements keys
  distinct : keys.Nodup
  fixed : ∀ k ∈ object.ownKeys, ∀ d, object.ownProperty? k = some d → d.isConfigurable = false →
    k ∈ keys
  exact : object.extensible = false → ∀ k, k ∈ keys ↔ k ∈ object.ownKeys

variable {object : Object H} {k : PropertyKey}

theorem isFixedKey_iff : object.isFixedKey k
    ↔ ∃ d, object.ownProperty? k = some d ∧ d.isConfigurable = false := by
  simp [isFixedKey, Option.any_eq_true]

end Object

section Target

variable {host : Host H} {bound : Nat} {realm : Realm H} {o array : ObjectId} {object : Object H}
  {elements : List Value}

/-- The elements are read one after the other, up to one that is no property name. -/
theorem ObjectId.elementsFrom_decides (h : realm.HasElements host bound array elements)
    {i : Nat} {rest : List Value} (hi : elements.drop i = rest) :
    (array.elementsFrom Value.requirePropertyName i rest.length).Decides (.bounded host bound) realm
      fun values => (∀ v ∈ rest, ∃ k, v.Names k) ∧ values = rest := by
  induction rest generalizing i with
  | nil => exact (Engine.Decides.pure []).congr fun values => by simp
  | cons v rest ih =>
    obtain ⟨hlt, hv, hrest⟩ : ∃ hlt : i < elements.length, elements[i] = v
        ∧ elements.drop (i + 1) = rest := by
      have hlt : i < elements.length := by
        by_contra hnot
        rw [List.drop_eq_nil_of_le (Nat.not_lt.mp hnot)] at hi
        cases hi
      rw [List.drop_eq_getElem_cons hlt] at hi
      exact ⟨hlt, (List.cons.inj hi).1, (List.cons.inj hi).2⟩
    refine .ok_bind (h.element i hlt) ?_
    rw [hv]
    refine (v.requirePropertyName_decides.bind fun _ _ => (ih hrest).bind fun values _ =>
      Engine.Decides.pure (v :: values)).congr fun values => ?_
    simp [and_assoc]

theorem Value.namesFromArrayLike_decides (h : realm.HasElements host bound array elements) :
    ((Value.object array).namesFromArrayLike).Decides (.bounded host bound) realm
      fun values => (∀ v ∈ elements, ∃ k, v.Names k) ∧ values = elements :=
  .ok_bind h.length (ObjectId.elementsFrom_decides h (i := 0) rfl)

/-- The keys of an object are split into the fixed ones and the others. -/
theorem ProxyObject.splitKeys_of_isPlain (ho : realm.object? o = some object)
    (hp : object.kind.isPlain) (hl : ¬realm.AtLimit) (hb : 0 < bound) (keys : List PropertyKey) :
    (ProxyObject.splitKeys o keys).act (.bounded host bound) realm
      = .ok (keys.filter object.isFixedKey, keys.filter fun k => !object.isFixedKey k) realm := by
  induction keys with
  | nil => rfl
  | cons k keys ih =>
    have hown : (ProxyObject.isFixedKey o k).act (.bounded host bound) realm
        = .ok (object.isFixedKey k) realm :=
      Engine.bind_of_ok ((ObjectId.getOwnProperty_gives ho hp hl k).eq_of_le hb)
    unfold ProxyObject.splitKeys
    rw [Engine.bind_of_ok hown, Engine.bind_of_ok ih]
    cases hfixed : object.isFixedKey k <;> simp [hfixed, pure]

/-- The answer of a trap passes if it names keys that may be reported for the target. -/
theorem ProxyObject.reportedKeys_decides (h : realm.HasElements host bound array elements)
    (ho : realm.object? o = some object) (hp : object.kind.isPlain) (hn : object.ownKeys.Nodup)
    (hl : ¬realm.AtLimit) (hb : 0 < bound) :
    (do
      let keys ← ProxyObject.keysOfValues [] (← (Value.object array).namesFromArrayLike)
      let extensible ← o.isExtensible
      let (fixed, free) ← ProxyObject.splitKeys o (← o.ownKeys)
      ProxyObject.checkKeys keys fixed free extensible
      return keys : Engine H (List PropertyKey)).Decides (.bounded host bound) realm
        (object.MayList elements) := by
  have hextensible : o.isExtensible.act (.bounded host bound) realm = _ :=
    (ObjectId.isExtensible_gives ho hp hl).eq_of_le hb
  have hkeys : o.ownKeys.act (.bounded host bound) realm = _ :=
    (ObjectId.ownKeys_gives ho hp hl).eq_of_le hb
  have hdisjoint : (object.ownKeys.filter object.isFixedKey).Disjoint
      (object.ownKeys.filter fun k => !object.isFixedKey k) := by
    intro k hfixed hfree
    simp [(List.mem_filter.mp hfixed).2] at hfree
  refine ((Value.namesFromArrayLike_decides h).bind fun values hvalues =>
    (ProxyObject.keysOfValues_decides List.nodup_nil values).bind fun keys hnodup =>
      .ok_bind hextensible <| .ok_bind hkeys <|
        .ok_bind (ProxyObject.splitKeys_of_isPlain ho hp hl hb object.ownKeys) <|
          (ProxyObject.checkKeys_decides hnodup.1 (hn.filter _) (hn.filter _) hdisjoint).bind
            fun _ _ => Engine.Decides.pure keys).congr fun keys => ?_
  have hfixed (keys : List PropertyKey) : object.ownKeys.filter object.isFixedKey ⊆ keys
      ↔ ∀ k ∈ object.ownKeys, ∀ d, object.ownProperty? k = some d → d.isConfigurable = false →
        k ∈ keys := by
    simp [List.subset_def, List.mem_filter, Object.isFixedKey_iff]
  have hall (k : PropertyKey) : k ∈ object.ownKeys.filter object.isFixedKey
      ∨ k ∈ object.ownKeys.filter (fun k => !object.isFixedKey k) ↔ k ∈ object.ownKeys := by
    cases hk : object.isFixedKey k <;> simp [List.mem_filter, hk]
  simp only [hfixed, hall]
  constructor
  · rintro ⟨hnamed, hdistinct, hlisted, hexact⟩
    exact ⟨elements, ⟨Value.forall_exists_names hnamed, rfl⟩, keys, ⟨hdistinct, keys, hnamed, rfl⟩,
      (), ⟨hlisted, hexact⟩, rfl⟩
  · rintro ⟨_, ⟨-, rfl⟩, _, ⟨hdistinct, new, hnamed, rfl⟩, _, ⟨hlisted, hexact⟩, rfl⟩
    exact ⟨hnamed, hdistinct, hlisted, hexact⟩

end Target

/-! ### Requests -/

section Requests

variable {host : Host H} {bound : Nat} {realm looked called : Realm H}
  {p target handler array : ObjectId} {trap : Value} {object : Object H} {elements : List Value}

/-- A proxy whose trap for the own keys answers an array-like object, of which the elements can be
read without effect. The proxy reports the keys that the elements name, in their order, exactly if
these may be listed for its target, as the target is after the trap ran. If not, the request ends
with a `TypeError`. -/
theorem ownKeys_reported (host : Host H) (hb : 0 < bound) (hr : realm.Reachable)
    (hp : realm.Forwards p target handler) (hl : ¬realm.deeper.AtLimit)
    (ht : Method.ownKeys.TrapFound host bound handler trap realm.deeper looked)
    (hcall : (trap.call (.object handler) [.object target]).act (.bounded host bound) looked
      = .ok (.object array) called)
    (hread : called.HasElements host bound array elements)
    (ho : called.object? target = some object) (hplain : object.kind.isPlain) :
    (∀ keys after, answer host (bound + 1) (.ownKeys p) realm = .ok keys after
      ↔ object.MayList elements keys ∧ after = called.atDepth realm.callDepth)
    ∧ ((∀ keys, ¬object.MayList elements keys) → ∃ text,
      answer host (bound + 1) (.ownKeys p) realm
        = .error (.failure (.typeError text)) (called.atDepth realm.callDepth))
    ∧ ∀ keys, object.MayList elements keys → ∀ k ∈ keys, k.isCanonical := by
  have hdeeper : realm.deeper.Sound := hr.sound
  have hlooked := Engine.leads_of_ok hdeeper ht
  have hcalled := hlooked.trans (Engine.leads_of_ok (hlooked.steps.sound hr.sound) hcall)
  have hl' : ¬realm.AtLimit := fun h => hl (Realm.deeper_atLimit h)
  have hlimit : ¬called.AtLimit := by
    simpa only [Realm.AtLimit, hcalled.steps.config, hcalled.callDepth] using hl
  have hreach : called.Reachable :=
    hcalled.steps.reachable (hr.step (.beside (⟨rfl, rfl, rfl⟩ : realm.Beside realm.deeper)))
  obtain ⟨past, hpast⟩ := hreach.history
  have hnodup : object.ownKeys.Nodup := ((hreach.sound target object ho).inOrder_ownKeys
    (hpast.oldestFirst target object ho)).nodup
  -- the request comes down to what is done with the answer of the trap
  have hrun : answer host (bound + 1) (.ownKeys p) realm = _ :=
    Method.ownKeys.run_ofProxy rfl hp hl'
  have hdepth : { called with callDepth := called.callDepth - 1 }
      = called.atDepth realm.callDepth :=
    congrArg called.atDepth (Nat.sub_eq_of_eq_add hcalled.callDepth)
  have hshown (keys : List PropertyKey) (h : object.MayList elements keys) :
      ∀ k ∈ keys, k.isCanonical :=
    Value.forall_isCanonical h.named
  rcases ProxyObject.reportedKeys_decides hread ho hplain hnodup hlimit hb with
    ⟨keys, hbody, hunique⟩ | ⟨⟨text, hbody⟩, hnone⟩
  · have hinner : (ProxyObject.ownKeys p).act (.bounded host bound) realm.deeper
        = .ok keys called :=
      (ProxyObject.dispatch_of_some (hp.atDepth _) ht).trans ((Engine.bind_of_ok hcall).trans hbody)
    have houter : answer host (bound + 1) (.ownKeys p) realm
        = .ok keys (called.atDepth realm.callDepth) := by
      rw [hrun, ← hdepth]
      exact congrArg outcomeShallower hinner
    refine ⟨fun keys' after => ?_, fun h => absurd ((hunique keys).mpr rfl) (h keys), hshown⟩
    rw [houter, hunique, EStateM.Result.ok.injEq, eq_comm, @eq_comm _ after]
  · have hinner : (ProxyObject.ownKeys p).act (.bounded host bound) realm.deeper
        = .error (.failure (.typeError text)) called :=
      (ProxyObject.dispatch_of_some (hp.atDepth _) ht).trans ((Engine.bind_of_ok hcall).trans hbody)
    have houter : answer host (bound + 1) (.ownKeys p) realm
        = .error (.failure (.typeError text)) (called.atDepth realm.callDepth) := by
      rw [hrun, ← hdepth]
      exact congrArg outcomeShallower hinner
    refine ⟨fun keys after => ?_, fun _ => ⟨text, houter⟩, hshown⟩
    rw [houter]
    exact iff_of_false (fun h => by cases h) fun h => hnone keys h.1

end Requests

/-! ### A trap that lists one name -/

/-- A host whose functions answer an object with one element. -/
def listingHost : Host HostTypes.bare
  | .native .. => return .object ⟨4⟩
  | r => Host.bare r

/-- An array-like object with one name. -/
def listedNames (name : String) : Object HostTypes.bare :=
  (Object.ofKindWith none .ordinary lengthKey (.plain (.nat 1)) true).define (.ofNat 0)
    (.plain (.string name))

/-- A realm with a function, a handler whose trap for the own keys is that function, an object with
a constant, a proxy of the object, and the list that the trap answers. -/
def listingRealm (name : String) : Realm HostTypes.bare :=
  { heap := #[.ofKind none (.function (.native (.host ()) false)),
      .ofKindWith none .ordinary (.string "ownKeys") (.plain (.object ⟨0⟩)) true,
      .ofKindWith none .ordinary (.string "constant") (.frozen .null) true,
      .ofKind none (.proxy
        { target := some ⟨2⟩, handler := some ⟨1⟩, callable := false, isConstructor := false }),
      listedNames name]
    config := { timeoutMs := 0, maxCallDepth := 0 }
    store := () }

theorem listingRealm_reachable (name : String) : (listingRealm name).Reachable := by
  have empty : Realm.Reachable ({ listingRealm name with heap := #[] } : Realm HostTypes.bare) :=
    .empty rfl
  have function := empty.step (.allocate _ (.ofKind none (.function (.native (.host ()) false)))
    (.ofKind _ _) (.of_not_isArray rfl))
  have handler := function.step (.allocate _
    (.ofKindWith none .ordinary (.string "ownKeys") (.plain (.object ⟨0⟩)) true)
    (.ofKindWith _ _ rfl rfl (.inl rfl)) (.of_not_isArray rfl))
  have target := handler.step (.allocate _
    (.ofKindWith none .ordinary (.string "constant") (.frozen .null) true)
    (.ofKindWith _ _ rfl rfl (.inl rfl)) (.of_not_isArray rfl))
  have proxy := target.step (.allocate _ (.ofKind none (.proxy
    { target := some ⟨2⟩, handler := some ⟨1⟩, callable := false, isConstructor := false }))
    (.ofKind _ _) (.of_not_isArray rfl))
  have list : (Object.ofKindWith none .ordinary lengthKey (.plain (.nat 1)) true :
      Object HostTypes.bare).Sound := .ofKindWith _ _ rfl rfl (.inl rfl)
  exact proxy.step (.allocate _ (listedNames name) (list.define rfl rfl rfl) (.of_not_isArray rfl))

theorem listedNames_hasElements {realm : Realm HostTypes.bare} (name : String)
    (ho : realm.object? ⟨4⟩ = some (listedNames name)) (hz : realm.config.maxCallDepth = 0) :
    realm.HasElements listingHost 3 ⟨4⟩ [.string name] := by
  have hl : ¬realm.deeper.AtLimit := fun h => h.1 hz
  constructor
  · have hlength : ((⟨4⟩ : ObjectId).get lengthKey).act (.bounded listingHost 3) realm
        = .ok (.nat 1) realm :=
      (ObjectId.getFor_gives_of_isData ho rfl hl (k := lengthKey) (d := .plain (.nat 1)) rfl
        rfl).eq_of_le (by decide)
    have hpositive : ¬Number.integerOrInfinity (Float.ofNat 1) ≤ 0.0 := by decide +kernel
    have hvalue : Number.toNat (Number.atMost (Number.integerOrInfinity (Float.ofNat 1))
        (Float.ofNat Number.maxSafe)) = 1 := by decide +kernel
    refine (Engine.bind_of_ok hlength).trans ?_
    refine (Engine.bind_of_ok (a := Number.integerOrInfinity (Float.ofNat 1)) rfl).trans ?_
    rw [if_neg hpositive, hvalue]
    rfl
  · intro i hi
    obtain rfl : i = 0 := Nat.lt_one_iff.mp hi
    exact (ObjectId.getFor_gives_of_isData ho rfl hl (k := .ofNat 0) (d := .plain (.string name))
      rfl rfl).eq_of_le (by decide)

/-- The name of the constant is an answer that is passed on, and a list without it is not. -/
theorem ownKeys_reported_listingRealm :
    (∃ after, answer listingHost 4 (.ownKeys ⟨3⟩) (listingRealm "constant")
        = .ok [.string "constant"] after)
      ∧ ∃ text after, answer listingHost 4 (.ownKeys ⟨3⟩) (listingRealm "other")
        = .error (.failure (.typeError text)) after := by
  have hkey : PropertyKey.ofString "ownKeys" = .string "ownKeys" := by decide +kernel
  have hnames (name : String) : List.Forall₂ Value.Names [.string name] [.ofString name] :=
    .cons (.string name) .nil
  have ht (name : String) : Method.ownKeys.TrapFound listingHost 3 ⟨1⟩ (.object ⟨0⟩)
      (listingRealm name).deeper (listingRealm name).deeper := by
    unfold Method.TrapFound Method.trap
    rw [hkey]
    rfl
  have hforwards (name : String) : (listingRealm name).Forwards ⟨3⟩ ⟨2⟩ ⟨1⟩ :=
    ⟨_, _, _, rfl, rfl⟩
  have hreported (name : String) := ownKeys_reported listingHost (by decide)
    (listingRealm_reachable name) (hforwards name) (fun h => h.1 rfl) (ht name) rfl
    (listedNames_hasElements name rfl rfl) rfl rfl
  have hlisted {k : PropertyKey} {d : Descriptor} (hd : (Object.ofKindWith none .ordinary
      (.string "constant") (.frozen .null) true : Object HostTypes.bare).ownProperty? k = some d) :
      k = .string "constant" := by
    by_contra hne
    rw [Object.ownProperty?_of_unitProperty?_eq_none rfl, Object.ofKindWith,
      PropertyMap.get?_insert_of_ne hne, PropertyMap.get?_empty] at hd
    cases hd
  constructor
  · have hconstant : PropertyKey.ofString "constant" = .string "constant" := by decide +kernel
    refine ⟨_, ((hreported "constant").1 _ _).mpr ⟨⟨?_, List.nodup_singleton _, ?_, ?_⟩, rfl⟩⟩
    · exact hconstant ▸ hnames "constant"
    · intro k _ d hd _
      exact List.mem_singleton.mpr (hlisted hd)
    · exact fun h => by cases h
  · have hother : PropertyKey.ofString "other" ≠ .string "constant" := by decide +kernel
    have hnone (keys : List PropertyKey) : ¬(Object.ofKindWith none .ordinary (.string "constant")
        (.frozen .null) true : Object HostTypes.bare).MayList [.string "other"] keys := by
      intro h
      obtain ⟨k, keys, hk, hnil, rfl⟩ := List.forall₂_cons_left_iff.mp h.named
      cases hnil
      cases hk
      have hmem := h.fixed (.string "constant") List.mem_cons_self (.frozen .null) rfl rfl
      exact hother (List.mem_singleton.mp hmem).symm
    obtain ⟨text, h⟩ := (hreported "other").2.1 hnone
    exact ⟨text, _, h⟩

end ScriptEngine
