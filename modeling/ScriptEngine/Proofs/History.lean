import Mathlib.Logic.Relation
import ScriptEngine.Proofs.PlainObject

/-!
# How properties came to be there

Every step of a realm is a sequence of single writes, of which each sets or removes at most one
property of one object. A realm therefore has a history of single writes, and a property has an age:
for how many writes it has been there without a break. Properties with names, that is, strings and
symbols, are stored in the order of their ages, whatever the history.

## Main definitions

* `Realm.Write`, `Realm.History`: a single write, and the realms that a realm has gone through.
* `Realm.age`: the age of a property.

## Main results

* `Realm.Write.properties`: what a single write does to the properties of an object.
* `Realm.Step.writes`, `Realm.Reachable.history`: every realm has a history.
* `Realm.History.oldestFirst`: names are stored in the order of their ages.
-/

namespace ScriptEngine

variable {H : HostTypes}

/-! ### Keys in insertion order -/

namespace OrderedMap

variable {κ α : Type} [DecidableEq κ]

theorem isSome_lookup {k : κ} {entries : List (κ × α)} :
    (lookup k entries).isSome ↔ k ∈ entries.map Prod.fst := by
  induction entries with
  | nil => simp [lookup]
  | cons e rest ih =>
    rw [lookup, List.map_cons, List.mem_cons]
    split
    · next heq => simp [heq]
    · next hne => simp [hne, ih]

theorem keys_put_of_mem {k : κ} {entries : List (κ × α)} (h : k ∈ entries.map Prod.fst) (a : α) :
    (put k a entries).map Prod.fst = entries.map Prod.fst := by
  fun_induction put k a entries with
  | case1 => cases h
  | case2 => rfl
  | case3 k' a' rest hne ih =>
    have hmem : k ∈ rest.map Prod.fst := (List.mem_cons.mp h).resolve_left hne
    rw [List.map_cons, ih hmem, List.map_cons]

theorem keys_drop_sublist (k : κ) (entries : List (κ × α)) :
    ((drop k entries).map Prod.fst).Sublist (entries.map Prod.fst) := by
  fun_induction drop k entries with
  | case1 => exact .refl _
  | case2 => exact List.sublist_cons_self _ _
  | case3 k' a rest hne ih => exact ih.cons_cons k'

/-- A new key goes to the end. -/
theorem put_of_notMem {k : κ} {entries : List (κ × α)} (h : k ∉ entries.map Prod.fst) (a : α) :
    put k a entries = entries ++ [(k, a)] := by
  fun_induction put k a entries with
  | case1 => rfl
  | case2 => simp at h
  | case3 k' a' rest hne ih =>
    rw [ih fun hmem => h (List.mem_cons_of_mem _ hmem), List.cons_append]

end OrderedMap

namespace PropertyMap

variable {m m' : PropertyMap} {k : PropertyKey} {d : Descriptor}

/-- The keys that are strings or symbols, in the order in which they are stored. -/
def names (m : PropertyMap) : List PropertyKey := m.named.keys

theorem index?_of_mem_names (h : k ∈ m.names) : k.index? = none := by
  obtain ⟨e, he, rfl⟩ := List.mem_map.mp h
  exact m.unindexed e he

theorem contains_iff_mem_names (hk : k.index? = none) : m.contains k ↔ k ∈ m.names := by
  cases k with
  | index i => cases hk
  | string s => exact OrderedMap.isSome_lookup
  | symbol s => exact OrderedMap.isSome_lookup

theorem contains_of_mem_names (h : k ∈ m.names) : m.contains k :=
  (contains_iff_mem_names (index?_of_mem_names h)).mpr h

/-- Setting a property keeps the order of the names; a new name goes to the end. -/
theorem names_insert (m : PropertyMap) (k : PropertyKey) (d : Descriptor) :
    (m.insert k d).names = m.names
      ∨ m.contains k = false ∧ (m.insert k d).names = m.names ++ [k] := by
  have hnamed (hk : k.index? = none) (hinsert : (m.insert k d).names
      = (OrderedMap.put k d m.named.entries).map Prod.fst) :
      (m.insert k d).names = m.names
        ∨ m.contains k = false ∧ (m.insert k d).names = m.names ++ [k] := by
    rw [hinsert]
    by_cases hmem : k ∈ m.names
    · exact .inl (OrderedMap.keys_put_of_mem hmem d)
    · refine .inr ⟨?_, ?_⟩
      · rw [← contains_iff_mem_names hk] at hmem
        exact Bool.eq_false_iff.mpr hmem
      · rw [OrderedMap.put_of_notMem hmem, List.map_append]
        rfl
  cases k with
  | index i => exact .inl rfl
  | string s => exact hnamed rfl rfl
  | symbol s => exact hnamed rfl rfl

theorem names_erase_sublist (m : PropertyMap) (k : PropertyKey) :
    (m.erase k).names.Sublist m.names := by
  cases k with
  | index i => exact .refl _
  | string s => exact OrderedMap.keys_drop_sublist _ _
  | symbol s => exact OrderedMap.keys_drop_sublist _ _

/-- Setting properties one after the other. -/
def insertAll (m : PropertyMap) (entries : List (PropertyKey × Descriptor)) : PropertyMap :=
  entries.foldl (fun m e => m.insert e.1 e.2) m

theorem ext (hi : m.indexed = m'.indexed) (hn : m.named.entries = m'.named.entries) : m = m' := by
  obtain ⟨indexed, ⟨entries, distinct⟩, ascending, unindexed⟩ := m
  obtain ⟨indexed', ⟨entries', distinct'⟩, ascending', unindexed'⟩ := m'
  cases hi
  cases hn
  rfl

/-- An index above all others goes to the end. -/
theorem putIndex_of_forall_lt {i : ArrayIndex} {entries : List (ArrayIndex × Descriptor)}
    (h : ∀ e ∈ entries, e.1 < i) : putIndex i d entries = entries ++ [(i, d)] := by
  fun_induction putIndex i d entries with
  | case1 => rfl
  | case2 j e rest hlt => exact absurd (h _ List.mem_cons_self) (Fin.not_lt.mpr (Fin.le_of_lt hlt))
  | case3 e rest hlt => exact absurd (h _ List.mem_cons_self) (Fin.lt_irrefl _)
  | case4 j e rest hlt hne ih =>
    rw [ih fun e he => h e (List.mem_cons_of_mem _ he), List.cons_append]

theorem insertAll_indexed (entries : List (ArrayIndex × Descriptor))
    (h : Ascending (m.indexed ++ entries)) :
    (m.insertAll (entries.map fun (i, d) => (.index i, d))).indexed = m.indexed ++ entries
      ∧ (m.insertAll (entries.map fun (i, d) => (.index i, d))).named = m.named := by
  induction entries generalizing m with
  | nil => exact ⟨(List.append_nil _).symm, rfl⟩
  | cons e rest ih =>
    obtain ⟨i, d⟩ := e
    have hlast : (m.insert (.index i) d).indexed = m.indexed ++ [(i, d)] :=
      putIndex_of_forall_lt fun e he => (List.pairwise_append.mp h).2.2 e he _ List.mem_cons_self
    have hrest : Ascending ((m.insert (.index i) d).indexed ++ rest) := by
      rwa [hlast, List.append_assoc, List.singleton_append]
    obtain ⟨hindexed, hnamed⟩ := ih hrest
    refine ⟨hindexed.trans ?_, hnamed⟩
    rw [hlast, List.append_assoc, List.singleton_append]

theorem named_insert (hk : k.index? = none) (m : PropertyMap) (d : Descriptor) :
    (m.insert k d).named = m.named.insert k d ∧ (m.insert k d).indexed = m.indexed := by
  cases k with
  | index i => cases hk
  | string s => exact ⟨rfl, rfl⟩
  | symbol s => exact ⟨rfl, rfl⟩

theorem insertAll_named (entries : List (PropertyKey × Descriptor)) (hu : Unindexed entries)
    (h : Distinct (m.named.entries ++ entries)) :
    (m.insertAll entries).indexed = m.indexed
      ∧ (m.insertAll entries).named.entries = m.named.entries ++ entries := by
  induction entries generalizing m with
  | nil => exact ⟨rfl, (List.append_nil _).symm⟩
  | cons e rest ih =>
    obtain ⟨k, d⟩ := e
    obtain ⟨hnamed, hindexed⟩ := named_insert (hu _ List.mem_cons_self) m d
    have hnew : k ∉ m.named.entries.map Prod.fst := by
      intro hmem
      obtain ⟨e, he, heq⟩ := List.mem_map.mp hmem
      exact (List.pairwise_append.mp h).2.2 e he _ List.mem_cons_self heq
    have hlast : (m.insert k d).named.entries = m.named.entries ++ [(k, d)] := by
      rw [hnamed]
      exact OrderedMap.put_of_notMem hnew d
    have hrest : Distinct ((m.insert k d).named.entries ++ rest) := by
      rwa [hlast, List.append_assoc, List.singleton_append]
    obtain ⟨hindexed', hnamed'⟩ := ih (fun e he => hu e (List.mem_cons_of_mem _ he)) hrest
    refine ⟨hindexed'.trans hindexed, hnamed'.trans ?_⟩
    rw [hlast, List.append_assoc, List.singleton_append]

/-- Every map comes about by setting its properties one after the other. -/
theorem exists_insertAll (m : PropertyMap) :
    ∃ entries, ({} : PropertyMap).insertAll entries = m := by
  refine ⟨m.indexed.map (fun (i, d) => (.index i, d)) ++ m.named.entries, ?_⟩
  obtain ⟨hindexed, hnamed⟩ := insertAll_indexed (m := {}) m.indexed m.ascending
  have hdistinct : Distinct ((({} : PropertyMap).insertAll
      (m.indexed.map fun (i, d) => (.index i, d))).named.entries ++ m.named.entries) := by
    rw [hnamed]
    exact m.named.distinct
  obtain ⟨hindexed', hnamed'⟩ := insertAll_named m.named.entries m.unindexed hdistinct
  rw [insertAll, List.foldl_append]
  refine ext (hindexed'.trans hindexed) (hnamed'.trans ?_)
  rw [hnamed]
  rfl

end PropertyMap

/-! ### Single writes -/

namespace Realm

/-- A single write to a realm: at most one property of one object is set or removed, and a new
object has no properties. -/
inductive Write : Realm H → Realm H → Prop
  | beside {realm after : Realm H} (h : realm.Beside after) : Write realm after
  | allocate (realm : Realm H) (object : Object H) (hp : object.properties = {}) :
      Write realm { realm with heap := realm.heap.push object }
  | insert {realm : Realm H} {o : ObjectId} {object : Object H} (ho : realm.object? o = some object)
      (k : PropertyKey) (d : Descriptor) :
      Write realm (realm.putObject o { object with properties := object.properties.insert k d })
  | erase {realm : Realm H} {o : ObjectId} {object : Object H} (ho : realm.object? o = some object)
      (k : PropertyKey) :
      Write realm (realm.putObject o { object with properties := object.properties.erase k })
  | reshape {realm : Realm H} {o : ObjectId} {object : Object H}
      (ho : realm.object? o = some object) (after : Object H)
      (hp : after.properties = object.properties) :
      Write realm (realm.putObject o after)
  | clear {realm after : Realm H} (hh : after.heap = #[]) : Write realm after

/-- Single writes one after the other. -/
abbrev Writes : Realm H → Realm H → Prop := Relation.ReflTransGen Write

/-- The realms that a realm has gone through by single writes from an empty heap on, the last one
first. -/
inductive History : Realm H → List (Realm H) → Prop
  | start {realm : Realm H} (h : realm.heap = #[]) : History realm []
  | write {realm after : Realm H} {past : List (Realm H)} (h : History realm past)
      (w : realm.Write after) : History after (realm :: past)

/-- Whether an object stores a property. -/
def stores (realm : Realm H) (o : ObjectId) (k : PropertyKey) : Bool :=
  (realm.object? o).any fun object => object.properties.contains k

/-- The age of a property of an object in the last of some realms: through how many of them, from
the last one back, it has been there without a break. -/
def age (realms : List (Realm H)) (o : ObjectId) (k : PropertyKey) : Nat :=
  (realms.takeWhile fun realm => realm.stores o k).length

variable {realm after : Realm H} {past : List (Realm H)} {o : ObjectId} {object : Object H}
  {k : PropertyKey}

theorem stores_of_some (ho : realm.object? o = some object) :
    realm.stores o k = object.properties.contains k := by
  rw [stores, ho, Option.any_some]

theorem age_cons_of_stores (h : realm.stores o k) :
    age (realm :: past) o k = age past o k + 1 := by
  simp [age, h]

theorem age_cons_of_not_stores (h : realm.stores o k = false) : age (realm :: past) o k = 0 := by
  simp [age, h]

/-- What a single write does to the properties of an object. -/
theorem Write.properties (w : realm.Write after) (ho : after.object? o = some object) :
    object.properties = {} ∨ ∃ before, realm.object? o = some before
      ∧ (object.properties = before.properties
        ∨ (∃ k d, object.properties = before.properties.insert k d)
        ∨ ∃ k, object.properties = before.properties.erase k) := by
  -- an object in the place of another one, and all the other objects
  have hput {o' : ObjectId} {before new : Object H} (hbefore : realm.object? o' = some before)
      (ho : (realm.putObject o' new).object? o = some object) :
      (o = o' ∧ object = new) ∨ realm.object? o = some object := by
    by_cases heq : o = o'
    · subst heq
      rw [object?_putObject_self hbefore] at ho
      exact .inl ⟨rfl, (Option.some.inj ho).symm⟩
    · rw [object?_putObject_of_ne heq] at ho
      exact .inr ho
  cases w with
  | beside h =>
    rw [object?, h.heap] at ho
    exact .inr ⟨object, ho, .inl rfl⟩
  | allocate new hp =>
    simp only [object?, Array.getElem?_push] at ho
    split at ho
    · cases ho
      exact .inl hp
    · exact .inr ⟨object, ho, .inl rfl⟩
  | insert hbefore k d =>
    rcases hput hbefore ho with ⟨rfl, rfl⟩ | ho
    · exact .inr ⟨_, hbefore, .inr (.inl ⟨k, d, rfl⟩)⟩
    · exact .inr ⟨object, ho, .inl rfl⟩
  | erase hbefore k =>
    rcases hput hbefore ho with ⟨rfl, rfl⟩ | ho
    · exact .inr ⟨_, hbefore, .inr (.inr ⟨k, rfl⟩)⟩
    · exact .inr ⟨object, ho, .inl rfl⟩
  | reshape hbefore new hp =>
    rcases hput hbefore ho with ⟨rfl, rfl⟩ | ho
    · exact .inr ⟨_, hbefore, .inl hp⟩
    · exact .inr ⟨object, ho, .inl rfl⟩
  | clear hh => simp [object?, hh] at ho

/-! ### Every realm has a history -/

theorem putObject_push (object after : Object H) :
    ({ realm with heap := realm.heap.push object } : Realm H).putObject ⟨realm.heap.size⟩ after
      = { realm with heap := realm.heap.push after } := by
  have hset : (realm.heap.push object).setIfInBounds realm.heap.size after
      = realm.heap.push after := by
    apply Array.ext_getElem?
    intro i
    rw [Array.getElem?_setIfInBounds, Array.getElem?_push, Array.getElem?_push, Array.size_push]
    grind
  rw [putObject, hset]

/-- The properties of a new object are set one after the other. -/
theorem writes_push (realm : Realm H) (object : Object H)
    (entries : List (PropertyKey × Descriptor)) :
    Writes ({ realm with heap := realm.heap.push object } : Realm H)
      { realm with
        heap := realm.heap.push
          { object with properties := object.properties.insertAll entries } } := by
  induction entries generalizing object with
  | nil => exact .refl
  | cons e rest ih =>
    have hnew : ({ realm with heap := realm.heap.push object } : Realm H).object?
        ⟨realm.heap.size⟩ = some object := by simp [object?]
    have hfirst := Write.insert hnew e.1 e.2
    rw [putObject_push] at hfirst
    exact .head hfirst (ih { object with properties := object.properties.insert e.1 e.2 })

/-- One change of an object is a single write. -/
theorem write_change {object after : Object H} (ho : realm.object? o = some object)
    (hc : object.Change after) : realm.Write (realm.putObject o after) := by
  cases hc with
  | preventExtensions => exact .reshape ho _ rfl
  | define k d => exact .insert ho k _
  | delete k => exact .erase ho k
  | become kind => exact .reshape ho _ rfl

theorem writes_changes {object after : Object H} (ho : realm.object? o = some object)
    (hc : object.Changes after) : realm.Writes (realm.putObject o after) := by
  induction hc with
  | refl => rw [putObject_self ho]
  | tail first last ih =>
    have hlast := write_change (object?_putObject_self ho) last
    rw [putObject_putObject] at hlast
    exact ih.tail hlast

/-- Every step is a sequence of single writes. -/
theorem Step.writes (h : realm.Step after) : realm.Writes after := by
  cases h with
  | beside hb => exact .single (.beside hb)
  | allocate object =>
    obtain ⟨entries, hentries⟩ := object.properties.exists_insertAll
    have hset := writes_push realm { object with properties := {} } entries
    rw [hentries] at hset
    exact .head (.allocate realm { object with properties := {} } rfl) hset
  | update o ho hc => exact writes_changes ho hc
  | inherit o prototype ho => exact .single (.reshape ho _ rfl)
  | dispose _ hh => exact .single (.clear hh)

theorem Steps.writes (h : realm.Steps after) : realm.Writes after := by
  induction h with
  | refl => exact .refl
  | tail _ last ih => exact ih.trans last.writes

/-- A history goes on: what a realm has gone through stays behind it. -/
theorem History.writes (h : realm.History past) (hw : realm.Writes after) :
    ∃ past', after.History past' ∧ (realm :: past) <:+ (after :: past') := by
  induction hw with
  | refl => exact ⟨past, h, List.suffix_rfl⟩
  | tail _ last ih =>
    obtain ⟨past', hpast, hsuffix⟩ := ih
    exact ⟨_, hpast.write last, hsuffix.trans (List.suffix_cons _ _)⟩

theorem Reachable.history (h : realm.Reachable) : ∃ past, realm.History past := by
  induction h with
  | empty h => exact ⟨[], .start h⟩
  | step _ h ih =>
    obtain ⟨past, hpast⟩ := ih
    obtain ⟨past', hpast', -⟩ := hpast.writes h.writes
    exact ⟨past', hpast'⟩

/-! ### Names in the order of their ages -/

/-- The names of an object are stored the oldest first. -/
def OldestFirst (realm : Realm H) (past : List (Realm H)) : Prop :=
  ∀ o object, realm.object? o = some object → object.properties.names.Pairwise fun k k' =>
    age (realm :: past) o k' < age (realm :: past) o k

/-- What is stored now is one write older than before. -/
theorem pairwise_age_cons {names : List PropertyKey} (ho : after.object? o = some object)
    (hnames : ∀ k ∈ names, k ∈ object.properties.names)
    (h : names.Pairwise fun k k' => age past o k' < age past o k) :
    names.Pairwise fun k k' => age (after :: past) o k' < age (after :: past) o k := by
  have hstores (k : PropertyKey) (hk : k ∈ names) : after.stores o k :=
    (stores_of_some ho).trans (PropertyMap.contains_of_mem_names (hnames k hk))
  refine h.imp_of_mem fun {k k'} hk hk' hlt => ?_
  rw [age_cons_of_stores (hstores k hk), age_cons_of_stores (hstores k' hk')]
  exact Nat.succ_lt_succ hlt

theorem Write.oldestFirst (w : realm.Write after) (h : realm.OldestFirst past) :
    after.OldestFirst (realm :: past) := by
  intro o object ho
  rcases w.properties ho with hnone | ⟨before, hbefore, hsame | ⟨k, d, hinsert⟩ | ⟨k, herase⟩⟩
  · rw [hnone]
    exact .nil
  · refine pairwise_age_cons ho (fun k hk => hk) ?_
    rw [hsame]
    exact h o before hbefore
  · rcases before.properties.names_insert k d with hnames | ⟨hnew, hnames⟩
    · refine pairwise_age_cons ho (fun k hk => hk) ?_
      rw [hinsert, hnames]
      exact h o before hbefore
    · rw [← hinsert] at hnames
      have hage : age (after :: realm :: past) o k = 1 := by
        have hnow : after.stores o k := by
          rw [stores_of_some ho]
          exact PropertyMap.contains_of_mem_names (by simp [hnames])
        have hbefore : realm.stores o k = false := (stores_of_some hbefore).trans hnew
        rw [age_cons_of_stores hnow, age_cons_of_not_stores hbefore]
      rw [hnames, List.pairwise_append]
      refine ⟨pairwise_age_cons ho (fun k' hk' => ?_) (h o before hbefore),
        List.pairwise_singleton _ _, fun k' hk' k'' hk'' => ?_⟩
      · rw [hnames]
        exact List.mem_append_left _ hk'
      · -- the new name has been there for one write, the others for longer
        rw [List.mem_singleton.mp hk'', hage]
        have hnow : after.stores o k' := by
          rw [stores_of_some ho]
          exact PropertyMap.contains_of_mem_names (by simp [hnames, hk'])
        have hthen : realm.stores o k' :=
          (stores_of_some hbefore).trans (PropertyMap.contains_of_mem_names hk')
        rw [age_cons_of_stores hnow, age_cons_of_stores hthen]
        omega
  · refine pairwise_age_cons ho (fun k hk => hk) ?_
    rw [herase]
    exact (h o before hbefore).sublist (before.properties.names_erase_sublist k)

theorem History.oldestFirst (h : realm.History past) : realm.OldestFirst past := by
  induction h with
  | start h =>
    intro o object ho
    simp [object?, h] at ho
  | write _ w ih => exact w.oldestFirst ih

end Realm

end ScriptEngine
