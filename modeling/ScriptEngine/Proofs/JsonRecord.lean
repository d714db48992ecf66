import ScriptEngine.Proofs.DataProperty
import ScriptEngine.Proofs.JsonGraph
import ScriptEngine.Proofs.JsonTree

/-!
# Objects with given members

An object that got its members one after the other lists those whose names are indices in ascending
order, and then the others in the order in which they came.

## Main definitions

* `PropertyMap.ofMembers`, `Object.record`: the properties, and the object, of a list of members.

## Main results

* `PropertyMap.keys_ofMembers`: the keys in their order.
* `Object.enumerableKeys_record`: all of them are enumerable.
-/

namespace ScriptEngine

namespace PropertyKey

theorem index?_ofString (s : String) : (ofString s).index? = parseIndex? s := by
  cases h : parseIndex? s with
  | none =>
    rw [ofString_of_none h]
    rfl
  | some n =>
    rw [ofString_of_some h]
    rfl

/-- Different names give different keys. -/
theorem ofString_injective : Function.Injective ofString := fun s s' h => by
  rw [← text_ofString s, h, text_ofString]

end PropertyKey

namespace PropertyMap

variable {m : PropertyMap} {k : PropertyKey} {d : Descriptor}

/-- A new name goes to the end; an index is no name. -/
theorem names_insert_of_notMem (hk : m.get? k = none) :
    (m.insert k d).names = m.names ++ [k].filter fun k => k.index?.isNone := by
  cases hindex : k.index? with
  | some n =>
    rw [List.filter_singleton, hindex]
    cases k with
    | index i => exact (List.append_nil _).symm
    | string => cases hindex
    | symbol => cases hindex
  | none =>
    rw [List.filter_singleton, hindex]
    refine (names_insert m k d).elim (fun hnames => ?_) And.right
    -- it is a name of the new map, so it would have been one before
    have hmem : k ∈ (m.insert k d).names :=
      (contains_iff_mem_names hindex).mp (by rw [contains, get?_insert_self]; rfl)
    rw [hnames, ← contains_iff_mem_names hindex, contains, hk] at hmem
    cases hmem

theorem names_insertAll {entries : List (PropertyKey × Descriptor)}
    (hnew : ∀ e ∈ entries, m.get? e.1 = none) (hd : (entries.map Prod.fst).Nodup) :
    (m.insertAll entries).names
      = m.names ++ (entries.map Prod.fst).filter fun k => k.index?.isNone := by
  induction entries generalizing m with
  | nil => exact (List.append_nil _).symm
  | cons e rest ih =>
    obtain ⟨he, hnew⟩ := List.forall_mem_cons.mp hnew
    obtain ⟨hnot, hd⟩ := List.nodup_cons.mp hd
    have hrest := ih (m := m.insert e.1 e.2) (fun e' he' => ?_) hd
    · rw [insertAll, List.foldl_cons, ← insertAll, hrest, names_insert_of_notMem he,
        List.append_assoc, ← List.filter_append, List.map_cons, List.singleton_append]
    · refine (get?_insert_of_ne (fun heq => hnot ?_) ..).trans (hnew e' he')
      exact List.mem_map.mpr ⟨e', he', heq⟩

/-- The properties of a list of members. -/
def ofMembers (members : List (String × Value)) : PropertyMap :=
  ({} : PropertyMap).insertAll (members.map fun m => (.ofString m.1, .plain m.2))

variable {members : List (String × Value)} {name : String} {v : Value}

theorem ofMembers_append (members : List (String × Value)) (m : String × Value) :
    ofMembers (members ++ [m]) = (ofMembers members).insert (.ofString m.1) (.plain m.2) := by
  rw [ofMembers, insertAll, List.map_append, List.foldl_append]
  rfl

theorem keys_of_members (members : List (String × Value)) :
    ((members.map fun m => (PropertyKey.ofString m.1, Descriptor.plain m.2)).map Prod.fst)
      = (members.map Prod.fst).map .ofString := by
  rw [List.map_map, List.map_map]
  rfl

theorem get?_ofMembers_of_mem (hd : (members.map Prod.fst).Nodup) (h : (name, v) ∈ members) :
    (ofMembers members).get? (.ofString name) = some (.plain v) := by
  refine get?_insertAll_of_mem ?_ (List.mem_map.mpr ⟨_, h, rfl⟩)
  rw [keys_of_members]
  exact hd.map PropertyKey.ofString_injective

theorem exists_of_get?_ofMembers (hd : (members.map Prod.fst).Nodup)
    (h : (ofMembers members).get? k = some d) :
    ∃ name v, k = .ofString name ∧ d = .plain v ∧ (name, v) ∈ members := by
  by_cases hk : k ∈ (members.map Prod.fst).map .ofString
  · obtain ⟨name, hname, rfl⟩ := List.mem_map.mp hk
    obtain ⟨⟨name, v⟩, hmem, rfl⟩ := List.mem_map.mp hname
    rw [get?_ofMembers_of_mem hd hmem] at h
    exact ⟨name, v, rfl, (Option.some.inj h).symm, hmem⟩
  · rw [← keys_of_members] at hk
    rw [ofMembers, get?_insertAll_of_notMem hk, get?_empty] at h
    cases h

theorem get?_ofMembers_of_notMem (h : name ∉ members.map Prod.fst) :
    (ofMembers members).get? (.ofString name) = none := by
  refine (get?_insertAll_of_notMem fun hmem => h ?_).trans (get?_empty _)
  rw [keys_of_members] at hmem
  exact (List.mem_map_of_injective PropertyKey.ofString_injective).mp hmem

theorem names_ofMembers (hd : (members.map Prod.fst).Nodup) : (ofMembers members).names
    = (members.filter fun m => (PropertyKey.parseIndex? m.1).isNone).map fun m =>
        .ofString m.1 := by
  have hkeys : ((members.map fun m => (PropertyKey.ofString m.1, Descriptor.plain m.2)).map
      Prod.fst).Nodup := by
    rw [keys_of_members]
    exact hd.map PropertyKey.ofString_injective
  refine (names_insertAll (fun _ _ => get?_empty _) hkeys).trans ?_
  rw [List.map_map, List.filter_map]
  simp only [Function.comp_def, PropertyKey.index?_ofString]
  rfl

theorem mem_indices_ofMembers (hd : (members.map Prod.fst).Nodup) :
    k ∈ (ofMembers members).indices.map PropertyKey.index
      ↔ k ∈ (members.filter fun m => (PropertyKey.parseIndex? m.1).isSome).map fun m =>
          PropertyKey.ofString m.1 := by
  constructor
  · intro hk
    obtain ⟨i, hi, rfl⟩ := List.mem_map.mp hk
    obtain ⟨d, hd'⟩ := Option.isSome_iff_exists.mp (mem_indices.mp hi)
    obtain ⟨name, v, hname, -, hmem⟩ := exists_of_get?_ofMembers hd hd'
    refine List.mem_map.mpr ⟨_, List.mem_filter.mpr ⟨hmem, ?_⟩, hname.symm⟩
    rw [← PropertyKey.index?_ofString, ← hname]
    rfl
  · intro hk
    obtain ⟨m, hm, rfl⟩ := List.mem_map.mp hk
    obtain ⟨hm, hindex⟩ := List.mem_filter.mp hm
    obtain ⟨n, hn⟩ := Option.isSome_iff_exists.mp hindex
    have hget := get?_ofMembers_of_mem hd hm
    rw [PropertyKey.ofString_of_some hn] at hget ⊢
    exact List.mem_map_of_mem (mem_indices.mpr (by rw [hget]; rfl))

/-- The indices of members, in ascending order. -/
theorem indices_ofMembers (hd : (members.map Prod.fst).Nodup) :
    (ofMembers members).indices.map PropertyKey.index
      = ((members.filter fun m => (PropertyKey.parseIndex? m.1).isSome).mergeSort fun m m' =>
          (PropertyKey.parseIndex? m.1).getD 0 ≤ (PropertyKey.parseIndex? m'.1).getD 0).map
            fun m => PropertyKey.ofString m.1 := by
  let indexed := members.filter fun m => (PropertyKey.parseIndex? m.1).isSome
  let le (m m' : String × Value) : Bool :=
    (PropertyKey.parseIndex? m.1).getD 0 ≤ (PropertyKey.parseIndex? m'.1).getD 0
  have hperm : ((indexed.mergeSort le).map fun m => PropertyKey.ofString m.1).Perm
      (indexed.map fun m => PropertyKey.ofString m.1) := (List.mergeSort_perm _ _).map _
  have hnodup : (indexed.map fun m => PropertyKey.ofString m.1).Nodup := by
    have hsub : (indexed.map Prod.fst).Sublist (members.map Prod.fst) := List.filter_sublist.map _
    have hmap := (hd.sublist hsub).map PropertyKey.ofString_injective
    rwa [List.map_map] at hmap
  have hstored := pairwise_indices (ofMembers members)
  have hperm' : ((ofMembers members).indices.map PropertyKey.index).Perm
      ((indexed.mergeSort le).map fun m => PropertyKey.ofString m.1) := by
    refine ((List.perm_ext_iff_of_nodup ?_ hnodup).mpr fun k => mem_indices_ofMembers hd).trans
      hperm.symm
    exact List.Nodup.map (fun i j h => PropertyKey.index.inj h) (hstored.imp Fin.ne_of_lt)
  have hascending : ((ofMembers members).indices.map PropertyKey.index).Pairwise
      fun k k' => k.index?.getD 0 ≤ k'.index?.getD 0 :=
    List.pairwise_map.mpr (hstored.imp fun hlt => Nat.le_of_lt hlt)
  refine hperm'.eq_of_pairwise (fun k k' hk hk' hle hge => ?_) hascending ?_
  · obtain ⟨i, -, rfl⟩ := List.mem_map.mp hk
    obtain ⟨j, -, rfl⟩ := List.mem_map.mp (hperm'.mem_iff.mpr hk')
    exact congrArg PropertyKey.index (Fin.ext (Nat.le_antisymm hle hge))
  · refine List.pairwise_map.mpr ((List.pairwise_mergeSort ?_ ?_ indexed).imp ?_)
    · intro m₁ m₂ m₃ h h'
      exact decide_eq_true (Nat.le_trans (of_decide_eq_true h) (of_decide_eq_true h'))
    · intro m m'
      rw [Bool.or_eq_true]
      exact (Nat.le_total _ _).imp decide_eq_true decide_eq_true
    · intro m m' h
      rw [PropertyKey.index?_ofString, PropertyKey.index?_ofString]
      exact of_decide_eq_true h

/-- The keys of members: the indices in ascending order, and then the names as they came. -/
theorem keys_ofMembers (hd : (members.map Prod.fst).Nodup) :
    (ofMembers members).keys = (Json.indicesFirst members).map fun m => .ofString m.1 := by
  have hsymbol (k : PropertyKey) (hk : k ∈ (ofMembers members).names) : k.isSymbol = false := by
    rw [names_ofMembers hd] at hk
    obtain ⟨m, -, rfl⟩ := List.mem_map.mp hk
    exact PropertyKey.isSymbol_ofString m.1
  have hstrings : (ofMembers members).names.filter (fun k => !k.isSymbol)
      = (ofMembers members).names :=
    List.filter_eq_self.mpr fun k hk => by rw [hsymbol k hk]; rfl
  have hsymbols : (ofMembers members).names.filter PropertyKey.isSymbol = [] :=
    List.filter_eq_nil_iff.mpr fun k hk => by rw [hsymbol k hk]; exact Bool.false_ne_true
  rw [keys_eq, hstrings, hsymbols, List.append_nil, indices_ofMembers hd, names_ofMembers hd,
    ← List.map_append]
  rfl

end PropertyMap

/-! ### Records -/

namespace Object

variable {H : HostTypes} {members : List (String × Value)} {prototype : ObjectId} {name : String}
  {v : Value}

/-- An ordinary object with given members. -/
def record (prototype : ObjectId) (members : List (String × Value)) : Object H :=
  { Object.ofKind (some prototype) .ordinary with properties := .ofMembers members }

theorem ownProperty?_record (k : PropertyKey) :
    (record prototype members : Object H).ownProperty? k
      = (PropertyMap.ofMembers members).get? k :=
  ownProperty?_of_unitProperty?_eq_none rfl

theorem ownProperty?_record_of_mem (hd : (members.map Prod.fst).Nodup)
    (h : (name, v) ∈ members) :
    (record prototype members : Object H).ownProperty? (.ofString name) = some (.plain v) := by
  rw [ownProperty?_record, PropertyMap.get?_ofMembers_of_mem hd h]

/-- All members are enumerable. -/
theorem enumerableKeys_record (hd : (members.map Prod.fst).Nodup) :
    (record prototype members : Object H).enumerableKeys
      = (Json.indicesFirst members).map fun m => .ofString m.1 := by
  have hkeys : (record prototype members : Object H).ownKeys
      = (PropertyMap.ofMembers members).keys := List.nil_append _
  rw [enumerableKeys, hkeys, PropertyMap.keys_ofMembers hd]
  refine List.filter_eq_self.mpr fun k hk => ?_
  obtain ⟨m, hm, rfl⟩ := List.mem_map.mp hk
  rw [PropertyKey.isSymbol_ofString, ownProperty?_record,
    PropertyMap.get?_ofMembers_of_mem hd (Json.mem_indicesFirst.mp hm)]
  rfl

theorem memberKeys_record (hd : (members.map Prod.fst).Nodup) :
    (record prototype members : Object H).memberKeys
      = (Json.indicesFirst members).map fun m => .ofString m.1 := by
  refine (memberKeys_eq fun k hk => ?_).trans (enumerableKeys_record hd)
  rw [enumerableKeys_record hd] at hk
  obtain ⟨m, -, rfl⟩ := List.mem_map.mp hk
  exact PropertyKey.isCanonical_ofString m.1

/-- One member more. -/
theorem defines_member (h : name ∉ members.map Prod.fst) :
    (record prototype members : Object H).Defines (.ofString name) (.plain v)
      (record prototype (members ++ [(name, v)])) true := by
  have hdefines :
      (record prototype members : Object H).Defines (.ofString name) (.plain v) _ true :=
    defines_new rfl rfl rfl (PropertyMap.get?_ofMembers_of_notMem h)
  rw [record, record, PropertyMap.ofMembers_append]
  exact hdefines

end Object

end ScriptEngine
