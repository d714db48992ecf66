import ScriptEngine.Descriptor
import ScriptEngine.OrderedMap
import ScriptEngine.PropertyKey

/-!
# Property maps

The own properties of an object. Array indices come first and in ascending order; strings and then
symbols follow, each in the order in which they were first inserted since their last removal.

## Main definitions

* `PropertyMap`: indexed properties in ascending order and named ones in insertion order.
* `PropertyMap.get?`, `PropertyMap.insert`, `PropertyMap.erase`: look-up and change of a property.
* `PropertyMap.define`: a map after a request to define a property.
* `PropertyMap.entries`, `PropertyMap.keys`: the properties in their order.
-/

namespace ScriptEngine

/-- Indexed properties of which each has a greater index than the one before. -/
def Ascending (entries : List (ArrayIndex × Descriptor)) : Prop :=
  entries.Pairwise fun a b => a.1 < b.1

theorem ascending_nil : Ascending [] := .nil

/-- Properties none of which has an index for a key. -/
def Unindexed (entries : List (PropertyKey × Descriptor)) : Prop :=
  ∀ e ∈ entries, e.1.index? = none

theorem unindexed_nil : Unindexed [] := by
  intro e he
  cases he

/-- The own properties of an object. -/
structure PropertyMap where
  /-- The indexed properties, by ascending index. -/
  indexed : List (ArrayIndex × Descriptor) := []
  /-- The properties with string or symbol keys, in insertion order. -/
  named : OrderedMap PropertyKey Descriptor := {}
  ascending : Ascending indexed := by exact ascending_nil
  unindexed : Unindexed named.entries := by exact unindexed_nil
deriving DecidableEq

namespace PropertyMap

instance : Inhabited PropertyMap := ⟨{}⟩

/-! ### Indexed properties in a list -/

/-- Sets the property of an index in an ascending list. -/
def putIndex (i : ArrayIndex) (d : Descriptor) :
    List (ArrayIndex × Descriptor) → List (ArrayIndex × Descriptor)
  | [] => [(i, d)]
  | (j, e) :: rest =>
    if i < j then (i, d) :: (j, e) :: rest
    else if i = j then (i, d) :: rest
    else (j, e) :: putIndex i d rest

theorem distinct_of_ascending {entries : List (ArrayIndex × Descriptor)} (h : Ascending entries) :
    Distinct entries :=
  List.Pairwise.imp Fin.ne_of_lt h

theorem mem_putIndex {i : ArrayIndex} {d : Descriptor} {entries : List (ArrayIndex × Descriptor)}
    {e : ArrayIndex × Descriptor} (h : e ∈ putIndex i d entries) : e = (i, d) ∨ e ∈ entries := by
  fun_induction putIndex i d entries with
  | case1 => simpa using h
  | case2 => simpa using h
  | case3 => grind
  | case4 => grind

theorem ascending_putIndex {i : ArrayIndex} {d : Descriptor}
    {entries : List (ArrayIndex × Descriptor)} (h : Ascending entries) :
    Ascending (putIndex i d entries) := by
  unfold Ascending at *
  fun_induction putIndex i d entries with
  | case1 => simp
  | case2 j e rest hlt =>
    refine List.pairwise_cons.mpr ⟨fun a ha => ?_, h⟩
    rcases List.mem_cons.mp ha with rfl | ha
    · exact hlt
    · exact Fin.lt_trans hlt ((List.pairwise_cons.mp h).1 a ha)
  | case3 =>
    rw [List.pairwise_cons] at h ⊢
    exact h
  | case4 j e rest hlt hne ih =>
    rw [List.pairwise_cons] at h ⊢
    refine ⟨fun a ha => ?_, ih h.2⟩
    rcases mem_putIndex ha with rfl | ha
    · grind
    · exact h.1 a ha

theorem ascending_drop {i : ArrayIndex} {entries : List (ArrayIndex × Descriptor)}
    (h : Ascending entries) : Ascending (OrderedMap.drop i entries) := by
  unfold Ascending at *
  fun_induction OrderedMap.drop i entries with
  | case1 => exact h
  | case2 => exact (List.pairwise_cons.mp h).2
  | case3 j e rest hne ih =>
    rw [List.pairwise_cons] at h ⊢
    exact ⟨fun a ha => h.1 a (OrderedMap.mem_drop ha), ih h.2⟩

theorem lookup_putIndex (i j : ArrayIndex) (d : Descriptor)
    (entries : List (ArrayIndex × Descriptor)) :
    OrderedMap.lookup j (putIndex i d entries)
      = if j = i then some d else OrderedMap.lookup j entries := by
  fun_induction putIndex i d entries with
  | case1 => rfl
  | case2 => rfl
  | case3 => grind [OrderedMap.lookup]
  | case4 => grind [OrderedMap.lookup]

theorem putIndex_of_lookup_eq_some {i : ArrayIndex} {d : Descriptor}
    {entries : List (ArrayIndex × Descriptor)} (ha : Ascending entries)
    (h : OrderedMap.lookup i entries = some d) : putIndex i d entries = entries := by
  unfold Ascending at ha
  fun_induction putIndex i d entries with
  | case1 => cases h
  | case2 j e rest hlt =>
    -- an index below the first one of an ascending list is not in it
    have hnone : OrderedMap.lookup i ((j, e) :: rest) = none :=
      OrderedMap.lookup_eq_none_of_forall_ne fun a hmem => by
        rcases List.mem_cons.mp hmem with rfl | hmem
        · exact Fin.ne_of_lt hlt
        · exact Fin.ne_of_lt (Fin.lt_trans hlt ((List.pairwise_cons.mp ha).1 a hmem))
    rw [hnone] at h
    cases h
  | case3 => grind [OrderedMap.lookup]
  | case4 j e rest hlt hne ih =>
    rw [OrderedMap.lookup, if_neg hne] at h
    rw [ih (List.pairwise_cons.mp ha).2 h]

/-! ### Named properties in a list -/

theorem unindexed_put {k : PropertyKey} {d : Descriptor} {entries : List (PropertyKey × Descriptor)}
    (h : Unindexed entries) (hk : k.index? = none) : Unindexed (OrderedMap.put k d entries) := by
  intro e he
  rcases OrderedMap.key_mem_put he with heq | ⟨e', he', heq⟩
  · rw [heq]
    exact hk
  · rw [← heq]
    exact h e' he'

theorem unindexed_drop {k : PropertyKey} {entries : List (PropertyKey × Descriptor)}
    (h : Unindexed entries) : Unindexed (OrderedMap.drop k entries) :=
  fun e he => h e (OrderedMap.mem_drop he)

/-! ### Properties by key -/

/-- The property of a key. -/
def get? (m : PropertyMap) : PropertyKey → Option Descriptor
  | .index i => OrderedMap.lookup i m.indexed
  | k => m.named.get? k

/-- Whether a key is present. -/
def contains (m : PropertyMap) (k : PropertyKey) : Bool := (m.get? k).isSome

/-- Sets the property of a key that is no index. -/
def insertNamed (m : PropertyMap) (k : PropertyKey) (hk : k.index? = none) (d : Descriptor) :
    PropertyMap :=
  { m with named := m.named.insert k d, unindexed := unindexed_put m.unindexed hk }

/-- Sets the property of a key. -/
def insert (m : PropertyMap) (k : PropertyKey) (d : Descriptor) : PropertyMap :=
  match k with
  | .index i =>
    { m with indexed := putIndex i d m.indexed, ascending := ascending_putIndex m.ascending }
  | .string s => m.insertNamed (.string s) rfl d
  | .symbol s => m.insertNamed (.symbol s) rfl d

/-- Changes the property of a key if there is one. -/
def modify (m : PropertyMap) (k : PropertyKey) (f : Descriptor → Descriptor) : PropertyMap :=
  match m.get? k with
  | some d => m.insert k (f d)
  | none => m

/-- Carries out a request to define a property, given that the request is accepted. -/
def define (m : PropertyMap) (k : PropertyKey) (d : Descriptor) : PropertyMap :=
  m.insert k (d.definedOver (m.get? k))

/-- Removes a property. -/
def erase (m : PropertyMap) (k : PropertyKey) : PropertyMap :=
  match k with
  | .index i =>
    { m with indexed := OrderedMap.drop i m.indexed, ascending := ascending_drop m.ascending }
  | k => { m with named := m.named.erase k, unindexed := unindexed_drop m.unindexed }

/-- All properties in their order. -/
def entries (m : PropertyMap) : List (PropertyKey × Descriptor) :=
  m.indexed.map (fun (i, d) => (.index i, d))
    ++ m.named.entries.filter (fun (k, _) => !k.isSymbol)
    ++ m.named.entries.filter (fun (k, _) => k.isSymbol)

/-- All keys in their order. -/
def keys (m : PropertyMap) : List PropertyKey := m.entries.map Prod.fst

/-- The number of properties. -/
def size (m : PropertyMap) : Nat := m.indexed.length + m.named.size

/-- The array indices from `start` on, the greatest first. -/
def descendingFrom (m : PropertyMap) (start : Nat) : List ArrayIndex :=
  ((m.indexed.map Prod.fst).filter fun i => start ≤ i.val).reverse

/-- The array indices from `start` on as numbers, the greatest first. -/
def indicesFromDescending (m : PropertyMap) (start : Nat) : List Nat :=
  (m.descendingFrom start).map Fin.val

/-! ### Look-up after a change -/

theorem get?_insert (m : PropertyMap) (k k' : PropertyKey) (d : Descriptor) :
    (m.insert k d).get? k' = if k' = k then some d else m.get? k' := by
  cases k <;> cases k' <;> simp [insert, insertNamed, get?, lookup_putIndex, OrderedMap.get?_insert]

@[simp] theorem get?_insert_self (m : PropertyMap) (k : PropertyKey) (d : Descriptor) :
    (m.insert k d).get? k = some d := by
  rw [get?_insert, if_pos rfl]

theorem get?_insert_of_ne {k k' : PropertyKey} (h : k' ≠ k) (m : PropertyMap) (d : Descriptor) :
    (m.insert k d).get? k' = m.get? k' := by
  rw [get?_insert, if_neg h]

theorem get?_erase (m : PropertyMap) (k k' : PropertyKey) :
    (m.erase k).get? k' = if k' = k then none else m.get? k' := by
  cases k <;> cases k' <;>
    simp [erase, get?, OrderedMap.lookup_drop (distinct_of_ascending m.ascending),
      OrderedMap.get?_erase]

theorem get?_erase_of_ne {k k' : PropertyKey} (h : k' ≠ k) (m : PropertyMap) :
    (m.erase k).get? k' = m.get? k' := by
  rw [get?_erase, if_neg h]

/-- A property that is there already can be set without effect. -/
theorem insert_of_get?_eq_some {m : PropertyMap} {k : PropertyKey} {d : Descriptor}
    (h : m.get? k = some d) : m.insert k d = m := by
  cases k with
  | index i => simp [insert, putIndex_of_lookup_eq_some m.ascending h]
  | string s => simp [insert, insertNamed, OrderedMap.insert_of_get?_eq_some h]
  | symbol s => simp [insert, insertNamed, OrderedMap.insert_of_get?_eq_some h]

@[simp] theorem get?_empty (k : PropertyKey) : ({} : PropertyMap).get? k = none := by
  cases k <;> rfl

end PropertyMap
end ScriptEngine
