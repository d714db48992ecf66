/-!
# Maps in insertion order

A finite map that lists its entries in the order in which their keys were first inserted. Replacing
the value of a key keeps its place; a key that was erased and inserted again goes to the end.

## Main definitions

* `OrderedMap`: a list of entries, each with a key of its own.
* `OrderedMap.get?`, `OrderedMap.insert`, `OrderedMap.erase`.
-/

namespace ScriptEngine

/-- Entries of which no two have the same key. -/
def Distinct {κ α : Type} (entries : List (κ × α)) : Prop :=
  entries.Pairwise fun a b => a.1 ≠ b.1

theorem distinct_nil {κ α : Type} : Distinct ([] : List (κ × α)) := .nil

/-- A finite map as the list of its entries in insertion order. -/
structure OrderedMap (κ : Type) (α : Type) where
  entries : List (κ × α) := []
  distinct : Distinct entries := by exact distinct_nil
deriving DecidableEq

namespace OrderedMap

variable {κ α : Type} [DecidableEq κ]

instance : Inhabited (OrderedMap κ α) := ⟨{}⟩

/-! ### Entries in a list -/

/-- The value of a key in a list of entries. -/
def lookup (k : κ) : List (κ × α) → Option α
  | [] => none
  | (k', a) :: rest => if k = k' then some a else lookup k rest

/-- The entries with the value of a key replaced, or with a new entry at the end. -/
def put (k : κ) (a : α) : List (κ × α) → List (κ × α)
  | [] => [(k, a)]
  | (k', a') :: rest => if k = k' then (k', a) :: rest else (k', a') :: put k a rest

/-- The entries without a key. -/
def drop (k : κ) : List (κ × α) → List (κ × α)
  | [] => []
  | (k', a) :: rest => if k = k' then rest else (k', a) :: drop k rest

theorem key_mem_put {k : κ} {a : α} {entries : List (κ × α)} {e : κ × α}
    (h : e ∈ put k a entries) : e.1 = k ∨ ∃ e' ∈ entries, e'.1 = e.1 := by
  fun_induction put k a entries with
  | case1 => grind
  | case2 => grind
  | case3 => grind

theorem mem_drop {k : κ} {entries : List (κ × α)} {e : κ × α} (h : e ∈ drop k entries) :
    e ∈ entries := by
  fun_induction drop k entries with
  | case1 => exact h
  | case2 => exact List.mem_cons_of_mem _ h
  | case3 => grind

theorem distinct_put {k : κ} {a : α} {entries : List (κ × α)} (h : Distinct entries) :
    Distinct (put k a entries) := by
  unfold Distinct at *
  fun_induction put k a entries with
  | case1 => simp
  | case2 =>
    rw [List.pairwise_cons] at h ⊢
    exact h
  | case3 k' a' rest hne ih =>
    rw [List.pairwise_cons] at h ⊢
    refine ⟨fun e he => ?_, ih h.2⟩
    rcases key_mem_put he with hk | ⟨e', he', hk⟩
    · exact fun heq => hne (hk.symm.trans heq.symm)
    · exact hk ▸ h.1 e' he'

theorem distinct_drop {k : κ} {entries : List (κ × α)} (h : Distinct entries) :
    Distinct (drop k entries) := by
  unfold Distinct at *
  fun_induction drop k entries with
  | case1 => exact h
  | case2 => exact (List.pairwise_cons.mp h).2
  | case3 k' a rest hne ih =>
    rw [List.pairwise_cons] at h ⊢
    exact ⟨fun e he => h.1 e (mem_drop he), ih h.2⟩

theorem lookup_put (k k' : κ) (a : α) (entries : List (κ × α)) :
    lookup k' (put k a entries) = if k' = k then some a else lookup k' entries := by
  fun_induction put k a entries with
  | case1 => rfl
  | case2 => grind [lookup]
  | case3 => grind [lookup]

theorem lookup_eq_none_of_forall_ne {k : κ} {entries : List (κ × α)}
    (h : ∀ e ∈ entries, k ≠ e.1) : lookup k entries = none := by
  induction entries with
  | nil => rfl
  | cons e rest ih =>
    rw [lookup, if_neg (h e List.mem_cons_self)]
    exact ih fun e he => h e (List.mem_cons_of_mem _ he)

theorem mem_of_lookup {k : κ} {a : α} {entries : List (κ × α)} (h : lookup k entries = some a) :
    (k, a) ∈ entries := by
  induction entries with
  | nil => cases h
  | cons e rest ih =>
    rw [lookup] at h
    split at h
    · next heq =>
      cases h
      exact heq ▸ List.mem_cons_self
    · exact List.mem_cons_of_mem _ (ih h)

/-- Where the keys are different, an entry is found under its key. -/
theorem lookup_of_mem {k : κ} {a : α} {entries : List (κ × α)} (h : Distinct entries)
    (hmem : (k, a) ∈ entries) : lookup k entries = some a := by
  unfold Distinct at h
  induction entries with
  | nil => cases hmem
  | cons e rest ih =>
    rw [List.pairwise_cons] at h
    rcases List.mem_cons.mp hmem with rfl | hrest
    · exact if_pos rfl
    · rw [lookup, if_neg (h.1 _ hrest).symm]
      exact ih h.2 hrest

theorem lookup_drop {entries : List (κ × α)} (h : Distinct entries) (k k' : κ) :
    lookup k' (drop k entries) = if k' = k then none else lookup k' entries := by
  unfold Distinct at h
  fun_induction drop k entries with
  | case1 => simp [lookup]
  | case2 a rest =>
    have hk : lookup k rest = none := lookup_eq_none_of_forall_ne (List.pairwise_cons.mp h).1
    grind [lookup]
  | case3 k'' a rest hne ih =>
    have ih := ih (List.pairwise_cons.mp h).2
    grind [lookup]

theorem put_put (k : κ) (a b : α) (entries : List (κ × α)) :
    put k b (put k a entries) = put k b entries := by
  fun_induction put k a entries with
  | case1 => simp [put]
  | case2 => simp [put]
  | case3 k' a' rest hne ih => rw [put, if_neg hne, put, if_neg hne, ih]

/-- A value that a key has already can be set without effect. -/
theorem put_of_lookup_eq_some {k : κ} {a : α} {entries : List (κ × α)}
    (h : lookup k entries = some a) : put k a entries = entries := by
  fun_induction put k a entries with
  | case1 => cases h
  | case2 => grind [lookup]
  | case3 => grind [lookup]

/-! ### The map -/

/-- The value of a key. -/
def get? (m : OrderedMap κ α) (k : κ) : Option α := lookup k m.entries

/-- Whether a key is present. -/
def contains (m : OrderedMap κ α) (k : κ) : Bool := (m.get? k).isSome

/-- Sets the value of a key. -/
def insert (m : OrderedMap κ α) (k : κ) (a : α) : OrderedMap κ α :=
  ⟨put k a m.entries, distinct_put m.distinct⟩

/-- Removes a key and keeps the order of the others. -/
def erase (m : OrderedMap κ α) (k : κ) : OrderedMap κ α :=
  ⟨drop k m.entries, distinct_drop m.distinct⟩

/-- The keys in insertion order. -/
def keys (m : OrderedMap κ α) : List κ := m.entries.map Prod.fst

/-- The number of entries. -/
def size (m : OrderedMap κ α) : Nat := m.entries.length

theorem get?_insert (m : OrderedMap κ α) (k k' : κ) (a : α) :
    (m.insert k a).get? k' = if k' = k then some a else m.get? k' :=
  lookup_put k k' a m.entries

theorem get?_erase (m : OrderedMap κ α) (k k' : κ) :
    (m.erase k).get? k' = if k' = k then none else m.get? k' :=
  lookup_drop m.distinct k k'

theorem get?_eq_some_iff (m : OrderedMap κ α) (k : κ) (a : α) :
    m.get? k = some a ↔ (k, a) ∈ m.entries :=
  ⟨mem_of_lookup, lookup_of_mem m.distinct⟩

theorem insert_insert (m : OrderedMap κ α) (k : κ) (a b : α) :
    (m.insert k a).insert k b = m.insert k b := by
  simp only [insert, put_put]

/-- A value that a key has already can be set without effect. -/
theorem insert_of_get?_eq_some {m : OrderedMap κ α} {k : κ} {a : α} (h : m.get? k = some a) :
    m.insert k a = m := by
  simp only [insert, put_of_lookup_eq_some h]

end OrderedMap
end ScriptEngine
