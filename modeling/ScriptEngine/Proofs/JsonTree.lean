import ScriptEngine.Json.Basic
import ScriptEngine.PropertyKey

/-!
# JSON trees

A tree that is turned into a value and written again comes back with its numbers as doubles and with
the members of its objects in another order: those whose names are indices come first, in ascending
order, and the others follow in theirs.

## Main definitions

* `Json.rebuilt`: a tree with its numbers and the members of its objects changed from the parts up.
* `Json.indicesFirst`: members in the order in which objects list them.
* `Json.floats`, `Json.exchanged`: numbers as doubles, and with members reordered.
* `Json.WellFormed`: trees of limited depth with distinct names and numbers of a certain kind.
* `Json.containers`: how many arrays and objects a tree has.
-/

namespace ScriptEngine.Json

/-! ### Changing a tree from the parts up -/

mutual

/-- A tree with its numbers changed and the members of its objects rearranged, the parts before the
whole. -/
def rebuilt (f : JsonNumber → JsonNumber) (g : List (String × Json) → List (String × Json)) :
    Json → Json
  | null => null
  | bool b => bool b
  | number n => number (f n)
  | string s => string s
  | array items => array (rebuiltItems f g items)
  | object members => object (g (rebuiltMembers f g members))

/-- The items of an array with their parts changed. -/
def rebuiltItems (f : JsonNumber → JsonNumber) (g : List (String × Json) → List (String × Json)) :
    List Json → List Json
  | [] => []
  | j :: js => rebuilt f g j :: rebuiltItems f g js

/-- The members of an object with their parts changed. -/
def rebuiltMembers (f : JsonNumber → JsonNumber)
    (g : List (String × Json) → List (String × Json)) :
    List (String × Json) → List (String × Json)
  | [] => []
  | (name, j) :: rest => (name, rebuilt f g j) :: rebuiltMembers f g rest

end

theorem rebuiltItems_eq (f : JsonNumber → JsonNumber)
    (g : List (String × Json) → List (String × Json)) (items : List Json) :
    rebuiltItems f g items = items.map (rebuilt f g) := by
  induction items with
  | nil => simp only [rebuiltItems, List.map_nil]
  | cons j js ih => simp only [rebuiltItems, ih, List.map_cons]

theorem rebuiltMembers_eq (f : JsonNumber → JsonNumber)
    (g : List (String × Json) → List (String × Json)) (members : List (String × Json)) :
    rebuiltMembers f g members = members.map fun m => (m.1, rebuilt f g m.2) := by
  induction members with
  | nil => simp only [rebuiltMembers, List.map_nil]
  | cons m rest ih => simp only [rebuiltMembers, ih, List.map_cons]

/-- A number as a double. -/
def toDouble (n : JsonNumber) : JsonNumber := .float n.toFloat

/-- The members whose names are indices in ascending order, and then the others as they are. -/
def indicesFirst {α : Type} (members : List (String × α)) : List (String × α) :=
  (members.filter fun m => (PropertyKey.parseIndex? m.1).isSome).mergeSort (fun m m' =>
      (PropertyKey.parseIndex? m.1).getD 0 ≤ (PropertyKey.parseIndex? m'.1).getD 0)
    ++ members.filter fun m => (PropertyKey.parseIndex? m.1).isNone

section IndicesFirst

variable {α β : Type} {m : String × α}

theorem mem_indicesFirst {members : List (String × α)} :
    m ∈ indicesFirst members ↔ m ∈ members := by
  rw [indicesFirst, List.mem_append, List.mem_mergeSort, List.mem_filter, List.mem_filter]
  cases PropertyKey.parseIndex? m.1 <;> simp

/-- No member is lost and none is doubled. -/
theorem indicesFirst_perm (members : List (String × α)) :
    (indicesFirst members).Perm members := by
  refine ((List.mergeSort_perm _ _).append_right _).trans ?_
  have hnot : (fun m : String × α => (PropertyKey.parseIndex? m.1).isNone)
      = fun m => !(PropertyKey.parseIndex? m.1).isSome := by
    funext m
    rw [Option.not_isSome]
  rw [hnot]
  exact List.filter_append_perm _ _

/-- The order depends on the names alone. -/
theorem indicesFirst_map (f : α → β) (members : List (String × α)) :
    indicesFirst (members.map fun m => (m.1, f m.2))
      = (indicesFirst members).map fun m => (m.1, f m.2) := by
  rw [indicesFirst, indicesFirst, List.map_append, List.filter_map, List.filter_map]
  refine congrArg (· ++ _) (Eq.symm ?_)
  exact List.map_mergeSort (f := fun m : String × α => (m.1, f m.2)) fun _ _ _ _ => rfl

end IndicesFirst

/-- A tree with its numbers as doubles. -/
def floats : Json → Json := rebuilt toDouble id

/-- A tree with its numbers as doubles and the members of its objects in the order in which objects
list them. -/
def exchanged : Json → Json := rebuilt toDouble indicesFirst

theorem floats_array (items : List Json) : (array items).floats = array (items.map floats) := by
  rw [floats, rebuilt, rebuiltItems_eq]

theorem floats_object (members : List (String × Json)) :
    (object members).floats = object (members.map fun m => (m.1, m.2.floats)) := by
  rw [floats, rebuilt, rebuiltMembers_eq]
  rfl

theorem exchanged_array (items : List Json) :
    (array items).exchanged = array (items.map exchanged) := by
  rw [exchanged, rebuilt, rebuiltItems_eq]

theorem exchanged_object (members : List (String × Json)) : (object members).exchanged
    = object (indicesFirst (members.map fun m => (m.1, m.2.exchanged))) := by
  rw [exchanged, rebuilt, rebuiltMembers_eq]

/-! ### Trees with distinct names -/

/-- A tree whose containers are nested at most `depth` deep, whose arrays are not longer than arrays
can be, whose objects name no member twice, and whose numbers are doubles of a certain kind. -/
inductive WellFormed (P : Float → Prop) : (depth : Nat) → Json → Prop
  | null {depth : Nat} : WellFormed P depth null
  | bool {depth : Nat} (b : Bool) : WellFormed P depth (bool b)
  | number {depth : Nat} {n : JsonNumber} (hn : P n.toFloat) : WellFormed P depth (number n)
  | string {depth : Nat} (s : String) : WellFormed P depth (string s)
  | array {depth : Nat} {items : List Json} (hlength : items.length < Number.twoPow 32)
      (h : ∀ j ∈ items, WellFormed P depth j) : WellFormed P (depth + 1) (array items)
  | object {depth : Nat} {members : List (String × Json)}
      (hnames : (members.map Prod.fst).Nodup)
      (h : ∀ m ∈ members, WellFormed P depth m.2) : WellFormed P (depth + 1) (object members)

/-- Reordering keeps a tree well-formed, and so does turning numbers into doubles. -/
theorem WellFormed.exchanged {P : Float → Prop} {depth : Nat} {t : Json}
    (h : t.WellFormed P depth) : t.exchanged.WellFormed P depth := by
  induction h with
  | null => exact .null
  | bool b => exact .bool b
  | number hn => exact .number hn
  | string s => exact .string s
  | array hlength _ ih =>
    rw [exchanged_array]
    refine .array (by rwa [List.length_map]) fun j hj => ?_
    obtain ⟨j, hmem, rfl⟩ := List.mem_map.mp hj
    exact ih j hmem
  | @object _ members hnames _ ih =>
    rw [exchanged_object]
    refine .object (((indicesFirst_perm _).map Prod.fst).nodup_iff.mpr ?_) fun m hm => ?_
    · rw [List.map_map]
      exact hnames
    · obtain ⟨m, hmem, rfl⟩ := List.mem_map.mp (mem_indicesFirst.mp hm)
      exact ih m hmem

/-- The numbers of a tree that came back are doubles. -/
theorem WellFormed.floats_exchanged {P : Float → Prop} {depth : Nat} {t : Json}
    (h : t.WellFormed P depth) : t.exchanged.floats = t.exchanged := by
  induction h with
  | null => rfl
  | bool b => rfl
  | number hn => rfl
  | string s => rfl
  | array _ _ ih =>
    rw [exchanged_array, floats_array, List.map_map]
    exact congrArg _ (List.map_congr_left ih)
  | object _ _ ih =>
    rw [exchanged_object, floats_object]
    refine congrArg _ (List.map_congr_left (g := id) (fun m hm => ?_) |>.trans (List.map_id _))
    obtain ⟨m, hmem, rfl⟩ := List.mem_map.mp (mem_indicesFirst.mp hm)
    exact Prod.ext rfl (ih m hmem)

mutual

/-- How many arrays and objects a tree has. -/
def containers : Json → Nat
  | array items => containersOfItems items + 1
  | object members => containersOfMembers members + 1
  | _ => 0

/-- How many arrays and objects the items of an array have. -/
def containersOfItems : List Json → Nat
  | [] => 0
  | j :: js => containers j + containersOfItems js

/-- How many arrays and objects the members of an object have. -/
def containersOfMembers : List (String × Json) → Nat
  | [] => 0
  | (_, j) :: rest => containers j + containersOfMembers rest

end

end ScriptEngine.Json
