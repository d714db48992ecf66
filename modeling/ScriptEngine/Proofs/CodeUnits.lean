import ScriptEngine.Scope.Namespace

/-!
# Names in the order of their code units

The code units of a string spell the string, so that the order of code units is a total order of
strings. Names that were put into that order, each once, are found again by halving.

## Main results

* `Text.ofUnits_units`: decoding inverts encoding.
* `Text.length_units`: the length of a string is the number of its units.
* `Text.compareUnits` is a total order: `Std.TransCmp` and `Std.LawfulEqCmp`.
* `namesAscend_sortNames`, `mem_sortNames`: sorted names ascend, and none is lost.
* `findName_eq`: what is found among ascending names.
-/

namespace ScriptEngine

namespace Text

/-! ### Encoding and decoding -/

/-- A unit that is no first half of a pair stands alone. -/
theorem decode_cons {u : UInt16} (h : isLeading u = false) (us : List UInt16) :
    decode (u :: us) = loneChar u :: decode us := by
  cases us with
  | nil => rfl
  | cons v us => simp [decode, h]

theorem decode_pair {u v : UInt16} (hu : isLeading u) (hv : isTrailing v) (us : List UInt16) :
    decode (u :: v :: us) = Char.ofNat (pairValue u v) :: decode us := by
  simp [decode, hu, hv]

theorem isLeading_iff (u : UInt16) :
    isLeading u = true ↔ 0xD800 ≤ u.toNat ∧ u.toNat ≤ 0xDBFF := by
  simp [isLeading, UInt16.le_iff_toNat_le]

theorem isTrailing_iff (u : UInt16) :
    isTrailing u = true ↔ 0xDC00 ≤ u.toNat ∧ u.toNat ≤ 0xDFFF := by
  simp [isTrailing, UInt16.le_iff_toNat_le]

section Surrogates

variable {u v : UInt16} {n : Nat}

/-- The pair of a large value is decoded to the value. -/
theorem decode_pair_of_toNat (hu : u.toNat = 0xD800 + (n - 0x10000) / 0x400)
    (hv : v.toNat = 0xDC00 + (n - 0x10000) % 0x400) (hl : 0x10000 ≤ n) (hn : n < 0x110000)
    (us : List UInt16) : decode (u :: v :: us) = Char.ofNat n :: decode us := by
  have hlead : isLeading u := by
    rw [isLeading_iff, hu]
    omega
  have htrail : isTrailing v := by
    rw [isTrailing_iff, hv]
    omega
  have hvalue : pairValue u v = n := by
    unfold pairValue
    omega
  rw [decode_pair hlead htrail, hvalue]

end Surrogates

/-- Decoding the units of a character gives the character back. -/
theorem decode_charUnits_append (c : Char) (us : List UInt16) :
    decode (charUnits c ++ us) = c :: decode us := by
  have hvalid : c.toNat < 0xD800 ∨ 0xDFFF < c.toNat ∧ c.toNat < 0x110000 := c.valid
  unfold charUnits
  split
  · next hsmall =>
    have hu : (UInt16.ofNat c.toNat).toNat = c.toNat := by
      rw [UInt16.toNat_ofNat']
      omega
    have hlead : isLeading (UInt16.ofNat c.toNat) = false := by
      rw [Bool.eq_false_iff, ne_eq, isLeading_iff]
      omega
    have htrail : isTrailing (UInt16.ofNat c.toNat) = false := by
      rw [Bool.eq_false_iff, ne_eq, isTrailing_iff]
      omega
    rw [List.singleton_append, decode_cons hlead, loneChar, hlead, htrail, hu, Char.ofNat_toNat]
    rfl
  · next hlarge =>
    have hu : (UInt16.ofNat (0xD800 + (c.toNat - 0x10000) / 0x400)).toNat
        = 0xD800 + (c.toNat - 0x10000) / 0x400 := by
      rw [UInt16.toNat_ofNat']
      omega
    have hv : (UInt16.ofNat (0xDC00 + (c.toNat - 0x10000) % 0x400)).toNat
        = 0xDC00 + (c.toNat - 0x10000) % 0x400 := by
      rw [UInt16.toNat_ofNat']
      omega
    have hpair := decode_pair_of_toNat hu hv (Nat.le_of_not_lt hlarge) (by omega) us
    rwa [Char.ofNat_toNat] at hpair

theorem decode_flatMap_charUnits (cs : List Char) : decode (cs.flatMap charUnits) = cs := by
  induction cs with
  | nil => rfl
  | cons c cs ih => rw [List.flatMap_cons, decode_charUnits_append, ih]

/-- The units of a string spell the string. -/
theorem ofUnits_units (s : String) : ofUnits (units s) = s := by
  rw [ofUnits, units, decode_flatMap_charUnits, String.ofList_toList]

theorem units_injective {s t : String} (h : units s = units t) : s = t := by
  rw [← ofUnits_units s, h, ofUnits_units]

/-! ### Length -/

theorem length_charUnits (c : Char) : (charUnits c).length = unitSize c := by
  unfold charUnits unitSize
  split
  · rfl
  · rfl

/-- A character takes at most as many units as bytes. -/
theorem unitSize_le_utf8Size (c : Char) : unitSize c ≤ c.utf8Size := by
  unfold unitSize
  split
  · exact c.utf8Size_pos
  · next h =>
    refine Nat.lt_of_le_of_ne c.utf8Size_pos fun hone => ?_
    have hval : c.toNat ≤ 127 := Char.utf8Size_eq_one_iff.mp hone.symm
    omega

/-- Each character takes at least one unit. -/
theorem length_le_units (cs : List Char) : cs.length ≤ (cs.flatMap charUnits).length := by
  induction cs with
  | nil => exact Nat.le_refl 0
  | cons c cs ih =>
    have hpos : 1 ≤ unitSize c := by
      unfold unitSize
      split
      · exact Nat.le_refl 1
      · exact Nat.le_succ 1
    rw [List.flatMap_cons, List.length_append, length_charUnits, List.length_cons]
    omega

theorem units_le_utf8ByteSize (cs : List Char) :
    (cs.flatMap charUnits).length ≤ (String.ofList cs).utf8ByteSize := by
  induction cs with
  | nil => exact Nat.zero_le _
  | cons c cs ih =>
    rw [List.flatMap_cons, List.length_append, length_charUnits, String.ofList_cons,
      String.utf8ByteSize_append, String.utf8ByteSize_singleton]
    exact Nat.add_le_add (unitSize_le_utf8Size c) ih

theorem length_units (s : String) : (units s).length = unitLength s := by
  have hfold (cs : List Char) (n : Nat) :
      cs.foldl (fun n c => n + unitSize c) n = n + (cs.flatMap charUnits).length := by
    induction cs generalizing n with
    | nil => rfl
    | cons c cs ih =>
      rw [List.foldl_cons, ih, List.flatMap_cons, List.length_append, length_charUnits]
      omega
  unfold unitLength
  split
  · next hbytes =>
    have hfew := units_le_utf8ByteSize s.toList
    rw [String.ofList_toList, hbytes] at hfew
    exact Nat.le_antisymm hfew (String.length_toList ▸ length_le_units s.toList)
  · rw [units, hfold, Nat.zero_add]

/-! ### Order -/

theorem compareLists_eq (us vs : List UInt16) :
    compareLists us vs = List.compareLex compare us vs := by
  induction us generalizing vs with
  | nil => cases vs <;> rfl
  | cons u us ih =>
    cases vs with
    | nil => rfl
    | cons v vs =>
      rw [List.compareLex_cons_cons, ← ih, compareLists]
      change _ = (compareOfLessAndEq u v).then _
      unfold compareOfLessAndEq
      by_cases hlt : u < v
      · rw [if_pos hlt, if_pos hlt]
        rfl
      · rw [if_neg hlt, if_neg hlt]
        by_cases heq : u = v
        · rw [if_pos heq, if_neg (heq ▸ UInt16.lt_irrefl u)]
          rfl
        · have hgt : v < u := UInt16.lt_of_le_of_ne (UInt16.not_lt.mp hlt) (Ne.symm heq)
          rw [if_neg heq, if_pos hgt]
          rfl

theorem compareUnits_eq (s t : String) :
    compareUnits s t = List.compareLex compare (units s) (units t) :=
  compareLists_eq _ _

instance : Std.OrientedCmp compareUnits where
  eq_swap {s t} := by
    rw [compareUnits_eq, compareUnits_eq]
    exact Std.OrientedCmp.eq_swap

instance : Std.TransCmp compareUnits where
  isLE_trans hst htr := by
    rw [compareUnits_eq] at hst htr ⊢
    exact Std.TransCmp.isLE_trans hst htr

instance : Std.LawfulEqCmp compareUnits where
  compare_self {s} := by
    rw [compareUnits_eq]
    exact Std.ReflCmp.compare_self
  eq_of_compare h := by
    rw [compareUnits_eq] at h
    exact units_injective (Std.LawfulEqCmp.eq_of_compare h)

theorem compareUnits_self (s : String) : compareUnits s s = .eq :=
  Std.ReflCmp.compare_self

/-- The first half of a pair is below `U+FFFD`. -/
example : compareUnits "𝄞" "\uFFFD" = .lt := by decide

end Text

/-! ### Sorted names -/

/-- Whether names ascend in the order of code units. -/
def NamesAscend (names : List String) : Prop :=
  names.Pairwise fun a b => Text.compareUnits a b = .lt

section Names

variable {names : List String} {name : String}

theorem mem_dropRepeats : name ∈ dropRepeats names ↔ name ∈ names := by
  fun_induction dropRepeats names with
  | case1 a rest ih => simp [ih]
  | case2 a b rest hne ih => simp [ih]
  | case3 => rfl

/-- Names of which none comes before an earlier one ascend once repeated ones are dropped. -/
theorem namesAscend_dropRepeats
    (h : names.Pairwise fun a b => (Text.compareUnits a b).isLE) :
    NamesAscend (dropRepeats names) := by
  fun_induction dropRepeats names with
  | case1 a rest ih => exact ih h.of_cons
  | case2 a b rest hne ih =>
    obtain ⟨hfirst, hrest⟩ := List.pairwise_cons.mp h
    have hlt : Text.compareUnits a b = .lt := by
      have hle := hfirst b List.mem_cons_self
      have hneq : Text.compareUnits a b ≠ .eq := fun heq => hne (Std.LawfulEqCmp.eq_of_compare heq)
      revert hle hneq
      cases Text.compareUnits a b <;> simp
    refine List.pairwise_cons.mpr ⟨fun c hc => ?_, ih hrest⟩
    obtain rfl | hc := List.mem_cons.mp (mem_dropRepeats.mp hc)
    · exact hlt
    · exact Std.TransCmp.lt_of_lt_of_isLE hlt ((List.pairwise_cons.mp hrest).1 c hc)
  | case3 names hnames =>
    match names, hnames with
    | [], _ => exact .nil
    | [a], _ => exact List.pairwise_singleton _ a
    | a :: b :: rest, hnames => exact absurd rfl (hnames a b rest)

theorem mem_sortNames : name ∈ sortNames names ↔ name ∈ names := by
  rw [sortNames, mem_dropRepeats, List.mem_mergeSort]

/-- Sorted names ascend. -/
theorem namesAscend_sortNames (names : List String) : NamesAscend (sortNames names) := by
  refine namesAscend_dropRepeats ?_
  have hle (a b : String) :
      (Text.compareUnits a b != .gt) = (Text.compareUnits a b).isLE := by
    cases Text.compareUnits a b <;> rfl
  simp only [hle]
  refine List.pairwise_mergeSort (fun a b c => Std.TransCmp.isLE_trans) (fun a b => ?_) names
  have hswap : Text.compareUnits b a = (Text.compareUnits a b).swap := Std.OrientedCmp.eq_swap
  rw [hswap]
  cases Text.compareUnits a b <;> rfl

section Halves

variable {before after : List String} {middle : String}

/-- A name that comes after the middle one is in the second half if it is there at all. -/
theorem mem_iff_mem_after (h : NamesAscend names) (hnames : names = before ++ middle :: after)
    (hlt : Text.compareUnits middle name = .lt) : name ∈ names ↔ name ∈ after := by
  subst hnames
  obtain ⟨-, -, hacross⟩ := List.pairwise_append.mp h
  have hmiddle : name ≠ middle := by
    rintro rfl
    rw [Text.compareUnits_self] at hlt
    cases hlt
  have hbefore : name ∉ before := fun hmem =>
    Std.OrientedCmp.not_lt_of_lt hlt (hacross name hmem middle List.mem_cons_self)
  simp [hmiddle, hbefore]

/-- A name that comes before the middle one is in the first half if it is there at all. -/
theorem mem_iff_mem_before (h : NamesAscend names) (hnames : names = before ++ middle :: after)
    (hgt : Text.compareUnits middle name = .gt) : name ∈ names ↔ name ∈ before := by
  subst hnames
  obtain ⟨-, hrest, -⟩ := List.pairwise_append.mp h
  have hmiddle : name ≠ middle := by
    rintro rfl
    rw [Text.compareUnits_self] at hgt
    cases hgt
  have hafter : name ∉ after := by
    intro hmem
    rw [(List.pairwise_cons.mp hrest).1 name hmem] at hgt
    cases hgt
  simp [hmiddle, hafter]

end Halves

/-- Among ascending names exactly those are found that are there. -/
theorem findName_eq (h : NamesAscend names) (name : String) :
    findName name names = if name ∈ names then some name else none := by
  have hhalves {names after : List String} {middle : String} {n : Nat}
      (hdrop : names.drop n = middle :: after) : names = names.take n ++ middle :: after := by
    rw [← hdrop, List.take_append_drop]
  fun_induction findName name names with
  | case1 names hnil =>
    have hlength := congrArg List.length hnil
    rw [List.length_drop, List.length_nil] at hlength
    obtain rfl : names = [] := List.eq_nil_of_length_eq_zero (by omega)
    rfl
  | case2 names middle after hdrop heq =>
    obtain rfl := Std.LawfulEqCmp.eq_of_compare heq
    have hmem : middle ∈ names := by
      rw [hhalves hdrop]
      simp
    rw [if_pos hmem]
  | case3 names middle after hdrop hlt ih =>
    have hafter : NamesAscend after :=
      h.sublist ((List.sublist_cons_self middle after).trans (hdrop ▸ List.drop_sublist _ names))
    rw [ih hafter]
    simp only [mem_iff_mem_after h (hhalves hdrop) hlt]
  | case4 names middle after hdrop hgt ih =>
    rw [ih (h.sublist (List.take_sublist _ names))]
    simp only [mem_iff_mem_before h (hhalves hdrop) hgt]

end Names
end ScriptEngine
