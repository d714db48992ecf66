import ScriptEngine.Proofs.UnresolvedName

/-!
# The text of a key

A string and the key that it spells determine each other: the text of the key of a string is the
string, and a key that is no symbol is the key of its text, unless it is a string that spells an
index.

## Main results

* `PropertyKey.parseIndex?_repr`, `PropertyKey.repr_of_parseIndex?`: the strings that spell an
  index.
* `PropertyKey.text_ofString`, `PropertyKey.ofString_text`: keys and their texts.
-/

namespace ScriptEngine

/-! ### Decimal digits -/

/-- A decimal digit has a value below ten, and is the digit of that value. -/
theorem lt_ten_and_digitChar_of_isDigit {c : Char} (hc : c.isDigit) :
    c.toNat - 48 < 10 ∧ (c.toNat - 48).digitChar = c := by
  have hrange : 48 ≤ c.toNat ∧ c.toNat ≤ 57 := Char.isDigit_iff_toNat.mp hc
  have hlt : c.toNat - 48 < 10 := by omega
  refine ⟨hlt, Char.toNat_inj.mp ?_⟩
  rw [Nat.toNat_digitChar_of_lt_ten hlt]
  omega

/-- Digits that are read on from a number continue its digits. -/
theorem toDigits_append_eq {n : Nat} (hn : 0 < n) {cs : List Char} (hcs : cs.all Char.isDigit) :
    Nat.toDigits 10 n ++ cs = Nat.toDigits 10 (Nat.ofDigitChars 10 cs n) := by
  induction cs generalizing n with
  | nil => simp
  | cons c cs ih =>
    rw [List.all_cons, Bool.and_eq_true] at hcs
    obtain ⟨hlt, hc⟩ := lt_ten_and_digitChar_of_isDigit hcs.1
    calc Nat.toDigits 10 n ++ c :: cs
      _ = Nat.toDigits 10 n ++ Nat.toDigits 10 (c.toNat - 48) ++ cs := by
        rw [Nat.toDigits_of_lt_base hlt, hc, List.append_assoc, List.singleton_append]
      _ = Nat.toDigits 10 (10 * n + (c.toNat - 48)) ++ cs := by
        rw [Nat.toDigits_append_toDigits (by decide) hn hlt]
      _ = Nat.toDigits 10 (Nat.ofDigitChars 10 (c :: cs) n) := by
        rw [Nat.ofDigitChars_cons]
        exact ih (by omega) hcs.2

/-- Digits without a leading zero are those of the number that they spell. -/
theorem toDigits_ofDigitChars {c : Char} {cs : List Char} (hcs : (c :: cs).all Char.isDigit)
    (hzero : c = '0' → cs = []) : Nat.toDigits 10 (Nat.ofDigitChars 10 (c :: cs) 0) = c :: cs := by
  rw [List.all_cons, Bool.and_eq_true] at hcs
  obtain ⟨hlt, hc⟩ := lt_ten_and_digitChar_of_isDigit hcs.1
  rw [Nat.ofDigitChars_cons]
  by_cases h : c = '0'
  · rw [h, hzero h]
    rfl
  · have hpos : 0 < c.toNat - 48 := by
      refine Nat.pos_of_ne_zero fun h0 => h ?_
      rw [← hc, h0]
      rfl
    rw [Nat.mul_zero, Nat.zero_add]
    refine (toDigits_append_eq hpos hcs.2).symm.trans ?_
    rw [Nat.toDigits_of_lt_base hlt, hc, List.singleton_append]

/-- The digits of a number have no leading zero. -/
theorem head?_toDigits {n : Nat} (hn : 0 < n) : (Nat.toDigits 10 n).head? ≠ some '0' := by
  induction n using Nat.strongRecOn with
  | ind n ih =>
    by_cases hlt : n < 10
    · rw [Nat.toDigits_of_lt_base hlt, List.head?_cons, ne_eq, Option.some.injEq,
        Nat.digitChar_eq_zero]
      omega
    · rw [Nat.toDigits_of_base_le (by decide) (by omega), List.head?_append_of_ne_nil _
        Nat.toDigits_ne_nil]
      exact ih (n / 10) (by omega) (by omega)

namespace PropertyKey

/-! ### Strings that spell an index -/

theorem foldl_eq_ofDigitChars (cs : List Char) (n : Nat) :
    cs.foldl (fun n c => n * 10 + (c.toNat - 48)) n = Nat.ofDigitChars 10 cs n := by
  simp only [Nat.ofDigitChars_eq_foldl, Nat.mul_comm]
  rfl

theorem parseIndex?_repr {n : Nat} (hn : n ≤ maxIndex) : parseIndex? (Nat.repr n) = some n := by
  have hdigits : (Nat.repr n).toList = Nat.toDigits 10 n := by
    rw [Nat.repr_eq_ofList_toDigits, String.toList_ofList]
  have hempty : (Nat.toDigits 10 n).isEmpty = false :=
    List.isEmpty_eq_false_iff.mpr Nat.toDigits_ne_nil
  have hall : (Nat.toDigits 10 n).all Char.isDigit :=
    List.all_eq_true.mpr fun _ hc => Nat.isDigit_of_mem_toDigits (by decide) (by decide) hc
  have hzero : ((Nat.toDigits 10 n).head? == some '0' && (Nat.toDigits 10 n).length ≠ 1)
      = false := by
    cases n with
    | zero => rfl
    | succ n =>
      rw [beq_eq_false_iff_ne.mpr (head?_toDigits (Nat.succ_pos n)), Bool.false_and]
  simp only [parseIndex?, hdigits, hempty, hall, hzero, foldl_eq_ofDigitChars,
    Nat.ofDigitChars_ten_toDigits]
  exact if_pos hn

/-- A string that spells an index is the decimal text of the index. -/
theorem repr_of_parseIndex? {s : String} {n : Nat} (h : parseIndex? s = some n) :
    Nat.repr n = s := by
  simp only [parseIndex?, foldl_eq_ofDigitChars] at h
  split at h
  · cases h
  · next hspelled =>
    simp only [Bool.or_eq_true, not_or, Bool.not_eq_true, Bool.not_eq_false'] at hspelled
    obtain ⟨⟨hempty, hall⟩, hzero⟩ := hspelled
    split at h
    · cases h
      have hdigits : Nat.toDigits 10 (Nat.ofDigitChars 10 s.toList 0) = s.toList := by
        cases hcs : s.toList with
        | nil => simp [hcs] at hempty
        | cons c cs =>
          rw [hcs] at hall hzero
          refine toDigits_ofDigitChars hall fun hc => ?_
          simpa [hc] using hzero
      rw [Nat.repr_eq_ofList_toDigits, hdigits, String.ofList_toList]
    · cases h

/-! ### Keys and their texts -/

/-- A string names no symbol. -/
theorem isSymbol_ofString (s : String) : (ofString s).isSymbol = false := by
  cases h : parseIndex? s with
  | none =>
    rw [ofString_of_none h]
    rfl
  | some n =>
    rw [ofString_of_some h]
    rfl

/-- The text of the key of a string is the string. -/
theorem text_ofString (s : String) : (ofString s).text = s := by
  cases h : parseIndex? s with
  | none => rw [ofString_of_none h, text]
  | some n =>
    rw [ofString_of_some h, text]
    exact repr_of_parseIndex? h

/-- A canonical key that is no symbol is the key of its text. -/
theorem ofString_text {k : PropertyKey} (hk : k.isCanonical) (hs : k.isSymbol = false) :
    ofString k.text = k := by
  cases k with
  | string s => exact ofString_of_none (Option.isNone_iff_eq_none.mp hk)
  | index i => exact ofString_of_some (parseIndex?_repr (Nat.le_of_lt_succ i.isLt))
  | symbol s => cases hs

end PropertyKey
end ScriptEngine
