import ScriptEngine.Builtin.Array.Access
import ScriptEngine.Proofs.RelativeIndex
import ScriptEngine.Proofs.WordArithmetic

/-!
# The indices of the array functions

Lengths and indices are natural numbers up to `2 ^ 53 - 1`, and arguments that count from either end
are doubles. The array functions are written down once more with each sum and each difference of
theirs in words of 64 bits. Whatever words make of sums and differences that are no words, the
functions stay the same: none is ever formed, although the program may change the object between any
two steps. The lengths of ranges are not differences, for a range whose end is before its start is
empty.

## Main definitions

* `Value.exactIndex`: a relative index in terms of exact integers.
* `WordArithmetic.pushOn`, `WordArithmetic.spliceAt`, `WordArithmetic.concatWith` and so on: the
  array functions in words.

## Main results

* `Value.yields_toLength`: the greatest length.
* `relativeIndex_eq`, `yields_relativeIndex`: relative indices are exact and lie within the length.
* `ArrayFunction.yields_lastStart`: a search from the end starts within the length.
* `array_indices_are_words`: no sum or difference leaves the words.
-/

namespace ScriptEngine

open Engine

variable {H : HostTypes}

/-! ### Lengths -/

namespace Number

theorem toNat_of_negInfinity {x : Float} (h : x.toModel.unpack = .infinity .negative) :
    toNat x = 0 := by
  refine toNat_eq_of_toInt ?_ (by decide) (z := 0)
  rw [h]
  rfl

/-- The integer part of a number, lowered to a limit. -/
theorem toNat_atMost_le (x : Float) {n : Nat} (hn : n < 2 ^ 53) :
    toNat (atMost (integerOrInfinity x) (Float.ofNat n)) ≤ n := by
  rcases integral_cases x with ⟨s, hs, hx, -⟩ | ⟨z, hz, -⟩
  · rw [hx]
    unfold atMost
    split
    · exact Nat.le_of_eq (toNat_ofNat hn)
    · next hle =>
      cases s with
      | positive =>
        have hlt := decide_eq_true (ofNat_lt_of_infinity hs hn)
        rw [hlt, Bool.true_or] at hle
        exact absurd rfl hle
      | negative => exact (toNat_of_negInfinity hs).trans_le (Nat.zero_le n)
  · rw [hz.toNat_atMost hn]
    omega

theorem maxSafe_lt : maxSafe < 2 ^ 53 := by decide

end Number

namespace Value

/-- The integer part of a value is that of a number. -/
theorem yields_toIntegerOrInfinity (v : Value) :
    (v.toIntegerOrInfinity : Engine H Float).Yields fun y => ∃ x, y = Number.integerOrInfinity x :=
  (Engine.Yields.any v.toNumber).bind fun x _ => .pure ⟨x, rfl⟩

/-- A length is at most the largest safe integer. -/
theorem yields_toLength (v : Value) :
    (v.toLength : Engine H Nat).Yields (· ≤ Number.maxSafe) := by
  refine v.yields_toIntegerOrInfinity.bind fun y ⟨x, hx⟩ => ?_
  subst hx
  split
  · exact .pure (Nat.zero_le _)
  · exact .pure (Number.toNat_atMost_le x Number.maxSafe_lt)

/-- The index that an argument means, with a value for `undefined`, in terms of exact integers. -/
def exactIndex (v : Value) (length fallback : Nat) : Engine H Nat := do
  if v.isUndefined then return fallback
  return (Number.integral (← v.toNumber)).relativeTo length

end Value

theorem ObjectId.yields_lengthOfArrayLike (o : ObjectId) :
    (o.lengthOfArrayLike : Engine H Nat).Yields (· ≤ Number.maxSafe) :=
  (Engine.Yields.any (o.get lengthKey)).bind fun v _ => v.yields_toLength

theorem ObjectId.yields_ofReceiver (this : Value) :
    (ObjectId.ofReceiver this : Engine H (ObjectId × Nat)).Yields (·.2 ≤ Number.maxSafe) :=
  (Engine.Yields.any this.toObject).bind fun o _ =>
    o.yields_lengthOfArrayLike.bind fun _ h => .pure h

/-! ### Relative indices -/

section Relative

variable {v : Value} {length fallback : Nat}

/-- A relative index is that of the exact integers. -/
theorem relativeIndex_eq (h : length ≤ Number.maxSafe) :
    (relativeIndex v length fallback : Engine H Nat) = v.exactIndex length fallback := by
  unfold relativeIndex Value.exactIndex Value.toIntegerOrInfinity
  split
  · rfl
  · rw [bind_assoc]
    refine bind_congr fun x => ?_
    rw [pure_bind, resolveRelative_eq x (h.trans_lt Number.maxSafe_lt)]

/-- The relative index of a number. -/
theorem relativeIndex_number (x : Float) (h : length ≤ Number.maxSafe) :
    (relativeIndex (.number x) length fallback : Engine H Nat)
      = pure ((Number.integral x).relativeTo length) :=
  relativeIndex_eq h

/-- A relative index does not leave the length. -/
theorem yields_relativeIndex (h : length ≤ Number.maxSafe) (hf : fallback ≤ length) :
    (relativeIndex v length fallback : Engine H Nat).Yields (· ≤ length) := by
  rw [relativeIndex_eq h]
  unfold Value.exactIndex
  split
  · exact .pure hf
  · exact (Engine.Yields.any v.toNumber).bind fun x _ =>
      .pure ((Number.integral x).relativeTo_le length)

/-- The elements that a splice removes are among those that there are. -/
theorem ArrayFunction.yields_deleteCount {args : List Value} {available : Nat}
    (h : available ≤ Number.maxSafe) :
    (deleteCount args available : Engine H Nat).Yields (· ≤ available) := by
  unfold deleteCount
  split
  · exact .pure (Nat.zero_le _)
  · exact .pure (Nat.le_refl _)
  · next count _ =>
    refine count.yields_toIntegerOrInfinity.bind fun y ⟨x, hx⟩ => .pure ?_
    rw [hx, Number.toNat_clamp x (h.trans_lt Number.maxSafe_lt)]
    exact (Number.integral x).upTo_le available

/-- A search from the end starts below the length. -/
theorem ArrayFunction.yields_lastStart {args : List Value} (h : length ≤ Number.maxSafe)
    (hpos : 0 < length) :
    (lastStart args length : Engine H Float).Yields (Number.toNat · < length) := by
  have hlt := h.trans_lt Number.maxSafe_lt
  unfold lastStart
  rw [Number.ofNat_sub_one hpos hlt]
  split
  · refine .pure ?_
    rw [Number.toNat_ofNat (by omega)]
    omega
  · refine (argument args 1).yields_toIntegerOrInfinity.bind fun y ⟨x, hx⟩ => .pure ?_
    subst hx
    split
    · have hle := Number.toNat_atMost_le x (n := length - 1) (by omega)
      omega
    · next hneg =>
      rcases Number.integral_cases x with ⟨sign, hs, hx, -⟩ | ⟨z, hz, -⟩
      · have hnan : x.isNaN = false := congrArg Float.Model.UnpackedFloat.isNaN hs
        rw [hx, Number.zero_le_iff hnan, Number.infinity_lt_zero_iff hs] at hneg
        cases sign with
        | positive => exact absurd Bool.false_ne_true hneg
        | negative => rwa [hx, Number.toNat_add_negInfinity hs hlt]
      · have hnan := (Number.isNaN_and_isInf_of_isFinite hz.isFinite).1
        rw [Number.zero_le_iff hnan, not_not, hz.lt_zero_iff] at hneg
        rw [Number.toNat_add_of_neg hz hneg hlt]
        omega

end Relative

/-! ### The array functions in words -/

namespace WordArithmetic

variable (w : WordArithmetic H)

/-- Sets the elements from an index on, the `k`-th one first. -/
def setElements (o : ObjectId) (start : Nat) : (k : Nat) → List Value → Engine H Unit
  | _, [] => pure ()
  | k, v :: vs => do
    o.setElement (← w.add start k) v
    setElements o start (← w.add k 1) vs

/-- Sets the elements from an index on; the index after them. -/
def pushElements (o : ObjectId) : (length : Nat) → List Value → Engine H Nat
  | length, [] => return length
  | length, v :: vs => do
    o.setElement length v
    pushElements o (← w.add length 1) vs

/-- Moves a run of elements to another place. -/
def moveElements (o : ObjectId) (source target count : Nat) : Engine H Unit :=
  let step := fun k => do
    o.moveElement (← w.add source k) (← w.add target k)
  if target < source then w.forRange step 0 count else w.forRangeDown step count count

/-- Copies the elements that are present among `count` indices from `start` on to the front. -/
def copyElements (source target : ObjectId) (start count : Nat) : Engine H Unit :=
  w.forRange (fun k => do
    match ← source.element? (← w.add start k) with
    | some v => target.createElement k v
    | none => pure ()) 0 count

/-- Copies the elements that are present among `count` indices from `i` on to the indices from `n`
on; the index after them. -/
def copyOnto (source target : ObjectId) : (i n count : Nat) → Engine H Nat
  | _, n, 0 => return n
  | i, n, count + 1 => do
    match ← source.element? i with
    | some v => target.createElement n v
    | none => pure ()
    copyOnto source target (← w.add i 1) (← w.add n 1) count

/-- Adds elements at the end. -/
def pushOn (this : Value) (args : List Value) : Engine H Value := do
  let (o, length) ← ObjectId.ofReceiver this
  if Number.maxSafe < (← w.add length args.length) then
    typeError "Pushing elements would exceed the maximum array length"
  let length ← w.pushElements o length args
  o.setLength length
  return .nat length

/-- Removes the last element. -/
def popFrom (this : Value) : Engine H Value := do
  let (o, length) ← ObjectId.ofReceiver this
  if length = 0 then
    o.setLength 0
    return .undefined
  let last ← w.sub length 1
  let v ← o.get (.ofNat last)
  o.deleteElement last
  o.setLength (← w.sub length 1)
  return v

/-- Removes the first element. -/
def shiftFrom (this : Value) : Engine H Value := do
  let (o, length) ← ObjectId.ofReceiver this
  if length = 0 then
    o.setLength 0
    return .undefined
  let v ← o.get (.ofNat 0)
  w.moveElements o 1 0 (← w.sub length 1)
  o.deleteElement (← w.sub length 1)
  o.setLength (← w.sub length 1)
  return v

/-- Adds elements at the front. -/
def unshiftOn (this : Value) (args : List Value) : Engine H Value := do
  let (o, length) ← ObjectId.ofReceiver this
  let count := args.length
  if 0 < count then
    if Number.maxSafe < (← w.add length count) then
      typeError "Unshifting elements would exceed the maximum array length"
    w.moveElements o 0 count length
    w.setElements o 0 0 args
  o.setLength (← w.add length count)
  return .nat (← w.add length count)

/-- How many elements a splice removes. -/
def deleteCount (args : List Value) (length start : Nat) : Engine H Nat := do
  match args with
  | [] => return 0
  | [_] => w.sub length start
  | _ :: count :: _ =>
    let n ← count.toIntegerOrInfinity
    return Number.toNat (Number.clamp n 0.0 (Float.ofNat (← w.sub length start)))

/-- Moves the elements after a run of elements, for another number of them to take its place. -/
def moveTail (o : ObjectId) (length start removed count : Nat) : Engine H Unit := do
  let tail ← w.sub (← w.sub length start) removed
  if count < removed then
    w.moveElements o (← w.add start removed) (← w.add start count) tail
    let newLength ← w.add (← w.sub length removed) count
    w.forRangeDown o.deleteElement (length - newLength) length
  else if removed < count then
    w.moveElements o (← w.add start removed) (← w.add start count) tail

/-- Replaces a run of elements by others; an array of those removed. -/
def spliceAt (this : Value) (args : List Value) : Engine H Value := do
  let (o, length) ← ObjectId.ofReceiver this
  let start ← relativeIndex (argument args 0) length 0
  let items := args.drop 2
  let removedCount ← w.deleteCount args length start
  let itemCount := items.length
  if Number.maxSafe < (← w.sub (← w.add length itemCount) removedCount) then
    typeError "Splice would exceed the maximum array length"
  let removed ← o.arraySpeciesCreate removedCount
  w.copyElements o removed start removedCount
  removed.setLength removedCount
  w.moveTail o length start removedCount itemCount
  w.setElements o start 0 items
  o.setLength (← w.add (← w.sub length removedCount) itemCount)
  return .object removed

/-- Sets all elements of a range to one value. -/
def fillIn (this : Value) (args : List Value) : Engine H Value := do
  let (o, length) ← ObjectId.ofReceiver this
  let start ← relativeIndex (argument args 1) length 0
  let stop ← relativeIndex (argument args 2) length length
  w.forRange (fun i => o.setElement i (argument args 0)) start (stop - start)
  return .object o

/-- A range of the elements in a new array. -/
def sliceOf (this : Value) (args : List Value) : Engine H Value := do
  let (o, length) ← ObjectId.ofReceiver this
  let start ← relativeIndex (argument args 0) length 0
  let stop ← relativeIndex (argument args 1) length length
  let result ← o.arraySpeciesCreate (stop - start)
  let n ← w.copyOnto o result start 0 (stop - start)
  result.setLength n
  return .object result

/-- Appends a value, or the elements of a value, to a result that has `n` elements; how many it has
then. -/
def appendTo (result : ObjectId) (n : Nat) (item : Value) : Engine H Nat := do
  let spreadable ← ArrayFunction.isSpreadable item
  match item, spreadable with
  | .object source, true =>
    let length ← source.lengthOfArrayLike
    if Number.maxSafe < (← w.add n length) then
      typeError "Concatenation would exceed the maximum array length"
    w.copyOnto source result 0 n length
  | item, _ =>
    result.createElement n item
    w.add n 1

/-- The receiver and the arguments in one array. -/
def concatWith (this : Value) (args : List Value) : Engine H Value := do
  let o ← this.toObject
  let result ← o.arraySpeciesCreate 0
  let n ← (Value.object o :: args).foldlM (w.appendTo result) 0
  result.setLength n
  return .object result

/-- The last index of a value. -/
def lastIndexOfIn (this : Value) (args : List Value) : Engine H Value := do
  let (o, length) ← ObjectId.ofReceiver this
  if length = 0 then return ArrayFunction.indexValue none
  let start ← ArrayFunction.lastStart args length
  if start < 0.0 then return ArrayFunction.indexValue none
  let top := Number.toNat start
  let found ← w.firstFromTop (ArrayFunction.isElement o (argument args 0)) top top
  return ArrayFunction.indexValue found

/-! ### Where the words are enough -/

variable {w} {o source target : ObjectId} {start count length : Nat}

theorem setElements_eq {k : Nat} {vs : List Value} (h : start + k + vs.length < 2 ^ 64) :
    w.setElements o start k vs = o.setElements (start + k) vs := by
  induction vs generalizing k with
  | nil => rfl
  | cons v vs ih =>
    rw [List.length_cons] at h
    rw [setElements, ObjectId.setElements, w.add_of_lt (by omega), pure_bind]
    refine bind_congr fun _ => ?_
    rw [w.add_of_lt (by omega), pure_bind, ih (by omega), Nat.add_assoc]

theorem pushElements_eq {vs : List Value} (h : length + vs.length < 2 ^ 64) :
    w.pushElements o length vs
      = (do o.setElements length vs; return length + vs.length : Engine H Nat) := by
  induction vs generalizing length with
  | nil => rfl
  | cons v vs ih =>
    rw [List.length_cons] at h
    rw [pushElements, ObjectId.setElements, bind_assoc]
    refine bind_congr fun _ => ?_
    rw [w.add_of_lt (by omega), pure_bind, ih (by omega), List.length_cons, Nat.add_right_comm,
      Nat.add_assoc]

theorem moveElements_eq {source target : Nat} (hs : source + count < 2 ^ 64)
    (ht : target + count < 2 ^ 64) :
    w.moveElements o source target count = o.moveElements source target count := by
  have hstep (k : Nat) (hk : k < count) :
      (do o.moveElement (← w.add source k) (← w.add target k))
        = (o.moveElement (source + k) (target + k) : Engine H Unit) := by
    rw [w.add_of_lt (by omega), pure_bind, w.add_of_lt (by omega), pure_bind]
  unfold moveElements ObjectId.moveElements
  dsimp only
  rw [forRange_eq (fun k _ hk => hstep k (by omega)) (by omega),
    forRangeDown_eq (fun k hk => hstep k hk) (Nat.le_refl _) (by omega)]

theorem copyElements_eq (h : start + count < 2 ^ 64) :
    w.copyElements source target start count
      = (ArrayFunction.copyElements source target start 0 count : Engine H Unit) := by
  refine forRange_eq (fun k _ hk => ?_) (by omega)
  rw [w.add_of_lt (by omega), pure_bind]
  refine bind_congr fun found => ?_
  cases found with
  | none => rfl
  | some v => exact congrArg (target.createElement · v) (Nat.zero_add k).symm

theorem copyOnto_eq {n : Nat} (hs : start + count < 2 ^ 64) (hn : n + count < 2 ^ 64) :
    w.copyOnto source target start n count
      = (do ArrayFunction.copyElements source target start n count; return n + count
        : Engine H Nat) := by
  have hrest (i : Nat) (hi : i ≤ count) : w.copyOnto source target (start + i) (n + i) (count - i)
      = (do
        Engine.forRange (fun i => do
          match ← source.element? (start + i) with
          | some v => target.createElement (n + i) v
          | none => pure ()) i (count - i)
        return n + count : Engine H Nat) := by
    generalize hc : count - i = c
    induction c generalizing i with
    | zero =>
      obtain rfl : i = count := by omega
      rfl
    | succ c ih =>
      have hnext := ih (i + 1) (by omega) (by omega)
      rw [copyOnto, Engine.forRange]
      simp only [bind_assoc, w.add_of_lt (show start + i + 1 < 2 ^ 64 by omega),
        w.add_of_lt (show n + i + 1 < 2 ^ 64 by omega), pure_bind]
      refine bind_congr fun found => ?_
      cases found with
      | none => exact hnext
      | some v => exact bind_congr fun _ => hnext
  exact hrest 0 (Nat.zero_le _)

/-! ### The functions -/

variable {this : Value} {args : List Value}

theorem maxSafe_add_lt : Number.maxSafe + 2 ^ 63 + Number.maxSafe < 2 ^ 64 := by decide

theorem pushOn_eq (h : args.length < 2 ^ 63) :
    w.pushOn this args = ArrayFunction.pushOn this args := by
  unfold pushOn ArrayFunction.pushOn
  refine (ObjectId.yields_ofReceiver this).bind_congr fun ⟨o, length⟩ hlength => ?_
  have hsum : length + args.length < 2 ^ 64 := by
    have := maxSafe_add_lt
    omega
  dsimp only at hlength ⊢
  rw [w.add_of_lt hsum, pure_bind]
  refine Engine.check_congr fun _ => ?_
  rw [pushElements_eq hsum, bind_assoc]
  rfl

theorem popFrom_eq : w.popFrom this = ArrayFunction.popFrom this := by
  unfold popFrom ArrayFunction.popFrom
  refine (ObjectId.yields_ofReceiver this).bind_congr fun ⟨o, length⟩ hlength => ?_
  cases length with
  | zero => rfl
  | succ n =>
    have hlt := hlength.trans_lt Number.maxSafe_lt
    dsimp only at hlt ⊢
    rw [if_neg (Nat.succ_ne_zero n), w.sub_of_le (Nat.succ_pos n) (by omega)]
    rfl

theorem shiftFrom_eq : w.shiftFrom this = ArrayFunction.shiftFrom this := by
  unfold shiftFrom ArrayFunction.shiftFrom
  refine (ObjectId.yields_ofReceiver this).bind_congr fun ⟨o, length⟩ hlength => ?_
  cases length with
  | zero => rfl
  | succ n =>
    have hlt := hlength.trans_lt Number.maxSafe_lt
    dsimp only at hlt ⊢
    have hlast : w.sub (n + 1) 1 = pure n := w.sub_of_le (Nat.le_add_left 1 n) (by omega)
    have hmove : w.moveElements o 1 0 n = o.moveElements 1 0 n :=
      moveElements_eq (by omega) (by omega)
    rw [if_neg (Nat.succ_ne_zero n)]
    simp only [hlast, pure_bind, hmove]

theorem unshiftOn_eq (h : args.length < 2 ^ 63) :
    w.unshiftOn this args = ArrayFunction.unshiftOn this args := by
  unfold unshiftOn ArrayFunction.unshiftOn
  refine (ObjectId.yields_ofReceiver this).bind_congr fun ⟨o, length⟩ hlength => ?_
  have hsum : length + args.length < 2 ^ 64 := by
    have := maxSafe_add_lt
    omega
  dsimp only at hlength ⊢
  simp only [w.add_of_lt hsum, pure_bind]
  by_cases hpos : 0 < args.length
  · have hmove : w.moveElements o 0 args.length length = o.moveElements 0 args.length length :=
      moveElements_eq (by omega) (by omega)
    have hset : w.setElements o 0 0 args = o.setElements 0 args := setElements_eq (by omega)
    rw [if_pos hpos, if_pos hpos, hmove, hset]
  · rw [if_neg hpos, if_neg hpos]

theorem fillIn_eq : w.fillIn this args = ArrayFunction.fillIn this args := by
  unfold fillIn ArrayFunction.fillIn
  refine (ObjectId.yields_ofReceiver this).bind_congr fun ⟨o, length⟩ hlength => ?_
  have hlt := hlength.trans_lt Number.maxSafe_lt
  refine (yields_relativeIndex hlength (Nat.zero_le _)).bind_congr fun start hstart => ?_
  refine (yields_relativeIndex hlength (Nat.le_refl _)).bind_congr fun stop hstop => ?_
  dsimp only at hlt hstart hstop ⊢
  rw [forRange_eq (fun _ _ _ => rfl) (by omega)]

theorem sliceOf_eq : w.sliceOf this args = ArrayFunction.sliceOf this args := by
  unfold sliceOf ArrayFunction.sliceOf
  refine (ObjectId.yields_ofReceiver this).bind_congr fun ⟨o, length⟩ hlength => ?_
  have hlt := hlength.trans_lt Number.maxSafe_lt
  refine (yields_relativeIndex hlength (Nat.zero_le _)).bind_congr fun start hstart => ?_
  refine (yields_relativeIndex hlength (Nat.le_refl _)).bind_congr fun stop hstop => ?_
  dsimp only at hlt hstart hstop ⊢
  refine bind_congr fun result => ?_
  rw [copyOnto_eq (by omega) (by omega), bind_assoc, Nat.zero_add]
  rfl

theorem lastIndexOfIn_eq : w.lastIndexOfIn this args = ArrayFunction.lastIndexOfIn this args := by
  unfold lastIndexOfIn ArrayFunction.lastIndexOfIn
  refine (ObjectId.yields_ofReceiver this).bind_congr fun ⟨o, length⟩ hlength => ?_
  have hlt := hlength.trans_lt Number.maxSafe_lt
  dsimp only at hlt ⊢
  by_cases hzero : length = 0
  · rw [if_pos hzero, if_pos hzero]
  · rw [if_neg hzero, if_neg hzero]
    have hstart : (ArrayFunction.lastStart args length : Engine H Float).Yields
        (Number.toNat · < length) :=
      ArrayFunction.yields_lastStart hlength (Nat.pos_of_ne_zero hzero)
    refine hstart.bind_congr fun start htop => ?_
    have hsearch : w.firstFromTop (ArrayFunction.isElement o (argument args 0))
        (Number.toNat start) (Number.toNat start - 0) = _ :=
      firstFromTop_eq (Nat.zero_add _) (by omega)
    rw [Nat.sub_zero] at hsearch
    rw [hsearch]

theorem deleteCount_eq {length start : Nat} (hle : start ≤ length) (hlt : length < 2 ^ 64) :
    w.deleteCount args length start = ArrayFunction.deleteCount args (length - start) := by
  match args with
  | [] => rfl
  | [_] => exact w.sub_of_le hle hlt
  | _ :: count :: _ =>
    refine bind_congr fun n => ?_
    rw [w.sub_of_le hle hlt, pure_bind]

theorem moveTail_eq {length start removed count : Nat} (hrun : start + removed ≤ length)
    (hsum : length + count < 2 ^ 64) :
    w.moveTail o length start removed count
      = (do
        if count ≠ removed then
          o.moveElements (start + removed) (start + count) (length - start - removed)
        if count < removed then
          Engine.forRangeDown o.deleteElement (length - (length - removed + count)) length
        : Engine H Unit) := by
  have hmove : w.moveElements o (start + removed) (start + count) (length - start - removed) = _ :=
    moveElements_eq (by omega) (by omega)
  unfold moveTail
  simp only [w.sub_of_le (show start ≤ length by omega) (show length < 2 ^ 64 by omega),
    w.sub_of_le (show removed ≤ length - start by omega) (show length - start < 2 ^ 64 by omega),
    w.sub_of_le (show removed ≤ length by omega) (show length < 2 ^ 64 by omega),
    w.add_of_lt (show start + removed < 2 ^ 64 by omega),
    w.add_of_lt (show start + count < 2 ^ 64 by omega),
    w.add_of_lt (show length - removed + count < 2 ^ 64 by omega), pure_bind, hmove]
  rcases Nat.lt_trichotomy count removed with hlt | rfl | hgt
  · rw [if_pos hlt, if_pos (Nat.ne_of_lt hlt), if_pos hlt]
    refine bind_congr fun _ => ?_
    exact forRangeDown_eq (fun _ _ => rfl) (Nat.sub_le _ _) (by omega)
  · rw [if_neg (Nat.lt_irrefl _), if_neg (Nat.lt_irrefl _), if_neg (not_not_intro rfl),
      if_neg (Nat.lt_irrefl _)]
  · rw [if_neg (Nat.not_lt_of_gt hgt), if_pos hgt, if_pos (Nat.ne_of_gt hgt),
      if_neg (Nat.not_lt_of_gt hgt)]
    exact (bind_pure _).symm

theorem spliceAt_eq (h : args.length < 2 ^ 63) :
    w.spliceAt this args = ArrayFunction.spliceAt this args := by
  unfold spliceAt ArrayFunction.spliceAt
  refine (ObjectId.yields_ofReceiver this).bind_congr fun ⟨o, length⟩ hlength => ?_
  have hmax := maxSafe_add_lt
  have hitems : (args.drop 2).length < 2 ^ 63 :=
    (List.length_drop.trans_le (Nat.sub_le _ 2)).trans_lt h
  refine (yields_relativeIndex hlength (Nat.zero_le _)).bind_congr fun start hstart => ?_
  dsimp only at hlength hstart ⊢
  rw [deleteCount_eq hstart (by omega)]
  refine (ArrayFunction.yields_deleteCount (by omega)).bind_congr fun removedCount hcount => ?_
  generalize args.drop 2 = items at hitems ⊢
  rw [w.add_of_lt (by omega), pure_bind, w.sub_of_le (by omega) (by omega), pure_bind]
  refine Engine.check_congr fun _ => ?_
  refine bind_congr fun removed => ?_
  rw [copyElements_eq (by omega), moveTail_eq (by omega) (by omega), setElements_eq (by omega)]
  refine bind_congr fun _ => bind_congr fun _ => ?_
  rw [w.sub_of_le (by omega) (by omega), pure_bind, w.add_of_lt (by omega), pure_bind]
  rw [Nat.add_zero]
  by_cases hne : items.length ≠ removedCount
  · rw [if_pos hne, if_pos hne, bind_assoc]
    refine bind_congr fun _ => ?_
    split
    · rfl
    · exact pure_bind _ _
  · rw [if_neg hne, if_neg hne]
    split
    · rfl
    · exact pure_bind _ _

theorem appendTo_eq {result : ObjectId} {n : Nat} {item : Value}
    (h : n + Number.maxSafe + 1 < 2 ^ 64) :
    w.appendTo result n item = ArrayFunction.appendTo result n item := by
  unfold appendTo ArrayFunction.appendTo
  refine bind_congr fun spreadable => ?_
  have hplain (item : Value) : (do result.createElement n item; w.add n 1)
      = (do result.createElement n item; return n + 1 : Engine H Nat) :=
    bind_congr fun _ => w.add_of_lt (by omega)
  cases item with
  | object source =>
    cases spreadable with
    | false => exact hplain _
    | true =>
      refine source.yields_lengthOfArrayLike.bind_congr fun length hlength => ?_
      rw [w.add_of_lt (by omega), pure_bind]
      refine Engine.check_congr fun hsum => ?_
      rw [copyOnto_eq (by omega) (by omega)]
  | _ => exact hplain _

/-- An item makes the result longer by one, or it does not make it longer than an array may be. -/
theorem yields_appendTo (result : ObjectId) (n : Nat) (item : Value) :
    (ArrayFunction.appendTo result n item : Engine H Nat).Yields
      fun m => m ≤ Number.maxSafe ∨ m = n + 1 := by
  unfold ArrayFunction.appendTo
  refine (Engine.Yields.any _).bind fun spreadable _ => ?_
  split
  · next source =>
    refine (Engine.Yields.any _).bind fun length _ => ?_
    dsimp only
    split
    · exact (Engine.Yields.typeError _ fun _ => False).bind fun _ h => h.elim
    · next hsum =>
      exact (Engine.Yields.any _).bind fun _ _ => .pure (.inl (Nat.le_of_not_lt hsum))
  · exact (Engine.Yields.any _).bind fun _ _ => .pure (.inr rfl)

theorem foldlM_appendTo_eq {result : ObjectId} {items : List Value} {n : Nat}
    (hitems : items.length ≤ 2 ^ 63) (h : n + items.length ≤ Number.maxSafe + 2 ^ 63) :
    items.foldlM (w.appendTo result) n
      = (items.foldlM (ArrayFunction.appendTo result) n : Engine H Nat) := by
  have hmax := maxSafe_add_lt
  induction items generalizing n with
  | nil => rfl
  | cons item items ih =>
    rw [List.length_cons] at hitems h
    rw [List.foldlM_cons, List.foldlM_cons, appendTo_eq (by omega)]
    refine (yields_appendTo result n item).bind_congr fun m hm => ih (by omega) ?_
    rcases hm with hm | rfl <;> omega

theorem concatWith_eq (h : args.length < 2 ^ 63) :
    w.concatWith this args = ArrayFunction.concatWith this args := by
  unfold concatWith ArrayFunction.concatWith
  refine bind_congr fun o => bind_congr fun result => ?_
  rw [foldlM_appendTo_eq]
  · rw [List.length_cons]
    omega
  · rw [List.length_cons]
    omega

end WordArithmetic

/-- Array-like objects have lengths up to `2 ^ 53 - 1`, and relative indices are those of the exact
integers and infinities that arguments stand for, between zero and the length. The array functions
are the same in every arithmetic of words: none of their sums is `2 ^ 64` or more, and none of their
differences is below zero, whatever the program does in between. The arguments are no more than fit
into memory. -/
theorem array_indices_are_words (w : WordArithmetic H) (this : Value) (args : List Value)
    (h : args.length < 2 ^ 63) :
    (∀ o : ObjectId, (o.lengthOfArrayLike : Engine H Nat).Yields (· ≤ Number.maxSafe))
      ∧ (∀ length ≤ Number.maxSafe, ∀ fallback ≤ length,
        (∀ x : Float, (Number.integral x).relativeTo length ≤ length
          ∧ (relativeIndex (.number x) length fallback : Engine H Nat)
            = pure ((Number.integral x).relativeTo length))
        ∧ ∀ v : Value,
          (relativeIndex v length fallback : Engine H Nat).Yields (· ≤ length)
            ∧ (relativeIndex v length fallback : Engine H Nat) = v.exactIndex length fallback)
      ∧ (∀ length ≤ Number.maxSafe, 0 < length →
        (ArrayFunction.lastStart args length : Engine H Float).Yields (Number.toNat · < length))
      ∧ w.pushOn this args = ArrayFunction.pushOn this args
      ∧ w.popFrom this = ArrayFunction.popFrom this
      ∧ w.shiftFrom this = ArrayFunction.shiftFrom this
      ∧ w.unshiftOn this args = ArrayFunction.unshiftOn this args
      ∧ w.spliceAt this args = ArrayFunction.spliceAt this args
      ∧ w.fillIn this args = ArrayFunction.fillIn this args
      ∧ w.sliceOf this args = ArrayFunction.sliceOf this args
      ∧ w.concatWith this args = ArrayFunction.concatWith this args
      ∧ w.lastIndexOfIn this args = ArrayFunction.lastIndexOfIn this args := by
  refine ⟨fun o => o.yields_lengthOfArrayLike, fun length hlength fallback hf => ⟨?number, ?value⟩,
    fun length hlength hpos => ArrayFunction.yields_lastStart hlength hpos,
    WordArithmetic.pushOn_eq h, WordArithmetic.popFrom_eq, WordArithmetic.shiftFrom_eq,
    WordArithmetic.unshiftOn_eq h, WordArithmetic.spliceAt_eq h, WordArithmetic.fillIn_eq,
    WordArithmetic.sliceOf_eq, WordArithmetic.concatWith_eq h, WordArithmetic.lastIndexOfIn_eq⟩
  case number =>
    exact fun x => ⟨(Number.integral x).relativeTo_le length, relativeIndex_number x hlength⟩
  case value => exact fun v => ⟨yields_relativeIndex hlength hf, relativeIndex_eq hlength⟩

/-- Two values are put in the place of all from the last one on, in words that wrap around. -/
theorem array_indices_are_words_wrapping :
    [Value.number (-1.0), .number Number.infinity, .null, .null].length < 2 ^ 63
      ∧ (WordArithmetic.wrapping : WordArithmetic HostTypes.bare).spliceAt (.object ⟨0⟩)
          [.number (-1.0), .number Number.infinity, .null, .null]
        = ArrayFunction.spliceAt (.object ⟨0⟩)
          [.number (-1.0), .number Number.infinity, .null, .null] :=
  ⟨by decide, (array_indices_are_words _ _ [.number (-1.0), .number Number.infinity, .null, .null]
    (by decide)).2.2.2.2.2.2.2.1⟩

end ScriptEngine
