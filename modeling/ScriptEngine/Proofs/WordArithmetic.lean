import Mathlib
import ScriptEngine.Proofs.Outcome

/-!
# Arithmetic in words

The indices of array-like objects are natural numbers here. A machine keeps them in words of 64 bits
and is right about sums and differences only where these are words themselves; elsewhere it may wrap
around, stop the program or do anything else. A computation that is the same in every such
arithmetic never gets there.

Which results a computation can have is all that is known about them where code of the program runs
in between, so computations are compared with each other under a bound on results.

## Main definitions

* `Engine.Yields`: what holds for every result of a computation.
* `WordArithmetic`: sums and differences that are right within words.
* `WordArithmetic.wrapping`, `WordArithmetic.checked`: the two kinds of it that machines have.
* `WordArithmetic.forRange`, `WordArithmetic.forRangeDown`, `WordArithmetic.firstFromTop`: loops
  whose counter is a word.

## Main results

* `Engine.Yields.bind_congr`: computations that agree on all results of a first one.
* `WordArithmetic.forRange_eq`, `WordArithmetic.forRangeDown_eq`, `WordArithmetic.firstFromTop_eq`:
  loops that stay within words are those over natural numbers.
-/

namespace ScriptEngine

variable {H : HostTypes} {α β : Type}

/-! ### The results of a computation -/

/-- Every result of a computation has a property, wherever it is run. -/
def Engine.Yields (x : Engine H α) (P : α → Prop) : Prop :=
  ∀ s realm a after, x.act s realm = .ok a after → P a

namespace Engine.Yields

variable {x : Engine H α} {P : α → Prop} {a : α}

theorem any (x : Engine H α) : x.Yields fun _ => True := fun _ _ _ _ _ => trivial

theorem pure (h : P a) : (pure a : Engine H α).Yields P := by
  intro s realm b after hb
  cases hb
  exact h

theorem typeError (text : String) (P : α → Prop) : (typeError text : Engine H α).Yields P := by
  intro s realm b after hb
  cases hb

theorem bind {f : α → Engine H β} {Q : β → Prop} (hx : x.Yields P)
    (hf : ∀ a, P a → (f a).Yields Q) : (x >>= f).Yields Q := by
  intro s realm b after hb
  obtain ⟨a, middle, ha, hb⟩ := Engine.ok_of_bind hb
  exact hf a (hx s realm a middle ha) s middle b after hb

/-- What follows a computation matters on its results only. -/
theorem bind_congr {f g : α → Engine H β} (hx : x.Yields P) (h : ∀ a, P a → f a = g a) :
    x >>= f = x >>= g := by
  refine Engine.eq_of_act fun s realm => ?_
  cases ha : x.act s realm with
  | ok a after =>
    rw [Engine.bind_of_ok ha, Engine.bind_of_ok ha, h a (hx s realm a after ha)]
  | error stop after => rw [Engine.bind_of_error ha, Engine.bind_of_error ha]

end Engine.Yields

/-- A check that stops with a type error where it is not met. -/
theorem Engine.check_congr {c : Prop} [Decidable c] {text : String} {f g : Unit → Engine H α}
    (h : ¬c → f () = g ()) :
    (if c then typeError text >>= f else f ()) = if c then typeError text >>= g else g () := by
  by_cases hc : c
  · rw [if_pos hc, if_pos hc]
    exact (Engine.Yields.typeError text fun _ => False).bind_congr fun _ hf => hf.elim
  · rw [if_neg hc, if_neg hc, h hc]

/-! ### Words -/

/-- Sums and differences of words of 64 bits. They are right wherever they are words; what they are
elsewhere is left open. -/
structure WordArithmetic (H : HostTypes) where
  /-- The sum of two words. -/
  add : Nat → Nat → Engine H Nat
  /-- The difference of two words. -/
  sub : Nat → Nat → Engine H Nat
  add_of_lt : ∀ {a b : Nat}, a + b < 2 ^ 64 → add a b = pure (a + b)
  sub_of_le : ∀ {a b : Nat}, b ≤ a → a < 2 ^ 64 → sub a b = pure (a - b)

namespace WordArithmetic

/-- Words that wrap around. -/
def wrapping : WordArithmetic H where
  add a b := return (a + b) % 2 ^ 64
  sub a b := return (2 ^ 64 + a - b) % 2 ^ 64
  add_of_lt h := by rw [Nat.mod_eq_of_lt h]
  sub_of_le {a b} hle hlt := by
    rw [Nat.add_sub_assoc hle, Nat.add_mod_left, Nat.mod_eq_of_lt (by omega)]

/-- Words with a check that does something else where a sum or a difference is none. -/
def checked (overflow : Engine H Nat) : WordArithmetic H where
  add a b := if a + b < 2 ^ 64 then pure (a + b) else overflow
  sub a b := if b ≤ a then pure (a - b) else overflow
  add_of_lt h := if_pos h
  sub_of_le h _ := if_pos h

/-! ### Loops -/

variable (w : WordArithmetic H)

/-- Runs a step for `count` words from `start` on. -/
def forRange (step : Nat → Engine H Unit) : (start count : Nat) → Engine H Unit
  | _, 0 => pure ()
  | start, count + 1 => do
    step start
    forRange step (← w.add start 1) count

/-- Runs a step for `count` words below `stop`, the greatest first. -/
def forRangeDown (step : Nat → Engine H Unit) : (count stop : Nat) → Engine H Unit
  | 0, _ => pure ()
  | count + 1, stop => do
    let i ← w.sub stop 1
    step i
    forRangeDown step count i

/-- The first result that a step gives from `top` down, after which `count` more words are tried. -/
def firstFromTop (step : Nat → Engine H (Option α)) : (count top : Nat) → Engine H (Option α)
  | 0, top => step top
  | count + 1, top => do
    match ← step top with
    | some a => return some a
    | none => firstFromTop step count (← w.sub top 1)

variable {w} {step step' : Nat → Engine H Unit} {start stop count : Nat}

theorem forRange_eq (h : ∀ i, start ≤ i → i < start + count → step i = step' i)
    (hlt : start + count < 2 ^ 64) :
    w.forRange step start count = Engine.forRange step' start count := by
  induction count generalizing start with
  | zero => rfl
  | succ count ih =>
    rw [forRange, Engine.forRange, h start (by omega) (by omega), w.add_of_lt (by omega),
      pure_bind, ih (fun i hle hi => h i (by omega) (by omega)) (by omega)]

theorem forRangeDown_eq (h : ∀ i < stop, step i = step' i) (hle : count ≤ stop)
    (hlt : stop < 2 ^ 64) :
    w.forRangeDown step count stop = Engine.forRangeDown step' count stop := by
  induction count generalizing stop with
  | zero => rfl
  | succ count ih =>
    rw [forRangeDown, Engine.forRangeDown, w.sub_of_le (by omega) hlt, pure_bind,
      h (stop - 1) (by omega), ih (fun i hi => h i (by omega)) (by omega) (by omega)]

/-- A search from the top down is one over the distances from the top. -/
theorem firstFromTop_eq {step : Nat → Engine H (Option α)} {count top i : Nat}
    (hi : i + count = top) (hlt : top < 2 ^ 64) :
    w.firstFromTop step count (top - i)
      = Engine.firstInRange (fun i => step (top - i)) i (count + 1) := by
  induction count generalizing i with
  | zero =>
    rw [firstFromTop, Engine.firstInRange]
    refine (bind_pure (step (top - i))).symm.trans (bind_congr fun found => ?_)
    cases found <;> rfl
  | succ count ih =>
    rw [firstFromTop, Engine.firstInRange]
    refine bind_congr fun found => ?_
    cases found with
    | some a => rfl
    | none =>
      change w.sub (top - i) 1 >>= _ = _
      rw [w.sub_of_le (by omega) (by omega), pure_bind, Nat.sub_sub]
      exact ih (by omega)

end WordArithmetic
end ScriptEngine
