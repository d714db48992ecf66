import Mathlib
import ScriptEngine.Operation.Comparison
import ScriptEngine.Proofs.Outcome

/-!
# Equality after conversion

Equality after conversion is found in rounds. A round gives the answer, or replaces one of the two
values by its number or its primitive value. Exchanging the two values exchanges them in every
round, so that the same code runs in the same order and the answer is the same. A boolean is
replaced once, an object by something that may be a boolean but is no object, and two objects not
at all; so no more than three values are replaced.

## Main definitions

* `Engine.rounds`: what a loop has come to after some rounds.
* `Value.replacements`: how many values may still be replaced.

## Main results

* `Value.equalityStep_swap`: a round with the two values exchanged.
* `Value.replacements_lt`: a round that gives no answer leaves fewer values to replace.
* `looselyEquals_symmetric_and_bounded`: equality is symmetric and decided in four rounds.
-/

namespace ScriptEngine

open Engine

variable {H : HostTypes} {α β γ σ : Type}

/-! ### Rounds of a loop -/

namespace Engine

/-- What a loop has come to after at most so many rounds. -/
def rounds (step : σ → Engine H (Round σ α)) : Nat → σ → Engine H (Round σ α)
  | 0, s => pure (.again s)
  | n + 1, s => do
    match ← step s with
    | .again s => rounds step n s
    | .finish a => pure (.finish a)

variable {step : σ → Engine H (Round σ α)}

/-- A loop goes on from what it has come to. -/
theorem loopFor_add (n m : Nat) (s : σ) :
    loopFor step (n + m) s = (do
      match ← rounds step n s with
      | .again s => loopFor step m s
      | .finish a => pure a) := by
  induction n generalizing s with
  | zero => rw [Nat.zero_add, rounds, pure_bind]
  | succ n ih =>
    rw [Nat.succ_add, loopFor, rounds, bind_assoc]
    congr 1
    funext round
    cases round with
    | again s => exact ih s
    | finish a => rfl

section Ends

variable {n : Nat} {s : σ}
  (h : ∀ surroundings realm s' after,
    (rounds step n s).act surroundings realm ≠ .ok (.again s') after)

include h

/-- A loop that has its answer after some rounds does not need more. -/
theorem loopFor_add_of_rounds (m : Nat) : loopFor step (n + m) s = loopFor step n s := by
  have hzero : loopFor step n s = _ := loopFor_add n 0 s
  rw [loopFor_add, hzero]
  refine eq_of_act fun surroundings realm => ?_
  match hr : (rounds step n s).act surroundings realm with
  | .ok (.again s') after => exact absurd hr (h surroundings realm s' after)
  | .ok (.finish a) after => rw [bind_of_ok hr, bind_of_ok hr]
  | .error stop after => rw [bind_of_error hr, bind_of_error hr]

/-- The answer that a loop has after some rounds is its result. -/
theorem rounds_eq_finish : rounds step n s = Round.finish <$> loopFor step n s := by
  have hzero : loopFor step n s = _ := loopFor_add n 0 s
  rw [hzero, map_bind]
  refine eq_of_act fun surroundings realm => ?_
  match hr : (rounds step n s).act surroundings realm with
  | .ok (.again s') after => exact absurd hr (h surroundings realm s' after)
  | .ok (.finish a) after =>
    rw [bind_of_ok hr]
    rfl
  | .error stop after => rw [bind_of_error hr]

end Ends

/-- The state and the state with its two parts exchanged. -/
def Round.swap : Round (β × β) α → Round (β × β) α
  | .again s => .again s.swap
  | .finish a => .finish a

/-- A loop whose rounds do not tell the two parts of the state apart does not do so either. -/
theorem loopFor_swap {step : β × β → Engine H (Round (β × β) α)}
    (h : ∀ s, step s.swap = Round.swap <$> step s) (n : Nat) (s : β × β) :
    loopFor step n s.swap = loopFor step n s := by
  induction n generalizing s with
  | zero => rfl
  | succ n ih =>
    rw [loopFor, loopFor, h, bind_map_left]
    congr 1
    funext round
    cases round with
    | again s => exact ih s
    | finish a => rfl

end Engine

/-! ### Rounds of equality -/

namespace Value

theorem beq_comm (a b : Float) : (a == b) = (b == a) := by
  rw [Bool.eq_iff_iff, Float.beq_iff_ne_nan_and_eq, Float.beq_iff_ne_nan_and_eq]
  grind

theorem strictEquals_comm (x y : Value) : x.strictEquals y = y.strictEquals x := by
  have h : decide (x = y) = decide (y = x) := decide_eq_decide.mpr eq_comm
  cases x with
  | number a =>
    cases y with
    | number b => exact beq_comm a b
    | _ => exact h
  | _ =>
    cases y with
    | _ => exact h

/-- A round with the two values exchanged: they stay so in the next round. -/
theorem equalityStep_swap (p : Value × Value) :
    (equalityStep p.swap : Engine H _) = Round.swap <$> equalityStep p := by
  obtain ⟨x, y⟩ := p
  cases x <;> cases y <;>
    simp [equalityStep, sameKind, comparesAsPrimitive, strictEquals_comm, beq_comm, Round.swap]

section Replace

variable {s : Surroundings H} {realm after : Realm H} {v w x y : Value} {p : Value × Value}

theorem isObject_of_firstPrimitive {o : ObjectId} {names : List String}
    (h : (o.firstPrimitive names).act s realm = .ok w after) : w.isObject = false := by
  induction names generalizing realm with
  | nil => cases h
  | cons name names ih =>
    obtain ⟨method, middle, -, h⟩ := Engine.ok_of_bind h
    obtain ⟨callable, middle, -, h⟩ := Engine.ok_of_bind h
    cases callable with
    | false => exact ih h
    | true =>
      obtain ⟨result, middle, -, h⟩ := Engine.ok_of_bind h
      cases hr : result.isObject with
      | false =>
        simp only [hr] at h
        cases h
        exact hr
      | true =>
        simp only [hr] at h
        exact ih h

/-- The primitive value of a value is no object. -/
theorem isObject_of_toPrimitive {preferred : PreferredType}
    (h : (v.toPrimitive preferred).act s realm = .ok w after) : w.isObject = false := by
  cases v with
  | object o =>
    obtain ⟨exotic?, middle, -, h⟩ := Engine.ok_of_bind h
    cases exotic? with
    | none =>
      simp only [ObjectId.ordinaryToPrimitive] at h
      split at h
      · exact isObject_of_firstPrimitive h
      · exact isObject_of_firstPrimitive h
    | some exotic =>
      obtain ⟨result, middle, -, h⟩ := Engine.ok_of_bind h
      cases hr : result.isObject with
      | false =>
        simp only [hr] at h
        cases h
        exact hr
      | true =>
        simp only [hr] at h
        cases h
  | _ =>
    cases h
    rfl

/-- How often a value may be replaced: a boolean by its number, an object by a primitive value that
may be a boolean. -/
def conversions : Value → Nat
  | bool _ => 1
  | object _ => 2
  | _ => 0

/-- How many values may be replaced before two values are compared as they are. -/
def replacements (x y : Value) : Nat :=
  if x.sameKind y then 0 else x.conversions + y.conversions

theorem conversions_of_not_isObject (h : v.isObject = false) : v.conversions ≤ 1 := by
  cases v with
  | object o => cases h
  | bool b => exact Nat.le_refl 1
  | _ => exact Nat.zero_le 1

/-- No more than three values are replaced, for two objects are compared as they are. -/
theorem replacements_le (x y : Value) : x.replacements y ≤ 3 := by
  cases x <;> cases y <;> simp [replacements, sameKind, conversions]

theorem replacements_le_conversions (x y : Value) :
    x.replacements y ≤ x.conversions + y.conversions := by
  unfold replacements
  split
  · exact Nat.zero_le _
  · exact Nat.le_refl _

/-- The two values that a round leaves: one is replaced, by a value with fewer conversions. -/
theorem conversions_lt (h : (equalityStep (x, y)).act s realm = .ok (.again p) after) :
    x.sameKind y = false
      ∧ p.1.conversions + p.2.conversions < x.conversions + y.conversions := by
  -- all pairs that have their answer at once are contradictory
  cases x <;> cases y <;> try (cases h; done)
  case object.number | object.string | object.symbol =>
    obtain ⟨w, middle, hw, h⟩ := Engine.ok_of_bind h
    cases h
    have hle := conversions_of_not_isObject (isObject_of_toPrimitive hw)
    refine ⟨rfl, ?_⟩
    change w.conversions + 0 < 2 + 0
    omega
  case number.object | string.object | symbol.object =>
    obtain ⟨w, middle, hw, h⟩ := Engine.ok_of_bind h
    cases h
    have hle := conversions_of_not_isObject (isObject_of_toPrimitive hw)
    refine ⟨rfl, ?_⟩
    change 0 + w.conversions < 0 + 2
    omega
  -- a boolean gives way to its number
  all_goals
    cases h
    exact ⟨rfl, by simp [conversions, ofBool]⟩

/-- A round without an answer leaves fewer values to replace. -/
theorem replacements_lt (h : (equalityStep (x, y)).act s realm = .ok (.again p) after) :
    p.1.replacements p.2 < x.replacements y := by
  obtain ⟨hkind, hlt⟩ := conversions_lt h
  refine Nat.lt_of_le_of_lt (replacements_le_conversions p.1 p.2) ?_
  rwa [replacements, hkind, if_neg Bool.false_ne_true]

end Replace

/-- After enough rounds there is an answer, or a conversion has failed. -/
theorem rounds_equalityStep_ne_again {n : Nat} {x y : Value} (h : x.replacements y < n)
    (s : Surroundings H) (realm : Realm H) (p : Value × Value) (after : Realm H) :
    (rounds equalityStep n (x, y)).act s realm ≠ .ok (.again p) after := by
  induction n generalizing x y realm with
  | zero => exact absurd h (Nat.not_lt_zero _)
  | succ n ih =>
    intro hr
    obtain ⟨round, middle, hround, hr⟩ := Engine.ok_of_bind hr
    cases round with
    | again p' => exact ih (Nat.lt_of_lt_of_le (replacements_lt hround) (Nat.le_of_lt_succ h)) _ hr
    | finish b => cases hr

end Value

/-- Equality after conversion is symmetric and decided in four rounds.

The two orders of the values are the same computation: in every realm and in all surroundings they
have the same answer or the same failure, leave the same realm, and run the same code in the same
order. After four rounds there always is an answer, unless the conversion of an object fails; how
many more rounds the surroundings permit does not matter. -/
theorem looselyEquals_symmetric_and_bounded (x y : Value) :
    (x.looselyEquals y : Engine H Bool) = y.looselyEquals x
      ∧ (rounds Value.equalityStep 4 (x, y) : Engine H _)
        = Round.finish <$> loopFor Value.equalityStep 4 (x, y)
      ∧ ∀ s : Surroundings H, 4 ≤ s.fuel →
        (x.looselyEquals y).act s = (loopFor Value.equalityStep 4 (x, y)).act s := by
  have hends := Value.rounds_equalityStep_ne_again (H := H)
    (Nat.lt_succ_of_le (Value.replacements_le x y))
  refine ⟨?_, rounds_eq_finish hends, fun s hs => ?_⟩
  · unfold Value.looselyEquals loop
    congr 1
    funext fuel
    exact (loopFor_swap Value.equalityStep_swap fuel (x, y)).symm
  · obtain ⟨m, hm⟩ := Nat.exists_eq_add_of_le hs
    have hloop : (x.looselyEquals y).act s = (loopFor Value.equalityStep s.fuel (x, y)).act s := rfl
    rw [hloop, hm, loopFor_add_of_rounds hends]

/-- A boolean gives way to its number after a string as well as before it. -/
theorem looselyEquals_symmetric_and_bounded_bool :
    4 ≤ (Surroundings.bounded Host.bare 4).fuel
      ∧ ((Value.string "1").looselyEquals (.bool true)).run Host.bare 4 { store := () }
        = .ok true { store := () }
      ∧ ((Value.bool true).looselyEquals (.string "1")).run Host.bare 4 { store := () }
        = .ok true { store := () } := by
  obtain ⟨hswap, -, hrounds⟩ :=
    looselyEquals_symmetric_and_bounded (H := HostTypes.bare) (.string "1") (.bool true)
  have hfuel : 4 ≤ (Surroundings.bounded Host.bare 4).fuel := Nat.le_refl 4
  have hone : (1.0 == Number.ofText "1") = true := by decide +kernel
  have hrun : ((Value.string "1").looselyEquals (.bool true)).run Host.bare 4 { store := () }
      = .ok true { store := () } := by
    change ((Value.string "1").looselyEquals (.bool true)).act _ _ = _
    rw [hrounds _ hfuel]
    exact congrArg (EStateM.Result.ok · _) hone
  exact ⟨hfuel, hrun, hswap ▸ hrun⟩

end ScriptEngine
