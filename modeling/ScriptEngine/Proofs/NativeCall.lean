import ScriptEngine.Proofs.Conduct
import ScriptEngine.Proofs.TimeLimit

/-!
# Calls of the functions of the engine

A function of the engine runs in a context of its own, which is taken off the stack when it returns.
Where no time limit is set, and the function itself leaves the contexts alone, a call of it comes
down to what the function does.

## Main definitions

* `TimeAccount`: the contexts of a realm and its clock.
* `Realm.IsNative`: an object is a certain function of the engine.
* `Realm.Unlimited`: no time limit is set, nor was the realm stopped by one.

## Main results

* `exists_callNative_gives`: a call in a context of its own.
* `Realm.IsNative.exists_call_gives`, `Realm.IsNative.exists_construct_gives`: calling and
  constructing.
-/

namespace ScriptEngine

open Engine

variable {H : HostTypes} {α : Type}

/-! ### Contexts -/

/-- What was pushed can be popped. -/
theorem ContextStack.exists_pop_push {φ : Type} (s : ContextStack φ) (c : Context φ)
    (now now' : Nat) : ∃ popped after, (s.push c now).pop now' = .ok (popped, after) := by
  unfold push
  split
  · exact ⟨_, _, rfl⟩
  · exact ⟨_, _, rfl⟩

/-- What the time used goes by: the contexts and the clock. -/
structure TimeAccount (H : HostTypes) where
  contexts : ContextStack (Frame H)
  time : Clock

/-- The account of time of a realm. -/
def Realm.account (realm : Realm H) : TimeAccount H := ⟨realm.contexts, realm.time⟩

/-- The realm with another heap and another account of time. -/
def Realm.having (realm : Realm H) (heap : Array (Object H)) (account : TimeAccount H) :
    Realm H :=
  { realm with heap, contexts := account.contexts, time := account.time }

/-- A computation that may extend the heap and leaves the account of time alone does the same in a
context of its own, which is charged to the account. -/
theorem Engine.exists_inContext_gives (realm : Realm H) (frame : Frame H)
    (plain : frame.generator = none) :
    ∃ account popped, ∀ {need bound : Nat} {host : Host H} {x : Engine H α} {a : α}
      {heap : Array (Object H)},
      (∀ account, Gives need bound (x.act (.bounded host bound) (realm.having realm.heap account))
        (.ok a (realm.having heap account))) →
      Gives need bound ((inContext frame x plain).act (.bounded host bound) realm)
        (.ok (.ok a, .ok popped) (realm.having heap account)) := by
  obtain ⟨popped, contexts, hpop⟩ := realm.contexts.newContext frame |>.2.exists_pop_push
    (realm.contexts.newContext frame).1 realm.clock realm.looked.clock
  refine ⟨⟨contexts, realm.looked.looked.time⟩, popped, fun {need bound host x a heap} hx => ?_⟩
  have hrun : (inContext frame x plain).act (.bounded host bound) realm
      = (x.act.attempt.andThen fun outcome =>
          Action.transition ((contextBracket frame plain).leave () outcome).apply)
        (.bounded host bound) (realm.withNewContext frame) :=
    Routine.bracket_of_enter (b := contextBracket frame plain) (a := ()) rfl
  let inside := realm.having heap (realm.withNewContext frame).account
  have hpopped : inside.seen.changeContexts ContextStack.pop
      = (.ok popped, (realm.having heap ⟨contexts, realm.looked.looked.time⟩).seen) := by
    unfold Realm.changeContexts
    have hstack : inside.seen.contexts.pop inside.seen.clock = .ok (popped, contexts) := hpop
    rw [hstack]
    rfl
  have hleave : Action.transition ((contextBracket frame plain).leave () (.ok a)).apply
      (.bounded host bound) inside
        = .ok (.ok a, .ok popped) (realm.having heap ⟨contexts, realm.looked.looked.time⟩) := by
    simp only [Action.transition, contextBracket, hpopped]
    rfl
  rw [hrun]
  rcases hx (realm.withNewContext frame).account with hx | ⟨hb, after, hx⟩
  · have hattempt : x.act.attempt (.bounded host bound) (realm.withNewContext frame)
        = .ok (.ok a) inside := Engine.attempt_of_ok hx
    refine .of_eq ?_
    simp only [Action.andThen, hattempt]
    exact hleave
  · have hattempt : x.act.attempt (.bounded host bound) (realm.withNewContext frame)
        = .error .exhausted after := Engine.attempt_of_exhausted hx
    refine .inr ⟨hb, after, ?_⟩
    simp only [Action.andThen, hattempt]

/-- A function of the engine does in a context of its own what it does. -/
theorem exists_callNative_gives (realm : Realm H) (f : ObjectId) :
    ∃ account, ∀ {need bound : Nat} {host : Host H} {behaviour : NativeBehaviour H}
      {code : NativeCode H} {this : Value} {args : List Value} {newTarget : Option ObjectId}
      {v : Value} {heap : Array (Object H)},
      (∀ account, Gives need bound
        ((behaviour code this args newTarget).act (.bounded host bound)
          (realm.having realm.heap account))
        (.ok v (realm.having heap account))) →
      Gives need bound
        ((callNative behaviour f code this args newTarget).act (.bounded host bound) realm)
        (.ok v (realm.having heap account)) := by
  obtain ⟨account, popped, hcontext⟩ :=
    Engine.exists_inContext_gives (α := Value) realm { function := some f } rfl
  exact ⟨account, fun h => (hcontext h).bindEngine (.of_eq rfl)⟩

/-! ### Calls -/

/-- No time limit is set, nor was the realm stopped by one. -/
structure Realm.Unlimited (realm : Realm H) : Prop where
  timeoutMs : realm.config.timeoutMs = 0
  aborted : realm.aborted = none

/-- An object is a function of the engine, which may be a constructor. -/
def Realm.IsNative (realm : Realm H) (f : ObjectId) (code : Builtin) (isConstructor : Bool) :
    Prop :=
  ∃ object : Object H, realm.object? f = some object
    ∧ object.kind = .function (.native (.builtin code) isConstructor)

section Call

variable {realm : Realm H} {f : ObjectId} {code : Builtin} {isConstructor : Bool}

theorem Realm.Unlimited.checkTimeout_act (h : realm.Unlimited) (s : Surroundings H) :
    checkTimeout.act s realm = .ok () realm := by
  change Action.checkpoint s realm = _
  simp only [Action.checkpoint, Realm.passCheckpoint_of_idle h.aborted (.inl h.timeoutMs)]

namespace Realm.IsNative

/-- A call of a function of the engine. -/
theorem exists_call_gives (h : realm.IsNative f code isConstructor) (hu : realm.Unlimited)
    (hl : ¬realm.AtLimit) :
    ∃ account, ∀ {need bound : Nat} {host : Host H} {this : Value} {args : List Value} {v : Value}
      {heap : Array (Object H)},
      (∀ bound account, Gives need bound
        ((code.run this args none).act (.bounded host bound)
          (realm.deeper.having realm.heap account))
        (.ok v (realm.deeper.having heap account))) →
      Gives (need + 1) bound (((Value.object f).call this args).act (.bounded host bound) realm)
        (.ok v (realm.having heap account)) := by
  obtain ⟨object, ho, hkind⟩ := h
  obtain ⟨account, hcall⟩ := exists_callNative_gives realm.deeper f
  refine ⟨account, fun {need bound host this args v heap} hrun => Gives.answer fun bound => ?_⟩
  have hact : (callFunction nativeBehaviour (.object f) this args).act (.bounded host bound) realm
      = (do
          checkTimeout
          Engine.nested (callKind nativeBehaviour f object.kind this args)).act
        (.bounded host bound) realm := callFunction_act ho (by rw [hkind]; rfl) this args
  refine Eq.mpr (congrArg (Gives need bound · _) hact) ?_
  refine Gives.bindEngine (.of_eq (hu.checkTimeout_act _)) ?_
  rw [hkind]
  exact Gives.nested hl (hcall (hrun bound))

/-- A constructor of the engine can be constructed with. -/
theorem isConstructor_act (h : realm.IsNative f code true) (s : Surroundings H) :
    (Engine.isConstructor (.object f)).act s realm = .ok true realm := by
  obtain ⟨object, ho, hkind⟩ := h
  have hseen : realm.seen.isConstructor (.object f) = realm.isConstructor (.object f) :=
    isConstructor_atDepth realm _ _
  have hwithin : realm.isConstructor (.object f) = true := by
    change realm.isConstructorWithin _ f = true
    have hk : realm.kind? f = some (.function (.native (.builtin code) true)) := by
      rw [Realm.kind?, ho, ← hkind]
      rfl
    rw [Realm.isConstructorWithin, hk]
  change EStateM.Result.ok (realm.seen.isConstructor (.object f)) realm = _
  rw [hseen, hwithin]

/-- Constructing with a constructor of the engine, given that it gives an object. -/
theorem exists_construct_gives (h : realm.IsNative f code true) (hu : realm.Unlimited)
    (hl : ¬realm.AtLimit) :
    ∃ account, ∀ {need bound : Nat} {host : Host H} {args : List Value} {o : ObjectId}
      {heap : Array (Object H)},
      (∀ bound account, Gives need bound
        ((code.run .undefined args (some f)).act (.bounded host bound)
          (realm.deeper.having realm.heap account))
        (.ok (.object o) (realm.deeper.having heap account))) →
      Gives (need + 1) bound ((f.construct args).act (.bounded host bound) realm)
        (.ok o (realm.having heap account)) := by
  obtain ⟨object, ho, hkind⟩ := h
  obtain ⟨account, hcall⟩ := exists_callNative_gives realm.deeper f
  refine ⟨account, fun {need bound host args o heap} hrun => Gives.answer fun bound => ?_⟩
  have htarget : (callTarget f).act (.bounded host bound) realm = .ok (some object.kind) realm := by
    unfold callTarget
    rw [Engine.bind_of_ok (getKind_of_some ho), if_pos (by rw [hkind]; rfl)]
    rfl
  have hconstructs : (Engine.isConstructor (.object f)).act (.bounded host bound) realm
      = .ok true realm := isConstructor_act ⟨object, ho, hkind⟩ _
  refine Gives.bindEngine (.of_eq hconstructs) ?_
  refine Gives.bindEngine (.of_eq (hu.checkTimeout_act _)) ?_
  refine Gives.bindEngine (.of_eq htarget) ?_
  rw [hkind]
  exact Gives.nested hl ((hcall (hrun bound)).bindEngine (.of_eq rfl))

end Realm.IsNative

end Call

end ScriptEngine
