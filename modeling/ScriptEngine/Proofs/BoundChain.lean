import ScriptEngine.Proofs.ArrayRun
import ScriptEngine.Proofs.NativeCall
import ScriptEngine.Proofs.PrototypeChain
import ScriptEngine.Proofs.ProxyTrap
import ScriptEngine.Proofs.Transparency

/-!
# Chains of bound functions

A bound function may be bound again, and so on. Calling or constructing with the last function of
such a chain is calling or constructing with the first one, as many levels of calls deeper as there
are bound functions: the arguments that were bound stand in the order in which they were bound, and
only the receiver that was bound first counts. Code that constructs may name any function of the
chain as the new target; what is constructed is told of the first one.

The functions of a chain were bound one after the other, so a bound function is younger than its
target. That is why the question whether a function is a constructor reaches the end of the chain.

## Main definitions

* `Binds`: a chain of functions, as it came about.
* `Realm.BoundChain`: a chain of functions, as it is found in a realm.

## Main results

* `Binds.boundChain`: chains stay as they came about.
* `Realm.BoundChain.call_run`, `Realm.BoundChain.construct_run`: what a chain does.
* `bound_chain_flattens`: a chain and its first function, also as the code of the host sees them.
-/

namespace ScriptEngine

open Engine

variable {H : HostTypes} {α δ : Type}

/-! ### What stays along steps -/

theorem Object.Changes.view_eq {object after : Object H} {of : ObjectKind H → Option δ}
    (h : object.Changes after)
    (hof : ∀ kind kind', ObjectKind.Becomes kind kind' → of kind' = of kind) :
    of after.kind = of object.kind := by
  induction h with
  | refl => rfl
  | tail _ last ih =>
    cases last with
    | become kind hk => exact (hof _ _ hk).trans ih
    | _ => exact ih

namespace Realm

variable {realm after : Realm H} {o : ObjectId} {of : ObjectKind H → Option δ} {data : δ}

theorem Step.size_le (hs : realm.Step after) (hd : after.disposed = false) :
    realm.heap.size ≤ after.heap.size := by
  cases hs with
  | beside hb => exact Nat.le_of_eq (congrArg Array.size hb.heap).symm
  | allocate object =>
    rw [Array.size_push]
    exact Nat.le_succ _
  | update => exact Nat.le_of_eq Array.size_setIfInBounds.symm
  | inherit => exact Nat.le_of_eq Array.size_setIfInBounds.symm
  | dispose _ _ _ ha => cases ha.symm.trans hd

/-- No object gets lost as long as the realm is not disposed of. -/
theorem Steps.size_le (hs : realm.Steps after) (hd : after.disposed = false) :
    realm.heap.size ≤ after.heap.size := by
  induction hs with
  | refl => exact Nat.le_refl _
  | tail _ last ih => exact Nat.le_trans (ih (last.usable hd)) (last.size_le hd)

/-- What never changes in an object is still there as long as the realm is not disposed of. -/
theorem Steps.view_eq (hs : realm.Steps after) (hd : after.disposed = false)
    (hof : ∀ kind kind', ObjectKind.Becomes kind kind' → of kind' = of kind)
    (h : realm.view of o = some data) : after.view of o = some data := by
  induction hs with
  | refl => exact h
  | @tail middle last _ hlast ih =>
    have hmiddle := ih (hlast.usable hd)
    cases hlast with
    | beside hb => rwa [view, object?, hb.heap]
    | allocate object =>
      have hne : o ≠ ⟨middle.heap.size⟩ := by
        rintro rfl
        rw [view_size] at hmiddle
        cases hmiddle
      rw [view_push, if_neg hne, hmiddle]
    | update o' ho hc => rw [view_putObject_of_eq ho (hc.view_eq hof), hmiddle]
    | @inherit o' object prototype ho =>
      have hview : (middle.putObject o' { object with prototype }).view of = middle.view of :=
        view_putObject_of_eq ho rfl
      rw [hview, hmiddle]
    | dispose _ _ _ ha => cases ha.symm.trans hd

end Realm

/-! ### Chains -/

/-- What a bound function is bound to. -/
def ObjectKind.bound? : ObjectKind H → Option BoundFunction
  | boundFunction data => some data
  | _ => none

/-- A function bound to another one, with the receiver and the arguments bound to it. -/
structure Bond where
  function : ObjectId
  this : Value
  args : List Value

/-- Functions bound one after the other, the first to `f` and each further one to the one before it,
where `b` is the last. Anything may happen in between, but the end of the realm. -/
inductive Binds (host : Host H) (f : ObjectId) : Realm H → List Bond → ObjectId → Prop
  | start {realm : Realm H} (hr : realm.Reachable) : Binds host f realm [] f
  | retain {realm after : Realm H} {bonds : List Bond} {b : ObjectId}
      (before : Binds host f realm bonds b) (hs : realm.Steps after) (hd : after.disposed = false) :
      Binds host f after bonds b
  | bind {realm after : Realm H} {bonds : List Bond} {target b : ObjectId} (bound : Nat)
      (before : Binds host f realm bonds target) (this : Value) (args : List Value)
      (hb : (boundFunction target this args).run host bound realm = .ok b after)
      (hd : after.disposed = false) : Binds host f after (bonds ++ [⟨b, this, args⟩]) b

/-- The functions of a chain that starts with a function bound to `f` and ends with `b`, as they are
found in a realm. -/
inductive Realm.BoundChain (realm : Realm H) (f : ObjectId) : List Bond → ObjectId → Prop
  | start : BoundChain realm f [] f
  | bind {bonds : List Bond} {target : ObjectId} (before : BoundChain realm f bonds target)
      (bond : Bond)
      (hb : realm.view ObjectKind.bound? bond.function
        = some { target, boundThis := bond.this, boundArgs := bond.args })
      (younger : target.index < bond.function.index) :
      BoundChain realm f (bonds ++ [bond]) bond.function

/-- The receiver that the first function of a chain gets. -/
def chainReceiver (bonds : List Bond) (this : Value) : Value :=
  (bonds.head?.map Bond.this).getD this

/-- The arguments that the first function of a chain gets. -/
def chainArguments (bonds : List Bond) (args : List Value) : List Value :=
  bonds.flatMap Bond.args ++ args

/-- The new target that the first function of a chain gets. -/
def chainTarget (bonds : List Bond) (f newTarget : ObjectId) : ObjectId :=
  if newTarget ∈ bonds.map Bond.function then f else newTarget

section Chain

variable {bonds : List Bond} {bond : Bond}

theorem chainReceiver_concat (this : Value) :
    chainReceiver (bonds ++ [bond]) this = chainReceiver bonds bond.this := by
  cases bonds <;> rfl

theorem chainArguments_concat (args : List Value) :
    chainArguments (bonds ++ [bond]) args = chainArguments bonds (bond.args ++ args) := by
  simp [chainArguments]

/-- The new target is replaced step by step: each bound function that is named as such stands for
its target. -/
theorem Realm.BoundChain.chainTarget_concat {realm : Realm H} {f target : ObjectId}
    (h : realm.BoundChain f bonds target) (newTarget : ObjectId) :
    chainTarget (bonds ++ [bond]) f newTarget
      = chainTarget bonds f (if newTarget = bond.function then target else newTarget) := by
  unfold chainTarget
  by_cases heq : newTarget = bond.function
  · have htarget : target = f ∨ target ∈ bonds.map Bond.function := by
      cases h with
      | start => exact .inl rfl
      | bind => exact .inr (by simp)
    rw [if_pos (by simp [heq]), if_pos heq]
    split
    · rfl
    · next hmem => exact (htarget.resolve_right hmem).symm
  · have hmem : newTarget ∈ (bonds ++ [bond]).map Bond.function
        ↔ newTarget ∈ bonds.map Bond.function := by simp [heq]
    simp only [hmem, if_neg heq]

end Chain

/-! ### How chains come about -/

section Binds

variable {host : Host H} {bound : Nat} {realm after : Realm H} {f b target : ObjectId}
  {bonds : List Bond} {this : Value} {args : List Value}

theorem ObjectKind.Becomes.bound?_eq {kind after : ObjectKind H} (h : kind.Becomes after) :
    after.bound? = kind.bound? := by
  cases h <;> rfl

/-- A function was bound by putting a new object on the heap, on which its target was already. -/
theorem exists_of_boundFunction
    (h : (boundFunction target this args).run host bound realm = .ok b after) :
    ∃ object middle prototype,
      realm.object? target = some object
        ∧ target.getPrototypeOf.act (.bounded host bound) realm = .ok prototype middle
        ∧ b = ⟨middle.heap.size⟩
        ∧ after = { middle with heap := middle.heap.push (.ofKind prototype
            (.boundFunction { target, boundThis := this, boundArgs := args })) } := by
  obtain ⟨prototype, middle, hask, hnew⟩ := Engine.ok_of_bind h
  obtain ⟨object, ho⟩ := Engine.exists_of_ask rfl hask
  cases hnew
  exact ⟨object, middle, prototype, ho, hask, rfl, rfl⟩

theorem Realm.BoundChain.retained (h : realm.BoundChain f bonds b) (hs : realm.Steps after)
    (hd : after.disposed = false) : after.BoundChain f bonds b := by
  induction h with
  | start => exact .start
  | bind _ bond hb younger ih =>
    exact .bind ih bond (hs.view_eq hd (fun _ _ hk => hk.bound?_eq) hb) younger

theorem Binds.reachable (h : Binds host f realm bonds b) : realm.Reachable := by
  induction h with
  | start hr => exact hr
  | retain _ hs _ ih => exact hs.reachable ih
  | bind _ _ _ _ hb _ ih => exact (Engine.leads_of_ok ih.sound hb).steps.reachable ih

/-- A chain is found as it came about. -/
theorem Binds.boundChain (h : Binds host f realm bonds b) : realm.BoundChain f bonds b := by
  induction h with
  | start => exact .start
  | retain _ hs hd ih => exact ih.retained hs hd
  | bind bound before this args hb hd ih =>
    have hsteps := (Engine.leads_of_ok before.reachable.sound hb).steps
    obtain ⟨object, middle, prototype, ho, hask, rfl, rfl⟩ := exists_of_boundFunction hb
    have hfirst := (Engine.leads_of_ok before.reachable.sound hask).steps
    refine .bind (ih.retained hsteps hd) ⟨_, this, args⟩ ?_ ?_
    · rw [Realm.view_push, if_pos rfl]
      rfl
    · exact Nat.lt_of_lt_of_le (Realm.index_lt_of_object? ho) (hfirst.size_le hd)

end Binds

/-! ### Which functions are constructors -/

section Constructor

variable {realm : Realm H} {f b : ObjectId} {bonds : List Bond}

/-- A function that is not bound, as it is found in a realm. -/
theorem Realm.isConstructorWithin_of_not_bound (hf : realm.view ObjectKind.bound? f = none)
    (fuel : Nat) : realm.isConstructorWithin (fuel + 1) f = realm.isConstructorWithin 1 f := by
  unfold isConstructorWithin
  unfold view at hf
  unfold kind?
  cases ho : realm.object? f with
  | none => rfl
  | some object =>
    rw [ho] at hf
    cases hk : object.kind with
    | boundFunction data =>
      rw [Option.bind_some, hk] at hf
      cases hf
    | function data => cases data <;> simp [hk]
    | _ => simp [hk]

theorem Realm.exists_of_view_bound {data : BoundFunction}
    (h : realm.view ObjectKind.bound? b = some data) :
    ∃ object, realm.object? b = some object ∧ object.kind = .boundFunction data := by
  obtain ⟨object, ho, hk⟩ := Option.bind_eq_some_iff.mp h
  refine ⟨object, ho, ?_⟩
  cases hkind : object.kind with
  | boundFunction data' =>
    rw [hkind] at hk
    cases hk
    rfl
  | _ =>
    rw [hkind] at hk
    cases hk

namespace Realm.BoundChain

theorem length_le (h : realm.BoundChain f bonds b) : bonds.length ≤ b.index := by
  induction h with
  | start => exact Nat.zero_le _
  | bind _ _ _ younger ih =>
    rw [List.length_append]
    exact Nat.lt_of_le_of_lt ih younger

theorem isConstructorWithin (h : realm.BoundChain f bonds b) (fuel : Nat) :
    realm.isConstructorWithin (fuel + bonds.length) b = realm.isConstructorWithin fuel f := by
  induction h with
  | start => rfl
  | @bind bonds target _ bond hb _ ih =>
    obtain ⟨object, ho, hk⟩ := exists_of_view_bound hb
    have hkind : realm.kind? bond.function
        = some (.boundFunction { target, boundThis := bond.this, boundArgs := bond.args }) := by
      rw [kind?, ho, Option.map_some, hk]
    rw [List.length_append, List.length_singleton, ← Nat.add_assoc, Realm.isConstructorWithin,
      hkind]
    exact ih

/-- The last function of a chain is a constructor just if the first one is, if that is not itself
bound. -/
theorem isConstructor_eq (h : realm.BoundChain f bonds b)
    (hf : realm.view ObjectKind.bound? f = none) :
    realm.isConstructor (.object b) = realm.isConstructor (.object f) := by
  have hlength : bonds.length ≤ realm.heap.size := by
    cases h with
    | start => exact Nat.zero_le _
    | bind before bond hb younger =>
      obtain ⟨object, ho, -⟩ := exists_of_view_bound hb
      have hle := (BoundChain.bind before bond hb younger).length_le
      exact Nat.le_trans hle (Nat.le_of_lt (index_lt_of_object? ho))
  obtain ⟨fuel, hfuel⟩ := Nat.exists_eq_add_of_le' hlength
  have hsplit : realm.heap.size + 1 = (fuel + 1) + bonds.length := by omega
  change realm.isConstructorWithin (realm.heap.size + 1) b
    = realm.isConstructorWithin (realm.heap.size + 1) f
  rw [isConstructorWithin_of_not_bound hf, hsplit, h.isConstructorWithin,
    isConstructorWithin_of_not_bound hf]

end Realm.BoundChain

end Constructor

/-! ### What chains do -/

section Run

variable {host : Host H} {realm : Realm H} {f b : ObjectId} {bonds : List Bond}

theorem outcomeShallower_iterate_run_deeper (hd : H.seesDepth = false)
    (hz : realm.config.maxCallDepth = 0) (host : Host H) (bound : Nat) (x : Engine H α) (n : Nat) :
    outcomeShallower^[n] (x.run host bound (Realm.deeper^[n] realm)) = x.run host bound realm := by
  induction n generalizing realm with
  | zero => rfl
  | succ n ih =>
    have hz' : realm.deeper.config.maxCallDepth = 0 := hz
    rw [Function.iterate_succ_apply' outcomeShallower, Function.iterate_succ_apply Realm.deeper,
      ih hz', Engine.outcomeShallower_run_deeper hd hz]

theorem outcomeShallower_iterate_error (realm : Realm H) (stop : Stop) (n : Nat) :
    outcomeShallower^[n] (.error stop (Realm.deeper^[n] realm))
      = (.error stop realm : EStateM.Result Stop (Realm H) α) := by
  induction n generalizing realm with
  | zero => rfl
  | succ n ih =>
    rw [Function.iterate_succ_apply' outcomeShallower, Function.iterate_succ_apply Realm.deeper,
      ih realm.deeper]
    rfl

theorem Realm.deeper_iterate (realm : Realm H) (n : Nat) :
    Realm.deeper^[n] realm = realm.atDepth (realm.callDepth + n) := by
  induction n with
  | zero => rfl
  | succ n ih =>
    rw [Function.iterate_succ_apply', ih]
    rfl

theorem Realm.Unlimited.atDepth (hu : realm.Unlimited) (depth : Nat) :
    (realm.atDepth depth).Unlimited :=
  ⟨hu.timeoutMs, hu.aborted⟩

theorem Engine.isConstructor_act (realm : Realm H) (v : Value) (s : Surroundings H) :
    (Engine.isConstructor v).act s realm = .ok (realm.isConstructor v) realm := by
  unfold Engine.isConstructor
  rw [Engine.bind_of_ok (getRealm_eq s realm), Realm.seen, Realm.isConstructor_atDepth]
  rfl

namespace Realm.BoundChain

/-- A request at a bound function is that at its target, one level deeper. -/
theorem call_run_of_bound {bond : Bond} {target : ObjectId} (hz : realm.config.maxCallDepth = 0)
    (hu : realm.Unlimited) (hb : realm.view ObjectKind.bound? bond.function
      = some { target, boundThis := bond.this, boundArgs := bond.args })
    (this : Value) (args : List Value) (bound : Nat) :
    ((Value.object bond.function).call this args).run host (bound + 1) realm
      = outcomeShallower (((Value.object target).call bond.this (bond.args ++ args)).run host bound
          realm.deeper) := by
  obtain ⟨object, ho, hk⟩ := exists_of_view_bound hb
  have hact : (callFunction nativeBehaviour (.object bond.function) this args).act
      (.bounded host bound) realm = _ := callFunction_act ho (by rw [hk]; rfl) this args
  rw [Engine.bind_of_ok (hu.checkTimeout_act _), hk] at hact
  exact hact.trans (Action.nested_of_not_atLimit (fun h => h.1 hz) _ _)

/-- Calling the last function of a chain, in a realm without limits that was not stopped. -/
theorem call_run_atDepth (h : realm.BoundChain f bonds b) (hz : realm.config.maxCallDepth = 0)
    (hu : realm.Unlimited) (this : Value) (args : List Value) (bound depth : Nat) :
    ((Value.object b).call this args).run host (bound + bonds.length) (realm.atDepth depth)
      = outcomeShallower^[bonds.length] (((Value.object f).call (chainReceiver bonds this)
          (chainArguments bonds args)).run host bound
            (Realm.deeper^[bonds.length] (realm.atDepth depth))) := by
  induction h generalizing this args depth with
  | start => rfl
  | @bind bonds target before bond hb younger ih =>
    rw [List.length_append, List.length_singleton, chainReceiver_concat, chainArguments_concat,
      Function.iterate_succ_apply' outcomeShallower, Function.iterate_succ_apply Realm.deeper,
      ← Nat.add_assoc]
    have hz' : (realm.atDepth depth).config.maxCallDepth = 0 := hz
    refine (call_run_of_bound hz' (hu.atDepth depth) hb this args _).trans
      (congrArg outcomeShallower ?_)
    exact ih bond.this (bond.args ++ args) (depth + 1)

theorem construct_run_of_bound {bond : Bond} {target : ObjectId}
    (hz : realm.config.maxCallDepth = 0) (hu : realm.Unlimited)
    (hb : realm.view ObjectKind.bound? bond.function
      = some { target, boundThis := bond.this, boundArgs := bond.args })
    (hc : realm.isConstructor (.object bond.function)) (args : List Value) (newTarget : ObjectId)
    (bound : Nat) :
    (bond.function.construct args (some newTarget)).run host (bound + 1) realm
      = outcomeShallower ((target.construct (bond.args ++ args)
          (some (if newTarget = bond.function then target else newTarget))).run host bound
          realm.deeper) := by
  obtain ⟨object, ho, hk⟩ := exists_of_view_bound hb
  have htarget : (callTarget bond.function).act (.bounded host bound) realm
      = .ok (some object.kind) realm := by
    unfold callTarget
    rw [Engine.bind_of_ok (getKind_of_some ho), if_pos (by rw [hk]; rfl)]
    rfl
  have hact : (constructFunction nativeBehaviour bond.function args newTarget).act
      (.bounded host bound) realm
        = (Engine.nested (constructKind nativeBehaviour bond.function object.kind args
            newTarget)).act (.bounded host bound) realm := by
    unfold constructFunction
    rw [Engine.bind_of_ok (Engine.isConstructor_act realm _ _), hc]
    exact (Engine.bind_of_ok (hu.checkTimeout_act _)).trans (Engine.bind_of_ok htarget)
  rw [hk] at hact
  exact hact.trans (Action.nested_of_not_atLimit (fun h => h.1 hz) _ _)

/-- Constructing with the last function of a chain, in a realm without limits that was not
stopped. -/
theorem construct_run_atDepth (h : realm.BoundChain f bonds b)
    (hz : realm.config.maxCallDepth = 0) (hu : realm.Unlimited)
    (hf : realm.view ObjectKind.bound? f = none) (hc : realm.isConstructor (.object f))
    (args : List Value) (newTarget : ObjectId) (bound depth : Nat) :
    (b.construct args (some newTarget)).run host (bound + bonds.length) (realm.atDepth depth)
      = outcomeShallower^[bonds.length] ((f.construct (chainArguments bonds args)
          (some (chainTarget bonds f newTarget))).run host bound
            (Realm.deeper^[bonds.length] (realm.atDepth depth))) := by
  induction h generalizing args newTarget depth with
  | start =>
    unfold chainTarget
    rw [if_neg (by simp)]
    rfl
  | @bind bonds target before bond hb younger ih =>
    have hconstructor : (realm.atDepth depth).isConstructor (.object bond.function) := by
      rw [isConstructor_atDepth, (BoundChain.bind before bond hb younger).isConstructor_eq hf]
      exact hc
    rw [List.length_append, List.length_singleton, chainArguments_concat,
      before.chainTarget_concat, Function.iterate_succ_apply' outcomeShallower,
      Function.iterate_succ_apply Realm.deeper, ← Nat.add_assoc]
    have hz' : (realm.atDepth depth).config.maxCallDepth = 0 := hz
    refine (construct_run_of_bound hz' (hu.atDepth depth) hb hconstructor args newTarget _).trans
      (congrArg outcomeShallower ?_)
    exact ih (bond.args ++ args) _ (depth + 1)

/-! #### Also in realms that were stopped -/

theorem isCallable (h : realm.BoundChain f bonds b) (hf : realm.isCallable (.object f)) :
    realm.isCallable (.object b) := by
  cases h with
  | start => exact hf
  | bind _ bond hb _ =>
    obtain ⟨object, ho, hk⟩ := exists_of_view_bound hb
    change (realm.kind? bond.function).any ObjectKind.isCallable
    rw [kind?, ho, Option.map_some, hk]
    rfl

/-- A realm that was stopped calls neither function. -/
theorem call_run (host : Host H) (h : realm.BoundChain f bonds b)
    (hz : realm.config.maxCallDepth = 0)
    (ht : realm.config.timeoutMs = 0) (hf : realm.isCallable (.object f)) (this : Value)
    (args : List Value) (bound : Nat) :
    ((Value.object b).call this args).run host (bound + 1 + bonds.length) realm
      = outcomeShallower^[bonds.length] (((Value.object f).call (chainReceiver bonds this)
          (chainArguments bonds args)).run host (bound + 1)
            (Realm.deeper^[bonds.length] realm)) := by
  cases ha : realm.aborted with
  | none => exact h.call_run_atDepth hz ⟨ht, ha⟩ this args (bound + 1) realm.callDepth
  | some elapsed =>
    have hdeeper : (Realm.deeper^[bonds.length] realm).Halted (.timeout 0 elapsed) := by
      rw [deeper_iterate]
      exact Stopped.halted ⟨ht, ha⟩
    have hcallable : (Realm.deeper^[bonds.length] realm).isCallable (.object f) := by
      rw [deeper_iterate]
      exact hf
    rw [hdeeper.call host bound hcallable, outcomeShallower_iterate_error, Nat.add_right_comm]
    exact (Stopped.halted ⟨ht, ha⟩).call host _ (h.isCallable hf) this args

theorem construct_run (host : Host H) (h : realm.BoundChain f bonds b)
    (hz : realm.config.maxCallDepth = 0)
    (ht : realm.config.timeoutMs = 0) (hf : realm.view ObjectKind.bound? f = none)
    (hc : realm.isConstructor (.object f)) (args : List Value) (newTarget : ObjectId)
    (bound : Nat) :
    (b.construct args (some newTarget)).run host (bound + 1 + bonds.length) realm
      = outcomeShallower^[bonds.length] ((f.construct (chainArguments bonds args)
          (some (chainTarget bonds f newTarget))).run host (bound + 1)
            (Realm.deeper^[bonds.length] realm)) := by
  cases ha : realm.aborted with
  | none =>
    exact h.construct_run_atDepth hz ⟨ht, ha⟩ hf hc args newTarget (bound + 1) realm.callDepth
  | some elapsed =>
    have hdeeper : (Realm.deeper^[bonds.length] realm).Halted (.timeout 0 elapsed) := by
      rw [deeper_iterate]
      exact Stopped.halted ⟨ht, ha⟩
    have hconstructor : (Realm.deeper^[bonds.length] realm).isConstructor (.object f) := by
      rwa [deeper_iterate, isConstructor_atDepth]
    have hlast : realm.isConstructor (.object b) := by rwa [h.isConstructor_eq hf]
    rw [hdeeper.construct host bound hconstructor, outcomeShallower_iterate_error,
      Nat.add_right_comm]
    exact (Stopped.halted ⟨ht, ha⟩).construct host _ hlast args _

end Realm.BoundChain

theorem chainTarget_last (h : realm.BoundChain f bonds b) : chainTarget bonds f b = f := by
  cases h with
  | start =>
    unfold chainTarget
    split <;> rfl
  | bind => exact if_pos (by simp)

end Run

/-- Calling and constructing with the last function of a chain is, as many levels deeper as there
are bound functions, calling and constructing with the first one; where the code of the host does
not see the depth of calls, it is the same. -/
theorem bound_chain_flattens (host : Host H) {realm : Realm H} {f b : ObjectId} {bonds : List Bond}
    (h : Binds host f realm bonds b) (hz : realm.config.maxCallDepth = 0)
    (ht : realm.config.timeoutMs = 0) (hcallable : realm.isCallable (.object f))
    (hf : realm.view ObjectKind.bound? f = none) :
    (∀ this args bound,
      ((Value.object b).call this args).run host (bound + 1 + bonds.length) realm
          = outcomeShallower^[bonds.length] (((Value.object f).call (chainReceiver bonds this)
            (chainArguments bonds args)).run host (bound + 1) (Realm.deeper^[bonds.length] realm))
        ∧ (H.seesDepth = false →
          ((Value.object b).call this args).run host (bound + 1 + bonds.length) realm
            = ((Value.object f).call (chainReceiver bonds this)
              (chainArguments bonds args)).run host (bound + 1) realm))
    ∧ realm.isConstructor (.object b) = realm.isConstructor (.object f)
    ∧ (realm.isConstructor (.object f) → ∀ args newTarget bound,
      (b.construct args newTarget).run host (bound + 1 + bonds.length) realm
          = outcomeShallower^[bonds.length] ((f.construct (chainArguments bonds args)
            (some ((newTarget.map (chainTarget bonds f)).getD f))).run host (bound + 1)
              (Realm.deeper^[bonds.length] realm))
        ∧ (H.seesDepth = false →
          (b.construct args newTarget).run host (bound + 1 + bonds.length) realm
            = (f.construct (chainArguments bonds args)
              (some ((newTarget.map (chainTarget bonds f)).getD f))).run host
                (bound + 1) realm)) := by
  have hchain := h.boundChain
  refine ⟨fun this args bound => ?_, hchain.isConstructor_eq hf, fun hc args newTarget bound => ?_⟩
  · have hrun := hchain.call_run host hz ht hcallable this args bound
    exact ⟨hrun, fun hd => hrun.trans (outcomeShallower_iterate_run_deeper hd hz host _ _ _)⟩
  · have hrun := hchain.construct_run host hz ht hf hc args (newTarget.getD b) bound
    have htarget : chainTarget bonds f (newTarget.getD b)
        = (newTarget.map (chainTarget bonds f)).getD f := by
      cases newTarget with
      | none => exact chainTarget_last hchain
      | some t => rfl
    rw [htarget] at hrun
    exact ⟨hrun, fun hd => hrun.trans (outcomeShallower_iterate_run_deeper hd hz host _ _ _)⟩

/-! ### A function that was bound twice -/

/-- A realm with a function without code of the language and a chain of functions that starts with
it, of a certain length up to two. -/
def chainRealm (code : NativeCode H) (store : H.Store) (length : Nat) : Realm H :=
  { heap := (#[.ofKind none (.function (.native code true)),
      .ofKind none
        (.boundFunction { target := ⟨0⟩, boundThis := .null, boundArgs := [.bool true] }),
      .ofKind none
        (.boundFunction { target := ⟨1⟩, boundThis := .bool false, boundArgs := [.null] })]
      : Array (Object H)).take (length + 1)
    config := { timeoutMs := 0, maxCallDepth := 0 }
    store }

theorem chainRealm_binds (host : Host H) (code : NativeCode H) (store : H.Store) :
    Binds host ⟨0⟩ (chainRealm code store 2)
      [⟨⟨1⟩, .null, [.bool true]⟩, ⟨⟨2⟩, .bool false, [.null]⟩] ⟨2⟩ := by
  have hempty : ({ chainRealm code store 0 with heap := #[] } : Realm H).Reachable := .empty rfl
  have hr : (chainRealm code store 0).Reachable :=
    hempty.step (.allocate _ (.ofKind none (.function (.native code true))) (.ofKind _ _)
      (.of_not_isArray rfl))
  have hfirst : Binds host ⟨0⟩ (chainRealm code store 1) [⟨⟨1⟩, .null, [.bool true]⟩] ⟨1⟩ :=
    .bind 1 (.start hr) .null [.bool true] rfl rfl
  exact .bind 1 hfirst (.bool false) [.null] rfl rfl

/-- Both bound functions are named as the new target, and stand for the first function. -/
theorem bound_chain_flattens_chainRealm :
    (∀ this args bound, ((Value.object ⟨2⟩).call this args).run (.idle ())
        (bound + 3) (chainRealm (H := HostTypes.blind) (.host ()) () 2)
      = ((Value.object ⟨0⟩).call .null (.bool true :: .null :: args)).run
        (.idle ()) (bound + 1)
        (chainRealm (H := HostTypes.blind) (.host ()) () 2))
    ∧ ∀ args bound, ∀ newTarget ∈ [none, some ⟨1⟩, some ⟨2⟩],
      ((⟨2⟩ : ObjectId).construct args newTarget).run (.idle ()) (bound + 3)
          (chainRealm (H := HostTypes.blind) (.host ()) () 2)
        = ((⟨0⟩ : ObjectId).construct (.bool true :: .null :: args) (some ⟨0⟩)).run
          (.idle ()) (bound + 1)
          (chainRealm (H := HostTypes.blind) (.host ()) () 2) := by
  obtain ⟨hcall, -, hconstruct⟩ := bound_chain_flattens (.idle ())
    (chainRealm_binds (H := HostTypes.blind) _ (.host ()) ()) rfl rfl rfl rfl
  refine ⟨fun this args bound => (hcall this args bound).2 rfl, fun args bound newTarget hmem => ?_⟩
  have hrun := (hconstruct rfl args newTarget bound).2 rfl
  simp only [List.mem_cons, List.not_mem_nil, or_false] at hmem
  rcases hmem with rfl | rfl | rfl <;> exact hrun

/-- A function that sees the depth of calls can tell whether it is called through bound ones. -/
theorem not_bound_chain_flattens :
    ¬∀ (host : Host HostTypes.bare) (realm : Realm HostTypes.bare) (f b : ObjectId)
      (bonds : List Bond), Binds host f realm bonds b → realm.config.maxCallDepth = 0 →
      realm.config.timeoutMs = 0 → realm.isCallable (.object f) →
      realm.view ObjectKind.bound? f = none →
      ∀ this args, ∃ least, ∀ bound, least ≤ bound →
        ((Value.object b).call this args).run host (bound + bonds.length) realm
          = ((Value.object f).call (chainReceiver bonds this) (chainArguments bonds args)).run host
            bound realm := by
  intro h
  obtain ⟨least, hleast⟩ := h depthHost (chainRealm (.host ()) () 2) ⟨0⟩ ⟨2⟩ _
    (chainRealm_binds depthHost (.host ()) ()) rfl rfl rfl rfl .null []
  have heq := hleast (least + 4) (Nat.le_add_right least 4)
  obtain ⟨after, hfirst⟩ : ∃ after, ((Value.object ⟨0⟩).call .null [.bool true, .null]).run
      depthHost (least + 4) (chainRealm (.host ()) () 2) = .ok (.bool false) after := ⟨_, rfl⟩
  obtain ⟨after', hlast⟩ : ∃ after, ((Value.object ⟨2⟩).call .null []).run
      depthHost (least + 4 + 2) (chainRealm (.host ()) () 2) = .ok (.bool true) after := ⟨_, rfl⟩
  cases hlast.symm.trans (heq.trans hfirst)

end ScriptEngine
