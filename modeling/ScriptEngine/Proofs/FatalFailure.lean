import ScriptEngine.Builtin.Array.Creation
import ScriptEngine.Builtin.Control
import ScriptEngine.Builtin.Object
import ScriptEngine.Proofs.GeneratorYield
import ScriptEngine.Proofs.JobQueue
import ScriptEngine.Proofs.PrototypeChain
import ScriptEngine.Proofs.ResolvingFunction

/-!
# Fatal failures

Code of the language may catch the errors of the language, but not the end of its time and not a
broken promise of the engine itself. Many operations look at a failure before they pass it on: they
mark an iteration as done, close an iterator, reject a promise or go on with the next job. Each of
them passes on a fatal failure as it met it, and does no more than put its own house in order.

## Main definitions

* `Engine.Rounds`: a loop has gone round a number of times.
* `ArrayFunction.fillRound`, `ObjectFunction.entryRound`: the rounds of the loops that build from an
  iteration.
* `Failure.Escapes`: a failure gets past every operation that looks at failures.

## Main results

* `Failure.toValue_of_isFatal`: a fatal failure is no value of the language.
* `IteratorRecord.close_of_isFatal`, `IteratorRecord.outcomeRealm_close`: an iteration that is
  closed with a fatal failure ends with one, and closing it does what it always does.
* `ObjectId.runGenerator_of_isFatal`, `runJobs_of_isFatal`: generators and the queue of jobs.
* `fatal_failure_escapes`: all of them.
* `not_fatal_failure_settles_nothing`: the method that closes an iterator may be one that settles a
  promise, and a body that disposes of the realm may hide its failure.
-/

namespace ScriptEngine

open Engine

variable {H : HostTypes} {α β σ : Type} {host : Host H} {bound : Nat} {s : Surroundings H}
  {realm start middle met after : Realm H} {f : Failure}

/-- Once a computation between two changes of the realm has an outcome, the second change is made.
-/
theorem Routine.bracket_of_outcome {b : Bracket H σ α β} (body : σ → Routine H α) {a : σ}
    {outcome : Except Failure α} (ha : (b.enter.apply realm.seen).1 = .ok a)
    (hx : (body a).attempt.run host bound ((b.enter.apply realm.seen).2.atDepth realm.callDepth)
      = .ok outcome middle) :
    (bracket b body).run host bound realm
      = Action.transition (b.leave a outcome).apply (.bounded host bound) middle := by
  have hx' : (body a).act.attempt (.bounded host bound)
      ((b.enter.apply realm.seen).2.atDepth realm.callDepth) = .ok outcome middle := hx
  rw [bracket_of_enter ha]
  simp only [Action.andThen, hx']

theorem Action.transition_of_error {change : Realm H → Except Failure α × Realm H}
    (h : (change realm.seen).1 = .error f) :
    Action.transition change s realm
      = .error (.failure f) ((change realm.seen).2.atDepth realm.callDepth) := by
  match hc : change realm.seen with
  | (.ok a, after) =>
    rw [hc] at h
    cases h
  | (.error failure, after) =>
    rw [hc] at h
    cases h
    simp only [transition, hc]

/-! ### Failures as values -/

/-- A fatal failure is no value of the language. -/
theorem Failure.toValue_of_isFatal (hf : f.isFatal) :
    (f.toValue : Engine H Value).act s realm = .error (.failure f) realm := by
  cases f with
  | timeout => rfl
  | internal => rfl
  | native => cases hf
  | thrown => cases hf

/-- A fatal failure is no completion. -/
theorem Failure.toCompletion_of_isFatal (hf : f.isFatal) :
    (f.toCompletion : Engine H Completion).act s realm = .error (.failure f) realm :=
  Engine.bind_of_error (toValue_of_isFatal hf)

/-! ### Loops -/

/-- A loop has gone round `n` times, from one state and realm to another. -/
inductive Engine.Rounds (step : σ → Engine H (Round σ α)) (s : Surroundings H) :
    Nat → σ → Realm H → σ → Realm H → Prop
  | none (a : σ) (realm : Realm H) : Rounds step s 0 a realm a realm
  | more {n : Nat} {a b c : σ} {realm middle after : Realm H}
      (h : (step a).act s realm = .ok (.again b) middle)
      (rest : Rounds step s n b middle c after) : Rounds step s (n + 1) a realm c after

section Loop

variable {step : σ → Engine H (Round σ α)} {n : Nat} {a b : σ}

theorem Engine.loopFor_of_rounds (h : Rounds step s n a realm b middle) (fuel : Nat) :
    (loopFor step (n + fuel) a).act s realm = (loopFor step fuel b).act s middle := by
  induction h with
  | none => rw [Nat.zero_add]
  | more h _ ih =>
    rw [Nat.add_right_comm]
    exact (Engine.bind_of_ok h).trans ih

/-- A loop ends as its last round does. -/
theorem Engine.loop_of_last {x : Engine H α} (h : Rounds step s n a realm b middle)
    (hn : n < s.fuel)
    (hx : (step b).act s middle = (x >>= fun result => pure (.finish result)).act s met) :
    (loop step a).act s realm = x.act s met := by
  have hfuel : (getFuel : Engine H Nat).act s realm = .ok s.fuel realm := rfl
  obtain ⟨fuel, hsum⟩ := Nat.exists_eq_add_of_lt hn
  refine (Engine.bind_of_ok hfuel).trans ?_
  rw [hsum, Nat.add_assoc, Engine.loopFor_of_rounds h]
  match hr : x.act s met with
  | .ok result after => exact Engine.bind_of_ok (hx.trans (Engine.bind_of_ok hr))
  | .error stop after => exact Engine.bind_of_error (hx.trans (Engine.bind_of_error hr))

/-- A loop fails as its last round does. -/
theorem Engine.loop_of_error {stop : Stop} (h : Rounds step s n a realm b middle)
    (hn : n < s.fuel) (hx : (step b).act s middle = .error stop met) :
    (loop step a).act s realm = .error stop met := by
  have hfuel : (getFuel : Engine H Nat).act s realm = .ok s.fuel realm := rfl
  obtain ⟨fuel, hsum⟩ := Nat.exists_eq_add_of_lt hn
  refine (Engine.bind_of_ok hfuel).trans ?_
  rw [hsum, Nat.add_assoc, Engine.loopFor_of_rounds h]
  exact Engine.bind_of_error hx

end Loop

/-! ### Iterations -/

namespace IteratorRecord

variable {r r' : IteratorRecord} {result : ObjectId} {v : Option Value}

/-- A failure of the method that gives the next result is that of the step. -/
theorem next_of_failure
    (h : (r.nextMethod.call (.object r.iterator) v.toList).act s realm
      = .error (.failure f) met) :
    (r.next v).act s realm = .ok ⟨.error f, r.finished⟩ met :=
  Engine.bind_of_ok (Engine.attempt_of_failure h)

theorem step_of_next_failure (h : (r.next none).act s realm = .ok ⟨.error f, r'⟩ met) :
    r.step.act s realm = .ok ⟨.error f, r'⟩ met :=
  Engine.bind_of_ok h

theorem step_of_failure (hn : (r.next none).act s realm = .ok ⟨.ok result, r'⟩ middle)
    (h : (result.iteratorComplete : Engine H Bool).act s middle = .error (.failure f) met) :
    r.step.act s realm = .ok ⟨.error f, r'.finished⟩ met :=
  (Engine.bind_of_ok hn).trans (Engine.bind_of_ok (Engine.attempt_of_failure h))

theorem stepValue_of_step_failure (h : r.step.act s realm = .ok ⟨.error f, r'⟩ met) :
    r.stepValue.act s realm = .ok ⟨.error f, r'⟩ met :=
  Engine.bind_of_ok h

theorem stepValue_of_failure (hs : r.step.act s realm = .ok ⟨.ok (some result), r'⟩ middle)
    (h : (result.iteratorValue : Engine H Value).act s middle = .error (.failure f) met) :
    r.stepValue.act s realm = .ok ⟨.error f, r'.finished⟩ met :=
  (Engine.bind_of_ok hs).trans (Engine.bind_of_ok (Engine.attempt_of_failure h))

/-! ### Closing an iteration -/

variable {outcome : Except Failure Value} {method : Value}

/-- A fatal failure of what closes an iteration wins over any outcome so far. -/
theorem closing_of_isFatal (hf : f.isFatal) (outcome : Except Failure Value) :
    closing (.error f) outcome = .error f :=
  if_pos hf

/-- An iteration that is closed with a fatal failure ends with one. -/
theorem exists_closing_eq_error (hf : f.isFatal) (inner : Except Failure Value) :
    ∃ g : Failure, closing inner (.error f) = .error g ∧ g.isFatal := by
  cases inner with
  | ok v => exact ⟨f, rfl, hf⟩
  | error g =>
    by_cases hg : g.isFatal
    · exact ⟨g, if_pos hg, hg⟩
    · exact ⟨f, if_neg hg, hf⟩

theorem outcomeRealm_ofExcept (result : Except Failure α) :
    outcomeRealm ((ofExcept result : Engine H α).act s realm) = realm := by
  cases result with
  | ok a => rfl
  | error f => rfl

/-- The ways in which closing an iteration can go: the method is missing, or there is an outcome of
looking for it and calling it, or there is none. What is done does not depend on the outcome so
far. -/
theorem close_cases (r : IteratorRecord) (s : Surroundings H) (realm : Realm H) :
    (∃ met, ∀ outcome, (r.close outcome).act s realm = (ofExcept outcome).act s met)
      ∨ (∃ inner met, ∀ outcome,
        (r.close outcome).act s realm = (ofExcept (closing inner outcome)).act s met)
      ∨ ∃ met, ∀ outcome, (r.close outcome).act s realm = .error .exhausted met := by
  match hm : ((Value.object r.iterator).getMethod? (.string "return") :
      Engine H (Option Value)).act s realm with
  | .error .exhausted met =>
    exact .inr (.inr ⟨met, fun _ => Engine.bind_of_error (Engine.attempt_of_exhausted hm)⟩)
  | .error (.failure f) met =>
    exact .inr (.inl ⟨.error f, met, fun _ => Engine.bind_of_ok (Engine.attempt_of_failure hm)⟩)
  | .ok none met => exact .inl ⟨met, fun _ => Engine.bind_of_ok (Engine.attempt_of_ok hm)⟩
  | .ok (some method) middle =>
    have hclose (outcome : Except Failure Value) : (r.close outcome).act s realm
        = (attempt (method.call (.object r.iterator) []) >>= fun inner =>
            ofExcept (closing inner outcome) : Engine H Value).act s middle :=
      Engine.bind_of_ok (Engine.attempt_of_ok hm)
    match hc : (method.call (.object r.iterator) []).act s middle with
    | .error .exhausted met =>
      refine .inr (.inr ⟨met, fun outcome => (hclose outcome).trans ?_⟩)
      exact Engine.bind_of_error (Engine.attempt_of_exhausted hc)
    | .error (.failure f) met =>
      refine .inr (.inl ⟨.error f, met, fun outcome => (hclose outcome).trans ?_⟩)
      exact Engine.bind_of_ok (Engine.attempt_of_failure hc)
    | .ok v met =>
      refine .inr (.inl ⟨.ok v, met, fun outcome => (hclose outcome).trans ?_⟩)
      exact Engine.bind_of_ok (Engine.attempt_of_ok hc)

/-- What closing an iteration does to the realm does not depend on the outcome so far. -/
theorem outcomeRealm_close (r : IteratorRecord) (outcome outcome' : Except Failure Value) :
    outcomeRealm ((r.close outcome).act s realm)
      = outcomeRealm ((r.close outcome').act s realm) := by
  rcases r.close_cases s realm with ⟨met, h⟩ | ⟨inner, met, h⟩ | ⟨met, h⟩
  · rw [h, h, outcomeRealm_ofExcept, outcomeRealm_ofExcept]
  · rw [h, h, outcomeRealm_ofExcept, outcomeRealm_ofExcept]
  · rw [h, h]

/-- An iteration that is closed with a fatal failure ends with one. -/
theorem close_of_isFatal (hf : f.isFatal)
    (he : EndsIn ((r.close (.error f)).act s realm) met) :
    ∃ g : Failure, (r.close (.error f)).act s realm = .error (.failure g) met ∧ g.isFatal := by
  rcases r.close_cases s realm with ⟨met', h⟩ | ⟨inner, met', h⟩ | ⟨met', h⟩
  · have hclose := h (.error f)
    rw [hclose] at he ⊢
    obtain rfl := EndsIn.realm_eq_of_error he
    exact ⟨f, rfl, hf⟩
  · obtain ⟨g, hclosing, hg⟩ := exists_closing_eq_error hf inner
    have hclose := h (.error f)
    rw [hclosing] at hclose
    rw [hclose] at he ⊢
    obtain rfl := EndsIn.realm_eq_of_error he
    exact ⟨g, rfl, hg⟩
  · rw [h] at he
    rcases he with ⟨v, he⟩ | ⟨g, he⟩
    · cases he
    · cases he

/-- A fatal failure to find out how to close an iteration is that of closing it. -/
theorem close_of_getMethod_failure (hf : f.isFatal) (outcome : Except Failure Value)
    (h : ((Value.object r.iterator).getMethod? (.string "return")).act s realm
      = .error (.failure f) met) :
    (r.close outcome).act s realm = .error (.failure f) met := by
  refine (Engine.bind_of_ok (Engine.attempt_of_failure h)).trans ?_
  simp only [closing_of_isFatal hf]
  rfl

/-- A fatal failure of the method that closes an iteration is that of closing it. -/
theorem close_of_call_failure (hf : f.isFatal) (outcome : Except Failure Value)
    (hm : ((Value.object r.iterator).getMethod? (.string "return")).act s realm
      = .ok (some method) middle)
    (h : (method.call (.object r.iterator) []).act s middle = .error (.failure f) met) :
    (r.close outcome).act s realm = .error (.failure f) met := by
  refine (Engine.bind_of_ok (Engine.attempt_of_ok hm)).trans ?_
  refine (Engine.bind_of_ok (Engine.attempt_of_failure h)).trans ?_
  simp only [closing_of_isFatal hf]
  rfl

end IteratorRecord

/-! ### Building from an iteration -/

namespace ArrayFunction

variable {array : ObjectId} {mapper : Option Mapper} {record record' first : IteratorRecord}
  {i n : Nat} {v : Value}

/-- A round of filling an array from an iteration. -/
def fillRound (array : ObjectId) (mapper : Option Mapper) :
    IteratorRecord × Nat → Engine H (Round (IteratorRecord × Nat) Value) := fun (record, i) => do
  let (next?, record) ← (← record.stepValue).get
  match next? with
  | none =>
    array.setLength i
    return .finish (.object array)
  | some next =>
    match ← attempt do array.createElement i (← Mapper.apply mapper next i) with
    | .ok () => return .again (record, i + 1)
    | .error f => return .finish (← record.close (.error f))

theorem fillFromIterator_eq (array : ObjectId) (mapper : Option Mapper) (record : IteratorRecord) :
    (fillFromIterator array mapper record : Engine H Value)
      = loop (fillRound array mapper) (record, 0) :=
  rfl

/-- A failure of the iteration is that of filling the array. -/
theorem fillFromIterator_of_step_failure
    (hr : Rounds (fillRound array mapper) s n (first, 0) realm (record, i) start)
    (hn : n < s.fuel)
    (h : record.stepValue.act s start = .ok ⟨.error f, record'⟩ met) :
    (fillFromIterator array mapper first).act s realm = .error (.failure f) met := by
  rw [fillFromIterator_eq]
  exact Engine.loop_of_error hr hn ((Engine.bind_of_ok h).trans rfl)

/-- A failure to make an element closes the iteration, and is the outcome so far. -/
theorem fillFromIterator_of_element_failure
    (hr : Rounds (fillRound array mapper) s n (first, 0) realm (record, i) start)
    (hn : n < s.fuel) (hv : record.stepValue.act s start = .ok ⟨.ok (some v), record'⟩ middle)
    (h : (Mapper.apply mapper v i >>= fun w => array.createElement i w).act s middle
      = .error (.failure f) met) :
    (fillFromIterator array mapper first).act s realm = (record'.close (.error f)).act s met := by
  rw [fillFromIterator_eq]
  exact Engine.loop_of_last hr hn
    ((Engine.bind_of_ok hv).trans (Engine.bind_of_ok (Engine.attempt_of_failure h)))

end ArrayFunction

namespace ObjectFunction

variable {o : ObjectId} {record record' first : IteratorRecord} {iterable v : Value} {n : Nat}

/-- A round of making an object from entries. -/
def entryRound (o : ObjectId) : IteratorRecord → Engine H (Round IteratorRecord Value) :=
  fun record => do
    let (next, record) ← (← record.stepValue).get
    match next with
    | none => return .finish (.object o)
    | some entry =>
      match ← attempt (addEntry o entry) with
      | .ok () => return .again record
      | .error f => return .finish (← record.close (.error f))

/-- Making an object from entries goes through the iteration once that has begun. -/
theorem ofEntries_of_start (hc : (iterable.requireObjectCoercible).act s realm = .ok () start)
    (ho : newPlain.act s start = .ok o middle)
    (hi : iterable.getIterator.act s middle = .ok first met) :
    (ofEntries iterable).act s realm = (loop (entryRound o) first).act s met :=
  (Engine.bind_of_ok hc).trans ((Engine.bind_of_ok ho).trans (Engine.bind_of_ok hi))

/-- A failure of the iteration is that of going through it. -/
theorem loop_of_step_failure (hr : Rounds (entryRound o) s n first realm record start)
    (hn : n < s.fuel) (h : record.stepValue.act s start = .ok ⟨.error f, record'⟩ met) :
    (loop (entryRound o) first).act s realm = .error (.failure f) met :=
  Engine.loop_of_error hr hn ((Engine.bind_of_ok h).trans rfl)

/-- A failure to add an entry closes the iteration, and is the outcome so far. -/
theorem loop_of_entry_failure (hr : Rounds (entryRound o) s n first realm record start)
    (hn : n < s.fuel) (hv : record.stepValue.act s start = .ok ⟨.ok (some v), record'⟩ middle)
    (h : (addEntry o v).act s middle = .error (.failure f) met) :
    (loop (entryRound o) first).act s realm = (record'.close (.error f)).act s met :=
  Engine.loop_of_last hr hn
    ((Engine.bind_of_ok hv).trans (Engine.bind_of_ok (Engine.attempt_of_failure h)))

end ObjectFunction

/-! ### Promises -/

section Promise

variable {executor this then_ v argument : Value} {resolve reject p thenable target : ObjectId}
  {latch : Nat} {r : Reaction} {handler : Value} {pair : ObjectId × ObjectId}

/-- A fatal failure of a function that may settle a promise does not settle it. -/
theorem callWithResolvers_of_isFatal (hf : f.isFatal)
    (h : (executor.call this [.object resolve, .object reject]).act s realm
      = .error (.failure f) met) :
    (callWithResolvers executor this resolve reject).act s realm = .error (.failure f) met :=
  (Engine.bind_of_ok (Engine.attempt_of_failure h)).trans
    (Engine.bind_of_error (Failure.toValue_of_isFatal hf))

/-- A fatal failure of the executor is that of making the promise. -/
theorem PromiseFunction.make_of_isFatal {prototype : ObjectId} {first second : Realm H}
    (hf : f.isFatal) (hc : (isCallable executor).act s realm = .ok true realm)
    (hp : (target.prototypeFromConstructor (realm.seen.intrinsics.get .promisePrototype)).act s
      realm = .ok prototype first)
    (hnew : (newPromise prototype).act s first = .ok (p, latch) second)
    (hpair : (resolvingFunctions latch).act s second = .ok pair start)
    (h : (executor.call .undefined [.object pair.1, .object pair.2]).act s start
      = .error (.failure f) met) :
    (make executor (some target)).act s realm = .error (.failure f) met := by
  have hintrinsic : (intrinsic .promisePrototype : Engine H ObjectId).act s realm
      = .ok (realm.seen.intrinsics.get .promisePrototype) realm := rfl
  refine (Engine.bind_of_ok hc).trans ?_
  refine (Engine.bind_of_ok hintrinsic).trans ?_
  refine (Engine.bind_of_ok hp).trans ((Engine.bind_of_ok hnew).trans ?_)
  refine (Engine.bind_of_ok hpair).trans ?_
  exact Engine.bind_of_error (callWithResolvers_of_isFatal hf h)

/-- A fatal failure of a thenable is that of the job. -/
theorem runThenable_of_isFatal (hf : f.isFatal)
    (hpair : (resolvingFunctions latch).act s realm = .ok pair start)
    (h : (then_.call (.object thenable) [.object pair.1, .object pair.2]).act s start
      = .error (.failure f) met) :
    (runThenable latch thenable then_).act s realm = .error (.failure f) met :=
  (Engine.bind_of_ok hpair).trans (callWithResolvers_of_isFatal hf h)

/-- A fatal failure of the handler is that of the reaction, with and without a promise for its
outcome. -/
theorem Reaction.run_of_isFatal (hf : f.isFatal)
    (h : (r.handle argument).act s realm = .error (.failure f) met) :
    (r.run argument).act s realm = .error (.failure f) met := by
  unfold Reaction.run
  cases r.capability with
  | none => exact Engine.bind_of_error h
  | some capability =>
    exact (Engine.bind_of_ok (Engine.attempt_of_failure h)).trans
      (Engine.bind_of_error (Failure.toValue_of_isFatal hf))

/-- Where it cannot be decided what is to become of a promise, nothing becomes of it. -/
theorem concluding_of_failure {decide : ObjectId → Engine H Settlement}
    (hl : realm.latches[latch]? = some { promise := p })
    (h : (decide p).run host bound (realm.takeLatch latch).2 = .error (.failure f) met) :
    (concluding latch decide).run host bound realm = .error (.failure f) met := by
  obtain ⟨hseen, hstart⟩ := realm.takeLatch_seen latch
  have htaken : (realm.takeLatch latch).1 = some p := by rw [Realm.takeLatch_of_unused hl]
  have hmap : (attempt (Option.mapM decide (some p))).run host bound
      ((realm.seen.takeLatch latch).2.atDepth realm.callDepth) = .ok (.error f) met :=
    hstart ▸ Engine.attempt_of_failure (Engine.bind_of_error h)
  have henter : ((latchBracket (H := H) latch).enter.apply realm.seen).1 = .ok (some p) :=
    congrArg Except.ok (hseen.trans htaken)
  exact Routine.bracket_of_outcome (fun p? => (p?.mapM decide).toRoutine) henter hmap

/-- A fatal failure to read the `then` of an object is that of resolving a promise with it. -/
theorem resolveWith_of_isFatal (hf : f.isFatal) (hne : thenable ≠ p)
    (hl : realm.latches[latch]? = some { promise := p })
    (h : (thenable.getNamed "then").run host bound (realm.takeLatch latch).2
      = .error (.failure f) met) :
    (resolveWith latch (.object thenable)).run host bound realm = .error (.failure f) met := by
  refine Engine.bind_of_error (concluding_of_failure hl ?_)
  rw [ObjectId.settlement_object hne]
  refine (Engine.bind_of_ok (Engine.attempt_of_failure h)).trans ?_
  exact Engine.bind_of_error (Failure.toValue_of_isFatal hf)

end Promise

/-! ### Generators -/

section Generator

variable {g : ObjectId} {body : Continuation H} {completion : Completion} {data : GeneratorData H}

theorem ObjectKind.Becomes.generator?_isSome {kind after : ObjectKind H} (h : kind.Becomes after) :
    after.generator?.isSome = kind.generator?.isSome := by
  cases h <;> rfl

theorem Object.Changes.generator?_isSome {object after : Object H} (h : object.Changes after) :
    after.kind.generator?.isSome = object.kind.generator?.isSome := by
  induction h with
  | refl => rfl
  | tail _ last ih =>
    cases last with
    | become kind hk => exact hk.generator?_isSome.trans ih
    | _ => exact ih

/-- A generator stays one as long as the realm is not disposed of. -/
theorem Realm.Steps.generator?_isSome (hs : realm.Steps after) (hd : after.disposed = false)
    (hg : (realm.control.generator? g).isSome) : (after.control.generator? g).isSome := by
  have put {realm : Realm H} {o : ObjectId} {object object' : Object H}
      (ho : realm.object? o = some object)
      (hk : object'.kind.generator?.isSome = object.kind.generator?.isSome)
      (hg : (realm.view ObjectKind.generator? g).isSome) :
      ((realm.putObject o object').view ObjectKind.generator? g).isSome := by
    rw [Realm.view_putObject ho]
    split
    · next heq =>
      rw [heq, Realm.view_of_some ho] at hg
      rwa [hk]
    · exact hg
  induction hs with
  | refl => exact hg
  | @tail middle last _ hlast ih =>
    have hmiddle : (middle.view ObjectKind.generator? g).isSome := ih (hlast.usable hd)
    change (last.view ObjectKind.generator? g).isSome
    cases hlast with
    | beside hb => rwa [Realm.view, Realm.object?, hb.heap]
    | allocate object =>
      rw [Realm.view_push]
      split
      · next heq => simp [heq, Realm.view_size] at hmiddle
      · exact hmiddle
    | update o ho hc => exact put ho hc.generator?_isSome hmiddle
    | inherit o prototype ho => exact put ho rfl hmiddle
    | dispose _ _ _ ha => cases ha.symm.trans hd

/-- A context is taken off the stack, or there was none, and then the engine is broken. -/
theorem Realm.isFatal_of_pop (realm : Realm H) (failure : Failure)
    (h : (realm.changeContexts ContextStack.pop).1 = .error failure) : failure.isFatal := by
  unfold Realm.changeContexts ContextStack.pop at h
  cases hc : realm.contexts.contexts with
  | nil =>
    simp only [hc] at h
    cases h
    rfl
  | cons top rest =>
    simp only [hc] at h
    cases h

/-- A generator whose body failed for good is left with a fatal failure. Its promises and its
objects are those that the body left. -/
theorem Realm.leaveGenerator_of_isFatal (realm : Realm H) (hf : f.isFatal)
    (hg : realm.control.generator? g = some data) :
    ∃ failure, (realm.leaveGenerator g (.error f)).1 = .error failure ∧ failure.isFatal
      ∧ (realm.leaveGenerator g (.error f)).2.heap.size = realm.heap.size := by
  have hpop := realm.beside_changeContexts ContextStack.pop
  have hfatal := realm.isFatal_of_pop
  unfold leaveGenerator
  split
  · next failure popped heq =>
    rw [heq] at hpop hfatal
    exact ⟨failure, rfl, hfatal failure rfl, congrArg Array.size hpop.heap⟩
  · next context popped heq =>
    rw [heq] at hpop
    have hheap : popped.heap = realm.heap := hpop.heap
    have hdata : popped.generatorData g = .ok data := by
      refine generatorData_eq_ok.mpr (Eq.trans ?_ hg)
      simp only [control, view, object?, hheap]
    rw [hdata]
    refine ⟨f, rfl, hf, ?_⟩
    simp only [setGenerator, changeKind, Array.size_modify, hheap]

/-- A fatal failure of the body is one of resuming the generator, which completes it, unless the
body has disposed of the realm. -/
theorem ObjectId.runGenerator_of_isFatal (hf : f.isFatal) (hs : realm.Sound)
    (hb : (realm.enterGenerator g).1 = .ok body)
    (h : (body.resume g completion).run host bound (realm.enterGenerator g).2
      = .error (.failure f) met) (hd : met.disposed = false) :
    ∃ failure after, (g.runGenerator completion).run host bound realm
        = .error (.failure failure) after
      ∧ failure.isFatal ∧ after.ledger = met.ledger ∧ after.heap.size = met.heap.size := by
  have hsound := (realm.steps_enterGenerator g).sound hs
  have hsteps := (realm.steps_enterGenerator g).trans
    (((body.resume g completion).lawful _ (Surroundings.bounded_lawful host bound) _ hsound).leads
      (.inr ⟨f, h⟩)).steps
  have hgenerator : (realm.control.generator? g).isSome := by
    unfold Realm.enterGenerator at hb
    split at hb
    · cases hb
    · next data hdata => rw [Realm.generatorData_eq_ok.mp hdata, Option.isSome_some]
  obtain ⟨data, hdata⟩ := Option.isSome_iff_exists.mp (hsteps.generator?_isSome hd hgenerator)
  have hseen : (realm.seen.enterGenerator g).1 = .ok body := by
    rw [Realm.seen, Realm.enterGenerator_atDepth]
    exact hb
  have hstart : (realm.seen.enterGenerator g).2.atDepth realm.callDepth
      = (realm.enterGenerator g).2 := by
    have hsame := realm.enterGenerator_atDepth g realm.callDepth
    rw [Realm.seen, Realm.enterGenerator_atDepth]
    exact (congrArg Prod.snd hsame).symm
  have hx : (attempt (body.resume g completion)).run host bound
      ((realm.seen.enterGenerator g).2.atDepth realm.callDepth) = .ok (.error f) met :=
    hstart ▸ Engine.attempt_of_failure h
  obtain ⟨failure, hfailure, hfatal, hsize⟩ := met.seen.leaveGenerator_of_isFatal hf hdata
  have hrun : (g.inGenerator fun body => body.resume g completion).run host bound realm
      = Action.transition (fun realm => realm.leaveGenerator g (.error f)) (.bounded host bound)
        met :=
    Routine.bracket_of_outcome
      (fun body : Continuation H => (body.resume g completion).toRoutine) hseen hx
  have hin := hrun.trans (Action.transition_of_error hfailure)
  refine ⟨failure, (met.seen.leaveGenerator g (.error f)).2.atDepth met.callDepth, ?_, hfatal,
    met.seen.ledger_leaveGenerator g (.error f), hsize⟩
  rw [ObjectId.runGenerator_eq]
  exact Engine.bind_of_error hin

end Generator

/-! ### Jobs -/

namespace Realm

theorem leaveEvaluation_error (realm : Realm H) (f : Failure) :
    (realm.leaveEvaluation (.error f : Except Failure α)).1 = .error f
      ∧ (realm.leaveEvaluation (.error f : Except Failure α)).2.ledger = realm.ledger
      ∧ (realm.leaveEvaluation (.error f : Except Failure α)).2.heap = realm.heap :=
  ⟨rfl, (ledger_parkRoot realm.unwind).trans realm.ledger_unwind,
    (beside_parkRoot realm.unwind).heap.trans realm.beside_unwind.heap⟩

end Realm

/-- A fatal failure of a job ends the evaluation in which the jobs run, and no other job is run. -/
theorem runJobs_of_isFatal {n count : Nat} {job : Job H} {rest : List (Job H)} (hf : f.isFatal)
    (hs : realm.enterEvaluation.1 = .ok ())
    (hr : Rounds runNextJob (.bounded host bound) n 0 realm.enterEvaluation.2 count middle)
    (hn : n < bound) (hj : middle.jobs = job :: rest)
    (h : (job.task middle.latches.size).run.run host bound middle.startJob.2
      = .error (.failure f) met) :
    ∃ after, runJobs.run host bound realm = .error (.failure f) after
      ∧ after.ledger = met.ledger ∧ after.heap = met.heap := by
  obtain ⟨hseen, hstart⟩ := realm.enterEvaluation_seen
  have hround : (runNextJob count).act (.bounded host bound) middle = .error (.failure f) met := by
    rw [runNextJob_of_job hj, Engine.bind_of_ok (Engine.attempt_of_failure h)]
    simp only [hf, if_true]
    rfl
  have hloop : (attempt (loop runNextJob 0)).run host bound
      (realm.seen.enterEvaluation.2.atDepth realm.callDepth) = .ok (.error f) met :=
    hstart ▸ Engine.attempt_of_failure (Engine.loop_of_error hr hn hround)
  obtain ⟨herror, hledger, hheap⟩ := met.seen.leaveEvaluation_error (α := Nat) f
  have hrun : runJobs.run host bound realm
      = Action.transition (fun realm => realm.leaveEvaluation (.error f : Except Failure Nat))
        (.bounded host bound) met :=
    Routine.bracket_of_outcome (fun _ => (loop runNextJob 0 : Engine H Nat).toRoutine)
      (hseen.trans hs) hloop
  exact ⟨_, hrun.trans (Action.transition_of_error herror), hledger, hheap⟩

/-! ### All of them -/

/-- A failure gets past every operation that looks at failures: where a part of the operation fails
with it, the operation fails in the realm that the part has left. An iteration is done then, a
generator completes and an evaluation ends; filling an array and making an object from entries close
the iteration, which is done as for any other failure and comes to a fatal one. -/
structure Failure.Escapes (f : Failure) (host : Host H) (bound : Nat) : Prop where
  toValue : ∀ realm, (f.toValue : Engine H Value).run host bound realm = .error (.failure f) realm
  toCompletion : ∀ realm,
    (f.toCompletion : Engine H Completion).run host bound realm = .error (.failure f) realm
  next : ∀ (r : IteratorRecord) (v : Option Value) realm met,
    (r.nextMethod.call (.object r.iterator) v.toList).run host bound realm
        = .error (.failure f) met →
      (r.next v).run host bound realm = .ok ⟨.error f, r.finished⟩ met
  step : ∀ (r r' : IteratorRecord) realm met,
    (r.next none).run host bound realm = .ok ⟨.error f, r'⟩ met →
      r.step.run host bound realm = .ok ⟨.error f, r'⟩ met
  stepDone : ∀ (r r' : IteratorRecord) (result : ObjectId) realm middle met,
    (r.next none).run host bound realm = .ok ⟨.ok result, r'⟩ middle →
    result.iteratorComplete.run host bound middle = .error (.failure f) met →
      r.step.run host bound realm = .ok ⟨.error f, r'.finished⟩ met
  stepValue : ∀ (r r' : IteratorRecord) realm met,
    r.step.run host bound realm = .ok ⟨.error f, r'⟩ met →
      r.stepValue.run host bound realm = .ok ⟨.error f, r'⟩ met
  stepValueValue : ∀ (r r' : IteratorRecord) (result : ObjectId) realm middle met,
    r.step.run host bound realm = .ok ⟨.ok (some result), r'⟩ middle →
    result.iteratorValue.run host bound middle = .error (.failure f) met →
      r.stepValue.run host bound realm = .ok ⟨.error f, r'.finished⟩ met
  closeMethod : ∀ (r : IteratorRecord) outcome realm met,
    ((Value.object r.iterator).getMethod? (.string "return")).run host bound realm
        = .error (.failure f) met →
      (r.close outcome).run host bound realm = .error (.failure f) met
  closeCall : ∀ (r : IteratorRecord) method outcome realm middle met,
    ((Value.object r.iterator).getMethod? (.string "return")).run host bound realm
        = .ok (some method) middle →
    (method.call (.object r.iterator) []).run host bound middle = .error (.failure f) met →
      (r.close outcome).run host bound realm = .error (.failure f) met
  close : ∀ (r : IteratorRecord) realm,
    (∀ after, EndsIn ((r.close (.error f)).run host bound realm) after →
      ∃ g : Failure, (r.close (.error f)).run host bound realm = .error (.failure g) after
        ∧ g.isFatal)
      ∧ ∀ outcome, outcomeRealm ((r.close (.error f)).run host bound realm)
        = outcomeRealm ((r.close outcome).run host bound realm)
  fillStep : ∀ array mapper n first record record' i realm start met,
    Rounds (ArrayFunction.fillRound array mapper) (.bounded host bound) n (first, 0) realm
      (record, i) start → n < bound →
    record.stepValue.run host bound start = .ok ⟨.error f, record'⟩ met →
      (ArrayFunction.fillFromIterator array mapper first).run host bound realm
        = .error (.failure f) met
  fillElement : ∀ array mapper n first record record' i v realm start middle met,
    Rounds (ArrayFunction.fillRound array mapper) (.bounded host bound) n (first, 0) realm
      (record, i) start → n < bound →
    record.stepValue.run host bound start = .ok ⟨.ok (some v), record'⟩ middle →
    (ArrayFunction.Mapper.apply mapper v i >>= fun w => array.createElement i w).run host bound
        middle = .error (.failure f) met →
      (ArrayFunction.fillFromIterator array mapper first).run host bound realm
        = (record'.close (.error f)).run host bound met
  entriesStep : ∀ (iterable : Value) o n first record record' realm checked made begun start met,
    iterable.requireObjectCoercible.run host bound realm = .ok () checked →
    newPlain.run host bound checked = .ok o made →
    iterable.getIterator.run host bound made = .ok first begun →
    Rounds (ObjectFunction.entryRound o) (.bounded host bound) n first begun record start →
    n < bound → record.stepValue.run host bound start = .ok ⟨.error f, record'⟩ met →
      (ObjectFunction.ofEntries iterable).run host bound realm = .error (.failure f) met
  entriesEntry : ∀ (iterable : Value) o n first record record' v realm checked made begun start
      middle met,
    iterable.requireObjectCoercible.run host bound realm = .ok () checked →
    newPlain.run host bound checked = .ok o made →
    iterable.getIterator.run host bound made = .ok first begun →
    Rounds (ObjectFunction.entryRound o) (.bounded host bound) n first begun record start →
    n < bound → record.stepValue.run host bound start = .ok ⟨.ok (some v), record'⟩ middle →
    (ObjectFunction.addEntry o v).run host bound middle = .error (.failure f) met →
      (ObjectFunction.ofEntries iterable).run host bound realm
        = (record'.close (.error f)).run host bound met
  executor : ∀ executor target prototype p latch (pair : ObjectId × ObjectId) realm first second
      start met,
    (isCallable executor).run host bound realm = .ok true realm →
    (target.prototypeFromConstructor (realm.seen.intrinsics.get .promisePrototype)).run host bound
        realm = .ok prototype first →
    (newPromise prototype).run host bound first = .ok (p, latch) second →
    (resolvingFunctions latch).run host bound second = .ok pair start →
    (executor.call .undefined [.object pair.1, .object pair.2]).run host bound start
        = .error (.failure f) met →
      (PromiseFunction.make executor (some target)).run host bound realm = .error (.failure f) met
  resolve : ∀ latch p thenable realm met,
    realm.latches[latch]? = some { promise := p } → thenable ≠ p →
    (thenable.getNamed "then").run host bound (realm.takeLatch latch).2
        = .error (.failure f) met →
      (resolveWith latch (.object thenable)).run host bound realm = .error (.failure f) met
  reaction : ∀ (r : Reaction) argument realm met,
    (r.handle argument).run host bound realm = .error (.failure f) met →
      (r.run argument).run host bound realm = .error (.failure f) met
  thenable : ∀ latch (thenable : ObjectId) (then_ : Value) (pair : ObjectId × ObjectId) realm start
      met,
    (resolvingFunctions latch).run host bound realm = .ok pair start →
    (then_.call (.object thenable) [.object pair.1, .object pair.2]).run host bound start
        = .error (.failure f) met →
      (runThenable latch thenable then_).run host bound realm = .error (.failure f) met
  generator : ∀ (g : ObjectId) (body : Continuation H) completion realm met,
    realm.Reachable → (realm.enterGenerator g).1 = .ok body →
    (body.resume g completion).run host bound (realm.enterGenerator g).2
        = .error (.failure f) met → met.disposed = false →
      ∃ failure after, (g.runGenerator completion).run host bound realm
          = .error (.failure failure) after
        ∧ failure.isFatal ∧ after.ledger = met.ledger ∧ after.heap.size = met.heap.size
  jobs : ∀ n count (job : Job H) rest realm middle met,
    realm.enterEvaluation.1 = .ok () →
    Rounds runNextJob (.bounded host bound) n 0 realm.enterEvaluation.2 count middle → n < bound →
    middle.jobs = job :: rest →
    (job.task middle.latches.size).run.run host bound middle.startJob.2
        = .error (.failure f) met →
      ∃ after, runJobs.run host bound realm = .error (.failure f) after
        ∧ after.ledger = met.ledger ∧ after.heap = met.heap

/-- A fatal failure gets past every operation that looks at failures. -/
theorem fatal_failure_escapes (host : Host H) (bound : Nat) (hf : f.isFatal) :
    f.Escapes host bound where
  toValue _ := Failure.toValue_of_isFatal hf
  toCompletion _ := Failure.toCompletion_of_isFatal hf
  next _ _ _ _ h := IteratorRecord.next_of_failure h
  step _ _ _ _ h := IteratorRecord.step_of_next_failure h
  stepDone _ _ _ _ _ _ hn h := IteratorRecord.step_of_failure hn h
  stepValue _ _ _ _ h := IteratorRecord.stepValue_of_step_failure h
  stepValueValue _ _ _ _ _ _ hs h := IteratorRecord.stepValue_of_failure hs h
  closeMethod _ outcome _ _ h := IteratorRecord.close_of_getMethod_failure hf outcome h
  closeCall _ _ outcome _ _ _ hm h := IteratorRecord.close_of_call_failure hf outcome hm h
  close r _ := ⟨fun _ he => IteratorRecord.close_of_isFatal hf he,
    fun outcome => r.outcomeRealm_close (.error f) outcome⟩
  fillStep _ _ _ _ _ _ _ _ _ _ hr hn h := ArrayFunction.fillFromIterator_of_step_failure hr hn h
  fillElement _ _ _ _ _ _ _ _ _ _ _ _ hr hn hv h :=
    ArrayFunction.fillFromIterator_of_element_failure hr hn hv h
  entriesStep _ _ _ _ _ _ _ _ _ _ _ _ hc ho hi hr hn h :=
    (ObjectFunction.ofEntries_of_start hc ho hi).trans
      (ObjectFunction.loop_of_step_failure hr hn h)
  entriesEntry _ _ _ _ _ _ _ _ _ _ _ _ _ _ hc ho hi hr hn hv h :=
    (ObjectFunction.ofEntries_of_start hc ho hi).trans
      (ObjectFunction.loop_of_entry_failure hr hn hv h)
  executor _ _ _ _ _ _ _ _ _ _ _ hc hp hnew hpair h :=
    PromiseFunction.make_of_isFatal hf hc hp hnew hpair h
  resolve _ _ _ _ _ hl hne h := resolveWith_of_isFatal hf hne hl h
  reaction _ _ _ _ h := Reaction.run_of_isFatal hf h
  thenable _ _ _ _ _ _ _ hpair h := runThenable_of_isFatal hf hpair h
  generator _ _ _ _ _ hr hb h hd := ObjectId.runGenerator_of_isFatal hf hr.sound hb h hd
  jobs _ _ _ _ _ _ _ hs hr hn hj h := runJobs_of_isFatal hf hs hr hn hj h

/-- The handler of a reaction that leads nowhere fails for good, and so does the reaction. -/
theorem fatal_failure_escapes_danglingHandler :
    let r : Reaction := ⟨some ⟨⟨0⟩, .undefined, .undefined⟩, false, some (.object ⟨9⟩)⟩
    (r.run .undefined).run Host.bare 1 parkedRealm
      = .error (.failure (.internal ("dangling object handle " ++ (⟨9⟩ : ObjectId).text)))
        parkedRealm :=
  (fatal_failure_escapes Host.bare 1 rfl).reaction _ _ _ _ rfl

/-! ### What the method that closes an iterator may do -/

/-- A host whose functions return the object that they are called on, and without one fail for good.
Its generators dispose of the realm before they do, and use it again. -/
def fatalHost : Host HostTypes.bare
  | .native _ (.object o) .. => pure (.object o)
  | .native .. => (internalError "fatal" : Engine HostTypes.bare Value).toRoutine
  | .resume .. => do
    dispose
    let _ ← (newOrdinary none : Engine HostTypes.bare ObjectId).toRoutine
    pushEmpty
    (internalError "fatal" : Engine HostTypes.bare _).toRoutine
  | r => Host.bare r

/-- A realm with a generator, a pending promise, its resolving function, an iterator that is closed
by that function, and a function of the host. So many contexts have been there before. -/
def closingRealm (n : Nat) : Realm HostTypes.bare :=
  { heap := #[.ofKind none (.generator
        { state := .suspendedStart
          context := some { id := 1, frame := { continuation := some (.host ()) } } }),
      .ofKind none (.promise {}), .ofKind none (.function (.promiseResolve 0)),
      .ofKindWith none .ordinary (.string "return") (.plain (.object ⟨2⟩)) true, hostFunction]
    contexts := { lastId := n }
    latches := #[{ promise := ⟨1⟩ }]
    config := { timeoutMs := 0 }
    store := () }

/-- The iteration with that iterator; its results are the iterator itself. -/
def closingIteration : IteratorRecord := ⟨⟨3⟩, .object ⟨4⟩, false⟩

theorem closingIteration_stepValue (n : Nat) :
    closingIteration.stepValue.run fatalHost 2 (closingRealm n)
      = .ok ⟨.ok (some .undefined), closingIteration⟩ (closingRealm (n + 1)) := by
  have hnext : (closingIteration.next none).run fatalHost 2 (closingRealm n)
      = .ok ⟨.ok ⟨3⟩, closingIteration⟩ (closingRealm (n + 1)) := rfl
  have hcomplete : (⟨3⟩ : ObjectId).iteratorComplete.run fatalHost 2 (closingRealm (n + 1))
      = .ok false (closingRealm (n + 1)) := rfl
  have hvalue : (⟨3⟩ : ObjectId).iteratorValue.run fatalHost 2 (closingRealm (n + 1))
      = .ok .undefined (closingRealm (n + 1)) := rfl
  have hstep : closingIteration.step.run fatalHost 2 (closingRealm n)
      = .ok ⟨.ok (some ⟨3⟩), closingIteration⟩ (closingRealm (n + 1)) :=
    (Engine.bind_of_ok hnext).trans (Engine.bind_of_ok (Engine.attempt_of_ok hcomplete))
  exact (Engine.bind_of_ok hstep).trans (Engine.bind_of_ok (Engine.attempt_of_ok hvalue))

/-- Closing the iteration fulfills the promise. -/
theorem closingIteration_close (n : Nat) :
    ∃ after, (closingIteration.close (.error (.internal "fatal"))).run fatalHost 2 (closingRealm n)
        = .error (.failure (.internal "fatal")) after
      ∧ (after.ledger.promise? ⟨1⟩).map PromiseData.state = some .fulfilled := by
  have hmethod : ((Value.object ⟨3⟩).getMethod? (.string "return")).run fatalHost 2 (closingRealm n)
      = .ok (some (.object ⟨2⟩)) (closingRealm n) := rfl
  obtain ⟨after, hcall, hstate⟩ : ∃ after,
      ((Value.object ⟨2⟩).call (.object ⟨3⟩) []).run fatalHost 2 (closingRealm n)
        = .ok .undefined after
      ∧ (after.ledger.promise? ⟨1⟩).map PromiseData.state = some .fulfilled := ⟨_, rfl, rfl⟩
  refine ⟨after, (Engine.bind_of_ok (Engine.attempt_of_ok hmethod)).trans ?_, hstate⟩
  exact Engine.bind_of_ok (Engine.attempt_of_ok hcall)

/-- A fatal failure to make an element is followed by more than the end of the operation: the method
that closes the iterator may settle a promise. And a generator whose body disposes of the realm
hides the failure of its body. -/
theorem not_fatal_failure_settles_nothing :
    (¬∀ (host : Host HostTypes.bare) (bound : Nat) (f : Failure) array mapper
        (record record' : IteratorRecord) v realm middle met after, f.isFatal →
      record.stepValue.run host bound realm = .ok ⟨.ok (some v), record'⟩ middle →
      (ArrayFunction.Mapper.apply mapper v 0 >>= fun w => array.createElement 0 w).run host bound
        middle = .error (.failure f) met →
      EndsIn ((ArrayFunction.fillFromIterator array mapper record).run host bound realm) after →
        (after.ledger.promise? ⟨1⟩).map PromiseData.state
          = (met.ledger.promise? ⟨1⟩).map PromiseData.state)
      ∧ ¬∀ (host : Host HostTypes.bare) (bound : Nat) (f : Failure) (g : ObjectId)
        (body : Continuation HostTypes.bare) completion realm met, f.isFatal →
      (realm.enterGenerator g).1 = .ok body →
      (body.resume g completion).run host bound (realm.enterGenerator g).2
        = .error (.failure f) met →
        ∃ failure after, (g.runGenerator completion).run host bound realm
          = .error (.failure failure) after ∧ failure.isFatal := by
  refine ⟨fun h => ?_, fun h => ?_⟩
  · have hcall (args : List Value) : ((Value.object ⟨4⟩).call .undefined args).run fatalHost 2
        (closingRealm 1) = .error (.failure (.internal "fatal")) (closingRealm 2) := rfl
    have hstep := closingIteration_stepValue 0
    have helement : (ArrayFunction.Mapper.apply (some ⟨.object ⟨4⟩, .undefined⟩) .undefined 0
        >>= fun w => (⟨5⟩ : ObjectId).createElement 0 w).run fatalHost 2 (closingRealm 1)
        = .error (.failure (.internal "fatal")) (closingRealm 2) := Engine.bind_of_error (hcall _)
    obtain ⟨after, hclose, hstate⟩ := closingIteration_close 2
    have hfill := ArrayFunction.fillFromIterator_of_element_failure (.none _ _) Nat.two_pos hstep
      helement
    have hsame := h fatalHost 2 _ _ _ _ _ _ _ _ _ after rfl hstep helement
      (.inr ⟨_, hfill.trans hclose⟩)
    rw [hstate] at hsame
    cases hsame
  · obtain ⟨failure, after, hrun, hfatal⟩ := h fatalHost 2 (.internal "fatal") ⟨0⟩ (.host ())
      (.normal .undefined) (closingRealm 1) _ rfl rfl rfl
    obtain ⟨last, hended⟩ : ∃ last, ((⟨0⟩ : ObjectId).runGenerator (.normal .undefined)).attempt.run
        fatalHost 2 (closingRealm 1) = .ok (.error (.typeError "not a generator object")) last :=
      ⟨_, rfl⟩
    cases hended.symm.trans (Engine.attempt_of_failure hrun)
    cases hfatal

end ScriptEngine
