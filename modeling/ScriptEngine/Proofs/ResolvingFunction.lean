import ScriptEngine.Proofs.GeneratorTurns
import ScriptEngine.Proofs.PromiseSettlement

/-!
# Calls of resolving functions

The first call of a resolving function uses up the latch of its promise before anything else, and
goes on to decide what is to become of the promise. A call that comes to an end settles the promise
or leaves it to a thenable, but for one case: where the promise is to be rejected with a native
error, an object has to be made of the error, for which the depth of calls may leave no room. Then
the call fails, the promise stays pending, and nothing is left that could settle it.

## Main definitions

* `Ledger.Decides`, `Ledger.Strands`: a promise has been dealt with, or has been lost.
* `Realm.Corners`: the depth of calls leaves no room for the error that a promise is rejected with.

## Main results

* `errorObject_gives`: making an object of a native error.
* `ObjectId.settlement_run`: deciding on the settlement of a promise fails in that case only.
* `resolvingFunction_decides`: what a call of a resolving function does to its promise.
-/

namespace ScriptEngine

open Engine

variable {H : HostTypes} {α : Type} {host : Host H} {bound : Nat} {s : Surroundings H}
  {realm middle after : Realm H} {p f : ObjectId} {latch : Nat}

/-! ### Objects of native errors -/

/-- An error object that has no message yet. -/
def Realm.emptyError (realm : Realm H) (kind : ErrorKind) : Object H :=
  .ofKind (some (realm.intrinsics.get (.errorPrototype kind))) .error

/-- The object of a native error. -/
def Realm.errorObject (realm : Realm H) (kind : ErrorKind) (message : String) : Object H :=
  (realm.emptyError kind).defined (.string "message") (.builtin (.string message))

/-- How making an object of a native error ends: at the limit of the depth of calls it fails, when
the object is there but has no message. -/
def Realm.errorOutcome (realm : Realm H) (kind : ErrorKind) (message : String) :
    EStateM.Result Stop (Realm H) ObjectId :=
  if realm.deeper.AtLimit then .error .overflow (realm.withObject (realm.emptyError kind))
  else .ok ⟨realm.heap.size⟩ (realm.withObject (realm.errorObject kind message))

theorem errorObject_gives (realm : Realm H) (kind : ErrorKind) (message : String) :
    Gives 2 bound ((errorObject kind message).act (.bounded host bound) realm)
      (realm.errorOutcome kind message) := by
  have hprototype : (intrinsic (.errorPrototype kind) : Engine H ObjectId).act
      (.bounded host bound) realm = .ok (realm.intrinsics.get (.errorPrototype kind)) realm := rfl
  have hnew : (newObject (some (realm.intrinsics.get (.errorPrototype kind))) .error).act
      (.bounded host bound) realm
        = .ok ⟨realm.heap.size⟩ (realm.withObject (realm.emptyError kind)) := rfl
  have hobject := realm.object?_withObject (realm.emptyError kind)
  unfold Realm.errorOutcome
  refine Gives.bindEngine (.of_eq hprototype) (Gives.bindEngine (.of_eq hnew) ?_)
  split
  · next hl =>
    have hdefine : Gives 2 bound ((ObjectId.defineOwnProperty ⟨realm.heap.size⟩ (.string "message")
        (.builtin (.string message))).act (.bounded host bound)
          (realm.withObject (realm.emptyError kind)))
        (.error .overflow (realm.withObject (realm.emptyError kind))) :=
      ObjectId.defineOwnProperty_gives_of_atLimit hobject rfl rfl rfl rfl hl
    exact Gives.bindEngine_error hdefine.bindEngine_error
  · next hl =>
    have hdefine : Gives 2 bound ((ObjectId.defineOwnProperty ⟨realm.heap.size⟩ (.string "message")
        (.builtin (.string message))).act (.bounded host bound)
          (realm.withObject (realm.emptyError kind)))
        (.ok true (realm.withObject (realm.errorObject kind message))) := by
      rw [← realm.putObject_withObject (realm.emptyError kind) (realm.errorObject kind message)]
      exact ObjectId.defineOwnProperty_gives hobject rfl rfl rfl rfl hl
    exact Gives.bindEngine (hdefine.bindEngine (.of_eq rfl)) (.of_eq rfl)

/-- What rejects a promise with a failure. -/
def Failure.rejecting (f : Failure) : Engine H Settlement := return .reject (← f.toValue)

/-- A promise can be rejected with a native error, unless the depth of calls leaves no room for the
object of it. -/
theorem Failure.rejecting_native {kind : ErrorKind} {message : String} {trace : Option ErrorTrace}
    (he : EndsIn ((native kind message trace).rejecting.run host bound realm) after) :
    (realm.deeper.AtLimit
        ∧ (native kind message trace).rejecting.run host bound realm = .error .overflow after)
      ∨ ¬realm.deeper.AtLimit ∧ ∃ settlement,
        (native kind message trace).rejecting.run host bound realm = .ok settlement after := by
  have hobject : Gives 2 bound ((errorObject kind message).act (.bounded host bound) realm)
      (realm.errorOutcome kind message) := errorObject_gives realm kind message
  unfold Realm.errorOutcome at hobject
  split at hobject
  · next hl =>
    have hgives : Gives 2 bound ((native kind message trace).rejecting.run host bound realm)
        (.error .overflow (realm.withObject (realm.emptyError kind))) :=
      Gives.bindEngine_error hobject.bindEngine_error
    have heq := hgives.eq_of_endsIn he
    obtain rfl := EndsIn.realm_eq_of_error (heq ▸ he)
    exact .inl ⟨hl, heq⟩
  · next hl =>
    have hgives : Gives 2 bound ((native kind message trace).rejecting.run host bound realm)
        (.ok (.reject (.object ⟨realm.heap.size⟩))
          (realm.withObject (realm.errorObject kind message))) :=
      Gives.bindEngine (hobject.bindEngine (.of_eq rfl)) (.of_eq rfl)
    have heq := hgives.eq_of_endsIn he
    obtain rfl := EndsIn.realm_eq (heq ▸ he)
    exact .inr ⟨hl, _, heq⟩

/-! ### Deciding on a settlement -/

/-- The depth of calls leaves no room for the native error that a promise is to be rejected with:
it is resolved with itself, or with an object whose `then` cannot be read. -/
structure Realm.Corners (host : Host H) (bound : Nat) (realm : Realm H) (p : ObjectId)
    (resolution : Value) : Prop where
  limit : realm.deeper.AtLimit
  native : resolution = .object p ∨ ∃ thenable kind message trace middle,
    resolution = .object thenable
      ∧ (thenable.getNamed "then").run host bound realm
        = .error (.failure (.native kind message trace)) middle

/-- What is to become of a promise that is resolved with an object, once its `then` was read. -/
def ObjectId.settlementFor (thenable : ObjectId) : Except Failure Value → Engine H Settlement
  | .error f => f.rejecting
  | .ok then_ =>
    return if ← isCallable then_ then .follow thenable then_ else .fulfill (.object thenable)

theorem ObjectId.settlement_object {thenable : ObjectId} (hne : thenable ≠ p) :
    (p.settlement (.object thenable) : Engine H Settlement)
      = attempt (thenable.getNamed "then") >>= thenable.settlementFor := by
  have hnot : Value.object thenable ≠ .object p := fun h => hne (Value.object.inj h)
  simp only [ObjectId.settlement, Value.sameValue, hnot, decide_false, Bool.false_eq_true, if_false]
  rfl

/-- A failure that is not fatal and was not thrown by the program is a native error. -/
theorem Failure.rejecting_run {failure : Failure} (he : EndsCaught
    ((failure.rejecting : Engine H Settlement).run host bound realm) after) :
    (∃ kind message trace, failure = .native kind message trace)
      ∨ failure.kind? = none
        ∧ ∃ settlement, failure.rejecting.run host bound realm = .ok settlement after := by
  cases failure with
  | native kind message trace => exact .inl ⟨kind, message, trace, rfl⟩
  | thrown v trace =>
    obtain rfl := EndsIn.realm_eq he.endsIn
    exact .inr ⟨rfl, .reject v, rfl⟩
  | timeout limit elapsed =>
    rcases he with ⟨a, he⟩ | ⟨f, hf, he⟩
    · cases he
    · cases he
      cases hf
  | internal message =>
    rcases he with ⟨a, he⟩ | ⟨f, hf, he⟩
    · cases he
    · cases he
      cases hf

theorem ObjectId.settlement_self (p : ObjectId) : (p.settlement (.object p) : Engine H Settlement)
    = (Failure.typeError "Chaining cycle detected for promise").rejecting := by
  simp only [ObjectId.settlement, Value.sameValue, decide_true, if_true]
  rfl

/-- A promise that is resolved with another object is cornered by a failure to read its `then`. -/
theorem ObjectId.settlement_object_run (hs : realm.Sound) {thenable : ObjectId}
    (hne : thenable ≠ p)
    (he : EndsCaught ((p.settlement (.object thenable)).run host bound realm) after) :
    (realm.Corners host bound p (.object thenable)
        ∧ (p.settlement (.object thenable)).run host bound realm = .error .overflow after)
      ∨ ¬realm.Corners host bound p (.object thenable) ∧ ∃ settlement,
        (p.settlement (.object thenable)).run host bound realm = .ok settlement after := by
  have hnot (h : ∀ kind message trace middle, (thenable.getNamed "then").run host bound realm
      ≠ .error (.failure (.native kind message trace)) middle) :
      ¬realm.Corners host bound p (.object thenable) := by
    intro hc
    rcases hc.native with heq | ⟨_, kind, message, trace, middle, heq, hget⟩
    · exact hne (Value.object.inj heq)
    · cases heq
      exact h kind message trace middle hget
  rw [ObjectId.settlement_object hne] at he ⊢
  match hget : (thenable.getNamed "then").act (.bounded host bound) realm with
  | .ok then_ middle =>
    have hrun : (attempt (thenable.getNamed "then") >>= thenable.settlementFor).run host bound
        realm = (thenable.settlementFor (.ok then_)).run host bound middle :=
      Engine.bind_of_ok (Engine.attempt_of_ok hget)
    rw [hrun] at he ⊢
    obtain rfl := EndsIn.realm_eq he.endsIn
    exact .inr ⟨hnot fun _ _ _ _ h => (by cases hget.symm.trans h), _, rfl⟩
  | .error (.failure failure) middle =>
    have hrun : (attempt (thenable.getNamed "then") >>= thenable.settlementFor).run host bound
        realm = failure.rejecting.run host bound middle :=
      Engine.bind_of_ok (Engine.attempt_of_failure hget)
    have hroom : realm.Leads middle := by
      have hleads := (thenable.getNamed "then").lawful _ (Surroundings.bounded_lawful host bound)
        realm hs
      rwa [hget] at hleads
    rw [hrun] at he ⊢
    rcases Failure.rejecting_run he with ⟨kind, message, trace, rfl⟩ | ⟨hkind, hok⟩
    · rcases Failure.rejecting_native he.endsIn with ⟨hl, hover⟩ | ⟨hl, hok⟩
      · exact .inl ⟨⟨hroom.deeper_atLimit.mp hl, .inr ⟨thenable, kind, message, trace, middle,
          rfl, hget⟩⟩, hover⟩
      · exact .inr ⟨fun h => hl (hroom.deeper_atLimit.mpr h.limit), hok⟩
    · refine .inr ⟨hnot fun kind message trace middle' h => ?_, hok⟩
      cases hget.symm.trans h
      cases hkind
  | .error .exhausted middle =>
    have hrun : (attempt (thenable.getNamed "then") >>= thenable.settlementFor).run host bound
          realm = .error .exhausted middle :=
      Engine.bind_of_error (Engine.attempt_of_exhausted hget)
    rw [hrun] at he
    rcases he with ⟨a, he⟩ | ⟨f, -, he⟩
    · cases he
    · cases he

/-- Deciding on the settlement of a promise fails, but for what is fatal, where the depth of calls
leaves no room for an error, and only there. -/
theorem ObjectId.settlement_run (hs : realm.Sound) {resolution : Value}
    (he : EndsCaught ((p.settlement resolution).run host bound realm) after) :
    (realm.Corners host bound p resolution
        ∧ (p.settlement resolution).run host bound realm = .error .overflow after)
      ∨ ¬realm.Corners host bound p resolution
        ∧ ∃ settlement, (p.settlement resolution).run host bound realm = .ok settlement after := by
  by_cases hself : resolution = .object p
  · subst hself
    rw [ObjectId.settlement_self] at he ⊢
    rcases Failure.rejecting_native he.endsIn with ⟨hl, hrun⟩ | ⟨hl, hrun⟩
    · exact .inl ⟨⟨hl, .inl rfl⟩, hrun⟩
    · exact .inr ⟨fun h => hl h.limit, hrun⟩
  cases resolution with
  | object thenable =>
    exact ObjectId.settlement_object_run hs (fun h => hself (congrArg Value.object h)) he
  | _ =>
    refine .inr ⟨fun h => ?_, ?_⟩
    · rcases h.native with heq | ⟨_, _, _, _, _, heq, _⟩
      · exact hself heq
      · cases heq
    · obtain rfl := EndsIn.realm_eq he.endsIn
      exact ⟨_, rfl⟩

/-! ### Using a latch -/

namespace Ledger

/-- A promise has been settled, or a thenable that it is left to has its job in the queue. -/
def Decides (l : Ledger H) (p : ObjectId) : Prop :=
  (∃ data, l.promise? p = some data ∧ data.state ≠ .pending)
    ∨ ∃ thenable then_, Job.thenable p thenable then_ ∈ l.jobs

/-- A promise is pending, and nothing is left that could settle it. -/
structure Strands (l : Ledger H) (p : ObjectId) : Prop where
  pending : ∃ data, l.promise? p = some data ∧ data.state = .pending
  unclaimed : l.claims p = 0

end Ledger

theorem PromiseData.state_settled (data : PromiseData) (rejected : Bool) (v : Value) :
    (data.settled rejected v).state ≠ .pending := by
  cases rejected <;> simp [PromiseData.settled]

theorem Realm.conclude_decides {data : PromiseData} (settlement : Settlement)
    (hp : realm.ledger.promise? p = some data) (hs : data.state = .pending) :
    (realm.conclude p settlement).1 = .ok ()
      ∧ (realm.conclude p settlement).2.ledger.Decides p := by
  have settle (rejected : Bool) (v : Value) :
      (realm.settle p rejected v).1 = .ok () ∧ (realm.settle p rejected v).2.ledger.Decides p := by
    obtain ⟨hok, hledger⟩ := Realm.settle_of_pending rejected v hp hs
    refine ⟨hok, .inl ⟨data.settled rejected v, ?_, data.state_settled rejected v⟩⟩
    rw [hledger]
    exact if_pos rfl
  cases settlement with
  | fulfill v => exact settle false v
  | reject reason => exact settle true reason
  | follow thenable then_ =>
    exact ⟨rfl, .inr ⟨thenable, then_, List.mem_append_right _ (List.mem_singleton_self _)⟩⟩

section Concluding

variable {decide : ObjectId → Engine H Settlement}

theorem Realm.takeLatch_of_unused (hl : realm.latches[latch]? = some { promise := p }) :
    realm.takeLatch latch = (some p, { realm with
      latches := realm.latches.setIfInBounds latch { promise := p, used := true } }) := by
  simp only [takeLatch, hl]

/-- After the first use of a latch and whatever is done then, the promise is pending and has no
claims. -/
theorem Realm.strands_of_taken (hr : realm.Tidy)
    (hl : realm.latches[latch]? = some { promise := p })
    (hm : (realm.takeLatch latch).2.Conducts middle) (hd : middle.disposed = false) :
    middle.ledger.Strands p := by
  have htaken : (realm.takeLatch latch).1 = some p := by rw [Realm.takeLatch_of_unused hl]
  obtain ⟨hzero, hpending⟩ := Realm.pending_of_takeLatch hr htaken hm hd
  exact ⟨hpending, hzero⟩

/-- The first use of a latch fails where it cannot be decided what is to become of the promise,
which is lost then. Otherwise the promise is dealt with. -/
theorem concluding_run (hr : realm.Tidy) (hl : realm.latches[latch]? = some { promise := p })
    (he : EndsCaught ((concluding latch decide).run host bound realm) after)
    (hd : after.disposed = false) :
    (∃ failure,
          (decide p).run host bound (realm.takeLatch latch).2 = .error (.failure failure) after
          ∧ failure.isCatchable
          ∧ (concluding latch decide).run host bound realm = .error (.failure failure) after)
        ∧ after.ledger.Strands p
      ∨ (∃ settlement middle,
          (decide p).run host bound (realm.takeLatch latch).2 = .ok settlement middle)
        ∧ (concluding latch decide).run host bound realm = .ok () after
        ∧ after.ledger.Decides p := by
  have lost (middle : Realm H) (hmd : middle.disposed = false)
      (hends : EndsIn ((decide p).run host bound (realm.takeLatch latch).2) middle) :
      middle.ledger.Strands p := by
    have hconducts := Routine.conducts_run ((realm.conducts_takeLatch latch).tidy hr) hends
    exact Realm.strands_of_taken hr hl hconducts hmd
  obtain ⟨hseen, hstart⟩ := realm.takeLatch_seen latch
  have htaken : (realm.takeLatch latch).1 = some p := by rw [Realm.takeLatch_of_unused hl]
  obtain ⟨outcome, middle, hx, hrun⟩ :=
    Routine.bracket_endsIn he.endsIn (congrArg Except.ok (hseen.trans htaken))
  replace hx : (attempt (Option.mapM decide (some p))).run host bound (realm.takeLatch latch).2
      = .ok outcome middle := hstart ▸ hx
  rcases Action.attempt_eq_ok hx with ⟨settlement?, rfl, hmap⟩ | ⟨failure, rfl, hmap⟩
  · obtain ⟨settlement, inner, hdecide, hsome⟩ := Engine.ok_of_bind hmap
    cases hsome
    have hconclude : (concluding latch decide).run host bound realm
        = Action.transition (fun realm => realm.conclude p settlement) (.bounded host bound)
          middle := hrun
    -- the settlement cannot fail, since the promise is pending
    have decides (h : middle.disposed = false) :
        (middle.seen.conclude p settlement).1 = .ok ()
          ∧ (middle.seen.conclude p settlement).2.ledger.Decides p := by
      obtain ⟨data, hp, hs⟩ := (lost middle h (.inl ⟨_, hdecide⟩)).pending
      exact Realm.conclude_decides settlement hp hs
    have hsame : (middle.seen.conclude p settlement).2.disposed = middle.disposed :=
      middle.seen.disposed_conclude p settlement
    refine .inr ⟨⟨settlement, middle, hdecide⟩, ?_⟩
    rw [hconclude] at he ⊢
    rcases he with ⟨a, he⟩ | ⟨f, -, he⟩
    · obtain ⟨-, rfl⟩ := Action.transition_eq_ok he
      exact ⟨he, (decides (hsame.symm.trans hd)).2⟩
    · obtain ⟨hfailed, rfl⟩ := Action.transition_eq_error he
      cases (decides (hsame.symm.trans hd)).1.symm.trans hfailed
  · obtain ⟨q, hq, hdecide⟩ := mapM_eq_error hmap
    obtain rfl : p = q := Option.some.inj hq
    have hfails : (concluding latch decide).run host bound realm
        = .error (.failure failure) middle := hrun
    rw [hfails] at he ⊢
    rcases he with ⟨a, he⟩ | ⟨f, hf, he⟩
    · cases he
    · cases he
      exact .inl ⟨⟨failure, hdecide, hf, rfl⟩, lost _ hd (.inr ⟨failure, hdecide⟩)⟩

end Concluding

/-! ### Calls -/

theorem Ledger.Strands.not_decides {l : Ledger H} (h : l.Strands p) : ¬l.Decides p := by
  obtain ⟨data, hp, hs⟩ := h.pending
  rintro (⟨data', hp', hs'⟩ | ⟨thenable, then_, hjob⟩)
  · cases hp.symm.trans hp'
    exact hs' hs
  · have hclaim : 0 < l.jobs.countP (Job.follows p) :=
      List.countP_pos_iff.mpr ⟨_, hjob, decide_eq_true rfl⟩
    have hzero := h.unclaimed
    unfold Ledger.claims at hzero
    omega

/-- A call of a resolving function comes to where the depth of calls leaves no room for the error
that its promise is to be rejected with. -/
def Realm.CornersCall (host : Host H) (bound : Nat) (realm : Realm H) (code : FunctionData H)
    (latch : Nat) (p : ObjectId) (resolution : Value) : Prop :=
  code = .promiseResolve latch ∧ ∃ checked, checkTimeout.run host bound realm = .ok () checked
    ∧ (checked.deeper.takeLatch latch).2.Corners host bound p resolution

/-- What a resolving function does in a call, one level deeper. -/
theorem callKind_decides {code : FunctionData H} {this : Value} {args : List Value}
    (hr : realm.Tidy) (hs : realm.Sound)
    (hc : code = .promiseResolve latch ∨ code = .promiseReject latch)
    (hl : realm.latches[latch]? = some { promise := p })
    (he : EndsCaught
      ((callKind nativeBehaviour f (.function code) this args).run host bound realm) after)
    (hd : after.disposed = false) :
    (code = .promiseResolve latch
        ∧ (realm.takeLatch latch).2.Corners host bound p (argument args 0)
        ∧ (callKind nativeBehaviour f (.function code) this args).run host bound realm
          = .error .overflow after
        ∧ after.ledger.Strands p)
      ∨ ¬(code = .promiseResolve latch
          ∧ (realm.takeLatch latch).2.Corners host bound p (argument args 0))
        ∧ after.ledger.Decides p := by
  rcases hc with rfl | rfl
  · have hconcluding := EndsCaught.of_bind_pure he
    have hs' : (realm.takeLatch latch).2.Sound := (realm.steps_takeLatch latch).sound hs
    rcases concluding_run hr hl hconcluding hd with
      ⟨⟨failure, hdecide, hcatch, hrun⟩, hlost⟩ | ⟨⟨settlement, middle, hdecide⟩, -, hdone⟩
    · rcases ObjectId.settlement_run hs' (.inr ⟨failure, hcatch, hdecide⟩) with
        ⟨hcorner, hover⟩ | ⟨-, settlement, hok⟩
      · cases hdecide.symm.trans hover
        exact .inl ⟨rfl, hcorner, Engine.bind_of_error hrun, hlost⟩
      · cases hdecide.symm.trans hok
    · rcases ObjectId.settlement_run hs' (.inl ⟨settlement, hdecide⟩) with
        ⟨-, hover⟩ | ⟨hnot, -⟩
      · cases hdecide.symm.trans hover
      · exact .inr ⟨fun h => hnot h.2, hdone⟩
  · have hconcluding := EndsCaught.of_bind_pure he
    rcases concluding_run hr hl hconcluding hd with ⟨⟨failure, hdecide, -⟩, -⟩ | ⟨-, -, hdone⟩
    · cases hdecide
    · exact .inr ⟨fun h => (nomatch h.1), hdone⟩

/-- The first call of a resolving function that comes to an end, having used up its latch, settles
the promise or leaves it to a thenable, but where the depth of calls leaves no room for the error
that the promise is to be rejected with. Then it fails, and the promise is lost. -/
theorem resolvingFunction_decides (host : Host H) (hr : realm.Arises host) (hs : realm.Reachable)
    {object : Object H} {code : FunctionData H} {this : Value} {args : List Value}
    (hf : realm.object? f = some object) (hk : object.kind = .function code)
    (hc : code = .promiseResolve latch ∨ code = .promiseReject latch)
    (hl : realm.latches[latch]? = some { promise := p })
    (he : EndsCaught
      ((callFunction nativeBehaviour (.object f) this args).run host bound realm) after)
    (hu : after.latches[latch]? = some { promise := p, used := true })
    (hd : after.disposed = false) :
    (after.ledger.Decides p ↔ ¬realm.CornersCall host bound code latch p (argument args 0))
      ∧ (realm.CornersCall host bound code latch p (argument args 0) →
        (callFunction nativeBehaviour (.object f) this args).run host bound realm
            = .error .overflow after
          ∧ after.ledger.Strands p) := by
  have hcallable : object.kind.isCallable := by rw [hk]; rfl
  have hact : (callFunction nativeBehaviour (.object f) this args).run host bound realm = _ :=
    callFunction_act hf hcallable this args
  rw [hact, hk] at he ⊢
  rcases Action.checkpoint_cases (.bounded host bound) realm with
    ⟨n, time, hcheck⟩ | ⟨elapsed, n, time, hcheck⟩
  · rw [Engine.bind_of_ok (x := checkTimeout) hcheck] at he ⊢
    have hchecked : ∀ checked, checkTimeout.run host bound realm = .ok () checked →
        checked = { realm with checkpoints := n, time } := fun checked h =>
      (EStateM.Result.ok.inj (h.symm.trans hcheck)).2
    by_cases hlimit : ({ realm with checkpoints := n, time } : Realm H).AtLimit
    · -- the call fails before it comes to its latch
      rw [show (nested _).act _ _ = _ from Action.nested_of_atLimit hlimit] at he
      obtain rfl := EndsIn.realm_eq_of_error he.endsIn
      cases hl.symm.trans hu
    · rw [show (nested _).act _ _ = _ from Action.nested_of_not_atLimit hlimit _ _] at he ⊢
      obtain ⟨inner, hinner, rfl⟩ := he.of_shallower
      have htidy : ({ realm with checkpoints := n, time } : Realm H).deeper.Tidy :=
        ⟨hr.tidy.ledger, hr.tidy.control⟩
      rcases callKind_decides htidy hs.sound hc hl hinner hd with
        ⟨hcode, hcorner, hrun, hlost⟩ | ⟨hnot, hdone⟩
      · have hcorners : realm.CornersCall host bound code latch p (argument args 0) :=
          ⟨hcode, _, hcheck, hcorner⟩
        exact ⟨⟨fun h => absurd h hlost.not_decides, fun h => absurd hcorners h⟩,
          fun _ => ⟨congrArg outcomeShallower hrun, hlost.pending, hlost.unclaimed⟩⟩
      · have hcorners : ¬realm.CornersCall host bound code latch p (argument args 0) := by
          rintro ⟨hcode, checked, hcheck', hcorner⟩
          exact hnot ⟨hcode, hchecked checked hcheck' ▸ hcorner⟩
        exact ⟨⟨fun _ => hcorners, fun _ => hdone⟩, fun h => absurd h hcorners⟩
  · rw [Engine.bind_of_error (x := checkTimeout) hcheck] at he
    rcases he with ⟨a, he⟩ | ⟨f, hcatch, he⟩
    · cases he
    · cases he
      cases hcatch

/-! ### A promise that is resolved with itself -/

/-- Makes a promise and its resolving function. -/
def newResolvable : Engine HostTypes.bare Unit := do
  let (_, latch) ← newPromise ⟨0⟩
  let _ ← newObject none (.function (.promiseResolve latch))

/-- A realm with a promise, its resolving function and a limit on the depth of calls. -/
def resolvableRealm (data : PromiseData) (used : Bool) : Realm HostTypes.bare :=
  { config := { maxCallDepth := 2 }
    heap := #[.ofKind (some ⟨0⟩) (.promise data), .ofKind none (.function (.promiseResolve 0))]
    latches := #[{ promise := ⟨0⟩, used }]
    store := () }

theorem newResolvable_run :
    newResolvable.run Host.bare 0 { config := { maxCallDepth := 2 }, store := () }
      = .ok () (resolvableRealm {} false) := rfl

theorem resolvableRealm_arises : (resolvableRealm {} false).Arises Host.bare :=
  ⟨{ config := { maxCallDepth := 2 }, store := () }, ⟨rfl, rfl, rfl, rfl, rfl⟩,
    .run .refl 0 newResolvable.toRoutine (.inl ⟨_, newResolvable_run⟩)⟩

theorem resolvableRealm_reachable : (resolvableRealm {} false).Reachable := by
  have empty : Realm.Reachable
      ({ config := { maxCallDepth := 2 }, store := () } : Realm HostTypes.bare) := .empty rfl
  have hallows := newResolvable.lawful _ (Surroundings.bounded_lawful Host.bare 0) _ empty.sound
  exact (hallows.leads (.inl ⟨_, newResolvable_run⟩)).steps.reachable empty

/-- Two levels of calls are enough to resolve a promise with a value. They are too few for the error
of a promise that is resolved with itself, which is lost. -/
theorem resolvingFunction_decides_resolvableRealm :
    (resolvableRealm {} false).Arises Host.bare ∧ (resolvableRealm {} false).Reachable
      ∧ (∃ after, (callFunction nativeBehaviour (.object ⟨1⟩) .undefined [.bool true]).run
            Host.bare 2 (resolvableRealm {} false) = .ok .undefined after
          ∧ after.ledger.Decides ⟨0⟩)
      ∧ ∃ after, (callFunction nativeBehaviour (.object ⟨1⟩) .undefined [.object ⟨0⟩]).run
            Host.bare 2 (resolvableRealm {} false) = .error .overflow after
          ∧ after.ledger.Strands ⟨0⟩ := by
  have hr := resolvableRealm_arises
  have hs := resolvableRealm_reachable
  have hkind : (Object.ofKind none (.function (.promiseResolve 0)) : Object HostTypes.bare).kind
      = .function (.promiseResolve 0) := rfl
  refine ⟨hr, hs, ?_, ?_⟩
  · have hcall : (callFunction nativeBehaviour (.object ⟨1⟩) .undefined [.bool true]).run
        Host.bare 2 (resolvableRealm {} false)
          = .ok .undefined (resolvableRealm { state := .fulfilled, result := .bool true } true) :=
      rfl
    obtain ⟨hiff, -⟩ := resolvingFunction_decides Host.bare hr hs rfl hkind (.inl rfl) rfl
      (.inl ⟨_, hcall⟩) rfl rfl
    refine ⟨_, hcall, hiff.mpr ?_⟩
    rintro ⟨-, checked, -, hcorner⟩
    rcases hcorner.native with heq | ⟨thenable, _, _, _, _, heq, -⟩
    · cases heq
    · cases heq
  · have hcall : (callFunction nativeBehaviour (.object ⟨1⟩) .undefined [.object ⟨0⟩]).run
        Host.bare 2 (resolvableRealm {} false)
          = .error .overflow ((resolvableRealm {} true).withObject
            ((resolvableRealm {} true).emptyError .typeError)) := rfl
    obtain ⟨-, hlost⟩ := resolvingFunction_decides Host.bare hr hs rfl hkind (.inl rfl) rfl
      (.inr ⟨_, rfl, hcall⟩) rfl rfl
    have hcorner : (resolvableRealm {} false).CornersCall Host.bare 2 (.promiseResolve 0) 0 ⟨0⟩
        (.object ⟨0⟩) := ⟨rfl, resolvableRealm {} false, rfl, by decide, .inl rfl⟩
    exact ⟨_, hcall, (hlost hcorner).2⟩

end ScriptEngine
