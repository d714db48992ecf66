import ScriptEngine.Proofs.Conduct
import ScriptEngine.Proofs.PromiseHistory

/-!
# The settlement of promises

A promise is settled through its resolving functions, which share a latch, or through those of a
thenable that it is left to. Whoever uses a latch looks at the value that the promise is resolved
with, which may run code of the program, and settles the promise only after that. In the meantime no
one else has a claim on the promise, so that it is still pending then: a promise is settled once,
and settling one never fails.

## Main results

* `concluding_eq_error`: settling a promise by the use of a latch fails only where the settlement
  could not be decided on.
* `promises_settle_once`: a promise is settled at most once in a run.
-/

namespace ScriptEngine

open Engine

variable {H : HostTypes} {host : Host H} {bound : Nat} {realm middle after : Realm H}

/-! ### Using a latch -/

namespace Realm

theorem takeLatch_atDepth (realm : Realm H) (latch depth : Nat) :
    (realm.atDepth depth).takeLatch latch
      = ((realm.takeLatch latch).1, (realm.takeLatch latch).2.atDepth depth) := by
  have hlatches : (realm.atDepth depth).latches = realm.latches := rfl
  unfold takeLatch
  rw [hlatches]
  split <;> rfl

/-- What the use of a latch does to a realm as code sees it. -/
theorem takeLatch_seen (realm : Realm H) (latch : Nat) :
    (realm.seen.takeLatch latch).1 = (realm.takeLatch latch).1
      ∧ (realm.seen.takeLatch latch).2.atDepth realm.callDepth = (realm.takeLatch latch).2 := by
  have hsame := realm.takeLatch_atDepth latch realm.callDepth
  rw [Realm.seen, Realm.takeLatch_atDepth]
  exact ⟨rfl, (congrArg Prod.snd hsame).symm⟩

/-- After the use of a latch and whatever is done then, the promise of the latch is pending, and its
settlement succeeds. -/
theorem finish_of_taken {latch : Nat} {p : ObjectId} {settlement : Settlement}
    (hr : realm.Tidy) (hp : (realm.takeLatch latch).1 = some p)
    (hm : (realm.takeLatch latch).2.Conducts middle) (hd : middle.disposed = false) :
    (middle.finish (some p) (.ok (some settlement))).1 = .ok () := by
  obtain ⟨hzero, data, hdata, hs⟩ := pending_of_takeLatch hr hp hm hd
  exact (conclude_of_pending settlement hdata hs hzero).1

end Realm

/-- Deciding on the settlement of no promise does nothing, and on that of one fails as it does. -/
theorem mapM_eq_error {α : Type} {p? : Option ObjectId} {decide : ObjectId → Engine H α}
    {s : Surroundings H} {f : Failure}
    (h : (p?.mapM decide).act s realm = .error (.failure f) after) :
    ∃ p, p? = some p ∧ (decide p).act s realm = .error (.failure f) after := by
  cases p? with
  | none => cases h
  | some p =>
    refine ⟨p, rfl, ?_⟩
    rcases Action.andThen_eq_error h with h | ⟨a, middle, -, h⟩
    · exact h
    · cases h

/-- Settling a promise by the use of a latch fails only where the settlement could not be decided
on. -/
theorem concluding_eq_error {latch : Nat} {decide : ObjectId → Engine H Settlement} {f : Failure}
    (hr : realm.Tidy) (hd : after.disposed = false)
    (h : (concluding latch decide).run host bound realm = .error (.failure f) after) :
    ∃ p inner, (realm.takeLatch latch).1 = some p
      ∧ (decide p).run host bound (realm.takeLatch latch).2 = .error (.failure f) inner := by
  obtain ⟨hseen, hstart⟩ := realm.takeLatch_seen latch
  rcases Routine.bracket_eq_error h with hrefused | ⟨p?, outcome, middle, hok, hx, hleave, rfl⟩
  · cases hrefused
  obtain rfl : (realm.takeLatch latch).1 = p? := hseen.symm.trans (Except.ok.inj hok)
  replace hx : ((realm.takeLatch latch).1.mapM decide).act.attempt (.bounded host bound)
      (realm.takeLatch latch).2 = .ok outcome middle := hstart ▸ hx
  change (middle.seen.finish (realm.takeLatch latch).1 outcome).1 = .error f at hleave
  change (middle.seen.finish (realm.takeLatch latch).1 outcome).2.disposed = false at hd
  rcases Action.attempt_eq_ok hx with ⟨settlement?, rfl, hrun⟩ | ⟨f', rfl, hrun⟩
  · match hp : (realm.takeLatch latch).1, settlement? with
    | none, settlement? =>
      have hok : (middle.seen.finish none (.ok settlement?)).1 = .ok () := by
        cases settlement? <;> rfl
      rw [hp, hok] at hleave
      cases hleave
    | some p, none =>
      rw [hp] at hleave
      cases hleave
    | some p, some settlement =>
      rw [hp] at hleave hd
      have hdm : middle.seen.disposed = false := middle.seen.disposed_conclude p settlement ▸ hd
      have hconducts : (realm.takeLatch latch).2.Conducts middle :=
        Routine.conducts_run ((realm.conducts_takeLatch latch).tidy hr) (.inl ⟨_, hrun⟩)
      have hok : (middle.seen.finish (some p) (.ok (some settlement))).1 = .ok () :=
        Realm.finish_of_taken hr hp (hconducts.atDepth _) hdm
      rw [hok] at hleave
      cases hleave
  · obtain ⟨p, hp, hdecide⟩ := mapM_eq_error hrun
    have hsame : Except.error f' = (Except.error f : Except Failure Unit) := hleave
    cases hsame
    exact ⟨p, middle, hp, hdecide⟩

/-! ### Promises in a run -/

/-- From one realm of a run to a later one a promise stays one, and once it is settled neither its
state nor its result changes. In the history of a realm every promise was settled at most once,
namely as it is settled now. At any time at most one unused latch or waiting thenable can settle a
promise, and none can if it is settled. Settling a promise through its resolving functions never
meets one that is settled: it fails only where deciding on the settlement does. -/
theorem promises_settle_once (host : Host H) (hr : realm.Arises host)
    (hp : realm.Proceeds host after) (hd : after.disposed = false) :
    (∀ p data, realm.ledger.promise? p = some data →
        ∃ data', after.ledger.promise? p = some data'
          ∧ ∀ settlement, data.settlement? = some settlement →
            data'.settlement? = some settlement)
      ∧ (∃ events, ({} : Ledger H).Path events after.ledger)
      ∧ (∀ events : History H, ({} : Ledger H).Path events after.ledger → ∀ p,
        events.settlements p = (after.ledger.promise p).settlement?.toList)
      ∧ (∀ p, after.ledger.claims p ≤ 1
        ∧ ((after.ledger.promise p).settlement?.isSome → after.ledger.claims p = 0))
      ∧ ∀ latch decide bound f final,
        (concluding latch decide).run host bound after = .error (.failure f) final →
        final.disposed = false →
        ∃ p inner, (after.takeLatch latch).1 = some p
          ∧ (decide p).run host bound (after.takeLatch latch).2 = .error (.failure f) inner := by
  have hafter := hr.proceeds hp
  have htidy := hafter.tidy.ledger hd
  obtain ⟨more, hmore⟩ := (hp.advances hr.tidy).ledger hd
  refine ⟨fun p data hdata => hmore.settlement?_eq hdata, hafter.exists_history hd,
    fun events hpath p => (hpath.recorded p).settlements,
    fun p => ⟨htidy.claims_le p, fun hs => ?_⟩,
    fun latch decide bound f final h hd' => concluding_eq_error hafter.tidy hd' h⟩
  cases hdata : after.ledger.promise? p with
  | none => exact htidy.of_none p hdata
  | some data =>
    refine htidy.of_settled p data hdata fun hpending => ?_
    rw [Ledger.promise_of_some hdata, PromiseData.settlement?_eq_none.mpr hpending] at hs
    cases hs

/-- A realm with a promise. -/
def promiseRealm (data : PromiseData) (used : Bool) : Realm HostTypes.bare :=
  { heap := #[.ofKind (some ⟨0⟩) (.promise data)]
    latches := #[{ promise := ⟨0⟩, used }]
    store := () }

theorem promiseRealm_arises : (promiseRealm {} false).Arises Host.bare := by
  have hnew : (newPromise ⟨0⟩).run Host.bare 0 { store := () }
      = .ok (⟨0⟩, 0) (promiseRealm {} false) := rfl
  exact ⟨{ store := () }, ⟨rfl, rfl, rfl, rfl, rfl⟩,
    .run .refl 0 (newPromise ⟨0⟩).toRoutine (.inl ⟨_, hnew⟩)⟩

/-- A promise that was resolved with one is not rejected any more, and its rejecting function does
not fail. -/
theorem promises_settle_once_promiseRealm :
    ∃ realm after, realm.Arises Host.bare ∧ realm.Proceeds Host.bare after
      ∧ after.disposed = false
      ∧ (rejectWith 0 (.nat 2)).run Host.bare 0 realm = .ok .undefined after
      ∧ (∃ data, realm.ledger.promise? ⟨0⟩ = some data
        ∧ data.settlement? = some (false, .nat 1))
      ∧ (∃ data, after.ledger.promise? ⟨0⟩ = some data
        ∧ data.settlement? = some (false, .nat 1))
      ∧ after.ledger.claims ⟨0⟩ = 0 := by
  let data : PromiseData := { state := .fulfilled, result := .nat 1 }
  have hresolve : (resolveWith 0 (.nat 1)).run Host.bare 0 (promiseRealm {} false)
      = .ok .undefined (promiseRealm data true) := rfl
  have hreject : (rejectWith 0 (.nat 2)).run Host.bare 0 (promiseRealm data true)
      = .ok .undefined (promiseRealm data true) := rfl
  have hr : (promiseRealm data true).Arises Host.bare :=
    promiseRealm_arises.proceeds (.run .refl 0 _ (.inl ⟨_, hresolve⟩))
  have hp : (promiseRealm data true).Proceeds Host.bare (promiseRealm data true) :=
    .run .refl 0 _ (.inl ⟨_, hreject⟩)
  obtain ⟨hstays, -, -, hclaims, -⟩ := promises_settle_once Host.bare hr hp rfl
  obtain ⟨data', hdata', hsame⟩ := hstays ⟨0⟩ data rfl
  exact ⟨_, _, hr, hp, rfl, hreject, ⟨data, rfl, rfl⟩, ⟨data', hdata', hsame _ rfl⟩,
    (hclaims ⟨0⟩).2 rfl⟩

end ScriptEngine
