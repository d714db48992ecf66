import ScriptEngine.Json.Reader
import ScriptEngine.Respond

/-!
# Outcomes of computations

A computation is run in a realm and in surroundings whose bound on nesting is known. Some outcomes
need no more than a few levels of nesting; below that the computation may give up, and such outcomes
are stated here once for all bounds. Computations that go one level deeper fail where the depth of
calls is at its limit.

## Main definitions

* `Realm.AtLimit`, `Realm.deeper`: the limit on the depth of calls.
* `Gives`: an outcome, up to giving up below some bound.
* `EndsIn`, `EndsCaught`: the realm in which a computation leaves the program, with a result or a
  failure.

## Main results

* `Gives.bind`, `Gives.nested`, `Gives.answer`: outcomes of computations from those of their parts.
* `Gives.eq_of_le`, `Gives.eq_of_ok`, `Gives.eq_of_failure`: where the outcome is the expected one.
* `Engine.loopFor_gives_again`, `Engine.loopFor_gives_finish`, `Engine.loop_gives`: outcomes of
  loops from those of their rounds.
* `gives_answer_define`, `ok_of_answer_define`, `failure_of_answer_define`: requests to define a
  property.
-/

namespace ScriptEngine

open Engine

variable {H : HostTypes} {α β : Type}

/-! ### Running a computation -/

section Run

variable {s : Surroundings H} {realm after : Realm H} {a : α} {stop : Stop}

theorem Action.bind_of_ok {x : Action H α} {f : α → Action H β} (h : x s realm = .ok a after) :
    (x >>= f) s realm = f a s after := by
  simp only [bind, ReaderT.bind, EStateM.bind, h]

theorem Action.bind_of_error {x : Action H α} {f : α → Action H β}
    (h : x s realm = .error stop after) : (x >>= f) s realm = .error stop after := by
  simp only [bind, ReaderT.bind, EStateM.bind, h]

theorem Engine.bind_of_ok {x : Engine H α} {f : α → Engine H β}
    (h : x.act s realm = .ok a after) : (x >>= f).act s realm = (f a).act s after := by
  change x.act.andThen (fun a => (f a).act) s realm = _
  simp only [Action.andThen, h]

theorem Engine.bind_of_error {x : Engine H α} {f : α → Engine H β}
    (h : x.act s realm = .error stop after) : (x >>= f).act s realm = .error stop after := by
  change x.act.andThen (fun a => (f a).act) s realm = _
  simp only [Action.andThen, h]

/-- A result of a computation comes from results of its parts. -/
theorem Engine.ok_of_bind {x : Engine H α} {f : α → Engine H β} {b : β}
    (h : (x >>= f).act s realm = .ok b after) :
    ∃ a middle, x.act s realm = .ok a middle ∧ (f a).act s middle = .ok b after := by
  match hx : x.act s realm with
  | .ok a middle => exact ⟨a, middle, rfl, (Engine.bind_of_ok hx).symm.trans h⟩
  | .error stop middle =>
    rw [Engine.bind_of_error hx] at h
    cases h

variable {o : ObjectId} {object : Object H}

theorem Engine.getRealm_eq (s : Surroundings H) (realm : Realm H) :
    getRealm.act s realm = .ok realm.seen realm :=
  rfl

theorem Engine.getObject_of_some (h : realm.object? o = some object) :
    (getObject o).act s realm = .ok object realm := by
  unfold getObject
  rw [Engine.bind_of_ok (getRealm_eq s realm), Realm.seen, Realm.object?_atDepth, h]
  rfl

theorem Engine.getObject_of_none (h : realm.object? o = none) :
    (getObject o).act s realm
      = .error (.failure (.internal ("dangling object handle " ++ o.text))) realm := by
  unfold getObject
  rw [Engine.bind_of_ok (getRealm_eq s realm), Realm.seen, Realm.object?_atDepth, h]
  rfl

theorem Engine.getKind_of_some (h : realm.object? o = some object) :
    (getKind o).act s realm = .ok object.kind realm := by
  unfold getKind
  rw [Engine.bind_of_ok (getObject_of_some h)]
  rfl

theorem Engine.getKind_of_none (h : realm.object? o = none) :
    (getKind o).act s realm
      = .error (.failure (.internal ("dangling object handle " ++ o.text))) realm :=
  Engine.bind_of_error (getObject_of_none h)

theorem Action.modifyObject_of_some {f : Object H → Object H} (h : realm.object? o = some object) :
    Action.modifyObject o f s realm = .ok () (realm.putObject o (f object)) := by
  simp only [Action.modifyObject, h]

end Run

/-! ### Computations as a monad -/

/-- A computation is known from what it does in each realm. -/
theorem Engine.eq_of_act {x y : Engine H α} (h : ∀ s realm, x.act s realm = y.act s realm) :
    x = y := by
  obtain ⟨⟨act, _, _, _, _⟩, _, _⟩ := x
  obtain ⟨⟨act', _, _, _, _⟩, _, _⟩ := y
  obtain rfl : act = act' := funext fun s => funext (h s)
  rfl

theorem Engine.bind_bind {γ : Type} (x : Engine H α) (f : α → Engine H β) (g : β → Engine H γ) :
    x >>= f >>= g = x >>= fun a => f a >>= g := by
  refine eq_of_act fun s realm => ?_
  match hx : x.act s realm with
  | .ok a middle =>
    rw [bind_of_ok hx]
    match hf : (f a).act s middle with
    | .ok b after => rw [bind_of_ok ((bind_of_ok hx).trans hf), bind_of_ok hf]
    | .error stop after => rw [bind_of_error ((bind_of_ok hx).trans hf), bind_of_error hf]
  | .error stop after => rw [bind_of_error (bind_of_error hx), bind_of_error hx]

theorem Engine.bind_pure_eq (x : Engine H α) : x >>= pure = x := by
  refine eq_of_act fun s realm => ?_
  match hx : x.act s realm with
  | .ok a after => exact bind_of_ok hx
  | .error stop after => exact bind_of_error hx

instance : LawfulMonad (Engine H) :=
  .mk' _ bind_pure_eq (fun _ _ => rfl) bind_bind

/-! ### The limit on the depth of calls -/

/-- Whether no level can be added to the calls that have begun. -/
def Realm.AtLimit (realm : Realm H) : Prop :=
  realm.config.maxCallDepth ≠ 0 ∧ realm.config.maxCallDepth ≤ realm.callDepth

instance (realm : Realm H) : Decidable realm.AtLimit :=
  inferInstanceAs (Decidable (_ ∧ _))

/-- The realm one level deeper. -/
def Realm.deeper (realm : Realm H) : Realm H := { realm with callDepth := realm.callDepth + 1 }

theorem Realm.deeper_atLimit {realm : Realm H} (h : realm.AtLimit) : realm.deeper.AtLimit :=
  ⟨h.1, Nat.le_succ_of_le h.2⟩

/-- The failure to go one level deeper. -/
def Stop.overflow : Stop := .failure (.rangeError "Maximum call stack size exceeded")

section Nested

variable {s : Surroundings H} {realm after : Realm H} {a : α} {stop : Stop} {x : Action H α}

theorem Action.nested_of_atLimit (h : realm.AtLimit) :
    x.nested s realm = .error .overflow realm := by
  unfold Action.nested
  exact if_pos h

theorem Action.nested_of_result (h : ¬realm.AtLimit) (hx : x s realm.deeper = .ok a after) :
    x.nested s realm = .ok a { after with callDepth := after.callDepth - 1 } := by
  have hx' : x s { realm with callDepth := realm.callDepth + 1 } = .ok a after := hx
  simp only [Action.nested, hx']
  exact if_neg h

theorem Action.nested_of_ok (h : ¬realm.AtLimit) (hx : x s realm.deeper = .ok a after.deeper) :
    x.nested s realm = .ok a after :=
  Action.nested_of_result h hx

theorem Action.nested_of_stop (h : ¬realm.AtLimit) (hx : x s realm.deeper = .error stop after) :
    x.nested s realm = .error stop { after with callDepth := after.callDepth - 1 } := by
  have hx' : x s { realm with callDepth := realm.callDepth + 1 } = .error stop after := hx
  simp only [Action.nested, hx']
  exact if_neg h

theorem Action.nested_of_error (h : ¬realm.AtLimit)
    (hx : x s realm.deeper = .error stop after.deeper) : x.nested s realm = .error stop after :=
  Action.nested_of_stop h hx

theorem Action.nested_of_not_atLimit (h : ¬realm.AtLimit) (x : Action H α) (s : Surroundings H) :
    x.nested s realm = outcomeShallower (x s realm.deeper) := by
  cases hx : x s realm.deeper with
  | ok a after => exact Action.nested_of_result h hx
  | error stop after => exact Action.nested_of_stop h hx

/-- Computations that do the same one level deeper do the same when they are nested. -/
theorem Action.nested_congr {y : Action H α} (h : x s realm.deeper = y s realm.deeper) :
    x.nested s realm = y.nested s realm := by
  by_cases hl : realm.AtLimit
  · rw [Action.nested_of_atLimit hl, Action.nested_of_atLimit hl]
  · rw [Action.nested_of_not_atLimit hl, Action.nested_of_not_atLimit hl, h]

end Nested

/-! ### Results up to the bound on nesting -/

/-- A computation has a certain outcome where requests may be nested `need` deep; where the bound is
below that, it may give up instead. -/
def Gives (need bound : Nat) (outcome expected : EStateM.Result Stop (Realm H) α) : Prop :=
  outcome = expected ∨ bound < need ∧ ∃ realm, outcome = .error .exhausted realm

section Gives

variable {need need' bound : Nat} {s : Surroundings H} {realm middle after : Realm H}
  {a : α} {stop : Stop} {outcome expected : EStateM.Result Stop (Realm H) α}
  {result : EStateM.Result Stop (Realm H) β}

theorem Gives.of_eq (h : outcome = expected) : Gives need bound outcome expected := .inl h

theorem Gives.mono (h : Gives need bound outcome expected) (hn : need ≤ need') :
    Gives need' bound outcome expected :=
  h.imp id fun ⟨hb, he⟩ => ⟨Nat.lt_of_lt_of_le hb hn, he⟩

theorem Gives.succ (h : Gives need bound outcome expected) :
    Gives (need + 1) (bound + 1) outcome expected :=
  h.imp_right fun ⟨hb, he⟩ => ⟨Nat.succ_lt_succ hb, he⟩

theorem Gives.eq_of_le (h : Gives need bound outcome expected) (hn : need ≤ bound) :
    outcome = expected :=
  h.resolve_right fun ⟨hb, _⟩ => Nat.not_lt.mpr hn hb

theorem Gives.eq_of_ok (h : Gives need bound outcome expected) (ho : outcome = .ok a after) :
    expected = .ok a after := by
  rcases h with h | ⟨-, realm, h⟩
  · exact h.symm.trans ho
  · rw [h] at ho
    cases ho

theorem Gives.eq_of_failure {f : Failure} (h : Gives need bound outcome expected)
    (ho : outcome = .error (.failure f) after) : expected = .error (.failure f) after := by
  rcases h with h | ⟨-, realm, h⟩
  · exact h.symm.trans ho
  · rw [h] at ho
    cases ho

theorem Gives.allows (h : Gives need bound outcome expected) (he : realm.Allows expected) :
    realm.Allows outcome := by
  rcases h with rfl | ⟨-, _, rfl⟩
  · exact he
  · trivial

theorem Gives.bind {x : Action H α} {f : α → Action H β}
    (hx : Gives need bound (x s realm) (.ok a middle))
    (hf : Gives need bound (f a s middle) result) :
    Gives need bound ((x >>= f) s realm) result := by
  rcases hx with hx | ⟨hb, r, hx⟩
  · rw [Action.bind_of_ok hx]
    exact hf
  · exact .inr ⟨hb, r, Action.bind_of_error hx⟩

theorem Gives.bind_error {x : Action H α} {f : α → Action H β}
    (hx : Gives need bound (x s realm) (.error stop after)) :
    Gives need bound ((x >>= f) s realm) (.error stop after) := by
  rcases hx with hx | ⟨hb, r, hx⟩
  · exact .inl (Action.bind_of_error hx)
  · exact .inr ⟨hb, r, Action.bind_of_error hx⟩

theorem Gives.bindEngine {x : Engine H α} {f : α → Engine H β}
    (hx : Gives need bound (x.act s realm) (.ok a middle))
    (hf : Gives need bound ((f a).act s middle) result) :
    Gives need bound ((x >>= f).act s realm) result := by
  rcases hx with hx | ⟨hb, r, hx⟩
  · rw [Engine.bind_of_ok hx]
    exact hf
  · exact .inr ⟨hb, r, Engine.bind_of_error hx⟩

theorem Gives.bindEngine_error {x : Engine H α} {f : α → Engine H β}
    (hx : Gives need bound (x.act s realm) (.error stop after)) :
    Gives need bound ((x >>= f).act s realm) (.error stop after) := by
  rcases hx with hx | ⟨hb, r, hx⟩
  · exact .inl (Engine.bind_of_error hx)
  · exact .inr ⟨hb, r, Engine.bind_of_error hx⟩

theorem Gives.nested {x : Action H α} (hl : ¬realm.AtLimit)
    (hx : Gives need bound (x s realm.deeper) (.ok a after.deeper)) :
    Gives need bound (x.nested s realm) (.ok a after) := by
  rcases hx with hx | ⟨hb, r, hx⟩
  · exact .inl (Action.nested_of_ok hl hx)
  · exact .inr ⟨hb, _, Action.nested_of_stop hl hx⟩

theorem Gives.nested_error {x : Action H α} (hl : ¬realm.AtLimit)
    (hx : Gives need bound (x s realm.deeper) (.error stop after.deeper)) :
    Gives need bound (x.nested s realm) (.error stop after) := by
  rcases hx with hx | ⟨hb, r, hx⟩
  · exact .inl (Action.nested_of_error hl hx)
  · exact .inr ⟨hb, _, Action.nested_of_stop hl hx⟩

/-- The answer to a request takes one level of nesting. -/
theorem Gives.answer {host : Host H} {r : Request H}
    {expected : EStateM.Result Stop (Realm H) r.Answer}
    (h : ∀ bound, Gives need bound (respond host r (.bounded host bound) realm) expected) :
    Gives (need + 1) bound (answer host bound r realm) expected := by
  cases bound with
  | zero => exact .inr ⟨Nat.succ_pos need, realm, rfl⟩
  | succ bound => exact (h bound).succ

end Gives

/-! ### Loops -/

section Loop

variable {σ : Type} {host : Host H} {step : σ → Engine H (Round σ α)} {a b : σ} {result : α}
  {realm middle after : Realm H} {need need' bound : Nat}
  {expected : EStateM.Result Stop (Realm H) α}

/-- A loop whose first round leads on ends as the rest of it does. Rounds are counted as levels of
nesting are. -/
theorem Engine.loopFor_gives_again
    (h : Gives need bound ((step a).run host bound realm) (.ok (.again b) middle))
    (hrest : ∀ fuel, Gives need' (min bound fuel)
      ((loopFor step fuel b).run host bound middle) expected) (fuel : Nat) :
    Gives (max need (need' + 1)) (min bound fuel) ((loopFor step fuel a).run host bound realm)
      expected := by
  cases fuel with
  | zero => exact .inr ⟨by omega, realm, rfl⟩
  | succ fuel =>
    rcases h with h | ⟨hb, after, h⟩
    · rcases hrest fuel with hrest | ⟨hb, after, hrest⟩
      · exact .inl ((Engine.bind_of_ok h).trans hrest)
      · exact .inr ⟨by omega, after, (Engine.bind_of_ok h).trans hrest⟩
    · exact .inr ⟨by omega, after, Engine.bind_of_error h⟩

theorem Engine.loopFor_gives_finish
    (h : Gives need bound ((step a).run host bound realm) (.ok (.finish result) after))
    (fuel : Nat) :
    Gives (need + 1) (min bound fuel) ((loopFor step fuel a).run host bound realm)
      (.ok result after) := by
  cases fuel with
  | zero => exact .inr ⟨by omega, realm, rfl⟩
  | succ fuel =>
    rcases h with h | ⟨hb, after, h⟩
    · exact .inl (Engine.bind_of_ok h)
    · exact .inr ⟨by omega, after, Engine.bind_of_error h⟩

theorem Engine.loopFor_gives_error {stop : Stop}
    (h : Gives need bound ((step a).run host bound realm) (.error stop after)) (fuel : Nat) :
    Gives (need + 1) (min bound fuel) ((loopFor step fuel a).run host bound realm)
      (.error stop after) := by
  cases fuel with
  | zero => exact .inr ⟨by omega, realm, rfl⟩
  | succ fuel =>
    rcases h with h | ⟨hb, after, h⟩
    · exact .inl (Engine.bind_of_error h)
    · exact .inr ⟨by omega, after, Engine.bind_of_error h⟩

theorem Engine.loop_gives
    (h : ∀ fuel, Gives need (min bound fuel) ((loopFor step fuel a).run host bound realm)
      expected) : Gives need bound ((loop step a).run host bound realm) expected := by
  have h := h bound
  rwa [Nat.min_self] at h

/-- A loop that is finished in its first round. -/
theorem Engine.loop_gives_finish
    (h : Gives need bound ((step a).run host bound realm) (.ok (.finish result) after)) :
    Gives (need + 1) bound ((loop step a).run host bound realm) (.ok result after) :=
  loop_gives (loopFor_gives_finish h)

theorem Engine.loop_gives_error {stop : Stop}
    (h : Gives need bound ((step a).run host bound realm) (.error stop after)) :
    Gives (need + 1) bound ((loop step a).run host bound realm) (.error stop after) :=
  loop_gives (loopFor_gives_error h)

end Loop

/-! ### Requests to define a property -/

section Define

variable {need bound : Nat} {host : Host H} {realm after : Realm H} {o : ObjectId}
  {k : PropertyKey} {d : Descriptor} {stop : Stop} {f : Failure} {b : Bool}

theorem checkedDefine_of_isValid (hd : d.isValid) (s : Surroundings H) (realm : Realm H) :
    checkedDefine o k d s realm = Action.nested (Dispatch.defineOwnProperty o k d) s realm := by
  unfold checkedDefine
  rw [hd, Bool.not_true, if_neg Bool.false_ne_true]

theorem gives_answer_define (hd : d.isValid) (hl : ¬realm.AtLimit)
    (h : ∀ bound, Gives need bound
      (Dispatch.defineOwnProperty o k d (.bounded host bound) realm.deeper) (.ok b after.deeper)) :
    Gives (need + 1) bound (answer host bound (.defineOwnProperty o k d) realm) (.ok b after) := by
  refine Gives.answer fun bound => ?_
  rw [respond, checkedDefine_of_isValid hd]
  exact .nested hl (h bound)

theorem gives_answer_define_error (hd : d.isValid) (hl : ¬realm.AtLimit)
    (h : ∀ bound, Gives need bound
      (Dispatch.defineOwnProperty o k d (.bounded host bound) realm.deeper)
      (.error stop after.deeper)) :
    Gives (need + 1) bound (answer host bound (.defineOwnProperty o k d) realm)
      (.error stop after) := by
  refine Gives.answer fun bound => ?_
  rw [respond, checkedDefine_of_isValid hd]
  exact .nested_error hl (h bound)

/-- A result of a request to define a property comes from the method of the object. -/
theorem ok_of_answer_define
    (h : answer host bound (.defineOwnProperty o k d) realm = .ok b after) (hd : d.isValid) :
    ∃ bound inner, Dispatch.defineOwnProperty o k d (.bounded host bound) realm.deeper
      = .ok b inner := by
  cases bound with
  | zero => cases h
  | succ bound =>
    change checkedDefine o k d (.bounded host bound) realm = _ at h
    rw [checkedDefine_of_isValid hd] at h
    by_cases hl : realm.AtLimit
    · rw [Action.nested_of_atLimit hl] at h
      cases h
    · match hx : Dispatch.defineOwnProperty o k d (.bounded host bound) realm.deeper with
      | .ok b' inner =>
        rw [Action.nested_of_result hl hx] at h
        cases h
        exact ⟨bound, inner, hx⟩
      | .error stop inner =>
        rw [Action.nested_of_stop hl hx] at h
        cases h

/-- A failure to define a property comes from the method of the object, or nothing was done. -/
theorem failure_of_answer_define
    (h : answer host bound (.defineOwnProperty o k d) realm = .error (.failure f) after) :
    after = realm ∨ d.isValid ∧ ¬realm.AtLimit ∧ ∃ bound inner,
      Dispatch.defineOwnProperty o k d (.bounded host bound) realm.deeper
        = .error (.failure f) inner
      ∧ after = { inner with callDepth := inner.callDepth - 1 } := by
  cases bound with
  | zero => cases h
  | succ bound =>
    change checkedDefine o k d (.bounded host bound) realm = _ at h
    by_cases hd : d.isValid
    · rw [checkedDefine_of_isValid hd] at h
      by_cases hl : realm.AtLimit
      · rw [Action.nested_of_atLimit hl] at h
        exact .inl (EStateM.Result.error.inj h).2.symm
      · refine .inr ⟨hd, hl, bound, ?_⟩
        match hx : Dispatch.defineOwnProperty o k d (.bounded host bound) realm.deeper with
        | .ok b inner =>
          rw [Action.nested_of_result hl hx] at h
          cases h
        | .error stop inner =>
          rw [Action.nested_of_stop hl hx] at h
          obtain ⟨rfl, rfl⟩ := EStateM.Result.error.inj h
          exact ⟨inner, rfl, rfl⟩
    · unfold checkedDefine at h
      rw [if_pos (by simpa using hd)] at h
      exact .inl (EStateM.Result.error.inj h).2.symm

end Define

/-! ### The end of a computation -/

/-- A computation ends in a realm, with a result or with a failure of the program. -/
def EndsIn (outcome : EStateM.Result Stop (Realm H) α) (after : Realm H) : Prop :=
  (∃ a, outcome = .ok a after) ∨ ∃ f, outcome = .error (.failure f) after

/-- A computation ends in a realm, with a result or with a failure that code can catch. -/
def EndsCaught (outcome : EStateM.Result Stop (Realm H) α) (after : Realm H) : Prop :=
  (∃ a, outcome = .ok a after)
    ∨ ∃ f : Failure, f.isCatchable ∧ outcome = .error (.failure f) after

section Ends

variable {s : Surroundings H} {outcome expected : EStateM.Result Stop (Realm H) α}
  {realm middle after : Realm H}

theorem Realm.Allows.leads (h : realm.Allows outcome) (he : EndsIn outcome after) :
    realm.Leads after := by
  rcases he with ⟨a, rfl⟩ | ⟨f, rfl⟩
  · exact h
  · exact h

theorem EndsCaught.endsIn (h : EndsCaught outcome after) : EndsIn outcome after :=
  h.imp id fun ⟨f, _, h⟩ => ⟨f, h⟩

theorem EndsIn.realm_eq {a : α} (h : EndsIn (.ok a middle) after) : middle = after := by
  rcases h with ⟨b, h⟩ | ⟨f, h⟩
  · exact (EStateM.Result.ok.inj h).2
  · cases h

theorem EndsIn.realm_eq_of_error {stop : Stop}
    (h : EndsIn (.error stop middle : EStateM.Result Stop (Realm H) α) after) : middle = after := by
  rcases h with ⟨b, h⟩ | ⟨f, h⟩
  · cases h
  · exact (EStateM.Result.error.inj h).2

/-- A computation that came to its end has the outcome that it is known to have. -/
theorem Gives.eq_of_endsIn {need bound : Nat} (h : Gives need bound outcome expected)
    (he : EndsIn outcome after) : outcome = expected := by
  rcases he with ⟨a, he⟩ | ⟨f, he⟩
  · exact he.trans (h.eq_of_ok he).symm
  · exact he.trans (h.eq_of_failure he).symm

/-- The first part of a computation that came to its end did so too. -/
theorem EndsIn.of_bind {β : Type} {x : Engine H α} {next : α → Engine H β}
    (he : EndsIn ((x >>= next).act s realm) after) : ∃ middle, EndsIn (x.act s realm) middle := by
  match hx : x.act s realm with
  | .ok a middle => exact ⟨middle, .inl ⟨a, rfl⟩⟩
  | .error (.failure f) middle => exact ⟨middle, .inr ⟨f, rfl⟩⟩
  | .error .exhausted middle =>
    rw [Engine.bind_of_error hx] at he
    rcases he with ⟨b, he⟩ | ⟨f, he⟩
    · cases he
    · cases he

theorem EndsCaught.of_shallower (he : EndsCaught (outcomeShallower outcome) after) :
    ∃ inner, EndsCaught outcome inner ∧ after = inner.atDepth (inner.callDepth - 1) := by
  match outcome, he with
  | .ok a inner, he => exact ⟨inner, .inl ⟨a, rfl⟩, (EndsIn.realm_eq he.endsIn).symm⟩
  | .error stop inner, .inl ⟨a, he⟩ => cases he
  | .error stop inner, .inr ⟨f, hf, he⟩ =>
    obtain ⟨rfl, rfl⟩ := EStateM.Result.error.inj he
    exact ⟨inner, .inr ⟨f, hf, rfl⟩, rfl⟩

theorem EndsCaught.of_bind_pure {β : Type} {x : Engine H α} {g : α → β}
    (he : EndsCaught ((x >>= fun a => pure (g a)).act s realm) after) :
    EndsCaught (x.act s realm) after := by
  match hx : x.act s realm with
  | .ok a middle =>
    rw [Engine.bind_of_ok hx] at he
    obtain rfl := EndsIn.realm_eq he.endsIn
    exact .inl ⟨a, rfl⟩
  | .error stop middle =>
    rw [Engine.bind_of_error hx] at he
    rcases he with ⟨b, he⟩ | ⟨f, hf, he⟩
    · cases he
    · cases he
      exact .inr ⟨f, hf, rfl⟩

theorem Engine.attempt_of_ok {x : Engine H α} {a : α} (h : x.act s realm = .ok a after) :
    (attempt x).act s realm = .ok (.ok a) after := by
  simp only [attempt, Routine.attempt, Action.attempt, h]

theorem Engine.attempt_of_failure {x : Engine H α} {failure : Failure}
    (h : x.act s realm = .error (.failure failure) after) :
    (attempt x).act s realm = .ok (.error failure) after := by
  simp only [attempt, Routine.attempt, Action.attempt, h]

theorem Engine.attempt_of_exhausted {x : Engine H α} (h : x.act s realm = .error .exhausted after) :
    (attempt x).act s realm = .error .exhausted after := by
  simp only [attempt, Routine.attempt, Action.attempt, h]

theorem Gives.attempt {need bound : Nat} {x : Engine H α} {a : α}
    (h : Gives need bound (x.act s realm) (.ok a after)) :
    Gives need bound ((Engine.attempt x).act s realm) (.ok (.ok a) after) := by
  rcases h with h | ⟨hb, r, h⟩
  · exact .inl (Engine.attempt_of_ok h)
  · exact .inr ⟨hb, r, Engine.attempt_of_exhausted h⟩

/-- A realm to which a computation leads has as much room for calls. -/
theorem Realm.Leads.deeper_atLimit (h : realm.Leads after) :
    after.deeper.AtLimit ↔ realm.deeper.AtLimit := by
  simp only [AtLimit, deeper, h.steps.config, h.callDepth]

end Ends

/-! ### Calls -/

/-- A call of an object that can be called. -/
theorem callFunction_act {behaviour : NativeBehaviour H} {s : Surroundings H} {realm : Realm H}
    {f : ObjectId} {object : Object H} (hf : realm.object? f = some object)
    (hc : object.kind.isCallable) (this : Value) (args : List Value) :
    (callFunction behaviour (.object f) this args).act s realm
      = (do
          checkTimeout
          nested (callKind behaviour f object.kind this args)).act s realm := by
  have htarget : (callTarget f).act s realm = .ok (some object.kind) realm := by
    unfold callTarget
    rw [Engine.bind_of_ok (getKind_of_some hf), if_pos hc]
    rfl
  exact Engine.bind_of_ok htarget

/-! ### A host without a program -/

/-- The types of a host that runs no code and remembers nothing. -/
def HostTypes.bare : HostTypes :=
  { Code := Unit, Body := Unit, Native := Unit, Job := Unit, Store := Unit
    json := .reading Json.NumberLiteral.nearest? }

/-- A host whose code does nothing, and whose generators return at once. -/
def Host.idle (body : H.Body) : Host H
  | .evaluate .. => return .empty
  | .generatorBody .. => return body
  | .resume body .. => return (.return .undefined, body)
  | .native .. => return .undefined
  | .job _ => return ()
  | .evaluateSource _ => return none
  | .createFunction .. => return none
  | .compileStrings _ => return .empty

/-- A host without a program. -/
def Host.bare : Host HostTypes.bare := .idle ()

end ScriptEngine
