import Mathlib.Algebra.GroupWithZero.Nat
import Mathlib.Order.Interval.Finset.Nat
import ScriptEngine.Proofs.Outcome

/-!
# The time charged to contexts

The time of an evaluation is kept in many places: each context adds up its own, the part that does
not count is noted with it, and what popped contexts used is kept apart. Contexts leave the stack
and come back with what they have added up, and the account is started anew while contexts run.
Whatever is done to a stack at whatever times, the total is the time during which the top of the
stack was running.

## Main definitions

* `StackOperation`, `Session`: what is done to a stack, and at what times.
* `Session.run`, `Session.runsAt`, `Session.lastReset`: the stack after a session, whether it was
  running at a time, and since when its time counts.
* `Context.Accounted`, `ContextStack.Accounted`: accumulators that are up to date.

## Main results

* `ContextStack.Accounted.perform`, `Session.accounted`: operations keep the accumulators up to
  date.
* `Session.elapsed_run`: the time charged is the time during which the top was running.
* `contexts_charge_running_time`: the two together, and that an operation that fails changes
  nothing.
-/

namespace ScriptEngine

variable {φ : Type}

/-! ### Sessions -/

/-- What can be done to a stack of contexts. -/
inductive StackOperation (φ : Type) where
  /-- Pushes a new context. -/
  | fresh (frame : φ)
  /-- Pushes a context that was made before, whatever it has added up since. -/
  | again (c : Context φ)
  | pop
  | suspend (id : Nat)
  | resume (id : Nat)
  | reset

/-- Carries out an operation. -/
def StackOperation.perform (s : ContextStack φ) (now : Nat) :
    StackOperation φ → Except Failure (ContextStack φ)
  | fresh frame =>
    let (c, s) := s.newContext frame
    .ok (s.push c now)
  | again c => .ok (s.push c now)
  | pop => (s.pop now).map Prod.snd
  | suspend id => s.suspend id now
  | resume id => s.resume id now
  | reset => .ok (s.resetAccounting now)

/-- Whether an operation starts a new account. -/
def StackOperation.isReset : StackOperation φ → Bool
  | reset => true
  | _ => false

/-- The stack after an operation, which may have failed. -/
def ContextStack.after (s : ContextStack φ) (now : Nat) (op : StackOperation φ) : ContextStack φ :=
  match op.perform s now with
  | .ok s => s
  | .error _ => s

/-- Operations on a stack that was empty at first, each with its time. -/
abbrev Session (φ : Type) := List (Nat × StackOperation φ)

namespace Session

/-- The stack after a session. -/
def run (session : Session φ) : ContextStack φ := session.foldl (fun s e => s.after e.1 e.2) {}

/-- The time of the last reset, zero if there was none. -/
def lastReset (session : Session φ) : Nat :=
  session.foldl (fun t e => if e.2.isReset then e.1 else t) 0

/-- Whether the top of the stack is running at a time, after all operations up to then. -/
def runsAt (session : Session φ) (t : Nat) : Bool :=
  (run (session.filter fun e => e.1 ≤ t)).isRunning

/-- Operations in the order of their times. -/
def InOrder (session : Session φ) : Prop := session.Pairwise fun a b => a.1 ≤ b.1

end Session

/-! ### One context -/

namespace Context

variable {c : Context φ} {now later : Nat}

/-- The accumulators of a context on the stack are up to date: no time before its last push or the
last reset counts, and it has been running since a time that has passed. -/
structure Accounted (c : Context φ) (now : Nat) : Prop where
  charged : c.activeAtPush ≤ c.activeTime now
  started : c.suspended = false → ∃ since, c.resumedAt = some since ∧ since ≤ now

theorem activeTime_of_suspended (h : c.suspended) (now : Nat) : c.activeTime now = c.active := by
  unfold activeTime
  split
  · rw [if_pos h]
  · rfl

@[simp] theorem activeTime_start (c : Context φ) (now later : Nat) :
    (c.start now).activeTime later = c.active + (later - now) :=
  rfl

/-- A suspended context that starts to run has used no time yet. -/
theorem charged_start_of_suspended (h : c.suspended) (now : Nat) :
    (c.start now).charged now = c.charged now := by
  rw [charged, activeTime_start, Nat.sub_self, Nat.add_zero, charged, activeTime_of_suspended h]
  rfl

theorem Accounted.activeTime_later (h : c.Accounted now) (hle : now ≤ later) :
    c.activeTime later = c.activeTime now + if c.suspended then 0 else later - now := by
  cases hs : c.suspended with
  | true => simp [activeTime_of_suspended hs]
  | false =>
    obtain ⟨since, hr, hsince⟩ := h.started hs
    simp only [activeTime, hr, hs, Bool.false_eq_true, if_false]
    omega

theorem Accounted.mono (h : c.Accounted now) (hle : now ≤ later) : c.Accounted later where
  charged := by
    rw [h.activeTime_later hle]
    exact Nat.le_add_right_of_le h.charged
  started hs := by
    obtain ⟨since, hr, hsince⟩ := h.started hs
    exact ⟨since, hr, hsince.trans hle⟩

/-- While time passes, it is charged to a running context. -/
theorem Accounted.charged_later (h : c.Accounted now) (hle : now ≤ later) :
    c.charged later = c.charged now + if c.suspended then 0 else later - now := by
  have hcharged := h.charged
  rw [Context.charged, h.activeTime_later hle, Context.charged]
  omega

theorem Accounted.stop (h : c.Accounted now) : (c.stop now).Accounted now := ⟨h.charged, nofun⟩

theorem Accounted.start (h : c.Accounted now) (hs : c.suspended) : (c.start now).Accounted now where
  charged := by
    have hcharged := h.charged
    rw [activeTime_of_suspended hs] at hcharged
    rw [activeTime_start]
    exact Nat.le_add_right_of_le hcharged
  started _ := ⟨now, rfl, le_refl now⟩

end Context

/-! ### The whole stack -/

namespace ContextStack

variable {s s' : ContextStack φ} {now later : Nat}

/-- Only the top may be running, and all accumulators are up to date. -/
structure Accounted (s : ContextStack φ) (now : Nat) : Prop where
  below : ∀ c ∈ s.contexts.tail, c.suspended
  each : ∀ c ∈ s.contexts, c.Accounted now

theorem elapsed_eq_sum (s : ContextStack φ) (now : Nat) :
    s.elapsed now = s.retired + (s.contexts.map (·.charged now)).sum := by
  have fold (contexts : List (Context φ)) (total : Nat) :
      contexts.foldl (fun total c => total + c.charged now) total
        = total + (contexts.map (·.charged now)).sum := by
    induction contexts generalizing total with
    | nil => rfl
    | cons c rest ih => rw [List.foldl_cons, ih, List.map_cons, List.sum_cons, Nat.add_assoc]
  exact fold s.contexts s.retired

theorem accounted_empty (now : Nat) : ({} : ContextStack φ).Accounted now := ⟨nofun, nofun⟩

theorem Accounted.mono (h : s.Accounted now) (hle : now ≤ later) : s.Accounted later :=
  ⟨h.below, fun c hc => (h.each c hc).mono hle⟩

/-- While time passes, it is charged if the top is running. -/
theorem Accounted.elapsed_later (h : s.Accounted now) (hle : now ≤ later) :
    s.elapsed later = s.elapsed now + if s.isRunning then later - now else 0 := by
  obtain ⟨contexts, lastId, retired⟩ := s
  rw [elapsed_eq_sum, elapsed_eq_sum]
  cases contexts with
  | nil => rfl
  | cons top rest =>
    have hrest : rest.map (·.charged later) = rest.map (·.charged now) :=
      List.map_congr_left fun c hc => by
        rw [(h.each c (List.mem_cons_of_mem top hc)).charged_later hle, if_pos (h.below c hc),
          Nat.add_zero]
    have htop := (h.each top List.mem_cons_self).charged_later hle
    have hrunning : isRunning ⟨top :: rest, lastId, retired⟩ = !top.suspended := rfl
    simp only [List.map_cons, List.sum_cons, hrest, htop, hrunning]
    rcases Bool.eq_false_or_eq_true top.suspended with hs | hs
    · simp only [hs, if_true, Bool.not_true, Bool.false_eq_true, if_false, Nat.add_zero]
    · simp only [hs, Bool.not_false, if_true, Bool.false_eq_true, if_false]
      omega

/-- A context that is put on top has used no time yet, and the time of its caller is added up. -/
theorem Accounted.push (h : s.Accounted now) (c : Context φ) :
    (s.push c now).Accounted now ∧ (s.push c now).elapsed now = s.elapsed now := by
  obtain ⟨contexts, lastId, retired⟩ := s
  rw [elapsed_eq_sum, elapsed_eq_sum]
  have started (suspendedCaller : Bool) : (({ c with
      suspendedCaller, activeAtPush := c.active } : Context φ).start now).Accounted now :=
    ⟨Nat.le_add_right _ _, fun _ => ⟨now, rfl, le_refl now⟩⟩
  have charged (suspendedCaller : Bool) : (({ c with
      suspendedCaller, activeAtPush := c.active } : Context φ).start now).charged now = 0 := by
    change c.active + (now - now) - c.active = 0
    omega
  cases contexts with
  | nil =>
    refine ⟨⟨nofun, fun c' hc' => ?_⟩, ?_⟩
    · rw [List.mem_singleton.mp hc']
      exact started false
    · simp only [ContextStack.push, List.map_cons, List.map_nil, List.sum_cons, List.sum_nil,
        charged, Nat.add_zero]
  | cons caller rest =>
    have hcaller := h.each caller List.mem_cons_self
    -- the caller is suspended in any case, and what it is charged stays the same
    have below : (if caller.suspended then caller else caller.stop now).suspended = true
        ∧ (if caller.suspended then caller else caller.stop now).Accounted now
        ∧ (if caller.suspended then caller else caller.stop now).charged now
          = caller.charged now := by
      cases hs : caller.suspended with
      | true => exact ⟨hs, hcaller, rfl⟩
      | false => exact ⟨rfl, hcaller.stop, rfl⟩
    refine ⟨⟨fun c' hc' => ?_, fun c' hc' => ?_⟩, ?_⟩
    · rcases List.mem_cons.mp hc' with rfl | hc'
      · exact below.1
      · exact h.below c' hc'
    · rcases List.mem_cons.mp hc' with rfl | hc'
      · exact started _
      · rcases List.mem_cons.mp hc' with rfl | hc'
        · exact below.2.1
        · exact h.each c' (List.mem_cons_of_mem caller hc')
    · simp only [ContextStack.push, List.map_cons, List.sum_cons, charged, below.2.2, Nat.zero_add]

/-- What the top was charged is retired, and a caller that it suspended runs on. -/
theorem Accounted.pop {c : Context φ} (h : s.Accounted now) (hp : s.pop now = .ok (c, s')) :
    s'.Accounted now ∧ s'.elapsed now = s.elapsed now := by
  obtain ⟨contexts, lastId, retired⟩ := s
  cases contexts with
  | nil => cases hp
  | cons top rest =>
    rw [elapsed_eq_sum, elapsed_eq_sum]
    obtain ⟨-, rfl⟩ := Prod.mk.inj (Except.ok.inj hp)
    cases rest with
    | nil =>
      refine ⟨⟨nofun, nofun⟩, ?_⟩
      simp [Context.stop, Context.charged]
    | cons caller below =>
      have hcaller := h.each caller (List.mem_cons_of_mem top List.mem_cons_self)
      have hs : caller.suspended := h.below caller List.mem_cons_self
      have hbelow : ∀ c ∈ below, c.suspended = true ∧ c.Accounted now := fun c hc =>
        ⟨h.below c (List.mem_cons_of_mem caller hc),
          h.each c (List.mem_cons_of_mem top (List.mem_cons_of_mem caller hc))⟩
      cases hc : (top.stop now).suspendedCaller with
      | true =>
        simp only [if_true]
        refine ⟨⟨fun c' hc' => (hbelow c' hc').1, fun c' hc' => ?_⟩, ?_⟩
        · rcases List.mem_cons.mp hc' with rfl | hc'
          · exact hcaller.start hs
          · exact (hbelow c' hc').2
        · simp only [List.map_cons, List.sum_cons, Context.charged_start_of_suspended hs]
          simp only [Context.stop, Context.charged]
          omega
      | false =>
        simp only [Bool.false_eq_true, if_false]
        refine ⟨⟨fun c' hc' => (hbelow c' hc').1, fun c' hc' => ?_⟩, ?_⟩
        · rcases List.mem_cons.mp hc' with rfl | hc'
          · exact hcaller
          · exact (hbelow c' hc').2
        · simp only [List.map_cons, List.sum_cons]
          simp only [Context.stop, Context.charged]
          omega

/-- Another top with the same charge. -/
theorem Accounted.replaceTop {top top' : Context φ} {rest : List (Context φ)} (h : s.Accounted now)
    (hs : s.contexts = top :: rest) (ht : top'.Accounted now)
    (hc : top'.charged now = top.charged now) :
    ({ s with contexts := top' :: rest } : ContextStack φ).Accounted now
      ∧ ({ s with contexts := top' :: rest } : ContextStack φ).elapsed now = s.elapsed now := by
  rw [elapsed_eq_sum, elapsed_eq_sum, hs]
  have hbelow := h.below
  rw [hs] at hbelow
  refine ⟨⟨hbelow, fun c hmem => ?_⟩, ?_⟩
  · rcases List.mem_cons.mp hmem with rfl | hmem
    · exact ht
    · exact h.each c (hs ▸ List.mem_cons_of_mem top hmem)
  · simp only [List.map_cons, List.sum_cons, hc]

theorem Accounted.suspend {id : Nat} (h : s.Accounted now) (hs : s.suspend id now = .ok s') :
    s'.Accounted now ∧ s'.elapsed now = s.elapsed now := by
  obtain ⟨top, rest, hcontexts, -, -, rfl⟩ := suspend_eq_ok.mp hs
  have htop := h.each top (hcontexts ▸ List.mem_cons_self)
  exact h.replaceTop hcontexts htop.stop rfl

theorem Accounted.resume {id : Nat} (h : s.Accounted now) (hs : s.resume id now = .ok s') :
    s'.Accounted now ∧ s'.elapsed now = s.elapsed now := by
  obtain ⟨top, rest, hcontexts, -, hsuspended, rfl⟩ := resume_eq_ok.mp hs
  have htop := h.each top (hcontexts ▸ List.mem_cons_self)
  exact h.replaceTop hcontexts (htop.start hsuspended)
    (Context.charged_start_of_suspended hsuspended now)

/-- A new account starts at zero. -/
theorem Accounted.resetAccounting (h : s.Accounted now) :
    (s.resetAccounting now).Accounted now ∧ (s.resetAccounting now).elapsed now = 0 := by
  refine ⟨⟨fun c hc => ?_, fun c hc => ?_⟩, ?_⟩
  · simp only [ContextStack.resetAccounting, ← List.map_tail, List.mem_map] at hc
    obtain ⟨c', hc', rfl⟩ := hc
    exact h.below c' hc'
  · obtain ⟨c', hc', rfl⟩ := List.mem_map.mp hc
    exact ⟨le_refl _, (h.each c' hc').started⟩
  · have zero (c : Context φ) :
        ({ c with activeAtPush := c.activeTime now } : Context φ).charged now = 0 :=
      Nat.sub_self _
    rw [elapsed_eq_sum]
    simp [ContextStack.resetAccounting, Function.comp_def, zero]

/-- What one operation does to the accounts. -/
theorem Accounted.perform {op : StackOperation φ} (h : s.Accounted now)
    (hp : op.perform s now = .ok s') :
    s'.Accounted now ∧ s'.elapsed now = if op.isReset then 0 else s.elapsed now := by
  cases op with
  | fresh frame =>
    cases hp
    exact Accounted.push (s := { s with lastId := s.lastId + 1 }) ⟨h.below, h.each⟩ _
  | again c =>
    cases hp
    exact h.push c
  | pop =>
    cases hpop : s.pop now with
    | error f =>
      rw [StackOperation.perform, hpop] at hp
      cases hp
    | ok pair =>
      rw [StackOperation.perform, hpop] at hp
      cases hp
      exact h.pop hpop
  | suspend id => exact h.suspend hp
  | resume id => exact h.resume hp
  | reset =>
    cases hp
    exact h.resetAccounting

/-- An operation that fails leaves the accounts alone, and so does every other. -/
theorem Accounted.after (h : s.Accounted now) (op : StackOperation φ) :
    (s.after now op).Accounted now
      ∧ (s.after now op).elapsed now = if op.isReset then 0 else s.elapsed now := by
  unfold ContextStack.after
  split
  · next s' hp => exact h.perform hp
  · next f hp =>
    have hreset : op.isReset = false := by
      cases op with
      | reset => cases hp
      | _ => rfl
    rw [hreset]
    exact ⟨h, rfl⟩

end ContextStack

/-! ### Sessions and their time -/

namespace Session

variable {session : Session φ} {now t : Nat} {op : StackOperation φ}

theorem run_append (session : Session φ) (t : Nat) (op : StackOperation φ) :
    run (session ++ [(t, op)]) = (run session).after t op := by
  simp only [run, List.foldl_append, List.foldl_cons, List.foldl_nil]

theorem lastReset_append (session : Session φ) (t : Nat) (op : StackOperation φ) :
    lastReset (session ++ [(t, op)]) = if op.isReset then t else lastReset session := by
  simp only [lastReset, List.foldl_append, List.foldl_cons, List.foldl_nil]

/-- Before an operation its effect does not show. -/
theorem runsAt_append_of_lt {u : Nat} (h : u < t) :
    runsAt (session ++ [(t, op)]) u = runsAt session u := by
  unfold runsAt
  rw [List.filter_append, List.filter_cons_of_neg (by simpa using h), List.filter_nil,
    List.append_nil]

/-- From the last operation on, the stack is that of the whole session. -/
theorem runsAt_of_le {u : Nat} (h : ∀ e ∈ session, e.1 ≤ u) :
    runsAt session u = (run session).isRunning := by
  unfold runsAt
  rw [List.filter_eq_self.mpr fun e he => by simpa using h e he]

theorem lastReset_le (h : ∀ e ∈ session, e.1 ≤ t) : lastReset session ≤ t := by
  induction session using List.reverseRecOn with
  | nil => exact Nat.zero_le t
  | append_singleton session e ih =>
    obtain ⟨u, op⟩ := e
    rw [lastReset_append]
    split
    · exact h (u, op) (by simp)
    · exact ih fun e he => h e (List.mem_append_left _ he)

theorem inOrder_append (h : InOrder (session ++ [(t, op)])) :
    InOrder session ∧ ∀ e ∈ session, e.1 ≤ t := by
  obtain ⟨hsession, -, hlast⟩ := List.pairwise_append.mp h
  exact ⟨hsession, fun e he => hlast e he (t, op) (by simp)⟩

/-- Operations in order keep the accumulators up to date. -/
theorem accounted (hs : InOrder session) (hn : ∀ e ∈ session, e.1 ≤ now) :
    (run session).Accounted now := by
  induction session using List.reverseRecOn generalizing now with
  | nil => exact ContextStack.accounted_empty now
  | append_singleton session e ih =>
    obtain ⟨t, op⟩ := e
    obtain ⟨hsession, hbefore⟩ := inOrder_append hs
    rw [run_append]
    exact ((ih hsession hbefore).after op).1.mono (hn (t, op) (by simp))

/-- The instants from one time to another at which the top is running. -/
def runningTime (session : Session φ) (start stop : Nat) : Nat :=
  ((Finset.Ico start stop).filter fun t => runsAt session t).card

theorem runningTime_self (session : Session φ) (t : Nat) : runningTime session t t = 0 := by
  simp [runningTime]

theorem runningTime_split (session : Session φ) {start middle stop : Nat} (h : start ≤ middle)
    (h' : middle ≤ stop) :
    runningTime session start stop
      = runningTime session start middle + runningTime session middle stop := by
  unfold runningTime
  rw [← Finset.Ico_union_Ico_eq_Ico h h', Finset.filter_union, Finset.card_union_of_disjoint]
  exact Finset.disjoint_filter_filter (Finset.Ico_disjoint_Ico_consecutive start middle stop)

/-- An operation does not change what was running before it. -/
theorem runningTime_append (session : Session φ) (op : StackOperation φ) (start t : Nat) :
    runningTime (session ++ [(t, op)]) start t = runningTime session start t := by
  unfold runningTime
  refine congrArg Finset.card (Finset.filter_congr fun u hu => ?_)
  rw [runsAt_append_of_lt (Finset.mem_Ico.mp hu).2]

/-- After the last operation the top runs all the time or not at all. -/
theorem runningTime_of_le (h : ∀ e ∈ session, e.1 ≤ t) (now : Nat) :
    runningTime session t now = if (run session).isRunning then now - t else 0 := by
  have hall (u : Nat) (hu : u ∈ Finset.Ico t now) :
      runsAt session u = (run session).isRunning :=
    runsAt_of_le fun e he => (h e he).trans (Finset.mem_Ico.mp hu).1
  unfold runningTime
  split
  · next hr =>
    rw [Finset.filter_true_of_mem fun u hu => (hall u hu).trans hr, Nat.card_Ico]
  · next hr =>
    rw [Finset.filter_false_of_mem fun u hu => (hall u hu) ▸ hr, Finset.card_empty]

/-- The time charged is the time since the last reset during which the top was running. -/
theorem elapsed_run (hs : InOrder session) (hn : ∀ e ∈ session, e.1 ≤ now) :
    (run session).elapsed now = runningTime session (lastReset session) now := by
  induction session using List.reverseRecOn generalizing now with
  | nil =>
    have hnone : ∀ e ∈ ([] : Session φ), e.1 ≤ lastReset ([] : Session φ) := nofun
    rw [runningTime_of_le hnone now]
    rfl
  | append_singleton session e ih =>
    obtain ⟨t, op⟩ := e
    obtain ⟨hsession, hbefore⟩ := inOrder_append hs
    have hall : ∀ e ∈ session ++ [(t, op)], e.1 ≤ t := fun e he => by
      rcases List.mem_append.mp he with he | he
      · exact hbefore e he
      · rw [List.mem_singleton.mp he]
    have ht : t ≤ now := hn (t, op) (by simp)
    -- the charge at the time of the operation, and what is added from then on
    obtain ⟨hafter, hcharge⟩ := (accounted hsession hbefore).after op
    have hlater := hafter.elapsed_later ht
    rw [← run_append] at hlater hcharge
    rw [hlater, hcharge, runningTime_split _ (lastReset_le hall) ht, runningTime_of_le hall,
      runningTime_append, lastReset_append]
    congr 1
    split
    · rw [runningTime_self]
    · exact ih hsession hbefore

end Session

/-! ### Operations that fail -/

variable {H : HostTypes}

/-- The operation is refused: there is no context, or the top is not the one that is meant, or it is
suspended or running already. -/
def StackOperation.Refused (s : ContextStack φ) : StackOperation φ → Prop
  | pop => s.top? = none
  | suspend id => ¬∃ top, s.top? = some top ∧ top.id = id ∧ top.suspended = false
  | resume id => ¬∃ top, s.top? = some top ∧ top.id = id ∧ top.suspended = true
  | _ => False

/-- Carries out an operation on the contexts of a realm. -/
def StackOperation.apply (op : StackOperation (Frame H)) (realm : Realm H) :
    Except Failure Unit × Realm H :=
  realm.changeContexts fun s now => (op.perform s now).map ((), ·)

theorem StackOperation.exists_perform_iff (op : StackOperation φ) (s : ContextStack φ) (now : Nat) :
    (∃ s', op.perform s now = .ok s') ↔ ¬op.Refused s := by
  cases op with
  | fresh frame => simp [perform, Refused]
  | again c => simp [perform, Refused]
  | reset => simp [perform, Refused]
  | pop =>
    unfold perform Refused ContextStack.pop ContextStack.top?
    cases s.contexts <;> simp [Except.map]
  | suspend id =>
    simp only [perform, Refused, ContextStack.suspend_eq_ok, ContextStack.top?, not_not]
    cases s.contexts <;> simp
  | resume id =>
    simp only [perform, Refused, ContextStack.resume_eq_ok, ContextStack.top?, not_not]
    cases s.contexts <;> simp

/-- An operation that is refused leaves the realm as it was, and all others succeed. -/
theorem StackOperation.apply_cases (op : StackOperation (Frame H)) (realm : Realm H) :
    (op.Refused realm.contexts ∧ ∃ f, op.apply realm = (.error f, realm))
      ∨ (¬op.Refused realm.contexts
        ∧ op.apply realm
          = (.ok (), { realm.looked with contexts := realm.contexts.after realm.clock op })) := by
  have hperform := op.exists_perform_iff realm.contexts realm.clock
  unfold apply Realm.changeContexts ContextStack.after
  dsimp only
  cases hp : op.perform realm.contexts realm.clock with
  | ok s => exact .inr ⟨hperform.mp ⟨s, hp⟩, rfl⟩
  | error f =>
    refine .inl ⟨by_contra fun hrefused => ?_, f, rfl⟩
    obtain ⟨s, hs⟩ := hperform.mpr hrefused
    exact nomatch hp.symm.trans hs

/-- After every session in order of time only the top of the stack may be running, and the time
charged is the time since the last reset during which the stack had a running top. An operation
fails exactly if it is refused, and then it leaves the whole realm as it was. -/
theorem contexts_charge_running_time (session : Session (Frame H)) (now : Nat)
    (hs : session.InOrder) (hn : ∀ e ∈ session, e.1 ≤ now) :
    (∀ c ∈ session.run.contexts.tail, c.suspended = true)
      ∧ session.run.elapsed now = session.runningTime session.lastReset now
      ∧ ∀ (op : StackOperation (Frame H)) (realm : Realm H),
        (op.Refused realm.contexts ∧ ∃ f, op.apply realm = (.error f, realm))
          ∨ (¬op.Refused realm.contexts ∧ op.apply realm
            = (.ok (), { realm.looked with contexts := realm.contexts.after realm.clock op })) :=
  ⟨(Session.accounted hs hn).below, Session.elapsed_run hs hn, StackOperation.apply_cases⟩

/-- A context comes back with the time it had added up, after a reset while it was on the stack, and
is popped while it is suspended. -/
def resumedSession : Session (Frame HostTypes.bare) :=
  [(0, .fresh {}), (2, .suspend 1), (5, .resume 1), (6, .fresh {}), (7, .reset), (9, .pop),
    (10, .again { id := 2, frame := {}, active := 3 }), (11, .suspend 2), (12, .resume 1),
    (13, .pop)]

/-- Eight time units after the reset, two of which were spent with the top suspended. -/
theorem contexts_charge_running_time_resumedSession :
    resumedSession.InOrder ∧ (∀ e ∈ resumedSession, e.1 ≤ 15)
      ∧ resumedSession.lastReset = 7 ∧ resumedSession.runningTime 7 15 = 6
      ∧ resumedSession.run.elapsed 15 = 6 := by
  have hs : resumedSession.InOrder := by
    unfold Session.InOrder
    decide
  have hn : ∀ e ∈ resumedSession, e.1 ≤ 15 := by decide
  have htime : resumedSession.runningTime 7 15 = 6 := by decide
  obtain ⟨-, helapsed, -⟩ := contexts_charge_running_time resumedSession 15 hs hn
  exact ⟨hs, hn, rfl, htime, helapsed.trans htime⟩

end ScriptEngine
