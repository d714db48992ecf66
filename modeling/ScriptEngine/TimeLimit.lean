import ScriptEngine.Step

/-!
# The time limit

An evaluation passes checkpoints on its way. Only every so many of them look at the clock, and only
while the top context is running; an evaluation that has used more than its time is stopped there,
and with it the realm, for good. All that checkpoints remember is their number since the last look
at the clock and the time at which the realm was stopped. Nothing but a checkpoint changes either,
except that an evaluation starts to count anew.

## Main definitions

* `Realm.elapsedMs`: the time that the current evaluation has used.
* `Realm.passCheckpoint`: a checkpoint.
* `Realm.Untimed`, `Realm.Restarts`: changes that have nothing to do with the time limit, or that
  start to count anew at most.
-/

namespace ScriptEngine

namespace Realm

variable {H : HostTypes} {realm middle after : Realm H}

/-! ### Checkpoints -/

/-- The whole milliseconds that the current evaluation has used. -/
def elapsedMs (realm : Realm H) : Nat := realm.contexts.elapsed realm.clock / 1000000

/-- Passes a checkpoint. A realm that was stopped fails at once. Otherwise, where a time limit is
set and the top context is running, every so many checkpoints the clock is looked at and the time
used is compared with the limit; exceeding it stops the realm for good. -/
def passCheckpoint (realm : Realm H) : Except Failure Unit × Realm H :=
  match realm.aborted with
  | some elapsed => (.error (.timeout realm.config.timeoutMs elapsed), realm)
  | none =>
    if realm.config.timeoutMs = 0 ∨ !realm.contexts.isRunning then (.ok (), realm)
    else if realm.checkpoints + 1 < max realm.config.checkInterval 1 then
      (.ok (), { realm with checkpoints := realm.checkpoints + 1 })
    else if realm.config.timeoutMs < realm.elapsedMs then
      (.error (.timeout realm.config.timeoutMs realm.elapsedMs),
        { realm.looked with checkpoints := 0, aborted := some realm.elapsedMs })
    else (.ok (), { realm.looked with checkpoints := 0 })

section Cases

variable {elapsed : Nat}

theorem passCheckpoint_of_stopped (ha : realm.aborted = some elapsed) :
    realm.passCheckpoint = (.error (.timeout realm.config.timeoutMs elapsed), realm) := by
  simp only [passCheckpoint, ha]

theorem passCheckpoint_of_idle (ha : realm.aborted = none)
    (hi : realm.config.timeoutMs = 0 ∨ !realm.contexts.isRunning) :
    realm.passCheckpoint = (.ok (), realm) := by
  simp only [passCheckpoint, ha]
  exact if_pos hi

/-- A checkpoint that does not look at the clock. -/
theorem passCheckpoint_of_early (ha : realm.aborted = none)
    (hi : ¬(realm.config.timeoutMs = 0 ∨ !realm.contexts.isRunning))
    (he : realm.checkpoints + 1 < max realm.config.checkInterval 1) :
    realm.passCheckpoint = (.ok (), { realm with checkpoints := realm.checkpoints + 1 }) := by
  simp only [passCheckpoint, ha]
  rw [if_neg hi, if_pos he]

theorem passCheckpoint_of_late (ha : realm.aborted = none)
    (hi : ¬(realm.config.timeoutMs = 0 ∨ !realm.contexts.isRunning))
    (he : ¬realm.checkpoints + 1 < max realm.config.checkInterval 1)
    (hl : realm.config.timeoutMs < realm.elapsedMs) :
    realm.passCheckpoint = (.error (.timeout realm.config.timeoutMs realm.elapsedMs),
      { realm.looked with checkpoints := 0, aborted := some realm.elapsedMs }) := by
  simp only [passCheckpoint, ha]
  rw [if_neg hi, if_neg he, if_pos hl]

theorem passCheckpoint_of_inTime (ha : realm.aborted = none)
    (hi : ¬(realm.config.timeoutMs = 0 ∨ !realm.contexts.isRunning))
    (he : ¬realm.checkpoints + 1 < max realm.config.checkInterval 1)
    (hl : ¬realm.config.timeoutMs < realm.elapsedMs) :
    realm.passCheckpoint = (.ok (), { realm.looked with checkpoints := 0 }) := by
  simp only [passCheckpoint, ha]
  rw [if_neg hi, if_neg he, if_neg hl]

end Cases

/-- Checkpoints do not look at the depth of calls. -/
theorem passCheckpoint_atDepth (realm : Realm H) (depth : Nat) :
    (realm.atDepth depth).passCheckpoint
      = (realm.passCheckpoint.1, realm.passCheckpoint.2.atDepth depth) := by
  cases ha : realm.aborted with
  | some elapsed =>
    have hd : (realm.atDepth depth).aborted = some elapsed := ha
    rw [passCheckpoint_of_stopped ha, passCheckpoint_of_stopped hd]
    rfl
  | none =>
    have hd : (realm.atDepth depth).aborted = none := ha
    by_cases hi : realm.config.timeoutMs = 0 ∨ !realm.contexts.isRunning
    · rw [passCheckpoint_of_idle ha hi, passCheckpoint_of_idle hd hi]
    by_cases he : realm.checkpoints + 1 < max realm.config.checkInterval 1
    · rw [passCheckpoint_of_early ha hi he, passCheckpoint_of_early hd hi he]
      rfl
    by_cases hl : realm.config.timeoutMs < realm.elapsedMs
    · rw [passCheckpoint_of_late ha hi he hl, passCheckpoint_of_late hd hi he hl]
      rfl
    · rw [passCheckpoint_of_inTime ha hi he hl, passCheckpoint_of_inTime hd hi he hl]
      rfl

/-- A checkpoint passes, and at most counts and looks at the clock, or the time is up. -/
theorem passCheckpoint_cases (realm : Realm H) :
    (∃ n time, realm.passCheckpoint = (.ok (), { realm with checkpoints := n, time }))
      ∨ ∃ elapsed n time, realm.passCheckpoint
          = (.error (.timeout realm.config.timeoutMs elapsed),
            { realm with checkpoints := n, time, aborted := some elapsed }) := by
  obtain ha | ⟨elapsed, ha⟩ := realm.aborted.eq_none_or_eq_some
  · by_cases hi : realm.config.timeoutMs = 0 ∨ !realm.contexts.isRunning
    · exact .inl ⟨realm.checkpoints, realm.time, passCheckpoint_of_idle ha hi⟩
    by_cases he : realm.checkpoints + 1 < max realm.config.checkInterval 1
    · exact .inl ⟨_, realm.time, passCheckpoint_of_early ha hi he⟩
    by_cases hl : realm.config.timeoutMs < realm.elapsedMs
    · exact .inr ⟨_, 0, realm.time.looked, passCheckpoint_of_late ha hi he hl⟩
    · exact .inl ⟨0, realm.time.looked, passCheckpoint_of_inTime ha hi he hl⟩
  · have hsame : realm = { realm with aborted := some elapsed } := by rw [← ha]
    exact .inr ⟨elapsed, realm.checkpoints, realm.time,
      (passCheckpoint_of_stopped ha).trans (by rw [← hsame])⟩

/-! ### Other changes -/

/-- Realms that do not differ in what checkpoints go by, beside the time used. -/
structure Untimed (realm after : Realm H) : Prop where
  config : after.config = realm.config
  checkpoints : after.checkpoints = realm.checkpoints
  aborted : after.aborted = realm.aborted

theorem Untimed.refl (realm : Realm H) : realm.Untimed realm := ⟨rfl, rfl, rfl⟩

theorem Untimed.trans (h : realm.Untimed middle) (h' : middle.Untimed after) :
    realm.Untimed after :=
  ⟨h'.config.trans h.config, h'.checkpoints.trans h.checkpoints, h'.aborted.trans h.aborted⟩

/-- Realms that do not differ in what checkpoints go by, unless it is that they count anew. -/
structure Restarts (realm after : Realm H) : Prop where
  config : after.config = realm.config
  checkpoints : after.checkpoints = realm.checkpoints ∨ after.checkpoints = 0
  aborted : after.aborted = realm.aborted

theorem Untimed.restarts (h : realm.Untimed after) : realm.Restarts after :=
  ⟨h.config, .inl h.checkpoints, h.aborted⟩

end Realm
end ScriptEngine
