import ScriptEngine.Conduct

/-!
# Computations of the engine

An operation of the engine reads and changes a realm and may fail. Operations are mutually
recursive through the program they run: reading a property may call a getter, which may read
properties. The recursion is open: an operation sends a `Request` to its surroundings and gets the
answer back, so every operation is defined by itself and the knot is tied once, with a bound on the
nesting of requests.

## Main definitions

* `Request`, `HostRequest`: what an operation asks of the engine and of the host.
* `Action`: a computation in a realm and surroundings.
* `Action.checkpoint`, `Action.Timed`: what computations have to do with the time limit.
* `Routine`: a computation that takes only steps of a realm, does not look at the depth of calls,
  and treats promises and generators as computations may.
* `Engine`: such a computation of the engine itself, which leaves the contexts in balance.
* `Stop`: a failure of the program, or a bound that was too small.
* `Engine.transition`, `Engine.bracket`: changes of a realm, also around a computation.
* `Engine.ask`, `Engine.askHost`: sending a request.
* `Engine.attempt`, `Engine.nested`, `Engine.checkTimeout`, `Engine.loop`: control.
-/

namespace ScriptEngine

/-- Why a computation stops without a result. Running out of the bound on nesting is no outcome of
the program: a larger bound may still give one. -/
inductive Stop where
  | failure (f : Failure)
  | exhausted
deriving DecidableEq

/-! ### Requests -/

/-- What the engine asks of the host. -/
inductive HostRequest (H : HostTypes) where
  /-- Runs the code of a function in a context that has been set up for it. -/
  | evaluate (code : H.Code) (function : ObjectId) (args : List Value)
  /-- Prepares the body of a generator. -/
  | generatorBody (code : H.Code) (function : ObjectId) (args : List Value)
  /-- Runs a generator up to its next step. -/
  | resume (body : H.Body) (generator : ObjectId) (completion : Completion)
  /-- Runs a function of the host. -/
  | native (native : H.Native) (this : Value) (args : List Value) (newTarget : Option ObjectId)
  /-- Runs a job of the host. -/
  | job (job : H.Job)
  /-- Evaluates source text; a host without an evaluator declines. -/
  | evaluateSource (source : String)
  /-- Makes a function from source text; a host without an evaluator declines. -/
  | createFunction (kind : CodeKind) (parameters : List String) (body : String)
  /-- Permits or, by throwing, forbids the evaluation of source text. -/
  | compileStrings (source : String)

/-- What the host answers. -/
abbrev HostRequest.Answer {H : HostTypes} : HostRequest H → Type
  | evaluate .. => Completion
  | generatorBody .. => H.Body
  | resume .. => GeneratorStep × H.Body
  | native .. => Value
  | job _ => Unit
  | evaluateSource _ => Option Value
  | createFunction .. => Option ObjectId
  | compileStrings _ => Completion

/-- What an operation asks of its surroundings: an internal method of an object, a call, or
something of the host. -/
inductive Request (H : HostTypes) where
  | getPrototypeOf (o : ObjectId)
  | setPrototypeOf (o : ObjectId) (prototype : Option ObjectId)
  | isExtensible (o : ObjectId)
  | preventExtensions (o : ObjectId)
  | getOwnProperty (o : ObjectId) (k : PropertyKey)
  | defineOwnProperty (o : ObjectId) (k : PropertyKey) (d : Descriptor)
  | hasProperty (o : ObjectId) (k : PropertyKey)
  | get (o : ObjectId) (k : PropertyKey) (receiver : Value)
  | set (o : ObjectId) (k : PropertyKey) (v : Value) (receiver : Value)
  | delete (o : ObjectId) (k : PropertyKey)
  | ownKeys (o : ObjectId)
  | call (f this : Value) (args : List Value)
  | construct (f : ObjectId) (args : List Value) (newTarget : ObjectId)
  | host (request : HostRequest H)

/-- What the surroundings answer. -/
abbrev Request.Answer {H : HostTypes} : Request H → Type
  | getPrototypeOf _ => Option ObjectId
  | setPrototypeOf .. => Bool
  | isExtensible _ => Bool
  | preventExtensions _ => Bool
  | getOwnProperty .. => Option Descriptor
  | defineOwnProperty .. => Bool
  | hasProperty .. => Bool
  | get .. => Value
  | set .. => Bool
  | delete .. => Bool
  | ownKeys _ => List PropertyKey
  | call .. => Value
  | construct .. => ObjectId
  | host request => request.Answer

/-! ### Computations -/

/-- A computation that reads and changes a realm and keeps its changes when it stops. -/
abbrev Effect (H : HostTypes) := EStateM Stop (Realm H)

/-- The surroundings of an operation. -/
structure Surroundings (H : HostTypes) where
  /-- How often a loop may go round. -/
  fuel : Nat
  /-- Answers a request. -/
  perform : (r : Request H) → Effect H r.Answer

/-- A computation in surroundings of which nothing is known. The internal methods that write to an
object are such. -/
abbrev Action (H : HostTypes) := ReaderT (Surroundings H) (Effect H)

variable {H : HostTypes} {α β σ : Type}

namespace Action

/-- One computation after another. -/
@[inline] def andThen (x : Action H α) (f : α → Action H β) : Action H β :=
    fun surroundings realm =>
  match x surroundings realm with
  | .ok a realm => f a surroundings realm
  | .error e realm => .error e realm

/-- The result, or the failure that was met. -/
def attempt (x : Action H α) : Action H (Except Failure α) := fun surroundings realm =>
  match x surroundings realm with
  | .ok a realm => .ok (.ok a) realm
  | .error (.failure f) realm => .ok (.error f) realm
  | .error .exhausted realm => .error .exhausted realm

/-- Runs a computation one level deeper, if the limit on the depth of calls allows it. -/
def nested (x : Action H α) : Action H α := fun surroundings realm =>
  let limit := realm.config.maxCallDepth
  if limit ≠ 0 ∧ limit ≤ realm.callDepth then
    .error (.failure (.rangeError "Maximum call stack size exceeded")) realm
  else
    match x surroundings { realm with callDepth := realm.callDepth + 1 } with
    | .ok a realm => .ok a { realm with callDepth := realm.callDepth - 1 }
    | .error e realm => .error e { realm with callDepth := realm.callDepth - 1 }

/-- Makes a change of the realm as code sees it. -/
def transition (f : Realm H → Except Failure α × Realm H) : Action H α := fun _ realm =>
  match f realm.seen with
  | (.ok a, after) => .ok a (after.atDepth realm.callDepth)
  | (.error failure, after) => .error (.failure failure) (after.atDepth realm.callDepth)

/-- Passes a checkpoint. -/
def checkpoint : Action H Unit := fun _ realm =>
  match realm.passCheckpoint with
  | (.ok (), after) => .ok () after
  | (.error failure, after) => .error (.failure failure) after

end Action

/-- Whether an outcome is one to which steps lead. Where the bound on nesting was too small there
is no outcome. -/
def Realm.Allows (realm : Realm H) : EStateM.Result Stop (Realm H) α → Prop
  | .ok _ after => realm.Leads after
  | .error (.failure _) after => realm.Leads after
  | .error .exhausted _ => True

theorem Realm.Leads.allows {realm middle : Realm H} {result : EStateM.Result Stop (Realm H) α}
    (h : realm.Leads middle) (h' : middle.Allows result) : realm.Allows result := by
  match result, h' with
  | .ok _ _, h' => exact h.trans h'
  | .error (.failure _) _, h' => exact h.trans h'
  | .error .exhausted _, _ => trivial

/-- Surroundings whose answers take steps only, in a realm with its storage as it should be. -/
def Surroundings.Lawful (surroundings : Surroundings H) : Prop :=
  ∀ (r : Request H) (realm : Realm H), realm.Sound → realm.Allows (surroundings.perform r realm)

/-- A computation that takes steps only, if the answers to its requests do. -/
def Action.Lawful (x : Action H α) : Prop :=
  ∀ surroundings : Surroundings H, surroundings.Lawful →
    ∀ realm : Realm H, realm.Sound → realm.Allows (x surroundings realm)

/-- The realm of an outcome. -/
def outcomeRealm : EStateM.Result Stop (Realm H) α → Realm H
  | .ok _ realm => realm
  | .error _ realm => realm

/-- An outcome with its realm at another depth of calls. -/
def outcomeAtDepth (depth : Nat) :
    EStateM.Result Stop (Realm H) α → EStateM.Result Stop (Realm H) α
  | .ok a realm => .ok a (realm.atDepth depth)
  | .error stop realm => .error stop (realm.atDepth depth)

/-- An outcome with its realm one level of calls less deep. -/
def outcomeShallower : EStateM.Result Stop (Realm H) α → EStateM.Result Stop (Realm H) α
  | .ok a realm => .ok a (realm.atDepth (realm.callDepth - 1))
  | .error stop realm => .error stop (realm.atDepth (realm.callDepth - 1))

/-- A computation that leaves the limits alone and, where the depth of calls is not limited, is the
same at every depth. -/
structure Effect.Blind (x : Effect H α) : Prop where
  config : ∀ realm, (outcomeRealm (x realm)).config = realm.config
  same : ∀ realm, realm.config.maxCallDepth = 0 →
    ∀ depth, x (realm.atDepth depth) = outcomeAtDepth depth (x realm)

/-- Surroundings whose answers do not depend on the depth of calls. -/
def Surroundings.Blind (surroundings : Surroundings H) : Prop :=
  ∀ r : Request H, Effect.Blind (surroundings.perform r)

/-- A computation that does not depend on the depth of calls, if the answers to its requests do
not. -/
def Action.Blind (x : Action H α) : Prop :=
  ∀ surroundings : Surroundings H, surroundings.Blind → Effect.Blind (x surroundings)

/-- Whether an outcome is one to which a computation may lead as far as promises and generators are
concerned. -/
def Realm.Directs (realm : Realm H) : EStateM.Result Stop (Realm H) α → Prop
  | .ok _ after => realm.Conducts after
  | .error (.failure _) after => realm.Conducts after
  | .error .exhausted _ => True

theorem Realm.Conducts.directs {realm middle : Realm H} {result : EStateM.Result Stop (Realm H) α}
    (h : realm.Conducts middle) (h' : middle.Directs result) : realm.Directs result := by
  match result, h' with
  | .ok _ _, h' => exact h.trans h'
  | .error (.failure _) _, h' => exact h.trans h'
  | .error .exhausted _, _ => trivial

/-- Surroundings whose answers treat promises and generators as computations may. -/
def Surroundings.Conducted (surroundings : Surroundings H) : Prop :=
  ∀ (r : Request H) (realm : Realm H), realm.Tidy → realm.Directs (surroundings.perform r realm)

/-- A computation that treats promises and generators as computations may, if the answers to its
requests do. -/
def Action.Conducted (x : Action H α) : Prop :=
  ∀ surroundings : Surroundings H, surroundings.Conducted →
    ∀ realm : Realm H, realm.Tidy → realm.Directs (x surroundings realm)

/-- Whether an outcome leaves the contexts in balance. -/
def Realm.Balances (realm : Realm H) : EStateM.Result Stop (Realm H) α → Prop
  | .ok _ after => after.marks = realm.marks
  | .error (.failure _) after => after.marks = realm.marks
  | .error .exhausted _ => True

theorem Realm.balances_of_eq {realm middle : Realm H} {result : EStateM.Result Stop (Realm H) α}
    (h : middle.marks = realm.marks) (h' : middle.Balances result) : realm.Balances result := by
  match result, h' with
  | .ok _ _, h' => exact h'.trans h
  | .error (.failure _) _, h' => exact h'.trans h
  | .error .exhausted _, _ => trivial

/-- Surroundings whose answers leave the contexts in balance. -/
def Surroundings.Steady (surroundings : Surroundings H) : Prop :=
  ∀ (r : Request H) (realm : Realm H), realm.Balances (surroundings.perform r realm)

/-- A computation that leaves the contexts in balance, if the answers to its requests do. -/
def Action.Steady (x : Action H α) : Prop :=
  ∀ surroundings : Surroundings H, surroundings.Steady →
    ∀ realm : Realm H, realm.Balances (x surroundings realm)

/-- A computation that asks its surroundings for nothing. -/
def Action.Alone (x : Action H α) : Prop :=
  ∀ surroundings surroundings' : Surroundings H, surroundings.fuel = surroundings'.fuel →
    x surroundings = x surroundings'

/-- A computation put together from parts of which it is known what they have to do with the time
limit: parts that have nothing to do with it, checkpoints, requests and, if it may start evaluations
of its own, changes after which checkpoints count anew. -/
inductive Action.Timed (evaluates : Bool) : {α : Type} → Action H α → Prop
  | own {α : Type} (x : Action H α) (alone : x.Alone)
      (untimed : ∀ surroundings (realm : Realm H),
        realm.Untimed (outcomeRealm (x surroundings realm))) : Timed evaluates x
  | checkpoint : Timed evaluates checkpoint
  | restart {α : Type} (f : Realm H → Except Failure α × Realm H) (he : evaluates = true)
      (restarts : ∀ realm : Realm H, realm.Restarts (f realm).2) : Timed evaluates (transition f)
  | ask (r : Request H) : Timed evaluates fun surroundings => surroundings.perform r
  | andThen {α β : Type} {x : Action H α} {f : α → Action H β} (hx : Timed evaluates x)
      (hf : ∀ a, Timed evaluates (f a)) : Timed evaluates (x.andThen f)
  | attempt {α : Type} {x : Action H α} (hx : Timed evaluates x) : Timed evaluates x.attempt
  | nested {α : Type} {x : Action H α} (hx : Timed evaluates x) : Timed evaluates x.nested

theorem Action.Timed.evaluating {evaluates : Bool} {x : Action H α} (h : x.Timed evaluates) :
    x.Timed true := by
  induction h with
  | own x alone untimed => exact .own x alone untimed
  | checkpoint => exact .checkpoint
  | restart f _ restarts => exact .restart f rfl restarts
  | ask r => exact .ask r
  | andThen _ _ hx hf => exact .andThen hx hf
  | attempt _ hx => exact .attempt hx
  | nested _ hx => exact .nested hx

/-- A computation of the engine or of the host. It takes steps only: what it does to the objects of
a realm, it does by requests and by putting new objects on the heap. It looks at the depth of calls
only through the limit on it, and where the host can see it. It settles only promises that are its
own to settle, and leaves the contexts in the order that it found, unless the host moves them. With
the time limit it has to do only at checkpoints and through evaluations. -/
structure Routine (H : HostTypes) (α : Type) where
  act : Action H α
  lawful : act.Lawful
  blind : H.seesDepth = false → act.Blind
  conducted : act.Conducted
  timed : act.Timed true

/-- A computation of the engine itself. What the code of the host may do to the contexts, the engine
does not: each context that it puts on the stack it takes off again. And it starts no evaluation of
its own. -/
structure Engine (H : HostTypes) (α : Type) extends Routine H α where
  steady : act.Steady
  within : act.Timed false
  timed := within.evaluating

namespace Action

theorem Lawful.andThen {x : Action H α} {f : α → Action H β} (hl : x.Lawful)
    (hf : ∀ a, (f a).Lawful) : (x.andThen f).Lawful := by
  intro surroundings hs realm hr
  have h := hl surroundings hs realm hr
  unfold Action.andThen
  match hx : x surroundings realm with
  | .ok a middle =>
    rw [hx] at h
    exact h.allows (hf a surroundings hs middle (h.steps.sound hr))
  | .error (.failure f) middle =>
    rw [hx] at h
    exact h
  | .error .exhausted _ => trivial

theorem Lawful.attempt {x : Action H α} (hl : x.Lawful) : x.attempt.Lawful := by
  intro surroundings hs realm hr
  have h := hl surroundings hs realm hr
  unfold Action.attempt
  match hx : x surroundings realm with
  | .ok a after =>
    rw [hx] at h
    exact h
  | .error (.failure f) after =>
    rw [hx] at h
    exact h
  | .error .exhausted _ => trivial

/-- Going one level deeper and coming back is no change. -/
theorem leads_of_deeper {realm after : Realm H}
    (h : ({ realm with callDepth := realm.callDepth + 1 } : Realm H).Leads after) :
    realm.Leads { after with callDepth := after.callDepth - 1 } := by
  have down : Realm.Step realm { realm with callDepth := realm.callDepth + 1 } :=
    .beside ⟨rfl, rfl, rfl⟩
  have up : Realm.Step after { after with callDepth := after.callDepth - 1 } :=
    .beside ⟨rfl, rfl, rfl⟩
  refine ⟨((Realm.Steps.refl realm).tail down |>.trans h.steps).tail up, ?_⟩
  rw [h.callDepth]
  rfl

/-- A nested computation is allowed where the computation itself is, one level deeper. -/
theorem allows_nested {x : Action H α} {surroundings : Surroundings H} {realm : Realm H}
    (h : ({ realm with callDepth := realm.callDepth + 1 } : Realm H).Allows
      (x surroundings { realm with callDepth := realm.callDepth + 1 })) :
    realm.Allows (x.nested surroundings realm) := by
  unfold Action.nested
  simp only
  split
  · exact .refl realm
  · match hr : x surroundings { realm with callDepth := realm.callDepth + 1 } with
    | .ok a after =>
      rw [hr] at h
      exact leads_of_deeper h
    | .error (.failure f) after =>
      rw [hr] at h
      exact leads_of_deeper h
    | .error .exhausted _ => trivial

/-! ### Computations at every depth of calls -/

theorem Blind.andThen {x : Action H α} {f : α → Action H β} (hx : x.Blind)
    (hf : ∀ a, (f a).Blind) : (x.andThen f).Blind := by
  intro surroundings hs
  obtain ⟨hconfig, hsame⟩ := hx surroundings hs
  unfold Action.andThen
  refine ⟨fun realm => ?_, fun realm hz depth => ?_⟩
  · have hc := hconfig realm
    match hm : x surroundings realm with
    | .ok a middle =>
      rw [hm] at hc
      exact ((hf a surroundings hs).config middle).trans hc
    | .error stop middle =>
      rw [hm] at hc
      exact hc
  · rw [hsame realm hz depth]
    have hc := hconfig realm
    match hm : x surroundings realm with
    | .ok a middle =>
      rw [hm] at hc
      refine (hf a surroundings hs).same middle ?_ depth
      exact (congrArg Config.maxCallDepth hc).trans hz
    | .error stop middle => rfl

theorem Blind.attempt {x : Action H α} (hx : x.Blind) : x.attempt.Blind := by
  intro surroundings hs
  obtain ⟨hconfig, hsame⟩ := hx surroundings hs
  unfold Action.attempt
  refine ⟨fun realm => ?_, fun realm hz depth => ?_⟩
  · have hc := hconfig realm
    match hm : x surroundings realm with
    | .ok a after => rwa [hm] at hc
    | .error (.failure f) after => rwa [hm] at hc
    | .error .exhausted after => rwa [hm] at hc
  · rw [hsame realm hz depth]
    match x surroundings realm with
    | .ok a after => rfl
    | .error (.failure f) after => rfl
    | .error .exhausted after => rfl

theorem nested_of_unlimited (x : Action H α) (surroundings : Surroundings H) {realm : Realm H}
    (hz : realm.config.maxCallDepth = 0) : x.nested surroundings realm
      = outcomeShallower (x surroundings (realm.atDepth (realm.callDepth + 1))) := by
  refine (if_neg fun h => h.1 hz).trans ?_
  change (match x surroundings (realm.atDepth (realm.callDepth + 1)) with
    | .ok a after => EStateM.Result.ok a (after.atDepth (after.callDepth - 1))
    | .error stop after => .error stop (after.atDepth (after.callDepth - 1))) = _
  cases x surroundings (realm.atDepth (realm.callDepth + 1)) with
  | ok a after => rfl
  | error stop after => rfl

theorem Blind.nested {x : Action H α} (hx : x.Blind) : x.nested.Blind := by
  intro surroundings hs
  obtain ⟨hconfig, hsame⟩ := hx surroundings hs
  refine ⟨fun realm => ?_, fun realm hz depth => ?_⟩
  · unfold Action.nested
    simp only
    split
    · rfl
    · have hc := hconfig { realm with callDepth := realm.callDepth + 1 }
      match hm : x surroundings { realm with callDepth := realm.callDepth + 1 } with
      | .ok a after => rwa [hm] at hc
      | .error stop after => rwa [hm] at hc
  · have hz' : (realm.atDepth depth).config.maxCallDepth = 0 := hz
    rw [nested_of_unlimited x surroundings hz, nested_of_unlimited x surroundings hz']
    change outcomeShallower (x surroundings (realm.atDepth (depth + 1))) = _
    rw [hsame realm hz, hsame realm hz]
    match x surroundings realm with
    | .ok a after => rfl
    | .error stop after => rfl

/-! ### Computations that leave promises and contexts to others -/

theorem Conducted.andThen {x : Action H α} {f : α → Action H β} (hx : x.Conducted)
    (hf : ∀ a, (f a).Conducted) : (x.andThen f).Conducted := by
  intro surroundings hs realm hr
  have h := hx surroundings hs realm hr
  unfold Action.andThen
  match hm : x surroundings realm with
  | .ok a middle =>
    rw [hm] at h
    exact h.directs (hf a surroundings hs middle (h.tidy hr))
  | .error (.failure f) middle =>
    rw [hm] at h
    exact h
  | .error .exhausted _ => trivial

theorem Conducted.attempt {x : Action H α} (hx : x.Conducted) : x.attempt.Conducted := by
  intro surroundings hs realm hr
  have h := hx surroundings hs realm hr
  unfold Action.attempt
  match hm : x surroundings realm with
  | .ok a after =>
    rw [hm] at h
    exact h
  | .error (.failure f) after =>
    rw [hm] at h
    exact h
  | .error .exhausted _ => trivial

theorem Conducted.nested {x : Action H α} (hx : x.Conducted) : x.nested.Conducted := by
  intro surroundings hs realm hr
  have h := hx surroundings hs (realm.atDepth (realm.callDepth + 1)) (hr.atDepth _)
  unfold Action.nested
  simp only
  split
  · exact .refl realm
  · change realm.Directs (match x surroundings (realm.atDepth (realm.callDepth + 1)) with
      | .ok a after => EStateM.Result.ok a (after.atDepth (after.callDepth - 1))
      | .error stop after => .error stop (after.atDepth (after.callDepth - 1)))
    match hm : x surroundings (realm.atDepth (realm.callDepth + 1)) with
    | .ok a after =>
      rw [hm] at h
      exact (Realm.Conducts.of_atDepth h).atDepth _
    | .error (.failure f) after =>
      rw [hm] at h
      exact (Realm.Conducts.of_atDepth h).atDepth _
    | .error .exhausted _ => trivial

/-! ### Computations that leave the contexts in balance -/

theorem Steady.andThen {x : Action H α} {f : α → Action H β} (hx : x.Steady)
    (hf : ∀ a, (f a).Steady) : (x.andThen f).Steady := by
  intro surroundings hs realm
  have h := hx surroundings hs realm
  unfold Action.andThen
  match hm : x surroundings realm with
  | .ok a middle =>
    rw [hm] at h
    exact Realm.balances_of_eq h (hf a surroundings hs middle)
  | .error (.failure f) middle =>
    rw [hm] at h
    exact h
  | .error .exhausted _ => trivial

theorem Steady.attempt {x : Action H α} (hx : x.Steady) : x.attempt.Steady := by
  intro surroundings hs realm
  have h := hx surroundings hs realm
  unfold Action.attempt
  match hm : x surroundings realm with
  | .ok a after =>
    rw [hm] at h
    exact h
  | .error (.failure f) after =>
    rw [hm] at h
    exact h
  | .error .exhausted _ => trivial

theorem Steady.nested {x : Action H α} (hx : x.Steady) : x.nested.Steady := by
  intro surroundings hs realm
  have h := hx surroundings hs { realm with callDepth := realm.callDepth + 1 }
  unfold Action.nested
  simp only
  split
  · exact rfl
  · match hm : x surroundings { realm with callDepth := realm.callDepth + 1 } with
    | .ok a after =>
      rw [hm] at h
      exact h
    | .error (.failure f) after =>
      rw [hm] at h
      exact h
    | .error .exhausted _ => trivial

/-! ### Changes of a realm -/

theorem outcomeRealm_transition (f : Realm H → Except Failure α × Realm H)
    (surroundings : Surroundings H) (realm : Realm H) :
    outcomeRealm (transition f surroundings realm) = (f realm.seen).2.atDepth realm.callDepth := by
  unfold transition
  match f realm.seen with
  | (.ok a, after) => rfl
  | (.error failure, after) => rfl

theorem Timed.transition {evaluates : Bool} {f : Realm H → Except Failure α × Realm H}
    (h : ∀ realm : Realm H, realm.Untimed (f realm).2) : (transition f).Timed evaluates := by
  refine .own _ (fun _ _ _ => rfl) fun surroundings realm => ?_
  rw [outcomeRealm_transition]
  exact ⟨(h realm.seen).config, (h realm.seen).checkpoints, (h realm.seen).aborted⟩

theorem Lawful.transition {f : Realm H → Except Failure α × Realm H}
    (hf : ∀ realm : Realm H, realm.Steps (f realm).2) : (transition f).Lawful := by
  intro surroundings hs realm hr
  -- neither hiding the depth of calls nor putting it back is a change
  have hide : realm.Step realm.seen := .beside ⟨rfl, rfl, rfl⟩
  have show_ : (f realm.seen).2.Step ((f realm.seen).2.atDepth realm.callDepth) :=
    .beside ⟨rfl, rfl, rfl⟩
  have leads : realm.Leads ((f realm.seen).2.atDepth realm.callDepth) :=
    ⟨(((Realm.Steps.refl realm).tail hide).trans (hf realm.seen)).tail show_, rfl⟩
  unfold Action.transition
  match hm : f realm.seen with
  | (.ok a, after) =>
    rw [hm] at leads
    exact leads
  | (.error failure, after) =>
    rw [hm] at leads
    exact leads

theorem Blind.transition {f : Realm H → Except Failure α × Realm H}
    (hf : ∀ realm : Realm H, realm.Steps (f realm).2) (hd : H.seesDepth = false) :
    (transition f).Blind := by
  intro surroundings hs
  have seen (realm : Realm H) : realm.seen = realm.atDepth 0 := by simp [Realm.seen, hd]
  refine ⟨fun realm => ?_, fun realm _ depth => ?_⟩
  · have hc := (hf realm.seen).config
    unfold Action.transition
    match hm : f realm.seen with
    | (.ok a, after) =>
      rw [hm] at hc
      exact hc
    | (.error failure, after) =>
      rw [hm] at hc
      exact hc
  · unfold Action.transition
    rw [seen, seen, show (realm.atDepth depth).atDepth 0 = realm.atDepth 0 from rfl]
    match f (realm.atDepth 0) with
    | (.ok a, after) => rfl
    | (.error failure, after) => rfl

/-- A change of the realm does what it does to the realm as code sees it. -/
theorem directs_transition {f : Realm H → Except Failure α × Realm H} {realm start : Realm H}
    (h : start.Conducts (f realm.seen).2) (surroundings : Surroundings H) :
    start.Directs (transition f surroundings realm) := by
  unfold transition
  match hm : f realm.seen with
  | (.ok a, after) =>
    rw [hm] at h
    exact h.atDepth _
  | (.error failure, after) =>
    rw [hm] at h
    exact h.atDepth _

theorem balances_transition {f : Realm H → Except Failure α × Realm H} {realm start : Realm H}
    (h : (f realm.seen).2.marks = start.marks) (surroundings : Surroundings H) :
    start.Balances (transition f surroundings realm) := by
  unfold transition
  match hm : f realm.seen with
  | (.ok a, after) =>
    rw [hm] at h
    exact h
  | (.error failure, after) =>
    rw [hm] at h
    exact h

/-! ### Checkpoints -/

/-- A checkpoint passes, and at most counts and looks at the clock, or the time is up. -/
theorem checkpoint_cases (surroundings : Surroundings H) (realm : Realm H) :
    (∃ n time, checkpoint surroundings realm = .ok () { realm with checkpoints := n, time })
      ∨ ∃ elapsed n time, checkpoint surroundings realm
          = .error (.failure (.timeout realm.config.timeoutMs elapsed))
              { realm with checkpoints := n, time, aborted := some elapsed } := by
  rcases realm.passCheckpoint_cases with ⟨n, time, h⟩ | ⟨elapsed, n, time, h⟩
  · exact .inl ⟨n, time, by simp only [checkpoint, h]⟩
  · exact .inr ⟨elapsed, n, time, by simp only [checkpoint, h]⟩

theorem blind_checkpoint : (checkpoint (H := H)).Blind := by
  intro surroundings _
  refine ⟨fun realm => ?_, fun realm _ depth => ?_⟩
  · rcases checkpoint_cases surroundings realm with ⟨n, time, h⟩ | ⟨elapsed, n, time, h⟩
    all_goals
      rw [h]
      rfl
  · simp only [checkpoint, Realm.passCheckpoint_atDepth]
    match realm.passCheckpoint with
    | (.ok (), after) => rfl
    | (.error failure, after) => rfl

/-! ### Changes around a computation -/

/-- A computation between two changes of the realm. -/
def bracket (enter : Realm H → Except Failure σ × Realm H) (body : σ → Action H α)
    (leave : σ → Except Failure α → Realm H → Except Failure β × Realm H) : Action H β :=
  (transition enter).andThen fun b =>
    (body b).attempt.andThen fun outcome => transition (leave b outcome)

theorem Conducted.bracket {b : Bracket H σ α β} {body : σ → Action H α}
    (hbody : ∀ a, (body a).Conducted) :
    (bracket b.enter.apply body fun a outcome => (b.leave a outcome).apply).Conducted := by
  intro surroundings hs realm hr
  have hseen : realm.seen.Tidy := hr.atDepth _
  unfold Action.bracket Action.andThen
  match hm : b.enter.apply realm.seen with
  | (.error failure, start) =>
    have hrefused := b.refused realm.seen failure hseen (by rw [hm])
    rw [hm] at hrefused
    simp only [transition, hm]
    exact (Realm.Conducts.of_atDepth hrefused).atDepth _
  | (.ok a, start) =>
    have htidy := (b.advances realm.seen a hseen (by rw [hm])).tidy hseen
    rw [hm] at htidy
    have hx := (hbody a).attempt surroundings hs (start.atDepth realm.callDepth) (htidy.atDepth _)
    simp only [transition, hm]
    -- what the whole comes to, once the computation has come to its end
    have finish (outcome : Except Failure α) (middle : Realm H)
        (h : (start.atDepth realm.callDepth).Conducts middle) :
        realm.Directs (transition (b.leave a outcome).apply surroundings middle) := by
      refine directs_transition (.of_atDepth (b.conducts realm.seen a middle.seen outcome hseen
        (by rw [hm]) ?_)) surroundings
      rw [hm]
      exact (Realm.Conducts.of_atDepth h).atDepth _
    match ha : (body a).attempt surroundings (start.atDepth realm.callDepth) with
    | .ok outcome middle =>
      rw [ha] at hx
      exact finish outcome middle hx
    | .error (.failure failure) middle =>
      unfold Action.attempt at ha
      split at ha <;> cases ha
    | .error .exhausted middle => trivial

theorem Timed.bracket {b : Bracket H σ α β} (hb : b.Untimed) {body : σ → Action H α}
    {evaluates : Bool} (hbody : ∀ a, (body a).Timed evaluates) :
    (bracket b.enter.apply body fun a outcome => (b.leave a outcome).apply).Timed evaluates :=
  .andThen (.transition hb.enter) fun a =>
    .andThen (.attempt (hbody a)) fun outcome => .transition (hb.leave a outcome)

theorem Steady.bracket {b : Bracket H σ α β} (hb : b.Steady) {body : σ → Action H α}
    (hbody : ∀ a, (body a).Steady) :
    (bracket b.enter.apply body fun a outcome => (b.leave a outcome).apply).Steady := by
  intro surroundings hs realm
  unfold Action.bracket Action.andThen
  match hm : b.enter.apply realm.seen with
  | (.error failure, start) =>
    have hrefused := hb.refused realm.seen failure (by rw [hm])
    rw [hm] at hrefused
    simp only [transition, hm]
    exact hrefused
  | (.ok a, start) =>
    have hx := (hbody a).attempt surroundings hs (start.atDepth realm.callDepth)
    simp only [transition, hm]
    match ha : (body a).attempt surroundings (start.atDepth realm.callDepth) with
    | .ok outcome middle =>
      rw [ha] at hx
      refine balances_transition (hb.balanced realm.seen a middle.seen outcome (by rw [hm]) ?_)
        surroundings
      rw [hm]
      exact hx
    | .error (.failure failure) middle =>
      unfold Action.attempt at ha
      split at ha <;> cases ha
    | .error .exhausted middle => trivial

end Action

/-! ### Routines -/

namespace Routine

@[always_inline]
instance : Monad (Routine H) where
  pure a := ⟨fun _ realm => .ok a realm, fun _ _ realm _ => .refl realm,
    fun _ _ _ => ⟨fun _ => rfl, fun _ _ _ => rfl⟩, fun _ _ realm _ => .refl realm,
    .own _ (fun _ _ _ => rfl) fun _ realm => .refl realm⟩
  bind x f := ⟨x.act.andThen fun a => (f a).act, x.lawful.andThen fun a => (f a).lawful,
    fun hd => (x.blind hd).andThen fun a => (f a).blind hd,
    x.conducted.andThen fun a => (f a).conducted, x.timed.andThen fun a => (f a).timed⟩

/-- What the engine does, code of the host can do. -/
@[always_inline]
instance : MonadLift (Engine H) (Routine H) := ⟨fun x => x.toRoutine⟩

/-- The result, or the failure that was met. -/
def attempt (x : Routine H α) : Routine H (Except Failure α) :=
  ⟨x.act.attempt, x.lawful.attempt, fun hd => (x.blind hd).attempt, x.conducted.attempt,
    x.timed.attempt⟩

/-- Makes a change of the realm. -/
def transition (t : Transition H α)
    (conducts : ∀ realm : Realm H, realm.Tidy → realm.Conducts (t.apply realm).2)
    (untimed : ∀ realm : Realm H, realm.Untimed (t.apply realm).2) : Routine H α where
  act := Action.transition t.apply
  lawful := .transition t.steps
  blind := .transition t.steps
  conducted := fun surroundings _ realm hr =>
    Action.directs_transition (.of_atDepth (conducts realm.seen (hr.atDepth _))) surroundings
  timed := .transition untimed

/-- Runs a computation between two changes of the realm. -/
def bracket (b : Bracket H σ α β) (body : σ → Routine H α) : Routine H β where
  act := Action.bracket b.enter.apply (fun a => (body a).act) fun a outcome =>
    (b.leave a outcome).apply
  lawful := (Action.Lawful.transition b.enter.steps).andThen fun a =>
    (body a).lawful.attempt.andThen fun outcome => .transition (b.leave a outcome).steps
  blind := fun hd => (Action.Blind.transition b.enter.steps hd).andThen fun a =>
    ((body a).blind hd).attempt.andThen fun outcome => .transition (b.leave a outcome).steps hd
  conducted := .bracket fun a => (body a).conducted
  timed := .andThen (.restart _ rfl b.enter.restarts) fun a =>
    .andThen (body a).timed.attempt fun outcome => .restart _ rfl (b.leave a outcome).restarts

end Routine

/-! ### Computations of the engine -/

namespace Engine

@[always_inline]
instance : Monad (Engine H) where
  pure a := ⟨pure a, fun _ _ _ => rfl, .own _ (fun _ _ _ => rfl) fun _ realm => .refl realm⟩
  bind x f := ⟨x.toRoutine >>= fun a => (f a).toRoutine, x.steady.andThen fun a => (f a).steady,
    x.within.andThen fun a => (f a).within⟩

/-- The realm as it is now, as far as code can see it. -/
def getRealm : Engine H (Realm H) where
  act := fun _ realm => .ok realm.seen realm
  lawful := fun _ _ realm _ => .refl realm
  blind := fun hd _ _ =>
    ⟨fun _ => rfl, fun realm _ depth => by simp [outcomeAtDepth, Realm.seen, Realm.atDepth, hd]⟩
  conducted := fun _ _ realm _ => .refl realm
  steady := fun _ _ _ => rfl
  within := .own _ (fun _ _ _ => rfl) fun _ realm => .refl realm

/-- How often a loop may go round. -/
def getFuel : Engine H Nat where
  act := fun surroundings realm => .ok surroundings.fuel realm
  lawful := fun _ _ realm _ => .refl realm
  blind := fun _ _ _ => ⟨fun _ => rfl, fun _ _ _ => rfl⟩
  conducted := fun _ _ realm _ => .refl realm
  steady := fun _ _ _ => rfl
  within := .own _ (fun _ _ h => by rw [h]) fun _ realm => .refl realm

/-- Changes the realm beside its objects, its limits and its depth of calls, beside its promises,
generators and contexts, and beside what checkpoints go by, with a result. -/
def adjustGet (f : Realm H → α × Realm H)
    (aside : ∀ realm : Realm H, realm.Aside (f realm).2 := by
      intro realm; exact ⟨⟨rfl, rfl, rfl⟩, rfl, fun _ => rfl, rfl, rfl, rfl, rfl⟩) :
    Engine H α where
  act := fun _ realm => .ok (f realm.seen).1 ((f realm.seen).2.atDepth realm.callDepth)
  lawful := fun _ _ realm _ =>
    have h := (aside realm.seen).beside
    have step : realm.Step ((f realm.seen).2.atDepth realm.callDepth) :=
      .beside ⟨h.heap, h.config, h.disposed⟩
    step.leads rfl
  blind := fun hd _ _ =>
    ⟨fun realm => (aside realm.seen).beside.config,
      fun realm _ depth => by simp [outcomeAtDepth, Realm.seen, Realm.atDepth, hd]⟩
  conducted := fun _ _ realm _ =>
    have h := (aside realm.seen).conducts
    ⟨h.usable, h.ledger, h.control⟩
  steady := fun _ _ realm => (aside realm.seen).marks
  within := .own _ (fun _ _ _ => rfl) fun _ realm =>
    have h := (aside realm.seen).untimed
    ⟨h.config, h.checkpoints, h.aborted⟩

/-- Changes the realm beside its objects, its limits and its depth of calls, beside its promises,
generators and contexts, and beside what checkpoints go by. -/
def adjust (f : Realm H → Realm H)
    (aside : ∀ realm : Realm H, realm.Aside (f realm) := by
      intro realm; exact ⟨⟨rfl, rfl, rfl⟩, rfl, fun _ => rfl, rfl, rfl, rfl, rfl⟩) :
    Engine H Unit :=
  adjustGet (fun realm => ((), f realm)) aside

/-- Makes a change of the realm that leaves the contexts in balance. -/
def transition (t : Transition H α)
    (conducts : ∀ realm : Realm H, realm.Tidy → realm.Conducts (t.apply realm).2)
    (steady : ∀ realm : Realm H, (t.apply realm).2.marks = realm.marks)
    (untimed : ∀ realm : Realm H, realm.Untimed (t.apply realm).2) : Engine H α where
  toRoutine := .transition t conducts untimed
  steady := fun surroundings _ realm => Action.balances_transition (steady realm.seen) surroundings
  within := .transition untimed

/-- Runs a computation between two changes of the realm that leave the contexts in balance and have
nothing to do with the time limit. -/
def bracket (b : Bracket H σ α β) (steady : b.Steady) (untimed : b.Untimed)
    (body : σ → Engine H α) : Engine H β where
  toRoutine := .bracket b fun a => (body a).toRoutine
  steady := .bracket steady fun a => (body a).steady
  within := .bracket untimed fun a => (body a).within

/-- Sends a request. -/
def ask (r : Request H) : Engine H r.Answer where
  act := fun surroundings => surroundings.perform r
  lawful := fun _ hs realm hr => hs r realm hr
  blind := fun _ _ hs => hs r
  conducted := fun _ hs realm hr => hs r realm hr
  steady := fun _ hs realm => hs r realm
  within := .ask r

/-- Sends a request to the host. -/
def askHost (r : HostRequest H) : Engine H r.Answer := ask (.host r)

/-! ### Failing -/

/-- Fails. -/
def fail (f : Failure) : Engine H α where
  act := fun _ realm => .error (.failure f) realm
  lawful := fun _ _ realm _ => .refl realm
  blind := fun _ _ _ => ⟨fun _ => rfl, fun _ _ _ => rfl⟩
  conducted := fun _ _ realm _ => .refl realm
  steady := fun _ _ _ => rfl
  within := .own _ (fun _ _ _ => rfl) fun _ realm => .refl realm

/-- Gives up because the bound on nesting or on the rounds of a loop was too small. -/
def exhaust : Engine H α where
  act := fun _ realm => .error .exhausted realm
  lawful := fun _ _ _ _ => trivial
  blind := fun _ _ _ => ⟨fun _ => rfl, fun _ _ _ => rfl⟩
  conducted := fun _ _ _ _ => trivial
  steady := fun _ _ _ => trivial
  within := .own _ (fun _ _ _ => rfl) fun _ realm => .refl realm

/-- Fails with a type error. -/
def typeError (message : String) : Engine H α := fail (.typeError message)

/-- Fails with a range error. -/
def rangeError (message : String) : Engine H α := fail (.rangeError message)

/-- Fails with a reference error. -/
def referenceError (message : String) : Engine H α := fail (.referenceError message)

/-- Fails with an internal error. -/
def internalError (message : String) : Engine H α := fail (.internal message)

/-- The result, or the failure that was met. -/
def attempt (x : Engine H α) : Engine H (Except Failure α) :=
  ⟨x.toRoutine.attempt, x.steady.attempt, x.within.attempt⟩

/-- The result as it is, or fails as it says. -/
def ofExcept : Except Failure α → Engine H α
  | .ok a => pure a
  | .error f => fail f

/-! ### Loops -/

/-- Whether a loop goes on. -/
inductive Round (σ α : Type) where
  | again (state : σ)
  | finish (result : α)

/-- Repeats a step at most `fuel` times. -/
def loopFor (step : σ → Engine H (Round σ α)) : Nat → σ → Engine H α
  | 0, _ => exhaust
  | fuel + 1, s => do
    match ← step s with
    | .again s => loopFor step fuel s
    | .finish a => pure a

/-- Repeats a step until it finishes. -/
def loop (step : σ → Engine H (Round σ α)) (s : σ) : Engine H α := do
  loopFor step (← getFuel) s

/-- Runs a step for `count` numbers from `start` on. -/
def forRange (step : Nat → Engine H Unit) : (start count : Nat) → Engine H Unit
  | _, 0 => pure ()
  | start, count + 1 => do
    step start
    forRange step (start + 1) count

/-- Runs a step for `count` numbers below `stop`, the greatest first. -/
def forRangeDown (step : Nat → Engine H Unit) : (count stop : Nat) → Engine H Unit
  | 0, _ => pure ()
  | count + 1, stop => do
    step (stop - 1)
    forRangeDown step count (stop - 1)

/-- The first result that a step gives for `count` numbers from `start` on. -/
def firstInRange (step : Nat → Engine H (Option α)) : (start count : Nat) → Engine H (Option α)
  | _, 0 => pure none
  | start, count + 1 => do
    match ← step start with
    | some a => pure (some a)
    | none => firstInRange step (start + 1) count

/-! ### Limits -/

/-- Runs a computation one level deeper, if the limit on the depth of calls allows it. -/
def nested (x : Engine H α) : Engine H α where
  act := x.act.nested
  lawful := fun surroundings hs _ hr => Action.allows_nested (x.lawful surroundings hs _ hr)
  blind := fun hd => (x.blind hd).nested
  conducted := x.conducted.nested
  steady := x.steady.nested
  within := x.within.nested

/-- Passes a checkpoint. -/
def checkTimeout : Engine H Unit where
  act := .checkpoint
  lawful := fun surroundings _ realm _ => by
    rcases Action.checkpoint_cases surroundings realm with ⟨n, time, h⟩ | ⟨elapsed, n, time, h⟩
    all_goals
      rw [h]
      exact Realm.Step.leads (.beside ⟨rfl, rfl, rfl⟩) rfl
  blind := fun _ => Action.blind_checkpoint
  conducted := fun surroundings _ realm _ => by
    rcases Action.checkpoint_cases surroundings realm with ⟨n, time, h⟩ | ⟨elapsed, n, time, h⟩
    all_goals
      rw [h]
      exact .of_eq rfl rfl fun _ => rfl
  steady := fun surroundings _ realm => by
    rcases Action.checkpoint_cases surroundings realm with ⟨n, time, h⟩ | ⟨elapsed, n, time, h⟩
    all_goals
      rw [h]
      rfl
  within := .checkpoint

end Engine

/-! ### Loops of the host -/

namespace Routine

/-- Repeats a step at most `fuel` times. -/
def loopFor (step : σ → Routine H (Engine.Round σ α)) : Nat → σ → Routine H α
  | 0, _ => Engine.exhaust.toRoutine
  | fuel + 1, s => do
    match ← step s with
    | .again s => loopFor step fuel s
    | .finish a => pure a

/-- Repeats a step until it finishes. -/
def loop (step : σ → Routine H (Engine.Round σ α)) (s : σ) : Routine H α := do
  loopFor step (← Engine.getFuel.toRoutine) s

end Routine
end ScriptEngine
