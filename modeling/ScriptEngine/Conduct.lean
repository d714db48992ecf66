import ScriptEngine.Balance
import ScriptEngine.Control
import ScriptEngine.Ledger
import ScriptEngine.TimeLimit

/-!
# What computations do to promises and generators

A computation moves the promises and the generators of a realm only as they may be moved, leaves the
promises to those who may settle them, and puts the contexts back in order that it found. That it
does so can be relied on by the code around it. Where the host moves contexts by itself, nothing is
said of generators and contexts, and nothing of a realm that has been disposed of.

## Main definitions

* `Realm.Tidy`: the promises and the generators of a realm are as they should be.
* `Realm.Advances`: a course of moves leads from one realm to another.
* `Realm.Conducts`: how a realm is related to the one after a computation.
* `Transition`: one change of a realm that may fail.
* `Bracket`: what is done before and after a computation, so that the whole is one again.
* `Bracket.Steady`: what is done before and after does not change the balance of contexts.
* `Bracket.Untimed`: what is done before and after has nothing to do with the time limit.

## Main results

* `Realm.Conducts.trans`, `Realm.Conducts.tidy`: computations one after the other.
-/

namespace ScriptEngine

variable {H : HostTypes}

/-! ### Promises -/

namespace Ledger

variable {l middle after : Ledger H} {p : ObjectId} {data : PromiseData}

/-- How the ledger is related to the one after a computation. -/
structure Conducts (l after : Ledger H) : Prop where
  path : ∃ events, l.Path events after
  spares : l.Spares after

theorem Conducts.refl (l : Ledger H) : l.Conducts l := ⟨⟨[], .refl l⟩, .refl l⟩

theorem Conducts.trans (h : l.Conducts middle) (h' : middle.Conducts after) : l.Conducts after := by
  obtain ⟨events, hpath⟩ := h.path
  obtain ⟨events', hpath'⟩ := h'.path
  exact ⟨⟨events ++ events', hpath.trans hpath'⟩, h.spares.trans h'.spares⟩

theorem conducts_created (hp : l.promise? p = none) : l.Conducts (l.created p) :=
  ⟨⟨_, (Move.create l p hp).path⟩, spares_created hp⟩

theorem conducts_registered (hp : l.promise? p = some data) (fulfill reject : Reaction) :
    l.Conducts (l.registered p data fulfill reject) :=
  ⟨⟨_, (Move.register l p data fulfill reject hp).path⟩, spares_registered hp fulfill reject⟩

theorem conducts_enqueued (l : Ledger H) (job : H.Job) : l.Conducts (l.queueing [.host job]) :=
  ⟨⟨_, (Move.enqueue l job).path⟩, .of_eq rfl (claims_enqueued l job)⟩

theorem conducts_started {job : Job H} {rest : List (Job H)} (h : l.jobs = job :: rest) :
    l.Conducts (l.started job rest) :=
  ⟨⟨_, (Move.start l job rest h).path⟩, .of_eq rfl (claims_started h)⟩

theorem conducts_taken {i : Nat} (h : l.latches[i]? = some { promise := p }) :
    l.Conducts (l.taken i p) :=
  ⟨⟨_, (Move.take l i p h).path⟩, spares_taken h⟩

/-- Whoever uses the last claim on a promise finds it pending afterwards, whatever was done in
between. -/
theorem pending_of_taken {i : Nat} (h : l.Tidy) (hi : l.latches[i]? = some { promise := p })
    (hm : (l.taken i p).Conducts middle) :
    middle.claims p = 0 ∧ ∃ data, middle.promise? p = some data ∧ data.state = .pending := by
  have hclaims := claims_taken hi p
  rw [if_pos rfl] at hclaims
  have hle := h.claims_le p
  obtain ⟨data, hp, hs⟩ := h.pending_of_claims (p := p) (by omega)
  obtain ⟨hzero, data', hp', hs', -⟩ := hm.spares p data hp (by omega)
  exact ⟨hzero, data', hp', hs'.trans hs⟩

/-- A computation between the use of the last claim on a promise and a move of that promise. -/
theorem Conducts.concluded {i : Nat} {event : Event H} (hi : l.latches[i]? = some { promise := p })
    (hm : (l.taken i p).Conducts middle) (hmove : middle.Move event after)
    (hp : ∀ q, q ≠ p → after.promise? q = middle.promise? q)
    (hc : ∀ q, q ≠ p → after.claims q = middle.claims q) : l.Conducts after := by
  obtain ⟨events, hpath⟩ := hm.path
  refine ⟨⟨_, ((Move.take l i p hi).path.trans hpath).tail hmove⟩, ?_⟩
  -- the promise itself had a claim, and the others are spared at each step
  intro q data hq hz
  have hclaims := claims_taken hi q
  by_cases heq : q = p
  · rw [if_pos heq] at hclaims
    omega
  · obtain ⟨hz', data', hq', hs, hr⟩ := hm.spares q data hq (by omega)
    exact ⟨(hc q heq).trans hz', data', (hp q heq).trans hq', hs, hr⟩

end Ledger

/-! ### Generators and contexts -/

namespace Control

variable {c middle after : Control H}

/-- How the control is related to the one after a computation. -/
structure Conducts (c after : Control H) : Prop where
  path : c.Path after
  stack : after.stack = c.stack

theorem Conducts.refl (c : Control H) : c.Conducts c := ⟨.refl c, rfl⟩

theorem Conducts.trans (h : c.Conducts middle) (h' : middle.Conducts after) : c.Conducts after :=
  ⟨h.path.trans h'.path, h'.stack.trans h.stack⟩

/-- A computation between two moves that leave the stack as it was. -/
theorem Conducts.between {first last : Control H} (hfirst : c.Move first)
    (hm : first.Conducts middle) (hlast : middle.Move last) (hs : last.stack = c.stack) :
    c.Conducts last :=
  ⟨(hfirst.path.trans hm.path).tail hlast, hs⟩

end Control

/-! ### Realms -/

namespace Realm

variable {realm middle after : Realm H}

/-- The promises and the generators of a realm are as they should be. -/
structure Tidy (realm : Realm H) : Prop where
  ledger : realm.disposed = false → realm.ledger.Tidy
  control : H.movesContexts = false → realm.disposed = false → realm.control.Tidy

/-- A course of moves leads from one realm to another. -/
structure Advances (realm after : Realm H) : Prop where
  usable : after.disposed = false → realm.disposed = false
  ledger : after.disposed = false → ∃ events, realm.ledger.Path events after.ledger
  control : H.movesContexts = false → after.disposed = false → realm.control.Path after.control

theorem Advances.refl (realm : Realm H) : realm.Advances realm :=
  ⟨id, fun _ => ⟨[], .refl _⟩, fun _ _ => .refl _⟩

theorem Advances.trans (h : realm.Advances middle) (h' : middle.Advances after) :
    realm.Advances after where
  usable hd := h.usable (h'.usable hd)
  ledger hd := by
    obtain ⟨events, hpath⟩ := h.ledger (h'.usable hd)
    obtain ⟨events', hpath'⟩ := h'.ledger hd
    exact ⟨events ++ events', hpath.trans hpath'⟩
  control hm hd := (h.control hm (h'.usable hd)).trans (h'.control hm hd)

theorem Advances.tidy (ha : realm.Advances after) (h : realm.Tidy) : after.Tidy where
  ledger hd := by
    obtain ⟨events, hpath⟩ := ha.ledger hd
    exact hpath.tidy (h.ledger (ha.usable hd))
  control hm hd := (ha.control hm hd).tidy (h.control hm (ha.usable hd))

/-- How a realm is related to the one after a computation. -/
structure Conducts (realm after : Realm H) : Prop where
  usable : after.disposed = false → realm.disposed = false
  ledger : after.disposed = false → realm.ledger.Conducts after.ledger
  control : H.movesContexts = false → after.disposed = false →
    realm.control.Conducts after.control

theorem Conducts.refl (realm : Realm H) : realm.Conducts realm :=
  ⟨id, fun _ => .refl _, fun _ _ => .refl _⟩

theorem Conducts.trans (h : realm.Conducts middle) (h' : middle.Conducts after) :
    realm.Conducts after where
  usable hd := h.usable (h'.usable hd)
  ledger hd := (h.ledger (h'.usable hd)).trans (h'.ledger hd)
  control hm hd := (h.control hm (h'.usable hd)).trans (h'.control hm hd)

theorem Conducts.advances (h : realm.Conducts after) : realm.Advances after :=
  ⟨h.usable, fun hd => (h.ledger hd).path, fun hm hd => (h.control hm hd).path⟩

theorem Conducts.tidy (hc : realm.Conducts after) (h : realm.Tidy) : after.Tidy :=
  hc.advances.tidy h

/-- A realm that has been disposed of. -/
theorem Conducts.of_disposed (h : after.disposed = true) : realm.Conducts after :=
  ⟨fun hd => by simp [h] at hd, fun hd => by simp [h] at hd, fun _ hd => by simp [h] at hd⟩

/-- Something that has to do with generators and contexts only. -/
theorem Conducts.of_control (hd : after.disposed = realm.disposed)
    (hl : after.ledger = realm.ledger)
    (hc : H.movesContexts = false → realm.disposed = false →
      realm.control.Conducts after.control) : realm.Conducts after :=
  ⟨fun h => hd ▸ h, fun _ => hl ▸ .refl _, fun hm h => hc hm (hd ▸ h)⟩

/-- Something that has to do with promises and jobs only. -/
theorem Conducts.of_ledger (hd : after.disposed = realm.disposed)
    (hc : after.control = realm.control)
    (hl : realm.disposed = false → realm.ledger.Conducts after.ledger) : realm.Conducts after :=
  ⟨fun h => hd ▸ h, fun h => hl (hd ▸ h), fun _ _ => hc ▸ .refl _⟩

theorem Conducts.of_eq (hd : after.disposed = realm.disposed) (hl : after.ledger = realm.ledger)
    (hc : H.movesContexts = false → after.control = realm.control) : realm.Conducts after :=
  .of_control hd hl fun hm _ => hc hm ▸ .refl _

/-- Realms that differ neither in their objects and limits nor in their promises, generators and
contexts, nor in what checkpoints go by. -/
structure Aside (realm after : Realm H) : Prop where
  beside : realm.Beside after
  ledger : after.ledger = realm.ledger
  control : H.movesContexts = false → after.control = realm.control
  marks : after.marks = realm.marks
  untimed : realm.Untimed after

theorem Aside.conducts (h : realm.Aside after) : realm.Conducts after :=
  .of_eq h.beside.disposed h.ledger h.control

theorem Tidy.atDepth (h : realm.Tidy) (depth : Nat) : (realm.atDepth depth).Tidy :=
  ⟨h.ledger, h.control⟩

theorem Conducts.of_atDepth {depth : Nat} (h : (realm.atDepth depth).Conducts after) :
    realm.Conducts after :=
  ⟨h.usable, h.ledger, h.control⟩

theorem Conducts.atDepth (h : realm.Conducts after) (depth : Nat) :
    realm.Conducts (after.atDepth depth) :=
  ⟨h.usable, h.ledger, h.control⟩

theorem ledger_putObject {o : ObjectId} {object object' : Object H}
    (ho : realm.object? o = some object) (h : object'.kind.promise? = object.kind.promise?) :
    (realm.putObject o object').ledger = realm.ledger := by
  simp only [ledger, view_putObject_of_eq ho h]
  rfl

theorem control_putObject {o : ObjectId} {object object' : Object H}
    (ho : realm.object? o = some object) (h : object'.kind.generator? = object.kind.generator?) :
    (realm.putObject o object').control = realm.control := by
  simp only [control, view_putObject_of_eq ho h]
  rfl

/-- Changes of an object that is neither promise nor generator, or not of its data. -/
theorem conducts_putObject {o : ObjectId} {object object' : Object H}
    (ho : realm.object? o = some object) (hp : object'.kind.promise? = object.kind.promise?)
    (hg : object'.kind.generator? = object.kind.generator?) :
    realm.Conducts (realm.putObject o object') :=
  .of_eq rfl (ledger_putObject ho hp) fun _ => control_putObject ho hg

/-- The realm with the data of a promise replaced. -/
def setPromise (realm : Realm H) (p : ObjectId) (data : PromiseData) : Realm H :=
  realm.changeKind p fun
    | .promise _ => .promise data
    | kind => kind

/-- The realm with the data of a generator replaced. -/
def setGenerator (realm : Realm H) (g : ObjectId) (data : GeneratorData H) : Realm H :=
  realm.changeKind g fun
    | .generator _ => .generator data
    | kind => kind

theorem steps_setPromise (realm : Realm H) (p : ObjectId) (data : PromiseData) :
    realm.Steps (realm.setPromise p data) :=
  realm.steps_changeKind p fun kind => by
    cases kind with
    | promise before => exact .inr (.promise before data)
    | _ => exact .inl rfl

theorem steps_setGenerator (realm : Realm H) (g : ObjectId) (data : GeneratorData H) :
    realm.Steps (realm.setGenerator g data) :=
  realm.steps_changeKind g fun kind => by
    cases kind with
    | generator before => exact .inr (.generator before data)
    | _ => exact .inl rfl

theorem ledger_setGenerator (realm : Realm H) (g : ObjectId) (data : GeneratorData H) :
    (realm.setGenerator g data).ledger = realm.ledger := by
  have hview : (realm.setGenerator g data).view ObjectKind.promise?
      = realm.view ObjectKind.promise? :=
    realm.view_changeKind_of_eq g fun kind => by cases kind <;> rfl
  simp only [ledger, hview]
  rfl

theorem control_setPromise (realm : Realm H) (p : ObjectId) (data : PromiseData) :
    (realm.setPromise p data).control = realm.control := by
  have hview : (realm.setPromise p data).view ObjectKind.generator?
      = realm.view ObjectKind.generator? :=
    realm.view_changeKind_of_eq p fun kind => by cases kind <;> rfl
  simp only [control, hview]
  rfl

theorem ledger_setPromise (realm : Realm H) {p : ObjectId} {before : PromiseData}
    (hp : realm.ledger.promise? p = some before) (data : PromiseData) :
    (realm.setPromise p data).ledger = realm.ledger.withPromise p data := by
  have hview : (realm.setPromise p data).view ObjectKind.promise?
      = (realm.ledger.withPromise p data).promise? :=
    funext <| view_changeKind_of_some hp fun kind hk => by
      cases kind with
      | promise => rfl
      | _ => cases hk
  simp only [ledger, hview]
  rfl

theorem control_setGenerator (realm : Realm H) {g : ObjectId} {before : GeneratorData H}
    (hg : realm.control.generator? g = some before) (data : GeneratorData H) :
    (realm.setGenerator g data).control = realm.control.withGenerator g data := by
  have hview : (realm.setGenerator g data).view ObjectKind.generator?
      = (realm.control.withGenerator g data).generator? :=
    funext <| view_changeKind_of_some hg fun kind hk => by
      cases kind with
      | generator => rfl
      | _ => cases hk
  simp only [control, hview]
  rfl

theorem ledger_push (realm : Realm H) {object : Object H} (h : object.kind.promise? = none) :
    ({ realm with heap := realm.heap.push object } : Realm H).ledger = realm.ledger := by
  simp only [ledger, view_push_of_none realm h]

theorem control_push (realm : Realm H) {object : Object H} (h : object.kind.generator? = none) :
    ({ realm with heap := realm.heap.push object } : Realm H).control = realm.control := by
  simp only [control, view_push_of_none realm h]

/-- A new object that is no promise and, if it is a generator, has not started. -/
theorem conducts_push {object : Object H} (hp : object.kind.promise? = none)
    (hg : object.kind.generator? = none ∨ object.kind.generator? = some {}) :
    realm.Conducts { realm with heap := realm.heap.push object } := by
  refine .of_control rfl (realm.ledger_push hp) fun _ _ => ⟨?_, rfl⟩
  rcases hg with hk | hk
  · rw [realm.control_push hk]
    exact .refl _
  · have heq : ({ realm with heap := realm.heap.push object } : Realm H).control
        = realm.control.withGenerator ⟨realm.heap.size⟩ {} := by
      simp only [control, Control.withGenerator, Control.mk.injEq, and_true]
      funext o
      rw [view_push, hk]
    exact heq ▸ (Control.Move.create realm.control _ (view_size realm)).path

end Realm

/-! ### Changes of a realm around a computation -/

/-- One change of a realm that may fail. Checkpoints may have to count anew after it. -/
structure Transition (H : HostTypes) (α : Type) where
  apply : Realm H → Except Failure α × Realm H
  steps : ∀ realm : Realm H, realm.Steps (apply realm).2
  restarts : ∀ realm : Realm H, realm.Restarts (apply realm).2 := by
    intro realm; exact ⟨rfl, .inl rfl, rfl⟩

/-- What is done before and after a computation. The change before gives the computation what it
needs, and may fail; the change after gets the outcome. The computation itself keeps to what
computations may do, and so must the whole. -/
structure Bracket (H : HostTypes) (β α γ : Type) where
  enter : Transition H β
  leave : β → Except Failure α → Transition H γ
  refused : ∀ (realm : Realm H) f, realm.Tidy → (enter.apply realm).1 = .error f →
    realm.Conducts (enter.apply realm).2
  advances : ∀ (realm : Realm H) b, realm.Tidy → (enter.apply realm).1 = .ok b →
    realm.Advances (enter.apply realm).2
  conducts : ∀ (realm : Realm H) b middle outcome, realm.Tidy → (enter.apply realm).1 = .ok b →
    (enter.apply realm).2.Conducts middle → realm.Conducts ((leave b outcome).apply middle).2

/-- What is done before and after a computation leaves the contexts in balance, if the computation
does. -/
structure Bracket.Steady {H : HostTypes} {β α γ : Type} (bracket : Bracket H β α γ) : Prop where
  refused : ∀ (realm : Realm H) f, (bracket.enter.apply realm).1 = .error f →
    (bracket.enter.apply realm).2.marks = realm.marks
  balanced : ∀ (realm : Realm H) b middle outcome, (bracket.enter.apply realm).1 = .ok b →
    middle.marks = (bracket.enter.apply realm).2.marks →
    ((bracket.leave b outcome).apply middle).2.marks = realm.marks

/-- What is done before and after a computation has nothing to do with the time limit. -/
structure Bracket.Untimed {H : HostTypes} {β α γ : Type} (bracket : Bracket H β α γ) : Prop where
  enter : ∀ realm : Realm H, realm.Untimed (bracket.enter.apply realm).2
  leave : ∀ b outcome (realm : Realm H), realm.Untimed ((bracket.leave b outcome).apply realm).2

end ScriptEngine
