import ScriptEngine.Step

/-!
# The control of generators

While a generator waits its context is parked in it, and while it runs the context is on the stack.
Beside generators, calls put contexts on the stack and take them off, and the root of a realm stays
at the bottom. All that a computation does to generators and to the order of contexts is a sequence
of such moves.

## Main definitions

* `Outline`, `ContextStack.outline`: what the order of contexts is about.
* `Control`, `Realm.control`: the generators and the order of contexts.
* `GeneratorState.Turns`: how the state of a generator changes.
* `Control.Move`, `Control.Path`: what can happen to generators and contexts.
* `Control.Tidy`: a context is parked in its generator or on the stack, as the state says.

## Main results

* `Control.Move.turns`: a move changes the state of a generator as states change.
* `Control.Path.tidy`: moves keep generators and contexts tidy.
-/

namespace ScriptEngine

variable {H : HostTypes}

/-! ### The order of contexts -/

/-- What the order of contexts is about: which context it is, and the generator that it runs. -/
structure Outline where
  id : Nat
  generator : Option ObjectId
deriving DecidableEq

/-- What the order of contexts needs to know of one. -/
def Context.outline (c : Context (Frame H)) : Outline := ⟨c.id, c.frame.generator⟩

@[simp] theorem Context.outline_stop (c : Context (Frame H)) (now : Nat) :
    (c.stop now).outline = c.outline :=
  rfl

namespace ContextStack

variable {s s' : ContextStack (Frame H)} {c : Context (Frame H)} {id now : Nat}

/-- The order of the contexts of a stack, the top first. -/
def outline (s : ContextStack (Frame H)) : List Outline := s.contexts.map Context.outline

@[simp] theorem outline_push (s : ContextStack (Frame H)) (c : Context (Frame H)) (now : Nat) :
    (s.push c now).outline = c.outline :: s.outline := by
  obtain ⟨contexts, lastId, retired⟩ := s
  cases contexts with
  | nil => rfl
  | cons caller rest =>
    simp only [push, outline, List.map_cons]
    split <;> rfl

@[simp] theorem lastId_push (s : ContextStack (Frame H)) (c : Context (Frame H)) (now : Nat) :
    (s.push c now).lastId = s.lastId := by
  unfold push
  split <;> rfl

/-- A context that has been taken off was on top. -/
theorem outline_of_pop (h : s.pop now = .ok (c, s')) :
    s.outline = c.outline :: s'.outline ∧ s'.lastId = s.lastId := by
  obtain ⟨contexts, lastId, retired⟩ := s
  cases contexts with
  | nil => cases h
  | cons top rest =>
    cases h
    cases rest with
    | nil => exact ⟨rfl, rfl⟩
    | cons caller below =>
      refine ⟨?_, rfl⟩
      simp only [outline, List.map_cons]
      split <;> rfl

/-- There is a context to take off unless the stack is empty. -/
theorem pop_of_outline {top : Outline} {rest : List Outline} (h : s.outline = top :: rest)
    (now : Nat) : ∃ c s', s.pop now = .ok (c, s') := by
  obtain ⟨contexts, lastId, retired⟩ := s
  cases contexts with
  | nil => cases h
  | cons caller below => exact ⟨_, _, rfl⟩

/-- What is resumed is on top. -/
theorem outline_of_resume (h : s.resume id now = .ok s') :
    s'.outline = s.outline ∧ s'.lastId = s.lastId ∧ (s.outline.head?.any (·.id = id)) := by
  obtain ⟨top, rest, hc, hid, -, rfl⟩ := resume_eq_ok.mp h
  refine ⟨?_, rfl, ?_⟩
  · rw [outline, outline, hc]
    rfl
  · simpa [outline, hc, Context.outline] using hid

theorem outline_of_suspend (h : s.suspend id now = .ok s') :
    s'.outline = s.outline ∧ s'.lastId = s.lastId := by
  obtain ⟨top, rest, hc, -, -, rfl⟩ := suspend_eq_ok.mp h
  refine ⟨?_, rfl⟩
  rw [outline, outline, hc]
  rfl

@[simp] theorem outline_resetAccounting (s : ContextStack (Frame H)) (now : Nat) :
    (s.resetAccounting now).outline = s.outline := by
  simp only [outline, resetAccounting, List.map_map]
  rfl

@[simp] theorem lastId_resetAccounting (s : ContextStack (Frame H)) (now : Nat) :
    (s.resetAccounting now).lastId = s.lastId :=
  rfl

theorem outline_modifyTop (s : ContextStack (Frame H)) {f : Context (Frame H) → Context (Frame H)}
    (h : ∀ c, (f c).outline = c.outline) : (s.modifyTop f).outline = s.outline := by
  obtain ⟨contexts, lastId, retired⟩ := s
  cases contexts with
  | nil => rfl
  | cons top rest => exact congrArg (· :: rest.map Context.outline) (h top)

theorem lastId_modifyTop (s : ContextStack (Frame H))
    (f : Context (Frame H) → Context (Frame H)) : (s.modifyTop f).lastId = s.lastId := by
  unfold modifyTop
  split <;> rfl

end ContextStack

/-! ### Generators and contexts -/

/-- How the state of a generator changes in one step. -/
inductive GeneratorState.Turns : GeneratorState → GeneratorState → Prop
  | start : Turns none suspendedStart
  | begin : Turns suspendedStart executing
  | cancel : Turns suspendedStart completed
  | yield : Turns executing suspendedYield
  | resume : Turns suspendedYield executing
  | complete : Turns executing completed

/-- What a realm keeps of its generators, and the order of its contexts. -/
structure Control (H : HostTypes) where
  generator? : ObjectId → Option (GeneratorData H) := fun _ => none
  stack : List Outline := []
  root : Nat := 0
  lastId : Nat := 0

namespace Control

variable {c middle after : Control H} {g o : ObjectId} {data : GeneratorData H}
  {context : Context (Frame H)} {top : Outline} {rest : List Outline}

/-- The control with a generator in the place of that of a handle. -/
def withGenerator (c : Control H) (g : ObjectId) (data : GeneratorData H) : Control H :=
  { c with generator? := fun o => if o = g then some data else c.generator? o }

/-- In how many contexts of the stack a generator runs. -/
def runs (c : Control H) (g : ObjectId) : Nat := c.stack.countP (·.generator = some g)

/-- One thing that happens to generators and contexts. -/
inductive Move : Control H → Control H → Prop
  | create (c : Control H) (g : ObjectId) (hg : c.generator? g = none) :
      Move c (c.withGenerator g {})
  | supply (c : Control H) : Move c { c with lastId := c.lastId + 1 }
  | start (c : Control H) (g : ObjectId) (data : GeneratorData H) (context : Context (Frame H))
      (hg : c.generator? g = some data) (hs : data.state = .none) (hi : context.id = c.lastId + 1)
      (hf : context.frame.generator = some g) (hb : context.frame.continuation.isSome) :
      Move c (({ c with lastId := c.lastId + 1 } : Control H).withGenerator g
        { state := .suspendedStart, context := some context })
  | enter (c : Control H) (g : ObjectId) (data : GeneratorData H) (context : Context (Frame H))
      (hg : c.generator? g = some data) (hs : data.state.isSuspended)
      (hc : data.context = some context) :
      Move c (({ c with stack := context.outline :: c.stack } : Control H).withGenerator g
        { state := .executing })
  | yield (c : Control H) (g : ObjectId) (data : GeneratorData H) (context : Context (Frame H))
      (rest : List Outline) (hg : c.generator? g = some data) (hs : data.state = .executing)
      (hc : c.stack = context.outline :: rest) (hf : context.frame.generator = some g)
      (hb : context.frame.continuation.isSome) :
      Move c (({ c with stack := rest } : Control H).withGenerator g
        { state := .suspendedYield, context := some context })
  | complete (c : Control H) (g : ObjectId) (data : GeneratorData H) (top : Outline)
      (rest : List Outline) (hg : c.generator? g = some data) (hs : data.state = .executing)
      (hc : c.stack = top :: rest) (hf : top.generator = some g) :
      Move c (({ c with stack := rest } : Control H).withGenerator g { state := .completed })
  | cancel (c : Control H) (g : ObjectId) (data : GeneratorData H)
      (hg : c.generator? g = some data) (hs : data.state = .suspendedStart) :
      Move c (c.withGenerator g { state := .completed })
  | push (c : Control H) :
      Move c { c with stack := ⟨c.lastId + 1, none⟩ :: c.stack, lastId := c.lastId + 1 }
  | pop (c : Control H) (top : Outline) (rest : List Outline) (hc : c.stack = top :: rest)
      (hf : top.generator = none) : Move c { c with stack := rest }
  /-- A realm without contexts gets its root. -/
  | root (c : Control H) (hc : c.stack = []) :
      Move c { c with
        stack := [⟨c.lastId + 1, none⟩], root := c.lastId + 1, lastId := c.lastId + 1 }

/-- Things that happen one after the other. -/
inductive Path : Control H → Control H → Prop
  | refl (c : Control H) : Path c c
  | tail {c middle after : Control H} (first : Path c middle) (last : Move middle after) :
      Path c after

theorem Move.path (h : Move c after) : Path c after := .tail (.refl c) h

theorem Path.trans (h : Path c middle) (h' : Path middle after) : Path c after := by
  induction h' with
  | refl => exact h
  | tail _ move ih => exact ih.tail move

/-! ### States -/

/-- The state of a generator. -/
def state? (c : Control H) (g : ObjectId) : Option GeneratorState := (c.generator? g).map (·.state)

theorem state?_withGenerator (c : Control H) (g o : ObjectId) (data : GeneratorData H) :
    (c.withGenerator g data).state? o = if o = g then some data.state else c.state? o := by
  unfold state? withGenerator
  dsimp only
  split
  · rfl
  · rfl

/-- A move leaves a generator alone, makes it, or changes its state as states change. -/
theorem Move.turns (h : Move c after) (o : ObjectId) :
    after.state? o = c.state? o
      ∨ c.state? o = none ∧ after.state? o = some .none
      ∨ ∃ before state, c.state? o = some before ∧ after.state? o = some state
          ∧ before.Turns state := by
  -- every move is about one generator at most
  have about {c' : Control H} {g : ObjectId} {data' : GeneratorData H}
      {before : GeneratorState} (hg : c.state? g = some before) (hc : c'.state? = c.state?)
      (ht : before.Turns data'.state) :
      (c'.withGenerator g data').state? o = c.state? o
        ∨ c.state? o = none ∧ (c'.withGenerator g data').state? o = some .none
        ∨ ∃ before state, c.state? o = some before
            ∧ (c'.withGenerator g data').state? o = some state ∧ before.Turns state := by
    by_cases heq : o = g
    · subst heq
      exact .inr (.inr ⟨before, data'.state, hg, by rw [state?_withGenerator, if_pos rfl], ht⟩)
    · exact .inl (by rw [state?_withGenerator, if_neg heq, hc])
  have state {g : ObjectId} {data : GeneratorData H} (hg : c.generator? g = some data) :
      c.state? g = some data.state := by
    rw [state?, hg, Option.map_some]
  cases h with
  | create g hg =>
    by_cases heq : o = g
    · subst heq
      refine .inr (.inl ⟨by rw [state?, hg, Option.map_none], ?_⟩)
      rw [state?_withGenerator, if_pos rfl]
    · exact .inl (by rw [state?_withGenerator, if_neg heq])
  | supply => exact .inl rfl
  | start g data context hg hs => exact about (state hg) rfl (hs ▸ .start)
  | enter g data context hg hs =>
    refine about (state hg) rfl ?_
    cases hd : data.state with
    | suspendedStart => exact .begin
    | suspendedYield => exact .resume
    | _ => simp [hd, GeneratorState.isSuspended] at hs
  | yield g data context rest hg hs => exact about (state hg) rfl (hs ▸ .yield)
  | complete g data top rest hg hs => exact about (state hg) rfl (hs ▸ .complete)
  | cancel g data hg hs => exact about (state hg) rfl (hs ▸ .cancel)
  | push => exact .inl rfl
  | pop => exact .inl rfl
  | root => exact .inl rfl

/-! ### Tidy control -/

/-- A context that waits in its generator. -/
structure Parked (c : Control H) (g : ObjectId) (context : Context (Frame H)) : Prop where
  generator : context.frame.generator = some g
  continuation : context.frame.continuation.isSome
  id_le : context.id ≤ c.lastId
  id_ne : context.id ≠ c.root

/-- Where the context of a generator is: in the generator while it waits, on the stack once while it
runs, and nowhere else. -/
structure Fits (c : Control H) (g : ObjectId) (data : GeneratorData H) : Prop where
  parked : data.state.isSuspended → ∃ context, data.context = some context ∧ c.Parked g context
  unparked : data.state.isSuspended = false → data.context = none
  runs_eq : c.runs g = if data.state = .executing then 1 else 0

/-- An order of contexts in which the root, if it is there, is at the bottom and runs no generator,
given the identity of the root and the one given out last. -/
structure Ordered (stack : List Outline) (root lastId : Nat) : Prop where
  id_le : ∀ o ∈ stack, o.id ≤ lastId
  root_le : root ≤ lastId
  root_plain : ∀ o ∈ stack, o.id = root → o.generator = none
  root_last : ∀ o ∈ stack.dropLast, o.id ≠ root

/-- Every generator has its context where it should be, and the root is at the bottom. -/
structure Tidy (c : Control H) : Prop where
  fits : ∀ g data, c.generator? g = some data → c.Fits g data
  idle : ∀ g, c.generator? g = none → c.runs g = 0
  ordered : Ordered c.stack c.root c.lastId

theorem tidy_blank (lastId : Nat) : ({ lastId } : Control H).Tidy where
  fits _ _ h := by cases h
  idle _ _ := rfl
  ordered := ⟨by simp, Nat.zero_le lastId, by simp, by simp⟩

section Ordered

variable {stack : List Outline} {root lastId lastId' : Nat}

theorem Ordered.mono (h : Ordered stack root lastId) (hl : lastId ≤ lastId') :
    Ordered stack root lastId' :=
  ⟨fun o ho => Nat.le_trans (h.id_le o ho) hl, Nat.le_trans h.root_le hl, h.root_plain,
    h.root_last⟩

/-- The root alone. -/
theorem Ordered.singleton (lastId : Nat) : Ordered [⟨lastId, none⟩] lastId lastId where
  id_le o ho := by
    obtain rfl := List.mem_singleton.mp ho
    exact Nat.le_refl _
  root_le := Nat.le_refl _
  root_plain o ho _ := by rw [List.mem_singleton.mp ho]
  root_last := nofun

theorem Ordered.tail (h : Ordered (top :: rest) root lastId) : Ordered rest root lastId where
  id_le o ho := h.id_le o (List.mem_cons_of_mem top ho)
  root_le := h.root_le
  root_plain o ho := h.root_plain o (List.mem_cons_of_mem top ho)
  root_last o ho := by
    refine h.root_last o ?_
    cases rest with
    | nil => cases ho
    | cons next below => exact List.mem_cons_of_mem top ho

theorem Ordered.cons (h : Ordered stack root lastId) (hle : top.id ≤ lastId)
    (hne : top.id ≠ root) : Ordered (top :: stack) root lastId where
  id_le o ho := by
    rcases List.mem_cons.mp ho with rfl | ho
    · exact hle
    · exact h.id_le o ho
  root_le := h.root_le
  root_plain o ho hid := by
    rcases List.mem_cons.mp ho with rfl | ho
    · exact absurd hid hne
    · exact h.root_plain o ho hid
  root_last o ho := by
    cases stack with
    | nil => cases ho
    | cons next below =>
      rw [List.dropLast_cons_cons] at ho
      rcases List.mem_cons.mp ho with rfl | ho
      · exact hne
      · exact h.root_last o ho

end Ordered

/-- A context that is kept in a generator waits in it. -/
theorem Fits.parked_of_some {context : Context (Frame H)} (h : c.Fits g data)
    (hc : data.context = some context) : data.state.isSuspended ∧ c.Parked g context := by
  cases hs : data.state.isSuspended with
  | false => cases hc.symm.trans (h.unparked hs)
  | true =>
    obtain ⟨context', hc', hp⟩ := h.parked hs
    obtain rfl : context = context' := Option.some.inj (hc.symm.trans hc')
    exact ⟨rfl, hp⟩

/-- Where a generator runs as before and a new root is a new context. -/
theorem Fits.mono (h : c.Fits g data) (hr : after.runs g = c.runs g) (hl : c.lastId ≤ after.lastId)
    (hroot : after.root = c.root ∨ c.lastId < after.root) : after.Fits g data where
  parked hs := by
    obtain ⟨context, hc, hp⟩ := h.parked hs
    refine ⟨context, hc, hp.generator, hp.continuation, Nat.le_trans hp.id_le hl, ?_⟩
    rcases hroot with heq | hlt
    · rw [heq]
      exact hp.id_ne
    · exact Nat.ne_of_lt (Nat.lt_of_le_of_lt hp.id_le hlt)
  unparked := h.unparked
  runs_eq := hr.trans h.runs_eq

/-- Where generators and what they run in are the same, only the stack has to be looked at. -/
theorem Tidy.of_runs_eq (h : c.Tidy) (hg : after.generator? = c.generator?)
    (hr : ∀ o, after.runs o = c.runs o) (hl : c.lastId ≤ after.lastId)
    (hroot : after.root = c.root ∨ c.lastId < after.root)
    (ho : Ordered after.stack after.root after.lastId) : after.Tidy where
  fits g data hd := (h.fits g data (hg ▸ hd)).mono (hr g) hl hroot
  idle g hd := (hr g).trans (h.idle g (hg ▸ hd))
  ordered := ho

/-- A generator may be replaced where the new one fits and the others run as before. -/
theorem Tidy.withGenerator (h : c.Tidy) (hf : after.Fits g data)
    (hg : after.generator? = c.generator?) (hr : ∀ o, o ≠ g → after.runs o = c.runs o)
    (hl : c.lastId ≤ after.lastId) (hroot : after.root = c.root)
    (ho : Ordered after.stack after.root after.lastId) : (after.withGenerator g data).Tidy where
  fits o data' hd := by
    change (if o = g then some data else after.generator? o) = _ at hd
    split at hd
    · next heq =>
      cases hd
      subst heq
      exact hf.mono rfl (Nat.le_refl _) (.inl rfl)
    · next hne =>
      rw [hg] at hd
      exact (h.fits o data' hd).mono (hr o hne) hl (.inl hroot)
  idle o hd := by
    change (if o = g then some data else after.generator? o) = _ at hd
    split at hd
    · cases hd
    · next hne => exact (hr o hne).trans (h.idle o (hg ▸ hd))
  ordered := ho

theorem runs_cons (c : Control H) (top : Outline) (rest : List Outline) (o : ObjectId) :
    ({ c with stack := top :: rest } : Control H).runs o
      = ({ c with stack := rest } : Control H).runs o
        + if top.generator = some o then 1 else 0 := by
  simp only [runs, List.countP_cons, decide_eq_true_eq]

theorem runs_of_stack (hc : c.stack = top :: rest) (o : ObjectId) :
    c.runs o
      = ({ c with stack := rest } : Control H).runs o
        + if top.generator = some o then 1 else 0 := by
  rw [← runs_cons, ← hc]

/-- A generator whose context leaves the stack, while the others run as before. -/
theorem Tidy.leave {state : GeneratorState} {parked? : Option (Context (Frame H))} (h : c.Tidy)
    (hg : c.generator? g = some data) (hs : data.state = .executing) (hc : c.stack = top :: rest)
    (hf : top.generator = some g) (he : state ≠ .executing)
    (hp : state.isSuspended → ∃ context, parked? = some context ∧ c.Parked g context)
    (hn : state.isSuspended = false → parked? = none) :
    (({ c with stack := rest } : Control H).withGenerator g
      { state, context := parked? }).Tidy := by
  have hrun := (h.fits g data hg).runs_eq
  have ho := h.ordered
  rw [hc] at ho
  refine h.withGenerator ⟨fun hw => ?_, hn, ?_⟩ rfl (fun o hne => ?_) (Nat.le_refl _) rfl ho.tail
  · obtain ⟨context, heq, hp⟩ := hp hw
    exact ⟨context, heq, hp.generator, hp.continuation, hp.id_le, hp.id_ne⟩
  · rw [runs_of_stack hc, if_pos hf, if_pos hs] at hrun
    rw [if_neg he]
    exact Nat.succ.inj hrun
  · have hne' : top.generator ≠ some o := fun heq => hne (Option.some.inj (heq.symm.trans hf))
    rw [runs_of_stack hc, if_neg hne', Nat.add_zero]

/-- A generator whose parked context goes on the stack, while the others run as before. -/
theorem Tidy.enter {context : Context (Frame H)} (h : c.Tidy) (hg : c.generator? g = some data)
    (hs : data.state.isSuspended) (hc : data.context = some context) :
    (({ c with stack := context.outline :: c.stack } : Control H).withGenerator g
      { state := .executing, context := none }).Tidy := by
  obtain ⟨context', hc', hp⟩ := (h.fits g data hg).parked hs
  obtain rfl : context = context' := Option.some.inj (hc.symm.trans hc')
  have hgen : context.outline.generator = some g := hp.generator
  have hruns : c.runs g = 0 := by
    rw [(h.fits g data hg).runs_eq, if_neg fun he => ?_]
    simp [he, GeneratorState.isSuspended] at hs
  refine h.withGenerator ⟨nofun, fun _ => rfl, ?_⟩ rfl (fun o hne => ?_) (Nat.le_refl _) rfl
    (h.ordered.cons hp.id_le hp.id_ne)
  · rw [runs_cons, if_pos hgen]
    exact congrArg (· + 1) hruns
  · rw [runs_cons, if_neg fun heq => hne (Option.some.inj (heq.symm.trans hgen))]
    rfl

theorem Move.tidy (hm : Move c after) (h : c.Tidy) : after.Tidy := by
  have hroot := h.ordered.root_le
  cases hm with
  | create g hg =>
    exact h.withGenerator ⟨nofun, fun _ => rfl, h.idle g hg⟩ rfl (fun _ _ => rfl) (Nat.le_refl _)
      rfl h.ordered
  | supply =>
    exact h.of_runs_eq rfl (fun _ => rfl) (Nat.le_succ _) (.inl rfl)
      (h.ordered.mono (Nat.le_succ _))
  | start g data context hg hs hi hf hb =>
    have hruns : c.runs g = 0 := by
      rw [(h.fits g data hg).runs_eq, hs]
      rfl
    have hne : context.id ≠ c.root := by omega
    exact h.withGenerator ⟨fun _ => ⟨context, rfl, hf, hb, Nat.le_of_eq hi, hne⟩, nofun, hruns⟩ rfl
      (fun _ _ => rfl) (Nat.le_succ _) rfl (h.ordered.mono (Nat.le_succ _))
  | enter g data context hg hs hc => exact h.enter hg hs hc
  | yield g data context rest hg hs hc hf hb =>
    have htop : context.outline ∈ c.stack := hc ▸ List.mem_cons_self
    have hgen : context.outline.generator = some g := hf
    refine h.leave hg hs hc hgen nofun (fun _ => ⟨context, rfl, hf, hb, ?_, fun hid => ?_⟩) nofun
    · exact h.ordered.id_le _ htop
    · rw [h.ordered.root_plain _ htop hid] at hgen
      cases hgen
  | complete g data top rest hg hs hc hf =>
    exact h.leave hg hs hc hf nofun nofun fun _ => rfl
  | cancel g data hg hs =>
    have hruns : c.runs g = 0 := by
      rw [(h.fits g data hg).runs_eq, hs]
      rfl
    exact h.withGenerator ⟨nofun, fun _ => rfl, hruns⟩ rfl (fun _ _ => rfl) (Nat.le_refl _) rfl
      h.ordered
  | push =>
    have hne : c.lastId + 1 ≠ c.root := by omega
    exact h.of_runs_eq rfl (fun o => runs_cons c _ c.stack o) (Nat.le_succ _) (.inl rfl)
      ((h.ordered.mono (Nat.le_succ _)).cons (Nat.le_refl _) hne)
  | pop top rest hc hf =>
    have ho := h.ordered
    rw [hc] at ho
    refine h.of_runs_eq rfl (fun o => ?_) (Nat.le_refl _) (.inl rfl) ho.tail
    rw [runs_of_stack hc, hf, if_neg nofun, Nat.add_zero]
  | root hc =>
    refine h.of_runs_eq rfl (fun o => ?_) (Nat.le_succ _) (.inr (Nat.lt_succ_self _)) (.singleton _)
    change List.countP _ [_] = List.countP _ c.stack
    rw [hc]
    rfl

/-- Moves keep generators and contexts tidy. -/
theorem Path.tidy (hp : Path c after) (h : c.Tidy) : after.Tidy := by
  induction hp with
  | refl => exact h
  | tail _ last ih => exact last.tidy ih

/-- A root on top is alone on the stack. -/
theorem Tidy.rest_of_root (h : c.Tidy) (hc : c.stack = top :: rest) (hid : top.id = c.root) :
    rest = [] := by
  cases rest with
  | nil => rfl
  | cons next below =>
    refine absurd hid (h.ordered.root_last top ?_)
    rw [hc]
    exact List.mem_cons_self

/-- A generator that a context of the stack runs is running. -/
theorem Tidy.executing_of_mem (h : c.Tidy) (ht : top ∈ c.stack) (hg : top.generator = some g) :
    ∃ data, c.generator? g = some data ∧ data.state = .executing := by
  have hpos : 0 < c.runs g := List.countP_pos_iff.mpr ⟨top, ht, by simpa using hg⟩
  cases hd : c.generator? g with
  | none => exact absurd (h.idle g hd) (Nat.ne_of_gt hpos)
  | some data =>
    refine ⟨data, rfl, Decidable.byContradiction fun hne => ?_⟩
    rw [(h.fits g data hd).runs_eq, if_neg hne] at hpos
    exact Nat.lt_irrefl 0 hpos

end Control

/-- What a realm keeps of its generators, and the order of its contexts. -/
def Realm.control (realm : Realm H) : Control H :=
  { generator? := realm.view ObjectKind.generator?
    stack := realm.contexts.outline
    root := realm.rootContext
    lastId := realm.contexts.lastId }

end ScriptEngine
