import ScriptEngine.Proofs.PlainObject

/-!
# Properties along the chain of prototypes

A property is searched for in an object, then in its prototype, and so on. Where the objects on the
way keep their own properties themselves, the search runs no code of the program, and what it finds
is read off the chain.

## Main definitions

* `Realm.Finds`: what a search for a property finds.
* `Ordinary.search`: what an object does to look for a property.
* `Engine.Searches`: the requests that are answered by a search.

## Main results

* `ObjectId.searches_hasProperty`, `ObjectId.searches_getFor`, `ObjectId.searches_setFor`: the three
  requests that search.
* `Engine.Searches.gives_step`, `Dispatch.get_eq`, `Dispatch.set_eq`: one step of a search.
* `ObjectId.getFor_gives_of_isData`: reading a data property of an object that has it.
* `Realm.Finds.setFor_eq`: setting what is found.
* `Engine.Searches.reads`: a search leaves the realm as it was.
-/

namespace ScriptEngine

open Engine

variable {H : HostTypes} {α β : Type}

/-- What a search for a property finds, from an object on and through objects that keep their own
properties themselves: the property of the first one that has it, or nothing at the end. -/
inductive Realm.Finds (realm : Realm H) (k : PropertyKey) : ObjectId → Option Descriptor → Prop
  | own {o : ObjectId} {object : Object H} {d : Descriptor} (ho : realm.object? o = some object)
      (hp : object.kind.isPlain) (hk : object.ownProperty? k = some d) : Finds realm k o (some d)
  | missing {o : ObjectId} {object : Object H} (ho : realm.object? o = some object)
      (hp : object.kind.isPlain) (hk : object.ownProperty? k = none)
      (hn : object.prototype = none) : Finds realm k o none
  | inherited {o parent : ObjectId} {object : Object H} {found : Option Descriptor}
      (ho : realm.object? o = some object) (hp : object.kind.isPlain)
      (hk : object.ownProperty? k = none) (hn : object.prototype = some parent)
      (h : Finds realm k parent found) : Finds realm k o found

theorem Realm.Finds.isPlain_and_ownProperty? {realm : Realm H} {k : PropertyKey} {o : ObjectId}
    {object : Object H} (h : realm.Finds k o none) (ho : realm.object? o = some object) :
    object.kind.isPlain ∧ object.ownProperty? k = none := by
  cases h with
  | missing ho' hp hk =>
    cases ho.symm.trans ho'
    exact ⟨hp, hk⟩
  | inherited ho' hp hk =>
    cases ho.symm.trans ho'
    exact ⟨hp, hk⟩

/-! ### One step of a search -/

section Step

variable {host : Host H} {bound : Nat} {s : Surroundings H} {realm : Realm H} {o : ObjectId}
  {object : Object H} {k : PropertyKey} {v receiver : Value}

theorem Dispatch.hasProperty_of_isPlain (s : Surroundings H) (ho : realm.object? o = some object)
    (hp : object.kind.isPlain) :
    (Dispatch.hasProperty o k).act s realm = (Ordinary.hasProperty o k).act s realm :=
  Engine.getKind_bind_of_isPlain ho hp

theorem Dispatch.get_of_isPlain (s : Surroundings H) (ho : realm.object? o = some object)
    (hp : object.kind.isPlain) :
    (Dispatch.get o k receiver).act s realm = (Ordinary.get o k receiver).act s realm :=
  Engine.getKind_bind_of_isPlain ho hp

theorem Dispatch.set_of_isPlain (s : Surroundings H) (ho : realm.object? o = some object)
    (hp : object.kind.isPlain) :
    (Dispatch.set o k v receiver).act s realm = (Ordinary.set o k v receiver).act s realm :=
  Engine.getKind_bind_of_isPlain ho hp

/-- Looking for a property: an object that has it is the last one asked, and one that has not asks
its prototype, where there is one. -/
def Ordinary.search (k : PropertyKey) (conclude : Option Descriptor → Engine H α)
    (request : ObjectId → Engine H α) (o : ObjectId) : Engine H α := do
  match ← o.getOwnProperty k with
  | some d => conclude (some d)
  | none =>
    match ← o.getPrototypeOf with
    | some parent => request parent
    | none => conclude none

/-- What looking for a property comes down to at an object, once the object has been read. -/
def Object.search (object : Object H) (k : PropertyKey)
    (conclude : Option Descriptor → Engine H α) (request : ObjectId → Engine H α) : Engine H α :=
  match object.ownProperty? k, object.prototype with
  | some d, _ => conclude (some d)
  | none, some parent => request parent
  | none, none => conclude none

theorem Ordinary.hasProperty_eq_search (o : ObjectId) (k : PropertyKey) :
    (Ordinary.hasProperty o k : Engine H Bool)
      = Ordinary.search k (fun found => return found.isSome) (·.hasProperty k) o := by
  refine congrArg (o.getOwnProperty k >>= ·) (funext fun own => ?_)
  cases own with
  | some d => rfl
  | none => rfl

theorem Ordinary.get_eq_search (o : ObjectId) (k : PropertyKey) (receiver : Value) :
    (Ordinary.get o k receiver : Engine H Value)
      = Ordinary.search k (fun found => found.elim (pure .undefined) (valueFor · receiver))
        (·.getFor k receiver) o :=
  rfl

theorem Ordinary.set_eq_search (o : ObjectId) (k : PropertyKey) (v receiver : Value) :
    (Ordinary.set o k v receiver : Engine H Bool)
      = Ordinary.search k (fun found => setFound (found.getD (.plain .undefined)) k v receiver)
        (·.setFor k v receiver) o :=
  rfl

theorem Ordinary.search_gives {need : Nat} {conclude : Option Descriptor → Engine H α}
    {request : ObjectId → Engine H α} {expected : EStateM.Result Stop (Realm H) α}
    (ho : realm.object? o = some object) (hp : object.kind.isPlain) (hl : ¬realm.AtLimit)
    (hn : 1 ≤ need)
    (h : Gives need bound ((object.search k conclude request).act (.bounded host bound) realm)
      expected) :
    Gives need bound ((Ordinary.search k conclude request o).act (.bounded host bound) realm)
      expected := by
  unfold Object.search at h
  refine Gives.bindEngine ((ObjectId.getOwnProperty_gives ho hp hl k).mono hn) ?_
  cases hk : object.ownProperty? k with
  | some d =>
    rw [hk] at h
    exact h
  | none =>
    rw [hk] at h
    refine Gives.bindEngine ((ObjectId.getPrototypeOf_gives ho hp hl).mono hn) ?_
    cases hproto : object.prototype with
    | some parent =>
      rw [hproto] at h
      exact h
    | none =>
      rw [hproto] at h
      exact h

/-- Reading a property of an object: it has the property, or the search goes on. -/
theorem Dispatch.get_eq (ho : realm.object? o = some object) (hp : object.kind.isPlain)
    (hl : ¬realm.AtLimit) (hb : 0 < bound) :
    (Dispatch.get o k receiver).act (.bounded host bound) realm
      = (match object.ownProperty? k, object.prototype with
        | some d, _ => Ordinary.valueFor d receiver
        | none, some parent => parent.getFor k receiver
        | none, none => pure .undefined).act (.bounded host bound) realm := by
  rw [Dispatch.get_of_isPlain _ ho hp, Ordinary.get_eq_search]
  exact (Ordinary.search_gives ho hp hl (Nat.le_refl 1) (.of_eq rfl)).eq_of_le hb

/-- Setting a property of an object: it has the property, or the search goes on. -/
theorem Dispatch.set_eq (ho : realm.object? o = some object) (hp : object.kind.isPlain)
    (hl : ¬realm.AtLimit) (hb : 0 < bound) :
    (Dispatch.set o k v receiver).act (.bounded host bound) realm
      = (match object.ownProperty? k, object.prototype with
        | some own, _ => Ordinary.setFound own k v receiver
        | none, some parent => parent.setFor k v receiver
        | none, none => Ordinary.setFound (.plain .undefined) k v receiver).act
          (.bounded host bound) realm := by
  rw [Dispatch.set_of_isPlain _ ho hp, Ordinary.set_eq_search]
  exact (Ordinary.search_gives ho hp hl (Nat.le_refl 1) (.of_eq rfl)).eq_of_le hb

/-- A request that looks for a property is answered one level deeper, where an object that keeps its
own properties itself searches for it and makes the same request to its prototype. -/
structure Engine.Searches (host : Host H) (k : PropertyKey) (request : ObjectId → Engine H α)
    (conclude : Option Descriptor → Engine H α) : Prop where
  exhausted : ∀ o realm, (request o).act (.bounded host 0) realm = .error .exhausted realm
  step : ∀ {o : ObjectId} {realm : Realm H} {object : Object H}, realm.object? o = some object →
    object.kind.isPlain → ∀ bound, (request o).act (.bounded host (bound + 1)) realm
      = (Ordinary.search k conclude request o).act.nested (.bounded host bound) realm

theorem ObjectId.searches_hasProperty (host : Host H) (k : PropertyKey) :
    Engine.Searches host k (·.hasProperty k) fun found => return found.isSome where
  exhausted _ _ := rfl
  step {o realm _} ho hp bound := by
    have ho' : realm.deeper.object? o = some _ := ho
    refine Action.nested_congr ((Dispatch.hasProperty_of_isPlain _ ho' hp).trans ?_)
    rw [Ordinary.hasProperty_eq_search]

theorem ObjectId.searches_getFor (host : Host H) (k : PropertyKey) (receiver : Value) :
    Engine.Searches host k (·.getFor k receiver) fun found =>
      found.elim (pure .undefined) (Ordinary.valueFor · receiver) where
  exhausted _ _ := rfl
  step {o realm _} ho hp bound := by
    have ho' : realm.deeper.object? o = some _ := ho
    exact Action.nested_congr (Dispatch.get_of_isPlain _ ho' hp)

theorem ObjectId.searches_setFor (host : Host H) (k : PropertyKey) (v receiver : Value) :
    Engine.Searches host k (·.setFor k v receiver) fun found =>
      Ordinary.setFound (found.getD (.plain .undefined)) k v receiver where
  exhausted _ _ := rfl
  step {o realm _} ho hp bound := by
    have ho' : realm.deeper.object? o = some _ := ho
    exact Action.nested_congr (Dispatch.set_of_isPlain _ ho' hp)

/-- One step of a request that searches. -/
theorem Engine.Searches.gives_step {need : Nat} {after : Realm H} {a : α}
    {request : ObjectId → Engine H α} {conclude : Option Descriptor → Engine H α}
    (hs : Engine.Searches host k request conclude) (ho : realm.object? o = some object)
    (hp : object.kind.isPlain) (hl : ¬realm.deeper.AtLimit) (hn : 1 ≤ need)
    (h : ∀ bound, Gives need bound ((object.search k conclude request).act (.bounded host bound)
      realm.deeper) (.ok a after.deeper)) :
    Gives (need + 1) bound ((request o).act (.bounded host bound) realm) (.ok a after) := by
  cases bound with
  | zero => exact .inr ⟨Nat.succ_pos need, realm, hs.exhausted o realm⟩
  | succ bound =>
    have ho' : realm.deeper.object? o = some object := ho
    rw [hs.step ho hp]
    have hsearch := Ordinary.search_gives ho' hp hl hn (h bound)
    exact Gives.succ (.nested (fun h => hl (Realm.deeper_atLimit h)) hsearch)

/-- Reading a data property of an object that has it. -/
theorem ObjectId.getFor_gives_of_isData {d : Descriptor} (ho : realm.object? o = some object)
    (hp : object.kind.isPlain) (hl : ¬realm.deeper.AtLimit) (hk : object.ownProperty? k = some d)
    (hd : d.isData) :
    Gives 2 bound ((o.getFor k receiver).act (.bounded host bound) realm) (.ok d.valueD realm) := by
  refine (ObjectId.searches_getFor host k receiver).gives_step ho hp hl (Nat.le_refl 1)
    fun bound => .of_eq ?_
  simp only [Object.search, hk, Option.elim_some, Ordinary.valueFor, if_pos hd]
  rfl

end Step

/-! ### Searches without a limit on the depth of calls -/

section Search

variable {host : Host H} {bound : Nat} {realm : Realm H} {o : ObjectId} {k : PropertyKey}
  {v receiver : Value} {found : Option Descriptor}

/-- Where the limit is met, it is met at every greater depth. -/
theorem Realm.atLimit_of_le {m n : Nat} (h : m ≤ n) (hl : (realm.atDepth m).AtLimit) :
    (realm.atDepth n).AtLimit :=
  ⟨hl.1, Nat.le_trans hl.2 h⟩

theorem Realm.not_atLimit_atDepth (hz : realm.config.maxCallDepth = 0) (depth : Nat) :
    ¬(realm.atDepth depth).AtLimit :=
  fun h => h.1 hz

theorem ObjectId.setFor_atDepth (hz : realm.config.maxCallDepth = 0) (depth : Nat) :
    (o.setFor k v receiver).act (.bounded host (bound + 1)) (realm.atDepth depth)
      = outcomeShallower ((Dispatch.set o k v receiver).act (.bounded host bound)
        (realm.atDepth (depth + 1))) :=
  Action.nested_of_not_atLimit (Realm.not_atLimit_atDepth hz depth) _ _

/-- Setting a property that is found, or that is nowhere, comes down to setting it for the
receiver. -/
theorem Realm.Finds.setFor_eq {after : Realm H} {done : Bool} {least : Nat}
    (hz : realm.config.maxCallDepth = 0) (h : realm.Finds k o found)
    (hset : ∀ bound, least ≤ bound → ∀ depth,
      (Ordinary.setFound (found.getD (.plain .undefined)) k v receiver).act (.bounded host bound)
        (realm.atDepth depth) = .ok done (after.atDepth depth)) :
    ∃ least, ∀ bound, least ≤ bound → ∀ depth,
      (o.setFor k v receiver).act (.bounded host bound) (realm.atDepth depth)
        = .ok done (after.atDepth depth) := by
  -- what one object contributes: a method that goes on to `next` at the same depth
  have hstep {o : ObjectId} {object : Object H} {next : Engine H Bool} {least : Nat}
      (ho : realm.object? o = some object) (hp : object.kind.isPlain)
      (hnext : (match object.ownProperty? k, object.prototype with
        | some d, _ => Ordinary.setFound d k v receiver
        | none, some parent => parent.setFor k v receiver
        | none, none => Ordinary.setFound (.plain .undefined) k v receiver) = next)
      (hleast : ∀ bound, least ≤ bound → ∀ depth,
        next.act (.bounded host bound) (realm.atDepth depth) = .ok done (after.atDepth depth))
      (bound : Nat) (hb : least + 2 ≤ bound) (depth : Nat) :
      (o.setFor k v receiver).act (.bounded host bound) (realm.atDepth depth)
        = .ok done (after.atDepth depth) := by
    obtain ⟨bound, rfl⟩ := Nat.exists_eq_add_of_le' (Nat.le_trans (Nat.le_add_left 2 least) hb)
    have ho' : (realm.atDepth (depth + 1)).object? o = some object := ho
    rw [ObjectId.setFor_atDepth hz, Dispatch.set_eq ho' hp (Realm.not_atLimit_atDepth hz _)
      (Nat.succ_pos _), hnext, hleast _ (by omega)]
    rfl
  induction h with
  | own ho hp hk => exact ⟨least + 2, hstep ho hp (by rw [hk]; rfl) hset⟩
  | missing ho hp hk hn => exact ⟨least + 2, hstep ho hp (by rw [hk, hn]; rfl) hset⟩
  | inherited ho hp hk hn _ ih =>
    obtain ⟨least, hleast⟩ := ih hset
    exact ⟨least + 2, hstep ho hp (by rw [hk, hn]) hleast⟩

end Search

/-! ### Computations that only read -/

/-- A computation leaves a realm as it is, if it has a result. -/
def Engine.Reads (x : Engine H α) (s : Surroundings H) (realm : Realm H) : Prop :=
  ∀ a after, x.act s realm = .ok a after → after = realm

section Reads

variable {host : Host H} {bound : Nat} {s : Surroundings H} {realm : Realm H} {x : Engine H α}

theorem Engine.Reads.pure (a : α) : (pure a : Engine H α).Reads s realm := by
  intro a' after h
  cases h
  rfl

theorem Engine.Reads.bind {f : α → Engine H β} (hx : x.Reads s realm)
    (hf : ∀ a, x.act s realm = .ok a realm → (f a).Reads s realm) : (x >>= f).Reads s realm := by
  intro b after h
  obtain ⟨a, middle, hfirst, hlast⟩ := Engine.ok_of_bind h
  obtain rfl := hx a middle hfirst
  exact hf a hfirst b after hlast

theorem Engine.Reads.nested (hx : x.Reads s realm.deeper) : (nested x).Reads s realm := by
  intro a after h
  by_cases hl : realm.AtLimit
  · have hstop : (Engine.nested x).act s realm = _ := Action.nested_of_atLimit hl
    rw [hstop] at h
    cases h
  · cases hinner : x.act s realm.deeper with
    | ok b inner =>
      obtain rfl := hx b inner hinner
      cases (Action.nested_of_result hl hinner).symm.trans h
      rfl
    | error stop inner => cases (Action.nested_of_stop hl hinner).symm.trans h

variable {o : ObjectId} {object : Object H} {k : PropertyKey} {receiver : Value}
  {found : Option Descriptor}

theorem Engine.reads_isCallable (v : Value) : (isCallable v : Engine H Bool).Reads s realm := by
  intro b after h
  cases h
  rfl

theorem ObjectId.getOwnProperty_reads (ho : realm.object? o = some object)
    (hp : object.kind.isPlain) : (o.getOwnProperty k).Reads (.bounded host bound) realm :=
  fun _ _ h => (ObjectId.eq_of_getOwnProperty ho hp h).2

theorem ObjectId.getPrototypeOf_reads (ho : realm.object? o = some object)
    (hp : object.kind.isPlain) : o.getPrototypeOf.Reads (.bounded host bound) realm :=
  fun _ _ h => (ObjectId.eq_of_getPrototypeOf ho hp h).2

variable {request : ObjectId → Engine H α} {conclude : Option Descriptor → Engine H α}

theorem Ordinary.search_reads (ho : realm.object? o = some object) (hp : object.kind.isPlain)
    (h : (object.search k conclude request).Reads (.bounded host bound) realm) :
    (Ordinary.search k conclude request o).Reads (.bounded host bound) realm := by
  unfold Object.search at h
  refine (ObjectId.getOwnProperty_reads ho hp).bind fun d hd => ?_
  obtain rfl := (ObjectId.eq_of_getOwnProperty ho hp hd).1
  cases hk : object.ownProperty? k with
  | some d =>
    rw [hk] at h
    exact h
  | none =>
    rw [hk] at h
    refine (ObjectId.getPrototypeOf_reads ho hp).bind fun prototype hproto => ?_
    obtain rfl := (ObjectId.eq_of_getPrototypeOf ho hp hproto).1
    cases hn : object.prototype with
    | some parent =>
      rw [hn] at h
      exact h
    | none =>
      rw [hn] at h
      exact h

theorem Engine.Searches.reads_step (hs : Engine.Searches host k request conclude)
    (ho : realm.object? o = some object) (hp : object.kind.isPlain)
    (h : ∀ bound, (object.search k conclude request).Reads (.bounded host bound) realm.deeper) :
    (request o).Reads (.bounded host bound) realm := by
  intro a after hok
  cases bound with
  | zero => cases (hs.exhausted o realm).symm.trans hok
  | succ bound =>
    have ho' : realm.deeper.object? o = some object := ho
    rw [hs.step ho hp] at hok
    exact (Ordinary.search_reads ho' hp (h bound)).nested a after hok

/-- A search along the chain of prototypes changes nothing if what it concludes with changes
nothing. -/
theorem Engine.Searches.reads (hs : Engine.Searches host k request conclude)
    (h : realm.Finds k o found)
    (hc : ∀ bound depth, (conclude found).Reads (.bounded host bound) (realm.atDepth depth))
    (bound depth : Nat) : (request o).Reads (.bounded host bound) (realm.atDepth depth) := by
  induction h generalizing bound depth with
  | own ho hp hk =>
    refine hs.reads_step (ho : (realm.atDepth depth).object? _ = _) hp fun bound => ?_
    rw [Object.search, hk]
    exact hc bound (depth + 1)
  | missing ho hp hk hn =>
    refine hs.reads_step (ho : (realm.atDepth depth).object? _ = _) hp fun bound => ?_
    rw [Object.search, hk, hn]
    exact hc bound (depth + 1)
  | inherited ho hp hk hn _ ih =>
    refine hs.reads_step (ho : (realm.atDepth depth).object? _ = _) hp fun bound => ?_
    rw [Object.search, hk, hn]
    exact ih hc bound (depth + 1)

theorem Realm.Finds.hasProperty_reads (h : realm.Finds k o found) (bound depth : Nat) :
    (o.hasProperty k).Reads (.bounded host bound) (realm.atDepth depth) :=
  (ObjectId.searches_hasProperty host k).reads h (fun _ _ => .pure found.isSome) bound depth

/-- Reading a property that is not an accessor changes nothing. -/
theorem Realm.Finds.getFor_reads (h : realm.Finds k o found)
    (hdata : ∀ d, found = some d → d.isData) (bound depth : Nat) :
    (o.getFor k receiver).Reads (.bounded host bound) (realm.atDepth depth) := by
  refine (ObjectId.searches_getFor host k receiver).reads h (fun bound depth => ?_) bound depth
  cases found with
  | some d =>
    rw [Option.elim_some, Ordinary.valueFor, if_pos (hdata d rfl)]
    exact .pure d.valueD
  | none => exact .pure Value.undefined

end Reads

end ScriptEngine
