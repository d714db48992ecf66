import Mathlib
import ScriptEngine.Proofs.Outcome

/-!
# The registry of symbols

A realm hands out symbols: new ones, and one for each key, which is made when it is first asked for
and kept in a registry. Both kinds take their identities from one counter, so that the calls that
made a symbol are told apart by its identity. A symbol therefore leads back to its key, although the
registry is searched by identities only, and a symbol that was not made for a key leads to none.

## Main definitions

* `SymbolCall`, `SymbolHistory`: the calls for symbols, and what they returned.
* `SymbolHistory.registered?`, `SymbolHistory.makers`: the symbol of a key, and the calls that made
  a symbol, by the history alone.
* `Realm.Registers`: a realm whose counter and registry are as a history tells.
* `SymbolSession`: symbols in use, with their history.

## Main results

* `Realm.Registers.performs`: what a call returns, and what the realm registers after it.
* `Realm.Registers.keyFor?_of_registered`, `Realm.Registers.keyFor?_of_forall_ne`: the key of a
  symbol.
* `symbols_told_apart`: the symbols of a session are told apart, and keys and symbols lead to each
  other.
-/

namespace ScriptEngine

open Engine

variable {H : HostTypes}

/-! ### Histories -/

/-- A call for a symbol: for a new one, or for the one that belongs to a key. -/
inductive SymbolCall where
  | fresh (description : Option String)
  | keyed (key : String)

/-- What a call for a symbol does. -/
def SymbolCall.perform : SymbolCall → Engine H Symbol
  | fresh description => newSymbol description
  | keyed key => symbolFor key

/-- The calls for symbols and what they returned, the latest first. -/
abbrev SymbolHistory := List (SymbolCall × Symbol)

namespace SymbolHistory

/-- The symbol that belongs to a key: what the first call for the key returned. -/
def registered? : SymbolHistory → String → Option Symbol
  | [], _ => none
  | (.fresh _, _) :: earlier, key => registered? earlier key
  | (.keyed key', s) :: earlier, key =>
    (registered? earlier key).or (if key = key' then some s else none)

/-- The calls that made a symbol, the latest first: those for a new one, and the first one for each
key. -/
def makers : SymbolHistory → SymbolHistory
  | [] => []
  | (.fresh description, s) :: earlier => (.fresh description, s) :: makers earlier
  | (.keyed key, s) :: earlier =>
    if (registered? earlier key).isSome then makers earlier else (.keyed key, s) :: makers earlier

/-- The symbols that were made, the latest first. -/
def made (history : SymbolHistory) : List Symbol := history.makers.map Prod.snd

variable {history : SymbolHistory} {key : String} {s : Symbol}

theorem makers_sublist (history : SymbolHistory) : history.makers.Sublist history := by
  induction history with
  | nil => exact .slnil
  | cons event earlier ih =>
    obtain ⟨call, s⟩ := event
    cases call with
    | fresh description => exact ih.cons_cons _
    | keyed key =>
      rw [makers]
      split
      · exact ih.cons _
      · exact ih.cons_cons _

theorem mem_makers_of_fresh {description : Option String}
    (h : (.fresh description, s) ∈ history) : (.fresh description, s) ∈ history.makers := by
  induction history with
  | nil => cases h
  | cons event earlier ih =>
    obtain ⟨call, s'⟩ := event
    rcases List.mem_cons.mp h with heq | hearlier
    · cases heq
      exact List.mem_cons_self
    · cases call with
      | fresh description' => exact List.mem_cons_of_mem _ (ih hearlier)
      | keyed key =>
        rw [makers]
        split
        · exact ih hearlier
        · exact List.mem_cons_of_mem _ (ih hearlier)

/-- The symbol of a key was made by a call for the key. -/
theorem mem_makers_of_registered? (h : history.registered? key = some s) :
    (.keyed key, s) ∈ history.makers := by
  induction history with
  | nil => cases h
  | cons event earlier ih =>
    obtain ⟨call, s'⟩ := event
    cases call with
    | fresh description => exact List.mem_cons_of_mem _ (ih h)
    | keyed key' =>
      rw [registered?, Option.or_eq_some_iff] at h
      rw [makers]
      rcases h with h | ⟨hnone, h⟩
      · split
        · exact ih h
        · exact List.mem_cons_of_mem _ (ih h)
      · split at h
        · next heq =>
          cases h
          rw [← heq, hnone]
          exact List.mem_cons_self
        · cases h

end SymbolHistory

/-! ### Realms that are as a history tells -/

/-- A realm keeps the symbols that a history tells of. Its counter has passed the identities of the
symbols that were made, which follow each other; its registry has the symbol of every key; and every
call for a key returned that symbol. -/
structure Realm.Registers (realm : Realm H) (history : SymbolHistory) : Prop where
  next : realm.nextSymbol = Symbol.firstFresh + history.makers.length
  ids : history.makers.reverse.map (·.2.id)
    = List.range' Symbol.firstFresh history.makers.length
  registry : ∀ key, realm.symbols.get? key = history.registered? key
  returned : ∀ key s, (.keyed key, s) ∈ history → history.registered? key = some s

namespace Realm.Registers

variable {realm after : Realm H} {history : SymbolHistory} {key : String} {s : Symbol}
  {event event' : SymbolCall × Symbol}

/-- The identities of symbols that were made are those that the counter has passed. -/
theorem id_bounds (h : realm.Registers history) (hmade : event ∈ history.makers) :
    Symbol.firstFresh ≤ event.2.id ∧ event.2.id < realm.nextSymbol := by
  have hmem : event.2.id ∈ history.makers.reverse.map (·.2.id) :=
    List.mem_map_of_mem (List.mem_reverse.mpr hmade)
  rw [h.ids, List.mem_range'_1] at hmem
  rwa [h.next]

theorem ids_nodup (h : realm.Registers history) : (history.makers.map (·.2.id)).Nodup := by
  have hnodup : (history.makers.reverse.map (·.2.id)).Nodup := h.ids ▸ List.nodup_range'
  rwa [List.map_reverse, List.nodup_reverse] at hnodup

/-- The identity of a symbol says by which call it was made. -/
theorem eq_of_id_eq (h : realm.Registers history) (hmade : event ∈ history.makers)
    (hmade' : event' ∈ history.makers) (hid : event.2.id = event'.2.id) : event = event' :=
  List.inj_on_of_nodup_map h.ids_nodup hmade hmade' hid

/-- Symbols of different keys differ. -/
theorem key_eq_of_id_eq (h : realm.Registers history) {key' : String} {s' : Symbol}
    (hs : history.registered? key = some s) (hs' : history.registered? key' = some s')
    (hid : s.id = s'.id) : key = key' := by
  have heq := h.eq_of_id_eq (SymbolHistory.mem_makers_of_registered? hs)
    (SymbolHistory.mem_makers_of_registered? hs') hid
  cases heq
  rfl

/-- A symbol that was made as a new one differs from those of the keys. -/
theorem id_ne_of_fresh (h : realm.Registers history) {description : Option String} {s' : Symbol}
    (hs : (.fresh description, s) ∈ history) (hs' : history.registered? key = some s') :
    s'.id ≠ s.id := fun hid =>
  nomatch h.eq_of_id_eq (SymbolHistory.mem_makers_of_registered? hs')
    (SymbolHistory.mem_makers_of_fresh hs) hid

/-- A realm with the same counter and registry. -/
theorem keep (h : realm.Registers history) (hnext : after.nextSymbol = realm.nextSymbol)
    (hsymbols : after.symbols = realm.symbols) : after.Registers history :=
  ⟨hnext.trans h.next, h.ids, fun key => hsymbols ▸ h.registry key, h.returned⟩

/-! ### One call -/

/-- The identities after one more symbol was made. -/
theorem ids_cons (h : realm.Registers history) (hid : event.2.id = realm.nextSymbol) :
    (event :: history.makers).reverse.map (·.2.id)
      = List.range' Symbol.firstFresh (event :: history.makers).length := by
  rw [List.reverse_cons, List.map_append, h.ids, List.length_cons, List.range'_1_concat,
    List.map_singleton, hid, h.next]

/-- A new symbol was made. -/
theorem made_fresh (h : realm.Registers history) (description : Option String) :
    ({ realm with nextSymbol := realm.nextSymbol + 1 } : Realm H).Registers
      ((.fresh description, ⟨realm.nextSymbol, description⟩) :: history) where
  next := congrArg (· + 1) h.next
  ids := h.ids_cons rfl
  registry := h.registry
  returned key s hmem := by
    rcases List.mem_cons.mp hmem with heq | hmem
    · cases heq
    · exact h.returned key s hmem

/-- The symbol of a key was asked for again. -/
theorem found_keyed (h : realm.Registers history) (hs : history.registered? key = some s) :
    realm.Registers ((.keyed key, s) :: history) := by
  have hmakers : SymbolHistory.makers ((.keyed key, s) :: history) = history.makers := by
    rw [SymbolHistory.makers, hs, Option.isSome_some, if_pos rfl]
  have hregistered : SymbolHistory.registered? ((.keyed key, s) :: history)
      = history.registered? := by
    funext key'
    rw [SymbolHistory.registered?]
    split
    · next heq => rw [heq, hs, Option.some_or]
    · rw [Option.or_none]
  refine ⟨?_, ?_, ?_, fun key' s' hmem => ?_⟩
  · rw [hmakers, h.next]
  · rw [hmakers, h.ids]
  · rw [hregistered]
    exact h.registry
  · rw [hregistered]
    rcases List.mem_cons.mp hmem with heq | hmem
    · cases heq
      exact hs
    · exact h.returned key' s' hmem

/-- The symbol of a key was made and registered. -/
theorem made_keyed (h : realm.Registers history) (hnone : history.registered? key = none)
    (hs : s.id = realm.nextSymbol) :
    ({ realm with
        nextSymbol := realm.nextSymbol + 1
        symbols := realm.symbols.insert key s } : Realm H).Registers
      ((.keyed key, s) :: history) := by
  have hmakers : SymbolHistory.makers ((.keyed key, s) :: history)
      = (.keyed key, s) :: history.makers := by
    rw [SymbolHistory.makers, hnone]
    rfl
  have hregistered (key' : String) : SymbolHistory.registered? ((.keyed key, s) :: history) key'
      = if key' = key then some s else history.registered? key' := by
    rw [SymbolHistory.registered?]
    split
    · next heq => rw [heq, hnone, Option.none_or]
    · rw [Option.or_none]
  refine ⟨?_, ?_, fun key' => ?_, fun key' s' hmem => ?_⟩
  · rw [hmakers]
    exact congrArg (· + 1) h.next
  · rw [hmakers]
    exact h.ids_cons hs
  · rw [hregistered, ← h.registry]
    exact OrderedMap.get?_insert _ _ _ _
  · rw [hregistered]
    rcases List.mem_cons.mp hmem with heq | hmem
    · cases heq
      exact if_pos rfl
    · have hold := h.returned key' s' hmem
      rw [if_neg, hold]
      rintro rfl
      rw [hnone] at hold
      cases hold

/-- A call returns a symbol, and the realm registers what it did. -/
theorem performs (h : realm.Registers history) (call : SymbolCall) :
    ∃ s after, (∀ surroundings, call.perform.act surroundings realm = .ok s after)
      ∧ after.Registers ((call, s) :: history) := by
  cases call with
  | fresh description =>
    exact ⟨⟨realm.nextSymbol, description⟩, _, fun _ => rfl, h.made_fresh description⟩
  | keyed key =>
    have hkey := h.registry key
    cases hs : history.registered? key with
    | some s =>
      rw [hs] at hkey
      refine ⟨s, realm, fun surroundings => ?_, h.found_keyed hs⟩
      refine (bind_of_ok (getRealm_eq surroundings realm)).trans ?_
      have hseen : realm.seen.symbols.get? key = some s := hkey
      simp only [hseen]
      rfl
    | none =>
      rw [hs] at hkey
      refine ⟨⟨realm.nextSymbol, some key⟩, _, fun surroundings => ?_, h.made_keyed hs rfl⟩
      refine (bind_of_ok (getRealm_eq surroundings realm)).trans ?_
      have hseen : realm.seen.symbols.get? key = none := hkey
      simp only [hseen]
      rfl

/-! ### The key of a symbol -/

/-- The key of a symbol is looked for by its identity. -/
theorem keyFor?_act (s : Symbol) (surroundings : Surroundings H) (realm : Realm H) :
    (keyFor? s).act surroundings realm
      = .ok ((realm.symbols.entries.find? fun (_, s') => s'.id = s.id).map Prod.fst) realm :=
  rfl

theorem keyFor?_of_registered (h : realm.Registers history)
    (hs : history.registered? key = some s) (surroundings : Surroundings H) :
    (keyFor? s).act surroundings realm = .ok (some key) realm := by
  rw [keyFor?_act]
  have hmem : (key, s) ∈ realm.symbols.entries :=
    (OrderedMap.get?_eq_some_iff _ _ _).mp ((h.registry key).trans hs)
  cases hfound : realm.symbols.entries.find? fun (_, s') => s'.id = s.id with
  | none => exact absurd (List.find?_eq_none.mp hfound _ hmem) (by simp)
  | some entry =>
    obtain ⟨key', s'⟩ := entry
    have hs' : history.registered? key' = some s' := (h.registry key').symm.trans
      ((OrderedMap.get?_eq_some_iff _ _ _).mpr (List.mem_of_find?_eq_some hfound))
    have hid : s'.id = s.id := by simpa using List.find?_some hfound
    rw [h.key_eq_of_id_eq hs' hs hid]
    rfl

/-- A symbol that differs from those of all keys has no key. -/
theorem keyFor?_of_forall_ne (h : realm.Registers history)
    (hne : ∀ key s', history.registered? key = some s' → s'.id ≠ s.id)
    (surroundings : Surroundings H) : (keyFor? s).act surroundings realm = .ok none realm := by
  rw [keyFor?_act]
  have hnone : realm.symbols.entries.find? (fun (_, s') => s'.id = s.id) = none := by
    refine List.find?_eq_none.mpr fun entry hmem => ?_
    have hs' := (h.registry entry.1).symm.trans ((OrderedMap.get?_eq_some_iff _ _ entry.2).mpr hmem)
    simpa using hne entry.1 entry.2 hs'
  rw [hnone]
  rfl

end Realm.Registers

/-- The identities of the well-known symbols are below those that a realm hands out. -/
theorem WellKnownSymbol.id_lt (w : WellKnownSymbol) : w.symbol.id < Symbol.firstFresh := by
  cases w <;> decide

/-! ### Sessions -/

/-- Symbols in use, with the calls for them. A session starts in a realm that has handed out no
symbol. Between the calls other code may run that leaves the counter and the registry alone. -/
inductive SymbolSession (host : Host H) : Realm H → SymbolHistory → Prop
  | start {realm : Realm H} (hnext : realm.nextSymbol = Symbol.firstFresh)
    (hsymbols : realm.symbols = {}) : SymbolSession host realm []
  | perform {realm after : Realm H} {history : SymbolHistory} {call : SymbolCall} {s : Symbol}
    {bound : Nat} (h : SymbolSession host realm history)
    (hs : call.perform.run host bound realm = .ok s after) :
    SymbolSession host after ((call, s) :: history)
  | aside {realm after : Realm H} {history : SymbolHistory} (h : SymbolSession host realm history)
    (hnext : after.nextSymbol = realm.nextSymbol) (hsymbols : after.symbols = realm.symbols) :
    SymbolSession host after history

variable {host : Host H} {realm : Realm H} {history : SymbolHistory}

/-- The realm of a session is as the history tells. -/
theorem SymbolSession.registers (h : SymbolSession host realm history) :
    realm.Registers history := by
  induction h with
  | start hnext hsymbols =>
    exact ⟨hnext, rfl, fun key => by rw [hsymbols]; rfl, fun _ _ hmem => nomatch hmem⟩
  | @perform realm after history call s bound h hs ih =>
    obtain ⟨s', after', hx, hregisters⟩ := ih.performs call
    obtain ⟨rfl, rfl⟩ := EStateM.Result.ok.inj ((hx _).symm.trans hs)
    exact hregisters
  | aside h hnext hsymbols ih => exact ih.keep hnext hsymbols

/-- The symbols of a session are told apart by their identities, and keys and symbols lead to each
other.

Every call for a symbol returns one. The symbols that were made, as new ones or by the first call
for a key, have different identities, none of which is that of a well-known symbol; they are counted
from the first identity on, and so fit in 64 bits as long as there are fewer than `2 ^ 64 - 64`
calls. All calls for one key returned the same symbol, and calls for different keys different ones.
At every moment a symbol that was returned for a key leads to that key, and neither a well-known
symbol nor one that was made as a new one leads to any, whatever its description. -/
theorem symbols_told_apart (hs : SymbolSession host realm history) :
    (∀ call : SymbolCall, ∃ s after, (∀ bound, call.perform.run host bound realm = .ok s after)
        ∧ SymbolSession host after ((call, s) :: history))
      ∧ history.made.Pairwise (fun s s' => s.id ≠ s'.id)
      ∧ (∀ s ∈ history.made, Symbol.firstFresh ≤ s.id
        ∧ s.id < Symbol.firstFresh + history.length ∧ ∀ w : WellKnownSymbol, s.id ≠ w.symbol.id)
      ∧ (∀ key s key' s', (.keyed key, s) ∈ history → (.keyed key', s') ∈ history →
        if key = key' then s = s' else s.id ≠ s'.id)
      ∧ (∀ key s, (.keyed key, s) ∈ history →
        ∀ bound, (keyFor? s).run host bound realm = .ok (some key) realm)
      ∧ (∀ (w : WellKnownSymbol) bound,
        (keyFor? w.symbol).run host bound realm = .ok none realm)
      ∧ ∀ description s, (.fresh description, s) ∈ history →
        ∀ bound, (keyFor? s).run host bound realm = .ok none realm := by
  have h := hs.registers
  refine ⟨fun call => ?_, ?_, fun s hmade => ?_, fun key s key' s' hmem hmem' => ?_,
    fun key s hmem _ => h.keyFor?_of_registered (h.returned key s hmem) _,
    fun w _ => h.keyFor?_of_forall_ne (fun key s' hs' => ?_) _,
    fun description s hmem _ => h.keyFor?_of_forall_ne (fun key s' hs' => ?_) _⟩
  · obtain ⟨s, after, hx, -⟩ := h.performs call
    exact ⟨s, after, fun _ => hx _, hs.perform (hx (.bounded host 0))⟩
  · exact List.pairwise_map.mpr (List.pairwise_map.mp h.ids_nodup)
  · obtain ⟨event, hevent, rfl⟩ := List.mem_map.mp hmade
    obtain ⟨hle, hlt⟩ := h.id_bounds hevent
    have hcount := history.makers_sublist.length_le
    have hnext := h.next
    exact ⟨hle, by omega, fun w => (Nat.lt_of_lt_of_le w.id_lt hle).ne'⟩
  · have hkey := h.returned key s hmem
    have hkey' := h.returned key' s' hmem'
    split
    · next heq =>
      subst heq
      exact Option.some.inj (hkey.symm.trans hkey')
    · next hne => exact fun hid => hne (h.key_eq_of_id_eq hkey hkey' hid)
  · have hle := (h.id_bounds (SymbolHistory.mem_makers_of_registered? hs')).1
    exact (Nat.lt_of_lt_of_le w.id_lt hle).ne'
  · exact h.id_ne_of_fresh hmem hs'

/-- A new symbol that is described by a key, and the symbol of that key, asked for twice. -/
def describedHistory : SymbolHistory :=
  [(.keyed "tag", ⟨65, some "tag"⟩), (.keyed "tag", ⟨65, some "tag"⟩),
    (.fresh (some "tag"), ⟨64, some "tag"⟩)]

theorem exists_symbolSession_describedHistory :
    ∃ realm : Realm HostTypes.bare, SymbolSession Host.bare realm describedHistory := by
  have step {realm after : Realm HostTypes.bare} {history : SymbolHistory} {s : Symbol}
      (call : SymbolCall) (h : SymbolSession Host.bare realm history)
      (hs : call.perform.run Host.bare 0 realm = .ok s after) :
      SymbolSession Host.bare after ((call, s) :: history) :=
    h.perform hs
  have start : SymbolSession Host.bare { store := () } [] := .start rfl rfl
  have described := step (.fresh (some "tag")) start rfl
  have keyed := step (.keyed "tag") described rfl
  have again := step (.keyed "tag") keyed rfl
  exact ⟨_, again⟩

/-- The symbol of the key leads to the key, the one with the same description does not. -/
theorem symbols_told_apart_described :
    ∃ realm : Realm HostTypes.bare, SymbolSession Host.bare realm describedHistory
      ∧ (keyFor? ⟨65, some "tag"⟩).run Host.bare 0 realm = .ok (some "tag") realm
      ∧ (keyFor? ⟨64, some "tag"⟩).run Host.bare 0 realm = .ok none realm := by
  obtain ⟨realm, hs⟩ := exists_symbolSession_describedHistory
  obtain ⟨-, -, -, -, hkeyed, -, hfresh⟩ := symbols_told_apart hs
  exact ⟨realm, hs, hkeyed "tag" _ List.mem_cons_self 0,
    hfresh (some "tag") _ (by simp [describedHistory]) 0⟩

end ScriptEngine
