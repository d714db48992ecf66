import ScriptEngine.Proofs.CanonicalStorage
import ScriptEngine.Proofs.Definition
import ScriptEngine.Proofs.Prototype

/-!
# Assigning to a name that is found nowhere

All that is done with properties and names keeps storage canonical, with one exception. The
reference for a name has the name itself for a key, whatever it spells, and in sloppy code an
assignment to a name that is found nowhere stores a property of the global object under that key.
Storage therefore stays canonical exactly if the name spells no index. If it does spell one, the key
of the name does not lead to the property.

## Main definitions

* `Realm.withProperty`: one more property stored by an object.

## Main results

* `identifierReference_name`: the key of a reference for a name.
* `Realm.Finds.setFor_self`: what setting a property that is found nowhere does.
* `putValue_unresolvable`: when it leaves storage canonical, and what is read back.
-/

namespace ScriptEngine

open Engine

variable {H : HostTypes}

/-! ### One more property -/

/-- The realm with one more property stored by an object. -/
def Realm.withProperty (realm : Realm H) (o : ObjectId) (object : Object H) (k : PropertyKey)
    (d : Descriptor) : Realm H :=
  realm.putObject o { object with properties := object.properties.insert k d }

theorem Realm.object?_withProperty {realm : Realm H} {o : ObjectId} {object : Object H}
    (ho : realm.object? o = some object) (k : PropertyKey) (d : Descriptor) :
    (realm.withProperty o object k d).object? o
      = some { object with properties := object.properties.insert k d } :=
  Realm.object?_putObject_self ho

/-- What the key of a string leads to once a property is stored under the string itself. -/
theorem Object.ownProperty?_insert_ofString (object : Object H) (name : String) (d : Descriptor) :
    ({ object with properties := object.properties.insert (.string name) d } :
        Object H).ownProperty? (.ofString name)
      = if (PropertyKey.parseIndex? name).isSome then object.ownProperty? (.ofString name)
        else some d := by
  cases hparse : PropertyKey.parseIndex? name with
  | none =>
    rw [PropertyKey.ofString_of_none hparse, Object.ownProperty?, PropertyMap.get?_insert_self]
    rfl
  | some n =>
    have hne : PropertyKey.ofString name ≠ .string name := by
      intro heq
      have hcanonical := PropertyKey.isCanonical_ofString name
      rw [heq, PropertyKey.isCanonical, hparse] at hcanonical
      cases hcanonical
    rw [Object.ownProperty?, PropertyMap.get?_insert_of_ne hne]
    rfl

/-- Storage stays canonical exactly if the key of a new property is canonical. -/
theorem Realm.canonical_withProperty {realm : Realm H} {o : ObjectId} {object : Object H}
    (h : realm.Canonical) (ho : realm.object? o = some object) (k : PropertyKey) (d : Descriptor) :
    (realm.withProperty o object k d).Canonical ↔ k.isCanonical := by
  constructor
  · intro hafter
    refine hafter o _ (Realm.object?_withProperty ho k d) k ?_
    rw [PropertyMap.contains, PropertyMap.get?_insert_self]
    rfl
  · intro hk
    have hobject : object.properties.IsCanonical := h o object ho
    exact Realm.forall_putObject h (hobject.insert hk d)

/-! ### References -/

section Reference

variable {s : Surroundings H} {realm after : Realm H} {e : Option EnvironmentId} {name : String}
  {strict : Bool} {r : Reference}

/-- What every finished round of a loop gives is what the loop gives. -/
theorem Engine.of_loopFor {σ α : Type} {step : σ → Engine H (Round σ α)} {P : α → Prop}
    (hstep : ∀ state realm a after, (step state).act s realm = .ok (.finish a) after → P a)
    {fuel : Nat} {state : σ} {a : α} (h : (loopFor step fuel state).act s realm = .ok a after) :
    P a := by
  induction fuel generalizing state realm with
  | zero => cases h
  | succ fuel ih =>
    obtain ⟨round, middle, hfirst, hrest⟩ := Engine.ok_of_bind h
    cases round with
    | again state' => exact ih hrest
    | finish b =>
      cases hrest
      exact hstep _ _ _ _ hfirst

/-- The reference for a name has the name for a key, whatever the name spells. -/
theorem identifierReference_name
    (h : (identifierReference e name strict).act s realm = .ok r after) :
    r.name = .string name ∧ r.strict = strict := by
  obtain ⟨fuel, middle, -, hloop⟩ := Engine.ok_of_bind h
  refine Engine.of_loopFor (P := fun r => r.name = .string name ∧ r.strict = strict)
    (fun state realm r after hround => ?_) hloop
  cases state with
  | none =>
    cases hround
    exact ⟨rfl, rfl⟩
  | some e =>
    obtain ⟨found, middle, -, hrest⟩ := Engine.ok_of_bind hround
    cases found with
    | true =>
      cases hrest
      exact ⟨rfl, rfl⟩
    | false =>
      obtain ⟨environment, middle, -, hagain⟩ := Engine.ok_of_bind hrest
      cases hagain

end Reference

/-! ### Assignment -/

section Assignment

variable {s : Surroundings H} {start realm : Realm H} {o : ObjectId} {object : Object H}
  {k : PropertyKey} {v : Value} {e : Option EnvironmentId} {name : String} {strict : Bool}
  {r : Reference}

/-- An object that is extensible accepts a new property. -/
theorem Object.defined_plain (hx : object.extensible) (hk : object.properties.get? k = none) :
    object.accepts k (.plain v) = true
      ∧ object.defined k (.plain v)
        = { object with properties := object.properties.insert k (.plain v) } := by
  have haccepts : object.accepts k (.plain v) = true := by
    rw [Object.accepts, hk]
    exact hx
  refine ⟨haccepts, ?_⟩
  rw [Object.defined, if_pos haccepts, Object.define, PropertyMap.define, hk]
  rfl

/-- Setting a property that is nowhere adds it to an object that is extensible. -/
theorem Realm.Finds.setFor_self (host : Host H) (v : Value)
    (hz : realm.config.maxCallDepth = 0) (h : realm.Finds k o none)
    (ho : realm.object? o = some object) (hx : object.extensible)
    (hk : ∀ i, k ≠ .index i) (hlength : object.kind.isArray → k ≠ lengthKey) :
    ∃ least, ∀ bound, least ≤ bound →
      (o.setFor k v (.object o)).act (.bounded host bound) realm
        = .ok true (realm.withProperty o object k (.plain v)) := by
  obtain ⟨hp, hnone⟩ := h.isPlain_and_ownProperty? ho
  obtain ⟨hstored, hunit⟩ := Option.or_eq_none_iff.mp hnone
  obtain ⟨haccepts, hdefined⟩ := Object.defined_plain (v := v) hx hstored
  have hdefines := Object.Defines.stored (d := .plain v) hunit fun harray =>
    ⟨hk, fun heq => absurd heq (hlength harray)⟩
  rw [haccepts, hdefined] at hdefines
  have hset (bound : Nat) (hb : 3 ≤ bound) (depth : Nat) :
      (Ordinary.setFound (.plain .undefined) k v (.object o)).act (.bounded host bound)
        (realm.atDepth depth)
          = .ok true ((realm.withProperty o object k (.plain v)).atDepth depth) := by
    have ho' : (realm.atDepth depth).object? o = some object := ho
    have hown : (o.getOwnProperty k).act (.bounded host bound) (realm.atDepth depth)
        = .ok none (realm.atDepth depth) :=
      hnone ▸ (ObjectId.getOwnProperty_gives ho' hp (Realm.not_atLimit_atDepth hz depth) k).eq_of_le
        (Nat.le_trans (by decide) hb)
    refine (Engine.bind_of_ok hown).trans ?_
    exact (hdefines.gives ho' hp rfl (Realm.not_atLimit_atDepth hz (depth + 2))).eq_of_le hb
  obtain ⟨least, hleast⟩ := h.setFor_eq hz hset
  exact ⟨least, fun bound hb => hleast bound hb realm.callDepth⟩

/-- An assignment in sloppy code to a name that is found nowhere adds a property to the global
object, under the key of the reference. -/
theorem Reference.putValue_of_isUnresolvable {after : Realm H} {done : Bool}
    (hu : r.isUnresolvable) (hk : r.name = k) (hs : r.strict = false)
    (h : (realm.globalObject.setFor k v (.object realm.globalObject)).act s realm
      = .ok done after) :
    (r.putValue v).act s realm = .ok () after := by
  obtain ⟨base, key, strict, this⟩ := r
  cases base with
  | unresolvable =>
    cases hk
    cases hs
    exact Engine.bind_of_ok h
  | value v => cases hu
  | environment e => cases hu

theorem Reference.putValue_of_strict (hu : r.isUnresolvable) (hs : r.strict = true) :
    (r.putValue v).act s realm = .error (.failure (.notDefined r.name.text)) realm := by
  obtain ⟨base, key, strict, this⟩ := r
  cases base with
  | unresolvable =>
    cases hs
    rfl
  | value v => cases hu
  | environment e => cases hu

/-- An assignment to a name that is found nowhere fails in strict code. In sloppy code it adds a
property to the global object, under the name itself. Storage stays canonical exactly if the name
spells no index; if it does spell one, the key of the name has the property that it had before, and
not the one that was assigned. -/
theorem putValue_unresolvable (host : Host H) {global : Object H} (v : Value)
    (hr : (identifierReference e name strict).act s start = .ok r realm) (hu : r.isUnresolvable)
    (hreach : realm.Reachable) (hz : realm.config.maxCallDepth = 0) (hc : realm.Canonical)
    (ho : realm.object? realm.globalObject = some global) (hx : global.extensible)
    (hn : realm.Finds (.string name) realm.globalObject none) :
    (strict = true → ∀ bound,
      (r.putValue v).run host bound realm = .error (.failure (.notDefined name)) realm)
    ∧ (strict = false → ∃ after,
      after = realm.withProperty realm.globalObject global (.string name) (.plain v)
      ∧ (∃ least, ∀ bound, least ≤ bound → (r.putValue v).run host bound realm = .ok () after)
      ∧ (after.Canonical ↔ PropertyKey.parseIndex? name = none)
      ∧ ∀ bound, 0 < bound →
        answer host bound (.getOwnProperty realm.globalObject (.ofString name)) after
          = .ok (if (PropertyKey.parseIndex? name).isSome
            then global.ownProperty? (.ofString name) else some (.plain v)) after) := by
  obtain ⟨hname, hstrict⟩ := identifierReference_name hr
  refine ⟨fun hs bound => ?_, fun hs => ⟨_, rfl, ?_, ?_, fun bound hb => ?_⟩⟩
  · rw [← PropertyKey.text.eq_1 name, ← hname]
    exact Reference.putValue_of_strict hu (hstrict.trans hs)
  · have hlength (harray : global.kind.isArray) : PropertyKey.string name ≠ lengthKey := by
      -- the length of an array would have been found
      intro heq
      obtain ⟨length, writable, hl⟩ := hreach.inOrder hz _ _ ho harray
      have hnone := (hn.isPlain_and_ownProperty? ho).2
      rw [heq, Object.ownProperty?, hl.stored] at hnone
      cases hnone
    obtain ⟨least, hleast⟩ := hn.setFor_self host v hz ho hx (fun i h => by cases h) hlength
    exact ⟨least, fun bound hb =>
      Reference.putValue_of_isUnresolvable hu hname (hstrict.trans hs) (hleast bound hb)⟩
  · rw [Realm.canonical_withProperty hc ho, PropertyKey.isCanonical, Option.isNone_iff_eq_none]
  · rw [← Object.ownProperty?_insert_ofString]
    exact (ObjectId.getOwnProperty_gives (Realm.object?_withProperty ho _ _)
      (hn.isPlain_and_ownProperty? ho).1 (fun h => h.1 hz) (.ofString name)).eq_of_le hb

end Assignment

/-- A realm with an empty global object and no scopes. -/
def bareRealm : Realm HostTypes.bare :=
  { heap := #[.ofKind none .ordinary], config := { maxCallDepth := 0 }, store := () }

/-- The number one is assigned to the name `0`, and the key of that name leads to nothing. -/
theorem putValue_unresolvable_bareRealm :
    ∃ r after, (identifierReference none "0" false).run Host.bare 1 bareRealm = .ok r bareRealm
      ∧ (∃ bound, (r.putValue (.nat 1)).run Host.bare bound bareRealm = .ok () after)
      ∧ ¬after.Canonical
      ∧ answer Host.bare 1 (.getOwnProperty ⟨0⟩ (.ofString "0")) after = .ok none after := by
  have hobject {o : ObjectId} {object : Object HostTypes.bare}
      (ho : bareRealm.object? o = some object) : object = .ofKind none .ordinary := by
    obtain ⟨i⟩ := o
    cases i with
    | zero => exact (Option.some.inj ho).symm
    | succ i => cases ho
  have hreach : bareRealm.Reachable := by
    have empty : Realm.Reachable ({ bareRealm with heap := #[] } : Realm HostTypes.bare) :=
      .empty rfl
    exact empty.step (.allocate _ (.ofKind none .ordinary) (.ofKind _ _) (.of_not_isArray rfl))
  have hcanonical : bareRealm.Canonical := by
    intro o object ho k hk
    rw [hobject ho] at hk
    cases k <;> cases hk
  have hresolve : (identifierReference none "0" false).act (.bounded Host.bare 1) bareRealm
      = .ok { base := .unresolvable, name := .string "0", strict := false } bareRealm := rfl
  obtain ⟨-, hsloppy⟩ := putValue_unresolvable Host.bare (.nat 1) hresolve rfl hreach rfl hcanonical
    rfl rfl (.missing rfl rfl rfl rfl)
  obtain ⟨after, -, ⟨least, hleast⟩, hafter, hread⟩ := hsloppy rfl
  refine ⟨_, after, hresolve, ⟨least, hleast least (Nat.le_refl _)⟩, ?_, hread 1 Nat.one_pos⟩
  rw [hafter]
  decide +kernel

end ScriptEngine
