import ScriptEngine.Proofs.ArrayElements
import ScriptEngine.Proofs.NativeCall

/-!
# New arrays of the same species

Methods that return a new array ask the receiver for its constructor, and that for its species. For
an array as the engine makes it, both are the array constructor, whose species is read by a getter
that returns its receiver, and the new array is one as the constructor makes it. Only time is used
on the way.

## Main definitions

* `Realm.MakesArrays`: an array whose constructor and species are those of the engine.

## Main results

* `ArrayFunction.make_gives`: what the array constructor makes of a length.
* `Realm.MakesArrays.exists_arraySpeciesCreate_gives`: a new array of the same species.
-/

namespace ScriptEngine

open Engine

variable {H : HostTypes}

/-- The constructor that an array inherits is the array constructor of the engine, the getter of its
species is that of the engine, and its prototype is `p`. Each search goes over at most so many
prototypes. -/
structure Realm.MakesArrays (realm : Realm H) (o c p : ObjectId) (steps : Nat) : Prop where
  constructor : ∃ m ≤ steps, ∃ d, realm.FindsAfter (.string "constructor") m o (some d)
    ∧ d.isData ∧ d.valueD = .object c
  native : realm.IsNative c (.array .construct) true
  species : ∃ m ≤ steps, ∃ d g b, realm.FindsAfter (.wellKnown .species) m c (some d)
    ∧ d.isData = false ∧ d.getter = .object g ∧ realm.IsNative g (.symbol .speciesGetter) b
  prototype : ∃ m ≤ steps, ∃ d, realm.FindsAfter (.string "prototype") m c (some d)
    ∧ d.isData ∧ d.valueD = .object p

section Make

variable {host : Host H} {bound n steps : Nat} {realm : Realm H} {o c p : ObjectId}

/-- The value of a data property that is found. -/
theorem Realm.FindsAfter.get_gives_of_data {k : PropertyKey} {m : Nat} {d : Descriptor}
    (h : realm.FindsAfter k m o (some d)) (hd : d.isData)
    (hl : ¬(realm.atDepth (realm.callDepth + m + 1)).AtLimit) :
    Gives (m + 2) bound ((o.get k).act (.bounded host bound) realm) (.ok d.valueD realm) :=
  h.getFor_gives (fun d' hd' => by cases hd'; exact hd) realm.callDepth hl

/-- The array constructor makes an array of a length. -/
theorem ArrayFunction.make_gives (hproto : ∃ m ≤ steps, ∃ d,
      realm.FindsAfter (.string "prototype") m c (some d) ∧ d.isData ∧ d.valueD = .object p)
    (hn : n < Number.twoPow 32) (hl : ¬(realm.atDepth (realm.callDepth + steps + 1)).AtLimit) :
    Gives (steps + 2) bound ((make [.nat n] (some c)).act (.bounded host bound) realm)
      (.ok (.object ⟨realm.heap.size⟩) (realm.push (.emptyArray p n))) := by
  obtain ⟨m, hm, d, hfinds, hd, hvalue⟩ := hproto
  have hget : Gives (steps + 2) bound
      ((c.get (.string "prototype")).act (.bounded host bound) realm) (.ok (.object p) realm) := by
    rw [← hvalue]
    exact (hfinds.get_gives_of_data hd
      fun h => hl (Realm.atLimit_of_le (by omega) h)).mono (by omega)
  have hcreate : (arrayCreate n (some p) : Engine H ObjectId).act (.bounded host bound) realm
      = .ok ⟨realm.heap.size⟩ (realm.push (.emptyArray p n)) := by
    unfold arrayCreate
    rw [dif_pos hn]
    rfl
  have hsame := (Object.Stores.nat_isLength (H := H) hn).same
  unfold make
  refine Gives.bindEngine (a := realm.intrinsics.get .array) (.of_eq rfl) ?_
  refine Gives.bindEngine (a := realm.intrinsics.get .arrayPrototype) (.of_eq rfl) ?_
  refine Gives.bindEngine (show Gives (steps + 2) bound _ (.ok p realm) from
    hget.bindEngine (.of_eq rfl)) ?_
  simp only [Value.nat, Number.toUint32_of_beq hn hsame, hsame, Bool.not_true, Bool.false_eq_true,
    if_false]
  exact .of_eq ((Engine.bind_of_ok hcreate).trans rfl)

namespace Realm.MakesArrays

/-- The species of the constructor is the constructor itself. -/
theorem exists_species_gives (h : realm.MakesArrays o c p steps) (hu : realm.Unlimited)
    (hl : ¬(realm.atDepth (realm.callDepth + steps + 1)).AtLimit) :
    ∃ account, ∀ host bound, Gives (steps + 2) bound
      ((c.get (.wellKnown .species)).act (.bounded host bound) realm)
      (.ok (.object c) (realm.having realm.heap account)) := by
  obtain ⟨m, hm, d, g, b, hfinds, hd, hg, hnative⟩ := h.species
  have hl' : ¬(realm.atDepth (realm.callDepth + m + 1)).AtLimit :=
    fun h => hl (atLimit_of_le (by omega) h)
  have hnative' : (realm.atDepth (realm.callDepth + m + 1)).IsNative g (.symbol .speciesGetter) b :=
    hnative
  obtain ⟨account, hcall⟩ := hnative'.exists_call_gives ⟨hu.timeoutMs, hu.aborted⟩ hl'
  refine ⟨account, fun host bound => ?_⟩
  have hvalue (bound : Nat) : Gives 1 bound ((Ordinary.valueFor d (.object c)).act
      (.bounded host bound) (realm.atDepth (realm.callDepth + m + 1))) (.ok (.object c)
        ((realm.having realm.heap account).atDepth (realm.callDepth + m + 1))) := by
    have hgetter : (Ordinary.valueFor d (.object c) : Engine H Value)
        = (Value.object g).call (.object c) [] := by
      simp only [Ordinary.valueFor, hd, hg]
      rfl
    rw [hgetter]
    exact hcall fun bound account => .of_eq rfl
  exact (hfinds.getFor_leads realm.callDepth hl' (Nat.le_refl 1) hvalue).mono (by omega)

theorem retained {after : Realm H} (h : realm.MakesArrays o c p steps) (hr : realm.Retains after) :
    after.MakesArrays o c p steps := by
  have native {f : ObjectId} {code : Builtin} {b : Bool} (hf : realm.IsNative f code b) :
      after.IsNative f code b := by
    obtain ⟨object, hobject, hkind⟩ := hf
    exact ⟨object, hr f object hobject, hkind⟩
  obtain ⟨m, hm, d, hfinds, hd⟩ := h.constructor
  obtain ⟨m', hm', d', g, b, hfinds', hd', hg, hnative⟩ := h.species
  obtain ⟨m'', hm'', d'', hfinds'', hd''⟩ := h.prototype
  exact ⟨⟨m, hm, d, hfinds.retained hr, hd⟩, native h.native,
    ⟨m', hm', d', g, b, hfinds'.retained hr, hd', hg, native hnative⟩,
    ⟨m'', hm'', d'', hfinds''.retained hr, hd''⟩⟩

/-- The constructor makes a new array. -/
theorem exists_construct_gives (h : realm.MakesArrays o c p steps) (hu : realm.Unlimited)
    (hn : n < Number.twoPow 32) (hl : ¬(realm.atDepth (realm.callDepth + steps + 2)).AtLimit) :
    ∃ account, ∀ host bound, Gives (steps + 3) bound
      ((c.construct [.nat n]).act (.bounded host bound) realm)
      (.ok ⟨realm.heap.size⟩ (realm.having (realm.heap.push (.emptyArray p n)) account)) := by
  obtain ⟨account, hconstruct⟩ := h.native.exists_construct_gives hu
    fun hlimit => hl (atLimit_of_le (m := realm.callDepth) (by omega) hlimit)
  refine ⟨account, fun host bound => hconstruct fun bound account => ?_⟩
  have hretains : realm.Retains (realm.deeper.having realm.heap account) := fun _ _ ho => ho
  have hdepth : realm.callDepth + 1 + steps + 1 = realm.callDepth + steps + 2 := by omega
  have hl' : ¬((realm.deeper.having realm.heap account).atDepth
      (realm.callDepth + 1 + steps + 1)).AtLimit := hdepth ▸ hl
  exact ArrayFunction.make_gives (h.retained hretains).prototype hn hl'

/-- A new array of the same species as an array of the engine. -/
theorem exists_arraySpeciesCreate_gives {object : Object H} (h : realm.MakesArrays o c p steps)
    (hu : realm.Unlimited) (ho : realm.object? o = some object) (hk : object.kind = .array)
    (hn : n < Number.twoPow 32) (hl : ¬(realm.atDepth (realm.callDepth + steps + 2)).AtLimit) :
    ∃ account, ∀ host bound, Gives (steps + 3) bound
      ((o.arraySpeciesCreate n).act (.bounded host bound) realm)
      (.ok ⟨realm.heap.size⟩ (realm.having (realm.heap.push (.emptyArray p n)) account)) := by
  obtain ⟨m, hm, d, hfinds, hd, hvalue⟩ := h.constructor
  obtain ⟨first, hspecies⟩ := h.exists_species_gives hu fun hl' => hl (atLimit_of_le (by omega) hl')
  have hretains : realm.Retains (realm.having realm.heap first) := fun _ _ ho => ho
  obtain ⟨account, hconstruct⟩ := (h.retained hretains).exists_construct_gives
    ⟨hu.timeoutMs, hu.aborted⟩ hn hl
  refine ⟨account, fun host bound => ?_⟩
  have hplain : object.kind.isPlain := by rw [hk]; rfl
  have hisArray : Gives (steps + 3) bound (o.isArray.act (.bounded host bound) realm)
      (.ok object.kind.isArray realm) := (ObjectId.isArray_gives ho hplain).mono (by omega)
  have hget : Gives (steps + 3) bound
      ((o.get (.string "constructor")).act (.bounded host bound) realm)
      (.ok (.object c) realm) := by
    rw [← hvalue]
    exact (hfinds.get_gives_of_data hd
      fun hl' => hl (atLimit_of_le (by omega) hl')).mono (by omega)
  rw [hk] at hisArray
  refine hisArray.bindEngine (hget.bindEngine ?_)
  refine ((hspecies host bound).mono (by omega)).bindEngine ?_
  rw [if_neg (by simp)]
  refine Gives.bindEngine (a := Value.object c) (.of_eq rfl) ?_
  refine Gives.bindEngine (.of_eq ((h.retained hretains).native.isConstructor_act _)) ?_
  exact hconstruct host bound

end Realm.MakesArrays

end Make

end ScriptEngine
