import ScriptEngine.Proofs.ArrayRun
import ScriptEngine.Proofs.ElementCopy

/-!
# Methods of arrays refine operations on lists with holes

A plain array is determined by a list with holes, by its prototype and by its other properties. The
methods that change it leave an array that is determined by another list in the same way, and those
that return a new array return one that is determined by a list; the lists are what the methods are
named for. Holes stay holes, except where elements are set over them.

## Main definitions

* `Realm.IsPlainArray`: an array that is a list with holes.
* `ArrayAnswer.Returned`: a method returned what it should.

## Main results

* `Realm.IsPlainArray.exists_filled_gives`: a new array of the same species, filled with elements.
* `ArrayMethod.run_refines`: what each of the methods does to a plain array.
-/

namespace ScriptEngine

open Engine

variable {H : HostTypes}

/-- An array that is a list with holes: it can be extended, its length can be written, its elements
are writable, enumerable and configurable, and no prototype has a property under an index. The
constructor `c` and the species are those of the engine, which make arrays with the prototype
`p`. -/
structure Realm.IsPlainArray (realm : Realm H) (o : ObjectId) (object : Object H)
    (l : List (Option Value)) (c p : ObjectId) (steps : Nat) : Prop extends
    HoldsElements realm o object (.ofList l) steps where
  makes : realm.MakesArrays o c p steps

/-- What a method returned is the value, the receiver or the new array that it should be, and there
is a new object only in the last case. -/
inductive ArrayAnswer.Returned (realm after : Realm H) (o p : ObjectId) :
    ArrayAnswer → Value → Prop
  | value {v : Value} (hsize : after.heap.size = realm.heap.size) :
      Returned realm after o p (.value v) v
  | receiver (hsize : after.heap.size = realm.heap.size) :
      Returned realm after o p .receiver (.object o)
  | array {l : List (Option Value)} {new : Object H}
      (hsize : after.heap.size = realm.heap.size + 1)
      (hnew : after.object? ⟨realm.heap.size⟩ = some new)
      (hstores : new.Stores (elementsOf l) l.length)
      (hrest : (Object.emptyArray p 0).SharesRest new) :
      Returned realm after o p (.array l) (.object ⟨realm.heap.size⟩)

/-- A method did to a plain array what it is to do: the array is the list that it should be, its
other properties and its prototype are as they were, concatenation still takes it apart if it did
before, and the method returned what it should. No other object changed, and nothing else in the
realm but its account of time. -/
structure Realm.Performed (realm after : Realm H) (o : ObjectId) (object object' : Object H)
    (result : List (Option Value) × ArrayAnswer) (r : Value) (c p : ObjectId) (steps : Nat) :
    Prop where
  plain : after.IsPlainArray o object' result.1 c p steps
  spreads : realm.Spreads o steps → after.Spreads o steps
  rest : object.SharesRest object'
  others : ∀ q, q ≠ o → q.index < realm.heap.size → after.object? q = realm.object? q
  elsewhere : after = realm.having after.heap after.account
  returned : result.2.Returned realm after o p r

/-! ### What is known of an array that changes -/

section Sharing

variable {realm : Realm H} {o c p : ObjectId} {object object' : Object H} {steps : Nat}
  (ho : realm.object? o = some object) (hrest : object.SharesRest object')
include ho hrest

/-- A change of elements and length does not change where other searches end. -/
theorem Realm.FindsAfter.sharing {k : PropertyKey} {n : Nat} {q : ObjectId}
    {found : Option Descriptor} (h : realm.FindsAfter k n q found) (hk : k.index? = none)
    (hne : k ≠ lengthKey) : (realm.putObject o object').FindsAfter k n q found := by
  have hkind : object'.kind = object.kind := by rw [hrest.rest]
  have hown : object'.ownProperty? k = object.ownProperty? k := by
    rw [Object.ownProperty?, Object.ownProperty?, hkind, hrest.others k hk hne]
  exact h.putObject_of_alike ho (congrArg ObjectKind.isPlain hkind) hown hrest.prototype

theorem Realm.IsNative.sharing {f : ObjectId} {code : Builtin} {b : Bool}
    (h : realm.IsNative f code b) : (realm.putObject o object').IsNative f code b := by
  obtain ⟨existing, hf, hkind⟩ := h
  by_cases heq : f = o
  · subst heq
    cases ho.symm.trans hf
    refine ⟨object', object?_putObject_self ho, ?_⟩
    rw [hrest.rest]
    exact hkind
  · exact ⟨existing, (object?_putObject_of_ne heq).trans hf, hkind⟩

theorem Realm.MakesArrays.sharing (h : realm.MakesArrays o c p steps) :
    (realm.putObject o object').MakesArrays o c p steps := by
  obtain ⟨m, hm, d, hfinds, hd⟩ := h.constructor
  obtain ⟨m', hm', d', g, b, hfinds', hd', hg, hnative⟩ := h.species
  obtain ⟨m'', hm'', d'', hfinds'', hd''⟩ := h.prototype
  have hstring (name : String) (hname : name ≠ "length") : PropertyKey.string name ≠ lengthKey :=
    fun h => hname (PropertyKey.string.inj h)
  exact ⟨⟨m, hm, d, hfinds.sharing ho hrest rfl (hstring _ (by decide)), hd⟩,
    h.native.sharing ho hrest,
    ⟨m', hm', d', g, b, hfinds'.sharing ho hrest rfl (by simp [PropertyKey.wellKnown, lengthKey]),
      hd', hg, hnative.sharing ho hrest⟩,
    ⟨m'', hm'', d'', hfinds''.sharing ho hrest rfl (hstring _ (by decide)), hd''⟩⟩

theorem Realm.Spreads.sharing (h : realm.Spreads o steps) :
    (realm.putObject o object').Spreads o steps := by
  obtain ⟨m, hm, found, hfinds, hfound⟩ := h
  exact ⟨m, hm, found, hfinds.sharing ho hrest rfl (by simp [PropertyKey.wellKnown, lengthKey]),
    hfound⟩

end Sharing

/-! ### New arrays -/

namespace Realm.IsPlainArray

variable {realm after : Realm H} {o c p : ObjectId} {object : Object H}
  {l l' : List (Option Value)} {steps : Nat} {α : Type} {x : Engine H α} {a : α}

theorem retained (h : realm.IsPlainArray o object l c p steps) (hr : realm.Retains after)
    (hroom : ¬(after.atDepth (after.callDepth + steps + 3)).AtLimit) :
    after.IsPlainArray o object l c p steps :=
  ⟨h.toHoldsElements.retained hr hroom, h.makes.retained hr⟩

/-- A computation that changes no more than the elements leaves a plain array. -/
theorem taken (h : realm.IsPlainArray o object l c p steps)
    (hx : Takes o steps (.ofList l) x a (.ofList l')) :
    ∃ object' : Object H, (realm.putObject o object').IsPlainArray o object' l' c p steps
      ∧ object.SharesRest object'
      ∧ ∀ host bound, Gives (steps + 4) bound (x.act (.bounded host bound) realm)
        (.ok a (realm.putObject o object')) := by
  obtain ⟨object', helements, hrest, hgives⟩ := hx h.toHoldsElements
  exact ⟨object', ⟨helements, h.makes.sharing h.stored hrest⟩, hrest, hgives⟩

/-- A new array of the same species is made, something fills it with elements, and its length is
set. -/
theorem exists_filled_gives {n : Nat} (h : realm.IsPlainArray o object l c p steps)
    (hu : realm.Unlimited) (part : List (Option Value)) (fill : ObjectId → Engine H α) (a : α)
    (hn : n < Number.twoPow 32) (hpart : part.length < Number.twoPow 32)
    (hfill : ∀ (middle : Realm H) (target : Object H), realm.Retains middle →
      ¬(middle.atDepth (middle.callDepth + steps + 3)).AtLimit →
      middle.object? ⟨realm.heap.size⟩ = some target → target.Stores (elementsOf []) n →
      ∃ (filled : Object H) (m : Nat), filled.Stores (elementsOf part) m
        ∧ target.SharesRest filled
        ∧ ∀ host bound, Gives (steps + 4) bound
          ((fill ⟨realm.heap.size⟩).act (.bounded host bound) middle)
          (.ok a (middle.putObject ⟨realm.heap.size⟩ filled))) :
    ∃ (account : TimeAccount H) (filled new : Object H),
      new.Stores (elementsOf part) part.length ∧ (Object.emptyArray p 0).SharesRest new
      ∧ ∀ host bound,
        Gives (steps + 4) bound ((o.arraySpeciesCreate n).act (.bounded host bound) realm)
          (.ok ⟨realm.heap.size⟩ ((realm.having realm.heap account).push (.emptyArray p n)))
        ∧ Gives (steps + 4) bound
          ((fill ⟨realm.heap.size⟩).act (.bounded host bound)
            ((realm.having realm.heap account).push (.emptyArray p n)))
          (.ok a ((realm.having realm.heap account).push filled))
        ∧ Gives (steps + 4) bound
          ((ObjectId.setLength ⟨realm.heap.size⟩ part.length).act (.bounded host bound)
            ((realm.having realm.heap account).push filled))
          (.ok () ((realm.having realm.heap account).push new)) := by
  obtain ⟨_, -, -, hstores⟩ := h.stores
  obtain ⟨account, hcreate⟩ := h.makes.exists_arraySpeciesCreate_gives hu h.stored
    hstores.isArray hn (h.not_atLimit _ (by omega))
  let start := (realm.having realm.heap account).push (.emptyArray p n)
  have hretains : realm.Retains start := (realm.having realm.heap account).retains_push _
  have hempty : (Object.emptyArray p n : Object H).Stores (elementsOf []) n := by
    rw [elementsOf_nil]
    exact .emptyArray p hn
  have hput (before after : Object H) :
      ((realm.having realm.heap account).push before).putObject ⟨realm.heap.size⟩ after
        = (realm.having realm.heap account).push after :=
    Realm.putObject_push before after
  obtain ⟨filled, m, hfilled, hrest, hgives⟩ := hfill start (.emptyArray p n) hretains h.room
    (Realm.object?_push_self _ _) hempty
  have hstored : ((realm.having realm.heap account).push filled).object? ⟨realm.heap.size⟩
      = some filled := Realm.object?_push_self _ _
  obtain ⟨new, hnew, hrest', hlength⟩ := hfilled.setLength_gives hstored hpart
    (h.not_atLimit (realm.callDepth + 3) (by omega))
  rw [elementsOf_below] at hnew
  refine ⟨account, filled, new, hnew,
    ((Object.sharesRest_emptyArray p 0 n).trans hrest).trans hrest', fun host bound => ⟨?_, ?_, ?_⟩⟩
  · exact (hcreate host bound).mono (by omega)
  · have hgives := hgives host bound
    rwa [hput] at hgives
  · have hlength := hlength host bound
    rw [hput] at hlength
    exact hlength.mono (by omega)

open ArrayFunction in
/-- A new array is filled with a part of the elements. -/
theorem exists_part_gives {start count : Nat} (h : realm.IsPlainArray o object l c p steps)
    (hu : realm.Unlimited) (hrange : start + count ≤ l.length) :
    ∃ (account : TimeAccount H) (filled new : Object H),
      new.Stores (elementsOf (ScriptEngine.part l start count))
        (ScriptEngine.part l start count).length
      ∧ (Object.emptyArray p 0).SharesRest new
      ∧ ∀ host bound,
        Gives (steps + 4) bound ((o.arraySpeciesCreate count).act (.bounded host bound) realm)
          (.ok ⟨realm.heap.size⟩ ((realm.having realm.heap account).push (.emptyArray p count)))
        ∧ Gives (steps + 4) bound
          ((copyElements o ⟨realm.heap.size⟩ start 0 count).act (.bounded host bound)
            ((realm.having realm.heap account).push (.emptyArray p count)))
          (.ok () ((realm.having realm.heap account).push filled))
        ∧ Gives (steps + 4) bound
          ((ObjectId.setLength ⟨realm.heap.size⟩ count).act (.bounded host bound)
            ((realm.having realm.heap account).push filled))
          (.ok () ((realm.having realm.heap account).push new)) := by
  have hsmall : l.length < Number.twoPow 32 := h.small
  have hlength := length_part hrange
  have hpart (k : Nat) (hk : k < (ScriptEngine.part l start count).length) :
      (Elements.ofList l).get (start + k) = elementsOf (ScriptEngine.part l start count) k :=
    (elementsOf_part l (hlength ▸ hk)).symm
  have hfilled := h.exists_filled_gives (n := count) hu (ScriptEngine.part l start count)
    (fun r => copyElements o r start 0 count) () (by omega) (by omega)
    fun middle target hretains hroom ht hstores => by
      have hcopy := copyElements_gives h.toHoldsElements realm.object?_eq_none_of_size hretains
        hroom ht hstores hpart (by rw [hlength]; exact hrange)
        (by rw [hlength, List.length_nil]; omega)
      rwa [hlength] at hcopy
  simp only [hlength] at hfilled ⊢
  exact hfilled

end Realm.IsPlainArray

/-! ### Methods that return a new array -/

section New

variable {realm : Realm H} {o c p : ObjectId} {object : Object H} {l : List (Option Value)}
  {steps : Nat} {args : List Value}

/-- The receiver of a method and its list. -/
theorem Realm.IsPlainArray.length_lt (h : realm.IsPlainArray o object l c p steps) :
    l.length < 2 ^ 53 :=
  Nat.lt_trans h.small (by decide)

theorem ArrayFunction.sliceOf_gives (h : realm.IsPlainArray o object l c p steps)
    (hu : realm.Unlimited) (hargs : ∀ v ∈ args.take 2, v.IsIndexArgument) {start stop : Nat}
    (hstart : (argument args 0).indexIn l.length 0 = start)
    (hstop : (argument args 1).indexIn l.length l.length = stop) :
    ∃ (account : TimeAccount H) (new : Object H),
      new.Stores (elementsOf (part l start (stop - start))) (part l start (stop - start)).length
      ∧ (Object.emptyArray p 0).SharesRest new
      ∧ ∀ host bound, Gives (steps + 4) bound
        ((sliceOf (.object o) args).act (.bounded host bound) realm)
        (.ok (.object ⟨realm.heap.size⟩) ((realm.having realm.heap account).push new)) := by
  have hle := (argument args 0).indexIn_le (Nat.zero_le l.length)
  have hle' := (argument args 1).indexIn_le (Nat.le_refl l.length)
  have hrange : start + (stop - start) ≤ l.length := by omega
  obtain ⟨account, filled, new, hnew, hrest, hgives⟩ := h.exists_part_gives hu hrange
  refine ⟨account, new, hnew, hrest, fun host bound => ?_⟩
  obtain ⟨hcreate, hcopy, hlength⟩ := hgives host bound
  have hindex (i : Nat) (hi : i < 2) : (argument args (0 + i)).IsIndexArgument :=
    argument_isIndexArgument hargs hi
  refine h.ofReceiver_gives.bindEngine ?_
  refine Gives.bindEngine (.of_eq (relativeIndex_act (hindex 0 (by decide)) h.length_lt _ _)) ?_
  refine Gives.bindEngine (.of_eq (relativeIndex_act (hindex 1 (by decide)) h.length_lt _ _)) ?_
  rw [hstart, hstop]
  exact hcreate.bindEngine (hcopy.bindEngine (hlength.bindEngine (.of_eq rfl)))

theorem ArrayFunction.concatWith_gives {contents : Value → List (Option Value)}
    (h : realm.IsPlainArray o object l c p steps) (hs : realm.Spreads o steps)
    (hu : realm.Unlimited) (hargs : ∀ v ∈ args, realm.Contributes steps v (contents v))
    (hlt : (l ++ args.flatMap contents).length < Number.twoPow 32) :
    ∃ (account : TimeAccount H) (new : Object H),
      new.Stores (elementsOf (l ++ args.flatMap contents)) (l ++ args.flatMap contents).length
      ∧ (Object.emptyArray p 0).SharesRest new
      ∧ ∀ host bound, Gives (steps + 4) bound
        ((concatWith (.object o) args).act (.bounded host bound) realm)
        (.ok (.object ⟨realm.heap.size⟩) ((realm.having realm.heap account).push new)) := by
  obtain ⟨account, filled, new, hnew, hrest, hgives⟩ :=
    h.exists_filled_gives (n := 0) hu (l ++ args.flatMap contents)
      (fun r => (Value.object o :: args).foldlM (appendTo r) 0)
      (l ++ args.flatMap contents).length (by decide) hlt
      fun middle target hretains hroom ht hstores => by
        have hnone := realm.object?_eq_none_of_size
        rw [List.length_append] at hlt
        obtain ⟨first, m, hfirst, hrest, hreceiver⟩ := appendTo_gives
          (.array h.toHoldsElements hs) hnone hretains hroom ht hstores
          (by rw [List.length_nil]; omega)
        obtain ⟨filled, m', hfilled, hrest', hothers⟩ := concatenates_gives hargs hnone
          (hretains.putObject hnone first) hroom (Realm.object?_putObject_self ht) hfirst hlt
        refine ⟨filled, m', hfilled, hrest.trans hrest', fun host bound => ?_⟩
        have hothers := hothers host bound
        rw [Realm.putObject_putObject] at hothers
        exact (hreceiver host bound).bindEngine hothers
  refine ⟨account, new, hnew, hrest, fun host bound => ?_⟩
  obtain ⟨hcreate, happend, hlength⟩ := hgives host bound
  have hobject : (Value.object o).toObject.act (.bounded host bound) realm = .ok o realm := rfl
  refine Gives.bindEngine (.of_eq hobject) ?_
  exact hcreate.bindEngine (happend.bindEngine (hlength.bindEngine (.of_eq rfl)))

/-- A splice makes an array of what it removes first, and changes the receiver then. -/
theorem ArrayFunction.spliceAt_gives (h : realm.IsPlainArray o object l c p steps)
    (hu : realm.Unlimited) (hargs : ∀ v ∈ args.take 2, v.IsIndexArgument) {start count : Nat}
    (hstart : (argument args 0).indexIn l.length 0 = start)
    (hcount : spliceCount args (l.length - start) = count)
    (hlt : (replaced l start count (args.drop 2)).length < Number.twoPow 32) :
    ∃ (account : TimeAccount H) (new object' : Object H),
      (((realm.having realm.heap account).push new).putObject o object').IsPlainArray o object'
        (replaced l start count (args.drop 2)) c p steps
      ∧ object.SharesRest object'
      ∧ new.Stores (elementsOf (part l start count)) (part l start count).length
      ∧ (Object.emptyArray p 0).SharesRest new
      ∧ ∀ host bound, Gives (steps + 4) bound
        ((spliceAt (.object o) args).act (.bounded host bound) realm)
        (.ok (.object ⟨realm.heap.size⟩)
          (((realm.having realm.heap account).push new).putObject o object')) := by
  have hle := (argument args 0).indexIn_le (Nat.zero_le l.length)
  have hle' := spliceCount_le args (l.length - start)
  rw [hstart] at hle
  rw [hcount] at hle'
  have hrange : start + count ≤ l.length := by omega
  rw [length_replaced _ hrange] at hlt
  obtain ⟨account, filled, new, hnew, hrest, hgives⟩ := h.exists_part_gives hu hrange
  have hafter : ((realm.having realm.heap account).push new).IsPlainArray o object l c p steps :=
    h.retained ((realm.having realm.heap account).retains_push new) h.room
  obtain ⟨object', hplain, hrest', hreplace⟩ := hafter.taken
    (Takes.replaceRun (r := .object ⟨realm.heap.size⟩) rfl h.small rfl hlt hrange)
  refine ⟨account, new, object', hplain, hrest', hnew, hrest, fun host bound => ?_⟩
  obtain ⟨hcreate, hcopy, hlength⟩ := hgives host bound
  have hindex : (argument args (0 + 0)).IsIndexArgument :=
    argument_isIndexArgument hargs (by decide)
  refine h.ofReceiver_gives.bindEngine ?_
  refine Gives.bindEngine (.of_eq (relativeIndex_act hindex h.length_lt _ _)) ?_
  rw [hstart]
  refine Gives.bindEngine (.of_eq (deleteCount_act hargs
    (Nat.lt_of_le_of_lt (Nat.sub_le _ _) h.length_lt) _ _)) ?_
  rw [hcount]
  have hsafe : ¬Number.maxSafe < l.length + (args.drop 2).length - count := by
    rw [Nat.sub_add_comm (by omega)]
    exact not_maxSafe_lt hlt
  rw [if_neg hsafe]
  exact hcreate.bindEngine (hcopy.bindEngine (hlength.bindEngine (hreplace host bound)))

end New

/-! ### The methods -/

section Methods

variable {realm : Realm H} {o c p : ObjectId} {object : Object H} {l l' : List (Option Value)}
  {steps bound : Nat} {args : List Value} {x : Engine H Value} {r : Value} {answer : ArrayAnswer}

namespace Realm.IsPlainArray

/-- A method that makes no object. -/
theorem performed_of_takes (h : realm.IsPlainArray o object l c p steps) (host : Host H)
    (hx : Takes o steps (.ofList l) x r (.ofList l'))
    (hanswer : ∀ after : Realm H, after.heap.size = realm.heap.size →
      answer.Returned realm after o p r) (hb : steps + 4 ≤ bound) :
    ∃ after object' r', x.run host bound realm = .ok r' after
      ∧ realm.Performed after o object object' (l', answer) r' c p steps := by
  obtain ⟨object', hplain, hrest, hgives⟩ := h.taken hx
  refine ⟨_, object', r, (hgives host bound).eq_of_le hb, hplain,
    fun hs => hs.sharing h.stored hrest, hrest, fun q hq _ => object?_putObject_of_ne hq, rfl,
    hanswer _ ?_⟩
  exact Array.size_setIfInBounds

/-- A method that makes a new array, and may change the receiver after that. -/
theorem performed_of_made {account : TimeAccount H} {new object' : Object H}
    {fresh : List (Option Value)} (h : realm.IsPlainArray o object l c p steps)
    (hplain : (((realm.having realm.heap account).push new).putObject o object').IsPlainArray
      o object' l' c p steps) (hrest : object.SharesRest object')
    (hnew : new.Stores (elementsOf fresh) fresh.length)
    (hrest' : (Object.emptyArray p 0).SharesRest new) :
    realm.Performed (((realm.having realm.heap account).push new).putObject o object') o object
      object' (l', .array fresh) (.object ⟨realm.heap.size⟩) c p steps := by
  have hlt : o.index < realm.heap.size := index_lt_of_object? h.stored
  have hne : (⟨realm.heap.size⟩ : ObjectId) ≠ o := by
    rintro rfl
    exact Nat.lt_irrefl _ hlt
  have hsize : (((realm.having realm.heap account).push new).putObject o object').heap.size
      = realm.heap.size + 1 := Array.size_setIfInBounds.trans (Array.size_push _)
  have hretains : realm.Retains ((realm.having realm.heap account).push new) :=
    (realm.having realm.heap account).retains_push new
  refine ⟨hplain, fun hs => (hs.retained hretains).sharing (hretains o object h.stored) hrest,
    hrest, fun q hq hlt => ?_, rfl, .array hsize ?_ hnew hrest'⟩
  · rw [object?_putObject_of_ne hq, object?_push]
    exact if_neg (Nat.ne_of_lt hlt)
  · rw [object?_putObject_of_ne hne]
    exact object?_push_self (realm.having realm.heap account) new

/-- A method that leaves the array as it is and makes a new one. -/
theorem performed_of_new {fresh : List (Option Value)}
    (h : realm.IsPlainArray o object l c p steps) (host : Host H)
    (hx : ∃ (account : TimeAccount H) (new : Object H),
      new.Stores (elementsOf fresh) fresh.length ∧ (Object.emptyArray p 0).SharesRest new
      ∧ ∀ host bound, Gives (steps + 4) bound (x.act (.bounded host bound) realm)
        (.ok (.object ⟨realm.heap.size⟩) ((realm.having realm.heap account).push new)))
    (hb : steps + 4 ≤ bound) :
    ∃ after object' r, x.run host bound realm = .ok r after
      ∧ realm.Performed after o object object' (l, .array fresh) r c p steps := by
  obtain ⟨account, new, hnew, hrest, hgives⟩ := hx
  have hretains : realm.Retains ((realm.having realm.heap account).push new) :=
    (realm.having realm.heap account).retains_push new
  have hself := putObject_self (hretains o object h.stored)
  have hplain := h.retained hretains h.room
  refine ⟨_, object, _, (hgives host bound).eq_of_le hb, ?_⟩
  rw [← hself] at hplain ⊢
  exact h.performed_of_made hplain (.refl object) hnew hrest

end Realm.IsPlainArray

/-- Each of the methods does to a plain array what it is to do to a list with holes. Concatenation
does so where it takes the receiver apart and each argument contributes what it contains. -/
theorem ArrayMethod.run_refines (m : ArrayMethod) {contents : Value → List (Option Value)}
    (host : Host H) (h : realm.IsPlainArray o object l c p steps) (hu : realm.Unlimited)
    (hindex : ∀ v ∈ m.indexArguments args, v.IsIndexArgument)
    (hcontents : m = .concat →
      realm.Spreads o steps ∧ ∀ v ∈ args, realm.Contributes steps v (contents v))
    (hsmall : (m.outcome contents l args).1.length < Number.twoPow 32)
    (hfresh : ∀ l', (m.outcome contents l args).2 = .array l' → l'.length < Number.twoPow 32)
    (hb : steps + 4 ≤ bound) :
    ∃ after object' r,
      (m.function.run (.object o) args none).run host bound realm = .ok r after
      ∧ realm.Performed after o object object' (m.outcome contents l args) r c p steps := by
  cases m with
  | push =>
    simp only [outcome, List.length_append, List.length_map] at hsmall
    exact h.performed_of_takes host (.pushOn hsmall) (fun _ => .value) hb
  | pop => exact h.performed_of_takes host (.popFrom h.small) (fun _ => .value) hb
  | shift => exact h.performed_of_takes host (.shiftFrom h.small) (fun _ => .value) hb
  | unshift =>
    simp only [outcome, List.length_append, List.length_map] at hsmall
    exact h.performed_of_takes host (.unshiftOn (by omega)) (fun _ => .value) hb
  | reverse => exact h.performed_of_takes host .reverseIn (fun _ => .receiver) hb
  | fill =>
    exact h.performed_of_takes host (.fillIn hindex h.small rfl rfl) (fun _ => .receiver) hb
  | concat =>
    obtain ⟨hspreads, hargs⟩ := hcontents rfl
    exact h.performed_of_new host
      (ArrayFunction.concatWith_gives h hspreads hu hargs (hfresh _ rfl)) hb
  | slice => exact h.performed_of_new host (ArrayFunction.sliceOf_gives h hu hindex rfl rfl) hb
  | splice =>
    obtain ⟨account, new, object', hplain, hrest, hnew, hrest', hgives⟩ :=
      ArrayFunction.spliceAt_gives h hu hindex rfl rfl hsmall
    exact ⟨_, object', _, (hgives host bound).eq_of_le hb,
      h.performed_of_made hplain hrest hnew hrest'⟩

end Methods

/-! ### An example -/

/-- A constructor of arrays, the getter of its species, its prototype and a short array. -/
def speciesRealm : Realm HostTypes.bare where
  heap := #[
    (Object.ofKind none .ordinary).define (.string "constructor") (.plain (.object ⟨2⟩)),
    .ofKind none (.function (.native (.builtin (.symbol .speciesGetter)) false)),
    ((Object.ofKind none (.function (.native (.builtin (.array .construct)) true))).define
      (.string "prototype") (.plain (.object ⟨0⟩))).define
      (.wellKnown .species) (.accessor (.object ⟨1⟩) .undefined false true),
    shortArray (.plain (.number 7.0))]
  config := { timeoutMs := 0 }
  store := ()

theorem shortArray_stores (v : Value) :
    (shortArray (.plain v)).Stores (elementsOf [none, some v, none]) 3 := by
  have hempty := Object.Stores.emptyArray (H := HostTypes.bare) ⟨0⟩ (n := 3) (by decide)
  have hlist : elementsOf [none, some v, none] = Function.update (fun _ => none) 1 (some v) := by
    funext i
    match i with
    | 0 | 1 | 2 | _ + 3 => rfl
  rw [hlist]
  refine .of_get? rfl rfl (shortArray_hasLength _).stored (by decide) (fun i => ?_) fun i hi => ?_
  · rw [shortArray, Object.define, PropertyMap.define, PropertyMap.get?_insert, hempty.element]
    exact (Object.Stores.map_update (fun _ => none) 1 i (some v)).symm
  · rw [Function.update_of_ne (by omega)]

theorem speciesRealm_isPlainArray :
    speciesRealm.IsPlainArray ⟨3⟩ (shortArray (.plain (.number 7.0)))
      [none, some (.number 7.0), none] ⟨2⟩ ⟨0⟩ 1 where
  stored := rfl
  stores := ⟨3, Nat.le_refl 3, Nat.le_refl 3, shortArray_stores _⟩
  bare := by
    intro i p hp
    cases hp
    exact ⟨0, Nat.zero_lt_one, .missing rfl rfl rfl rfl⟩
  small := by decide
  room := by decide
  makes := {
    constructor := ⟨1, Nat.le_refl 1, .plain (.object ⟨2⟩),
      .inherited rfl rfl rfl rfl (.own rfl rfl rfl), rfl, rfl⟩
    native := ⟨_, rfl, rfl⟩
    species := ⟨0, Nat.zero_le 1, .accessor (.object ⟨1⟩) .undefined false true, ⟨1⟩, false,
      .own rfl rfl rfl, rfl, rfl, _, rfl, rfl⟩
    prototype := ⟨0, Nat.zero_le 1, .plain (.object ⟨0⟩), .own rfl rfl rfl, rfl, rfl⟩ }

/-- A splice that counts from the end, removes an element and puts two between the holes. -/
theorem run_refines_speciesRealm : ∃ after object' r,
    (ArrayFunction.splice.run (.object ⟨3⟩)
        [.number (-2.0), .number 1.0, .string "x", .string "y"] none).run Host.bare 5 speciesRealm
      = .ok r after
    ∧ speciesRealm.Performed after ⟨3⟩ (shortArray (.plain (.number 7.0))) object'
      ([none, some (.string "x"), some (.string "y"), none], .array [some (.number 7.0)]) r
      ⟨2⟩ ⟨0⟩ 1 := by
  have hstart : (Value.number (-2.0)).indexIn 3 0 = 1 := by decide +kernel
  have hcount : (Value.number 1.0).countUpTo 2 = 1 := by decide +kernel
  have houtcome : ArrayMethod.splice.outcome (fun _ => []) [none, some (.number 7.0), none]
      [.number (-2.0), .number 1.0, .string "x", .string "y"]
      = ([none, some (.string "x"), some (.string "y"), none], .array [some (.number 7.0)]) := by
    simp only [ArrayMethod.outcome, argument, List.getD_cons_zero, List.length_cons,
      List.length_nil, Nat.zero_add, Nat.reduceAdd, hstart, spliceCount, Nat.reduceSub, hcount]
    rfl
  rw [← houtcome]
  refine ArrayMethod.splice.run_refines Host.bare speciesRealm_isPlainArray ⟨rfl, rfl⟩
    (List.forall_mem_cons.mpr ⟨.inr ⟨_, rfl⟩, List.forall_mem_singleton.mpr (.inr ⟨_, rfl⟩)⟩)
    (fun h => by cases h) ?_ (fun l' hl' => ?_) (Nat.le_refl 5)
  · rw [houtcome]
    decide
  · rw [houtcome] at hl'
    cases hl'
    decide

end ScriptEngine
