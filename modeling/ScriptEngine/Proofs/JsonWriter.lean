import ScriptEngine.Proofs.DataProperty
import ScriptEngine.Proofs.JsonText

/-!
# Writing values as JSON

The serializer keeps the objects that it is inside of on a stack and refuses to enter one a second
time. No object is on the stack twice, so the stack is never longer than the heap, and the
serializer comes to an end on every value. It fails exactly on values that lead to an object that is
part of itself; an object that it meets on several ways without being inside of it is written each
time.

## Main definitions

* `Realm.WritesOrRefuses`: a value is written as its tree, or refused.
* `Realm.Stacked`: the objects that are being written while a value is.
* `Serializer.ofGap`: writing with an indentation and without a replacer.
* `Value.gap`: the indentation that a primitive argument asks for.

## Main results

* `ObjectId.enumerableKeys_gives`: the keys of the members of an object.
* `Serializer.property_ofGap`: a property is written as the tree of its value, or is refused.
* `stringifyJson_cases`: what becomes of a value.
-/

namespace ScriptEngine

open Engine

variable {H : HostTypes} {α β : Type}

/-! ### A computation for each element of a list -/

namespace Engine

variable {s : Surroundings H} {realm : Realm H} {f : α → Engine H β} {g : α → β} {stop : Stop}
  {l : List α} {need bound : Nat}

theorem mapM_loop_gives {bs : List β}
    (h : List.Forall₂ (fun a b => Gives need bound ((f a).act s realm) (.ok b realm)) l bs)
    (done : List β) : Gives need bound ((List.mapM.loop f l done).act s realm)
      (.ok (done.reverse ++ bs) realm) := by
  induction h generalizing done with
  | nil => exact .of_eq (by rw [List.append_nil]; rfl)
  | @cons a b l bs ha _ ih =>
    have hrest := ih (b :: done)
    rw [List.reverse_cons, List.append_assoc] at hrest
    exact ha.bindEngine hrest

/-- Computations that leave the realm as it is give the list of their results. -/
theorem mapM_gives {bs : List β}
    (h : List.Forall₂ (fun a b => Gives need bound ((f a).act s realm) (.ok b realm)) l bs) :
    Gives need bound ((l.mapM f).act s realm) (.ok bs realm) :=
  mapM_loop_gives h []

theorem mapM_map_gives (h : ∀ a ∈ l, Gives need bound ((f a).act s realm) (.ok (g a) realm)) :
    Gives need bound ((l.mapM f).act s realm) (.ok (l.map g) realm) :=
  mapM_gives (List.forall₂_map_right_iff.mpr (List.forall₂_same.mpr h))

theorem mapM_of_ok (h : ∀ a ∈ l, (f a).act s realm = .ok (g a) realm) :
    (l.mapM f).act s realm = .ok (l.map g) realm :=
  (mapM_map_gives fun a ha => .of_eq (h a ha)).eq_of_le (Nat.le_refl 0)

theorem mapM_loop_of_error
    (h : ∀ a ∈ l, (∃ b, (f a).act s realm = .ok b realm) ∨ (f a).act s realm = .error stop realm)
    (he : ∃ a ∈ l, (f a).act s realm = .error stop realm) (done : List β) :
    (List.mapM.loop f l done).act s realm = .error stop realm := by
  induction l generalizing done with
  | nil => simp at he
  | cons a l ih =>
    obtain ⟨ha, hl⟩ := List.forall_mem_cons.mp h
    rcases ha with ⟨b, ha⟩ | ha
    · refine (Engine.bind_of_ok ha).trans (ih hl ?_ (b :: done))
      obtain ⟨a', hmem, herror⟩ := he
      rcases List.mem_cons.mp hmem with rfl | hmem
      · cases ha.symm.trans herror
      · exact ⟨a', hmem, herror⟩
    · exact Engine.bind_of_error ha

/-- Where some of the computations fail, and all in the same way, the whole does. -/
theorem mapM_of_error
    (h : ∀ a ∈ l, (∃ b, (f a).act s realm = .ok b realm) ∨ (f a).act s realm = .error stop realm)
    (he : ∃ a ∈ l, (f a).act s realm = .error stop realm) :
    (l.mapM f).act s realm = .error stop realm :=
  mapM_loop_of_error h he []

end Engine

/-! ### The keys of the members -/

section Keys

variable {host : Host H} {bound : Nat} {s : Surroundings H} {realm : Realm H} {o : ObjectId}
  {object : Object H} {k : PropertyKey}

/-- The value that names a key gives the key of its text. -/
theorem PropertyKey.toPropertyKey_toValue (hs : k.isSymbol = false) :
    (k.toValue.toPropertyKey : Engine H PropertyKey).act s realm
      = .ok (.ofString k.text) realm := by
  cases k with
  | string => rfl
  | index => rfl
  | symbol => cases hs

/-- The keys of the members are read off an object. -/
theorem ObjectId.enumerableKeys_gives (ho : realm.object? o = some object)
    (hp : object.kind.isPlain) (hl : ¬realm.AtLimit) :
    Gives 1 bound (o.enumerableKeys.act (.bounded host bound) realm)
      (.ok object.memberKeys realm) := by
  let listed (k : PropertyKey) : Bool :=
    !k.isSymbol && (object.ownProperty? k).any Descriptor.isEnumerable
  have hitems : ∀ keys : List PropertyKey,
      (keys.map fun k => if listed k then some k.toValue else none).filterMap id
        = (keys.filter listed).map PropertyKey.toValue := by
    intro keys
    rw [List.filterMap_map, ← List.filterMap_eq_map, List.filterMap_filter]
    rfl
  have howned : Gives 1 bound ((o.enumerableOwn .keys).act (.bounded host bound) realm)
      (.ok (object.enumerableKeys.map PropertyKey.toValue) realm) := by
    refine (ObjectId.ownKeys_gives ho hp hl).bindEngine ?_
    refine (mapM_map_gives (g := fun k => if listed k then some k.toValue else none)
      fun k _ => ?_).bindEngine (.of_eq (congrArg (EStateM.Result.ok · realm) (hitems _)))
    cases hs : k.isSymbol with
    | true => exact .of_eq (by simp [hs, listed]; rfl)
    | false =>
      refine (ObjectId.getOwnProperty_gives ho hp hl k).bindEngine (.of_eq ?_)
      cases hd : object.ownProperty? k with
      | none => simp [hs, hd, listed]; rfl
      | some d => cases he : d.isEnumerable <;> simp [hs, hd, he, listed] <;> rfl
  refine howned.bindEngine (mapM_gives (List.forall₂_map_left_iff.mpr
    (List.forall₂_map_right_iff.mpr (List.forall₂_same.mpr fun k hk => .of_eq ?_))))
  exact PropertyKey.toPropertyKey_toValue (Object.mem_enumerableKeys.mp hk).2.1

end Keys

/-! ### Writing a property -/

/-- The failure to write what is part of itself. -/
def Failure.circular : Failure := .typeError "Converting circular structure to JSON"

/-- A value is written as the text of its tree, or refused because it leads to an object that is
part of itself. -/
def Realm.WritesOrRefuses (realm after : Realm H) (text : Json → String) (v : Value)
    (result : EStateM.Result Stop (Realm H) (Option String)) : Prop :=
  (∃ t?, realm.Unfolds v t? ∧ result = .ok (t?.map text) after)
    ∨ (realm.Circular v ∧ result = .error (.failure .circular) after)

/-- The objects that are being written while a value is: different ones, each of which leads to the
value. -/
structure Realm.Stacked (realm : Realm H) (stack : List ObjectId) (v : Value) : Prop where
  nodup : stack.Nodup
  leads : ∀ p ∈ stack, p.index < realm.heap.size
    ∧ ∃ path, path ≠ [] ∧ realm.PartAt (.object p) path v

namespace Realm.Stacked

variable {realm : Realm H} {stack : List ObjectId} {o : ObjectId} {object : Object H}
  {isArray : Bool} {keys : List PropertyKey} {value : PropertyKey → Value} {k : PropertyKey}

theorem nil (realm : Realm H) (v : Value) : realm.Stacked [] v :=
  ⟨List.nodup_nil, fun _ hp => absurd hp List.not_mem_nil⟩

/-- An object on the stack that is met again is part of itself. -/
theorem circular (h : realm.Stacked stack (.object o)) (ho : o ∈ stack) :
    realm.Circular (.object o) := by
  obtain ⟨-, path, hne, hpath⟩ := h.leads o ho
  exact ⟨o, [], path, .whole _, hne, hpath⟩

/-- An object that is not on the stack is put there while its parts are written. -/
theorem part (h : realm.Stacked stack (.object o)) (ho : realm.object? o = some object)
    (hnot : o ∉ stack) (hparts : realm.HasParts o isArray keys value) (hk : k ∈ keys) :
    realm.Stacked (o :: stack) (value k) where
  nodup := List.nodup_cons.mpr ⟨hnot, h.nodup⟩
  leads := List.forall_mem_cons.mpr
    ⟨⟨Realm.index_lt_of_object? ho, [k], List.cons_ne_nil _ _, .part hparts hk (.whole _)⟩,
      fun p hp => by
        obtain ⟨hlt, path, -, hpath⟩ := h.leads p hp
        exact ⟨hlt, path ++ [k], by simp, hpath.append (.part hparts hk (.whole _))⟩⟩

end Realm.Stacked

namespace Serializer

/-- Writing with an indentation and without a replacer. -/
def ofGap (quote : String → String) (gap : String) : Serializer :=
  { replacer := none, properties := none, gap, quote }

/-- Writing an object that has been entered, given how its parts are written. -/
def container (s : Serializer) (indent : String) (o : ObjectId) (isArray : Bool)
    (part : PropertyKey → Engine H (Option String)) : Engine H (Option String) :=
  if isArray then do
    let length ← o.lengthOfArrayLike
    let parts ← (List.range length).mapM fun i => return (← part (.ofNat i)).getD "null"
    return some (s.wrap indent "[" "]" parts)
  else do
    let parts ← (← s.memberKeys o).mapM fun k => return (← part k).map (s.member k)
    return some (s.wrap indent "\x7b" "\x7d" (parts.filterMap id))

section Property

variable {host : Host H} {bound fuel steps : Nat} {realm after : Realm H} {o holder : ObjectId}
  {object : Object H} {k : PropertyKey} {v : Value} {quote : String → String}
  {gap indent : String} {stack : List ObjectId}
  {keys : List PropertyKey} {value : PropertyKey → Value} {isArray : Bool}

variable (hr : realm.Retains after)
  (hl : ¬(after.atDepth (after.callDepth + steps + 1)).AtLimit) (hb : steps + 2 ≤ bound)
include hr hl hb

/-- Reading a property whose search finds data. -/
theorem get_of_finds {found : Option Descriptor} (hfinds : realm.Finds k o found)
    (hdata : ∀ d, found = some d → d.isData)
    (hsteps : ∀ n, realm.FindsAfter k n o found → n ≤ steps) :
    (o.get k).act (.bounded host bound) after
      = .ok (found.elim .undefined Descriptor.valueD) after := by
  obtain ⟨n, -, hfinds⟩ := hfinds.exists_findsAfter
  have hn := hsteps n hfinds
  exact ((hfinds.retained hr).getFor_gives hdata after.callDepth
    fun hlimit => hl (Realm.atLimit_of_le (by omega) hlimit)).eq_of_le (by omega)

section Object

variable (h : realm.HoldsData o object)
  (hsteps : ∀ k n found, realm.FindsAfter k n o found → n ≤ steps)
include h hsteps

/-- An object without a method to replace it is written itself. -/
theorem ownReplacement_of_holdsData :
    (ownReplacement k (.object o)).act (.bounded host bound) after = .ok (.object o) after := by
  obtain ⟨found, hfinds, hdata⟩ := h.replacement
  have hget : ((Value.object o).getProperty (.ofString "toJSON")).act (.bounded host bound) after
      = .ok (found.elim .undefined Descriptor.valueD) after :=
    get_of_finds hr hl hb hfinds hdata fun n => hsteps _ n found
  have hinert : after.isCallable (found.elim .undefined Descriptor.valueD) = false := by
    cases found with
    | none => rfl
    | some d => exact (h.inert d hfinds).isCallable hr
  have hcallable : (isCallable (found.elim Value.undefined Descriptor.valueD)).act
      (.bounded host bound) after
        = .ok (after.isCallable (found.elim .undefined Descriptor.valueD)) after := rfl
  refine (Engine.bind_of_ok hget).trans ((Engine.bind_of_ok hcallable).trans ?_)
  rw [hinert]
  rfl

/-- The value of a part. -/
theorem get_of_hasParts (hparts : realm.HasParts o isArray keys value) (hk : k ∈ keys) :
    (o.get k).act (.bounded host bound) after = .ok (value k) after := by
  obtain ⟨found, hfinds, hdata, hvalue⟩ := h.exists_finds hparts hk
  rw [hvalue]
  exact get_of_finds hr hl hb hfinds hdata fun n => hsteps k n found

/-- An object that holds data is entered, unless it is on the stack. -/
theorem property_of_holdsData
    (hget : (holder.get k).act (.bounded host bound) after = .ok (.object o) after) :
    ((ofGap quote gap).property (fuel + 1) stack indent holder k).act (.bounded host bound) after
      = if stack.contains o then .error (.failure .circular) after
        else ((ofGap quote gap).container indent o object.kind.isArray
          ((ofGap quote gap).property fuel (o :: stack) (indent ++ gap) o)).act
            (.bounded host bound) after := by
  have ho := hr _ _ h.stored
  have hplain : (unwrapped (.object o)).act (.bounded host bound) after
      = .ok (.object o) after := by
    refine (Engine.bind_of_ok (getKind_of_some ho)).trans ?_
    obtain ⟨isArray, keys, hkeys, -⟩ := h.parts
    cases hkeys with
    | members hk =>
      rw [hk]
      rfl
    | elements hc =>
      rw [hc.isArray]
      rfl
  have hcallable : (isCallable (.object o)).act (.bounded host bound) after = .ok false after := by
    refine congrArg (EStateM.Result.ok · after) ?_
    change (after.kind? o).any ObjectKind.isCallable = false
    rw [Realm.kind?, ho]
    exact h.isCallable_eq_false
  have harray : o.isArray.act (.bounded host bound) after = .ok object.kind.isArray after :=
    (ObjectId.isArray_gives ho h.isPlain).eq_of_le (by omega)
  refine (Engine.bind_of_ok hget).trans ?_
  refine (Engine.bind_of_ok (ownReplacement_of_holdsData hr hl hb h hsteps)).trans ?_
  refine (Engine.bind_of_ok (a := Value.object o) rfl).trans ?_
  refine (Engine.bind_of_ok hplain).trans ?_
  refine (Engine.bind_of_ok hcallable).trans ?_
  refine (Engine.bind_of_ok harray).trans ?_
  cases hstack : stack.contains o with
  | true =>
    have hrefuse : (requireAcyclic stack o : Engine H Unit).act (.bounded host bound) after
        = .error (.failure .circular) after := by
      unfold requireAcyclic
      rw [hstack]
      rfl
    cases object.kind.isArray <;> exact Engine.bind_of_error hrefuse
  | false =>
    have hpass : (requireAcyclic stack o : Engine H Unit).act (.bounded host bound) after
        = .ok () after := by
      unfold requireAcyclic
      rw [hstack]
      rfl
    cases object.kind.isArray <;> exact Engine.bind_of_ok hpass

variable {part : PropertyKey → Engine H (Option String)} {texts : PropertyKey → Option String}
  {stop : Stop} (hparts : realm.HasParts o isArray keys value)
include hparts

variable (host quote gap) in
omit hsteps in
/-- The members of an ordinary object that is written, and the items of an array. -/
theorem keys_of_hasParts : if isArray
    then ∃ length, keys = (List.range length).map .ofNat
      ∧ o.lengthOfArrayLike.act (.bounded host bound) after = .ok length after
    else ((ofGap quote gap).memberKeys o).act (.bounded host bound) after = .ok keys after := by
  have ho := hr _ _ h.stored
  cases hparts.partKeys h.stored with
  | members =>
    refine (ObjectId.enumerableKeys_gives ho h.isPlain fun hlimit => hl ?_).eq_of_le (by omega)
    exact Realm.atLimit_of_le (m := after.callDepth) (by omega) hlimit
  | elements hc =>
    refine ⟨_, rfl, (hc.lengthOfArrayLike_gives ho fun hlimit => hl ?_).eq_of_le (by omega)⟩
    exact Realm.atLimit_of_le (m := after.callDepth + 1) (by omega) hlimit

omit hsteps in
/-- An object all of whose parts are written is written. -/
theorem container_of_ok (ht : ∀ k ∈ keys, (part k).act (.bounded host bound) after
      = .ok (texts k) after) :
    ((ofGap quote gap).container indent o isArray part).act (.bounded host bound) after
      = .ok (some (if isArray
          then (ofGap quote gap).wrap indent "[" "]" (keys.map fun k => (texts k).getD "null")
          else (ofGap quote gap).wrap indent "\x7b" "\x7d"
            (keys.filterMap fun k => (texts k).map ((ofGap quote gap).member k)))) after := by
  have hkeys := keys_of_hasParts host quote gap hr hl hb h hparts
  unfold container
  cases isArray with
  | true =>
    obtain ⟨length, rfl, hlength⟩ := hkeys
    refine (Engine.bind_of_ok hlength).trans ((Engine.bind_of_ok (mapM_of_ok
      (g := fun i => (texts (.ofNat i)).getD "null") fun i hi => ?_)).trans ?_)
    · exact Engine.bind_of_ok (ht _ (List.mem_map_of_mem hi))
    · rw [if_pos rfl, List.map_map]
      rfl
  | false =>
    refine (Engine.bind_of_ok hkeys).trans ((Engine.bind_of_ok (mapM_of_ok
      (g := fun k => (texts k).map ((ofGap quote gap).member k)) fun k hk => ?_)).trans ?_)
    · exact Engine.bind_of_ok (ht k hk)
    · rw [List.filterMap_map]
      rfl

omit hsteps in
/-- An object with a part that is refused is refused. -/
theorem container_of_error
    (ht : ∀ k ∈ keys, (∃ t, (part k).act (.bounded host bound) after = .ok t after)
      ∨ (part k).act (.bounded host bound) after = .error stop after)
    (he : ∃ k ∈ keys, (part k).act (.bounded host bound) after = .error stop after) :
    ((ofGap quote gap).container indent o isArray part).act (.bounded host bound) after
      = .error stop after := by
  have hkeys := keys_of_hasParts host quote gap hr hl hb h hparts
  obtain ⟨k, hk, hstop⟩ := he
  unfold container
  cases isArray with
  | true =>
    obtain ⟨length, rfl, hlength⟩ := hkeys
    refine (Engine.bind_of_ok hlength).trans (Engine.bind_of_error (mapM_of_error
      (fun i hi => ?_) ?_))
    · exact (ht _ (List.mem_map_of_mem hi)).imp (fun ⟨t, ht⟩ => ⟨_, Engine.bind_of_ok ht⟩)
        fun ht => Engine.bind_of_error ht
    · obtain ⟨i, hi, rfl⟩ := List.mem_map.mp hk
      exact ⟨i, hi, Engine.bind_of_error hstop⟩
  | false =>
    refine (Engine.bind_of_ok hkeys).trans (Engine.bind_of_error (mapM_of_error
      (fun k hk => ?_) ⟨k, hk, Engine.bind_of_error hstop⟩))
    exact (ht k hk).imp (fun ⟨t, ht⟩ => ⟨_, Engine.bind_of_ok ht⟩)
      fun ht => Engine.bind_of_error ht

omit hsteps in
/-- An object is written if its parts are, and refused if one of them is. -/
theorem writesOrRefuses_container
    (hpart : ∀ k ∈ keys, realm.WritesOrRefuses after ((ofGap quote gap).text (indent ++ gap))
      (value k) ((part k).act (.bounded host bound) after)) :
    realm.WritesOrRefuses after ((ofGap quote gap).text indent) (.object o)
      (((ofGap quote gap).container indent o isArray part).act (.bounded host bound) after) := by
  by_cases hall : ∀ k ∈ keys, ∃ t?, realm.Unfolds (value k) t?
  · refine .inl ?_
    choose! trees htrees using hall
    have hwritten (k : PropertyKey) (hk : k ∈ keys) : (part k).act (.bounded host bound) after
        = .ok ((trees k).map ((ofGap quote gap).text (indent ++ gap))) after := by
      rcases hpart k hk with ⟨t?, ht, hok⟩ | ⟨hcircular, -⟩
      · rw [hok, ht.unique (htrees k hk)]
      · exact absurd hcircular (htrees k hk).not_circular
    refine ⟨_, .container hparts htrees, ?_⟩
    rw [container_of_ok hr hl hb h hparts hwritten, Option.map_some, text_ofParts]
    rfl
  · simp only [not_forall] at hall
    obtain ⟨k, hk, hnone⟩ := hall
    have hrefused := (hpart k hk).resolve_left fun ⟨t?, ht, _⟩ => hnone ⟨t?, ht⟩
    refine .inr ⟨hrefused.1.of_part hparts hk, container_of_error hr hl hb h hparts
      (fun k hk => ?_) ⟨k, hk, hrefused.2⟩⟩
    exact (hpart k hk).imp (fun ⟨t?, _, hok⟩ => ⟨_, hok⟩) And.right

end Object

omit hl hb hr in
/-- A primitive value is written as its tree. -/
theorem property_of_primitive (hv : v.isObject = false)
    (hget : (holder.get k).act (.bounded host bound) after = .ok v after) :
    ((ofGap quote gap).property (fuel + 1) stack indent holder k).act (.bounded host bound) after
      = .ok (v.tree?.map ((ofGap quote gap).text indent)) after := by
  refine (Engine.bind_of_ok hget).trans ?_
  rw [← primitive?_eq (ofGap quote gap) indent hv]
  cases v with
  | object => cases hv
  | _ => rfl

/-- A property is written as the tree of its value; where the value leads to an object that is part
of itself it is refused. -/
theorem property_ofGap
    (hget : (holder.get k).act (.bounded host bound) after = .ok v after)
    (hdata : realm.LeadsToData v) (hsearch : realm.SearchesWithin v steps)
    (hstack : realm.Stacked stack v) (hfuel : realm.heap.size < fuel + stack.length) :
    realm.WritesOrRefuses after ((ofGap quote gap).text indent) v
      (((ofGap quote gap).property fuel stack indent holder k).act
        (.bounded host bound) after) := by
  induction fuel generalizing stack indent holder k v with
  | zero =>
    have := Realm.length_le_of_nodup hstack.nodup fun p hp => (hstack.leads p hp).1
    omega
  | succ fuel ih =>
    cases hv : v.isObject with
    | false => exact .inl ⟨_, .primitive hv, property_of_primitive hv hget⟩
    | true =>
      obtain ⟨o, rfl⟩ : ∃ o, v = .object o := by
        cases v with
        | object o => exact ⟨o, rfl⟩
        | _ => cases hv
      obtain ⟨object, h⟩ := hdata [] o (.whole _)
      obtain ⟨isArray, keys, value, hparts⟩ := h.exists_hasParts
      have hsteps (k : PropertyKey) (n : Nat) (found : Option Descriptor) :=
        hsearch [] o k n found (.whole _)
      rw [property_of_holdsData hr hl hb h hsteps hget]
      cases hmem : stack.contains o with
      | true => exact .inr ⟨hstack.circular (List.contains_iff_mem.mp hmem), rfl⟩
      | false =>
        have hnot : o ∉ stack := fun hmem' => by
          rw [List.contains_iff_mem.mpr hmem'] at hmem
          cases hmem
        rw [if_neg Bool.false_ne_true, (hparts.partKeys h.stored).isArray_eq]
        -- the parts are written with the object on the stack
        refine writesOrRefuses_container hr hl hb h hparts fun k hk => ?_
        exact ih (get_of_hasParts hr hl hb h hsteps hparts hk) (hdata.part hparts hk)
          (hsearch.part hparts hk) (hstack.part h.stored hnot hparts hk)
          (by rw [List.length_cons]; omega)

end Property

end Serializer

/-! ### Writing a value -/

/-- The indentation that a primitive argument asks for: up to ten blanks for a number, up to ten
units of a string. -/
def Value.gap : Value → String
  | number n =>
    let n := Number.integerOrInfinity n
    String.ofList (List.replicate (if n ≤ 0.0 then 0 else Number.toNat (Number.atMost n 10.0)) ' ')
  | string s => Text.ofUnits ((Text.units s).take 10)
  | _ => ""

/-- The object that holds a value that is to be written. -/
def Realm.holderOf (realm : Realm H) (v : Value) : Object H :=
  .ofKindWith (some (realm.intrinsics.get .objectPrototype)) .ordinary (.ofString "") (.plain v)

section Write

variable {host : Host H} {bound steps : Nat} {s : Surroundings H} {realm : Realm H}
  {v replacer space : Value}

theorem Serializer.ofArguments_eq (hreplacer : replacer.isObject = false)
    (hspace : space.isObject = false) :
    (Serializer.ofArguments replacer space : Engine H Serializer).act s realm
      = .ok (.ofGap H.json.quote space.gap) realm := by
  have hgap : (Serializer.gapOf space : Engine H String).act s realm = .ok space.gap realm := by
    cases space with
    | object => cases hspace
    | _ => rfl
  refine (Engine.bind_of_ok hgap).trans ?_
  cases replacer with
  | object => cases hreplacer
  | _ => rfl

/-- The object that holds a value is the only thing that is new. -/
theorem holderOf_gives (hl : ¬realm.deeper.deeper.AtLimit) :
    Gives 3 bound ((ScriptEngine.holderOf v).act (.bounded host bound) realm)
      (.ok ⟨realm.heap.size⟩ (realm.push (realm.holderOf v))) := by
  let empty : Object H := .ofKind (some (realm.intrinsics.get .objectPrototype)) .ordinary
  have hnew : (newPlain : Engine H ObjectId).act (.bounded host bound) realm
      = .ok ⟨realm.heap.size⟩ (realm.push empty) := rfl
  have hdefines : empty.Defines (.ofString "") (.plain v) _ true :=
    Object.defines_new rfl rfl rfl (PropertyMap.get?_empty _)
  refine Gives.bindEngine (.of_eq hnew) ?_
  refine (hdefines.createDataProperty_gives (realm.object?_push_self empty) rfl hl).bindEngine
    (.of_eq ?_)
  rw [Realm.push, Realm.putObject_push]
  rfl

/-- A value is written as its tree, or refused. -/
theorem stringifyJson_cases (host : Host H) (hreplacer : replacer.isObject = false)
    (hspace : space.isObject = false) (hdata : realm.LeadsToData v)
    (hsearch : realm.SearchesWithin v steps)
    (hl : ¬(realm.atDepth (realm.callDepth + steps + 2)).AtLimit)
    (hb : realm.heap.size + 3 ≤ bound) :
    (∃ t?, realm.Unfolds v t? ∧ (stringifyJson v replacer space).run host bound realm
      = .ok (t?.elim .undefined fun t =>
          .string ((Serializer.ofGap H.json.quote space.gap).text "" t))
        (realm.push (realm.holderOf v)))
    ∨ (realm.Circular v ∧ (stringifyJson v replacer space).run host bound realm
      = .error (.failure .circular) (realm.push (realm.holderOf v))) := by
  let after := realm.push (realm.holderOf v)
  -- a search goes over fewer prototypes than there are objects in any case
  let least := min steps realm.heap.size
  have hleast : realm.SearchesWithin v least := fun path o k n found hpath hfinds =>
    Nat.le_min.mpr ⟨hsearch path o k n found hpath hfinds,
      realm.searchesWithin_size v path o k n found hpath hfinds⟩
  have hsteps : least ≤ steps := Nat.min_le_left _ _
  have hsize : least ≤ realm.heap.size := Nat.min_le_right _ _
  have hdeep {m : Nat} (hm : m ≤ steps + 2) :
      ¬(realm.atDepth (realm.callDepth + m)).AtLimit :=
    fun hlimit => hl (Realm.atLimit_of_le (by omega) hlimit)
  have hholder : (ScriptEngine.holderOf v).act (.bounded host bound) realm
      = .ok ⟨realm.heap.size⟩ after :=
    (holderOf_gives (hdeep (m := 2) (by omega))).eq_of_le (by omega)
  have hget : ((⟨realm.heap.size⟩ : ObjectId).get (.ofString "")).act (.bounded host bound) after
      = .ok v after :=
    (ObjectId.getFor_gives_of_isData (d := .plain v) (realm.object?_push_self _) rfl
      (hdeep (m := 1) (by omega)) rfl rfl).eq_of_le (by omega)
  let written : Engine H (Option String) :=
    (Serializer.ofGap H.json.quote space.gap).property bound [] "" ⟨realm.heap.size⟩ (.ofString "")
  have hproperty : realm.WritesOrRefuses after
      ((Serializer.ofGap H.json.quote space.gap).text "") v
      (written.act (.bounded host bound) after) :=
    Serializer.property_ofGap (realm.retains_push (realm.holderOf v))
      (hdeep (m := least + 1) (by omega)) (by omega) hget hdata hleast (.nil realm v)
      (by simpa using by omega)
  rcases hproperty with ⟨t?, ht, hok⟩ | ⟨hcircular, herror⟩
  · refine .inl ⟨t?, ht, ?_⟩
    refine (Engine.bind_of_ok (Serializer.ofArguments_eq hreplacer hspace)).trans ?_
    refine (Engine.bind_of_ok hholder).trans ((Engine.bind_of_ok (a := bound) rfl).trans ?_)
    refine (Engine.bind_of_ok hok).trans ?_
    cases t? <;> rfl
  · refine .inr ⟨hcircular, ?_⟩
    refine (Engine.bind_of_ok (Serializer.ofArguments_eq hreplacer hspace)).trans ?_
    refine (Engine.bind_of_ok hholder).trans ((Engine.bind_of_ok (a := bound) rfl).trans ?_)
    exact Engine.bind_of_error herror

/-- Writing a value whose objects hold data comes to an end. It fails exactly if the value leads to
an object that is part of itself. Otherwise the text is that of the tree of the value: at each path
that leads to an object stands the one tree of that object, and it is written into the text with
nothing but its indentation adjusted to the length of the path. -/
theorem stringifyJson_detects_circles (host : Host H) (hreplacer : replacer.isObject = false)
    (hspace : space.isObject = false) (hdata : realm.LeadsToData v)
    (hsearch : realm.SearchesWithin v steps)
    (hl : ¬(realm.atDepth (realm.callDepth + steps + 2)).AtLimit)
    (hb : realm.heap.size + 3 ≤ bound) :
    ((stringifyJson v replacer space).run host bound realm
        = .error (.failure .circular) (realm.push (realm.holderOf v))
      ↔ realm.Circular v)
    ∧ (¬realm.Circular v → ∃ (t? : Option Json) (tree : ObjectId → Json),
      realm.Unfolds v t?
      ∧ (stringifyJson v replacer space).run host bound realm
        = .ok (t?.elim .undefined fun t =>
            .string ((Serializer.ofGap H.json.quote space.gap).text "" t))
          (realm.push (realm.holderOf v))
      ∧ ∀ path o, realm.PartAt v path (.object o) → realm.Unfolds (.object o) (some (tree o))
        ∧ ∃ t, t? = some t ∧ t.at? path = some (tree o)
          ∧ ((Serializer.ofGap H.json.quote space.gap).text
              ((Serializer.ofGap H.json.quote space.gap).indentAt "" path.length) (tree o)).toList
            <:+: ((Serializer.ofGap H.json.quote space.gap).text "" t).toList) := by
  rcases stringifyJson_cases host hreplacer hspace hdata hsearch hl hb with
    ⟨t?, ht, hok⟩ | ⟨hc, herror⟩
  · refine ⟨⟨fun h => ?_, fun h => absurd h ht.not_circular⟩, fun _ => ?_⟩
    · cases hok.symm.trans h
    -- an object has a tree if the value leads to it
    have htree (o : ObjectId) : ∃ tree : Json, ∀ path, realm.PartAt v path (.object o) →
        realm.Unfolds (.object o) (some tree) := by
      by_cases hpath : ∃ path, realm.PartAt v path (.object o)
      · obtain ⟨path, hpath⟩ := hpath
        obtain ⟨-, part, -, -, hpart⟩ := ht.exists_at? hdata hpath
        exact ⟨part, fun _ _ => hpart⟩
      · exact ⟨.null, fun path h => absurd ⟨path, h⟩ hpath⟩
    choose tree htree using htree
    refine ⟨t?, tree, ht, hok, fun path o hpath => ⟨htree o path hpath, ?_⟩⟩
    obtain ⟨t, part, hsome, hat, hpart⟩ := ht.exists_at? hdata hpath
    obtain rfl := Option.some.inj (hpart.unique (htree o path hpath))
    exact ⟨t, hsome, hat, Serializer.text_isInfix hat⟩
  · exact ⟨⟨fun _ => hc, fun _ => herror⟩, fun hnot => absurd hc hnot⟩

end Write

/-- An object that is part of itself. -/
def ringObject : Object HostTypes.bare :=
  .ofKindWith none .ordinary (.string "self") (.plain (.object ⟨0⟩))

/-- A realm with an object that is part of itself. -/
def ringRealm : Realm HostTypes.bare := { heap := #[ringObject], store := () }

theorem ringObject_memberKeys : ringObject.memberKeys = [.string "self"] := by decide

theorem ringRealm_finds :
    ringRealm.Finds (.string "self") ⟨0⟩ (some (.plain (.object ⟨0⟩))) := by
  have ho : ringRealm.object? ⟨0⟩ = some ringObject := rfl
  exact .own ho rfl rfl

theorem ringRealm_hasParts :
    ringRealm.HasParts ⟨0⟩ false [.string "self"] fun _ => .object ⟨0⟩ := by
  refine ringObject_memberKeys ▸ .found rfl (.members rfl) fun k hk => ?_
  rw [ringObject_memberKeys] at hk
  obtain rfl := List.mem_singleton.mp hk
  exact ⟨_, ringRealm_finds, rfl⟩

theorem ringRealm_leadsToData : ringRealm.LeadsToData (.object ⟨0⟩) := by
  have hnone : ringRealm.Finds (.ofString "toJSON") ⟨0⟩ none := .missing rfl rfl rfl rfl
  refine .of_closed (S := (· = ⟨0⟩)) (fun o ho => (Value.object.inj ho).symm) ?_ ?_
  · rintro o rfl
    refine ⟨ringObject, rfl, ⟨false, _, .members rfl, fun k hk => ?_⟩,
      ⟨none, hnone, fun d hd => (by cases hd)⟩, fun d hd => ?_⟩
    · rw [ringObject_memberKeys] at hk
      obtain rfl := List.mem_singleton.mp hk
      refine ⟨_, ringRealm_finds, fun d hd => ?_⟩
      cases hd
      rfl
    · cases hd.unique hnone
  · rintro o isArray keys value rfl h k hk p hp
    obtain ⟨rfl, rfl, hvalue⟩ := ringRealm_hasParts.unique h
    rw [← hvalue k hk] at hp
    exact (Value.object.inj hp).symm

/-- An object that is part of itself is refused. -/
theorem stringifyJson_detects_circles_ringRealm :
    (stringifyJson (.object ⟨0⟩) .undefined .undefined).run Host.bare 4 ringRealm
      = .error (.failure .circular) (ringRealm.push (ringRealm.holderOf (.object ⟨0⟩))) :=
  (stringifyJson_detects_circles Host.bare rfl rfl ringRealm_leadsToData
    (ringRealm.searchesWithin_size _) (by decide) (Nat.le_refl 4)).1.mpr
      ⟨⟨0⟩, [], [.string "self"], .whole _, List.cons_ne_nil _ _,
        .part ringRealm_hasParts (List.mem_singleton.mpr rfl) (.whole _)⟩

end ScriptEngine
