import ScriptEngine.Proofs.ArrayLength
import ScriptEngine.Proofs.Lawful

/-!
# Arrays along runs

Where the depth of calls is not limited, every array that a program can reach is in order. Here this
is proved for whole runs, and the methods that define the length of an array are described exactly:
what a request for a smaller length removes, and what a request that fails leaves behind.

## Main definitions

* `Realm.InOrder`: a realm in which every array is in order.
* `Object.Truncation`: what becomes of an array when its length is lowered.
* `Realm.CutsShort`: where the limit on the depth of calls stops a request half way.

## Main results

* `Realm.Reachable.inOrder`: the arrays of every realm that can be reached are in order.
* `ArrayObject.setLength_truncation`: lowering the length.
* `arrays_inOrder`: arrays are made in order, stay so, and are truncated as described.
* `answer_defineLength_failure`: when a request for a length that fails leaves the array alone.
-/

namespace ScriptEngine

open Engine

variable {H : HostTypes}

/-! ### The length that a value denotes -/

section RequestedLength

variable {s : Surroundings H} {realm middle after : Realm H} {v : Value} {x y : Float} {n : Nat}

/-- The value is converted twice; the first number is cut to 32 bits and the second one has to be
equal to that. -/
theorem ArrayObject.requestedLength_eq (hx : v.toNumber.act s realm = .ok x middle)
    (hy : v.toNumber.act s middle = .ok y after) :
    (ArrayObject.requestedLength v).act s realm
      = if Float.ofNat (Number.toUint32 x) == y then .ok (Number.toUint32 x) after
        else .error (.failure (.rangeError "Invalid array length")) after := by
  have hlength : v.toUint32.act s realm = .ok (Number.toUint32 x) middle := by
    unfold Value.toUint32
    rw [Engine.bind_of_ok hx]
    rfl
  unfold ArrayObject.requestedLength
  rw [Engine.bind_of_ok hlength, Engine.bind_of_ok hy]
  cases Float.ofNat (Number.toUint32 x) == y with
  | false => rfl
  | true => rfl

theorem ArrayObject.requestedLength_of_beq (hx : v.toNumber.act s realm = .ok x middle)
    (hy : v.toNumber.act s middle = .ok y after) (hn : n < Number.twoPow 32)
    (hnx : Float.ofNat n == x) (hny : Float.ofNat n == y) :
    (ArrayObject.requestedLength v).act s realm = .ok n after := by
  rw [ArrayObject.requestedLength_eq hx hy, Number.toUint32_of_beq hn hnx, if_pos hny]

theorem ArrayObject.requestedLength_of_forall_ne (hx : v.toNumber.act s realm = .ok x middle)
    (hy : v.toNumber.act s middle = .ok y after)
    (hne : ∀ n < Number.twoPow 32, ¬(Float.ofNat n == y)) :
    (ArrayObject.requestedLength v).act s realm
      = .error (.failure (.rangeError "Invalid array length")) after := by
  rw [ArrayObject.requestedLength_eq hx hy, if_neg (hne _ (Number.toUint32_lt x))]

/-- A primitive value has a number or none, and no code is run to find out. -/
theorem Value.toNumber_cases (H : HostTypes) (hv : v.isObject = false) :
    (∃ x, ∀ (s : Surroundings H) (realm : Realm H), v.toNumber.act s realm = .ok x realm)
      ∨ ∃ f, ∀ (s : Surroundings H) (realm : Realm H),
        v.toNumber.act s realm = .error (.failure f) realm := by
  cases v with
  | symbol symbol => exact .inr ⟨_, fun _ _ => rfl⟩
  | object o => cases hv
  | undefined => exact .inl ⟨_, fun _ _ => rfl⟩
  | null => exact .inl ⟨_, fun _ _ => rfl⟩
  | bool b => exact .inl ⟨_, fun _ _ => rfl⟩
  | number x => exact .inl ⟨_, fun _ _ => rfl⟩
  | string text => exact .inl ⟨_, fun _ _ => rfl⟩

/-- A primitive value denotes a length or none, and no code is run to find out. -/
theorem ArrayObject.requestedLength_cases (H : HostTypes) (hv : v.isObject = false) :
    (∃ n x, n < Number.twoPow 32 ∧ Float.ofNat n == x
      ∧ ∀ (s : Surroundings H) (realm : Realm H), v.toNumber.act s realm = .ok x realm
        ∧ (ArrayObject.requestedLength v).act s realm = .ok n realm)
      ∨ ∃ f, ∀ (s : Surroundings H) (realm : Realm H),
        (ArrayObject.requestedLength v).act s realm = .error (.failure f) realm := by
  rcases Value.toNumber_cases H hv with ⟨x, hx⟩ | ⟨f, hf⟩
  · by_cases heq : Float.ofNat (Number.toUint32 x) == x
    · refine .inl ⟨Number.toUint32 x, x, Number.toUint32_lt x, heq, fun s realm => ⟨hx s realm, ?_⟩⟩
      rw [ArrayObject.requestedLength_eq (hx s realm) (hx s realm), if_pos heq]
    · refine .inr ⟨.rangeError "Invalid array length", fun s realm => ?_⟩
      rw [ArrayObject.requestedLength_eq (hx s realm) (hx s realm), if_neg heq]
  · exact .inr ⟨f, fun s realm => Engine.bind_of_error (Engine.bind_of_error (hf s realm))⟩

end RequestedLength

/-! ### Arrays of a realm -/

namespace Realm

variable {realm after : Realm H}

/-- Every array is in order. -/
def InOrder (realm : Realm H) : Prop :=
  ∀ o object, realm.object? o = some object → object.InOrder

theorem Step.inOrder (hs : realm.Step after) (hz : realm.config.maxCallDepth = 0)
    (h : realm.InOrder) : after.InOrder := by
  cases hs with
  | beside hb =>
    intro o object ho
    rw [object?, hb.heap] at ho
    exact h o object ho
  | allocate object _ ho => exact forall_push h ho
  | update o ho _ hi => exact forall_putObject h (hi hz (h o _ ho))
  | inherit o prototype ho =>
    have hobject := h o _ ho
    exact forall_putObject h fun harray => hobject harray
  | dispose _ hh =>
    intro o object ho
    simp [object?, hh] at ho

theorem Steps.reachable (hs : realm.Steps after) (h : realm.Reachable) : after.Reachable := by
  induction hs with
  | refl => exact h
  | tail _ last ih => exact ih.step last

/-- Where the depth of calls is not limited, every array that can be reached is in order. -/
theorem Reachable.inOrder (h : realm.Reachable) (hz : realm.config.maxCallDepth = 0) :
    realm.InOrder := by
  induction h with
  | empty hh =>
    intro o object ho
    simp [object?, hh] at ho
  | step _ hs ih =>
    rw [hs.config] at hz
    exact hs.inOrder hz (ih hz)

end Realm

/-- Every request keeps all arrays in order, whatever code of the program it runs. -/
theorem answer_inOrder {host : Host H} {bound : Nat} {r : Request H} {realm after : Realm H}
    (hr : realm.Reachable) (hz : realm.config.maxCallDepth = 0)
    (he : EndsIn (answer host bound r realm) after) : after.InOrder := by
  have hl := (Surroundings.bounded_lawful host bound r realm hr.sound).leads he
  refine (hl.steps.reachable hr).inOrder ?_
  rw [hl.steps.config, hz]

/-! ### Lowering the length -/

namespace Object

variable {object : Object H} {d : Descriptor} {length n : Nat} {i : ArrayIndex}

/-- The object has an element under the index that is not configurable. -/
def HasFixed (object : Object H) (i : ArrayIndex) : Prop :=
  ∃ e, object.properties.get? (.index i) = some e ∧ e.isConfigurable = false

theorem not_hasFixed_iff (harray : object.kind.isArray) :
    ¬object.HasFixed i ↔ object.deletes (.index i) := by
  rw [deletes_iff (unitless_of_isArray harray), HasFixed]
  constructor
  · intro h e he
    cases hc : e.isConfigurable with
    | false => exact absurd ⟨e, he, hc⟩ h
    | true => rfl
  · rintro h ⟨e, he, hc⟩
    rw [h e he] at hc
    cases hc

/-- What becomes of an array when its length is lowered to `n`. All elements from `n` on go, or, if
one of them is not configurable, those above the last such one. -/
structure Truncation (object : Object H) (n : Nat) (writable : Bool) (after : Object H)
    (done : Bool) : Prop where
  done_iff : done = true ↔ ∀ i : ArrayIndex, n ≤ i.val → ¬object.HasFixed i
  whole : done = true → after.properties.HasLength n writable
    ∧ object.properties.CutAt after.properties n
  part : done = false → ∃ m : ArrayIndex, n ≤ m.val ∧ object.HasFixed m
    ∧ (∀ i, m < i → ¬object.HasFixed i) ∧ after.properties.HasLength (m.val + 1) writable
    ∧ object.properties.CutAt after.properties (m.val + 1)

theorem lowerLength_truncation (harray : object.kind.isArray)
    (hlength : object.properties.HasLength length true) (hd : d.isValid)
    (hv : d.value = some (.nat n)) (ha : object.accepts lengthKey d) (hn : n < length) :
    object.Truncation n (d.writable.getD true) (object.lowerLength d n).1
      (object.lowerLength d n).2 := by
  rcases forall_deletes_or_exists_not object n with hall | ⟨m, hm, hstays, habove⟩
  · obtain ⟨hdone, hcut⟩ := lowerLength_of_forall_deletes hlength hd hv ha harray hn hall
    rw [hdone]
    refine ⟨iff_of_true rfl fun i hi => ?_, fun _ => hcut, (fun h => by cases h)⟩
    exact (not_hasFixed_iff harray).mpr (hall i hi)
  · obtain ⟨hdone, hcut⟩ := lowerLength_of_not_deletes hlength hd hv ha harray hm hstays habove
    have hfixed : object.HasFixed m := by
      rwa [← not_hasFixed_iff harray, Classical.not_not] at hstays
    rw [hdone]
    refine ⟨iff_of_false Bool.false_ne_true fun h => h m hm hfixed, (fun h => by cases h), ?_⟩
    exact fun _ => ⟨m, hm, hfixed, fun i hi => (not_hasFixed_iff harray).mpr (habove i hi), hcut⟩

end Object

section SetLength

variable {host : Host H} {bound : Nat} {s : Surroundings H} {realm after : Realm H} {o : ObjectId}
  {object : Object H} {d : Descriptor} {v : Value} {length n : Nat}

theorem ArrayObject.setLength_of_none (hv : d.value = none) :
    (ArrayObject.setLength o d : Action H Bool) = Ordinary.defineOwnProperty o lengthKey d := by
  unfold ArrayObject.setLength
  rw [hv]

theorem ArrayObject.setLength_of_ok (hv : d.value = some v)
    (h : (ArrayObject.requestedLength v).act s realm = .ok n after) :
    ArrayObject.setLength o d s realm = ArrayObject.setLengthTo o d n s after := by
  unfold ArrayObject.setLength
  rw [hv]
  exact Action.bind_of_ok h

theorem ArrayObject.setLength_of_error {stop : Stop} (hv : d.value = some v)
    (h : (ArrayObject.requestedLength v).act s realm = .error stop after) :
    ArrayObject.setLength o d s realm = .error stop after := by
  unfold ArrayObject.setLength
  rw [hv]
  exact Action.bind_of_error h

/-- Converting a value to a number twice in a row, which may run code of the program, gives numbers
of some kind and leads to a realm. -/
def Value.Converts (v : Value) (s : Surroundings H) (realm after : Realm H) (P : Float → Prop) :
    Prop :=
  ∃ x y middle, v.toNumber.act s realm = .ok x middle ∧ v.toNumber.act s middle = .ok y after
    ∧ P x ∧ P y

theorem Value.Converts.eq_of_primitive {P : Float → Prop} (h : v.Converts s realm after P)
    (hv : v.isObject = false) : after = realm := by
  obtain ⟨x, y, middle, hx, hy, -⟩ := h
  rcases Value.toNumber_cases H hv with ⟨z, hz⟩ | ⟨f, hf⟩
  · rw [hz] at hx hy
    cases hx
    cases hy
    rfl
  · rw [hf] at hx
    cases hx

theorem Realm.not_atLimit (hz : realm.config.maxCallDepth = 0) : ¬realm.AtLimit :=
  fun h => h.1 hz

/-- A request for a smaller length truncates an array in order. -/
theorem ArrayObject.setLength_truncation (hb : 2 ≤ bound) (hz : after.config.maxCallDepth = 0)
    (hv : d.value = some v)
    (hn : v.Converts (.bounded host bound) realm after fun x => Float.ofNat n == x)
    (ho : after.object? o = some object) (harray : object.kind.isArray)
    (hlength : object.properties.HasLength length true) (hlt : n < length)
    (ha : object.accepts lengthKey { d with value := some (.nat n) }) :
    ∃ done object', ArrayObject.setLength o d (.bounded host bound) realm
        = .ok done (after.putObject o object')
      ∧ object.Truncation n (d.writable.getD true) object' done := by
  obtain ⟨x, y, middle, hx, hy, hnx, hny⟩ := hn
  have hsmall : n < Number.twoPow 32 := Nat.lt_trans hlt hlength.small
  have hd : ({ d with value := some (.nat n) } : Descriptor).isValid := by
    rw [Object.accepts_lengthKey_eq hlength.stored] at ha
    exact Descriptor.isValid_of_accepts_data ha
  have hset : ArrayObject.setLengthTo o d n (.bounded host bound) after = _ :=
    (ArrayObject.setLengthTo_gives ho (ObjectKind.isPlain_of_isArray harray) hlength.stored
      (Realm.not_atLimit hz) fun h => absurd h (Realm.not_atLimit hz)).eq_of_le hb
  have hrequested := ArrayObject.requestedLength_of_beq hx hy hsmall hnx hny
  rw [ArrayObject.setLength_of_ok hv hrequested, hset]
  refine ⟨_, _, rfl, ?_⟩
  rw [Object.setLength, ArrayObject.lengthOf_eq hlength.small rfl, if_neg (Nat.not_le.mpr hlt)]
  exact Object.lowerLength_truncation harray hlength hd rfl ha hlt

end SetLength

/-- A new array is in order and has the length that was asked for. -/
theorem arrayCreate_hasLength (s : Surroundings H) (realm : Realm H) {length : Nat}
    (prototype : Option ObjectId) (h : length < Number.twoPow 32) :
    ∃ o after object, (arrayCreate length prototype).act s realm = .ok o after
      ∧ after.object? o = some object ∧ object.kind.isArray
      ∧ object.properties.HasLength length true := by
  unfold arrayCreate
  rw [dif_pos h]
  cases prototype with
  | some p =>
    exact ⟨_, _, _, rfl, Array.getElem?_push_size, rfl, Object.hasLength_emptyArray p h⟩
  | none => exact ⟨_, _, _, rfl, Array.getElem?_push_size, rfl, Object.hasLength_emptyArray _ h⟩

/-- Where the depth of calls is not limited, arrays are made in order and every request keeps them
so. A request for a smaller length truncates an array as far as its elements allow; one for
something that is no length fails and changes nothing, apart from what the conversion of its value
did. -/
theorem arrays_inOrder (host : Host H) :
    (∀ (s : Surroundings H) (realm : Realm H) (length : Nat) (prototype : Option ObjectId),
      length < Number.twoPow 32 →
      ∃ o after object, (arrayCreate length prototype).act s realm = .ok o after
        ∧ after.object? o = some object ∧ object.kind.isArray
        ∧ object.properties.HasLength length true)
    ∧ (∀ (bound : Nat) (r : Request H) (realm after : Realm H), realm.Reachable →
      realm.config.maxCallDepth = 0 → EndsIn (answer host bound r realm) after → after.InOrder)
    ∧ (∀ (bound : Nat) (realm after : Realm H) (o : ObjectId) (object : Object H) (d : Descriptor)
      (v : Value) (length n : Nat), 2 ≤ bound → after.config.maxCallDepth = 0 →
      d.value = some v →
      v.Converts (.bounded host bound) realm after (fun x => Float.ofNat n == x) →
      after.object? o = some object → object.kind.isArray →
      object.properties.HasLength length true → n < length →
      object.accepts lengthKey { d with value := some (.nat n) } →
      ∃ done object', ArrayObject.setLength o d (.bounded host bound) realm
          = .ok done (after.putObject o object')
        ∧ object.Truncation n (d.writable.getD true) object' done)
    ∧ (∀ (bound : Nat) (realm after : Realm H) (o : ObjectId) (d : Descriptor) (v : Value),
      d.value = some v →
      v.Converts (.bounded host bound) realm after
        (fun x => ∀ n < Number.twoPow 32, ¬(Float.ofNat n == x)) →
      ArrayObject.setLength o d (.bounded host bound) realm
          = .error (.failure (.rangeError "Invalid array length")) after
        ∧ (v.isObject = false → after = realm)) := by
  refine ⟨?made, ?kept, ?truncated, ?refused⟩
  case made => exact fun s realm length prototype => arrayCreate_hasLength s realm prototype
  case kept => exact fun bound r realm after => answer_inOrder
  case truncated =>
    intro bound realm after o object d v length n hb hz hv hn ho harray hlength hlt ha
    exact ArrayObject.setLength_truncation hb hz hv hn ho harray hlength hlt ha
  case refused =>
    intro bound realm after o d v hv hn
    refine ⟨?_, hn.eq_of_primitive⟩
    obtain ⟨x, y, middle, hx, hy, -, hny⟩ := hn
    exact ArrayObject.setLength_of_error hv
      (ArrayObject.requestedLength_of_forall_ne hx hy hny)

/-- An array of length three with one element. -/
def shortArray (d : Descriptor) : Object HostTypes.bare :=
  (Object.emptyArray ⟨0⟩ 3).define (.ofNat 1) d

theorem shortArray_hasLength (d : Descriptor) : (shortArray d).properties.HasLength 3 true := by
  have hempty : (Object.emptyArray ⟨0⟩ 3 : Object HostTypes.bare).properties.HasLength 3 true :=
    Object.hasLength_emptyArray ⟨0⟩ (by decide)
  refine ⟨rfl, by decide, fun i hi => ?_⟩
  simp only [shortArray, Object.define, PropertyMap.define, PropertyMap.get?_insert] at hi
  split at hi
  · next heq =>
    cases heq
    decide
  · exact hempty.below i hi

/-- A realm with such an array alone and a limit on the depth of calls. -/
def shortRealm (d : Descriptor) (limit : Nat) : Realm HostTypes.bare :=
  { heap := #[shortArray d], config := { maxCallDepth := limit }, store := () }

theorem shortRealm_reachable {d : Descriptor} (hd : d.isValid) (limit : Nat) :
    (shortRealm d limit).Reachable := by
  have empty : Realm.Reachable ({ shortRealm d limit with heap := #[] } : Realm HostTypes.bare) :=
    .empty rfl
  have sound : (Object.emptyArray ⟨0⟩ 3 : Object HostTypes.bare).Sound :=
    .ofKindWith _ _ rfl rfl (.inl rfl)
  exact empty.step (.allocate _ (shortArray d) (sound.define rfl rfl hd)
    fun _ => ⟨3, true, shortArray_hasLength d⟩)

/-- An array with a fixed element keeps its length when the element is asked to go, is truncated
down to the element, and has no undefined length. -/
theorem arrays_inOrder_shortRealm :
    (shortRealm (.frozen .null) 0).InOrder
      ∧ (∃ done object', ArrayObject.setLength ⟨0⟩ (.ofValue (.nat 0)) (.bounded Host.bare 2)
          (shortRealm (.frozen .null) 0)
          = .ok done ((shortRealm (.frozen .null) 0).putObject ⟨0⟩ object')
        ∧ (shortArray (.frozen .null)).Truncation 0 true object' done)
      ∧ ArrayObject.setLength ⟨0⟩ (.ofValue .undefined) (.bounded Host.bare 2)
          (shortRealm (.frozen .null) 0)
        = .error (.failure (.rangeError "Invalid array length"))
          (shortRealm (.frozen .null) 0) := by
  have hne : ∀ n < Number.twoPow 32, ¬(Float.ofNat n == Number.nan) := by
    intro n hn heq
    obtain rfl : n = 0 := (Number.toUint32_of_beq hn heq).symm.trans (by decide +kernel)
    exact absurd heq (by decide +kernel)
  obtain ⟨-, kept, truncated, refused⟩ := arrays_inOrder Host.bare
  refine ⟨?_, ?_, ?_⟩
  · exact kept 3 (.delete ⟨0⟩ (.ofNat 1)) (shortRealm (.frozen .null) 0) _
      (shortRealm_reachable rfl 0) rfl (.inl ⟨false, rfl⟩)
  · exact truncated 2 _ _ ⟨0⟩ (shortArray (.frozen .null)) (.ofValue (.nat 0)) (.nat 0) 3 0
      (by decide) rfl rfl ⟨_, _, _, rfl, rfl, by decide +kernel, by decide +kernel⟩ rfl rfl
      (shortArray_hasLength _) (by decide) rfl
  · exact (refused 2 _ _ ⟨0⟩ (.ofValue .undefined) .undefined rfl
      ⟨_, _, _, rfl, rfl, hne, hne⟩).1

/-! ### Requests for a length that fail -/

/-- The array when its length has been lowered and no element has been deleted yet. -/
def Object.lengthWritten (object : Object H) (d : Descriptor) (n : Nat) : Object H :=
  object.define lengthKey (ArrayObject.lowerRequest { d with value := some (.nat n) })

/-- A request for the length `n` of an array gets as far as deleting elements at a depth of calls
at which the length can still be written but no element can be deleted. -/
structure Realm.CutsShort (host : Host H) (bound : Nat) (realm : Realm H) (object : Object H)
    (d : Descriptor) (n : Nat) : Prop where
  limit : realm.config.maxCallDepth = realm.callDepth + 2
  valid : d.isValid
  requested : ∃ v, d.value = some v
    ∧ (ArrayObject.requestedLength v).run host bound realm = .ok n realm
  starts : ∃ current, object.properties.get? lengthKey = some current
    ∧ object.StartsDeleting current d n

section Failure

variable {host : Host H} {bound : Nat} {s : Surroundings H} {realm after : Realm H} {o : ObjectId}
  {object : Object H} {current d : Descriptor} {f : Failure} {length n : Nat} {writable : Bool}

/-- The limit is two levels away, or it stands in the way of everything or of nothing. -/
theorem Realm.limit_eq_iff : ¬realm.deeper.AtLimit ∧ realm.deeper.deeper.AtLimit
    ↔ realm.config.maxCallDepth = realm.callDepth + 2 := by
  simp only [Realm.AtLimit, Realm.deeper]
  omega

/-- With a primitive value or none, a request for a length that fails changes nothing, unless the
limit stands in the way of deleting elements. -/
theorem ArrayObject.setLength_failure (ho : realm.object? o = some object)
    (hp : object.kind.isPlain) (hc : object.properties.get? lengthKey = some current)
    (hv : ∀ v, d.value = some v → v.isObject = false)
    (h : ArrayObject.setLength o d (.bounded host bound) realm = .error (.failure f) after) :
    after = realm ∨ ¬realm.AtLimit ∧ realm.deeper.AtLimit ∧ ∃ n v, d.value = some v
      ∧ (∀ (s : Surroundings H) realm, (ArrayObject.requestedLength v).act s realm = .ok n realm)
      ∧ object.StartsDeleting current d n := by
  cases hd : d.value with
  | none =>
    rw [ArrayObject.setLength_of_none hd] at h
    by_cases hl : realm.AtLimit
    · have h' := (Ordinary.defineOwnProperty_gives_of_atLimit hl).eq_of_failure h
      exact .inl (EStateM.Result.error.inj h').2.symm
    · cases (Ordinary.define_length_gives ho hp hl).eq_of_failure h
  | some v =>
    rcases ArrayObject.requestedLength_cases H (hv v hd) with ⟨n, x, -, -, hn⟩ | ⟨f', hf⟩
    · rw [ArrayObject.setLength_of_ok hd (hn _ realm).2] at h
      by_cases hl : realm.AtLimit
      · have h' := (ArrayObject.setLengthTo_gives_of_atLimit ho hc hl).eq_of_failure h
        split at h'
        · cases h'
        · exact .inl (EStateM.Result.error.inj h').2.symm
      · by_cases hcut : realm.deeper.AtLimit ∧ object.StartsDeleting current d n
        · exact .inr ⟨hl, hcut.1, n, v, rfl, fun s realm => (hn s realm).2, hcut.2⟩
        · have hstarts : realm.deeper.AtLimit → ¬object.StartsDeleting current d n :=
            fun hl' hs => hcut ⟨hl', hs⟩
          cases (ArrayObject.setLengthTo_gives ho hp hc hl hstarts).eq_of_failure h
    · rw [ArrayObject.setLength_of_error hd (hf _ realm)] at h
      cases h
      exact .inl rfl

theorem Dispatch.defineLength_eq (ho : realm.object? o = some object)
    (harray : object.kind.isArray) :
    Dispatch.defineOwnProperty o lengthKey d s realm = ArrayObject.setLength o d s realm := by
  rw [Dispatch.defineOwnProperty_of_isArray ho harray]
  have hk : lengthKey.isName "length" = true := rfl
  exact congrFun (congrFun (if_pos hk) s) realm

/-- Where the limit stands in the way of deleting elements, the length is written, the elements
stay, and some of them are no longer below the length. -/
theorem answer_defineLength_cutsShort (ho : realm.object? o = some object)
    (harray : object.kind.isArray) (hlength : object.properties.HasLength length writable)
    (hv : ∀ v, d.value = some v → v.isObject = false)
    (h : realm.CutsShort host bound object d n) (hb : 3 ≤ bound) :
    answer host bound (.defineOwnProperty o lengthKey d) realm
        = .error .overflow (realm.putObject o (object.lengthWritten d n))
      ∧ (object.lengthWritten d n).properties.get? lengthKey
        = some (.data (.nat n) true false false)
      ∧ ∃ i : ArrayIndex, n ≤ i.val
        ∧ ((object.lengthWritten d n).properties.get? (.index i)).isSome := by
  obtain ⟨hlimit, hd, ⟨v, hdv, hn⟩, current, hc, hstarts⟩ := h
  obtain ⟨hl, hl'⟩ := Realm.limit_eq_iff.mpr hlimit
  obtain rfl : current = .data (.nat length) writable false false :=
    Option.some.inj (hc.symm.trans hlength.stored)
  obtain rfl : writable = true := hstarts.writable
  have hd' := Descriptor.isValid_with_value hd (by rw [hdv]; rfl) (.nat n)
  have haccepts := (Object.accepts_lowerRequest hlength.stored hd' rfl).mp hstarts.accepted
  have hget := Object.get?_define_lowerRequest hlength hd' rfl haccepts
  refine ⟨?_, ?_, ?_⟩
  · -- the value is primitive, so what it denotes does not depend on the realm
    have hn' : ∀ s : Surroundings H,
        (ArrayObject.requestedLength v).act s realm.deeper = .ok n realm.deeper := by
      rcases ArrayObject.requestedLength_cases H (hv v hdv) with ⟨n', x, -, -, hall⟩ | ⟨f, hall⟩
      · rw [Routine.run, (hall _ _).2] at hn
        cases hn
        exact fun s => (hall s realm.deeper).2
      · rw [Routine.run, hall] at hn
        cases hn
    have ho' : realm.deeper.object? o = some object := ho
    refine (gives_answer_define_error hd (fun h => hl (Realm.deeper_atLimit h))
      fun bound => ?_).eq_of_le hb
    rw [Dispatch.defineLength_eq ho' harray, ArrayObject.setLength_of_ok hdv (hn' _)]
    exact ArrayObject.setLengthTo_gives_of_deeper_atLimit ho'
      (ObjectKind.isPlain_of_isArray harray) hc hl hl' hstarts
  · exact (hget lengthKey).trans (if_pos rfl)
  · obtain ⟨i, hi⟩ := List.exists_mem_of_ne_nil _ hstarts.doomed
    obtain ⟨hni, hsome⟩ := PropertyMap.mem_descendingFrom.mp hi
    have hne : PropertyKey.index i ≠ lengthKey := by simp [lengthKey]
    exact ⟨i, hni, by rwa [Object.lengthWritten, hget, if_neg hne]⟩

/-- A request for the length of an array with a primitive value, or without one, that fails leaves
the realm as it was, except in one case: the elements to be deleted are one level of calls too deep
for the limit. The length is lowered then, and all elements stay. -/
theorem answer_defineLength_failure (host : Host H) (bound : Nat)
    (ho : realm.object? o = some object) (harray : object.kind.isArray)
    (hlength : object.properties.HasLength length writable)
    (hv : ∀ v, d.value = some v → v.isObject = false) :
    ((∀ n, ¬realm.CutsShort host bound object d n) → ∀ f after,
      answer host bound (.defineOwnProperty o lengthKey d) realm = .error (.failure f) after →
      after = realm)
    ∧ ∀ n, realm.CutsShort host bound object d n → 3 ≤ bound →
      answer host bound (.defineOwnProperty o lengthKey d) realm
          = .error .overflow (realm.putObject o (object.lengthWritten d n))
        ∧ (object.lengthWritten d n).properties.get? lengthKey
          = some (.data (.nat n) true false false)
        ∧ ∃ i : ArrayIndex, n ≤ i.val
          ∧ ((object.lengthWritten d n).properties.get? (.index i)).isSome := by
  refine ⟨fun hnot f after h => ?_, fun n h hb =>
    answer_defineLength_cutsShort ho harray hlength hv h hb⟩
  rcases failure_of_answer_define h with heq | ⟨hd, hl, bound', inner, hinner, rfl⟩
  · exact heq
  · have ho' : realm.deeper.object? o = some object := ho
    rw [Dispatch.defineLength_eq ho' harray] at hinner
    rcases ArrayObject.setLength_failure ho' (ObjectKind.isPlain_of_isArray harray)
      hlength.stored hv hinner with rfl | ⟨hl, hl', n, v, hdv, hn, hstarts⟩
    · rfl
    · exact absurd ⟨Realm.limit_eq_iff.mp ⟨hl, hl'⟩, hd, ⟨v, hdv, hn _ _⟩, _, hlength.stored,
        hstarts⟩ (hnot n)

end Failure

theorem shortRealm_cutsShort :
    (shortRealm (.plain .null) 2).CutsShort Host.bare 3 (shortArray (.plain .null))
      (.ofValue (.nat 1)) 1 where
  limit := rfl
  valid := rfl
  requested := ⟨.nat 1, rfl, by rfl⟩
  starts := ⟨.data (.nat 3) true false false, rfl, by decide +kernel, rfl, rfl, by decide⟩

/-- Where calls may be two deep, an undefined length is refused without a trace, and a length that
calls for an element to be deleted is refused with the length written and the element left. -/
theorem answer_defineLength_failure_shortRealm :
    (∃ f, answer Host.bare 3 (.defineOwnProperty ⟨0⟩ lengthKey (.ofValue .undefined))
          (shortRealm (.plain .null) 2)
        = .error (.failure f) (shortRealm (.plain .null) 2))
      ∧ (∀ f after, answer Host.bare 3 (.defineOwnProperty ⟨0⟩ lengthKey (.ofValue .undefined))
          (shortRealm (.plain .null) 2) = .error (.failure f) after →
        after = shortRealm (.plain .null) 2)
      ∧ answer Host.bare 3 (.defineOwnProperty ⟨0⟩ lengthKey (.ofValue (.nat 1)))
          (shortRealm (.plain .null) 2)
        = .error .overflow ((shortRealm (.plain .null) 2).putObject ⟨0⟩
          ((shortArray (.plain .null)).lengthWritten (.ofValue (.nat 1)) 1)) := by
  have hnot : ∀ n, ¬(shortRealm (.plain .null) 2).CutsShort Host.bare 3 (shortArray (.plain .null))
      (.ofValue .undefined) n := by
    rintro n ⟨-, -, ⟨v, hv, hn⟩, -⟩
    cases hv
    cases hn
  refine ⟨⟨.rangeError "Invalid array length", rfl⟩, ?_, ?_⟩
  · exact (answer_defineLength_failure Host.bare 3 (o := ⟨0⟩) rfl rfl (shortArray_hasLength _)
      fun v hv => by cases hv; rfl).1 hnot
  · exact ((answer_defineLength_failure Host.bare 3 (o := ⟨0⟩) rfl rfl (shortArray_hasLength _)
      fun v hv => by cases hv; rfl).2 1 shortRealm_cutsShort (by decide)).1

end ScriptEngine
