import ScriptEngine.Proofs.CanonicalKeys

/-!
# Storage stays canonical

The internal methods of all kinds of objects keep storage canonical when they are asked to store
under canonical keys, as far as the functions that they call do. So does all that starts from names
given as strings: what is done to the names of scopes, and what is done through references, with the
one exception of an assignment that stores a property under a key that is not canonical itself.

## Main definitions

* `Request.isMethod`: requests for internal methods.
* `CallsKeepKeys`: a host with which calls keep storage canonical.
* `Reference.stores`: assignments that store a property under the key of the reference.
* `Access`: what is done with properties and names.
* `Realm.Accessed`: the realms to which such accesses lead.

## Main results

* `keepsKeys_respond`: the answer to a request for an internal method.
* `CallsKeepKeys.bounded`: the answers to all requests.
* `Realm.Accessed.canonical`: storage stays canonical along every run of accesses.
-/

namespace ScriptEngine

open Engine

variable {H : HostTypes} {α : Type}

/-! ### Ordinary objects, arrays and strings -/

namespace Ordinary

variable (o : ObjectId) {k : PropertyKey}

theorem keepsKeys_setPrototypeOf (prototype : Option ObjectId) :
    (setPrototypeOf o prototype : Action H Bool).KeepsKeys := by
  refine .bind (keepsKeys_getObject o) fun object => .ite (.pure _) (.ite (.pure _) ?_)
  refine .bind KeepsKeys.getRealm fun realm => ?_
  split
  · exact KeepsKeys.fail _
  · exact .pure _
  · exact .bind (.modifyObject o fun _ h => h) fun _ => .pure _

theorem keepsKeys_preventExtensions : (preventExtensions o : Action H Bool).KeepsKeys :=
  .bind (.modifyObject o fun _ h => h) fun _ => .pure _

theorem keepsKeys_defineOwnProperty (hk : k.isCanonical) (d : Descriptor) :
    (defineOwnProperty o k d : Action H Bool).KeepsKeys := by
  refine .bind (KeepsKeys.ask (.getOwnProperty o k) rfl) fun current =>
    .bind (KeepsKeys.ask (.isExtensible o) rfl) fun extensible => .ite (.pure _) ?_
  split
  · exact .bind (.modifyObject o fun _ h => h.insert hk _) fun _ => .pure _
  · exact .ite (.bind (.modifyObject o fun _ h => h.modify k _) fun _ => .pure _) (.pure _)

/-- The value of a property is read by a call at most. -/
theorem keepsKeys_get (k : PropertyKey) (receiver : Value) :
    (get o k receiver : Engine H Value).KeepsKeys := by
  refine .bind (.ask _ rfl) fun found => ?_
  split
  · next d => exact .ite (.pure _) (.ite (.pure _) (d.getter.keepsKeys_call _ _))
  · refine .bind (.ask _ rfl) fun parent => ?_
    split
    · exact .ask _ rfl
    · exact .pure _

theorem keepsKeys_hasProperty (k : PropertyKey) : (hasProperty o k : Engine H Bool).KeepsKeys := by
  refine .bind (.ask _ rfl) fun _ => .ite (.pure _) (.bind (.ask _ rfl) fun parent => ?_)
  split
  · exact .ask _ rfl
  · exact .pure _

theorem keepsKeys_setFound (own : Descriptor) (hk : k.isCanonical) (v receiver : Value) :
    (setFound own k v receiver : Engine H Bool).KeepsKeys := by
  refine .ite (.ite ?_ (.pure _)) (.ite (.pure _) ?_)
  · unfold setOnReceiver
    split
    · refine .bind (.ask _ rfl) fun existing => ?_
      split
      · exact .ite (.pure _) (.ask _ hk)
      · exact .ask _ hk
    · exact .pure _
  · exact .bind (own.setter.keepsKeys_call _ _) fun _ => .pure _

theorem keepsKeys_set (hk : k.isCanonical) (v receiver : Value) :
    (set o k v receiver : Engine H Bool).KeepsKeys := by
  refine .bind (.ask _ rfl) fun found => ?_
  split
  · exact keepsKeys_setFound _ hk v receiver
  · refine .bind (.ask _ rfl) fun parent => ?_
    split
    · exact .ask _ hk
    · exact keepsKeys_setFound _ hk v receiver

theorem keepsKeys_delete (k : PropertyKey) : (delete o k : Action H Bool).KeepsKeys := by
  refine .bind (KeepsKeys.ask (.getOwnProperty o k) rfl) fun found => ?_
  split
  · exact .pure _
  · exact .ite (.bind (.modifyObject o fun _ h => h.erase k) fun _ => .pure _) (.pure _)

theorem keepsKeys_getOwnProperty (k : PropertyKey) :
    (getOwnProperty o k : Engine H (Option Descriptor)).KeepsKeys :=
  .bind (keepsKeys_getObject o) fun _ => .pure _

theorem keepsKeys_ownKeys : (ownKeys o : Engine H (List PropertyKey)).KeepsKeys :=
  .bind (keepsKeys_getObject o) fun _ => .pure _

end Ordinary

namespace ArrayObject

variable (o : ObjectId) (d : Descriptor)

theorem keepsKeys_lengthProperty : (lengthProperty o : Engine H Descriptor).KeepsKeys := by
  refine .bind (.bind (keepsKeys_getObject o) fun _ => .pure _) fun found => ?_
  split
  · exact .pure _
  · exact .fail _

theorem keepsKeys_deleteElements (is : List ArrayIndex) :
    (deleteElements o is : Engine H (Option ArrayIndex)).KeepsKeys := by
  induction is with
  | nil => exact .pure _
  | cons i is ih => exact .bind (.ask _ rfl) fun _ => .ite ih (.pure _)

/-- The length itself is stored under a canonical key, whatever it is. -/
theorem keepsKeys_defineLength :
    (Ordinary.defineOwnProperty o lengthKey d : Action H Bool).KeepsKeys :=
  Ordinary.keepsKeys_defineOwnProperty o PropertyKey.isCanonical_lengthKey d

theorem keepsKeys_lowerLength (length : Nat) :
    (lowerLength o d length : Action H Bool).KeepsKeys := by
  refine .bind (keepsKeys_defineLength o _) fun _ => .ite (.pure _) ?_
  refine .bind (keepsKeys_getObject o) fun array =>
    .bind (keepsKeys_deleteElements o _) fun remaining => ?_
  split
  · exact .bind (keepsKeys_defineLength o _) fun _ => .pure _
  · exact .ite (.bind (keepsKeys_defineLength o _) fun _ => .pure _) (.pure _)

theorem keepsKeys_setLength : (setLength o d : Action H Bool).KeepsKeys := by
  unfold setLength
  split
  · exact keepsKeys_defineLength o d
  · next v hv =>
    have requested : (requestedLength v : Engine H Nat).KeepsKeys :=
      .bind (.bind v.keepsKeys_toNumber fun _ => .pure _) fun _ =>
        .bind v.keepsKeys_toNumber fun _ => .orFail (.pure _)
    refine .bind requested fun length => .bind (keepsKeys_lengthProperty o) fun current => ?_
    exact .ite (keepsKeys_defineLength o _) (.ite (.pure _) (keepsKeys_lowerLength o _ _))

theorem keepsKeys_defineElement (i : ArrayIndex) :
    (defineElement o i d : Action H Bool).KeepsKeys := by
  have element : (Ordinary.defineOwnProperty o (.index i) d : Action H Bool).KeepsKeys :=
    Ordinary.keepsKeys_defineOwnProperty o rfl d
  refine .bind (keepsKeys_lengthProperty o) fun current => .ite (.pure _) ?_
  refine .bind element fun _ => .ite (.pure _) (.ite ?_ (.pure _))
  exact .bind (keepsKeys_defineLength o _) fun _ => .pure _

theorem keepsKeys_defineOwnProperty {k : PropertyKey} (hk : k.isCanonical) :
    (defineOwnProperty o k d : Action H Bool).KeepsKeys := by
  refine .ite (keepsKeys_setLength o d) ?_
  split
  · exact keepsKeys_defineElement o d _
  · exact Ordinary.keepsKeys_defineOwnProperty o hk d

end ArrayObject

theorem StringObject.keepsKeys_getUnitProperty (o : ObjectId) (k : PropertyKey) :
    (getUnitProperty o k : Engine H (Option Descriptor)).KeepsKeys :=
  .bind (keepsKeys_getKind o) fun _ => .pure _

theorem StringObject.keepsKeys_getOwnProperty (o : ObjectId) (k : PropertyKey) :
    (getOwnProperty o k : Engine H (Option Descriptor)).KeepsKeys := by
  refine .bind (Ordinary.keepsKeys_getOwnProperty o k) fun found => ?_
  split
  · exact .pure _
  · exact keepsKeys_getUnitProperty o k

theorem StringObject.keepsKeys_defineOwnProperty (o : ObjectId) {k : PropertyKey}
    (hk : k.isCanonical) (d : Descriptor) :
    (defineOwnProperty o k d : Action H Bool).KeepsKeys := by
  refine .bind (keepsKeys_getUnitProperty o k) fun unit => ?_
  split
  · exact .bind (keepsKeys_getObject o) fun _ => .pure _
  · exact Ordinary.keepsKeys_defineOwnProperty o hk d

/-! ### Namespaces and proxies -/

namespace NamespaceObject

variable (o : ObjectId) (k : PropertyKey)

theorem keepsKeys_getData : (getData o : Engine H NamespaceData).KeepsKeys := by
  refine .bind (keepsKeys_getKind o) fun kind => ?_
  split
  · exact .pure _
  · exact .fail _

theorem keepsKeys_exportValue (data : NamespaceData) (name : String) :
    (exportValue data name : Engine H Value).KeepsKeys := by
  refine .bind (keepsKeys_getModule _) fun record =>
    .bind (ResolvedExport.keepsKeys_follow _ _) fun followed => ?_
  split
  · next scope local_ => exact scope.keepsKeys_getBindingValue local_ true
  · exact .pure _

theorem keepsKeys_get (receiver : Value) : (get o k receiver : Engine H Value).KeepsKeys := by
  refine .ite (Ordinary.keepsKeys_get o k receiver) (.bind (keepsKeys_getData o) fun data => ?_)
  split
  · exact keepsKeys_exportValue data _
  · exact .pure _

theorem keepsKeys_getOwnProperty :
    (getOwnProperty o k : Engine H (Option Descriptor)).KeepsKeys := by
  refine .ite (Ordinary.keepsKeys_getOwnProperty o k) (.bind (keepsKeys_getData o) fun data => ?_)
  split
  · exact .bind (keepsKeys_exportValue data _) fun _ => .pure _
  · exact .pure _

theorem keepsKeys_hasProperty : (hasProperty o k : Engine H Bool).KeepsKeys :=
  .ite (Ordinary.keepsKeys_hasProperty o k) (.bind (keepsKeys_getData o) fun _ => .pure _)

theorem keepsKeys_ownKeys : (ownKeys o : Engine H (List PropertyKey)).KeepsKeys :=
  .bind (keepsKeys_getData o) fun _ => .bind (Ordinary.keepsKeys_ownKeys o) fun _ => .pure _

end NamespaceObject

namespace ProxyObject

variable (proxy : ObjectId) {k : PropertyKey}

/-- An operation of a proxy keeps storage canonical if what is done with its trap and the operation
on the target do. -/
theorem keepsKeys_dispatch (name : String) {forward : ObjectId → Engine H α}
    {trapped : Trapped → Engine H α} (hforward : ∀ target, (forward target).KeepsKeys)
    (htrapped : ∀ t, (trapped t).KeepsKeys) : (dispatch proxy name forward trapped).KeepsKeys := by
  refine .bind (keepsKeys_getKind proxy) fun kind => ?_
  split
  · refine .bind (Value.keepsKeys_getMethod? _ _) fun trap => ?_
    split
    · exact htrapped _
    · exact hforward _
  · exact .fail _
  · exact .fail _

theorem Trapped.keepsKeys_call (t : Trapped) (args : List Value) :
    (t.call args : Engine H Value).KeepsKeys :=
  t.trap.keepsKeys_call _ _

theorem keepsKeys_getPrototypeOf :
    (getPrototypeOf proxy : Engine H (Option ObjectId)).KeepsKeys := by
  refine keepsKeys_dispatch proxy _ (fun _ => .ask _ rfl) fun t =>
    .bind (t.keepsKeys_call _) fun answer => .bind ?_ fun _ => .bind (.ask _ rfl) fun _ => ?_
  · unfold prototypeOf
    split
    · exact .pure _
    · exact .pure _
    · exact .fail _
  · exact .ite (.pure _) (.bind (.ask _ rfl) fun _ => .orFail (.pure _))

theorem keepsKeys_setPrototypeOf (prototype : Option ObjectId) :
    (setPrototypeOf proxy prototype : Engine H Bool).KeepsKeys :=
  keepsKeys_dispatch proxy _ (fun _ => .ask _ rfl) fun t =>
    .bind (t.keepsKeys_call _) fun _ => .ite (.pure _) <| .bind (.ask _ rfl) fun _ =>
      .ite (.pure _) (.bind (.ask _ rfl) fun _ => .orFail (.pure _))

theorem keepsKeys_isExtensible : (isExtensible proxy : Engine H Bool).KeepsKeys :=
  keepsKeys_dispatch proxy _ (fun _ => .ask _ rfl) fun t =>
    .bind (t.keepsKeys_call _) fun _ => .bind (.ask _ rfl) fun _ => .orFail (.pure _)

theorem keepsKeys_preventExtensions : (preventExtensions proxy : Engine H Bool).KeepsKeys :=
  keepsKeys_dispatch proxy _ (fun _ => .ask _ rfl) fun t =>
    .bind (t.keepsKeys_call _) fun _ =>
      .ite (.bind (.ask _ rfl) fun _ => .orFail (.pure _)) (.pure _)

theorem keepsKeys_checkAbsent (target : ObjectId) (trap answer fixed : String) (k : PropertyKey)
    (current : Option Descriptor) :
    (checkAbsent target trap answer fixed k current : Engine H Unit).KeepsKeys := by
  cases current with
  | none => exact .pure _
  | some d => exact .orFail (.bind (.ask _ rfl) fun _ => .ite (.fail _) (.pure _))

theorem keepsKeys_checkReported (k : PropertyKey) (extensible : Bool) (reported : Descriptor)
    (current : Option Descriptor) :
    (checkReported k extensible reported current : Engine H Unit).KeepsKeys := by
  refine .orFail (.ite ?_ (.pure _))
  split
  · exact .fail _
  · exact .orFail (.ite (.fail _) (.pure _))

theorem keepsKeys_getOwnProperty (k : PropertyKey) :
    (getOwnProperty proxy k : Engine H (Option Descriptor)).KeepsKeys :=
  keepsKeys_dispatch proxy _ (fun _ => .ask _ rfl) fun t =>
    .bind (t.keepsKeys_call _) fun answer => .orFail <| .bind (.ask _ rfl) fun current =>
      .ite (.bind (keepsKeys_checkAbsent _ _ _ _ k current) fun _ => .pure _) <|
        .bind (.ask _ rfl) fun _ => .bind answer.keepsKeys_toDescriptor fun _ =>
          .bind (keepsKeys_checkReported k _ _ current) fun _ => .pure _

theorem keepsKeys_checkDefined (k : PropertyKey) (extensible : Bool) (d : Descriptor)
    (current : Option Descriptor) :
    (checkDefined k extensible d current : Engine H Unit).KeepsKeys := by
  cases current with
  | none => exact .orFail (.ite (.fail _) (.pure _))
  | some current => exact .orFail (.orFail (.ite (.fail _) (.pure _)))

theorem keepsKeys_defineOwnProperty (hk : k.isCanonical) (d : Descriptor) :
    (defineOwnProperty proxy k d : Engine H Bool).KeepsKeys :=
  keepsKeys_dispatch proxy _ (fun _ => .ask _ hk) fun t =>
    .bind d.keepsKeys_toObject fun _ => .bind (t.keepsKeys_call _) fun _ => .ite (.pure _) <|
      .bind (.ask _ rfl) fun _ => .bind (.ask _ rfl) fun _ =>
        .bind (keepsKeys_checkDefined k _ d _) fun _ => .pure _

theorem keepsKeys_hasProperty (k : PropertyKey) :
    (hasProperty proxy k : Engine H Bool).KeepsKeys :=
  keepsKeys_dispatch proxy _ (fun _ => .ask _ rfl) fun t =>
    .bind (t.keepsKeys_call _) fun _ => .ite (.pure _) <| .bind (.ask _ rfl) fun _ =>
      .bind (keepsKeys_checkAbsent _ _ _ _ k _) fun _ => .pure _

theorem keepsKeys_checkRead (k : PropertyKey) (d : Descriptor) (v : Value) :
    (checkRead k d v : Engine H Unit).KeepsKeys :=
  .ite (.orFail (.ite (.fail _) (.pure _))) (.pure _)

theorem keepsKeys_get (k : PropertyKey) (receiver : Value) :
    (get proxy k receiver : Engine H Value).KeepsKeys := by
  refine keepsKeys_dispatch proxy _ (fun _ => .ask _ rfl) fun t =>
    .bind (t.keepsKeys_call _) fun v => .bind (.ask _ rfl) fun current => ?_
  split
  · exact .bind (keepsKeys_checkRead k _ v) fun _ => .pure _
  · exact .pure _

theorem keepsKeys_checkWritten (k : PropertyKey) (d : Descriptor) (v : Value) :
    (checkWritten k d v : Engine H Unit).KeepsKeys :=
  .ite (.orFail (.ite (.fail _) (.pure _))) (.pure _)

theorem keepsKeys_set (hk : k.isCanonical) (v receiver : Value) :
    (set proxy k v receiver : Engine H Bool).KeepsKeys := by
  refine keepsKeys_dispatch proxy _ (fun _ => .ask _ hk) fun t =>
    .bind (t.keepsKeys_call _) fun _ => .ite (.pure _) (.bind (.ask _ rfl) fun current => ?_)
  split
  · exact .bind (keepsKeys_checkWritten k _ v) fun _ => .pure _
  · exact .pure _

theorem keepsKeys_delete (k : PropertyKey) : (delete proxy k : Engine H Bool).KeepsKeys :=
  keepsKeys_dispatch proxy _ (fun _ => .ask _ rfl) fun t =>
    .bind (t.keepsKeys_call _) fun _ => .ite (.pure _) <| .bind (.ask _ rfl) fun _ =>
      .bind (keepsKeys_checkAbsent _ _ _ _ k _) fun _ => .pure _

theorem keepsKeys_keysOfValues (seen : List PropertyKey) (vs : List Value) :
    (keysOfValues seen vs : Engine H (List PropertyKey)).KeepsKeys := by
  induction vs generalizing seen with
  | nil => exact .pure _
  | cons v vs ih =>
    unfold keysOfValues
    split
    · exact .bind (.pure _) fun _ => .orFail (ih _)
    · exact .bind (.pure _) fun _ => .orFail (ih _)
    · exact .bind (.fail _) fun _ => .orFail (ih _)

theorem keepsKeys_splitKeys (target : ObjectId) (keys : List PropertyKey) :
    (splitKeys target keys : Engine H (List PropertyKey × List PropertyKey)).KeepsKeys := by
  induction keys with
  | nil => exact .pure _
  | cons k ks ih =>
    exact .bind (.bind (.ask _ rfl) fun _ => .pure _) fun _ => .bind ih fun _ => .pure _

theorem keepsKeys_consume (complaint : PropertyKey → String) (taken rest : List PropertyKey) :
    (consume complaint taken rest : Engine H (List PropertyKey)).KeepsKeys := by
  induction taken generalizing rest with
  | nil => exact .pure _
  | cons k ks ih => exact .orFail (ih _)

theorem keepsKeys_checkKeys (keys fixed free : List PropertyKey) (extensible : Bool) :
    (checkKeys keys fixed free extensible : Engine H Unit).KeepsKeys :=
  .ite (.pure _) <| .bind (keepsKeys_consume _ _ _) fun _ => .ite (.pure _) <|
    .bind (keepsKeys_consume _ _ _) fun _ => .ite (.fail _) (.pure _)

theorem keepsKeys_ownKeys : (ownKeys proxy : Engine H (List PropertyKey)).KeepsKeys :=
  keepsKeys_dispatch proxy _ (fun _ => .ask _ rfl) fun t =>
    .bind (t.keepsKeys_call _) fun answer => .bind answer.keepsKeys_namesFromArrayLike fun _ =>
      .bind (keepsKeys_keysOfValues _ _) fun _ => .bind (.ask _ rfl) fun _ =>
        .bind (.ask _ rfl) fun _ => .bind (keepsKeys_splitKeys _ _) fun _ =>
          .bind (keepsKeys_checkKeys _ _ _ _) fun _ => .pure _

end ProxyObject

/-! ### Internal methods by kind -/

namespace Dispatch

variable (o : ObjectId) {k : PropertyKey}

theorem keepsKeys_getPrototypeOf : (getPrototypeOf o : Engine H (Option ObjectId)).KeepsKeys := by
  refine .bind (keepsKeys_getKind o) fun kind => ?_
  split
  · exact ProxyObject.keepsKeys_getPrototypeOf o
  · exact .pure _
  · exact .bind (keepsKeys_getObject o) fun _ => .pure _

theorem keepsKeys_setPrototypeOf (prototype : Option ObjectId) :
    (setPrototypeOf o prototype : Action H Bool).KeepsKeys := by
  refine .bind (keepsKeys_getKind o) fun kind => ?_
  split
  · exact ProxyObject.keepsKeys_setPrototypeOf o prototype
  · exact .pure _
  · exact Ordinary.keepsKeys_setPrototypeOf o prototype

theorem keepsKeys_isExtensible : (isExtensible o : Engine H Bool).KeepsKeys := by
  refine .bind (keepsKeys_getKind o) fun kind => ?_
  split
  · exact ProxyObject.keepsKeys_isExtensible o
  · exact .pure _
  · exact .bind (keepsKeys_getObject o) fun _ => .pure _

theorem keepsKeys_preventExtensions : (preventExtensions o : Action H Bool).KeepsKeys := by
  refine .bind (keepsKeys_getKind o) fun kind => ?_
  split
  · exact ProxyObject.keepsKeys_preventExtensions o
  · exact .pure _
  · exact Ordinary.keepsKeys_preventExtensions o

theorem keepsKeys_getOwnProperty (k : PropertyKey) :
    (getOwnProperty o k : Engine H (Option Descriptor)).KeepsKeys := by
  refine .bind (keepsKeys_getKind o) fun kind => ?_
  split
  · exact ProxyObject.keepsKeys_getOwnProperty o k
  · exact NamespaceObject.keepsKeys_getOwnProperty o k
  · exact StringObject.keepsKeys_getOwnProperty o k
  · exact Ordinary.keepsKeys_getOwnProperty o k

theorem keepsKeys_defineOwnProperty (hk : k.isCanonical) (d : Descriptor) :
    (defineOwnProperty o k d : Action H Bool).KeepsKeys := by
  refine .bind (keepsKeys_getKind o) fun kind => ?_
  split
  · exact ProxyObject.keepsKeys_defineOwnProperty o hk d
  · exact .pure _
  · exact StringObject.keepsKeys_defineOwnProperty o hk d
  · exact ArrayObject.keepsKeys_defineOwnProperty o d hk
  · exact Ordinary.keepsKeys_defineOwnProperty o hk d

theorem keepsKeys_hasProperty (k : PropertyKey) : (hasProperty o k : Engine H Bool).KeepsKeys := by
  refine .bind (keepsKeys_getKind o) fun kind => ?_
  split
  · exact ProxyObject.keepsKeys_hasProperty o k
  · exact NamespaceObject.keepsKeys_hasProperty o k
  · exact Ordinary.keepsKeys_hasProperty o k

theorem keepsKeys_get (k : PropertyKey) (receiver : Value) :
    (get o k receiver : Engine H Value).KeepsKeys := by
  refine .bind (keepsKeys_getKind o) fun kind => ?_
  split
  · exact ProxyObject.keepsKeys_get o k receiver
  · exact NamespaceObject.keepsKeys_get o k receiver
  · exact Ordinary.keepsKeys_get o k receiver

theorem keepsKeys_set (hk : k.isCanonical) (v receiver : Value) :
    (set o k v receiver : Engine H Bool).KeepsKeys := by
  refine .bind (keepsKeys_getKind o) fun kind => ?_
  split
  · exact ProxyObject.keepsKeys_set o hk v receiver
  · exact .pure _
  · exact Ordinary.keepsKeys_set o hk v receiver

theorem keepsKeys_delete (k : PropertyKey) : (delete o k : Action H Bool).KeepsKeys := by
  refine .bind (keepsKeys_getKind o) fun kind => ?_
  split
  · exact ProxyObject.keepsKeys_delete o k
  · exact .pure _
  · exact Ordinary.keepsKeys_delete o k

theorem keepsKeys_ownKeys : (ownKeys o : Engine H (List PropertyKey)).KeepsKeys := by
  refine .bind (keepsKeys_getKind o) fun kind => ?_
  split
  · exact ProxyObject.keepsKeys_ownKeys o
  · exact NamespaceObject.keepsKeys_ownKeys o
  · exact .bind (keepsKeys_getKind o) fun _ =>
      .bind (Ordinary.keepsKeys_ownKeys o) fun _ => .pure _
  · exact Ordinary.keepsKeys_ownKeys o

end Dispatch

/-! ### References -/

namespace Reference

variable (r : Reference)

theorem keepsKeys_thisValue : (r.thisValue : Engine H Value).KeepsKeys := by
  unfold thisValue
  split
  · exact .pure _
  · exact .pure _
  · exact .fail _

theorem keepsKeys_getValue : (r.getValue : Engine H Value).KeepsKeys := by
  unfold getValue
  split
  · exact .fail _
  · next v _ =>
    exact .bind v.keepsKeys_toObject fun _ => .bind r.keepsKeys_thisValue fun _ => .ask _ rfl
  · next e _ => exact e.keepsKeys_getBindingValue _ _

/-- Whether an assignment stores a property under the key of the reference itself. -/
def stores : Bool :=
  match r.base with
  | .unresolvable => !r.strict
  | .value _ => true
  | .environment _ => false

/-- An assignment keeps storage canonical, unless it stores a property under a key that is not. -/
theorem keepsKeys_putValue (h : r.stores → r.name.isCanonical) (v : Value) :
    (r.putValue v : Engine H Unit).KeepsKeys := by
  obtain ⟨base, name, strict, this⟩ := r
  cases base with
  | unresolvable =>
    cases strict with
    | true => exact fun _ _ _ hc => hc
    | false => exact .bind .getRealm fun _ => .bind (.ask _ (h rfl)) fun _ => .pure _
  | value base =>
    exact .bind base.keepsKeys_toObject fun _ => .bind (keepsKeys_thisValue _) fun _ =>
      .bind (.ask _ (h rfl)) fun _ => .ite (.fail _) (.pure _)
  | environment e => exact e.keepsKeys_setMutableBinding _ v _

theorem keepsKeys_initializeBinding (v : Value) :
    (r.initializeBinding v : Engine H Unit).KeepsKeys := by
  unfold initializeBinding
  split
  · next e _ => exact e.keepsKeys_initializeBinding _ v
  · exact .fail _

theorem keepsKeys_delete : (r.delete : Engine H Bool).KeepsKeys := by
  unfold delete
  split
  · exact .pure _
  · next base _ =>
    exact .orFail <| .bind base.keepsKeys_toObject fun _ => .bind (.ask _ rfl) fun _ =>
      .orFail (.pure _)
  · next e _ => exact e.keepsKeys_deleteBinding _

end Reference

theorem keepsKeys_identifierReference (e : Option EnvironmentId) (name : String) (strict : Bool) :
    (identifierReference e name strict : Engine H Reference).KeepsKeys := by
  refine .loop (fun e => ?_) e
  split
  · exact .pure _
  · next e =>
    exact .bind (e.keepsKeys_hasBinding name) fun _ =>
      .ite (.pure _) (.bind (keepsKeys_getEnvironment e) fun _ => .pure _)

/-! ### Requests -/

/-- Whether a request is for an internal method of an object, and not for a call. -/
def Request.isMethod : Request H → Bool
  | call .. => false
  | construct .. => false
  | host _ => false
  | _ => true

/-- The answer to a request for an internal method keeps storage canonical if the answers to further
requests do. -/
theorem keepsKeys_respond (host : Host H) {r : Request H} (hm : r.isMethod) (hk : r.isCanonical) :
    (respond host r).KeepsKeys := by
  cases r with
  | getPrototypeOf o => exact .nested (Dispatch.keepsKeys_getPrototypeOf o)
  | setPrototypeOf o prototype => exact .nested (Dispatch.keepsKeys_setPrototypeOf o prototype)
  | isExtensible o => exact .nested (Dispatch.keepsKeys_isExtensible o)
  | preventExtensions o => exact .nested (Dispatch.keepsKeys_preventExtensions o)
  | getOwnProperty o k => exact .nested (Dispatch.keepsKeys_getOwnProperty o k)
  | defineOwnProperty o k d =>
    have hdefine : (Action.nested (Dispatch.defineOwnProperty o k d) : Action H Bool).KeepsKeys :=
      .nested (Dispatch.keepsKeys_defineOwnProperty o hk d)
    exact .ite (.bind (KeepsKeys.fail _) fun _ => hdefine) hdefine
  | hasProperty o k => exact .nested (Dispatch.keepsKeys_hasProperty o k)
  | get o k receiver => exact .nested (Dispatch.keepsKeys_get o k receiver)
  | set o k v receiver => exact .nested (Dispatch.keepsKeys_set o hk v receiver)
  | delete o k => exact .nested (Dispatch.keepsKeys_delete o k)
  | ownKeys o => exact .nested (Dispatch.keepsKeys_ownKeys o)
  | call => cases hm
  | construct => cases hm
  | host => cases hm

/-- Calls, constructions and what is asked of the host keep storage canonical. -/
def CallsKeepKeys (host : Host H) : Prop :=
  ∀ (bound : Nat) (r : Request H) (realm : Realm H), r.isMethod = false → realm.Canonical →
    (outcomeRealm (answer host bound r realm)).Canonical

/-- If calls keep storage canonical, so do the answers to all requests. -/
theorem CallsKeepKeys.bounded {host : Host H} (h : CallsKeepKeys host) (bound : Nat) :
    (Surroundings.bounded host bound).KeepsKeys := by
  -- the bound decreases at every level of nesting
  induction bound with
  | zero => exact fun _ _ _ hc => hc
  | succ bound ih =>
    intro r realm hk hc
    cases hm : r.isMethod with
    | false => exact h (bound + 1) r realm hm hc
    | true => exact keepsKeys_respond host hm hk _ ih realm hc

/-! ### Runs of accesses -/

/-- What is done with properties and names: a request for an internal method, an operation on a name
of a scope, looking up the reference for a name, and reading, assigning and deleting through a
reference. A key under which a property may be stored is canonical. -/
inductive Access : {α : Type} → Engine H α → Prop
  | method {r : Request H} (hm : r.isMethod) (hk : r.isCanonical) : Access (ask r)
  | hasBinding (e : EnvironmentId) (name : String) : Access (e.hasBinding name)
  | createMutableBinding (e : EnvironmentId) (name : String) (deletable : Bool) :
      Access (e.createMutableBinding name deletable)
  | createImmutableBinding (e : EnvironmentId) (name : String) (strict : Bool) :
      Access (e.createImmutableBinding name strict)
  | initializeBinding (e : EnvironmentId) (name : String) (v : Value) :
      Access (e.initializeBinding name v)
  | setMutableBinding (e : EnvironmentId) (name : String) (v : Value) (strict : Bool) :
      Access (e.setMutableBinding name v strict)
  | getBindingValue (e : EnvironmentId) (name : String) (strict : Bool) :
      Access (e.getBindingValue name strict)
  | deleteBinding (e : EnvironmentId) (name : String) : Access (e.deleteBinding name)
  | createGlobalVarBinding (e : EnvironmentId) (name : String) (deletable : Bool) :
      Access (e.createGlobalVarBinding name deletable)
  | createGlobalFunctionBinding (e : EnvironmentId) (name : String) (v : Value)
      (deletable : Bool) : Access (e.createGlobalFunctionBinding name v deletable)
  | createImportBinding (e : EnvironmentId) (name : String) (module : ModuleId)
      (exportName : String) : Access (e.createImportBinding name module exportName)
  | identifierReference (e : Option EnvironmentId) (name : String) (strict : Bool) :
      Access (identifierReference e name strict)
  | getValue (r : Reference) : Access r.getValue
  | putValue (r : Reference) (v : Value) (h : r.stores → r.name.isCanonical) :
      Access (r.putValue v)
  | initializeReference (r : Reference) (v : Value) : Access (r.initializeBinding v)
  | delete (r : Reference) : Access r.delete

/-- Every access keeps storage canonical. -/
theorem Access.keepsKeys {x : Engine H α} (h : Access x) : x.KeepsKeys := by
  cases h with
  | method _ hk => exact .ask _ hk
  | hasBinding e name => exact e.keepsKeys_hasBinding name
  | createMutableBinding e name deletable => exact e.keepsKeys_createMutableBinding name deletable
  | createImmutableBinding e name strict => exact e.keepsKeys_createImmutableBinding name strict
  | initializeBinding e name v => exact e.keepsKeys_initializeBinding name v
  | setMutableBinding e name v strict => exact e.keepsKeys_setMutableBinding name v strict
  | getBindingValue e name strict => exact e.keepsKeys_getBindingValue name strict
  | deleteBinding e name => exact e.keepsKeys_deleteBinding name
  | createGlobalVarBinding e name deletable =>
    exact e.keepsKeys_createGlobalVarBinding name deletable
  | createGlobalFunctionBinding e name v deletable =>
    exact e.keepsKeys_createGlobalFunctionBinding name v deletable
  | createImportBinding e name module exportName =>
    exact e.keepsKeys_createImportBinding name module exportName
  | identifierReference e name strict => exact keepsKeys_identifierReference e name strict
  | getValue r => exact r.keepsKeys_getValue
  | putValue r v h => exact r.keepsKeys_putValue h v
  | initializeReference r v => exact r.keepsKeys_initializeBinding v
  | delete r => exact r.keepsKeys_delete

/-- The realms to which accesses lead, one after the other, whatever their outcomes. -/
inductive Realm.Accessed (host : Host H) (start : Realm H) : Realm H → Prop
  | refl : Accessed host start start
  | access {middle : Realm H} {α : Type} {x : Engine H α} (first : Accessed host start middle)
      (hx : Access x) (bound : Nat) :
      Accessed host start (outcomeRealm (x.run host bound middle))

/-- Storage stays canonical along every run of accesses, if the functions that are called on the way
keep it so. -/
theorem Realm.Accessed.canonical {host : Host H} {start after : Realm H}
    (hcalls : CallsKeepKeys host) (h : start.Accessed host after) (hc : start.Canonical) :
    after.Canonical := by
  induction h with
  | refl => exact hc
  | access _ hx bound ih => exact hx.keepsKeys _ (hcalls.bounded bound) _ ih

end ScriptEngine
