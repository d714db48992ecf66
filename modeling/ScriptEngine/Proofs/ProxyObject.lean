import ScriptEngine.Proofs.PlainObject

/-!
# Requests to a proxy

A proxy answers each internal method by the trap of its handler or, where there is none, by the same
method of its target, one level of calls deeper.

## Main definitions

* `Method`: an internal method with its arguments.
* `Method.of`: a method asked of an object.
* `Method.trap`, `Method.ofProxy`: the name of its trap, and the method of a proxy.
* `Realm.Forwards`: a proxy with its target and its handler.

## Main results

* `Method.run_of_not_isValid`, `Method.run_of_atLimit`: methods that fail at once.
* `Method.run_ofProxy`: a proxy is asked one level deeper.
* `ProxyObject.dispatch_of_none`, `ProxyObject.dispatch_of_some`: without and with a trap.
-/

namespace ScriptEngine

open Engine

variable {H : HostTypes} {α : Type}

/-! ### Internal methods -/

/-- An internal method with its arguments, by the type of its answer. -/
inductive Method : Type → Type
  | getPrototypeOf : Method (Option ObjectId)
  | setPrototypeOf (prototype : Option ObjectId) : Method Bool
  | isExtensible : Method Bool
  | preventExtensions : Method Bool
  | getOwnProperty (k : PropertyKey) : Method (Option Descriptor)
  | defineOwnProperty (k : PropertyKey) (d : Descriptor) : Method Bool
  | hasProperty (k : PropertyKey) : Method Bool
  | get (k : PropertyKey) (receiver : Value) : Method Value
  | set (k : PropertyKey) (v receiver : Value) : Method Bool
  | delete (k : PropertyKey) : Method Bool
  | ownKeys : Method (List PropertyKey)

namespace Method

/-- The method asked of an object. -/
def of : Method α → ObjectId → Engine H α
  | getPrototypeOf => ObjectId.getPrototypeOf
  | setPrototypeOf prototype => (·.setPrototypeOf prototype)
  | isExtensible => ObjectId.isExtensible
  | preventExtensions => ObjectId.preventExtensions
  | getOwnProperty k => (·.getOwnProperty k)
  | defineOwnProperty k d => (·.defineOwnProperty k d)
  | hasProperty k => (·.hasProperty k)
  | get k receiver => (·.getFor k receiver)
  | set k v receiver => (·.setFor k v receiver)
  | delete k => (·.delete k)
  | ownKeys => ObjectId.ownKeys

/-- The name of the trap for a method. -/
def trap : Method α → String
  | getPrototypeOf => "getPrototypeOf"
  | setPrototypeOf _ => "setPrototypeOf"
  | isExtensible => "isExtensible"
  | preventExtensions => "preventExtensions"
  | getOwnProperty _ => "getOwnPropertyDescriptor"
  | defineOwnProperty .. => "defineProperty"
  | hasProperty _ => "has"
  | get .. => "get"
  | set .. => "set"
  | delete _ => "deleteProperty"
  | ownKeys => "ownKeys"

/-- What a proxy does when it is asked for a method. -/
def ofProxy : Method α → ObjectId → Engine H α
  | getPrototypeOf => ProxyObject.getPrototypeOf
  | setPrototypeOf prototype => (ProxyObject.setPrototypeOf · prototype)
  | isExtensible => ProxyObject.isExtensible
  | preventExtensions => ProxyObject.preventExtensions
  | getOwnProperty k => (ProxyObject.getOwnProperty · k)
  | defineOwnProperty k d => (ProxyObject.defineOwnProperty · k d)
  | hasProperty k => (ProxyObject.hasProperty · k)
  | get k receiver => (ProxyObject.get · k receiver)
  | set k v receiver => (ProxyObject.set · k v receiver)
  | delete k => (ProxyObject.delete · k)
  | ownKeys => ProxyObject.ownKeys

/-- Whether the arguments of a method make sense: a descriptor is not both data and accessor. -/
def isValid : Method α → Bool
  | defineOwnProperty _ d => d.isValid
  | _ => true

/-- A proxy hands every method to the trap of that name, or else to its target. -/
theorem exists_ofProxy_eq (m : Method α) (p : ObjectId) :
    ∃ trapped, (m.ofProxy p : Engine H α) = ProxyObject.dispatch p m.trap m.of trapped := by
  cases m with
  | getPrototypeOf => exact ⟨_, ProxyObject.getPrototypeOf.eq_1 p⟩
  | setPrototypeOf prototype => exact ⟨_, ProxyObject.setPrototypeOf.eq_1 p prototype⟩
  | isExtensible => exact ⟨_, ProxyObject.isExtensible.eq_1 p⟩
  | preventExtensions => exact ⟨_, ProxyObject.preventExtensions.eq_1 p⟩
  | getOwnProperty k => exact ⟨_, ProxyObject.getOwnProperty.eq_1 p k⟩
  | defineOwnProperty k d => exact ⟨_, ProxyObject.defineOwnProperty.eq_1 p k d⟩
  | hasProperty k => exact ⟨_, ProxyObject.hasProperty.eq_1 p k⟩
  | get k receiver => exact ⟨_, ProxyObject.get.eq_1 p k receiver⟩
  | set k v receiver => exact ⟨_, ProxyObject.set.eq_1 p k v receiver⟩
  | delete k => exact ⟨_, ProxyObject.delete.eq_1 p k⟩
  | ownKeys => exact ⟨_, ProxyObject.ownKeys.eq_1 p⟩

section Run

variable {host : Host H} {bound : Nat} {realm : Realm H} {o : ObjectId}

theorem run_of_not_isValid {m : Method α} (hm : m.isValid = false) :
    (m.of o).run host (bound + 1) realm
      = .error (.failure (.internal "property descriptor mixes data and accessor fields"))
        realm := by
  cases m with
  | defineOwnProperty k d =>
    have hd : (!d.isValid) = true := by rw [show d.isValid = false from hm]; rfl
    change checkedDefine o k d (.bounded host bound) realm = _
    unfold checkedDefine
    rw [if_pos hd]
    rfl
  | _ => cases hm

theorem run_of_atLimit {m : Method α} (hm : m.isValid) (hl : realm.AtLimit) :
    (m.of o).run host (bound + 1) realm = .error .overflow realm := by
  cases m with
  | defineOwnProperty k d =>
    exact (checkedDefine_of_isValid hm _ _).trans (Action.nested_of_atLimit hl)
  | _ => exact Action.nested_of_atLimit hl

end Run

end Method

/-! ### Proxies -/

/-- An object is a proxy with the given target and handler. -/
def Realm.Forwards (realm : Realm H) (p target handler : ObjectId) : Prop :=
  ∃ object callable isConstructor, realm.object? p = some object
    ∧ object.kind = .proxy
      { target := some target, handler := some handler, callable, isConstructor }

section Proxy

variable {host : Host H} {bound : Nat} {s : Surroundings H} {realm middle : Realm H}
  {p target handler : ObjectId} {name : String} {forward : ObjectId → Engine H α}
  {trapped : ProxyObject.Trapped → Engine H α}

theorem Realm.Forwards.atDepth (h : realm.Forwards p target handler) (depth : Nat) :
    (realm.atDepth depth).Forwards p target handler :=
  h

theorem ProxyObject.dispatch_of_none (hp : realm.Forwards p target handler)
    (h : ((Value.object handler).getMethod? (.ofString name)).act s realm = .ok none middle) :
    (ProxyObject.dispatch p name forward trapped).act s realm = (forward target).act s middle := by
  obtain ⟨object, callable, isConstructor, ho, hk⟩ := hp
  unfold ProxyObject.dispatch
  rw [Engine.bind_of_ok (getKind_of_some ho), hk]
  simp only
  rw [Engine.bind_of_ok h]

theorem ProxyObject.dispatch_of_some {trap : Value} (hp : realm.Forwards p target handler)
    (h : ((Value.object handler).getMethod? (.ofString name)).act s realm
      = .ok (some trap) middle) :
    (ProxyObject.dispatch p name forward trapped).act s realm
      = (trapped { target, handler, trap }).act s middle := by
  obtain ⟨object, callable, isConstructor, ho, hk⟩ := hp
  unfold ProxyObject.dispatch
  rw [Engine.bind_of_ok (getKind_of_some ho), hk]
  simp only
  rw [Engine.bind_of_ok h]

/-- A proxy is asked one level deeper. -/
theorem Method.run_ofProxy (m : Method α) (hm : m.isValid) (hp : realm.Forwards p target handler)
    (hl : ¬realm.AtLimit) :
    (m.of p).run host (bound + 1) realm
      = outcomeShallower ((m.ofProxy p).act (.bounded host bound) realm.deeper) := by
  obtain ⟨object, callable, isConstructor, ho, hk⟩ := hp
  have ho' : realm.deeper.object? p = some object := ho
  have hkind := getKind_of_some (s := .bounded host bound) ho'
  rw [hk] at hkind
  cases m with
  | setPrototypeOf prototype =>
    exact (Action.nested_of_not_atLimit hl _ _).trans
      (congrArg outcomeShallower (Action.bind_of_ok hkind))
  | preventExtensions =>
    exact (Action.nested_of_not_atLimit hl _ _).trans
      (congrArg outcomeShallower (Action.bind_of_ok hkind))
  | delete k =>
    exact (Action.nested_of_not_atLimit hl _ _).trans
      (congrArg outcomeShallower (Action.bind_of_ok hkind))
  | defineOwnProperty k d =>
    exact (checkedDefine_of_isValid hm _ _).trans ((Action.nested_of_not_atLimit hl _ _).trans
      (congrArg outcomeShallower (Action.bind_of_ok hkind)))
  | _ =>
    exact (Action.nested_of_not_atLimit hl _ _).trans
      (congrArg outcomeShallower (Engine.bind_of_ok hkind))

end Proxy

end ScriptEngine
