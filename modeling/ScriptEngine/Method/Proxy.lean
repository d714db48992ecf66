import ScriptEngine.Operation.DescriptorObject
import ScriptEngine.Operation.Function

/-!
# Internal methods of proxies

A proxy hands every operation to a trap of its handler or, where there is none, to its target. What
a trap answers is checked against the target, so that it cannot contradict what is fixed there.

## Main definitions

* `ProxyObject.dispatch`: an operation goes to its trap or to the target.
* `ProxyObject.getPrototypeOf`, …, `ProxyObject.ownKeys`: the methods.
* `ProxyObject.call`, `ProxyObject.construct`: calls through a proxy.
* `proxyCreate`, `ObjectId.revokeProxy`: making and revoking.
-/

namespace ScriptEngine

open Engine

variable {H : HostTypes} {α : Type}

namespace ProxyObject

/-- The target of a proxy with the trap for an operation. -/
structure Trapped where
  target : ObjectId
  handler : ObjectId
  trap : Value

/-- Hands an operation to the trap of the given name, or to the target if there is no such trap. -/
def dispatch (proxy : ObjectId) (name : String) (forward : ObjectId → Engine H α)
    (trapped : Trapped → Engine H α) : Engine H α := do
  match ← getKind proxy with
  | .proxy { target := some target, handler := some handler, .. } =>
    match ← (Value.object handler).getMethod? (.ofString name) with
    | some trap => trapped { target, handler, trap }
    | none => forward target
  | .proxy _ =>
    typeError ("Cannot perform '" ++ name ++ "' on a proxy that has been revoked")
  | _ => internalError "proxy trap lookup on a non-proxy"

/-- Calls a trap with the target as first argument. -/
def Trapped.call (t : Trapped) (args : List Value) : Engine H Value :=
  t.trap.call (.object t.handler) (.object t.target :: args)

/-- Fails because a trap broke a rule. -/
def violation (trap detail : String) : Engine H α :=
  typeError ("'" ++ trap ++ "' on proxy: " ++ detail)

/-- The prototype that a trap answers. -/
def prototypeOf : Value → Engine H (Option ObjectId)
  | .object p => return some p
  | .null => return none
  | _ => violation "getPrototypeOf" "trap returned neither object nor null"

/-- Asks the trap for the prototype. -/
def getPrototypeOf (proxy : ObjectId) : Engine H (Option ObjectId) :=
  dispatch proxy "getPrototypeOf" ObjectId.getPrototypeOf fun t => do
    let prototype ← prototypeOf (← t.call [])
    if ← t.target.isExtensible then return prototype
    if prototype ≠ (← t.target.getPrototypeOf) then
      violation "getPrototypeOf"
        "proxy target is non-extensible but the trap did not return its actual prototype"
    return prototype

/-- Asks the trap to change the prototype. -/
def setPrototypeOf (proxy : ObjectId) (prototype : Option ObjectId) : Engine H Bool :=
  dispatch proxy "setPrototypeOf" (·.setPrototypeOf prototype) fun t => do
    if !(← t.call [.ofObject? prototype]).toBoolean then return false
    if ← t.target.isExtensible then return true
    if (← t.target.getPrototypeOf) ≠ prototype then
      violation "setPrototypeOf"
        "trap returned truish for setting a new prototype on a non-extensible target"
    return true

/-- Asks the trap whether properties may be added. -/
def isExtensible (proxy : ObjectId) : Engine H Bool :=
  dispatch proxy "isExtensible" ObjectId.isExtensible fun t => do
    let answer := (← t.call []).toBoolean
    if answer ≠ (← t.target.isExtensible) then
      violation "isExtensible" "trap result does not reflect extensibility of proxy target"
    return answer

/-- Asks the trap to forbid new properties. -/
def preventExtensions (proxy : ObjectId) : Engine H Bool :=
  dispatch proxy "preventExtensions" ObjectId.preventExtensions fun t => do
    let answer := (← t.call []).toBoolean
    if answer then
      if ← t.target.isExtensible then
        violation "preventExtensions" "trap returned truish but the proxy target is extensible"
    return answer

/-- Checks that a trap may report a property as absent; its name, its answer and the word for a
fixed property go into the complaint. -/
def checkAbsent (target : ObjectId) (trap answer fixed : String) (k : PropertyKey) :
    Option Descriptor → Engine H Unit
  | none => pure ()
  | some d => do
    if !d.isConfigurable then
      violation trap ("trap returned " ++ answer ++ " for " ++ fixed ++ " '" ++ k.text ++ "'")
    if !(← target.isExtensible) then
      violation trap
        ("trap returned " ++ answer ++ " for '" ++ k.text ++ "' of a non-extensible target")

/-- Checks that a property may be reported as it is. -/
def checkReported (k : PropertyKey) (extensible : Bool) (reported : Descriptor)
    (current : Option Descriptor) : Engine H Unit := do
  if !reported.isCompatible extensible current then
    violation "getOwnPropertyDescriptor"
      ("trap returned an incompatible descriptor for '" ++ k.text ++ "'")
  if reported.configurable = some false then
    match current with
    | none =>
      violation "getOwnPropertyDescriptor"
        ("trap reported non-configurability for '" ++ k.text ++ "'")
    | some d =>
      if d.isConfigurable then
        violation "getOwnPropertyDescriptor"
          ("trap reported non-configurability for '" ++ k.text ++ "'")
      if reported.writable = some false && d.isWritable then
        violation "getOwnPropertyDescriptor"
          ("trap reported non-writable for writable property '" ++ k.text ++ "'")

/-- Asks the trap for an own property. -/
def getOwnProperty (proxy : ObjectId) (k : PropertyKey) : Engine H (Option Descriptor) :=
  dispatch proxy "getOwnPropertyDescriptor" (·.getOwnProperty k) fun t => do
    let answer ← t.call [k.toValue]
    if !answer.isObject && !answer.isUndefined then
      violation "getOwnPropertyDescriptor" "trap returned neither object nor undefined"
    let current ← t.target.getOwnProperty k
    if answer.isUndefined then
      checkAbsent t.target "getOwnPropertyDescriptor" "undefined" "non-configurable property" k
        current
      return none
    let extensible ← t.target.isExtensible
    let reported := (← answer.toDescriptor).complete
    checkReported k extensible reported current
    return some reported

/-- Checks that a change of a property may be reported as done. -/
def checkDefined (k : PropertyKey) (extensible : Bool) (d : Descriptor)
    (current : Option Descriptor) : Engine H Unit := do
  let fixes := d.configurable == some false
  match current with
  | none =>
    if !extensible then
      violation "defineProperty"
        ("trap returned truish for adding '" ++ k.text ++ "' to a non-extensible target")
    if fixes then
      violation "defineProperty"
        ("trap returned truish for non-configurable '" ++ k.text ++ "' missing on target")
  | some current =>
    if !d.isCompatible extensible (some current) then
      violation "defineProperty"
        ("trap returned truish for an incompatible descriptor of '" ++ k.text ++ "'")
    if fixes && current.isConfigurable then
      violation "defineProperty"
        ("trap reported non-configurability for configurable '" ++ k.text ++ "'")
    if current.isData && !current.isConfigurable && current.isWritable
        && d.writable == some false then
      violation "defineProperty"
        ("trap made non-configurable writable '" ++ k.text ++ "' non-writable")

/-- Asks the trap to define a property. -/
def defineOwnProperty (proxy : ObjectId) (k : PropertyKey) (d : Descriptor) : Engine H Bool :=
  dispatch proxy "defineProperty" (·.defineOwnProperty k d) fun t => do
    let description ← d.toObject
    if !(← t.call [k.toValue, .object description]).toBoolean then return false
    let current ← t.target.getOwnProperty k
    let extensible ← t.target.isExtensible
    checkDefined k extensible d current
    return true

/-- Asks the trap whether a property exists. -/
def hasProperty (proxy : ObjectId) (k : PropertyKey) : Engine H Bool :=
  dispatch proxy "has" (·.hasProperty k) fun t => do
    if (← t.call [k.toValue]).toBoolean then return true
    checkAbsent t.target "has" "falsish" "non-configurable" k (← t.target.getOwnProperty k)
    return false

/-- Checks that a value may be reported for a property. -/
def checkRead (k : PropertyKey) (d : Descriptor) (v : Value) : Engine H Unit := do
  if !d.isConfigurable then
    if d.isData && !d.isWritable && !v.sameValue d.valueD then
      violation "get"
        ("trap result differs from non-writable, non-configurable '" ++ k.text ++ "'")
    if d.isAccessor && d.getter.isUndefined && !v.isUndefined then
      violation "get"
        ("'" ++ k.text ++ "' has no getter on the target but the trap returned a value")

/-- Asks the trap for the value of a property. -/
def get (proxy : ObjectId) (k : PropertyKey) (receiver : Value) : Engine H Value :=
  dispatch proxy "get" (·.getFor k receiver) fun t => do
    let v ← t.call [k.toValue, receiver]
    match ← t.target.getOwnProperty k with
    | some d => checkRead k d v
    | none => pure ()
    return v

/-- Checks that an assignment may be reported as done. -/
def checkWritten (k : PropertyKey) (d : Descriptor) (v : Value) : Engine H Unit := do
  if !d.isConfigurable then
    if d.isData && !d.isWritable && !v.sameValue d.valueD then
      violation "set" ("trap changed non-writable, non-configurable '" ++ k.text ++ "'")
    if d.isAccessor && d.setter.isUndefined then
      violation "set" ("trap returned truish for '" ++ k.text ++ "' which has no setter")

/-- Asks the trap to set a property. -/
def set (proxy : ObjectId) (k : PropertyKey) (v receiver : Value) : Engine H Bool :=
  dispatch proxy "set" (·.setFor k v receiver) fun t => do
    if !(← t.call [k.toValue, v, receiver]).toBoolean then return false
    match ← t.target.getOwnProperty k with
    | some d => checkWritten k d v
    | none => pure ()
    return true

/-- Asks the trap to remove a property. -/
def delete (proxy : ObjectId) (k : PropertyKey) : Engine H Bool :=
  dispatch proxy "deleteProperty" (·.delete k) fun t => do
    if !(← t.call [k.toValue]).toBoolean then return false
    checkAbsent t.target "deleteProperty" "truish" "non-configurable" k
      (← t.target.getOwnProperty k)
    return true

/-! ### Own keys -/

/-- The keys that a list of values names, each once; `seen` holds those before, the last first. -/
def keysOfValues : (seen : List PropertyKey) → List Value → Engine H (List PropertyKey)
  | seen, [] => return seen.reverse
  | seen, v :: vs => do
    let k ← match v with
      | .string s => pure (PropertyKey.ofString s)
      | .symbol s => pure (PropertyKey.symbol s)
      | _ => violation "ownKeys" "trap result contains a non-key"
    if seen.contains k then
      violation "ownKeys" ("trap returned duplicate entries ('" ++ k.text ++ "')")
    keysOfValues (k :: seen) vs

/-- Whether an own key of the target is fixed. -/
def isFixedKey (target : ObjectId) (k : PropertyKey) : Engine H Bool := do
  return (← target.getOwnProperty k).any fun d => !d.isConfigurable

/-- Splits the own keys of the target into the fixed ones and the others. -/
def splitKeys (target : ObjectId) :
    List PropertyKey → Engine H (List PropertyKey × List PropertyKey)
  | [] => return ([], [])
  | k :: ks => do
    let isFixed ← isFixedKey target k
    let (fixed, free) ← splitKeys target ks
    return if isFixed then (k :: fixed, free) else (fixed, k :: free)

/-- Takes keys out of a list, all of which have to be there; the rest. -/
def consume (complaint : PropertyKey → String) :
    List PropertyKey → List PropertyKey → Engine H (List PropertyKey)
  | [], rest => return rest
  | k :: ks, rest => do
    if !rest.contains k then violation "ownKeys" (complaint k)
    consume complaint ks (rest.erase k)

/-- Checks a list of keys against the fixed and the other keys of the target. -/
def checkKeys (keys fixed free : List PropertyKey) (extensible : Bool) : Engine H Unit := do
  if extensible && fixed.isEmpty then return
  let rest ← consume
    (fun k => "trap result did not include non-configurable '" ++ k.text ++ "'") fixed keys
  if extensible then return
  let rest ← consume
    (fun k => "trap result did not include '" ++ k.text ++ "' of a non-extensible target") free rest
  if !rest.isEmpty then
    violation "ownKeys" "trap returned extra keys but the proxy target is non-extensible"

/-- Asks the trap for the own keys. -/
def ownKeys (proxy : ObjectId) : Engine H (List PropertyKey) :=
  dispatch proxy "ownKeys" ObjectId.ownKeys fun t => do
    let keys ← keysOfValues [] (← (← t.call []).namesFromArrayLike)
    let extensible ← t.target.isExtensible
    let (fixed, free) ← splitKeys t.target (← t.target.ownKeys)
    checkKeys keys fixed free extensible
    return keys

/-! ### Calls -/

/-- Calls through a proxy. -/
def call (proxy : ObjectId) (this : Value) (args : List Value) : Engine H Value :=
  dispatch proxy "apply" (fun target => (Value.object target).call this args) fun t => do
    t.call [this, .object (← arrayOfList args)]

/-- Constructs through a proxy. -/
def construct (proxy : ObjectId) (args : List Value) (newTarget : ObjectId) : Engine H ObjectId :=
  dispatch proxy "construct" (·.construct args (some newTarget)) fun t => do
    match ← t.call [.object (← arrayOfList args), .object newTarget] with
    | .object o => return o
    | _ => violation "construct" "trap returned non-object"

end ProxyObject

/-! ### Making and revoking -/

/-- A new proxy. -/
def proxyCreate (target handler : Value) : Engine H ObjectId := do
  match target, handler with
  | .object t, .object h =>
    let callable ← isCallable target
    let isConstructor ← isConstructor target
    newObject none (.proxy { target := some t, handler := some h, callable, isConstructor })
  | _, _ => typeError "Cannot create proxy with a non-object as target or handler"

/-- Takes target and handler away from an object that is a proxy. -/
def ObjectId.revokeProxy (o : ObjectId) : Engine H Unit :=
  modifyKind o
    (fun
      | .proxy data => .proxy { data with target := none, handler := none }
      | kind => kind)
    fun kind => by
      cases kind with
      | proxy data => exact .inr ⟨.proxy data _, rfl, rfl⟩
      | _ => exact .inl rfl

/-- Whether an object is a revoked proxy. -/
def ObjectId.isRevokedProxy (o : ObjectId) : Engine H Bool := do
  match ← getKind o with
  | .proxy data => return data.handler.isNone
  | _ => return false

end ScriptEngine
