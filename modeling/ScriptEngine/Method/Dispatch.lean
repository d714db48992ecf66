import ScriptEngine.Method.Array
import ScriptEngine.Method.Call
import ScriptEngine.Method.Namespace
import ScriptEngine.Method.String

/-!
# Internal methods by kind

Arrays, strings, proxies and namespaces have internal methods of their own; every other object is
ordinary.

## Main definitions

* `Dispatch.getPrototypeOf`, …, `Dispatch.ownKeys`: the eleven internal methods.
-/

namespace ScriptEngine.Dispatch

open Engine

variable {H : HostTypes}

/-- The prototype. -/
def getPrototypeOf (o : ObjectId) : Engine H (Option ObjectId) := do
  match ← getKind o with
  | .proxy _ => ProxyObject.getPrototypeOf o
  | .moduleNamespace _ => return none
  | _ => Ordinary.getPrototypeOf o

/-- Changes the prototype. A namespace has none and accepts none. -/
def setPrototypeOf (o : ObjectId) (prototype : Option ObjectId) : Action H Bool := do
  match ← (getKind o).act with
  | .proxy _ => (ProxyObject.setPrototypeOf o prototype).act
  | .moduleNamespace _ => return prototype.isNone
  | _ => Ordinary.setPrototypeOf o prototype

/-- Whether properties may be added. -/
def isExtensible (o : ObjectId) : Engine H Bool := do
  match ← getKind o with
  | .proxy _ => ProxyObject.isExtensible o
  | .moduleNamespace _ => return false
  | _ => Ordinary.isExtensible o

/-- Forbids that properties are added. -/
def preventExtensions (o : ObjectId) : Action H Bool := do
  match ← (getKind o).act with
  | .proxy _ => (ProxyObject.preventExtensions o).act
  | .moduleNamespace _ => return true
  | _ => Ordinary.preventExtensions o

/-- The own property of a key. -/
def getOwnProperty (o : ObjectId) (k : PropertyKey) : Engine H (Option Descriptor) := do
  match ← getKind o with
  | .proxy _ => ProxyObject.getOwnProperty o k
  | .moduleNamespace _ => NamespaceObject.getOwnProperty o k
  | .string _ => StringObject.getOwnProperty o k
  | _ => Ordinary.getOwnProperty o k

/-- Creates or changes an own property. -/
def defineOwnProperty (o : ObjectId) (k : PropertyKey) (d : Descriptor) : Action H Bool := do
  match ← (getKind o).act with
  | .proxy _ => (ProxyObject.defineOwnProperty o k d).act
  | .moduleNamespace _ => return false
  | .string _ => StringObject.defineOwnProperty o k d
  | .array => ArrayObject.defineOwnProperty o k d
  | _ => Ordinary.defineOwnProperty o k d

/-- Whether a property exists, own or inherited. -/
def hasProperty (o : ObjectId) (k : PropertyKey) : Engine H Bool := do
  match ← getKind o with
  | .proxy _ => ProxyObject.hasProperty o k
  | .moduleNamespace _ => NamespaceObject.hasProperty o k
  | _ => Ordinary.hasProperty o k

/-- The value of a property as a receiver sees it. -/
def get (o : ObjectId) (k : PropertyKey) (receiver : Value) : Engine H Value := do
  match ← getKind o with
  | .proxy _ => ProxyObject.get o k receiver
  | .moduleNamespace _ => NamespaceObject.get o k receiver
  | _ => Ordinary.get o k receiver

/-- Sets the value of a property for a receiver. -/
def set (o : ObjectId) (k : PropertyKey) (v receiver : Value) : Engine H Bool := do
  match ← getKind o with
  | .proxy _ => ProxyObject.set o k v receiver
  | .moduleNamespace _ => return false
  | _ => Ordinary.set o k v receiver

/-- Removes a property. -/
def delete (o : ObjectId) (k : PropertyKey) : Action H Bool := do
  match ← (getKind o).act with
  | .proxy _ => (ProxyObject.delete o k).act
  | .moduleNamespace _ => return false
  | _ => Ordinary.delete o k

/-- The keys of the own properties. -/
def ownKeys (o : ObjectId) : Engine H (List PropertyKey) := do
  match ← getKind o with
  | .proxy _ => ProxyObject.ownKeys o
  | .moduleNamespace _ => NamespaceObject.ownKeys o
  | .string _ => StringObject.ownKeys o
  | _ => Ordinary.ownKeys o

end ScriptEngine.Dispatch
