import ScriptEngine.Builtin.Array
import ScriptEngine.Builtin.Control
import ScriptEngine.Builtin.Json
import ScriptEngine.Builtin.Math
import ScriptEngine.Builtin.Number
import ScriptEngine.Builtin.Object
import ScriptEngine.Builtin.Primitive
import ScriptEngine.Builtin.Reflect
import ScriptEngine.Builtin.String

/-!
# The built-in functions

## Main definitions

* `Builtin.run`: what a built-in function does.
-/

namespace ScriptEngine

variable {H : HostTypes}

/-- What a built-in function does. -/
def Builtin.run (f : Builtin) (this : Value) (args : List Value) (newTarget : Option ObjectId) :
    Engine H Value :=
  match f with
  | object f => f.run this args newTarget
  | function f => f.run this args newTarget
  | array f => f.run this args newTarget
  | string f => f.run this args newTarget
  | number f => f.run this args newTarget
  | boolean f => f.run this args newTarget
  | symbol f => f.run this args newTarget
  | errorConstructor kind => constructError kind args newTarget
  | errorToString => errorText this
  | promise f => f.run this args newTarget
  | generator f => f.run this args
  | proxy f => f.run args newTarget
  | reflect f => f.run args
  | json f => f.run args
  | math f => f.run args
  | global f => f.run args

end ScriptEngine
