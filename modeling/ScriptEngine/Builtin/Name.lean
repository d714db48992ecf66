import ScriptEngine.Failure

/-!
# Names of the built-in functions

One name for each function that a realm provides. A function object refers to its behaviour by this
name; what the name does is defined by the modules of the families.

## Main definitions

* `Builtin`: a built-in function, by family.
-/

namespace ScriptEngine

/-- `Object` and its prototype. -/
inductive ObjectFunction where
  | construct
  | hasOwnProperty
  | isPrototypeOf
  | propertyIsEnumerable
  | toLocaleString
  | toString
  | valueOf
  | assign
  | create
  | defineProperties
  | defineProperty
  | entries
  | freeze
  | fromEntries
  | getOwnPropertyDescriptor
  | getOwnPropertyDescriptors
  | getOwnPropertyNames
  | getOwnPropertySymbols
  | getPrototypeOf
  | hasOwn
  | is
  | isExtensible
  | isFrozen
  | isSealed
  | keys
  | preventExtensions
  | sealObject
  | setPrototypeOf
  | values
deriving DecidableEq, Repr

/-- `Function` and its prototype. -/
inductive FunctionFunction where
  | construct
  | prototype
  | apply
  | bind
  | call
  | toString
  | hasInstance
deriving DecidableEq, Repr

/-- `Array`, its prototype and the prototype of its iterators. -/
inductive ArrayFunction where
  | construct
  | isArray
  | of
  | from
  | push
  | pop
  | shift
  | unshift
  | splice
  | reverse
  | sort
  | fill
  | at
  | concat
  | slice
  | join
  | toString
  | indexOf
  | lastIndexOf
  | includes
  | forEach
  | map
  | filter
  | reduce
  | find
  | findIndex
  | everyElement
  | anyElement
  | keys
  | entries
  | values
  | iteratorNext
deriving DecidableEq, Repr

/-- `String` and its prototype. -/
inductive StringFunction where
  | construct
  | fromCharCode
  | fromCodePoint
  | at
  | charAt
  | charCodeAt
  | codePointAt
  | concat
  | endsWith
  | includes
  | indexOf
  | lastIndexOf
  | padEnd
  | padStart
  | repeat
  | slice
  | split
  | startsWith
  | substring
  | toLowerCase
  | toUpperCase
  | trim
  | trimEnd
  | trimStart
  | valueOf
  | iterator
deriving DecidableEq, Repr

/-- `Number` and its prototype. -/
inductive NumberFunction where
  | construct
  | toExponential
  | toFixed
  | toLocaleString
  | toPrecision
  | toString
  | valueOf
  | isFinite
  | isInteger
  | isNaN
  | isSafeInteger
  | parseFloat
  | parseInt
deriving DecidableEq, Repr

/-- `Boolean` and its prototype. -/
inductive BooleanFunction where
  | construct
  | toString
  | valueOf
deriving DecidableEq, Repr

/-- `Symbol` and its prototype. -/
inductive SymbolFunction where
  | construct
  | for
  | keyFor
  | description
  | toString
  | valueOf
  | toPrimitive
  | speciesGetter
deriving DecidableEq, Repr

/-- `Promise` and its prototype. -/
inductive PromiseFunction where
  | construct
  | resolve
  | reject
  | then
  | catch
deriving DecidableEq, Repr

/-- The prototypes of iterators and generators. -/
inductive GeneratorFunction where
  | iteratorSelf
  | next
  | return
  | throw
deriving DecidableEq, Repr

/-- `Proxy`. -/
inductive ProxyFunction where
  | construct
  | revocable
deriving DecidableEq, Repr

/-- `Reflect`. -/
inductive ReflectFunction where
  | apply
  | construct
  | defineProperty
  | deleteProperty
  | get
  | getOwnPropertyDescriptor
  | getPrototypeOf
  | has
  | isExtensible
  | ownKeys
  | preventExtensions
  | set
  | setPrototypeOf
deriving DecidableEq, Repr

/-- `JSON`. -/
inductive JsonFunction where
  | parse
  | stringify
deriving DecidableEq, Repr

/-- `Math`. -/
inductive MathFunction where
  | abs
  | acos
  | acosh
  | asin
  | asinh
  | atan
  | atan2
  | atanh
  | cbrt
  | ceil
  | clz32
  | cos
  | cosh
  | exp
  | expm1
  | floor
  | fround
  | hypot
  | imul
  | log
  | log10
  | log1p
  | log2
  | max
  | min
  | pow
  | random
  | round
  | sign
  | sin
  | sinh
  | sqrt
  | tan
  | tanh
  | trunc
deriving DecidableEq, Repr

/-- The functions of the global object itself. -/
inductive GlobalFunction where
  | eval
  | isNaN
  | isFinite
deriving DecidableEq, Repr

/-- A built-in function. -/
inductive Builtin where
  | object (f : ObjectFunction)
  | function (f : FunctionFunction)
  | array (f : ArrayFunction)
  | string (f : StringFunction)
  | number (f : NumberFunction)
  | boolean (f : BooleanFunction)
  | symbol (f : SymbolFunction)
  | errorConstructor (kind : ErrorKind)
  | errorToString
  | promise (f : PromiseFunction)
  | generator (f : GeneratorFunction)
  | proxy (f : ProxyFunction)
  | reflect (f : ReflectFunction)
  | json (f : JsonFunction)
  | math (f : MathFunction)
  | global (f : GlobalFunction)
deriving DecidableEq, Repr

end ScriptEngine
