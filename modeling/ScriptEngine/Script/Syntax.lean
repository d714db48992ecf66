import ScriptEngine.Operation.Comparison
import ScriptEngine.Operation.Integrity

/-!
# The syntax of scripts

Scripts are programs of a small language whose expressions are the operations of the engine, so that
each of them can be run by itself. Most expressions evaluate their parts from left to right and then
perform an operation on the results; the others have an order of their own.

## Main definitions

* `Operation`: what an expression does once its parts are evaluated, by family.
* `Expression`, `Part`, `Statement`: the language.
* `FunctionTraits`, `FunctionBody`, `GeneratorItem`: functions and the bodies of generators.
-/

namespace ScriptEngine.Script

/-! ### Operations -/

/-- What a part of an expression is used as once it is evaluated. -/
inductive Use where
  | value
  /-- Has to be an object. -/
  | object
  /-- Is converted to a property key. -/
  | key
  /-- Has to be a string. -/
  | text
  /-- Has to be a number. -/
  | number
deriving DecidableEq, Repr

/-- What the functions do that a script adds without code of the language. -/
inductive NativeBody where
  | arguments
  | this
  | newTarget
  | failing
  | throwing
  | frames
  | nothing
deriving DecidableEq, Repr

/-- The attributes of a descriptor that a script spells out. Value, getter and setter are parts of
the expression, the others are given here. -/
structure DescriptorShape where
  hasValue : Bool
  hasGet : Bool
  hasSet : Bool
  writable : Option Bool
  enumerable : Option Bool
  configurable : Option Bool
deriving DecidableEq, Repr

/-- Variables and functions. -/
inductive FunctionOperation where
  | readVariable (name : String) (strict : Bool)
  | deleteVariable (name : String) (strict : Bool)
  | declare (name : String) (isMutable : Bool)
  | native (name : String) (body : NativeBody) (length : Nat) (isConstructor : Bool)
  | this
  | newTarget
  | call
  | invoke
  | construct
  | constructFor
  | bind
  | setName (word : Option String)
  | describe
  | makeClass
  | makeDerived
  | makeConstructor (writable : Bool)
  | makeMethod
deriving DecidableEq, Repr

/-- Objects and their members. -/
inductive ObjectOperation where
  | create
  | createArray (length : Nat)
  | getMember (strict : Bool)
  | putMember (strict : Bool)
  | deleteMember (strict : Bool)
  | define (shape : DescriptorShape)
  | proxy
  | revoke
  | proxyTarget
  | intrinsic (name : String)
  | wellKnown (name : String)
  | newSymbol (description : Option String)
  | raise (kind message : String)
deriving DecidableEq, Repr

/-- Operators. -/
inductive Operator where
  | typeOf
  | not
  | debug
  | add
  | subtract
  | multiply
  | strictEquals
  | looselyEquals
  | sameValue
  | sameValueZero
  | relational (op : RelationalOperator)
  /-- Whether one value is less than the other, or undefined. -/
  | isLess (leftFirst : Bool)
  | instanceOf
  | ordinaryInstanceOf
deriving DecidableEq, Repr

/-- Generators and iterators. Iterators have names. -/
inductive IterationOperation where
  | rawGenerator
  | generatorState
  | resume
  | resumeAbruptly (kind : String)
  | open (name : String)
  | next (name : String)
  | step (name : String)
  | stepValue (name : String)
  | isDone (name : String)
  | result (done : Bool)
deriving DecidableEq, Repr

/-- What a script says that an export stands for. -/
inductive ForwardedExport where
  | name (module name : String)
  | whole (module : String)
  | null
  | ambiguous
deriving DecidableEq, Repr

/-- Promises, jobs and modules. Capabilities and modules have names. -/
inductive PromiseOperation where
  | newCapability (name : String)
  | state
  | resolve
  | performThen (capability : Option String)
  | runJobs
  | enqueue
  | createModule (name : String) (exports : List String)
  | setExport (name key : String)
  | detach (name : String)
  | getNamespace (name : String)
  | resolveExport (name key : String)
  | forward (name : String) (exports : List (String × ForwardedExport))
deriving DecidableEq, Repr

/-- The realm, its clock and its contexts. -/
inductive RealmOperation where
  | checkTimeout
  | advanceClock
  | flags
  | dispose
  | pushContext
  | popContext
  | suspendContext
  | resumeContext
  | elapsed
  | frames
deriving DecidableEq, Repr

/-- References, which have names. -/
inductive ReferenceOperation where
  | newProperty (name : String) (strict : Bool)
  | newIdentifier (name identifier : String) (strict : Bool)
  | getValue (name : String)
  | getThis (name : String)
  | delete (name : String)
  | putValue (name : String)
  | setFirst (name : String)
deriving DecidableEq, Repr

/-- Scopes, which have names. -/
inductive ScopeOperation where
  | newDeclarative (name : String)
  | newModule (name : String)
  | newObject (name : String) (isWith : Bool)
  | newFunction (name : String) (lexicalThis : Bool)
  | newGlobal (name : String)
  | has (binding : String)
  | createMutable (binding : String) (deletable : Bool)
  | createImmutable (binding : String) (strict : Bool)
  | setFirst (binding : String)
  | set (binding : String) (strict : Bool)
  | get (binding : String) (strict : Bool)
  | delete (binding : String)
  | names
  | hasThis
  | hasSuper
  | withBase
  | bindThis
  | getThis
  | superBase
  | hasVar (binding : String)
  | hasLexical (binding : String)
  | isRestricted (binding : String)
  | canDeclareVar (binding : String)
  | canDeclareFunction (binding : String)
  | createVar (binding : String) (deletable : Bool)
  | createFunction (binding : String) (deletable : Bool)
  | createImport (binding module name : String)
deriving DecidableEq, Repr

/-- Internal methods of objects. -/
inductive MethodOperation where
  | getPrototypeOf
  | setPrototypeOf
  | isExtensible
  | preventExtensions
  | ownKeys
  | getOwnProperty
  | defineOwnProperty (shape : DescriptorShape)
  | hasProperty
  | get
  | set
  | delete
deriving DecidableEq, Repr

/-- Conversions and other operations of the engine that its functions are made of. -/
inductive AbstractOperation where
  | toBoolean
  | toNumber
  | toText
  | toObject
  | toPrimitive (preferred : PreferredType)
  | ordinaryToPrimitive (preferred : PreferredType)
  | toIntegerOrInfinity
  | toLength
  | toInt32
  | toUint32
  | toPropertyKey
  | requireObjectCoercible
  | numberToText
  | numberToRadix
  | textToNumber
  | parseInteger
  | parseFloat
  | getProperty
  | getByValue
  | getMethod
  | hasOwnProperty
  | put (throwing : Bool)
  | createDataProperty
  | createDataPropertyOrThrow
  | deleteOrThrow
  | setIntegrity (level : IntegrityLevel)
  | testIntegrity (level : IntegrityLevel)
  | lengthOfArrayLike
  | listFrom (namesOnly : Bool)
  | enumerable (kind : IterationKind)
  | isArray
  | species
  | copyData
  | tag
  | iterableToList
  | toDescriptor
  | isPrototypeOf
  | isCompatible (extensible : Bool) (wanted : DescriptorShape) (current : Option DescriptorShape)
  | describeDescriptor (shape : DescriptorShape)
deriving DecidableEq, Repr

/-- What an expression does once its parts are evaluated. -/
inductive Operation where
  | function (op : FunctionOperation)
  | object (op : ObjectOperation)
  | operator (op : Operator)
  | iteration (op : IterationOperation)
  | promise (op : PromiseOperation)
  | realm (op : RealmOperation)
  | reference (op : ReferenceOperation)
  | scope (op : ScopeOperation)
  | method (op : MethodOperation)
  | abstract (op : AbstractOperation)
  /-- No operation of the language. -/
  | unknown
deriving DecidableEq, Repr

/-! ### Expressions and statements -/

/-- What is done with the outcome of an expression, be it a value or a failure. -/
inductive Observation where
  /-- The text of a failure. -/
  | display
  /-- The nature of a failure. -/
  | classify
  /-- The kind of the completion that the outcome makes. -/
  | complete
  /-- A failure gets a trace with this place in the program. -/
  | enrich (nodePath : String)
  /-- The named iteration is closed. -/
  | closeIterator (name : String)
deriving DecidableEq, Repr

/-- What is done with a property of the prototype of the home object. -/
inductive SuperUse where
  | get
  | put
  | delete
deriving DecidableEq, Repr

/-- What a function is besides its body. -/
structure FunctionTraits where
  name : Option String
  /-- The word that is put before the name, such as `get`. -/
  word : Option String
  params : List String
  strict : Bool
  isArrow : Bool
  isConstructor : Bool
  isClass : Bool
  isDerived : Bool
  /-- The name of the scope that the function closes over, if it is not the running one. -/
  scope : Option String
deriving DecidableEq, Repr

mutual

/-- An expression. -/
inductive Expression where
  /-- An expression that the script left out although it has to be there. -/
  | missing
  | literal (v : Value)
  | apply (op : Operation) (parts : List Part)
  | assign (name : String) (strict : Bool) (e : Expression)
  | sequence (es : List Expression)
  | log (es : List Expression)
  | function (traits : FunctionTraits) (body : FunctionBody) (home : Option Expression)
  | generator (body : List GeneratorItem)
  | startGenerator (g : Expression) (body : List GeneratorItem)
  | object (members : List Member)
  | array (elements : List (Option Expression))
  | superProperty (use : SuperUse) (strict : Bool) (k : Expression) (v : Option Expression)
  | superCall (parts : List Part)
  | observe (how : Observation) (e : Expression)
  | execute (e : Expression)
  | within (scope : String) (e : Expression)
  | statement (s : Statement)

/-- A part of an expression. -/
inductive Part where
  | one (use : Use) (e : Expression)
  /-- As many parts as an iterable value has elements. -/
  | spread (e : Expression)
  /-- A scope, by its name. -/
  | scope (name : String)
  /-- No scope. -/
  | noScope

/-- A member of an object literal. -/
inductive Member where
  | data (k v : Expression)
  | getter (k f : Expression)
  | setter (k f : Expression)

/-- A statement. -/
inductive Statement where
  | expression (e : Expression)
  | block (body : List Statement)
  | if (condition : Expression) (yes : Statement) (no : Option Statement)
  | while (condition : Expression) (body : List Statement) (label : Option String)
  | return (e : Option Expression)
  | throw (e : Expression)
  | break (label : Option String)
  | continue (label : Option String)
  | empty
  /-- The handler binds what was thrown to its parameter. -/
  | try (body : List Statement) (parameter : Option String) (handler : Option (List Statement))
      (finalizer : Option (List Statement))

/-- The body of a function. -/
inductive FunctionBody where
  | plain (body : List Statement)
  | generator (body : List GeneratorItem)

/-- A statement of the body of a generator. -/
inductive GeneratorItem where
  | plain (s : Statement)
  | yield (e : Expression) (resumption : Resumption)
  | jumpIf (condition : Expression) (target : Nat)

/-- What happens where a generator is resumed: a value received is assigned to a variable, a throw
or a return runs a handler if there is one, and a return may be ignored. -/
inductive Resumption where
  | make (target : Option String) (onThrow onReturn : Option (List Statement)) (keepGoing : Bool)

end

end ScriptEngine.Script
