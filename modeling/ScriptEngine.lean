import ScriptEngine.Balance
import ScriptEngine.Bootstrap
import ScriptEngine.Builtin
import ScriptEngine.Builtin.Array
import ScriptEngine.Builtin.Array.Access
import ScriptEngine.Builtin.Array.Basic
import ScriptEngine.Builtin.Array.Creation
import ScriptEngine.Builtin.Array.Iteration
import ScriptEngine.Builtin.Array.Mutation
import ScriptEngine.Builtin.Control
import ScriptEngine.Builtin.Function
import ScriptEngine.Builtin.Install
import ScriptEngine.Builtin.Json
import ScriptEngine.Builtin.Math
import ScriptEngine.Builtin.Name
import ScriptEngine.Builtin.Number
import ScriptEngine.Builtin.Object
import ScriptEngine.Builtin.Primitive
import ScriptEngine.Builtin.Reflect
import ScriptEngine.Builtin.String
import ScriptEngine.Callable
import ScriptEngine.Completion
import ScriptEngine.Conduct
import ScriptEngine.Config.Reader
import ScriptEngine.ContextStack
import ScriptEngine.Control
import ScriptEngine.Descriptor
import ScriptEngine.Engine
import ScriptEngine.Environment
import ScriptEngine.Evaluation
import ScriptEngine.Failure
import ScriptEngine.Heap
import ScriptEngine.Json.Basic
import ScriptEngine.Json.Reader
import ScriptEngine.Json.Skip
import ScriptEngine.Json.Writer
import ScriptEngine.Ledger
import ScriptEngine.Method.Array
import ScriptEngine.Method.Call
import ScriptEngine.Method.Dispatch
import ScriptEngine.Method.Namespace
import ScriptEngine.Method.Ordinary
import ScriptEngine.Method.Proxy
import ScriptEngine.Method.String
import ScriptEngine.Module
import ScriptEngine.Number.Elementary
import ScriptEngine.Number.Exact
import ScriptEngine.Number.Printer
import ScriptEngine.Number.Reader
import ScriptEngine.Number.Shortest
import ScriptEngine.Object
import ScriptEngine.Operation.ArrayLike
import ScriptEngine.Operation.Comparison
import ScriptEngine.Operation.Conversion
import ScriptEngine.Operation.DescriptorObject
import ScriptEngine.Operation.ErrorObject
import ScriptEngine.Operation.Function
import ScriptEngine.Operation.Generator
import ScriptEngine.Operation.Integrity
import ScriptEngine.Operation.Iterator
import ScriptEngine.Operation.Promise
import ScriptEngine.Operation.Property
import ScriptEngine.OrderedMap
import ScriptEngine.Proofs.Answer
import ScriptEngine.Proofs.ArrayElements
import ScriptEngine.Proofs.ArrayIndices
import ScriptEngine.Proofs.ArrayIterator
import ScriptEngine.Proofs.ArrayLength
import ScriptEngine.Proofs.ArrayLike
import ScriptEngine.Proofs.ArrayMutation
import ScriptEngine.Proofs.ArrayObject
import ScriptEngine.Proofs.ArrayRefinement
import ScriptEngine.Proofs.ArrayRun
import ScriptEngine.Proofs.ArraySort
import ScriptEngine.Proofs.ArraySpecies
import ScriptEngine.Proofs.Assignment
import ScriptEngine.Proofs.Bootstrap
import ScriptEngine.Proofs.BoundChain
import ScriptEngine.Proofs.CanonicalKeys
import ScriptEngine.Proofs.CanonicalStorage
import ScriptEngine.Proofs.CodeUnits
import ScriptEngine.Proofs.Conduct
import ScriptEngine.Proofs.Construction
import ScriptEngine.Proofs.ContextBalance
import ScriptEngine.Proofs.ContextTime
import ScriptEngine.Proofs.DataProperty
import ScriptEngine.Proofs.DecimalReading
import ScriptEngine.Proofs.Definition
import ScriptEngine.Proofs.Descriptor
import ScriptEngine.Proofs.DescriptorObject
import ScriptEngine.Proofs.ElementCopy
import ScriptEngine.Proofs.ElementRun
import ScriptEngine.Proofs.ElementStore
import ScriptEngine.Proofs.ElementSuccess
import ScriptEngine.Proofs.ExactValue
import ScriptEngine.Proofs.FatalFailure
import ScriptEngine.Proofs.GeneratorTurns
import ScriptEngine.Proofs.GeneratorYield
import ScriptEngine.Proofs.History
import ScriptEngine.Proofs.HoleList
import ScriptEngine.Proofs.ImportChain
import ScriptEngine.Proofs.Installation
import ScriptEngine.Proofs.Integer
import ScriptEngine.Proofs.IntegerPart
import ScriptEngine.Proofs.Integrity
import ScriptEngine.Proofs.IntegrityLevel
import ScriptEngine.Proofs.JobQueue
import ScriptEngine.Proofs.JsonGrammar
import ScriptEngine.Proofs.JsonGraph
import ScriptEngine.Proofs.JsonReader
import ScriptEngine.Proofs.JsonRecord
import ScriptEngine.Proofs.JsonRoundTrip
import ScriptEngine.Proofs.JsonSpelling
import ScriptEngine.Proofs.JsonText
import ScriptEngine.Proofs.JsonTree
import ScriptEngine.Proofs.JsonValue
import ScriptEngine.Proofs.JsonWriter
import ScriptEngine.Proofs.KeyOfNumber
import ScriptEngine.Proofs.KeyText
import ScriptEngine.Proofs.Lawful
import ScriptEngine.Proofs.LexicalScope
import ScriptEngine.Proofs.ListPassage
import ScriptEngine.Proofs.LooseEquality
import ScriptEngine.Proofs.ModuleHistory
import ScriptEngine.Proofs.ModuleNamespace
import ScriptEngine.Proofs.Moments
import ScriptEngine.Proofs.NativeCall
import ScriptEngine.Proofs.Nearest
import ScriptEngine.Proofs.NumberText
import ScriptEngine.Proofs.NumericGrammar
import ScriptEngine.Proofs.NumericText
import ScriptEngine.Proofs.Outcome
import ScriptEngine.Proofs.OwnKeys
import ScriptEngine.Proofs.PermittedChange
import ScriptEngine.Proofs.PlainObject
import ScriptEngine.Proofs.Plan
import ScriptEngine.Proofs.PromiseHistory
import ScriptEngine.Proofs.PromiseSettlement
import ScriptEngine.Proofs.PropertySearch
import ScriptEngine.Proofs.Prototype
import ScriptEngine.Proofs.PrototypeChain
import ScriptEngine.Proofs.PrototypeWalk
import ScriptEngine.Proofs.ProxyObject
import ScriptEngine.Proofs.ProxyTrap
import ScriptEngine.Proofs.RadixDigits
import ScriptEngine.Proofs.RadixLiteral
import ScriptEngine.Proofs.RadixText
import ScriptEngine.Proofs.ReactionOrder
import ScriptEngine.Proofs.RefusedEvaluation
import ScriptEngine.Proofs.RelativeIndex
import ScriptEngine.Proofs.ReportedKeys
import ScriptEngine.Proofs.ResolvingFunction
import ScriptEngine.Proofs.ScopeRecord
import ScriptEngine.Proofs.ShortestDigits
import ScriptEngine.Proofs.SortOrder
import ScriptEngine.Proofs.SplitText
import ScriptEngine.Proofs.StoredLength
import ScriptEngine.Proofs.Surrogates
import ScriptEngine.Proofs.SymbolRegistry
import ScriptEngine.Proofs.TimeLimit
import ScriptEngine.Proofs.Transparency
import ScriptEngine.Proofs.Trimming
import ScriptEngine.Proofs.UnresolvedName
import ScriptEngine.Proofs.WordArithmetic
import ScriptEngine.PropertyKey
import ScriptEngine.PropertyMap
import ScriptEngine.Realm
import ScriptEngine.Respond
import ScriptEngine.Scope.Binding
import ScriptEngine.Scope.Namespace
import ScriptEngine.Scope.Reference
import ScriptEngine.Script.Evaluate
import ScriptEngine.Script.Form
import ScriptEngine.Script.Generator
import ScriptEngine.Script.Host
import ScriptEngine.Script.Operand
import ScriptEngine.Script.Operation
import ScriptEngine.Script.Operation.Abstract
import ScriptEngine.Script.Operation.Function
import ScriptEngine.Script.Operation.Iteration
import ScriptEngine.Script.Operation.Method
import ScriptEngine.Script.Operation.Object
import ScriptEngine.Script.Operation.Operator
import ScriptEngine.Script.Operation.Promise
import ScriptEngine.Script.Operation.Realm
import ScriptEngine.Script.Operation.Scope
import ScriptEngine.Script.Program
import ScriptEngine.Script.Reader
import ScriptEngine.Script.Render
import ScriptEngine.Script.Syntax
import ScriptEngine.Step
import ScriptEngine.Symbol
import ScriptEngine.Text.Blank
import ScriptEngine.Text.LetterCase
import ScriptEngine.Text.LetterCase.Table
import ScriptEngine.Text.Split
import ScriptEngine.Text.Units
import ScriptEngine.TimeLimit
import ScriptEngine.Value
