import FrozenGlobals.Analysis
import FrozenGlobals.Analysis.Call
import FrozenGlobals.Analysis.Evaluator
import FrozenGlobals.Analysis.Expression
import FrozenGlobals.Analysis.Failure
import FrozenGlobals.Analysis.Member
import FrozenGlobals.Analysis.Native
import FrozenGlobals.Analysis.Scope
import FrozenGlobals.Analysis.State
import FrozenGlobals.Analysis.Statement
import FrozenGlobals.Analysis.Write
import FrozenGlobals.Canonical
import FrozenGlobals.Command.Check
import FrozenGlobals.Command.Flags
import FrozenGlobals.Command.LintDescription
import FrozenGlobals.Command.Outline
import FrozenGlobals.Command.Settings
import FrozenGlobals.Command.World
import FrozenGlobals.Diagnostic
import FrozenGlobals.Document
import FrozenGlobals.Document.Block
import FrozenGlobals.Document.Json
import FrozenGlobals.Document.Part
import FrozenGlobals.Document.Pointer
import FrozenGlobals.Document.Reader
import FrozenGlobals.Document.Scalar
import FrozenGlobals.Heap
import FrozenGlobals.Host
import FrozenGlobals.Host.Conversion
import FrozenGlobals.Host.Tree
import FrozenGlobals.Lint
import FrozenGlobals.Lint.Advice
import FrozenGlobals.Lint.Extension
import FrozenGlobals.Log
import FrozenGlobals.Log.Timestamp
import FrozenGlobals.Main
import FrozenGlobals.Number.Binary64
import FrozenGlobals.Number.Decimal
import FrozenGlobals.Number.Integer
import FrozenGlobals.Number.Reader
import FrozenGlobals.OpenApi
import FrozenGlobals.Path
import FrozenGlobals.Proofs.Analysis.Calling
import FrozenGlobals.Proofs.Analysis.Evaluation
import FrozenGlobals.Proofs.Analysis.Immutability
import FrozenGlobals.Proofs.Analysis.Natives
import FrozenGlobals.Proofs.Analysis.Origin
import FrozenGlobals.Proofs.Analysis.Provenance
import FrozenGlobals.Proofs.Analysis.Trace
import FrozenGlobals.Proofs.Analysis.Traced
import FrozenGlobals.Proofs.Analysis.Writing
import FrozenGlobals.Proofs.Contents
import FrozenGlobals.Proofs.Execution.Core
import FrozenGlobals.Proofs.Execution.Covering
import FrozenGlobals.Proofs.Execution.Expressions
import FrozenGlobals.Proofs.Execution.Members
import FrozenGlobals.Proofs.Execution.Names
import FrozenGlobals.Proofs.Execution.Reads
import FrozenGlobals.Proofs.Execution.Semantics
import FrozenGlobals.Proofs.Execution.Statements
import FrozenGlobals.Proofs.Execution.Store
import FrozenGlobals.Proofs.Frames
import FrozenGlobals.Proofs.Host.Globals
import FrozenGlobals.Proofs.Host.Traversal
import FrozenGlobals.Proofs.Host.Unfolding
import FrozenGlobals.Proofs.Number.Decimal
import FrozenGlobals.Proofs.Number.Keys
import FrozenGlobals.Rendering
import FrozenGlobals.Schema
import FrozenGlobals.Schema.Globals
import FrozenGlobals.Script.Grammar.Expression
import FrozenGlobals.Script.Grammar.Function
import FrozenGlobals.Script.Grammar.Parser
import FrozenGlobals.Script.Grammar.Statement
import FrozenGlobals.Script.Grammar.Target
import FrozenGlobals.Script.Hoisting
import FrozenGlobals.Script.Node
import FrozenGlobals.Script.Node.Height
import FrozenGlobals.Script.Node.Size
import FrozenGlobals.Script.ParseError
import FrozenGlobals.Script.Program
import FrozenGlobals.Script.Span
import FrozenGlobals.Script.Token
import FrozenGlobals.Script.Token.Literal
import FrozenGlobals.Script.Tree
import FrozenGlobals.Text.Blank
import FrozenGlobals.Text.CharRange
import FrozenGlobals.Text.Letter
import FrozenGlobals.Text.Mark
import FrozenGlobals.Text.Printable
import FrozenGlobals.Text.Quoted
import FrozenGlobals.Text.Sha256
import FrozenGlobals.Text.Units
import FrozenGlobals.Text.Utf8
import FrozenGlobals.Text.Width
import FrozenGlobals.Value
import FrozenGlobals.Proofs.Execution.Soundness
import FrozenGlobals.Proofs.Discipline.Agree
import FrozenGlobals.Proofs.Discipline.Calling
import FrozenGlobals.Proofs.Discipline.Evaluation
import FrozenGlobals.Proofs.Discipline.Growth
import FrozenGlobals.Proofs.Discipline.Audit
import FrozenGlobals.Proofs.Discipline.Termination
import FrozenGlobals.Proofs.Discipline.Anchoring
import FrozenGlobals.Proofs.Script.Scopes
import FrozenGlobals.Proofs.Discipline.Templates
import FrozenGlobals.Proofs.Discipline.Strictness
import FrozenGlobals.Proofs.Discipline.Ceilings
import FrozenGlobals.Proofs.Discipline.Sites
import FrozenGlobals.Proofs.Coupling.Basic
import FrozenGlobals.Proofs.Coupling.Calling
import FrozenGlobals.Proofs.Coupling.Classes
import FrozenGlobals.Proofs.Coupling.Twins
import FrozenGlobals.Proofs.Coupling.Unmentioned
import FrozenGlobals.Proofs.Coupling.Notes
import FrozenGlobals.Proofs.Coupling.FoldedTails
import FrozenGlobals.Proofs.Coupling.Order
import FrozenGlobals.Proofs.Analysis.Destructuring
import FrozenGlobals.Proofs.Discipline.Bindings
import FrozenGlobals.Proofs.Analysis.LogicalAssignment
import FrozenGlobals.Proofs.Analysis.OwnNames
import FrozenGlobals.Proofs.Analysis.SpreadArguments
import FrozenGlobals.Proofs.Diagnostics
import FrozenGlobals.Proofs.WeakUpdates
import FrozenGlobals.Proofs.Chaining.Transparency
import FrozenGlobals.Proofs.Text.Quoting
import FrozenGlobals.Proofs.Text.Brackets
import FrozenGlobals.Proofs.Paths
import FrozenGlobals.Proofs.Canonical.Parts
import FrozenGlobals.Proofs.Canonical.Shape
import FrozenGlobals.Proofs.Canonical.Leaves
import FrozenGlobals.Proofs.Canonical.Order
import FrozenGlobals.Proofs.Canonical.Faithful
import FrozenGlobals.Proofs.Canonical.Branches
import FrozenGlobals.Proofs.Script.Declared
import FrozenGlobals.Proofs.Activation.Declaring
import FrozenGlobals.Proofs.Activation.Watching
import FrozenGlobals.Proofs.Activation.Analyses
import FrozenGlobals.Proofs.Analysis.Flattening
import FrozenGlobals.Proofs.Schema.Declared
import FrozenGlobals.Proofs.Discipline.Cancellation
import FrozenGlobals.Proofs.Rendering.Carets
import FrozenGlobals.Proofs.Calls.Books
import FrozenGlobals.Proofs.Calls.ScopeStacks
import FrozenGlobals.Proofs.Calls.Accounting
