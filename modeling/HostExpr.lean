import HostExpr.Class.Basic
import HostExpr.Class.Builtin
import HostExpr.Class.Code
import HostExpr.Class.Directory
import HostExpr.Class.Draft
import HostExpr.Class.Lookup
import HostExpr.Engine.Basic
import HostExpr.Engine.Error
import HostExpr.Engine.Image
import HostExpr.Engine.Layout
import HostExpr.Engine.Report
import HostExpr.Execution.Expr
import HostExpr.Execution.Operator
import HostExpr.Execution.Place
import HostExpr.Execution.Program
import HostExpr.Execution.State
import HostExpr.Execution.Stmt
import HostExpr.Grammar.Match
import HostExpr.Grammar.Pattern
import HostExpr.Grammar.Rules
import HostExpr.Member.Access
import HostExpr.Member.Site
import HostExpr.Names.Scope
import HostExpr.Names.Table
import HostExpr.Number.Decimal
import HostExpr.Number.Integer
import HostExpr.Number.Remainder
import HostExpr.Syntax.Build.Expr
import HostExpr.Syntax.Build.Stmt
import HostExpr.Syntax.Error
import HostExpr.Syntax.Escape
import HostExpr.Syntax.Operator
import HostExpr.Syntax.Outline
import HostExpr.Syntax.Parse
import HostExpr.Syntax.Precedence
import HostExpr.Syntax.Span
import HostExpr.Syntax.Tree
import HostExpr.Text.Basic
import HostExpr.Text.CaseTable
import HostExpr.Text.Casing
import HostExpr.Text.HiddenTable
import HostExpr.Text.Inspected
import HostExpr.Text.Quoted
import HostExpr.Text.Ranges
import HostExpr.Type.Basic
import HostExpr.Type.Overload
import HostExpr.Type.Read
import HostExpr.Type.Relation
import HostExpr.Type.Text
import HostExpr.Typing.Environment
import HostExpr.Typing.Error
import HostExpr.Typing.Expr
import HostExpr.Typing.Link
import HostExpr.Typing.Member
import HostExpr.Typing.Name
import HostExpr.Typing.Outline
import HostExpr.Typing.Program
import HostExpr.Typing.State
import HostExpr.Typing.Stmt
import HostExpr.Typing.Tree
import HostExpr.Value.Basic
import HostExpr.Value.Container
import HostExpr.Value.Equality
import HostExpr.Value.Error
import HostExpr.Value.Heap
import HostExpr.Value.Intrinsic
import HostExpr.Value.Text
import HostExpr.World.Basic
import HostExpr.World.Body
import HostExpr.World.Conversion
import HostExpr.Proofs.Site.Property
import HostExpr.Proofs.Site.Run
import HostExpr.Proofs.Site.Transparency
import HostExpr.Proofs.Site.Conformance
import HostExpr.Proofs.Site.Selection
import HostExpr.Proofs.Site.Method
import HostExpr.Proofs.Scope.Static
import HostExpr.Proofs.Scope.Tracking
import HostExpr.Proofs.Scope.Frames
import HostExpr.Proofs.Scope.Tracks
import HostExpr.Proofs.Scope.Expr
import HostExpr.Proofs.Scope.Stmt
import HostExpr.Proofs.Scope.Analysis
import HostExpr.Proofs.Scope.Resolution
import HostExpr.Proofs.Grammar.Loops
import HostExpr.Proofs.Scope.Analyzed
import HostExpr.Proofs.Engine.Compile
import HostExpr.Proofs.Scope.Agreement
import HostExpr.Proofs.Image.Mentions
import HostExpr.Proofs.Image.RoundTrip
import HostExpr.Proofs.Strictness.Relaxed
import HostExpr.Proofs.Strictness.Filter
import HostExpr.Proofs.Call.Choice
import HostExpr.Proofs.Typing.Checks
import HostExpr.Proofs.Typing.Made
import HostExpr.Proofs.Typing.Nodes
import HostExpr.Proofs.Typing.Rule
import HostExpr.Proofs.Typing.Ruled
import HostExpr.Proofs.Call.Quiet
import HostExpr.Proofs.Lookup.Readable
import HostExpr.Proofs.Call.Conversion
import HostExpr.Proofs.Call.Access
import HostExpr.Proofs.Call.Exec
import HostExpr.Proofs.Call.Value
import HostExpr.Proofs.Call.Run
import HostExpr.Proofs.Engine.Calls
import HostExpr.Proofs.Engine.Inputs
import HostExpr.Proofs.Lookup.Writable
import HostExpr.Proofs.Execution.Steps
import HostExpr.Proofs.Lookup.Folding
import HostExpr.Proofs.Call.Alike
import HostExpr.Proofs.Call.Erasure
import HostExpr.Proofs.Type.Order
import HostExpr.Proofs.Typing.Scoped
import HostExpr.Proofs.Soundness.Operator
import HostExpr.Proofs.Soundness.Names
import HostExpr.Proofs.Soundness.Reads
import HostExpr.Proofs.Soundness.Steps
import HostExpr.Proofs.Soundness.Expr
import HostExpr.Proofs.Soundness.Stmt
import HostExpr.Proofs.Soundness.Program
import HostExpr.Proofs.Soundness.Intrinsic
import HostExpr.Proofs.Soundness.Members
import HostExpr.Proofs.Typing.Parts
import HostExpr.Proofs.Typing.Declared
import HostExpr.Proofs.Call.Failure
import HostExpr.Proofs.Watch.Step
import HostExpr.Proofs.Watch.Evaluation
import HostExpr.Proofs.Watch.Follow
import HostExpr.Proofs.Watch.Run
import HostExpr.Proofs.Watch.Limits
import HostExpr.Proofs.Watch.Failure
import HostExpr.Proofs.Watch.Bound
import HostExpr.Proofs.Watch.Declared
import HostExpr.Proofs.Value.Nesting
import HostExpr.Proofs.Value.Equality
import HostExpr.Proofs.Value.Display
import HostExpr.Proofs.Image.Numbering
import HostExpr.Proofs.Typing.Recording
import HostExpr.Proofs.Typing.Turns
import HostExpr.Proofs.Typing.Moments
import HostExpr.Proofs.Execution.Plain
import HostExpr.Proofs.Typing.Height
import HostExpr.Proofs.Observe.Evaluation
import HostExpr.Proofs.Observe.Follow
import HostExpr.Proofs.Observe.Erasure
import HostExpr.Proofs.Observe.Loops
import HostExpr.Proofs.Observe.Depth
import HostExpr.Proofs.Conversion.Growth
import HostExpr.Proofs.Conversion.Idempotent
import HostExpr.Proofs.Conversion.Conforming
import HostExpr.Proofs.Site.Pinning
import HostExpr.Proofs.Typing.Shifted
import HostExpr.Proofs.Typing.Shifting
import HostExpr.Proofs.Execution.Sunk
import HostExpr.Proofs.Execution.Deeper
import HostExpr.Proofs.Execution.Assignment
import HostExpr.Proofs.Engine.Setter
import HostExpr.Proofs.Typing.Coercible
import HostExpr.Proofs.Conversion.Acceptance
import HostExpr.Proofs.Value.Entries
import HostExpr.Proofs.Value.Symmetry
import HostExpr.Proofs.Lookup.ReadBack
import HostExpr.Proofs.Execution.Assigned
import HostExpr.Proofs.Type.Permuted
import HostExpr.Proofs.Type.Unified
import HostExpr.Proofs.Typing.Isolated
import HostExpr.Proofs.Execution.Atomic
import HostExpr.Proofs.Syntax.Integers
import HostExpr.Proofs.Syntax.Quoted
import HostExpr.Proofs.Syntax.Precedence
import HostExpr.Proofs.Engine.Spans
import HostExpr.Proofs.Syntax.Limit
import HostExpr.Proofs.Class.Slots
import HostExpr.Proofs.Execution.Arithmetic
import HostExpr.Proofs.Scope.Nested
