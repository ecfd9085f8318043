import QueryTree.Command.Run
import QueryTree.Compile.Construction
import QueryTree.Compile.Error
import QueryTree.Compile.Expression
import QueryTree.Compile.Function
import QueryTree.Compile.Level
import QueryTree.Compile.Member
import QueryTree.Compile.Operand
import QueryTree.Compile.Primary
import QueryTree.Compile.Session
import QueryTree.Config.Keyword
import QueryTree.Config.Options
import QueryTree.Evaluate.Error
import QueryTree.Evaluate.Expression
import QueryTree.Evaluate.Method
import QueryTree.Evaluate.Operation
import QueryTree.Evaluate.Sequence
import QueryTree.Expr.Basic
import QueryTree.Expr.Literal
import QueryTree.Expr.Operator
import QueryTree.Expr.Tree
import QueryTree.Guid
import QueryTree.Json.Basic
import QueryTree.Json.Reader
import QueryTree.Main
import QueryTree.Model.Basic
import QueryTree.Model.Document
import QueryTree.Model.Error
import QueryTree.Model.Schema
import QueryTree.Named
import QueryTree.Number.Binary
import QueryTree.Number.Decimal.Arithmetic
import QueryTree.Number.Decimal.Basic
import QueryTree.Number.Decimal.Binary
import QueryTree.Number.Decimal.Reader
import QueryTree.Number.Integer
import QueryTree.Number.Numeral
import QueryTree.Number.Shortest
import QueryTree.Overload.Callable
import QueryTree.Overload.Resolution
import QueryTree.Overload.Signature
import QueryTree.Proofs.Binding.Evaluation
import QueryTree.Proofs.Binding.Invocation
import QueryTree.Proofs.Binding.Tree
import QueryTree.Proofs.Branch.Precedence
import QueryTree.Proofs.Branch.Unification
import QueryTree.Proofs.Comparison.Constant
import QueryTree.Proofs.Comparison.Declared
import QueryTree.Proofs.Comparison.Mirror
import QueryTree.Proofs.Comparison.Operand
import QueryTree.Proofs.Comparison.Ordered
import QueryTree.Proofs.Comparison.Side
import QueryTree.Proofs.Comparison.Text
import QueryTree.Proofs.Compile.Built
import QueryTree.Proofs.Compile.Elementary
import QueryTree.Proofs.Compile.Enclosed
import QueryTree.Proofs.Compile.Level
import QueryTree.Proofs.Compile.Member
import QueryTree.Proofs.Compile.Node
import QueryTree.Proofs.Compile.Operation
import QueryTree.Proofs.Compile.Primary
import QueryTree.Proofs.Compile.Renaming
import QueryTree.Proofs.Compile.Restoration
import QueryTree.Proofs.Compile.Surroundings
import QueryTree.Proofs.Compile.Text
import QueryTree.Proofs.Config.Keyword
import QueryTree.Proofs.Config.Numbering
import QueryTree.Proofs.Conversion.Implicit
import QueryTree.Proofs.Cutting.Keys
import QueryTree.Proofs.Cutting.Level
import QueryTree.Proofs.Cutting.Ordering
import QueryTree.Proofs.Cutting.Primary
import QueryTree.Proofs.Cutting.Step
import QueryTree.Proofs.Evaluate.Declared
import QueryTree.Proofs.Evaluate.Outcome
import QueryTree.Proofs.Evaluate.Resolution
import QueryTree.Proofs.Expr.Everywhere
import QueryTree.Proofs.Grouping.Equality
import QueryTree.Proofs.Grouping.Partition
import QueryTree.Proofs.Independence.Access
import QueryTree.Proofs.Independence.Expressions
import QueryTree.Proofs.Independence.Level
import QueryTree.Proofs.Independence.Members
import QueryTree.Proofs.Independence.Operations
import QueryTree.Proofs.Independence.Primary
import QueryTree.Proofs.Independence.Runs
import QueryTree.Proofs.Independence.Text
import QueryTree.Proofs.Independence.Types
import QueryTree.Proofs.Integral.Arithmetic
import QueryTree.Proofs.Integral.Bitwise
import QueryTree.Proofs.Integral.Shift
import QueryTree.Proofs.Json.Normal
import QueryTree.Proofs.Literal.Integer
import QueryTree.Proofs.Literal.Kept
import QueryTree.Proofs.Literal.Member
import QueryTree.Proofs.Literal.Quoted
import QueryTree.Proofs.Literal.Rereading
import QueryTree.Proofs.Literal.Text
import QueryTree.Proofs.Membership.Chain
import QueryTree.Proofs.Membership.Item
import QueryTree.Proofs.Membership.Operand
import QueryTree.Proofs.Membership.Text
import QueryTree.Proofs.Membership.Widening
import QueryTree.Proofs.Model.Bases
import QueryTree.Proofs.Model.Conformance
import QueryTree.Proofs.Model.Enumeration
import QueryTree.Proofs.Model.Key
import QueryTree.Proofs.Model.Loading
import QueryTree.Proofs.Model.Order
import QueryTree.Proofs.Model.Reference
import QueryTree.Proofs.Model.TypeName
import QueryTree.Proofs.Model.Untyped
import QueryTree.Proofs.Model.Written
import QueryTree.Proofs.Naming.Access
import QueryTree.Proofs.Naming.Escape
import QueryTree.Proofs.Naming.Folding
import QueryTree.Proofs.Naming.Matching
import QueryTree.Proofs.Nesting.Mark
import QueryTree.Proofs.Nesting.Primary
import QueryTree.Proofs.Nesting.Step
import QueryTree.Proofs.Nesting.Text
import QueryTree.Proofs.Order.Consistency
import QueryTree.Proofs.Order.Extreme
import QueryTree.Proofs.Order.Items
import QueryTree.Proofs.Order.Key
import QueryTree.Proofs.Order.Sorting
import QueryTree.Proofs.Outcome
import QueryTree.Proofs.Overload.Arrangement
import QueryTree.Proofs.Overload.Best
import QueryTree.Proofs.Overload.Fitting
import QueryTree.Proofs.Overload.Hiding
import QueryTree.Proofs.Overload.Promotion
import QueryTree.Proofs.Overload.Ranking
import QueryTree.Proofs.Overload.Signature
import QueryTree.Proofs.Parallel.Enclosure
import QueryTree.Proofs.Parallel.Level
import QueryTree.Proofs.Parallel.Named
import QueryTree.Proofs.Parallel.Pairing
import QueryTree.Proofs.Parallel.Point
import QueryTree.Proofs.Parallel.Primary
import QueryTree.Proofs.Parallel.Step
import QueryTree.Proofs.Parallel.Word
import QueryTree.Proofs.Print.Reading
import QueryTree.Proofs.Print.RoundTrip
import QueryTree.Proofs.Print.Tree
import QueryTree.Proofs.Print.Word
import QueryTree.Proofs.Projection.Member
import QueryTree.Proofs.Projection.Reading
import QueryTree.Proofs.Propagation.Chain
import QueryTree.Proofs.Propagation.Guard
import QueryTree.Proofs.Propagation.Text
import QueryTree.Proofs.Propagation.Typed
import QueryTree.Proofs.Safety.Conversion
import QueryTree.Proofs.Safety.Operand
import QueryTree.Proofs.Safety.Operation
import QueryTree.Proofs.Safety.Operator
import QueryTree.Proofs.Safety.Text
import QueryTree.Proofs.Safety.Token
import QueryTree.Proofs.Sequence.Containment
import QueryTree.Proofs.Sequence.Reading
import QueryTree.Proofs.Sequence.Selector
import QueryTree.Proofs.Sequence.Total
import QueryTree.Proofs.Spelling.Operation
import QueryTree.Proofs.Spelling.Primary
import QueryTree.Proofs.Spelling.Step
import QueryTree.Proofs.Spelling.Text
import QueryTree.Proofs.Text.Constant
import QueryTree.Proofs.Text.Numeral
import QueryTree.Proofs.Text.Position
import QueryTree.Proofs.Time.Ticks
import QueryTree.Proofs.Token.Comma
import QueryTree.Proofs.Token.Lexeme
import QueryTree.Proofs.Token.Partition
import QueryTree.Proofs.Token.Spacing
import QueryTree.Proofs.Type.Equality
import QueryTree.Proofs.Type.Hierarchy
import QueryTree.Proofs.Type.Preorder
import QueryTree.Proofs.Typing.Operator
import QueryTree.Proofs.Typing.Tree
import QueryTree.Text.Alphabet
import QueryTree.Text.CaseMap
import QueryTree.Text.Intervals
import QueryTree.Text.Quoted
import QueryTree.Text.Search
import QueryTree.Time.DateTime
import QueryTree.Time.Reader
import QueryTree.Token.Basic
import QueryTree.Token.Escape
import QueryTree.Token.Scan
import QueryTree.Type.Basic
import QueryTree.Type.Builder
import QueryTree.Type.Class
import QueryTree.Type.Conversion
import QueryTree.Value.Basic
import QueryTree.Value.Order
import QueryTree.Value.Reader
import QueryTree.Proofs.Print.Line
