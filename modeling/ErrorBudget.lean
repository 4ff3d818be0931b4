import ErrorBudget.Config
import ErrorBudget.Config.Number
import ErrorBudget.Config.Reader
import ErrorBudget.Constant
import ErrorBudget.Decimal.Binary
import ErrorBudget.Decimal.Layout
import ErrorBudget.Decimal.Literal
import ErrorBudget.Decimal.Shortest
import ErrorBudget.Definition
import ErrorBudget.Double
import ErrorBudget.Equation
import ErrorBudget.Equation.Description
import ErrorBudget.EquationSet
import ErrorBudget.EquationSet.Edit
import ErrorBudget.Error
import ErrorBudget.Error.Kind
import ErrorBudget.Expr.Basic
import ErrorBudget.Expr.Derivative
import ErrorBudget.Expr.Parser
import ErrorBudget.Expr.Printer
import ErrorBudget.Expr.Reading
import ErrorBudget.Expr.Value
import ErrorBudget.Func
import ErrorBudget.Jacobian
import ErrorBudget.Limits
import ErrorBudget.Mat.Basic
import ErrorBudget.Mat.Inverse
import ErrorBudget.Names
import ErrorBudget.Partition
import ErrorBudget.Pipeline
import ErrorBudget.Proofs.Definition
import ErrorBudget.Proofs.Definition.Composition
import ErrorBudget.Proofs.Derivative.Dependence
import ErrorBudget.Proofs.Derivative.Exact
import ErrorBudget.Proofs.Derivative.Growth
import ErrorBudget.Proofs.Derivative.Leaves
import ErrorBudget.Proofs.Double.Arithmetic
import ErrorBudget.Proofs.Double.Integers
import ErrorBudget.Proofs.Double.Packing
import ErrorBudget.Proofs.Double.Rounding
import ErrorBudget.Proofs.Double.Sums
import ErrorBudget.Proofs.Double.Undefined
import ErrorBudget.Proofs.Double.Zero
import ErrorBudget.Proofs.Equation.Twin
import ErrorBudget.Proofs.EquationSet.InPlace
import ErrorBudget.Proofs.EquationSet.Invariant
import ErrorBudget.Proofs.EquationSet.Limits
import ErrorBudget.Proofs.EquationSet.Loading
import ErrorBudget.Proofs.EquationSet.Replacements
import ErrorBudget.Proofs.EquationSet.Steps
import ErrorBudget.Proofs.EquationSet.Stored
import ErrorBudget.Proofs.EquationSet.WellFormed
import ErrorBudget.Proofs.Exact.Elimination
import ErrorBudget.Proofs.Exact.Func
import ErrorBudget.Proofs.Exact.Inversion
import ErrorBudget.Proofs.Exact.Invertible
import ErrorBudget.Proofs.Exact.Matrix
import ErrorBudget.Proofs.Exact.Propagation
import ErrorBudget.Proofs.Exact.Rewriting
import ErrorBudget.Proofs.Exact.Scalar
import ErrorBudget.Proofs.Expr.Tree
import ErrorBudget.Proofs.Expr.Tree.Derivative
import ErrorBudget.Proofs.Expr.Tree.Reading
import ErrorBudget.Proofs.Expr.Tree.Variables
import ErrorBudget.Proofs.Jacobian
import ErrorBudget.Proofs.Monotonicity
import ErrorBudget.Proofs.Outcome
import ErrorBudget.Proofs.Parser.Equation
import ErrorBudget.Proofs.Parser.Grammar
import ErrorBudget.Proofs.Parser.Names
import ErrorBudget.Proofs.Parser.Nesting
import ErrorBudget.Proofs.Parser.Places
import ErrorBudget.Proofs.Parser.Progress
import ErrorBudget.Proofs.Parser.Steps
import ErrorBudget.Proofs.Pipeline.Chain
import ErrorBudget.Proofs.Pipeline.Solve
import ErrorBudget.Proofs.Pipeline.Split
import ErrorBudget.Proofs.Printing.Lexing
import ErrorBudget.Proofs.Printing.Meaning
import ErrorBudget.Proofs.Printing.Number
import ErrorBudget.Proofs.Printing.Rereading
import ErrorBudget.Proofs.Printing.RoundTrip
import ErrorBudget.Proofs.Printing.Spelling
import ErrorBudget.Proofs.Propagation
import ErrorBudget.Proofs.Quadrature
import ErrorBudget.Proofs.Renaming
import ErrorBudget.Proofs.Solver.Assembly
import ErrorBudget.Proofs.Solver.Checked
import ErrorBudget.Proofs.Solver.Combo
import ErrorBudget.Proofs.Solver.Completeness
import ErrorBudget.Proofs.Solver.Determinacy
import ErrorBudget.Proofs.Solver.Deviations
import ErrorBudget.Proofs.Solver.Diagnosis
import ErrorBudget.Proofs.Solver.Finiteness
import ErrorBudget.Proofs.Solver.Functions
import ErrorBudget.Proofs.Solver.Inputs
import ErrorBudget.Proofs.Solver.Split
import ErrorBudget.Proofs.Solver.Steps
import ErrorBudget.Proofs.Solver.Twins
import ErrorBudget.Proofs.Substitution
import ErrorBudget.Proofs.Text.Lines
import ErrorBudget.Proofs.Token.Longest
import ErrorBudget.Proofs.Token.Munch
import ErrorBudget.Proofs.Token.Places
import ErrorBudget.Proofs.Token.Separation
import ErrorBudget.Proofs.Token.Steps
import ErrorBudget.Proofs.Undefined
import ErrorBudget.Proofs.Value
import ErrorBudget.Proofs.WorstCase
import ErrorBudget.Propagation
import ErrorBudget.Scalar
import ErrorBudget.Solver
import ErrorBudget.Table
import ErrorBudget.Table.Exchange
import ErrorBudget.Table.Text
import ErrorBudget.Text.Blank
import ErrorBudget.Text.Columns
import ErrorBudget.Text.Hidden
import ErrorBudget.Text.Index
import ErrorBudget.Text.Quoted
import ErrorBudget.Text.Span
import ErrorBudget.Token
import ErrorBudget.Token.Lexer
import ErrorBudget.Validation
