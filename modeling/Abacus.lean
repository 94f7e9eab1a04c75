import Abacus.Command
import Abacus.Command.Arguments
import Abacus.Command.Count
import Abacus.Diagnostic
import Abacus.Diagnostic.Locate
import Abacus.Diagnostic.Render
import Abacus.Eval
import Abacus.Eval.Arithmetic
import Abacus.Eval.Error
import Abacus.Eval.Interpret
import Abacus.Expr
import Abacus.Expr.Print
import Abacus.Fault
import Abacus.Files
import Abacus.Log
import Abacus.Main
import Abacus.Number.Binary64
import Abacus.Number.Decimal
import Abacus.Number.Text
import Abacus.Parse
import Abacus.Parse.Cursor
import Abacus.Parse.Grammar
import Abacus.Parse.Rule
import Abacus.Path
import Abacus.Problem
import Abacus.Program
import Abacus.Release
import Abacus.Scope
import Abacus.Scope.Script
import Abacus.Session
import Abacus.Session.History
import Abacus.Session.Line
import Abacus.Settings
import Abacus.Text.Blank
import Abacus.Text.Columns
import Abacus.Text.Digit
import Abacus.Text.Integer
import Abacus.Text.LowerCase
import Abacus.Text.Printable
import Abacus.Text.Quoted
import Abacus.Text.Ranges
import Abacus.Text.Tabs
import Abacus.Token
import Abacus.Token.Scan
import Abacus.Proofs.Grammar
import Abacus.Proofs.Soundness
import Abacus.Proofs.Completeness
import Abacus.Proofs.Number
import Abacus.Proofs.Scan
import Abacus.Proofs.RoundTrip
import Abacus.Proofs.FirstError
import Abacus.Proofs.Arithmetic
import Abacus.Proofs.Semantics
import Abacus.Proofs.Refinement
import Abacus.Proofs.Ceiling
import Abacus.Proofs.Reentry
import Abacus.Proofs.Tiling
import Abacus.Proofs.Closedness
import Abacus.Proofs.Safety
import Abacus.Proofs.Layout
import Abacus.Proofs.Termination
import Abacus.Proofs.Indifference
import Abacus.Proofs.WellFormed
import Abacus.Proofs.Brackets
import Abacus.Proofs.Spans
import Abacus.Proofs.Excerpts
import Abacus.Proofs.Frame
import Abacus.Proofs.Wording
import Abacus.Proofs.Alignment
import Abacus.Proofs.Testimony
import Abacus.Proofs.Nesting
import Abacus.Proofs.Rounding
import Abacus.Proofs.Shortest
import Abacus.Proofs.Numeral
import Abacus.Proofs.Retyping
import Abacus.Proofs.Separation
import Abacus.Proofs.Coordinates
import Abacus.Proofs.Blocks
import Abacus.Proofs.Storage
import Abacus.Proofs.Independence
import Abacus.Proofs.CursorUse
import Abacus.Proofs.DepthSetting
