import Abacus.Text.Ranges
import Abacus.Text.Blank
import Abacus.Text.Alphabetic
import Abacus.Text.Numeric
import Abacus.Text.Unprintable
import Abacus.Text.Utf8
import Abacus.Text.Quoted
import Abacus.Text.Line
import Abacus.Decimal.Binary64
import Abacus.Decimal.Shortest
import Abacus.Decimal.Layout
import Abacus.Decimal.Numeral
import Abacus.Attempt
import Abacus.Position
import Abacus.Token
import Abacus.Fault
import Abacus.Token.Cursor
import Abacus.Token.Lexer
import Abacus.Program.Basic
import Abacus.Program.Printer
import Abacus.Program.Parser.Basic
import Abacus.Program.Parser.Expr
import Abacus.Program.Parser.Stmt
import Abacus.Program.Parser.Lemmas
import Abacus.Scope.Tree
import Abacus.Scope.Check
import Abacus.Value
import Abacus.Environment
import Abacus.Evaluation
import Abacus.Run
import Abacus.Report
import Abacus.CommandLine.Path
import Abacus.CommandLine.Options
import Abacus.CommandLine.Session
import Abacus.Main
import Abacus.Proofs.Grammar.Basic
import Abacus.Proofs.Grammar.Unambiguous
import Abacus.Proofs.Reading.Stream
import Abacus.Proofs.Reading.Outcome
import Abacus.Proofs.Reading.Productions
import Abacus.Proofs.Reading.Exactness
import Abacus.Proofs.Writing.Spelling
import Abacus.Proofs.Writing.Writable
import Abacus.Proofs.Safety.Binding
import Abacus.Proofs.Writing.RoundTrip
import Abacus.Proofs.Lexing.Segmentation
import Abacus.Proofs.Writing.Range
import Abacus.Proofs.Running.Types
import Abacus.Proofs.Safety.Stores
import Abacus.Proofs.Lexing.Lexemes
import Abacus.Proofs.Running.Flatten
import Abacus.Proofs.Scopes.Nesting
import Abacus.Proofs.Lexing.Watching
import Abacus.Proofs.Reading.Calls
import Abacus.Proofs.Reading.Layout
import Abacus.Proofs.CommandLine.Echo
import Abacus.Proofs.Running.Bindings
import Abacus.Proofs.Scopes.History
import Abacus.Proofs.Scopes.Excursion
import Abacus.Proofs.Scopes.Shadowing
import Abacus.Proofs.Lexing.Concatenation
import Abacus.Proofs.Scopes.Declaring
import Abacus.Proofs.Running.Stopping
import Abacus.Proofs.Running.Places
import Abacus.Proofs.Lexing.Literals
import Abacus.Proofs.Reports.Lines
import Abacus.Proofs.Reports.Carets
import Abacus.Proofs.CommandLine.Arguments
import Abacus.Proofs.Lexing.Stability
import Abacus.Proofs.Reading.Routines
import Abacus.Proofs.Reading.Progress
import Abacus.Proofs.Numbers.Doubles
import Abacus.Proofs.Numbers.Integers
