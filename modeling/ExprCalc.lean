import ExprCalc.Text.Lemmas
import ExprCalc.File.Search
import ExprCalc.TestCase
import ExprCalc.Main
import ExprCalc.Proofs.Parser.Grammar
import ExprCalc.Proofs.Parser.Step
import ExprCalc.Proofs.Parser.Accepted
import ExprCalc.Proofs.Scanner.Trivia
import ExprCalc.Proofs.Scanner.Lexeme
import ExprCalc.Proofs.Scanner.Longest
import ExprCalc.Proofs.Number.Numeral
import ExprCalc.Proofs.Scanner.Munch
import ExprCalc.Proofs.Scanner.Cover
import ExprCalc.Proofs.Parser.Demand
import ExprCalc.Proofs.Run.ScanErrors
import ExprCalc.Proofs.Eval.Kinds
import ExprCalc.Proofs.Scanner.Place
import ExprCalc.Proofs.Parser.Bookkeeping
import ExprCalc.Proofs.Parser.FirstError
import ExprCalc.Proofs.Eval.Postfix
import ExprCalc.Proofs.Parser.Lockstep
import ExprCalc.Proofs.Scanner.Listing
import ExprCalc.Proofs.Run.Report
import ExprCalc.Proofs.Parser.Simulation
import ExprCalc.Proofs.Run.Parsed
import ExprCalc.Proofs.Run.Trace
import ExprCalc.Proofs.Scanner.Boundary
import ExprCalc.Proofs.Run.Layout
import ExprCalc.Proofs.Number.Interval
import ExprCalc.Proofs.Number.Written
import ExprCalc.Proofs.Text.Quoted
import ExprCalc.Proofs.Run.TreeText
import ExprCalc.Proofs.Text.Unquoted
import ExprCalc.Proofs.Scanner.Payload
import ExprCalc.Proofs.Parser.Finality
import ExprCalc.Proofs.Parser.Weight
import ExprCalc.Proofs.Parser.Termination
import ExprCalc.Proofs.Session.LineByLine
import ExprCalc.Proofs.Parser.ListEnd
import ExprCalc.Proofs.Number.Order
import ExprCalc.Proofs.Eval.Comparison
import ExprCalc.Proofs.Text.Separators
