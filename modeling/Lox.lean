import Lox.CommandLine
import Lox.Datum.Basic
import Lox.Datum.Equality
import Lox.Datum.Text
import Lox.Diagnostic
import Lox.Document.Dump
import Lox.Document.Line
import Lox.Document.Load
import Lox.Evaluate
import Lox.Execute
import Lox.Files
import Lox.Json.Lexeme
import Lox.Json.Reader
import Lox.Json.Writer
import Lox.Lexicon
import Lox.Main
import Lox.Number.Decimal
import Lox.Number.Shortest
import Lox.Number.Text
import Lox.Operator
import Lox.Options
import Lox.Parse.Partial
import Lox.Parse.Program
import Lox.Scan
import Lox.Session.Basic
import Lox.Session.Delivery
import Lox.Session.Step
import Lox.Source
import Lox.Text.Basic
import Lox.Text.Encoding
import Lox.Text.Newlines
import Lox.Text.Numeral
import Lox.Text.Printable
import Lox.Text.Quoted
import Lox.Text.Utf8
import Lox.Token
import Lox.Trace
import Lox.Tree.Basic
import Lox.Tree.Text
import Lox.Proofs.CommandLine.Arguments
import Lox.Proofs.CommandLine.Documents
import Lox.Proofs.CommandLine.Emission
import Lox.Proofs.CommandLine.Verdict
import Lox.Proofs.Document.Lengths
import Lox.Proofs.Document.Loaded
import Lox.Proofs.Document.Nodes
import Lox.Proofs.Document.Normal
import Lox.Proofs.Document.Range
import Lox.Proofs.Document.RoundTrip
import Lox.Proofs.Document.Schema
import Lox.Proofs.Evaluation.Complaints
import Lox.Proofs.Evaluation.Failure
import Lox.Proofs.Evaluation.Folding
import Lox.Proofs.Evaluation.Kinds
import Lox.Proofs.Evaluation.PostOrder
import Lox.Proofs.Evaluation.Retelling
import Lox.Proofs.Evaluation.Sequence
import Lox.Proofs.Evaluation.Settling
import Lox.Proofs.Evaluation.Value
import Lox.Proofs.Files.Write
import Lox.Proofs.Grammar.Completeness
import Lox.Proofs.Grammar.Derivation
import Lox.Proofs.Grammar.Diagnosis
import Lox.Proofs.Grammar.Frames
import Lox.Proofs.Grammar.Prefixes
import Lox.Proofs.Grammar.Program
import Lox.Proofs.Grammar.Soundness
import Lox.Proofs.Json.Lengths
import Lox.Proofs.Json.Numbers
import Lox.Proofs.Json.RoundTrip
import Lox.Proofs.Json.Strings
import Lox.Proofs.Lexicon.Blanks
import Lox.Proofs.Lexicon.MaximalMunch
import Lox.Proofs.Lexicon.Neighbours
import Lox.Proofs.Lexicon.Terminal
import Lox.Proofs.Number.Division
import Lox.Proofs.Number.Double
import Lox.Proofs.Number.Plain
import Lox.Proofs.Number.Rounding
import Lox.Proofs.Number.Shortest
import Lox.Proofs.Parse.Attempts
import Lox.Proofs.Parse.Faults
import Lox.Proofs.Parse.Isolation
import Lox.Proofs.Parse.Moves
import Lox.Proofs.Parse.Pairing
import Lox.Proofs.Parse.Parts
import Lox.Proofs.Parse.Restart
import Lox.Proofs.Result
import Lox.Proofs.Scan.Joining
import Lox.Proofs.Scan.Pieces
import Lox.Proofs.Scan.Rendering
import Lox.Proofs.Session.Containment
import Lox.Proofs.Session.Course
import Lox.Proofs.Session.Delivery
import Lox.Proofs.Session.Dialogue
import Lox.Proofs.Session.Folding
import Lox.Proofs.Session.History
import Lox.Proofs.Session.Interpretation
import Lox.Proofs.Session.Joining
import Lox.Proofs.Session.Levels
import Lox.Proofs.Session.Succession
import Lox.Proofs.Session.Tracing
import Lox.Proofs.Session.Unit
import Lox.Proofs.Source.Expressions
import Lox.Proofs.Source.Joining
import Lox.Proofs.Source.Labels
import Lox.Proofs.Source.Lines
import Lox.Proofs.Source.Mending
import Lox.Proofs.Source.Numbers
import Lox.Proofs.Source.Parentheses
import Lox.Proofs.Source.Program
import Lox.Proofs.Source.Provenance
import Lox.Proofs.Source.Report
import Lox.Proofs.Source.Texts
import Lox.Proofs.Source.Writing
import Lox.Proofs.Text.Lines
import Lox.Proofs.Text.Numeral
import Lox.Proofs.Text.Utf8
import Lox.Proofs.Tree.Operators
import Lox.Proofs.Tree.Pairing
import Lox.Proofs.Tree.Parts
import Lox.Proofs.Tree.Replacement
import Lox.Proofs.Tree.Shape
