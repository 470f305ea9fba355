import Calculator.Batch
import Calculator.Binary64.Arithmetic
import Calculator.Binary64.Basic
import Calculator.Binary64.Nearest
import Calculator.Binary64.Word
import Calculator.CommandLine.Input
import Calculator.CommandLine.Program
import Calculator.CommandLine.Request
import Calculator.CommandLine.Run
import Calculator.CommandLine.Switch
import Calculator.Decimal.Basic
import Calculator.Decimal.Layout
import Calculator.Decimal.Reading
import Calculator.Decimal.Shortest
import Calculator.Diagnostic
import Calculator.Directory
import Calculator.Elementary
import Calculator.Evaluator
import Calculator.Fault
import Calculator.Function
import Calculator.Grammar.Denotation
import Calculator.Grammar.Tree
import Calculator.Main
import Calculator.Operator
import Calculator.Reader.Basic
import Calculator.Reader.Expression
import Calculator.Reader.Step
import Calculator.Session
import Calculator.Text.Blank
import Calculator.Text.DecimalDigit
import Calculator.Text.Integer
import Calculator.Text.Lines
import Calculator.Text.Printable
import Calculator.Text.Quoted
import Calculator.Proofs.Levels
import Calculator.Proofs.Follow
import Calculator.Proofs.Completeness
import Calculator.Proofs.Faults
import Calculator.Proofs.Soundness
import Calculator.Proofs.Unambiguous
import Calculator.Proofs.Acceptance
import Calculator.Proofs.Frames
import Calculator.Proofs.Lookahead
import Calculator.Proofs.SyntaxErrors
import Calculator.Proofs.Operations
import Calculator.Proofs.Tracing
import Calculator.Proofs.Finiteness
import Calculator.Proofs.Metering
import Calculator.Proofs.Prefixes
import Calculator.Proofs.Depth
import Calculator.Proofs.Places
import Calculator.Proofs.Layout
import Calculator.Proofs.Positions
import Calculator.Proofs.Cursors
import Calculator.Proofs.Printing
import Calculator.Proofs.Endings
import Calculator.Proofs.Batches
import Calculator.Proofs.Arguments
import Calculator.Proofs.Independence
import Calculator.Proofs.FileFirst
import Calculator.Proofs.Conversation
import Calculator.Proofs.Sessions
import Calculator.Proofs.Causes
import Calculator.Proofs.Writing
import Calculator.Proofs.Carets
import Calculator.Proofs.Positionals
import Calculator.Proofs.Nearest
import Calculator.Proofs.Rounding
import Calculator.Proofs.Figures
import Calculator.Proofs.ReadBack
import Calculator.Proofs.Reading
import Calculator.Proofs.Results
import Calculator.Proofs.Halfway
import Calculator.Proofs.Magnitudes
import Calculator.Proofs.Values
import Calculator.Proofs.Powers
import Calculator.Proofs.Remainders
import Calculator.Proofs.NearestNumber
import Calculator.Proofs.Literals
import Calculator.Proofs.WrittenNumbers
import Calculator.Proofs.SignificantDigits
import Calculator.Proofs.Interrupts
import Calculator.Proofs.Verbosity
import Calculator.Proofs.Embedding
import Calculator.Proofs.Composition
import Calculator.Proofs.Coupling
import Calculator.Proofs.Spellings
import Calculator.Proofs.Stops
import Calculator.Proofs.Shifts
import Calculator.Proofs.Neighbours
import Calculator.Proofs.ShortestText
