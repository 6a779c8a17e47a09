import TapeMachine.Action
import TapeMachine.CommandLine.Options
import TapeMachine.CommandLine.Response
import TapeMachine.Config
import TapeMachine.Description.Fault
import TapeMachine.Description.File
import TapeMachine.Description.Layout
import TapeMachine.Description.Load
import TapeMachine.Description.Marker
import TapeMachine.Description.Print
import TapeMachine.Description.Statement
import TapeMachine.Description.Token
import TapeMachine.FileTree
import TapeMachine.Gallery
import TapeMachine.Input
import TapeMachine.Json.Codec
import TapeMachine.Json.Reader
import TapeMachine.Json.Value
import TapeMachine.Json.Writer
import TapeMachine.Main
import TapeMachine.Proofs.Bounds
import TapeMachine.Proofs.Calls
import TapeMachine.Proofs.CommandLine.Answers
import TapeMachine.Proofs.Description.Classify
import TapeMachine.Proofs.Description.Drafts
import TapeMachine.Proofs.Description.FaultLines
import TapeMachine.Proofs.Description.Files
import TapeMachine.Proofs.Description.MarkerOrder
import TapeMachine.Proofs.Description.Meaning
import TapeMachine.Proofs.Description.Reading
import TapeMachine.Proofs.Description.RoundTrip
import TapeMachine.Proofs.Description.Splitting
import TapeMachine.Proofs.Description.Variants
import TapeMachine.Proofs.Description.Words
import TapeMachine.Proofs.Gallery.Palindrome
import TapeMachine.Proofs.Gallery.Source
import TapeMachine.Proofs.Gallery.Successor
import TapeMachine.Proofs.Gallery.UnaryAddition
import TapeMachine.Proofs.Grammar.Layout
import TapeMachine.Proofs.Grammar.Peg
import TapeMachine.Proofs.Grammar.Reader
import TapeMachine.Proofs.Grammar.Rules
import TapeMachine.Proofs.Json.Literals
import TapeMachine.Proofs.Json.Reading
import TapeMachine.Proofs.Json.Reports
import TapeMachine.Proofs.Modes
import TapeMachine.Proofs.Falls
import TapeMachine.Proofs.Reaches
import TapeMachine.Proofs.Renaming
import TapeMachine.Proofs.Scene
import TapeMachine.Proofs.StepCount
import TapeMachine.Proofs.TapeContent
import TapeMachine.Proofs.TapeReading
import TapeMachine.Proofs.Text.ByteOrder
import TapeMachine.Proofs.Text.Lines
import TapeMachine.Proofs.Text.Runs
import TapeMachine.Proofs.Text.Trim
import TapeMachine.Proofs.Textbook
import TapeMachine.Proofs.Tracing
import TapeMachine.Proofs.Unguarded
import TapeMachine.Rules
import TapeMachine.Run
import TapeMachine.Spec
import TapeMachine.Steps
import TapeMachine.Tape
import TapeMachine.Text.Decimal
import TapeMachine.Text.Lines
import TapeMachine.Text.Printable
import TapeMachine.Text.Quoted
import TapeMachine.Text.WhiteSpace
import TapeMachine.Trace
import TapeMachine.Proofs.Agreement
import TapeMachine.Proofs.Wall
import TapeMachine.Proofs.Locality
import TapeMachine.Proofs.Display
import TapeMachine.Proofs.Recurrence
import TapeMachine.Proofs.InputReading
import TapeMachine.Proofs.Caret
import TapeMachine.Proofs.TraceBlocks
import TapeMachine.Proofs.Worded
import TapeMachine.Proofs.CommandLine.PlainAnswer
import TapeMachine.Proofs.Replay
import TapeMachine.Proofs.HaltingRules
import TapeMachine.Proofs.Rows
import TapeMachine.Proofs.Description.RowLoading
import TapeMachine.Proofs.Json.Lossless
import TapeMachine.Proofs.TapeEdits
import TapeMachine.Proofs.Grammar.Entries
