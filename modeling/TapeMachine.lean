import TapeMachine.CommandLine.Program
import TapeMachine.Description.Reader
import TapeMachine.Description.Writer
import TapeMachine.Execution
import TapeMachine.Library
import TapeMachine.Machine.Build
import TapeMachine.Main
import TapeMachine.Proofs.Description.RoundTrip
import TapeMachine.Proofs.Json.Records
import TapeMachine.Proofs.Json.Strings
import TapeMachine.Proofs.Json.Values
import TapeMachine.Proofs.Key
import TapeMachine.Proofs.Record
import TapeMachine.Proofs.Resumption
import TapeMachine.Proofs.Table
import TapeMachine.Proofs.Tape.History
import TapeMachine.Proofs.Textbook
import TapeMachine.Proofs.Trajectory
import TapeMachine.Validation
import TapeMachine.Proofs.Machine.Build
import TapeMachine.Proofs.Machine.Violation
import TapeMachine.Proofs.Machine.Describe
import TapeMachine.Proofs.Validation.Soundness
import TapeMachine.Proofs.LiveStates
import TapeMachine.Proofs.Periodicity
import TapeMachine.Proofs.Description.Document
import TapeMachine.Proofs.Machine.Repetition
import TapeMachine.Proofs.Machine.Saved
import TapeMachine.Proofs.Lockstep
import TapeMachine.Proofs.Tape.Extent
import TapeMachine.Proofs.Relabeling
import TapeMachine.Proofs.Mirror
import TapeMachine.Proofs.CommandLine.Arguments
import TapeMachine.Proofs.Journal
import TapeMachine.Proofs.CommandLine.Flags
import TapeMachine.Proofs.Ascending
import TapeMachine.Proofs.Validation.Search
import TapeMachine.Proofs.LightCone
import TapeMachine.Proofs.Validation.Defects
import TapeMachine.Proofs.Passage
import TapeMachine.Proofs.Library.Catalogue
import TapeMachine.Proofs.Library.BinaryIncrement
import TapeMachine.Proofs.Tape.Observers
import TapeMachine.Proofs.Tape.Rendering
import TapeMachine.Proofs.Library.Sweeping
import TapeMachine.Proofs.Library.Builtins
import TapeMachine.Proofs.Json.Spans
import TapeMachine.Proofs.Json.Tokens
import TapeMachine.Proofs.Description.Edits
import TapeMachine.Proofs.Machine.Keys
import TapeMachine.Proofs.Machine.Rows
import TapeMachine.Proofs.Trace
