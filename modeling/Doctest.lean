import Doctest.Main
import Doctest.Proofs.Schedule.Soundness
import Doctest.Proofs.Schedule.Conclusion
import Doctest.Proofs.Schedule.Dealing
import Doctest.Proofs.Schedule.Completeness
import Doctest.Proofs.Schedule.Termination
import Doctest.Proofs.Schedule.WorkerCount
import Doctest.Proofs.Text.Span
import Doctest.Proofs.Text.ExitPhrase
import Doctest.Proofs.Text.ExitGrammar
import Doctest.Proofs.Text.Sequence
import Doctest.Proofs.Text.Escape
import Doctest.Proofs.Text.Stripping
import Doctest.Proofs.Text.Normal
import Doctest.Proofs.Text.Character
import Doctest.Proofs.Text.Utf8
import Doctest.Proofs.Decimal.Integer
import Doctest.Proofs.Decimal.Fraction
import Doctest.Proofs.ReturnSpec.Grammar
import Doctest.Proofs.Document.Marker
import Doctest.Proofs.Document.Values
import Doctest.Proofs.Document.Section
import Doctest.Proofs.Document.Entries
import Doctest.Proofs.Document.RoundTrip
import Doctest.Proofs.Document.Declarations
import Doctest.Proofs.Guest.Laws
import Doctest.Proofs.Guest.Stepwise
import Doctest.Proofs.Guest.Miniature
import Doctest.Proofs.Guest.ExitCode
import Doctest.Proofs.Guest.ExitMessage
import Doctest.Proofs.Guest.Ending
import Doctest.Proofs.Guest.Shape
import Doctest.Proofs.Guest.Buffers
import Doctest.Proofs.Guest.History
import Doctest.Proofs.Guest.Recorded
import Doctest.Proofs.Guest.Streams
import Doctest.Proofs.Schedule.Log
import Doctest.Proofs.Schedule.Cancellation
import Doctest.Proofs.Document.Comment
import Doctest.Proofs.Document.Numbering
import Doctest.Proofs.Document.Block
import Doctest.Proofs.Guest.Frame
import Doctest.Proofs.Guest.Gather
import Doctest.Proofs.Guest.Scatter
import Doctest.Proofs.Judge.LineEnds
import Doctest.Proofs.Judge.Dispatch
import Doctest.Proofs.Guest.StoredString
import Doctest.Proofs.Judge.Returned
import Doctest.Proofs.Schedule.Results
import Doctest.Proofs.Session.Inputs
import Doctest.Proofs.Session.ExitStatus
import Doctest.Proofs.Path.Steps
import Doctest.Proofs.Files.Tree
import Doctest.Proofs.Files.Writing
import Doctest.Proofs.Path.Normal
import Doctest.Proofs.Text.ByteOrder
import Doctest.Proofs.Compiler.Pairing
import Doctest.Proofs.Compiler.Search
import Doctest.Proofs.Document.Layout
import Doctest.Proofs.Document.Slots
import Doctest.Proofs.Text.Quoted
import Doctest.Proofs.Judge.Mismatch
import Doctest.Proofs.Schedule.Partition
import Doctest.Proofs.Settings.Fields
import Doctest.Proofs.Settings.Layers
import Doctest.Proofs.Judge.Calls
import Doctest.Proofs.Schedule.Profile
