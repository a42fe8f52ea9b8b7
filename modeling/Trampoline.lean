import Trampoline.Booking.Demo
import Trampoline.Catalogue
import Trampoline.CommandLine
import Trampoline.Main
import Trampoline.RunId
import Trampoline.Scenario.Bench
import Trampoline.Schema.Document
import Trampoline.Proofs.Answers.Fidelity
import Trampoline.Proofs.Custody.Carried
import Trampoline.Proofs.Direct
import Trampoline.Proofs.Suspension
import Trampoline.Proofs.Runs.Dealings
import Trampoline.Proofs.Runs.Limit
import Trampoline.Proofs.Sequential.Performance
import Trampoline.Proofs.Sequential.Resumptions
import Trampoline.Proofs.Sequential.Agreement
import Trampoline.Nested
import Trampoline.Proofs.Nested.Reading
import Trampoline.Proofs.Nested.Polls
import Trampoline.Proofs.Nested.Branches
import Trampoline.Proofs.Nested.Descriptions
import Trampoline.Proofs.Nested.Sequentialised
import Trampoline.Proofs.Dispatch.Passage
import Trampoline.Proofs.Dispatch.Traced
import Trampoline.Proofs.Runs.Strides
import Trampoline.Proofs.Dispatch.Occupancy
import Trampoline.Proofs.Dispatch.Endings
import Trampoline.Proofs.Dispatch.Withdrawal
import Trampoline.Proofs.Runs.Pauses
import Trampoline.Proofs.Runs.Reports
import Trampoline.Proofs.Json.Tokens
import Trampoline.Proofs.Json.Layouts
import Trampoline.Proofs.Json.Reading
import Trampoline.Proofs.Schema.Documents
import Trampoline.Proofs.Schema.Shapes
import Trampoline.Proofs.Ensemble.Isolation
import Trampoline.Proofs.Schema.Violations
import Trampoline.Proofs.Observation.Layers
import Trampoline.Wakeful
import Trampoline.Proofs.Nested.Wakeful
import Trampoline.Proofs.Cells
import Trampoline.Proofs.Booking.Seats
import Trampoline.Proofs.Booking.Decisions
import Trampoline.Proofs.Renderings.Delimited
import Trampoline.Proofs.Renderings.Declared
import Trampoline.Proofs.Json.Sources
import Trampoline.Proofs.Json.Skipping
import Trampoline.Proofs.Json.Literals
import Trampoline.Proofs.Json.Meaning
import Trampoline.Proofs.Json.Decoding
import Trampoline.Proofs.Schema.Spellings
