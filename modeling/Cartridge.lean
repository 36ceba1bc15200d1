import Cartridge.Address
import Cartridge.Analysis
import Cartridge.Ascending
import Cartridge.Board
import Cartridge.Checksum
import Cartridge.Detection
import Cartridge.Error
import Cartridge.Event
import Cartridge.Header
import Cartridge.Image
import Cartridge.Instruction
import Cartridge.Instruction.Decode
import Cartridge.Interrupt
import Cartridge.Issue
import Cartridge.Json.Document
import Cartridge.Json.Numeral
import Cartridge.Json.Token
import Cartridge.Json.Value
import Cartridge.Layout
import Cartridge.Opcode.Matrix
import Cartridge.Opcode.Mnemonic
import Cartridge.Opcode.Mode
import Cartridge.Options
import Cartridge.Options.Reader
import Cartridge.Processor
import Cartridge.Processor.Advance
import Cartridge.Profile
import Cartridge.Proofs.Agreement
import Cartridge.Proofs.Analysis.Accounting
import Cartridge.Proofs.Analysis.Branches
import Cartridge.Proofs.Analysis.Budget
import Cartridge.Proofs.Analysis.Closure
import Cartridge.Proofs.Analysis.Entrance
import Cartridge.Proofs.Analysis.Isolation
import Cartridge.Proofs.Analysis.Ledger
import Cartridge.Proofs.Analysis.Limit
import Cartridge.Proofs.Analysis.Ownership
import Cartridge.Proofs.Analysis.Provenance
import Cartridge.Proofs.Analysis.Recursive
import Cartridge.Proofs.Analysis.References
import Cartridge.Proofs.Analysis.Seeding
import Cartridge.Proofs.Analysis.Soundness
import Cartridge.Proofs.Analysis.Termination
import Cartridge.Proofs.Ascending
import Cartridge.Proofs.BankWindow
import Cartridge.Proofs.Branches
import Cartridge.Proofs.Counting
import Cartridge.Proofs.Flow
import Cartridge.Proofs.Guarded.Analysis
import Cartridge.Proofs.Guarded.Instruction
import Cartridge.Proofs.Guarded.Listing
import Cartridge.Proofs.Guarded.Operation
import Cartridge.Proofs.Guarded.Profile
import Cartridge.Proofs.Guarded.Region
import Cartridge.Proofs.Guarded.Routine
import Cartridge.Proofs.Guarded.Stage
import Cartridge.Proofs.Guarded.Survey
import Cartridge.Proofs.Guarded.Trace
import Cartridge.Proofs.Guarded.Walk
import Cartridge.Proofs.Guarded.Wiring
import Cartridge.Proofs.Ownership
import Cartridge.Proofs.Partition
import Cartridge.Proofs.Passage
import Cartridge.Proofs.Reachability
import Cartridge.Proofs.References
import Cartridge.Proofs.Routine
import Cartridge.Proofs.Straight
import Cartridge.Proofs.Survey.Agreement
import Cartridge.Proofs.Survey.Budget
import Cartridge.Proofs.Survey.Course
import Cartridge.Proofs.Survey.Entrance
import Cartridge.Proofs.Survey.Harvest
import Cartridge.Proofs.Survey.Ledger
import Cartridge.Proofs.Survey.Merge
import Cartridge.Proofs.Survey.Pairing
import Cartridge.Proofs.Survey.Placement
import Cartridge.Proofs.Survey.Provenance
import Cartridge.Proofs.Survey.Seeding
import Cartridge.Proofs.Survey.Termination
import Cartridge.Proofs.Termination
import Cartridge.Proofs.Tiling
import Cartridge.Proofs.Trace
import Cartridge.Proofs.Transfers
import Cartridge.Proofs.Walk
import Cartridge.Region
import Cartridge.Report.Document
import Cartridge.Report.Format
import Cartridge.Report.Listing
import Cartridge.Routine
import Cartridge.Span
import Cartridge.Survey
import Cartridge.Sweep
import Cartridge.Text.Blank
import Cartridge.Text.Choice
import Cartridge.Text.Hex
import Cartridge.Text.Shortest
import Cartridge.Tiling
import Cartridge.Trace
import Cartridge.Walk
import Cartridge.Wiring
import Cartridge.Proofs.Bisection
import Cartridge.Proofs.Mirrors
import Cartridge.Proofs.Analysis.Names
import Cartridge.Proofs.Assembler
import Cartridge.Proofs.DataBank
import Cartridge.Proofs.Listing
import Cartridge.Proofs.Analysis.Listing
import Cartridge.Proofs.Pointers
import Cartridge.Proofs.Tracking
import Cartridge.Proofs.Prefix
import Cartridge.Proofs.Walker
import Cartridge.Proofs.Decode
import Cartridge.Proofs.Displacement
import Cartridge.Proofs.BankTable
import Cartridge.Proofs.ProcessorState
import Cartridge.Proofs.SavedWidths
import Cartridge.Proofs.Analysis.Guess
import Cartridge.Proofs.Detection
import Cartridge.Proofs.Checksum
import Cartridge.Proofs.Survey.Origin
import Cartridge.Proofs.Analysis.Trampolines
import Cartridge.Proofs.Selection
import Cartridge.Proofs.Windows
import Cartridge.Proofs.Numeral
import Cartridge.Proofs.Spelling
import Cartridge.Proofs.Analysis.Coverage
