import Semispace.Step
import Semispace.Text.Visible
import Semispace.Text.Quoted
import Semispace.Text.Blank
import Semispace.Text.Json
import Semispace.Text.Record
import Semispace.Text.Utf8
import Semispace.Text.Integer
import Semispace.Decimal.Binary
import Semispace.Decimal.Places
import Semispace.Decimal.Shortest
import Semispace.Decimal.Notation
import Semispace.Word
import Semispace.Config.Basic
import Semispace.Config.Environment
import Semispace.Object.Tag
import Semispace.Heap.Half
import Semispace.Heap.Page
import Semispace.Machine
import Semispace.Heap.Access
import Semispace.Heap.Memory
import Semispace.Heap.Layout
import Semispace.Error
import Semispace.Heap.Arena
import Semispace.Heap.Protection
import Semispace.Heap.Plain
import Semispace.Object.Header
import Semispace.Object.Value
import Semispace.Heap.Cursor
import Semispace.RootStack
import Semispace.Stats
import Semispace.Report.Event
import Semispace.Report.Reason
import Semispace.Report.Notice
import Semispace.Report.Logger
import Semispace.Relocation.Copier
import Semispace.Relocation.Pass
import Semispace.Relocation.Table
import Semispace.Collector.Basic
import Semispace.Collector.Access
import Semispace.Collector.Cycle
import Semispace.Collector.Mutation
import Semispace.Heap.Size
import Semispace.Program
import Semispace.Console
import Semispace.Version
import Semispace.Proofs.Heap.Record
import Semispace.Proofs.Relocation.Word
import Semispace.Proofs.Relocation.Invariant
import Semispace.Proofs.Relocation.Scan
import Semispace.Proofs.Relocation.Complete
import Semispace.Proofs.Collector.Cycle
import Semispace.Proofs.Program.Failure
import Semispace.Proofs.Store.Basic
import Semispace.Proofs.Store.Represents
import Semispace.Proofs.Store.Pass
import Semispace.Proofs.Store.Allocation
import Semispace.Proofs.Store.Operations
import Semispace.Proofs.Store.Phases
import Semispace.Proofs.Store.Run
import Semispace.Proofs.Store.Accounts
import Semispace.Proofs.Relocation.Partial
import Semispace.Proofs.Collector.Passes
import Semispace.Proofs.Collector.Objects
import Semispace.Proofs.Collector.Atomicity
import Semispace.Proofs.Collector.Poisoned
import Semispace.Proofs.Collector.Validity
import Semispace.Proofs.Collector.Stale
import Semispace.Proofs.Collector.Normal
import Semispace.Proofs.Relocation.Isomorphism
import Semispace.Proofs.Collector.Canonical
import Semispace.Proofs.Collector.PastCursor
import Semispace.Proofs.Parcel.Allocation
import Semispace.Proofs.Parcel.Operations
import Semispace.Proofs.Parcel.Run
import Semispace.Proofs.Store.Records
import Semispace.Proofs.Program.Mappings
import Semispace.Proofs.Collector.Trace
import Semispace.Proofs.Collector.Confined
import Semispace.Proofs.Program.Blocks
import Semispace.Proofs.Collector.Elements
import Semispace.Proofs.Collector.Views
import Semispace.Proofs.Heap.Address
import Semispace.Proofs.Relocation.Rounds
import Semispace.Proofs.Relocation.Repeats
import Semispace.Proofs.Collector.Assembly
import Semispace.Proofs.Heap.Guarded
import Semispace.Proofs.Relocation.Transfer
import Semispace.Proofs.Report.History
import Semispace.Proofs.Program.Sizes
import Semispace.Proofs.Text.Numeral
import Semispace.Proofs.Console.Lines
import Semispace.Proofs.Relocation.Turns
import Semispace.Proofs.Relocation.Once
import Semispace.Proofs.Relocation.Memory
