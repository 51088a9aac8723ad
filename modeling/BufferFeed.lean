import BufferFeed.Bytes
import BufferFeed.Text.Hex
import BufferFeed.Text.Quoted
import BufferFeed.Text.Decimal
import BufferFeed.Handle
import BufferFeed.Failure
import BufferFeed.IntRange
import BufferFeed.Source.Keystream
import BufferFeed.Source
import BufferFeed.Feed
import BufferFeed.SlotTable
import BufferFeed.Shelf
import BufferFeed.Custody
import BufferFeed.Boundary.Jvm
import BufferFeed.Boundary.Record
import BufferFeed.Boundary.Act
import BufferFeed.Boundary.Direct
import BufferFeed.Boundary.CSurface
import BufferFeed.Boundary.JavaSurface
import BufferFeed.Boundary.Program
import BufferFeed.Survey.Request
import BufferFeed.Survey.Tally
import BufferFeed.Survey.Report
import BufferFeed.Main
import BufferFeed.Proofs.SlotTable.Slotwise
import BufferFeed.Proofs.SlotTable.WellFormed
import BufferFeed.Proofs.SlotTable.Run
import BufferFeed.Proofs.Notation
import BufferFeed.Proofs.SlotTable.Dictionary
import BufferFeed.Proofs.Feed.Reading
import BufferFeed.Proofs.Feed.Making
import BufferFeed.Proofs.Text.Decimal
import BufferFeed.Proofs.Text.Hex
import BufferFeed.Proofs.Survey.CommandLine
import BufferFeed.Proofs.Survey.Accounts
import BufferFeed.Proofs.Custody.SinglePass
import BufferFeed.Proofs.Shelf.Contents
import BufferFeed.Proofs.SlotTable.Holdings
import BufferFeed.Proofs.SlotTable.Ledger
import BufferFeed.Proofs.SlotTable.Peak
import BufferFeed.Proofs.SlotTable.Numbering
import BufferFeed.Proofs.Boundary.Demand
import BufferFeed.Proofs.Boundary.Acts
import BufferFeed.Proofs.Boundary.Plan
import BufferFeed.Proofs.Boundary.Direct
import BufferFeed.Proofs.Boundary.CSurface
import BufferFeed.Proofs.Boundary.Loop
import BufferFeed.Proofs.Boundary.Drain
import BufferFeed.Proofs.Boundary.JavaSurface
import BufferFeed.Proofs.Boundary.Steps
import BufferFeed.Proofs.Boundary.History
import BufferFeed.Proofs.Boundary.Pattern
import BufferFeed.Proofs.Boundary.Answers
import BufferFeed.Proofs.Boundary.Revival
import BufferFeed.Proofs.Boundary.Panics
import BufferFeed.Proofs.Boundary.Machine
import BufferFeed.Proofs.Boundary.Reads
import BufferFeed.Proofs.Boundary.Exceptions
import BufferFeed.Proofs.Boundary.Taking
import BufferFeed.Proofs.Boundary.Masking
import BufferFeed.Proofs.Boundary.Delivery
import BufferFeed.Proofs.Boundary.Audit
import BufferFeed.Proofs.Boundary.Shown
import BufferFeed.Proofs.Boundary.Operations
import BufferFeed.Proofs.Boundary.Surfaces
import BufferFeed.Proofs.Boundary.Exhaustion
import BufferFeed.Proofs.Boundary.Copying
import BufferFeed.Proofs.Boundary.Creation
import BufferFeed.Proofs.Boundary.Naming
import BufferFeed.Proofs.Boundary.Locality
import BufferFeed.Proofs.Boundary.Clients
import BufferFeed.Proofs.Boundary.Traceless
import BufferFeed.Proofs.Boundary.Creation
