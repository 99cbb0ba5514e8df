import Simt.Main
import Simt.Proofs.Config.File
import Simt.Proofs.Demo
import Simt.Proofs.Device
import Simt.Proofs.Dim3
import Simt.Proofs.Dim3.Walk
import Simt.Proofs.Json.Codec
import Simt.Proofs.Json.Model
import Simt.Proofs.Json.Number
import Simt.Proofs.Json.Record
import Simt.Proofs.Json.Text
import Simt.Proofs.Kernel
import Simt.Proofs.Kernel.Enumeration
import Simt.Proofs.Kernel.Formation
import Simt.Proofs.Kernel.Pieces
import Simt.Proofs.Launch.Admission
import Simt.Proofs.Launch.Ahead
import Simt.Proofs.Launch.Barriers
import Simt.Proofs.Launch.Block
import Simt.Proofs.Launch.Calls
import Simt.Proofs.Launch.Contexts
import Simt.Proofs.Launch.Course
import Simt.Proofs.Launch.Coverage
import Simt.Proofs.Launch.Delivery
import Simt.Proofs.Launch.Foreign
import Simt.Proofs.Launch.History
import Simt.Proofs.Launch.Hook
import Simt.Proofs.Launch.Independence
import Simt.Proofs.Launch.Issue
import Simt.Proofs.Launch.Locality
import Simt.Proofs.Launch.Refusal
import Simt.Proofs.Launch.Rejection
import Simt.Proofs.Launch.Safety
import Simt.Proofs.Launch.Schedule
import Simt.Proofs.Launch.Snapshots
import Simt.Proofs.Launch.Statistics
import Simt.Proofs.Launch.Totals
import Simt.Proofs.Launch.Transcript
import Simt.Proofs.Launch.Twins
import Simt.Proofs.Mask
import Simt.Proofs.Mask.Lanes
import Simt.Proofs.Numeral
import Simt.Proofs.Numeral.Reading
import Simt.Proofs.Slot
import Simt.Proofs.Slot.Custody
import Simt.Proofs.Slot.Parked
import Simt.Proofs.Slot.Pool
import Simt.Proofs.Slot.Recycled
import Simt.Proofs.Slot.Reuse
import Simt.Proofs.Slot.Text
import Simt.Proofs.Sm.Ahead
import Simt.Proofs.Sm.Capacity
import Simt.Proofs.Sm.Exited
import Simt.Proofs.Sm.Foreign
import Simt.Proofs.Sm.Hosting
import Simt.Proofs.Sm.Interleaving
import Simt.Proofs.Sm.Lifetime
import Simt.Proofs.Sm.Progress
import Simt.Proofs.Sm.Release
import Simt.Proofs.Snapshot.File
import Simt.Proofs.Snapshot.Replacement
