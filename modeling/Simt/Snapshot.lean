-- Snapshots of a launch in progress. A launch writes one after every block, so a
-- viewer can follow it.
import Simt.Dim3

namespace Simt

structure Snapshot where
  /-- "idle", "running" or "complete". -/
  status : String
  kernelName : String
  grid : Dim3
  block : Dim3
  warpSize : UInt32
  /-- The blocks of the grid. -/
  blocksTotal : UInt32
  /-- The blocks that were executed so far. -/
  blocks : UInt32
  warps : UInt32
  threads : UInt32
  /-- The warp instructions that were issued. -/
  issued : UInt64
  /-- The pieces of parked work that were delivered. -/
  atomics : UInt64
  /-- The blocks that each SM executed, by SM id. -/
  blocksBySm : List UInt32
  /-- The time of the snapshot in milliseconds. -/
  timestamp : UInt64
  deriving DecidableEq

/-- A snapshot of nothing. -/
def Snapshot.blank : Snapshot where
  status := ""
  kernelName := ""
  grid := .zero
  block := .zero
  warpSize := 0
  blocksTotal := 0
  blocks := 0
  warps := 0
  threads := 0
  issued := 0
  atomics := 0
  blocksBySm := []
  timestamp := 0

end Simt
