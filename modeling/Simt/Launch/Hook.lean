-- What the caller of a launch sees and does. The hook runs once for each issued
-- warp instruction, before parked work is delivered. It has a state of its own, may
-- change the slot, and may look at the folder of snapshots. Parked work is a value,
-- and the hook says what the delivery of it does to its state.
import Simt.Dim3
import Simt.Folder
import Simt.Slot

namespace Simt

/-- Where an issued warp instruction comes from. -/
structure IssueContext where
  /-- The id of the SM. -/
  sm : Nat
  cta : Dim3
  /-- The number of the block in the grid. -/
  ctaIndex : UInt32
  warp : UInt32
  /-- The number in its block of the thread on each lane that has one. -/
  threads : List UInt32
  block : Dim3
  cycle : UInt64
  deriving DecidableEq

/-- The number of the thread on a lane in the whole grid: the threads of the blocks before,
and then its number in the block. -/
def IssueContext.globalId (ctx : IssueContext) (lane : Nat) : Outcome UInt64 := do
  let size ← ctx.block.size
  let before ← Word.mul64 ctx.ctaIndex.toUInt64 size
  match ctx.threads[lane]? with
  | none => .error (.outOfBounds ctx.threads.length lane)
  | some thread => Word.add64 before thread.toUInt64

/-- A hook with a state of type `σ`, which parks work of type `α`. -/
structure Hook (σ α : Type) where
  issue : Folder → σ → Slot α → IssueContext → Outcome (σ × Slot α)
  deliver : σ → α → Instruction → σ

/-- The hook that does nothing. -/
def Hook.idle {σ α : Type} : Hook σ α where
  issue _ host slot _ := .ok (host, slot)
  deliver host _ _ := host

end Simt
