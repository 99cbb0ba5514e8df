-- The warps of a block. The threads of the block are taken in order, and each of them
-- joins the open warp. A warp with as many threads as lanes is full, and the next
-- thread opens another one. The warp that is open at the end may be short.
import Simt.Kernel

namespace Simt

/-- Warps that are being formed: the full ones, and the threads of the open one. -/
structure Forming where
  full : Array (List UInt32)
  lanes : Array UInt32

/-- A thread takes the next lane of the open warp. -/
def Forming.push (warpSize : Nat) (forming : Forming) (thread : UInt32) : Forming :=
  let lanes := forming.lanes.push thread
  if lanes.size = warpSize then ⟨forming.full.push lanes.toList, #[]⟩ else { forming with lanes }

/-- All warps, the open one too if it has a thread. -/
def Forming.flush (forming : Forming) : List (List UInt32) :=
  if forming.lanes.isEmpty then forming.full.toList
  else (forming.full.push forming.lanes.toList).toList

namespace Kernel

/-- Takes up to `limit` threads of the block into warps. -/
def fillWarps (warpSize : Nat) : Nat → Forming → Kernel → Outcome (Forming × Kernel)
  | 0, forming, k => .ok (forming, k)
  | limit + 1, forming, k =>
    if k.hasThreads then do
      let following ← k.advanceThread
      fillWarps warpSize limit (forming.push warpSize k.nextThreadIndex) following
    else .ok (forming, k)

/-- Takes the threads that are left of the block, one list of threads for each warp. -/
def formWarps (k : Kernel) (warpSize : Nat) : Outcome (List (List UInt32) × Kernel) := do
  let (forming, k) ← fillWarps warpSize k.block.volume ⟨#[], #[]⟩ k
  return (forming.flush, k)

end Kernel

end Simt
