-- A kernel launch as a source of work. The enumerator remembers the next block of
-- the grid and the next thread of that block, and hands them out one after the
-- other, x fastest. A kernel may be unbound: then it has no entry point and no
-- work.
import Simt.Dim3
import Simt.Text.Quoted

namespace Simt

/-- A kernel's entry point, as a program loader knows it. -/
structure KernelEntry where
  name : String
  /-- The size of the code in bytes. -/
  codeSize : UInt64
  deriving DecidableEq

structure Kernel where
  entry : Option KernelEntry
  grid : Dim3
  block : Dim3
  /-- The next block to hand out. -/
  nextCta : Dim3
  /-- The next thread of that block. -/
  nextThread : Dim3
  deriving DecidableEq

namespace Kernel

/-- A kernel with no entry point and nothing to do. -/
def unbound : Kernel := ⟨none, .zero, .zero, .zero, .zero⟩

/-- A kernel at the start of its work. -/
def bind (grid block : Dim3) (entry : KernelEntry) : Kernel :=
  ⟨some entry, grid, block, .zero, .zero⟩

def bound (k : Kernel) : Bool := k.entry.isSome

def name (k : Kernel) : String :=
  match k.entry with
  | some entry => entry.name
  | none => "<none>"

def numBlocks (k : Kernel) : Outcome UInt64 := k.grid.size

def threadsPerCta (k : Kernel) : Outcome UInt64 := k.block.size

/-! ## The blocks of the grid -/

/-- Every block was handed out. One finished axis is enough, so a grid with an empty axis
is done from the start. -/
def ctasDone (k : Kernel) : Bool := !k.nextCta.inside k.grid

/-- Goes on to the next block and to its first thread. -/
def advanceCta (k : Kernel) : Outcome Kernel := do
  let nextCta ← k.nextCta.next k.grid
  return { k with nextCta, nextThread := .zero }

/-- The number of the next block. -/
def nextCtaIndex (k : Kernel) : Outcome UInt64 := k.nextCta.index k.grid

/-- Hands out up to `limit` blocks, each with its number. -/
def takeCtas (limit : Nat) (k : Kernel) : Outcome (List (UInt64 × Dim3) × Kernel) :=
  go limit [] k
where
  /-- The blocks that were handed out before stand in `taken`, the last one first. -/
  go : Nat → List (UInt64 × Dim3) → Kernel → Outcome (List (UInt64 × Dim3) × Kernel)
    | 0, taken, k => .ok (taken.reverse, k)
    | limit + 1, taken, k =>
      if k.ctasDone then .ok (taken.reverse, k)
      else do
        let index ← k.nextCtaIndex
        let following ← k.advanceCta
        go limit ((index, k.nextCta) :: taken) following

/-! ## The threads of a block -/

/-- The block has a thread that was not handed out. -/
def hasThreads (k : Kernel) : Bool := k.nextThread.inside k.block

/-- Goes on to the next thread of the block. -/
def advanceThread (k : Kernel) : Outcome Kernel := do
  let nextThread ← k.nextThread.next k.block
  return { k with nextThread }

/-- The number of the next thread in its block, modulo 2^32. -/
def nextThreadIndex (k : Kernel) : UInt32 := k.nextThread.wrappedIndex k.block

/-- Hands out the numbers of up to `limit` threads of the block. -/
def takeThreads (limit : Nat) (k : Kernel) : Outcome (List UInt32 × Kernel) :=
  go limit [] k
where
  /-- The threads that were handed out before stand in `taken`, the last one first. -/
  go : Nat → List UInt32 → Kernel → Outcome (List UInt32 × Kernel)
    | 0, taken, k => .ok (taken.reverse, k)
    | limit + 1, taken, k =>
      if k.hasThreads then do
        let following ← k.advanceThread
        go limit (k.nextThreadIndex :: taken) following
      else .ok (taken.reverse, k)

/-! ## A listing of the fields -/

def listing (k : Kernel) : String :=
  "KernelInfo \x7b valid: " ++ (if k.bound then "true" else "false") ++
    ", entry: " ++ Text.quoted k.name ++
    ", grid_dim: " ++ k.grid.listing ++ ", block_dim: " ++ k.block.listing ++
    ", next_cta: " ++ k.nextCta.listing ++ ", next_tid: " ++ k.nextThread.listing ++ " \x7d"

end Kernel

end Simt
