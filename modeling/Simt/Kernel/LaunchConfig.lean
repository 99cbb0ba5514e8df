-- What the caller of a launch gives: the extents, the resources that one thread
-- and one block use, and the arguments. The model carries resources and arguments
-- and does not look into them.
import Simt.Kernel

namespace Simt

/-- The resources of a kernel, zero where nothing is known. -/
structure KernelResources where
  /-- Local memory in bytes for each thread. -/
  localBytes : UInt32
  /-- Shared memory in bytes for each block. -/
  sharedBytes : UInt32
  constBytes : UInt32
  /-- Registers for each thread. -/
  registers : UInt32
  ptxVersion : UInt32
  smTarget : UInt32
  deriving DecidableEq

def KernelResources.none : KernelResources := ⟨0, 0, 0, 0, 0, 0⟩

/-- An argument: its bytes, where it has any, and its place among the parameters. -/
structure KernelArg where
  data : Option (List UInt8)
  size : UInt64
  offset : UInt64
  deriving DecidableEq

namespace KernelArg

def absent : KernelArg := ⟨none, 0, 0⟩

def ofBytes (data : List UInt8) (offset : UInt64) : KernelArg :=
  ⟨some data, UInt64.ofNat data.length, offset⟩

end KernelArg

structure LaunchConfig where
  grid : Dim3
  block : Dim3
  resources : KernelResources
  args : List KernelArg
  deriving DecidableEq

namespace LaunchConfig

def new (grid block : Dim3) : LaunchConfig := ⟨grid, block, .none, []⟩

def withResources (c : LaunchConfig) (registers sharedBytes : UInt32) : LaunchConfig :=
  { c with resources := { c.resources with registers, sharedBytes } }

/-- One more argument, placed as it is. -/
def push (c : LaunchConfig) (arg : KernelArg) : LaunchConfig :=
  { c with args := c.args ++ [arg] }

/-- One more argument, placed right after the last one. -/
def withArg (c : LaunchConfig) (data : List UInt8) : Outcome LaunchConfig := do
  let offset ←
    match c.args.getLast? with
    | some last => Word.add64 last.offset last.size
    | none => pure 0
  return c.push (.ofBytes data offset)

def numBlocks (c : LaunchConfig) : Outcome UInt64 := c.grid.size

def threadsPerBlock (c : LaunchConfig) : Outcome UInt64 := c.block.size

/-- The kernel that the launch runs. -/
def kernel (c : LaunchConfig) (entry : KernelEntry) : Kernel := .bind c.grid c.block entry

end LaunchConfig

end Simt
