-- One instruction, without the lanes that execute it. An instruction begins as a
-- placeholder, and a decoder fills it in. The decoder belongs to the caller: this
-- module only says where its result lands.
import Simt.Memory
import Simt.Error

namespace Simt

/-- The operation classes that the model tells apart. -/
inductive OpClass where
  | noOp
  | alu
  /-- The unit for special functions. -/
  | sfu
  | aluSfu
  | load
  | store
  | branch
  | barrier
  | memoryBarrier
  deriving DecidableEq

namespace OpClass

def all : List OpClass :=
  [noOp, alu, sfu, aluSfu, load, store, branch, barrier, memoryBarrier]

def label : OpClass → String
  | noOp => "NoOp"
  | alu => "Alu"
  | sfu => "Sfu"
  | aluSfu => "AluSfu"
  | load => "Load"
  | store => "Store"
  | branch => "Branch"
  | barrier => "Barrier"
  | memoryBarrier => "MemoryBarrier"

end OpClass

structure Instruction where
  /-- The address of the instruction. -/
  pc : UInt32
  /-- The size of its code in bytes. -/
  size : UInt32
  op : OpClass
  memoryOp : MemoryOp
  /-- Registers written. Zero is an unused place. -/
  outputs : Vector UInt32 4
  /-- Registers read. Zero is an unused place. -/
  inputs : Vector UInt32 4
  vectorIn : Bool
  vectorOut : Bool
  predicate : Int32
  address1 : Int32
  address2 : Int32
  /-- Registers that may meet in one bank. Minus one is an unused place. -/
  archRegs : Vector Int32 8
  /-- Cycles from one issue to the next. -/
  cycles : UInt32
  /-- The size in bytes of the word that is worked on. -/
  dataSize : UInt32
  space : MemorySpace
  decoded : Bool
  deriving DecidableEq

namespace Instruction

/-- The content of a slot that holds no instruction. -/
def placeholder : Instruction where
  pc := 0xffffffff
  size := 0
  op := .noOp
  memoryOp := .none
  outputs := Vector.replicate 4 0
  inputs := Vector.replicate 4 0
  vectorIn := false
  vectorOut := false
  predicate := 0
  address1 := 0
  address2 := 0
  archRegs := Vector.replicate 8 (-1)
  cycles := 0
  dataSize := 0
  space := .ofKind .undefined
  decoded := false

/-- Fills in a placeholder at an address, or gives the error that stopped it. -/
abbrev Decoder := UInt32 → Instruction → Except ModelError Instruction

/-- The instruction that a decoder makes of a placeholder at `pc`. The decoder may move
the instruction to another address. -/
def decode (pc : UInt32) (decoder : Decoder) : Except ModelError Instruction := do
  let inst ← decoder pc { placeholder with pc }
  return { inst with decoded := true }

def isLoad (i : Instruction) : Bool :=
  i.op = .load || i.memoryOp = .load

def isStore (i : Instruction) : Bool :=
  i.op = .store || i.memoryOp = .store

def isMemory (i : Instruction) : Bool :=
  i.isLoad || i.isStore

/-- The address in lowercase hexadecimal, in at least four digits. -/
def text (i : Instruction) : String :=
  " [inst @ pc=0x" ++ Numeral.hex 4 i.pc.toNat ++ "] "

end Instruction

end Simt
