-- The storage classes that an address can belong to. A space is a kind and a
-- bank. Spaces are ordered by kind, in the order of the list below, and then by
-- bank.
import Simt.Text.Numeral

namespace Simt

open Numeral (decimal)

inductive MemoryKind where
  | undefined
  | register
  | perThread
  | shared
  | param
  /-- Parameters that every thread of a kernel reads. -/
  | kernelParam
  /-- Parameters that one thread reads and writes. -/
  | threadParam
  | const
  | texture
  | surface
  | global
  | generic
  | instruction
  deriving DecidableEq

namespace MemoryKind

def all : List MemoryKind :=
  [undefined, register, perThread, shared, param, kernelParam, threadParam, const, texture,
    surface, global, generic, instruction]

/-- The place in the order of kinds. -/
def rank : MemoryKind → Nat
  | undefined => 0
  | register => 1
  | perThread => 2
  | shared => 3
  | param => 4
  | kernelParam => 5
  | threadParam => 6
  | const => 7
  | texture => 8
  | surface => 9
  | global => 10
  | generic => 11
  | instruction => 12

/-- The name under which a kind is stored. -/
def label : MemoryKind → String
  | undefined => "Undefined"
  | register => "Register"
  | perThread => "Local"
  | shared => "Shared"
  | param => "ParamUnclassified"
  | kernelParam => "ParamKernel"
  | threadParam => "ParamLocal"
  | const => "Const"
  | texture => "Texture"
  | surface => "Surface"
  | global => "Global"
  | generic => "Generic"
  | instruction => "Instruction"

/-- The spelling of a kind in assembly text. -/
def assemblyName : MemoryKind → String
  | undefined => "<undefined>"
  | register => ".reg"
  | perThread => ".local"
  | shared => ".shared"
  | param => ".param"
  | kernelParam => ".param::kernel"
  | threadParam => ".param::local"
  | const => ".const"
  | texture => ".tex"
  | surface => ".surf"
  | global => ".global"
  | generic => ".generic"
  | instruction => ".instruction"

def order (a b : MemoryKind) : Ordering :=
  compare a.rank b.rank

end MemoryKind

/-- A storage class with a bank. Only a constant space is shown with its bank. -/
structure MemorySpace where
  kind : MemoryKind
  bank : UInt32
  deriving DecidableEq

namespace MemorySpace

def ofKind (kind : MemoryKind) : MemorySpace := ⟨kind, 0⟩

def isParam (s : MemorySpace) : Bool :=
  s.kind = .param || s.kind = .kernelParam || s.kind = .threadParam

/-- The kind decides, and the bank decides between equal kinds. -/
def order (a b : MemorySpace) : Ordering :=
  (a.kind.order b.kind).then (compare a.bank.toNat b.bank.toNat)

def text (s : MemorySpace) : String :=
  if s.kind = .const ∧ s.bank ≠ 0 then
    s.kind.assemblyName ++ "[" ++ decimal s.bank.toNat ++ "]"
  else s.kind.assemblyName

/-- The spaces in their order. Equal spaces stay side by side. -/
def sort (spaces : List MemorySpace) : List MemorySpace :=
  spaces.mergeSort (fun a b => (order a b).isLE)

end MemorySpace

/-- What an instruction does to memory. -/
inductive MemoryOp where
  | none
  | load
  | store
  deriving DecidableEq

namespace MemoryOp

def all : List MemoryOp := [none, load, store]

def label : MemoryOp → String
  | none => "None"
  | load => "Load"
  | store => "Store"

end MemoryOp

end Simt
