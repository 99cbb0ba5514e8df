-- The JSON form of the types of the model. A field may be left out only in a device
-- description, where the H100 fills it in, and in the two newer counts of a
-- snapshot, where zero does.
import Simt.Config
import Simt.Instruction
import Simt.Json.Record
import Simt.Kernel.LaunchConfig
import Simt.Snapshot

namespace Simt

open Json

def Dim3.codec : Codec Dim3 :=
  .record .zero [
    .ofRequired "x" .u32 (·.x) ({ · with x := · }),
    .ofRequired "y" .u32 (·.y) ({ · with y := · }),
    .ofRequired "z" .u32 (·.z) ({ · with z := · })]

/-- A coordinate as a list of three numbers. -/
def Dim3.listCodec : Codec Dim3 :=
  (Codec.vector 3 .u32).via (fun v => ⟨v[0], v[1], v[2]⟩) (fun d => #v[d.x, d.y, d.z])

def KernelResources.codec : Codec KernelResources :=
  .record .none [
    .ofRequired "lmem" .u32 (·.localBytes) ({ · with localBytes := · }),
    .ofRequired "smem" .u32 (·.sharedBytes) ({ · with sharedBytes := · }),
    .ofRequired "cmem" .u32 (·.constBytes) ({ · with constBytes := · }),
    .ofRequired "regs" .u32 (·.registers) ({ · with registers := · }),
    .ofRequired "ptx_version" .u32 (·.ptxVersion) ({ · with ptxVersion := · }),
    .ofRequired "sm_target" .u32 (·.smTarget) ({ · with smTarget := · })]

def OpClass.codec : Codec OpClass := .choice OpClass.all OpClass.label

def MemoryOp.codec : Codec MemoryOp := .choice MemoryOp.all MemoryOp.label

def MemoryKind.codec : Codec MemoryKind := .choice MemoryKind.all MemoryKind.label

def MemorySpace.codec : Codec MemorySpace :=
  .record (.ofKind .undefined) [
    .ofRequired "kind" MemoryKind.codec (·.kind) ({ · with kind := · }),
    .ofRequired "bank" .u32 (·.bank) ({ · with bank := · })]

def Instruction.codec : Codec Instruction :=
  .record .placeholder [
    .ofRequired "pc" .u32 (·.pc) ({ · with pc := · }),
    .ofRequired "isize" .u32 (·.size) ({ · with size := · }),
    .ofRequired "op" OpClass.codec (·.op) ({ · with op := · }),
    .ofRequired "memory_op" MemoryOp.codec (·.memoryOp) ({ · with memoryOp := · }),
    .ofRequired "out" (.vector 4 .u32) (·.outputs) ({ · with outputs := · }),
    .ofRequired "inp" (.vector 4 .u32) (·.inputs) ({ · with inputs := · }),
    .ofRequired "is_vectorin" .bool (·.vectorIn) ({ · with vectorIn := · }),
    .ofRequired "is_vectorout" .bool (·.vectorOut) ({ · with vectorOut := · }),
    .ofRequired "pred" .i32 (·.predicate) ({ · with predicate := · }),
    .ofRequired "ar1" .i32 (·.address1) ({ · with address1 := · }),
    .ofRequired "ar2" .i32 (·.address2) ({ · with address2 := · }),
    .ofRequired "arch_reg" (.vector 8 .i32) (·.archRegs) ({ · with archRegs := · }),
    .ofRequired "cycles" .u32 (·.cycles) ({ · with cycles := · }),
    .ofRequired "data_size" .u32 (·.dataSize) ({ · with dataSize := · }),
    .ofRequired "space" MemorySpace.codec (·.space) ({ · with space := · }),
    .ofRequired "decoded" .bool (·.decoded) ({ · with decoded := · })]

def Config.codec : Codec Config :=
  .record .h100 [
    .ofOptional "name" .string (·.name) ({ · with name := · }),
    .ofOptional "num_sms" .u64 (·.numSms) ({ · with numSms := · }),
    .ofOptional "warp_size" .u64 (·.warpSize) ({ · with warpSize := · }),
    .ofOptional "max_warps_per_sm" .u64 (·.maxWarps) ({ · with maxWarps := · })]

def Snapshot.codec : Codec Snapshot :=
  .record .blank [
    .ofRequired "status" .string (·.status) ({ · with status := · }),
    .ofRequired "kernel_name" .string (·.kernelName) ({ · with kernelName := · }),
    .ofRequired "grid" Dim3.listCodec (·.grid) ({ · with grid := · }),
    .ofRequired "block" Dim3.listCodec (·.block) ({ · with block := · }),
    .ofRequired "warp_size" .u32 (·.warpSize) ({ · with warpSize := · }),
    .ofRequired "blocks_total" .u32 (·.blocksTotal) ({ · with blocksTotal := · }),
    .ofRequired "blocks_executed" .u32 (·.blocks) ({ · with blocks := · }),
    .ofRequired "warps_executed" .u32 (·.warps) ({ · with warps := · }),
    .ofRequired "threads_executed" .u32 (·.threads) ({ · with threads := · }),
    .ofOptional "instructions_issued" .u64 (·.issued) ({ · with issued := · }),
    .ofOptional "atomics_delivered" .u64 (·.atomics) ({ · with atomics := · }),
    .ofRequired "sm_blocks_executed" (.list .u32) (·.blocksBySm) ({ · with blocksBySm := · }),
    .ofRequired "timestamp_ms" .u64 (·.timestamp) ({ · with timestamp := · })]

end Simt
