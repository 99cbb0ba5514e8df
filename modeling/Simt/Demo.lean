-- The demonstration program: a histogram. A thousand threads add one each to a bin,
-- by an atomic that is parked on the thread's lane, and the sum over the bins is
-- checked at the end.
import Simt.Config.File
import Simt.Kernel.LaunchConfig
import Simt.Launch

namespace Simt.Demo

open Numeral (decimal)

/-- The threads that count. -/
def threadCount : UInt32 := 1000

def binCount : Nat := 16

def threadsPerBlock : UInt32 := 128

/-- The address of the first bin. A bin takes four bytes. -/
def binBase : UInt64 := 0x1000

/-! ## The kernel -/

def instruction (pc : UInt32) (op : OpClass) : Instruction :=
  { Instruction.placeholder with pc, size := 8, op, cycles := 1 }

def program : List Instruction := [
  instruction 0x00 .alu,
  { instruction 0x08 .store with
    memoryOp := .store, dataSize := 4, space := .ofKind .global },
  instruction 0x10 .barrier]

def entry : KernelEntry := ⟨"histogram", 24⟩

/-- The bytes of a word, the lowest first. -/
def wordBytes (word : UInt64) : List UInt8 :=
  (List.range 8).map fun i => (word >>> UInt64.ofNat (8 * i)).toUInt8

/-- As many blocks as it takes to hold every thread that counts. -/
def launchConfig : Outcome LaunchConfig :=
  (LaunchConfig.new
    (.line ((threadCount + threadsPerBlock - 1) / threadsPerBlock)) (.line threadsPerBlock)).withArg
      (wordBytes threadCount.toUInt64)

/-! ## The hook -/

/-- What the program remembers: the bins, and the text of the first atomic. -/
structure Memory where
  bins : List UInt32
  sample : Option String
  deriving DecidableEq

def Memory.start : Memory := ⟨List.replicate binCount 0, none⟩

/-- Parks the atomic of one lane, if its thread counts. -/
def parkLane (ctx : IssueContext) (slot : Slot Nat) (lane : Nat) : Outcome (Slot Nat) := do
  let id ← ctx.globalId lane
  if id ≥ threadCount.toUInt64 then return slot
  else
    let bin := id.toNat % binCount
    let slot ← slot.setAddr lane (binBase + 4 * UInt64.ofNat bin)
    slot.park lane bin

/-- Parked work is the number of a bin. -/
def hook : Hook Memory Nat where
  issue _ memory slot ctx :=
    if slot.inst.op = .store then do
      let slot ← (List.range ctx.threads.length).foldlM (parkLane ctx) slot
      return ({ memory with sample := memory.sample <|> some slot.text }, slot)
    else .ok (memory, slot)
  deliver memory bin _ := { memory with bins := memory.bins.modify bin (· + 1) }

/-! ## The program -/

/-- How the program came to its end. -/
inductive Ending where
  | finished
  | refused (error : ModelError)
  | stopped (fault : Fault)
  deriving DecidableEq

/-- What the program writes, and how it ends. -/
structure Report where
  output : String
  ending : Ending
  deriving DecidableEq

def initializedLine (device : Device) : String :=
  "Initialized " ++ device.config.name ++ " with " ++ decimal device.sms.length ++
    " SMs, warp size " ++ decimal device.warpSize ++ "\n"

def verdictLine (total : UInt32) : String :=
  if total = threadCount then
    "Verification PASSED: " ++ decimal total.toNat ++ " atomic updates across " ++
      decimal binCount ++ " bins\n"
  else
    "MISMATCH: " ++ decimal total.toNat ++ " atomic updates, expected " ++
      decimal threadCount.toNat ++ "\n"

def sampleLine : Option String → String
  | some text => "First atomic warp instruction:" ++ text ++ "\n"
  | none => ""

def statsLine (stats : Stats) : String :=
  "Stats: " ++ decimal stats.blocks.toNat ++ " blocks | " ++ decimal stats.warps.toNat ++
    " warps | " ++ decimal stats.threads.toNat ++ " threads | " ++ decimal stats.issued.toNat ++
    " warp insts | " ++ decimal stats.atomics.toNat ++ " atomics | " ++
    decimal stats.cycles.toNat ++ " cycles\n"

/-- Counts on a device. What is written about the count, if the launch goes through. -/
def countLines (device : Device) : Outcome (Except ModelError String) := do
  let config ← launchConfig
  let report ← launch { program, hook, sink := none } device (config.kernel entry) .empty .start
  match report.result with
  | .error e => return .error e
  | .ok stats =>
    let total ← Word.sum32 report.host.bins
    return .ok (verdictLine total ++ sampleLine report.host.sample ++ statsLine stats)

/-- Runs the histogram on a device. The device is announced before the launch. -/
def histogram (device : Device) : Report :=
  match countLines device with
  | .error fault => ⟨initializedLine device, .stopped fault⟩
  | .ok (.error e) => ⟨initializedLine device, .refused e⟩
  | .ok (.ok lines) => ⟨initializedLine device ++ lines, .finished⟩

/-- Runs the program on a device with this description. -/
def runOn (config : Config) : Report :=
  match Device.build config with
  | .error fault => ⟨"", .stopped fault⟩
  | .ok (.error e) => ⟨"", .refused e⟩
  | .ok (.ok device) => histogram device

/-- Runs the program with a file that describes the device, or on an H100. -/
def run : Option TextFile → Report
  | none => runOn .h100
  | some file =>
    match Config.ofFile file with
    | .error e => ⟨"", .refused e⟩
    | .ok config => runOn config

def Ending.exitCode : Ending → Nat
  | finished => 0
  | refused _ => 1
  | stopped _ => 101

/-- What the program says of an end that is no success. -/
def Ending.complaint? : Ending → Option String
  | finished => none
  | refused e => some ("Error: " ++ e.message)
  | stopped fault => some fault.message

end Simt.Demo
