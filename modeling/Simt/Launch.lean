-- Launches. A launch takes the blocks of a kernel one after the other. A block goes
-- to the SM that its number selects, its warps are made resident, and every warp
-- issues every instruction of the program, through one slot that is used again and
-- again. No timing is modelled: an issue takes the cycles of its instruction, at
-- least one.
import Simt.Device
import Simt.Launch.Hook
import Simt.Launch.Warps
import Simt.Snapshot.File

namespace Simt

/-- What a launch counts. -/
structure Stats where
  blocks : UInt32
  warps : UInt32
  threads : UInt32
  /-- The warp instructions that were issued. -/
  issued : UInt64
  /-- The pieces of parked work that were delivered. -/
  atomics : UInt64
  /-- The cycle after the last issue. -/
  cycles : UInt64
  deriving DecidableEq

def Stats.zero : Stats := ⟨0, 0, 0, 0, 0, 0⟩

/-- Where a launch writes its snapshots, and the time when a number of blocks is done. -/
structure SnapshotSink where
  path : Path
  clock : UInt32 → UInt64

/-- What stays the same during a launch. -/
structure LaunchPlan (σ α : Type) where
  program : List Instruction
  hook : Hook σ α
  sink : Option SnapshotSink

namespace Launch

variable {σ α : Type}

/-! ## One warp instruction -/

/-- A block on its way through an SM. -/
structure Cta where
  sm : Nat
  place : Dim3
  index : UInt32
  block : Dim3
  deriving DecidableEq

/-- A warp of a block. -/
structure Warp where
  id : UInt32
  threads : List UInt32
  deriving DecidableEq

/-- What an issue changes. -/
structure Front (σ α : Type) where
  sm : Sm
  slot : Slot α
  host : σ
  issued : UInt64
  atomics : UInt64
  cycle : UInt64

/-- Delivers the parked work of the slot, in the order of the lanes. The atomic of the warp
is in flight on the SM while it is delivered. -/
def deliver (hook : Hook σ α) (warp : UInt32) (front : Front σ α) : Outcome (Front σ α) := do
  let sm ← front.sm.issueAtomic warp
  let (parked, slot) ← front.slot.takeParked
  let host := parked.foldl (fun host work => hook.deliver host work slot.inst) front.host
  let atomics ← Word.add64 front.atomics (UInt64.ofNat parked.length)
  let sm ← sm.completeAtomic warp
  return { front with sm, slot, host, atomics }

/-- The slot with an instruction of the program for one warp, the way the hook gets it. -/
def occupy (inst : Instruction) (warp : Warp) (front : Front σ α) : Outcome (Slot α) := do
  let active ← Mask.full warp.threads.length
  { front.slot with inst }.issue active.bits warp.id front.cycle

/-- Where the issue of a warp comes from. -/
def context (cta : Cta) (warp : Warp) (cycle : UInt64) : IssueContext where
  sm := cta.sm
  cta := cta.place
  ctaIndex := cta.index
  warp := warp.id
  threads := warp.threads
  block := cta.block
  cycle := cycle

/-- Delivers the work that a hook has parked, where it has parked any. -/
def settle (hook : Hook σ α) (warp : UInt32) (front : Front σ α) : Outcome (Front σ α) :=
  if front.slot.atomic then deliver hook warp front else .ok front

/-- A warp that issues a barrier arrives at it. -/
def meet (cta : Cta) (inst : Instruction) (warp : Warp) (sm : Sm) : Outcome Sm :=
  if inst.op = .barrier then sm.arrive cta.index warp.id else .ok sm

/-- Issues an instruction of the program for one warp. Whether the warp arrives at a barrier
is up to the program: the hook may change the instruction in the slot, and changes
nothing of that. -/
def issue (hook : Hook σ α) (folder : Folder) (cta : Cta) (inst : Instruction) (warp : Warp)
    (front : Front σ α) : Outcome (Front σ α) := do
  let slot ← occupy inst warp front
  let (host, slot) ← hook.issue folder front.host slot (context cta warp front.cycle)
  let front ← settle hook warp.id { front with slot, host }
  let sm ← meet cta inst warp front.sm
  let issued ← Word.add64 front.issued 1
  let cycle ← Word.add64 front.cycle (max inst.cycles 1).toUInt64
  return { front with sm, slot := front.slot.clear, issued, cycle }

/-- Issues one instruction for every warp, one warp after the other. -/
def issueEach (hook : Hook σ α) (folder : Folder) (cta : Cta) (warps : List Warp)
    (inst : Instruction) (front : Front σ α) : Outcome (Front σ α) :=
  warps.foldlM (fun front warp => issue hook folder cta inst warp front) front

/-- Issues a program. Each instruction is issued for every warp before the next
instruction is. -/
def issueAll (hook : Hook σ α) (folder : Folder) (cta : Cta) (warps : List Warp)
    (program : List Instruction) (front : Front σ α) : Outcome (Front σ α) :=
  program.foldlM (fun front inst => issueEach hook folder cta warps inst front) front

/-! ## One block -/

/-- The id of a warp: each block before has used up the ids of a whole block. -/
def warpId (cta warpsPerCta : UInt32) (number : Nat) : Outcome UInt32 := do
  Word.add32 (← Word.mul32 cta warpsPerCta) (UInt32.ofNat number)

/-- An SM that was asked to take the warps of a block, with the warps that it took. -/
structure Admission where
  sm : Sm
  taken : List Warp
  /-- A warp was refused, and the warps after it were not asked for. -/
  refused : Bool
  deriving DecidableEq

/-- Makes the warps of a block resident, from a number on. -/
def enter (cta warpsPerCta : UInt32) : Nat → List (List UInt32) → Sm → Outcome Admission
  | _, [], sm => .ok ⟨sm, [], false⟩
  | number, threads :: rest, sm => do
    let id ← warpId cta warpsPerCta number
    match sm.launch? cta id with
    | none => return ⟨sm, [], true⟩
    | some sm =>
      let admission ← enter cta warpsPerCta (number + 1) rest sm
      return { admission with taken := ⟨id, threads⟩ :: admission.taken }

/-- Ends the warps of a block, and forgets every warp of the SM that has exited. -/
def leave (warps : List Warp) (sm : Sm) : Outcome Sm := do
  return (← warps.foldlM (fun sm warp => sm.exit warp.id) sm).retire

/-- The state of a launch between two blocks. -/
structure State (σ α : Type) where
  device : Device
  kernel : Kernel
  folder : Folder
  host : σ
  slot : Slot α
  stats : Stats
  /-- The blocks that each SM has executed in this launch. -/
  blocksBySm : List UInt32

/-- The snapshot of a launch after a block. -/
def snapshot (sink : SnapshotSink) (state : State σ α) : Outcome Snapshot := do
  let total ← state.kernel.numBlocks
  return {
    status := if state.kernel.ctasDone then "complete" else "running"
    kernelName := state.kernel.name
    grid := state.kernel.grid
    block := state.kernel.block
    warpSize := UInt32.ofNat state.device.warpSize
    blocksTotal := total.toUInt32
    blocks := state.stats.blocks
    warps := state.stats.warps
    threads := state.stats.threads
    issued := state.stats.issued
    atomics := state.stats.atomics
    blocksBySm := state.blocksBySm
    timestamp := sink.clock state.stats.blocks }

/-- Writes the snapshot of a launch, where the plan asks for one. -/
def record (plan : LaunchPlan σ α) (state : State σ α) : Outcome (State σ α) :=
  match plan.sink with
  | none => .ok state
  | some sink => do
    let snapshot ← snapshot sink state
    return { state with folder := snapshot.save state.folder sink.path }

/-- Adds one block to the count of an SM. -/
def countBlock (sm : Nat) (counts : List UInt32) : Outcome (List UInt32) :=
  match counts[sm]? with
  | none => .error (.outOfBounds counts.length sm)
  | some count => do
    return counts.set sm (← Word.add32 count 1)

/-- Adds a block with these warps to the counts. -/
def Stats.addBlock (stats : Stats) (warps : List (List UInt32)) : Outcome Stats := do
  let blocks ← Word.add32 stats.blocks 1
  let warpCount ← Word.add32 stats.warps (UInt32.ofNat warps.length)
  let size ← Word.sum32 (warps.map fun threads => UInt32.ofNat threads.length)
  let threads ← Word.add32 stats.threads size
  return { stats with blocks, warps := warpCount, threads }

/-- A block that was handed out, and that its SM was asked to take. -/
structure Opening where
  cta : Cta
  threads : List (List UInt32)
  /-- The kernel, with the threads of the block handed out. -/
  kernel : Kernel
  admission : Admission
  deriving DecidableEq

/-- Hands out the next block, and asks the SM that its number selects to take the warps. -/
def openCta (warpsPerCta : UInt32) (state : State σ α) : Outcome Opening := do
  let place := state.kernel.nextCta
  let index := (← state.kernel.nextCtaIndex).toUInt32
  let smId ← Word.rem index.toNat state.device.sms.length
  let (threads, kernel) ← state.kernel.formWarps state.device.warpSize
  match state.device.sms[smId]? with
  | none => .error (.outOfBounds state.device.sms.length smId)
  | some sm =>
    let admission ← enter index warpsPerCta 0 threads sm
    return { cta := ⟨smId, place, index, kernel.block⟩, threads, kernel, admission }

/-- What the first issue of a block starts from. -/
def Opening.front (opening : Opening) (state : State σ α) : Front σ α where
  sm := opening.admission.sm
  slot := state.slot
  host := state.host
  issued := state.stats.issued
  atomics := state.stats.atomics
  cycle := state.stats.cycles

/-- The state with another SM in one place. -/
def State.putSm (state : State σ α) (id : Nat) (sm : Sm) : State σ α :=
  { state with device := { state.device with sms := state.device.sms.set id sm } }

/-- Ends the warps that the SM took of a block that it refused. The threads of the block
stay handed out. -/
def refuse (opening : Opening) (state : State σ α) : Outcome (State σ α) := do
  let sm ← leave opening.admission.taken opening.admission.sm
  return { state.putSm opening.cta.sm sm with kernel := opening.kernel }

/-- Ends the warps of a block that has issued the whole program, and goes on to the next. -/
def finish (plan : LaunchPlan σ α) (opening : Opening) (front : Front σ α) (state : State σ α) :
    Outcome (State σ α) := do
  let sm ← leave opening.admission.taken front.sm
  let stats ← Stats.addBlock
    { state.stats with
      issued := front.issued, atomics := front.atomics, cycles := front.cycle }
    opening.threads
  let blocksBySm ← countBlock opening.cta.sm state.blocksBySm
  let kernel ← opening.kernel.advanceCta
  record plan
    { state.putSm opening.cta.sm sm with
      kernel, host := front.host, slot := front.slot, stats, blocksBySm }

/-- How a block ended. -/
inductive BlockEnd (σ α : Type) where
  | done (state : State σ α)
  /-- The SM had no place for the warps of the block. -/
  | refused (warps : Nat) (state : State σ α)

/-- Executes the next block. Where its SM refuses a warp, the warps that it took are ended
again. -/
def executeCta (plan : LaunchPlan σ α) (warpsPerCta : UInt32) (state : State σ α) :
    Outcome (BlockEnd σ α) := do
  let opening ← openCta warpsPerCta state
  if opening.admission.refused then
    return .refused opening.threads.length (← refuse opening state)
  else
    let front ← issueAll plan.hook state.folder opening.cta opening.admission.taken plan.program
      (opening.front state)
    return .done (← finish plan opening front state)

/-! ## The whole launch -/

/-- Executes blocks until the grid is done or an SM refuses one. The first number bounds
the blocks that are left. -/
def run (plan : LaunchPlan σ α) (warpsPerCta : UInt32) :
    Nat → State σ α → Outcome (BlockEnd σ α)
  | 0, state => .ok (.done state)
  | limit + 1, state =>
    if state.kernel.ctasDone then .ok (.done state)
    else do
      match ← executeCta plan warpsPerCta state with
      | .done state => run plan warpsPerCta limit state
      | .refused warps state => return .refused warps state

/-- A launch before its first block. -/
def start (device : Device) (kernel : Kernel) (folder : Folder) (host : σ) (slot : Slot α) :
    State σ α where
  device := device
  kernel := kernel
  folder := folder
  host := host
  slot := slot
  stats := .zero
  blocksBySm := List.replicate device.sms.length 0

end Launch

/-- What a launch leaves behind. -/
structure LaunchReport (σ : Type) where
  device : Device
  kernel : Kernel
  folder : Folder
  host : σ
  result : Except ModelError Stats

/-- Launches a kernel. A kernel that is not bound does nothing. A block that no SM could
hold is an error before anything else happens. -/
def launch {σ α : Type} (plan : LaunchPlan σ α) (device : Device) (kernel : Kernel)
    (folder : Folder) (host : σ) : Outcome (LaunchReport σ) :=
  if !kernel.bound then .ok ⟨device, kernel, folder, host, .ok .zero⟩
  else do
    let threads ← kernel.threadsPerCta
    let warps ← Word.divCeil threads.toNat device.warpSize
    let places := device.config.maxWarps.toNat
    if warps > places then
      return ⟨device, kernel, folder, host, .error (.ctaTooLarge warps places)⟩
    else
      let slot ← Slot.new device.warpSize
      match ← Launch.run plan (UInt32.ofNat warps) kernel.grid.volume
          (Launch.start device kernel folder host slot) with
      | .done state =>
        return ⟨state.device, state.kernel, state.folder, state.host, .ok state.stats⟩
      | .refused warps state =>
        return ⟨state.device, state.kernel, state.folder, state.host,
          .error (.ctaTooLarge warps places)⟩

end Simt
