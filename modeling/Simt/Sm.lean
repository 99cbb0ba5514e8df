-- A streaming multiprocessor (SM): the warps that are resident on it, the barriers
-- that their blocks wait at, and their atomics in flight. A warp is live until it
-- exits, and is forgotten when the SM retires the warps that have exited.
import Simt.Config
import Simt.Word
import Simt.Sm.WarpTable

namespace Simt

structure Sm where
  id : Nat
  config : Config
  warps : WarpTable
  /-- How many barriers were released on this SM. -/
  released : UInt64
  deriving DecidableEq

namespace Sm

def new (id : Nat) (config : Config) : Sm := ⟨id, config, .empty, 0⟩

/-! ## Counts and questions -/

def liveWarps (s : Sm) : Nat :=
  s.warps.residents.countP Resident.live

/-- The number of blocks that have a live warp. -/
def activeCtas (s : Sm) : Nat :=
  ((s.warps.residents.filter Resident.live).map (·.cta)).eraseDups.length

def waitsAtBarrier (s : Sm) (warp : UInt32) : Bool :=
  (s.warps.find? warp).any (·.atBarrier)

def waitsForAtomics (s : Sm) (warp : UInt32) : Bool :=
  (s.warps.find? warp).any fun r => r.pending > 0

/-! ## Warps come and go -/

/-- Makes a warp resident. A full SM takes no new id, but an id that is resident begins
again in any case. -/
def launch? (s : Sm) (cta warp : UInt32) : Option Sm :=
  if s.liveWarps ≥ s.config.maxWarps.toNat && !s.warps.contains warp then none
  else some { s with warps := s.warps.insert warp (.fresh cta) }

/-- Forgets the warps that have exited. -/
def retire (s : Sm) : Sm :=
  { s with warps := s.warps.filter Resident.live }

/-! ## Barriers -/

/-- The live warps of a block. -/
def members (s : Sm) (cta : UInt32) : List Resident :=
  s.warps.residents.filter fun r => r.cta = cta && r.live

/-- Releases the barrier of a block when the block has a live warp and every live warp of
it waits. The mark is taken off every warp of the block. -/
def tryRelease (s : Sm) (cta : UInt32) : Outcome Sm :=
  if !(s.members cta).isEmpty && (s.members cta).all (·.atBarrier) then do
    let released ← Word.add64 s.released 1
    return { s with
      released
      warps := s.warps.map fun _ r => if r.cta = cta then { r with atBarrier := false } else r }
  else .ok s

/-- A warp arrives at the barrier of its block. A warp that is not resident only prompts
the block to look whether it can go on. -/
def arrive (s : Sm) (cta warp : UInt32) : Outcome Sm :=
  match s.warps.find? warp with
  | none => s.tryRelease cta
  | some r =>
    if r.cta = cta then
      tryRelease { s with warps := s.warps.update warp ({ · with atBarrier := true }) } cta
    else .error (.foreignWarp warp cta r.cta)

/-- A warp is done. The rest of its block may all wait for this warp alone. -/
def exit (s : Sm) (warp : UInt32) : Outcome Sm :=
  match s.warps.find? warp with
  | none => .ok s
  | some r =>
    tryRelease
      { s with warps := s.warps.update warp ({ · with exited := true, atBarrier := false }) } r.cta

/-! ## Atomics in flight -/

/-- One more atomic of a warp is in flight. A warp that is not resident is passed over. -/
def issueAtomic (s : Sm) (warp : UInt32) : Outcome Sm :=
  match s.warps.find? warp with
  | none => .ok s
  | some r => do
    let pending ← Word.add32 r.pending 1
    return { s with warps := s.warps.update warp ({ · with pending }) }

/-- One atomic of a warp has completed. -/
def completeAtomic (s : Sm) (warp : UInt32) : Outcome Sm :=
  match s.warps.find? warp with
  | none => .ok s
  | some r =>
    if r.pending = 0 then .error .atomicNotIssued
    else .ok { s with warps := s.warps.update warp ({ · with pending := r.pending - 1 }) }

end Sm

end Simt
