-- Faults: the ways in which an operation of the model stops for good. A fault is
-- a misuse (a lane that does not exist, a slot that is in use), a number that does
-- not fit its word, or a divisor of zero. Errors that a caller can answer are in
-- `Simt.Error`.
import Simt.Text.Numeral

namespace Simt

open Numeral (decimal)

/-- Why a run stopped. -/
inductive Fault where
  /-- A sum does not fit its word. -/
  | addOverflow
  /-- A product does not fit its word. -/
  | mulOverflow
  | divisionByZero
  | remainderByZero
  /-- An index at or past the end of a list. -/
  | outOfBounds (length index : Nat)
  /-- A full mask of more than 32 lanes. -/
  | fullMaskTooWide
  /-- A lane number with no bit in the mask. -/
  | laneOutOfRange (lane : Nat)
  /-- A slot of more than 32 lanes. -/
  | slotTooWide (width : Nat)
  /-- An issue into a slot that the given warp holds. -/
  | slotOccupied (warp : UInt32)
  | emptyWarpId
  | emptyIssueCycle
  /-- An address is asked for before any lane of the slot had state. -/
  | addressUnset (lane : Nat)
  /-- Parked work is asked for where none was parked, or from an empty slot. -/
  | notAtomic
  | moveIntoOccupied
  /-- A warp arrives at the barrier of `cta`, but belongs to `owner`. -/
  | foreignWarp (warp cta owner : UInt32)
  /-- More atomics complete than were issued. -/
  | atomicNotIssued
  /-- A device has more SMs than memory can hold. -/
  | deviceTooLarge
  deriving DecidableEq

/-- The result of an operation that may stop the run. -/
abbrev Outcome := Except Fault

namespace Fault

def message : Fault → String
  | addOverflow => "attempt to add with overflow"
  | mulOverflow => "attempt to multiply with overflow"
  | divisionByZero => "attempt to divide by zero"
  | remainderByZero => "attempt to calculate the remainder with a divisor of zero"
  | outOfBounds length index =>
    "index out of bounds: the len is " ++ decimal length ++ " but the index is " ++ decimal index
  | fullMaskTooWide => "assertion failed: width <= MAX_WARP_SIZE"
  | laneOutOfRange lane => "lane " ++ decimal lane ++ " out of range"
  | slotTooWide width => "warp size " ++ decimal width ++ " exceeds 32"
  | slotOccupied warp => "issue into an occupied slot (warp " ++ decimal warp.toNat ++ ")"
  | emptyWarpId => "warp_id of an empty instruction"
  | emptyIssueCycle => "issue_cycle of an empty instruction"
  | addressUnset lane => "get_addr(" ++ decimal lane ++ ") before any per-lane state was set"
  | notAtomic => "do_atomic on a non-atomic or empty instruction"
  | moveIntoOccupied => "move_warp into an occupied slot"
  | foreignWarp warp cta owner =>
    "assertion `left == right` failed: warp " ++ decimal warp.toNat ++ " is not in cta " ++
      decimal cta.toNat ++ "\n  left: " ++ decimal owner.toNat ++ "\n right: " ++ decimal cta.toNat
  | atomicNotIssued => "atomic completion without issue"
  | deviceTooLarge => "capacity overflow"

end Fault

namespace Outcome

/-- Do a step `n` times over. The first fault stops the run. -/
def iterate {α : Type} (step : α → Outcome α) : Nat → α → Outcome α
  | 0, a => .ok a
  | n + 1, a =>
    match step a with
    | .error fault => .error fault
    | .ok a => iterate step n a

end Outcome

end Simt
