-- The active lanes of a warp, one bit for each of 32 lanes. A mask is a word, and
-- the list of its lanes is what the rest of the model looks at.
import Simt.Fault

namespace Simt

/-- The most lanes that a warp can have. -/
def maxWarpSize : Nat := 32

structure Mask where
  bits : UInt32
  deriving DecidableEq

/-- The number of ones in the binary text of a number. -/
def ones (n : Nat) : Nat :=
  if n = 0 then 0 else n % 2 + ones (n / 2)
termination_by n
decreasing_by omega

namespace Mask

def empty : Mask := ⟨0⟩

/-- The bit of one lane. -/
def bit (lane : Nat) : UInt32 :=
  (1 : UInt32) <<< UInt32.ofNat lane

/-- The mask of the lowest `width` lanes. -/
def full (width : Nat) : Outcome Mask :=
  if width < maxWarpSize then .ok ⟨bit width - 1⟩
  else if width = maxWarpSize then .ok ⟨0xffffffff⟩
  else .error .fullMaskTooWide

/-- Whether a lane is active. A lane past the last is not. -/
def test (m : Mask) (lane : Nat) : Bool :=
  lane < maxWarpSize && m.bits &&& bit lane != 0

/-- The mask with one more lane of the 32. -/
def insert (m : Mask) (lane : Nat) : Mask :=
  ⟨m.bits ||| bit lane⟩

/-- Makes a lane active. -/
def set (m : Mask) (lane : Nat) : Outcome Mask :=
  if lane < maxWarpSize then .ok (m.insert lane) else .error (.laneOutOfRange lane)

/-- The active lanes in ascending order. -/
def lanes (m : Mask) : List Nat :=
  (List.range maxWarpSize).filter m.test

/-- The number of active lanes, which is the number of ones among the bits. -/
def count (m : Mask) : Nat :=
  ones m.bits.toNat

def isEmpty (m : Mask) : Bool :=
  m.bits == 0

end Mask

end Simt
