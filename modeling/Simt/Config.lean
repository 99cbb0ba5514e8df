-- The description of a device: its name, how many SMs it has, how wide a warp is
-- and how many warps an SM can hold. A description comes from a preset or from a
-- file, and is checked before a device is built.
import Simt.Error
import Simt.Mask

namespace Simt

structure Config where
  name : String
  /-- The number of SMs of the device. -/
  numSms : UInt64
  /-- The lanes of a warp, at most 32. -/
  warpSize : UInt64
  /-- The most warps that one SM holds at a time. -/
  maxWarps : UInt64
  deriving DecidableEq

namespace Config

def h100 : Config := ⟨"H100", 132, 32, 64⟩

def a100 : Config := ⟨"A100", 108, 32, 64⟩

/-- Whether a device can be built. A warp that is too wide is found first, and then a
number that is zero, in the order of the warp size, the SMs and the warps. -/
def validate (c : Config) : Except ModelError Unit :=
  if c.warpSize.toNat > maxWarpSize then .error (.warpSizeTooLarge c.warpSize.toNat)
  else if c.warpSize = 0 then .error (.invalidConfig .warpSize)
  else if c.numSms = 0 then .error (.invalidConfig .numSms)
  else if c.maxWarps = 0 then .error (.invalidConfig .maxWarps)
  else .ok ()

end Config

end Simt
