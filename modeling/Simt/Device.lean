-- A device: SMs that share one description. Launches and direct operations on an
-- SM change the SMs in place.
import Simt.Sm

namespace Simt

structure Device where
  config : Config
  /-- The SMs in the order of their ids. -/
  sms : List Sm
  deriving DecidableEq

namespace Device

/-- The most SMs that a device can have. They lie side by side in memory, in a run of
less than half the addresses of a word, and an SM takes 72 bytes of it. -/
def maxSms : Nat := 0x7FFFFFFFFFFFFFF8 / 72

/-- The device of a description, with nothing on its SMs. The description is checked
before there is any need for memory. -/
def build (config : Config) : Outcome (Except ModelError Device) :=
  match config.validate with
  | .error e => .ok (.error e)
  | .ok () =>
    if config.numSms.toNat > maxSms then .error .deviceTooLarge
    else .ok (.ok ⟨config, (List.range config.numSms.toNat).map fun id => .new id config⟩)

def warpSize (d : Device) : Nat := d.config.warpSize.toNat

end Device

end Simt
