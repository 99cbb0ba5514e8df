-- Errors that a caller can answer: a device that cannot be built, a block that
-- does not fit, an instruction that cannot be decoded, a file that cannot be
-- read. Errors are kept as causes, and the wording is in one function.
import Simt.Text.Numeral

namespace Simt

open Numeral (decimal hex)

/-- Why a JSON text was refused. -/
inductive Json.Cause where
  /-- The text is not JSON, or has something after the value. -/
  | malformed
  /-- The text stops before the value is complete. -/
  | ended
  /-- A value is JSON, but not of the type that is read. -/
  | mismatched
  deriving DecidableEq

/-- Why a file gave no text. -/
inductive FileProblem where
  | missing
  /-- The bytes are not UTF-8. -/
  | undecodable
  deriving DecidableEq

/-- The number of a device description that has to be at least one. -/
inductive ConfigField where
  | warpSize
  | numSms
  | maxWarps
  deriving DecidableEq

def ConfigField.label : ConfigField → String
  | warpSize => "warp_size"
  | numSms => "num_sms"
  | maxWarps => "max_warps_per_sm"

inductive ModelError where
  | warpSizeTooLarge (width : Nat)
  | invalidConfig (zero : ConfigField)
  /-- A block needs more warps than an SM has places for. -/
  | ctaTooLarge (warps places : Nat)
  | decode (pc : UInt32) (reason : String)
  | json (cause : Json.Cause)
  | file (problem : FileProblem)
  deriving DecidableEq

namespace ModelError

def message : ModelError → String
  | warpSizeTooLarge width => "warp size " ++ decimal width ++ " exceeds the maximum of 32"
  | invalidConfig zero => "invalid configuration: " ++ zero.label ++ " must be at least 1"
  | ctaTooLarge warps places =>
    "a CTA of " ++ decimal warps ++ " warps does not fit on an SM with " ++ decimal places ++
      " warp slots"
  | decode pc reason => "decode failed at pc=0x" ++ hex 4 pc.toNat ++ ": " ++ reason
  | json .malformed => "config parse error: malformed text"
  | json .ended => "config parse error: the text ends early"
  | json .mismatched => "config parse error: a value has the wrong type"
  | file .missing => "IO error: no such file"
  | file .undecodable => "IO error: the file is not valid UTF-8"

end ModelError

end Simt
