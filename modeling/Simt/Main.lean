-- The command line of the demonstration program. The first argument, where there is
-- one, is the file that describes the device.
import Simt.Demo

/-- The bytes of a file, where there is one. -/
def Simt.readBytes (path : String) : IO (Option ByteArray) := do
  try
    return some (← IO.FS.readBinFile path)
  catch _ => return none

open Simt

def main (args : List String) : IO UInt32 := do
  let file ← match args with
    | [] => pure none
    | path :: _ => do pure (some (TextFile.ofBytes (← readBytes path)))
  let report := Demo.run file
  IO.print report.output
  report.ending.complaint?.forM IO.eprintln
  return UInt32.ofNat report.ending.exitCode
