-- Device descriptions from a file. The text is read to its end before the
-- description is checked.
import Simt.Json.Model
import Simt.TextFile

namespace Simt.Config

/-- The description that a JSON text gives, if a device can be built from it. -/
def ofJson (text : String) : Except ModelError Config :=
  match codec.decode text with
  | .error cause => .error (.json cause)
  | .ok config => do
    config.validate
    return config

def ofFile (file : TextFile) : Except ModelError Config := do
  ofJson (← file.read)

end Simt.Config
