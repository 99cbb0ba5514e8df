-- A file as a reader of texts finds it.
import Simt.Error

namespace Simt

inductive TextFile where
  | missing
  /-- The bytes are not UTF-8. -/
  | undecodable
  | text (content : String)
  deriving DecidableEq

namespace TextFile

/-- The file with these bytes, or no file. -/
def ofBytes : Option ByteArray → TextFile
  | none => missing
  | some bytes =>
    match String.fromUTF8? bytes with
    | some content => text content
    | none => undecodable

def read : TextFile → Except ModelError String
  | missing => .error (.file .missing)
  | undecodable => .error (.file .undecodable)
  | text content => .ok content

end TextFile

end Simt
