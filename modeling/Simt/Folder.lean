-- A folder of text files. A path may lead through other folders, but those do not
-- exist. A file is written whole, in place of what the name held before, and a
-- file that is renamed takes the place of its new name.
import Simt.TextFile

namespace Simt

/-- A path as it is written, cut at its separators. -/
structure Path where
  /-- The parts before the name. -/
  before : List String
  name : String
  /-- The parts after the name, none of which leads anywhere. A path that has them can only
  be a folder. -/
  after : List String
  deriving DecidableEq

namespace Path

/-- The path of a file in the folder itself. -/
def ofName (name : String) : Path := ⟨[], name, []⟩

/-- Empty parts and single dots lead nowhere. -/
def isIdle (part : String) : Bool := part = "" || part = "."

/-- The path that a text gives, from the folder on. The name is the last part that leads
somewhere. A text without one gives the folder itself, and no path. -/
def ofText? (text : String) : Option Path :=
  let parts := (text.splitOn "/").reverse
  match parts.dropWhile isIdle with
  | [] => none
  | name :: before => some ⟨before.reverse, name, (parts.takeWhile isIdle).reverse⟩

def text (p : Path) : String :=
  "/".intercalate (p.before ++ p.name :: p.after)

/-- The most bytes of a path. A path from the root has at most 4095, and this leaves room
for the path of the folder. -/
def maxBytes : Nat := 4064

/-- The most bytes of a file name. -/
def maxNameBytes : Nat := 255

/-- Whether a text can name a file. -/
def isFileName (name : String) : Bool :=
  name ≠ "" && name ≠ "." && name ≠ ".." && name.utf8ByteSize ≤ maxNameBytes &&
    name.toList.all fun c => c ≠ '/' && c ≠ '\x00'

/-- The path stays in the folder. A separator at its start would lead to the root. -/
def staysInside (p : Path) : Bool :=
  p.before.head? ≠ some "" && p.before.all isIdle

/-- The file name that the path stands for, where it can stand for a file of the folder. -/
def fileName? (p : Path) : Option String :=
  if p.staysInside && p.after.isEmpty && isFileName p.name && p.text.utf8ByteSize ≤ maxBytes then
    some p.name
  else none

end Path

structure Folder where
  files : List (String × String)
  deriving DecidableEq

namespace Folder

def empty : Folder := ⟨[]⟩

/-- The text of a file, where there is one. -/
def read? (f : Folder) (p : Path) : Option String :=
  p.fileName?.bind fun name => f.files.lookup name

/-- Takes a name out of the folder. -/
def without (f : Folder) (name : String) : Folder :=
  ⟨f.files.filter fun file => file.1 ≠ name⟩

/-- Gives a file this text. Nothing comes of a path that cannot be a file here. -/
def write? (f : Folder) (p : Path) (text : String) : Option Folder :=
  p.fileName?.map fun name => ⟨(name, text) :: (f.without name).files⟩

/-- Gives a file another name. -/
def rename? (f : Folder) (source target : Path) : Option Folder := do
  let text ← f.read? source
  let name ← source.fileName?
  (f.without name).write? target text

/-- The names of the files in order. -/
def names (f : Folder) : List String :=
  (f.files.map (·.1)).mergeSort (fun a b => a ≤ b)

end Folder

end Simt
