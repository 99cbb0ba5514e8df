-- Snapshot files. A snapshot is first written whole under another name and then
-- renamed, so a reader finds either the old one or the new one. A snapshot that
-- cannot be written is lost, and never stops a launch.
import Simt.Folder
import Simt.Json.Model

namespace Simt.Snapshot

/-! ## The name that a file has while it is written -/

/-- The parts of a name before and after its last dot. A dot at the start of a name does
not count. -/
def lastDot (name : List Char) : Option (List Char × List Char) :=
  let after := (name.reverse.takeWhile (· ≠ '.')).reverse
  let before := (name.reverse.dropWhile (· ≠ '.')).tail.reverse
  if before.isEmpty then none else some (before, after)

/-- The name up to its last dot, which stays. -/
def withoutEnding (name : List Char) : List Char :=
  match lastDot name with
  | some (before, _) => before ++ ['.']
  | none => name

/-- The name before its last dot. -/
def stem (name : List Char) : List Char :=
  match lastDot name with
  | some (before, _) => before
  | none => name

/-- Two dots name the folder above. -/
def parentName : List Char := ['.', '.']

/-- A name with the ending `.json.tmp` in place of its own. Two dots take no ending. -/
def stagingName (name : List Char) : String :=
  if name = parentName then ".." else String.ofList (stem name) ++ ".json.tmp"

/-- The path that a snapshot is first written to. The name at the end of a path loses its
ending before it gets the new one, and what is left of it may be two dots. -/
def stagingPath (path : Path) : Path where
  before := path.before
  name := stagingName
    (if path.after.isEmpty then withoutEnding path.name.toList else path.name.toList)
  after := []

/-! ## Writing and reading -/

/-- The folder after the first step of a save: the snapshot stands under the other name. -/
def stage? (folder : Folder) (path : Path) (snapshot : Snapshot) : Option Folder :=
  folder.write? (stagingPath path) (codec.encode snapshot)

/-- The folder after a save. -/
def save (folder : Folder) (path : Path) (snapshot : Snapshot) : Folder :=
  match stage? folder path snapshot with
  | none => folder
  | some staged => (staged.rename? (stagingPath path) path).getD staged

/-- The snapshot that a text holds. -/
def ofText? (text : String) : Option Snapshot :=
  (codec.decode text).toOption

def ofFile? : TextFile → Option Snapshot
  | .text content => ofText? content
  | _ => none

def load? (folder : Folder) (path : Path) : Option Snapshot :=
  (folder.read? path).bind ofText?

end Simt.Snapshot
