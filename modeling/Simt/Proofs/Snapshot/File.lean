-- Saved snapshots. A snapshot that is saved is the one that the next reader of the path gets,
-- whatever stood under the name before, and whatever stood under the name that the snapshot
-- has while it is written.
import Simt.Proofs.Json.Model
import Simt.Snapshot.File

namespace Simt

/-! ## Files -/

namespace Folder

variable {f g : Folder} {p source : Path} {name text : String}

theorem write?_ok (f : Folder) (hp : p.fileName? = some name) (text : String) :
    f.write? p text = some ⟨(name, text) :: (f.without name).files⟩ := by
  rw [write?, hp]
  rfl

theorem read?_write? (h : f.write? p text = some g) : g.read? p = some text := by
  obtain ⟨name, hp, rfl⟩ := Option.map_eq_some_iff.mp h
  rw [read?, hp, Option.bind_some, List.lookup_cons_self]

/-- A file that is renamed is written under its new name. -/
theorem rename?_eq_write? (target : Path) (hname : source.fileName? = some name)
    (htext : f.read? source = some text) :
    f.rename? source target = (f.without name).write? target text := by
  rw [rename?, htext, hname]
  rfl

end Folder

namespace Snapshot

variable {path : Path}

theorem ofText?_encode (snapshot : Snapshot) : ofText? (codec.encode snapshot) = some snapshot := by
  rw [ofText?, codec_faithful.decode_encode]
  rfl

/-- A file of the folder can stand at the path, and another one at the path that a snapshot is
first written to. -/
structure Savable (path : Path) : Prop where
  target : ∃ name, path.fileName? = some name
  staging : ∃ name, (stagingPath path).fileName? = some name

/-- A save puts the file in front, and takes away what stood under the two names. -/
theorem save_eq {name staging : String} (folder : Folder) (hname : path.fileName? = some name)
    (hstaging : (stagingPath path).fileName? = some staging) (snapshot : Snapshot) :
    save folder path snapshot =
      ⟨(name, codec.encode snapshot) :: ((folder.without staging).without name).files⟩ := by
  have hstaged := Folder.write?_ok folder hstaging (codec.encode snapshot)
  have hrenamed := (Folder.rename?_eq_write? path hstaging (Folder.read?_write? hstaged)).trans
    (Folder.write?_ok _ hname _)
  rw [save, stage?, hstaged]
  simp only [hrenamed, Option.getD_some]
  simp [Folder.without, List.filter_filter]

/-- The snapshot that was saved last is the one that is read. -/
theorem load?_save (h : Savable path) (folder : Folder) (snapshot : Snapshot) :
    load? (save folder path snapshot) path = some snapshot := by
  obtain ⟨name, hname⟩ := h.target
  obtain ⟨staging, hstaging⟩ := h.staging
  rw [save_eq folder hname hstaging, load?, Folder.read?, hname, Option.bind_some,
    List.lookup_cons_self, Option.bind_some, ofText?_encode]

end Snapshot

end Simt
