-- Snapshots that are saved under one name, one after the other. The name under which a snapshot is
-- written first is never the name of the file, so a reader of the file finds either what it held
-- before or the new snapshot. Names of two dots and an ending stand apart: they lose the ending
-- first, and what is left is no file. So do names that get too long with the new ending.
import Mathlib
import Simt.Proofs.Snapshot.File

namespace Simt

/-! ## File names -/

namespace Path

variable {name : String}

theorem isFileName_iff : isFileName name = true ↔
    name ≠ "" ∧ name ≠ "." ∧ name ≠ ".." ∧ name.utf8ByteSize ≤ maxNameBytes ∧
      ∀ c ∈ name.toList, c ≠ '/' ∧ c ≠ '\x00' := by
  simp [isFileName, and_assoc]

theorem text_ofName (name : String) : (ofName name).text = name := by
  simp [text, ofName]

theorem fileName?_ofName (h : isFileName name = true) : (ofName name).fileName? = some name := by
  have hbytes := (isFileName_iff.mp h).2.2.2.1
  have hfits : (ofName name).text.utf8ByteSize ≤ maxBytes := by
    rw [text_ofName]
    exact hbytes.trans (by decide)
  have hinside : (ofName name).staysInside = true ∧ (ofName name).after.isEmpty = true :=
    ⟨rfl, rfl⟩
  rw [fileName?, if_pos (by simp only [hinside, hfits, decide_true, Bool.and_true]; exact h)]
  rfl

theorem fileName?_eq_none {p : Path} (h : isFileName p.name = false) : p.fileName? = none := by
  rw [fileName?, if_neg (by simp [h])]

end Path

/-! ## Folders -/

namespace Folder

theorem lookup_without {f : Folder} {name other : String} (h : name ≠ other) :
    (f.without other).files.lookup name = f.files.lookup name := by
  obtain ⟨files⟩ := f
  rw [without]
  induction files with
  | nil => rfl
  | cons file rest ih =>
    obtain ⟨first, text⟩ := file
    rw [List.filter_cons]
    split
    · rw [List.lookup_cons, List.lookup_cons, ih]
    · rename_i hfirst
      have hne : (name == first) = false := by simp_all
      rw [ih, List.lookup_cons, hne]

/-- A file is not touched when another one is written. -/
theorem read?_write?_of_ne {f g : Folder} {p q : Path} {name other text : String}
    (h : f.write? q text = some g) (hp : p.fileName? = some name) (hq : q.fileName? = some other)
    (hne : name ≠ other) : g.read? p = f.read? p := by
  rw [write?_ok f hq, Option.some.injEq] at h
  subst h
  have hfalse : (name == other) = false := by simpa using hne
  rw [read?, read?, hp, Option.bind_some, Option.bind_some, List.lookup_cons, hfalse,
    lookup_without hne]

end Folder

namespace Snapshot

/-! ## The last dot of a name -/

variable {before ending : List Char}

theorem lastDot_append (hending : '.' ∉ ending) (hbefore : before ≠ []) :
    lastDot (before ++ '.' :: ending) = some (before, ending) := by
  have hplain : ∀ c ∈ ending.reverse, decide (c ≠ '.') = true := by
    intro c hc
    refine decide_eq_true fun he => hending ?_
    rwa [← he, ← List.mem_reverse]
  have hreverse : (before ++ '.' :: ending).reverse = ending.reverse ++ '.' :: before.reverse := by
    simp
  rw [lastDot, hreverse, List.takeWhile_append_of_pos hplain, List.dropWhile_append_of_pos hplain]
  simp [hbefore]

theorem lastDot_eq_some {name : List Char} (h : lastDot name = some (before, ending)) :
    name = before ++ '.' :: ending ∧ '.' ∉ ending ∧ before ≠ [] := by
  -- Backwards, the name is its ending, a dot, and the rest.
  have hsplit :=
    List.takeWhile_append_dropWhile (p := fun c => decide (c ≠ '.')) (l := name.reverse)
  have hplain : '.' ∉ name.reverse.takeWhile fun c => decide (c ≠ '.') := fun hdot => by
    simpa using List.mem_takeWhile_imp hdot
  have hdot := List.head?_dropWhile_not (fun c => decide (c ≠ '.')) name.reverse
  simp only [lastDot] at h
  split at h
  · cases h
  · rename_i hbefore
    cases h
    cases hdrop : name.reverse.dropWhile fun c => decide (c ≠ '.') with
    | nil => exact absurd (by rw [hdrop]; rfl) hbefore
    | cons c rest =>
      rw [hdrop] at hsplit hdot hbefore
      have hc : c = '.' := by simpa using hdot
      refine ⟨?_, ?_, ?_⟩
      · have hname := congrArg List.reverse hsplit
        rw [List.reverse_reverse, List.reverse_append, List.reverse_cons, hc,
          List.append_assoc] at hname
        exact hname.symm
      · rwa [List.mem_reverse]
      · intro hnil
        rw [hnil] at hbefore
        exact hbefore rfl

/-- A name that has lost its ending ends with a dot, and what stands before that dot is what stood
before. -/
theorem stem_withoutEnding (name : List Char) : stem (withoutEnding name) = stem name := by
  unfold withoutEnding
  cases h : lastDot name with
  | none => rfl
  | some parts =>
    obtain ⟨hname, hending, hbefore⟩ := lastDot_eq_some h
    simp only [stem, h, lastDot_append (List.not_mem_nil) hbefore]

/-- Two dots are left of a name of two dots and an ending, and of no other name. -/
theorem withoutEnding_eq_parentName {name : List Char} : withoutEnding name = parentName ↔
    ∃ ending, '.' ∉ ending ∧ name = '.' :: '.' :: ending := by
  constructor
  · intro h
    unfold withoutEnding at h
    split at h
    · rename_i before after hdot
      obtain ⟨hname, hafter, _⟩ := lastDot_eq_some hdot
      have hbefore : before = ['.'] :=
        List.append_cancel_right (h.trans (by rfl : _ = ['.'] ++ ['.']))
      exact ⟨after, hafter, by rw [hname, hbefore]; rfl⟩
    · exact ⟨[], List.not_mem_nil, h⟩
  · rintro ⟨ending, hending, rfl⟩
    have hdot : lastDot ('.' :: '.' :: ending) = some (['.'], ending) :=
      @lastDot_append ['.'] ending hending (by nofun)
    rw [withoutEnding, hdot]
    rfl

theorem mem_stem {name : List Char} {c : Char} (h : c ∈ stem name) : c ∈ name := by
  unfold stem at h
  split at h
  · rename_i before after hdot
    rw [(lastDot_eq_some hdot).1]
    exact List.mem_append_left _ h
  · exact h

/-! ## The name of the file while it is written -/

variable {name : String}

/-- The name is two dots and an ending. -/
def TwoDotted (name : String) : Prop :=
  ∃ ending, '.' ∉ ending ∧ name.toList = '.' :: '.' :: ending

/-- A name with the ending `.json.tmp` in place of its own. -/
def stagingFile (name : String) : String := String.ofList (stem name.toList) ++ ".json.tmp"

theorem stagingPath_ofName (h : ¬ TwoDotted name) :
    stagingPath (.ofName name) = .ofName (stagingFile name) := by
  have hname : withoutEnding name.toList ≠ parentName := fun he =>
    h (withoutEnding_eq_parentName.mp he)
  have hstaging : stagingName (withoutEnding name.toList) = stagingFile name := by
    rw [stagingName, if_neg hname, stem_withoutEnding, stagingFile]
  exact congrArg Path.ofName hstaging

theorem stagingPath_twoDotted (h : TwoDotted name) :
    stagingPath (.ofName name) = .ofName ".." := by
  have hname : stagingName (withoutEnding name.toList) = ".." := by
    rw [stagingName, if_pos (withoutEnding_eq_parentName.mpr h)]
  exact congrArg Path.ofName hname

/-- The ending of a name has no dot, and `json.tmp` has one. -/
theorem stagingFile_ne (name : String) : stagingFile name ≠ name := by
  intro h
  have hlist : stem name.toList ++ ".json.tmp".toList = name.toList := by
    rw [stagingFile] at h
    have := congrArg String.toList h
    rwa [String.toList_append, String.toList_ofList] at this
  unfold stem at hlist
  split at hlist
  · rename_i before after hdot
    obtain ⟨hname, hafter, _⟩ := lastDot_eq_some hdot
    have htail : ".json.tmp".toList = '.' :: after :=
      List.append_cancel_left (hlist.trans hname)
    have hjson : "json.tmp".toList = after := List.tail_eq_of_cons_eq htail
    exact hafter (hjson ▸ by decide)
  · have := congrArg List.length hlist
    simp at this

theorem isFileName_stagingFile (hname : Path.isFileName name = true)
    (hshort : (stagingFile name).utf8ByteSize ≤ Path.maxNameBytes) :
    Path.isFileName (stagingFile name) = true := by
  have hlist : (stagingFile name).toList = stem name.toList ++ ".json.tmp".toList := by
    rw [stagingFile, String.toList_append, String.toList_ofList]
  have hlong : ∀ other : String, other.toList.length < 9 → stagingFile name ≠ other := by
    rintro other hother rfl
    rw [hlist, List.length_append] at hother
    exact absurd hother (by simp)
  refine Path.isFileName_iff.mpr ⟨hlong "" (by decide), hlong "." (by decide),
    hlong ".." (by decide), hshort, fun c hc => ?_⟩
  rw [hlist] at hc
  rcases List.mem_append.mp hc with hstem | hending
  · exact (Path.isFileName_iff.mp hname).2.2.2.2 c (mem_stem hstem)
  · have hplain : ∀ c ∈ ".json.tmp".toList, c ≠ '/' ∧ c ≠ '\x00' := by simp
    exact hplain c hending

/-- The name is a file name with which the saves of snapshots begin. -/
theorem fileName?_stagingPath (hname : Path.isFileName name = true) (hdots : ¬ TwoDotted name)
    (hshort : (stagingFile name).utf8ByteSize ≤ Path.maxNameBytes) :
    (stagingPath (.ofName name)).fileName? = some (stagingFile name) := by
  rw [stagingPath_ofName hdots]
  exact Path.fileName?_ofName (isFileName_stagingFile hname hshort)

theorem fileName?_stagingPath_eq_none
    (h : TwoDotted name ∨ Path.maxNameBytes < (stagingFile name).utf8ByteSize) :
    (stagingPath (.ofName name)).fileName? = none := by
  apply Path.fileName?_eq_none
  by_cases hdots : TwoDotted name
  · rw [stagingPath_twoDotted hdots]
    rfl
  · rw [stagingPath_ofName hdots, Bool.eq_false_iff]
    intro hstaging
    have hshort := (Path.isFileName_iff.mp hstaging).2.2.2.1
    exact absurd (h.resolve_left hdots) (Nat.not_lt.mpr hshort)

/-! ## Saves under one name -/

/-- The folder after snapshots were saved in turn. -/
def saveAll (folder : Folder) (path : Path) (snapshots : List Snapshot) : Folder :=
  snapshots.foldl (fun folder snapshot => save folder path snapshot) folder

theorem saveAll_snoc (folder : Folder) (path : Path) (earlier : List Snapshot)
    (snapshot : Snapshot) : saveAll folder path (earlier ++ [snapshot]) =
      save (saveAll folder path earlier) path snapshot := by
  rw [saveAll, List.foldl_append, List.foldl_cons, List.foldl_nil, saveAll]

/-- The folder of one file, with the text of a snapshot, or no file at all. -/
def onlyFile (name : String) : Option Snapshot → Folder
  | none => .empty
  | some snapshot => ⟨[(name, codec.encode snapshot)]⟩

theorem read?_onlyFile (hname : (Path.ofName name).fileName? = some name)
    (before : Option Snapshot) :
    (onlyFile name before).read? (.ofName name) = before.map codec.encode := by
  cases before with
  | none => rw [Folder.read?, hname]; rfl
  | some old => rw [Folder.read?, hname, onlyFile, Option.bind_some, List.lookup_cons_self]; rfl

section Staged

variable {staging : String} (hname : (Path.ofName name).fileName? = some name)
  (hstaging : (stagingPath (.ofName name)).fileName? = some staging)

include hname hstaging

theorem save_onlyFile (before : Option Snapshot) (snapshot : Snapshot) :
    save (onlyFile name before) (.ofName name) snapshot = onlyFile name (some snapshot) := by
  rw [save_eq _ hname hstaging]
  cases before with
  | none => rfl
  | some old => simp [onlyFile, Folder.without]

theorem saveAll_empty (snapshots : List Snapshot) :
    saveAll .empty (.ofName name) snapshots = onlyFile name snapshots.getLast? := by
  induction snapshots using List.reverseRecOn with
  | nil => rfl
  | append_singleton earlier snapshot ih =>
    rw [saveAll_snoc, ih, save_onlyFile hname hstaging, List.getLast?_concat]

end Staged

/-- Nothing is written where the save has no file to begin with. -/
theorem saveAll_unstaged {path : Path} (h : (stagingPath path).fileName? = none) (folder : Folder)
    (snapshots : List Snapshot) : saveAll folder path snapshots = folder := by
  induction snapshots with
  | nil => rfl
  | cons snapshot rest ih =>
    have hsave : save folder path snapshot = folder := by
      rw [save, stage?, Folder.write?, h]
      rfl
    rw [saveAll, List.foldl_cons, hsave]
    exact ih

/-- A snapshot is saved where `earlier` ones were saved before it, and the file is replaced as a
whole. -/
structure ReplacesWhole (name : String) (earlier : List Snapshot) (snapshot : Snapshot) : Prop where
  /-- Between the two steps of the save, the file holds what it held before, or is not there. -/
  between : ∃ staged, stage? (saveAll .empty (.ofName name) earlier) (.ofName name) snapshot =
      some staged ∧
    staged.read? (.ofName name) = earlier.getLast?.map codec.encode
  /-- After it, the folder has this file and no other. -/
  files : (saveAll .empty (.ofName name) (earlier ++ [snapshot])).files =
    [(name, codec.encode snapshot)]
  loads : load? (saveAll .empty (.ofName name) (earlier ++ [snapshot])) (.ofName name) =
    some snapshot

/-- Whatever its dots are, a file is replaced as a whole by each of the snapshots that are saved
under its name, and nothing else stands in the folder. Only where the name is two dots and an
ending, or gets too long with the ending `.json.tmp`, nothing is ever written to any folder. -/
theorem a_saved_file_is_replaced_whole_unless_its_name_is_two_dots_and_an_ending
    (hname : Path.isFileName name = true) :
    (¬ TwoDotted name → (stagingFile name).utf8ByteSize ≤ Path.maxNameBytes →
        ∀ earlier snapshot, ReplacesWhole name earlier snapshot) ∧
      (TwoDotted name ∨ Path.maxNameBytes < (stagingFile name).utf8ByteSize →
        ∀ folder snapshots, saveAll folder (.ofName name) snapshots = folder) := by
  refine ⟨fun hdots hshort earlier snapshot => ?_, fun h =>
    saveAll_unstaged (fileName?_stagingPath_eq_none h)⟩
  have htarget := Path.fileName?_ofName hname
  have hstaging := fileName?_stagingPath hname hdots hshort
  have hafter := saveAll_empty htarget hstaging (earlier ++ [snapshot])
  rw [List.getLast?_concat] at hafter
  have hstaged := Folder.write?_ok (saveAll .empty (.ofName name) earlier) hstaging
    (codec.encode snapshot)
  refine ⟨⟨_, hstaged, ?_⟩, by rw [hafter]; rfl, ?_⟩
  · rw [Folder.read?_write?_of_ne hstaged htarget hstaging (stagingFile_ne name).symm,
      saveAll_empty htarget hstaging, read?_onlyFile htarget]
  · rw [saveAll_snoc]
    exact load?_save ⟨⟨_, htarget⟩, ⟨_, hstaging⟩⟩ _ snapshot

/-- A hidden file that ends as files do while they are written: two snapshots are saved, and the
second one takes the place of the first. Under the other name none is saved. -/
theorem the_second_of_two_snapshots_takes_the_place_of_the_first :
    ReplacesWhole ".json.tmp" [.blank] { Snapshot.blank with blocks := 1 } ∧
      TwoDotted "..x" ∧ saveAll .empty (.ofName "..x") [.blank, .blank] = .empty := by
  have hdots : ¬ TwoDotted ".json.tmp" := by
    rintro ⟨ending, _, h⟩
    cases h
  have hlost : TwoDotted "..x" := ⟨['x'], by decide, rfl⟩
  refine ⟨?_, hlost, ?_⟩
  · exact (a_saved_file_is_replaced_whole_unless_its_name_is_two_dots_and_an_ending
      (by decide)).1 hdots (by decide) _ _
  · exact (a_saved_file_is_replaced_whole_unless_its_name_is_two_dots_and_an_ending
      (by decide)).2 (Or.inl hlost) _ _

/-- A file can have the name `..x`, but the snapshot would first be written to the folder above. -/
theorem a_snapshot_is_lost_where_two_dots_are_left_of_the_name :
    Path.isFileName "..x" = true ∧ (stagingFile "..x").utf8ByteSize ≤ Path.maxNameBytes ∧
      (stagingPath (.ofName "..x")).name = ".." ∧
      (saveAll .empty (.ofName "..x") [.blank]).files = [] ∧
      load? (saveAll .empty (.ofName "..x") [.blank]) (.ofName "..x") = none ∧
      ¬ ReplacesWhole "..x" [] .blank := by
  have hfiles : (saveAll .empty (.ofName "..x") [.blank]).files = [] := rfl
  refine ⟨by decide, by decide, rfl, hfiles, rfl, fun h => ?_⟩
  have hone := h.files
  rw [List.nil_append, hfiles] at hone
  cases hone

end Snapshot

end Simt
