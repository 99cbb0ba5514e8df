-- Records are read back as they were written. The members stand in the order of the
-- fields, each field once, so reading them puts the fields of the record that was
-- written into the blank one, from the first field to the last. What is left to say
-- of a record is that this makes up the whole of it.
import Mathlib.Data.List.Nodup
import Simt.Json.Record
import Simt.Proofs.Json.Codec

namespace Simt.Json

variable {α β : Type} {a record made : α} {r rest : List Char}

/-! ## Fields -/

/-- Reading what the field writes of `a` into `record` makes `made`. -/
def Field.Gives (field : Field α) (a record made : α) : Prop :=
  ∀ {rest : List Char}, Apart rest →
    (field.read record).run (field.write a ++ rest) = .ok (made, rest)

/-- Reading the fields in order, each as it is written of `a`, makes a record into `a`. -/
inductive Rebuilds (a : α) : List (Field α) → α → Prop
  | done : Rebuilds a [] a
  | next {field : Field α} {fields : List (Field α)} {record made : α}
      (hgives : field.Gives a record made) (hnext : Rebuilds a fields made) :
      Rebuilds a (field :: fields) record

section

variable {codec : Codec β} {name : String} {get : α → β} {set : α → β → α}
  {fields : List (Field α)}

theorem Field.into_reads (h : codec.Faithful) (hrest : Apart rest) :
    (Field.into codec set record).run (codec.write (get a) ++ rest) =
      .ok (set record (get a), rest) := by
  change (codec.run (codec.write (get a) ++ rest)).map _ = _
  rw [h.reads (get a) hrest]
  rfl

theorem Rebuilds.required (h : codec.Faithful) (hnext : Rebuilds a fields (set record (get a))) :
    Rebuilds a (.ofRequired name codec get set :: fields) record :=
  .next (Field.into_reads h) hnext

theorem Rebuilds.optional (h : codec.Faithful) (hnext : Rebuilds a fields (set record (get a))) :
    Rebuilds a (.ofOptional name codec get set :: fields) record :=
  .next (Field.into_reads h) hnext

end

namespace Record

variable {fields left : List (Field α)} {field : Field α} {seen seen' : List String}
  {first : Bool}

/-! ## One member -/

theorem nextMember_close (first : Bool) : nextMember first ('}' :: rest) = .ok none := by
  rw [nextMember, skipBlanks_cons rfl]
  rfl

theorem nextMember_joined (first : Bool) (s : List Char) :
    nextMember first ((if first then [] else [',']) ++ '"' :: s) = .ok (some s) := by
  cases first
  · simp [nextMember, skipBlanks_cons (c := ',') rfl, skipBlanks_cons (c := '"') rfl]
  · simp [nextMember, skipBlanks_cons (c := '"') rfl]

/-- A field is found under its name where no two fields share one. -/
theorem find?_name (hnames : (fields.map (·.name)).Nodup) (hmem : field ∈ fields) :
    fields.find? (fun other => other.name.toList = field.name.toList) = some field := by
  obtain ⟨found, hfound⟩ : ∃ found,
      fields.find? (fun other => other.name.toList = field.name.toList) = some found := by
    rw [← Option.isSome_iff_exists, List.find?_isSome]
    exact ⟨field, hmem, by simp⟩
  have hname : found.name = field.name := by
    simpa [String.toList_inj] using List.find?_some hfound
  rw [hfound, List.inj_on_of_nodup_map hnames (List.mem_of_find?_eq_some hfound) hmem hname]

theorem readMember_written
    (hfind : fields.find? (fun other => other.name.toList = field.name.toList) = some field)
    (hseen : field.name ∉ seen) (hgives : field.Gives a record made) (hrest : Apart rest) :
    readMember fields record seen field.name.toList (':' :: field.write a ++ rest) =
      .ok ((made, field.name :: seen), rest) := by
  have hmark : mark ':' (':' :: (field.write a ++ rest)) = .ok (field.write a ++ rest) :=
    mark_cons rfl
  simp [readMember, hfind, hseen, hmark, hgives hrest, bind, Except.bind, pure, Except.pure]

/-! ## All members -/

theorem readMembers_close (first : Bool) (hall : ∀ field ∈ fields, field.name ∈ seen) :
    readMembers fields record seen first ('}' :: rest) = .ok (record, rest) := by
  rw [readMembers]
  split <;> rename_i hn <;> rw [nextMember_close] at hn <;> cases hn
  rw [if_pos (by simpa using fun field hmem => .inr (hall field hmem)), mark_cons rfl]
  rfl

theorem readMembers_member {s t name : List Char} (hnext : nextMember first s = .ok (some t))
    (htext : readText [] t = .ok (name, r))
    (hmember : readMember fields record seen name r = .ok ((made, seen'), rest)) :
    readMembers fields record seen first s = readMembers fields made seen' false rest := by
  rw [readMembers]
  split <;> rename_i hn <;> rw [hnext] at hn <;> cases hn
  split <;> rename_i ht <;> rw [htext] at ht <;> cases ht
  split <;> rename_i hr <;> rw [hmember] at hr <;> cases hr
  rfl

/-- The members that are left make the record up, where the names of the others have been
seen. -/
theorem readMembers_joined (hnames : (fields.map (·.name)).Nodup)
    (hrebuilds : Rebuilds a left record) (hleft : (left.map (·.name)).Nodup)
    (hsub : ∀ field ∈ left, field ∈ fields ∧ field.name ∉ seen)
    (hall : ∀ field ∈ fields, field.name ∈ seen ∨ field ∈ left) (first : Bool) :
    readMembers fields record seen first
      (joined first (left.map (writeMember a)) ++ '}' :: rest) = .ok (a, rest) := by
  -- The names that were seen and the fields that are left share out the fields between them.
  induction hrebuilds generalizing seen first with
  | done => exact readMembers_close first fun field hmem => (hall field hmem).resolve_right (by simp)
  | @next field left record made hgives hnext ih =>
    obtain ⟨hmem, hseen⟩ := hsub field List.mem_cons_self
    rw [List.map_cons, List.nodup_cons] at hleft
    obtain ⟨t, ht, htext⟩ := readText_writeText field.name.toList
      (r := ':' :: field.write a ++ (joined false (left.map (writeMember a)) ++ '}' :: rest))
    have hopen := nextMember_joined first t
    rw [← ht] at hopen
    have hapart : Apart (joined false (left.map (writeMember a)) ++ '}' :: rest) :=
      apart_joined (.inr rfl)
    have hmember := readMember_written (find?_name hnames hmem) hseen hgives hapart
    rw [List.map_cons, joined, writeMember, List.append_assoc, List.append_assoc,
      List.append_assoc, readMembers_member hopen htext hmember]
    refine ih hleft.2 (fun other hother => ?_) (fun other hother => ?_) false
    · obtain ⟨hin, hnot⟩ := hsub other (List.mem_cons_of_mem field hother)
      refine ⟨hin, ?_⟩
      rw [List.mem_cons]
      rintro (hname | hold)
      · exact hleft.1 (hname ▸ List.mem_map_of_mem hother)
      · exact hnot hold
    · rcases hall other hother with hold | hnew
      · exact .inl (List.mem_cons_of_mem _ hold)
      · rcases List.mem_cons.mp hnew with rfl | hnew
        · exact .inl List.mem_cons_self
        · exact .inr hnew

end Record

/-- A record is read back where its fields have names of their own and make it up. -/
theorem Codec.record_faithful {blank : α} {fields : List (Field α)}
    (hnames : (fields.map (·.name)).Nodup) (hrebuilds : ∀ a, Rebuilds a fields blank) :
    (Codec.record blank fields).Faithful where
  reads a rest _ := by
    have hmembers : Record.readMembers fields blank [] true
        (joined true (fields.map (Record.writeMember a)) ++ '}' :: rest) = .ok (a, rest) :=
      Record.readMembers_joined hnames (hrebuilds a) hnames
        (fun field hmem => ⟨hmem, by simp⟩) (fun field hmem => .inr hmem) true
    change Record.read blank fields (Record.write fields a ++ rest) = _
    rw [Record.read, Record.write, intercalate_eq_joined]
    simp only [List.cons_append, List.append_assoc, skipBlanks_cons (c := '{') rfl]
    exact hmembers
  opens a := ⟨_, _, rfl, rfl, by decide⟩

end Simt.Json
