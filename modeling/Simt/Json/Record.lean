-- Records: values with named fields. A record is written as an object with its
-- fields in order. It is read from an object with members in any order, where
-- members of other names are passed over, or from a list of the fields in order.
import Simt.Json.Codec

namespace Simt.Json

/-- One field of a record of type `α`. Reading a field puts it into the record that has
been read so far. -/
structure Field (α : Type) where
  name : String
  /-- A field that may be left out keeps the value that it has in the blank record. -/
  required : Bool
  read : α → Reader α
  write : α → List Char

namespace Field

variable {α β : Type}

/-- Puts what a reader reads somewhere else. -/
def into (codec : Codec β) (set : α → β → α) (a : α) : Reader α where
  run s := (codec.run s).map fun p => (set a p.1, p.2)
  shorter := by
    intro s b r h
    obtain ⟨p, hs, he⟩ := of_map_eq_ok h
    cases he
    exact codec.shorter hs

def ofRequired (name : String) (codec : Codec β) (get : α → β) (set : α → β → α) : Field α :=
  ⟨name, true, into codec set, fun a => codec.write (get a)⟩

def ofOptional (name : String) (codec : Codec β) (get : α → β) (set : α → β → α) : Field α :=
  ⟨name, false, into codec set, fun a => codec.write (get a)⟩

end Field

namespace Record

variable {α : Type}

/-! ## Reading a list of fields -/

/-- Reads the fields that are left, in order, and the closing bracket. -/
def readFields : List (Field α) → (record : α) → (first : Bool) → List Char → Read α
  | [], record, _, s => (mark ']' s).map (record, ·)
  | field :: fields, record, first, s =>
    match nextItem first s with
    | .error e => .error e
    | .ok none => if field.required then .error .mismatched else readFields fields record first s
    | .ok (some t) =>
      match (field.read record).run t with
      | .error e => .error e
      | .ok (record, r) => readFields fields record false r

theorem readFields_shorter {fields : List (Field α)} {record a : α} {first : Bool}
    {s r : List Char} (h : readFields fields record first s = .ok (a, r)) :
    r.length < s.length := by
  induction fields generalizing record first s with
  | nil => exact length_lt_of_mark h
  | cons field fields ih =>
    simp only [readFields] at h
    split at h
    · simp at h
    · split at h
      · simp at h
      · exact ih h
    · rename_i hn
      have := nextItem_length_le hn
      split at h
      · simp at h
      · rename_i hr
        have := (field.read record).shorter hr
        have := ih h
        omega

/-! ## Reading members -/

/-- Looks for the next member of an object. The answer is the text after the opening quote
of its name, or nothing at the closing bracket, which stays in the text. -/
def nextMember (first : Bool) (s : List Char) : Except Cause (Option (List Char)) :=
  match skipBlanks s with
  | [] => .error .ended
  | c :: r =>
    if c = '}' then .ok none
    else if first then
      if c = '"' then .ok (some r) else .error .malformed
    else if c = ',' then
      match skipBlanks r with
      | [] => .error .ended
      | d :: r => if d = '"' then .ok (some r) else .error .malformed
    else .error .malformed

/-- Reads the value of a member into the record. A field that was seen already is at fault
before its value. The names of the fields that were seen are part of the answer. -/
def readMember (fields : List (Field α)) (record : α) (seen : List String)
    (name s : List Char) : Except Cause ((α × List String) × List Char) :=
  match fields.find? fun field => field.name.toList = name with
  | some field =>
    if seen.contains field.name then .error .mismatched
    else do
      let r ← mark ':' s
      let (record, r) ← (field.read record).run r
      return ((record, field.name :: seen), r)
  | none => do
    let r ← mark ':' s
    let r ← skipValue r
    return ((record, seen), r)

theorem nextMember_shorter {first : Bool} {s r : List Char}
    (h : nextMember first s = .ok (some r)) : r.length < s.length := by
  have hle := length_skipBlanks_le s
  simp only [nextMember] at h
  generalize skipBlanks s = t at h hle
  split at h
  · simp at h
  · rename_i c r'
    split at h
    · simp at h
    · split at h
      · split at h
        · simp only [Except.ok.injEq, Option.some.injEq] at h
          subst h
          simp only [List.length_cons] at hle
          omega
        · simp at h
      · split at h
        · have hle' := length_skipBlanks_le r'
          generalize skipBlanks r' = u at h hle'
          split at h
          · simp at h
          · split at h
            · simp only [Except.ok.injEq, Option.some.injEq] at h
              subst h
              simp only [List.length_cons] at hle hle'
              omega
            · simp at h
        · simp at h

theorem readMember_shorter {fields : List (Field α)} {record : α} {seen : List String}
    {name s r : List Char} {a : α × List String}
    (h : readMember fields record seen name s = .ok (a, r)) : r.length < s.length := by
  simp only [readMember] at h
  split at h
  · rename_i field _
    split at h
    · simp at h
    · obtain ⟨r1, hm, h⟩ := of_bind_eq_ok h
      obtain ⟨p, hr, h⟩ := of_bind_eq_ok h
      cases h
      have := mark_shorter hm
      have := (field.read record).shorter hr
      omega
  · obtain ⟨r1, hm, h⟩ := of_bind_eq_ok h
    obtain ⟨r2, hr, h⟩ := of_bind_eq_ok h
    cases h
    have := mark_shorter hm
    have := skip_length_le hr
    omega

/-- Reads members up to the closing bracket. There, every required field has to have been
seen. -/
def readMembers (fields : List (Field α)) (record : α) (seen : List String) (first : Bool)
    (s : List Char) : Read α :=
  match _hn : nextMember first s with
  | .error e => .error e
  | .ok none =>
    if fields.all fun field => !field.required || seen.contains field.name then
      (mark '}' s).map (record, ·)
    else .error .mismatched
  | .ok (some t) =>
    match _ht : readText [] t with
    | .error e => .error e
    | .ok (name, r) =>
      match _hr : readMember fields record seen name r with
      | .error e => .error e
      | .ok ((record, seen), r) => readMembers fields record seen false r
termination_by s.length
decreasing_by
  have := nextMember_shorter _hn
  have := readText_shorter _ht
  have := readMember_shorter _hr
  omega

theorem readMembers_shorter {fields : List (Field α)} {record a : α} {seen : List String}
    {first : Bool} {s r : List Char} (h : readMembers fields record seen first s = .ok (a, r)) :
    r.length < s.length := by
  fun_induction readMembers fields record seen first s with
  | case1 => simp at h
  | case2 => exact length_lt_of_mark h
  | case3 => simp at h
  | case4 => simp at h
  | case5 => simp at h
  | case6 _ _ _ _ _ hn _ _ ht _ _ _ hr ih =>
    have := nextMember_shorter hn
    have := readText_shorter ht
    have := readMember_shorter hr
    have := ih h
    omega

/-! ## Records -/

def read (blank : α) (fields : List (Field α)) (s : List Char) : Read α :=
  match skipBlanks s with
  | [] => .error .ended
  | c :: r =>
    if c = '[' then readFields fields blank true r
    else if c = '{' then readMembers fields blank [] true r
    else .error (wrongType (c :: r))

theorem read_shorter {blank a : α} {fields : List (Field α)} {s r : List Char}
    (h : read blank fields s = .ok (a, r)) : r.length < s.length := by
  have hle := length_skipBlanks_le s
  simp only [read] at h
  generalize skipBlanks s = t at h hle
  split at h
  · simp at h
  · simp only [List.length_cons] at hle
    split at h
    · have := readFields_shorter h; omega
    · split at h
      · have := readMembers_shorter h; omega
      · simp at h

/-- One member of an object. -/
def writeMember (a : α) (field : Field α) : List Char :=
  writeText field.name.toList ++ ':' :: field.write a

def write (fields : List (Field α)) (a : α) : List Char :=
  '{' :: [','].intercalate (fields.map (writeMember a)) ++ ['}']

end Record

/-- The codec of a record. Fields that are left out are taken from the blank one. -/
def Codec.record {α : Type} (blank : α) (fields : List (Field α)) : Codec α where
  run := Record.read blank fields
  shorter := Record.read_shorter
  write := Record.write fields

end Simt.Json
