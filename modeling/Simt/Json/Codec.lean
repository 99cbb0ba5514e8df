-- Codecs: a reader and a writer of the same type. What a codec writes is compact,
-- with no blanks, and its reader takes every JSON text for the value.
import Simt.Json.Reader

namespace Simt.Json

structure Codec (α : Type) extends Reader α where
  write : α → List Char

namespace Codec

variable {α β : Type}

def encode (codec : Codec α) (a : α) : String :=
  String.ofList (codec.write a)

def decode (codec : Codec α) (s : String) : Except Cause α :=
  codec.parse s.toList

/-! ## Single values -/

def u32 : Codec UInt32 where
  run := readWhole fun
    | .natural n => if n < UInt32.size then some (UInt32.ofNat n) else none
    | _ => none
  shorter := readWhole_shorter
  write n := Numeral.chars 10 n.toNat

def u64 : Codec UInt64 where
  run := readWhole fun
    | .natural n => some (UInt64.ofNat n)
    | _ => none
  shorter := readWhole_shorter
  write n := Numeral.chars 10 n.toNat

def i32 : Codec Int32 where
  run := readWhole fun
    | .natural n => if n < 1 <<< 31 then some (Int32.ofNat n) else none
    | .negative n => if n ≤ 1 <<< 31 then some (Int32.ofInt (-n)) else none
    | .inexact => none
  shorter := readWhole_shorter
  write n := Numeral.signedChars n.toInt

def bool : Codec Bool where
  run := readBool
  shorter := readBool_shorter
  write b := if b then ['t', 'r', 'u', 'e'] else ['f', 'a', 'l', 's', 'e']

def string : Codec String where
  run s := (readString s).map fun p => (String.ofList p.1, p.2)
  shorter := by
    intro s a r h
    obtain ⟨p, hs, he⟩ := of_map_eq_ok h
    cases he
    exact readString_shorter hs
  write s := writeText s.toList

/-! ## Choices -/

/-- Looks a name up among the choices. -/
def chosen (choices : List α) (label : α → String) (name : List Char) : Except Cause α :=
  match choices.find? fun a => (label a).toList = name with
  | some a => .ok a
  | none => .error .mismatched

/-- Reads one of a few names: the name itself, or an object with the name as its only
member and null as the value of it. -/
def readChoice (choices : List α) (label : α → String) (s : List Char) :
    Except Cause (α × List Char) :=
  match skipBlanks s with
  | [] => .error .ended
  | '"' :: r => do
    let (name, r) ← readText [] r
    let a ← chosen choices label name
    return (a, r)
  | '{' :: r => do
    let r ← mark '"' r
    let (name, r) ← readText [] r
    let a ← chosen choices label name
    let r ← mark ':' r
    let r ← readNull r
    let r ← mark '}' r
    return (a, r)
  | _ => .error .malformed

theorem readChoice_shorter {choices : List α} {label : α → String} {s r : List Char} {a : α}
    (h : readChoice choices label s = .ok (a, r)) : r.length < s.length := by
  have hle := length_skipBlanks_le s
  simp only [readChoice] at h
  generalize skipBlanks s = t at h hle
  split at h
  · simp at h
  · obtain ⟨⟨name, r1⟩, ht, h⟩ := of_bind_eq_ok h
    obtain ⟨b, -, h⟩ := of_bind_eq_ok h
    cases h
    have := readText_shorter ht
    simp only [List.length_cons] at *
    omega
  · obtain ⟨r0, hq, h⟩ := of_bind_eq_ok h
    obtain ⟨⟨name, r1⟩, ht, h⟩ := of_bind_eq_ok h
    obtain ⟨b, -, h⟩ := of_bind_eq_ok h
    obtain ⟨r2, hm, h⟩ := of_bind_eq_ok h
    obtain ⟨r3, hn, h⟩ := of_bind_eq_ok h
    obtain ⟨r4, hb, h⟩ := of_bind_eq_ok h
    cases h
    have := mark_shorter hq
    have := readText_shorter ht
    have := mark_shorter hm
    have := readNull_length_le hn
    have := mark_shorter hb
    simp only [List.length_cons] at *
    omega
  · simp at h

def choice (choices : List α) (label : α → String) : Codec α where
  run := readChoice choices label
  shorter := readChoice_shorter
  write a := writeText (label a).toList

/-! ## Lists -/

/-- The items of a list between brackets, with commas between them. -/
def bracketed (items : List (List Char)) : List Char :=
  '[' :: [','].intercalate items ++ [']']

def list (item : Codec α) : Codec (List α) where
  run := afterBracket '[' (readItems item.toReader [] true)
  shorter := afterBracket_shorter readItems_shorter
  write as := bracketed (as.map item.write)

/-- A list of a fixed number of items. -/
def vector (n : Nat) (item : Codec α) : Codec (Vector α n) where
  run := afterBracket '[' (readVector item.toReader n true)
  shorter := afterBracket_shorter readVector_shorter
  write as := bracketed (as.toList.map item.write)

/-- A type that is written as another one. -/
def via (codec : Codec α) (of : α → β) (back : β → α) : Codec β where
  run s := (codec.run s).map fun p => (of p.1, p.2)
  shorter := by
    intro s a r h
    obtain ⟨p, hs, he⟩ := of_map_eq_ok h
    cases he
    exact codec.shorter hs
  write b := codec.write (back b)

end Codec

end Simt.Json
