-- Strings of JSON, from the character after the opening quote. A reader answers
-- with what it read and with the characters that are left, or with the cause of
-- the first problem.
import Simt.Error

namespace Simt.Json

abbrev Read (α : Type) := Except Cause (α × List Char)

/-! ## Escapes -/

def hexValue (c : Char) : Option Nat :=
  if '0' ≤ c ∧ c ≤ '9' then some (c.toNat - 48)
  else if 'a' ≤ c ∧ c ≤ 'f' then some (c.toNat - 87)
  else if 'A' ≤ c ∧ c ≤ 'F' then some (c.toNat - 55)
  else none

/-- The number that the next four characters are in hexadecimal. Where fewer than four
bytes are left, the text has ended, whatever they are. -/
def codeUnit (s : List Char) : Except Cause Nat :=
  if (s.take 4).foldl (fun bytes c => bytes + c.utf8Size) 0 < 4 then .error .ended
  else
    match (s.take 4).mapM hexValue with
    | some [a, b, c, d] => .ok (((a * 16 + b) * 16 + c) * 16 + d)
    | _ => .error .malformed

/-- The character that one letter after a backslash stands for. -/
def letterEscape : Char → Option Char
  | '"' => some '"'
  | '\\' => some '\\'
  | '/' => some '/'
  | 'b' => some '\x08'
  | 'f' => some '\x0c'
  | 'n' => some '\n'
  | 'r' => some '\r'
  | 't' => some '\t'
  | _ => none

def isLeading (unit : Nat) : Bool := 0xD800 ≤ unit && unit ≤ 0xDBFF

def isTrailing (unit : Nat) : Bool := 0xDC00 ≤ unit && unit ≤ 0xDFFF

/-- The character of a surrogate pair. -/
def ofPair (lead trail : Nat) : Char :=
  Char.ofNat (0x10000 + (lead - 0xD800) * 0x400 + (trail - 0xDC00))

/-- The character that an escape stands for, from the character after the backslash, and
how many characters the escape takes from there. A leading surrogate has to be followed
by the escape of a trailing one, and a trailing one does not stand alone. -/
def escape : List Char → Except Cause (Char × Nat)
  | [] => .error .ended
  | 'u' :: r => do
    let lead ← codeUnit r
    if isTrailing lead then .error .malformed
    else if isLeading lead then
      match r.drop 4 with
      | [] => .error .ended
      | ['\\'] => .error .ended
      | '\\' :: 'u' :: r => do
        let trail ← codeUnit r
        if isTrailing trail then .ok (ofPair lead trail, 11) else .error .malformed
      | _ => .error .malformed
    else .ok (Char.ofNat lead, 5)
  | c :: _ =>
    match letterEscape c with
    | some d => .ok (d, 1)
    | none => .error .malformed

/-! ## Whole strings -/

/-- A control character has to be escaped inside a string. -/
def isControl (c : Char) : Bool := c < ' '

/-- Reads a string up to its closing quote. What was read before stands in `taken`, the
last character first. -/
def readText (taken : List Char) : List Char → Read (List Char)
  | [] => .error .ended
  | c :: r =>
    if c = '"' then .ok (taken.reverse, r)
    else if c = '\\' then
      match escape r with
      | .error e => .error e
      | .ok (d, n) => readText (d :: taken) (r.drop n)
    else if isControl c then .error .malformed
    else readText (c :: taken) r
termination_by s => s.length
decreasing_by
  · simp only [List.length_cons, List.length_drop]; omega
  · simp

/-- A string takes at least its closing quote. -/
theorem readText_shorter {taken s t r : List Char} (h : readText taken s = .ok (t, r)) :
    r.length < s.length := by
  fun_induction readText taken s with
  | case1 => simp at h
  | case2 => simp_all
  | case3 => simp at h
  | case4 taken r' _ d n _ ih =>
    have := ih h
    simp only [List.length_drop, List.length_cons] at this ⊢
    omega
  | case5 => simp at h
  | case6 taken c r' _ _ _ ih =>
    have := ih h
    simp only [List.length_cons]
    omega

/-! ## Writing -/

/-- A character inside a string: quotes, backslashes and control characters are escaped,
and every other character stands for itself. -/
def writeChar (c : Char) : List Char :=
  if c = '"' then ['\\', '"']
  else if c = '\\' then ['\\', '\\']
  else if c = '\x08' then ['\\', 'b']
  else if c = '\x0c' then ['\\', 'f']
  else if c = '\n' then ['\\', 'n']
  else if c = '\r' then ['\\', 'r']
  else if c = '\t' then ['\\', 't']
  else if isControl c then ['\\', 'u'] ++ Numeral.padded 4 16 c.toNat
  else [c]

def writeText (s : List Char) : List Char :=
  '"' :: s.flatMap writeChar ++ ['"']

end Simt.Json
