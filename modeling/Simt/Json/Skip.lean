-- Passing over a value that nobody wants. The value has to be well formed, but its
-- numbers may have any size, the escapes of its strings any four digits, and its
-- brackets may nest to any depth. The text is read character by character, with a
-- list of the brackets that are open.
import Simt.Json.Number

namespace Simt.Json

/-- A bracket that is open. -/
inductive Bracket where
  | list
  | object
  deriving DecidableEq

/-- What the text before a character was. In a string, `key` says that the string is the
name of a member. -/
inductive Phase where
  /-- A value has to follow. -/
  | value
  /-- A list was opened. -/
  | listStart
  /-- An object was opened. -/
  | objectStart
  /-- A name has to follow. -/
  | name
  /-- A colon has to follow. -/
  | colon
  /-- A value is complete. -/
  | complete
  /-- A keyword has these letters left. -/
  | word (left : List Char)
  | text (key : Bool)
  /-- A backslash in a string. -/
  | escape (key : Bool)
  /-- An escape has this many digits left, of which each is known to be one. -/
  | digits (left : Nat) (key : Bool)
  | minus
  | zero
  | whole
  | point
  | fraction
  | exponentMark
  | exponentSign
  | exponent
  deriving DecidableEq

/-- Where the characters before make up a whole value. -/
def Phase.isWhole : Phase → Bool
  | complete | zero | whole | fraction | exponent => true
  | _ => false

/-- The cause where the text ends within a value. A number that breaks off is malformed. -/
def Phase.atEnd : Phase → Cause
  | minus | point | exponentMark | exponentSign => .malformed
  | _ => .ended

/-- One character more. The answer is the new phase with the brackets that are open then,
or nothing where the value was complete before the character. -/
abbrev Step := Except Cause (Option (Phase × List Bracket))

def go (phase : Phase) (stack : List Bracket) : Step := .ok (some (phase, stack))

def isBlank (c : Char) : Bool :=
  c == ' ' || c == '\n' || c == '\t' || c == '\r'

/-- The first character of a value, or a blank before it. -/
def valueStep (phase : Phase) (stack : List Bracket) (c : Char) : Step :=
  if isBlank c then go phase stack
  else
    match c with
    | '"' => go (.text false) stack
    | '-' => go .minus stack
    | '0' => go .zero stack
    | 't' => go (.word ['r', 'u', 'e']) stack
    | 'f' => go (.word ['a', 'l', 's', 'e']) stack
    | 'n' => go (.word ['u', 'l', 'l']) stack
    | '[' => go .listStart (.list :: stack)
    | '{' => go .objectStart (.object :: stack)
    | _ => if c.isDigit then go .whole stack else .error .malformed

/-- A character after a whole value. -/
def completeStep (stack : List Bracket) (c : Char) : Step :=
  match stack with
  | [] => .ok none
  | bracket :: outer =>
    if isBlank c then go .complete stack
    else
      match bracket, c with
      | .list, ',' => go .value stack
      | .list, ']' => go .complete outer
      | .object, ',' => go .name stack
      | .object, '}' => go .complete outer
      | _, _ => .error .malformed

/-- The opening quote of a name, or a blank before it. -/
def nameStep (phase : Phase) (stack : List Bracket) (c : Char) : Step :=
  if isBlank c then go phase stack
  else if c = '"' then go (.text true) stack
  else .error .malformed

/-- A character where a number needs a digit. -/
def digitStep (phase : Phase) (stack : List Bracket) (c : Char) : Step :=
  if c.isDigit then go phase stack else .error .malformed

/-- A character after digits that may be followed by an exponent. -/
def exponentStep (stack : List Bracket) (c : Char) : Step :=
  if c = 'e' ∨ c = 'E' then go .exponentMark stack else completeStep stack c

/-- A character after digits that may be followed by a point. -/
def pointStep (stack : List Bracket) (c : Char) : Step :=
  if c = '.' then go .point stack else exponentStep stack c

/-- The character `c` in a phase, with `rest` after it. -/
def step (phase : Phase) (stack : List Bracket) (c : Char) (rest : List Char) : Step :=
  match phase with
  | .value => valueStep phase stack c
  | .listStart => if c = ']' then go .complete stack.tail else valueStep phase stack c
  | .objectStart => if c = '}' then go .complete stack.tail else nameStep phase stack c
  | .name => nameStep phase stack c
  | .colon =>
    if isBlank c then go .colon stack
    else if c = ':' then go .value stack
    else .error .malformed
  | .complete => completeStep stack c
  | .word [] => completeStep stack c
  | .word [last] => if c = last then go .complete stack else .error .malformed
  | .word (letter :: left) => if c = letter then go (.word left) stack else .error .malformed
  | .text key =>
    if c = '"' then go (if key then .colon else .complete) stack
    else if c = '\\' then go (.escape key) stack
    else if isControl c then .error .malformed
    else go (.text key) stack
  | .escape key =>
    if c = 'u' then
      match codeUnit rest with
      | .error e => .error e
      | .ok _ => go (.digits 4 key) stack
    else if (letterEscape c).isSome then go (.text key) stack
    else .error .malformed
  | .digits left key => go (if left ≤ 1 then .text key else .digits (left - 1) key) stack
  | .minus => if c = '0' then go .zero stack else digitStep .whole stack c
  | .zero => if c.isDigit then .error .malformed else pointStep stack c
  | .whole => if c.isDigit then go .whole stack else pointStep stack c
  | .point => digitStep .fraction stack c
  | .fraction => if c.isDigit then go .fraction stack else exponentStep stack c
  | .exponentMark =>
    if c = '+' ∨ c = '-' then go .exponentSign stack else digitStep .exponent stack c
  | .exponentSign => digitStep .exponent stack c
  | .exponent => if c.isDigit then go .exponent stack else completeStep stack c

/-- The text after the value that is under way. -/
def skip (phase : Phase) (stack : List Bracket) : List Char → Except Cause (List Char)
  | [] => if phase.isWhole && stack.isEmpty then .ok [] else .error phase.atEnd
  | c :: r =>
    match step phase stack c r with
    | .error e => .error e
    | .ok none => .ok (c :: r)
    | .ok (some (phase, stack)) => skip phase stack r

/-- The text after one value. -/
def skipValue (s : List Char) : Except Cause (List Char) := skip .value [] s

theorem skip_length_le {phase : Phase} {stack : List Bracket} {s r : List Char}
    (h : skip phase stack s = .ok r) : r.length ≤ s.length := by
  induction s generalizing phase stack with
  | nil =>
    simp only [skip] at h
    split at h <;> simp_all
  | cons c s ih =>
    simp only [skip] at h
    split at h
    · simp at h
    · simp_all
    · have := ih h; simp only [List.length_cons]; omega

end Simt.Json
