-- Readers of typed values. A reader says what it read and what is left of the
-- text, and always takes at least one character, so a loop of readers comes to an
-- end. The first problem from left to right decides the cause of a failure.
import Simt.Json.Skip

namespace Simt.Json

structure Reader (α : Type) where
  run : List Char → Read α
  shorter : ∀ {s a r}, run s = .ok (a, r) → r.length < s.length

theorem of_map_eq_ok {α β : Type} {x : Except Cause α} {f : α → β} {b : β}
    (h : x.map f = .ok b) : ∃ a, x = .ok a ∧ f a = b := by
  cases x with
  | error e => simp [Except.map] at h
  | ok a => exact ⟨a, rfl, by simpa [Except.map] using h⟩

theorem of_bind_eq_ok {α β : Type} {x : Except Cause α} {f : α → Except Cause β} {d : β}
    (h : (x >>= f) = .ok d) : ∃ c, x = .ok c ∧ f c = .ok d := by
  cases x with
  | error e => simp [bind, Except.bind] at h
  | ok c => exact ⟨c, rfl, h⟩

/-! ## Between values -/

def skipBlanks (s : List Char) : List Char := s.dropWhile isBlank

theorem length_skipBlanks_le (s : List Char) : (skipBlanks s).length ≤ s.length :=
  length_dropWhile_le s

/-- Takes the letters of a word off the text. -/
def keyword : List Char → List Char → Except Cause (List Char)
  | [], s => .ok s
  | _ :: _, [] => .error .ended
  | letter :: word, c :: r => if c = letter then keyword word r else .error .malformed

/-- Takes one mark off the text, after blanks. -/
def mark (c : Char) (s : List Char) : Except Cause (List Char) :=
  match skipBlanks s with
  | [] => .error .ended
  | d :: r => if d = c then .ok r else .error .malformed

theorem keyword_length_le {word s r : List Char} (h : keyword word s = .ok r) :
    r.length ≤ s.length := by
  fun_induction keyword word s with
  | case1 => simp_all
  | case2 => simp at h
  | case3 letter word r' ih => have := ih h; simp; omega
  | case4 => simp at h

theorem mark_shorter {c : Char} {s r : List Char} (h : mark c s = .ok r) :
    r.length < s.length := by
  have hle := length_skipBlanks_le s
  simp only [mark] at h
  generalize skipBlanks s = t at h hle
  split at h
  · simp at h
  · split at h
    · simp only [List.length_cons] at hle
      simp only [Except.ok.injEq] at h
      subst h
      omega
    · simp at h

/-! ## Values of the wrong type -/

/-- What becomes of a keyword where another type was wanted. -/
def strayWord (word s : List Char) : Cause :=
  match keyword word s with
  | .ok _ => .mismatched
  | .error e => e

/-- The cause of failure at a value of the wrong type. A keyword, a number or a string is
read to its end first, and may be wrong in itself. A bracket is enough. -/
def wrongType : List Char → Cause
  | [] => .ended
  | 'n' :: r => strayWord ['u', 'l', 'l'] r
  | 't' :: r => strayWord ['r', 'u', 'e'] r
  | 'f' :: r => strayWord ['a', 'l', 's', 'e'] r
  | '"' :: r =>
    match readText [] r with
    | .ok _ => .mismatched
    | .error e => e
  | '[' :: _ => .mismatched
  | '{' :: _ => .mismatched
  | c :: r =>
    if c = '-' ∨ c.isDigit then
      match readNumber (c :: r) with
      | .ok _ => .mismatched
      | .error e => e
    else .malformed

/-! ## Single values -/

/-- Reads a number that `accept` makes a value of. -/
def readWhole {α : Type} (accept : Number → Option α) (s : List Char) : Read α :=
  match skipBlanks s with
  | [] => .error .ended
  | c :: r =>
    if c = '-' ∨ c.isDigit then
      match readNumber (c :: r) with
      | .error e => .error e
      | .ok (n, r) =>
        match accept n with
        | some a => .ok (a, r)
        | none => .error .mismatched
    else .error (wrongType (c :: r))

def readString (s : List Char) : Read (List Char) :=
  match skipBlanks s with
  | '"' :: r => readText [] r
  | s => .error (wrongType s)

def readBool (s : List Char) : Read Bool :=
  match skipBlanks s with
  | 't' :: r => (keyword ['r', 'u', 'e'] r).map (true, ·)
  | 'f' :: r => (keyword ['a', 'l', 's', 'e'] r).map (false, ·)
  | s => .error (wrongType s)

/-- Reads a null. -/
def readNull (s : List Char) : Except Cause (List Char) :=
  match skipBlanks s with
  | 'n' :: r => keyword ['u', 'l', 'l'] r
  | s => .error (wrongType s)

theorem readWhole_shorter {α : Type} {accept : Number → Option α} {s r : List Char} {a : α}
    (h : readWhole accept s = .ok (a, r)) : r.length < s.length := by
  have hle := length_skipBlanks_le s
  simp only [readWhole] at h
  generalize skipBlanks s = t at h hle
  split at h
  · simp at h
  · split at h
    · split at h
      · simp at h
      · rename_i hn
        have := readNumber_shorter hn
        split at h
        · simp_all; omega
        · simp at h
    · simp at h

theorem readString_shorter {s r t : List Char} (h : readString s = .ok (t, r)) :
    r.length < s.length := by
  have hle := length_skipBlanks_le s
  simp only [readString] at h
  generalize skipBlanks s = t at h hle
  split at h
  · have := readText_shorter h
    simp only [List.length_cons] at hle
    omega
  · simp at h

theorem length_le_of_keyword {β : Type} {b c : β} {word s r : List Char}
    (h : (keyword word s).map (b, ·) = .ok (c, r)) : r.length ≤ s.length := by
  obtain ⟨t, ht, he⟩ := of_map_eq_ok h
  cases he
  exact keyword_length_le ht

theorem readBool_shorter {s r : List Char} {b : Bool} (h : readBool s = .ok (b, r)) :
    r.length < s.length := by
  have hle := length_skipBlanks_le s
  simp only [readBool] at h
  generalize skipBlanks s = t at h hle
  split at h
  · have := length_le_of_keyword h
    simp only [List.length_cons] at hle
    omega
  · have := length_le_of_keyword h
    simp only [List.length_cons] at hle
    omega
  · simp at h

theorem readNull_length_le {s r : List Char} (h : readNull s = .ok r) :
    r.length ≤ s.length := by
  have hle := length_skipBlanks_le s
  simp only [readNull] at h
  generalize skipBlanks s = t at h hle
  split at h
  · have := keyword_length_le h
    simp only [List.length_cons] at hle
    omega
  · simp at h

/-! ## Lists -/

/-- Looks for the next item of a list. The answer is the text at the item, or nothing at
the closing bracket, which stays in the text. -/
def nextItem (first : Bool) (s : List Char) : Except Cause (Option (List Char)) :=
  match skipBlanks s with
  | [] => .error .ended
  | c :: r =>
    if c = ']' then .ok none
    else if first then .ok (some (c :: r))
    else if c = ',' then
      match skipBlanks r with
      | [] => .error .ended
      | d :: r => if d = ']' then .error .malformed else .ok (some (d :: r))
    else .error .malformed

theorem nextItem_length_le {first : Bool} {s r : List Char}
    (h : nextItem first s = .ok (some r)) : r.length ≤ s.length := by
  have hle := length_skipBlanks_le s
  simp only [nextItem] at h
  generalize skipBlanks s = t at h hle
  split at h
  · simp at h
  · rename_i c r'
    split at h
    · simp at h
    · split at h
      · simp only [Except.ok.injEq, Option.some.injEq] at h
        subst h; exact hle
      · split at h
        · have hle' := length_skipBlanks_le r'
          generalize skipBlanks r' = u at h hle'
          split at h
          · simp at h
          · split at h
            · simp at h
            · simp only [Except.ok.injEq, Option.some.injEq] at h
              subst h
              simp only [List.length_cons] at hle hle' ⊢
              omega
        · simp at h

/-- Reads the items of a list up to its closing bracket. What was read before stands in
`taken`, the last item first. -/
def readItems {α : Type} (item : Reader α) (taken : List α) (first : Bool) (s : List Char) :
    Read (List α) :=
  match _hn : nextItem first s with
  | .error e => .error e
  | .ok none => (mark ']' s).map (taken.reverse, ·)
  | .ok (some t) =>
    match _hr : item.run t with
    | .error e => .error e
    | .ok (a, r) => readItems item (a :: taken) false r
termination_by s.length
decreasing_by
  have := nextItem_length_le _hn
  have := item.shorter _hr
  omega

theorem length_lt_of_mark {β : Type} {b c : β} {d : Char} {s r : List Char}
    (h : (mark d s).map (b, ·) = .ok (c, r)) : r.length < s.length := by
  obtain ⟨t, ht, he⟩ := of_map_eq_ok h
  cases he
  exact mark_shorter ht

theorem readItems_shorter {α : Type} {item : Reader α} {taken as : List α} {first : Bool}
    {s r : List Char} (h : readItems item taken first s = .ok (as, r)) :
    r.length < s.length := by
  fun_induction readItems item taken first s with
  | case1 => simp at h
  | case2 => exact length_lt_of_mark h
  | case3 => simp at h
  | case4 _ _ _ _ hn _ _ hr ih =>
    have := nextItem_length_le hn
    have := item.shorter hr
    have := ih h
    omega

/-- Reads exactly `n` items, and then the closing bracket. -/
def readVector {α : Type} (item : Reader α) :
    (n : Nat) → (first : Bool) → List Char → Read (Vector α n)
  | 0, _, s => (mark ']' s).map (#v[], ·)
  | n + 1, first, s =>
    match nextItem first s with
    | .error e => .error e
    | .ok none => .error .mismatched
    | .ok (some t) =>
      match item.run t with
      | .error e => .error e
      | .ok (a, r) =>
        (readVector item n false r).map fun p => (⟨(a :: p.1.toList).toArray, by simp⟩, p.2)

theorem readVector_shorter {α : Type} {item : Reader α} {n : Nat} {first : Bool}
    {s r : List Char} {v : Vector α n} (h : readVector item n first s = .ok (v, r)) :
    r.length < s.length := by
  induction n generalizing first s with
  | zero => exact length_lt_of_mark h
  | succ n ih =>
    simp only [readVector] at h
    split at h
    · simp at h
    · simp at h
    · rename_i hn
      have := nextItem_length_le hn
      split at h
      · simp at h
      · rename_i hr
        have := item.shorter hr
        obtain ⟨⟨w, t⟩, ht, he⟩ := of_map_eq_ok h
        cases he
        have := ih ht
        omega

/-- Reads a value that begins with an opening bracket. -/
def afterBracket {α : Type} (bracket : Char) (inside : List Char → Read α) (s : List Char) :
    Read α :=
  match skipBlanks s with
  | [] => .error .ended
  | c :: r => if c = bracket then inside r else .error (wrongType (c :: r))

theorem afterBracket_shorter {α : Type} {bracket : Char} {inside : List Char → Read α}
    (hin : ∀ {s a r}, inside s = .ok (a, r) → r.length < s.length)
    {s r : List Char} {a : α} (h : afterBracket bracket inside s = .ok (a, r)) :
    r.length < s.length := by
  have hle := length_skipBlanks_le s
  simp only [afterBracket] at h
  generalize skipBlanks s = t at h hle
  split at h
  · simp at h
  · split at h
    · have := hin h
      simp only [List.length_cons] at hle
      omega
    · simp at h

/-! ## Whole texts -/

/-- Reads a text that holds one value and nothing else. -/
def Reader.parse {α : Type} (reader : Reader α) (s : List Char) : Except Cause α :=
  match reader.run s with
  | .error e => .error e
  | .ok (a, r) => if (skipBlanks r).isEmpty then .ok a else .error .malformed

end Simt.Json
