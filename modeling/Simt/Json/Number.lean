-- Numbers of JSON. The model only keeps whole numbers, so a number with a fraction
-- or an exponent, minus zero, and a whole number past 64 bits are all read as
-- inexact. A number too large for a double is no number at all, and to tell this
-- the size of an inexact number is estimated as a double would be built from it:
-- digits are gathered while they fit 64 bits, and then a power of ten is applied.
import Simt.Json.Text

namespace Simt.Json

inductive Number where
  | natural (n : Nat)
  /-- The number `-n`, with `n` at least one. -/
  | negative (n : Nat)
  | inexact
  deriving DecidableEq

/-! ## The range of a double -/

/-- The nearest number with at most 53 binary digits before zeros. A tie goes to the one
with an even last digit. -/
def roundToDouble (n : Nat) : Nat :=
  if n < 1 <<< 53 then n
  else
    let unit := 1 <<< (n.log2 - 52)
    let below := n / unit
    let excess := n % unit
    if 2 * excess > unit ∨ (2 * excess = unit ∧ below % 2 = 1) then (below + 1) * unit
    else below * unit

/-- The product of two doubles has no double near it: it is at or past the middle between
the largest double and the next power of two. -/
def productOverflows (a b : Nat) : Bool :=
  a * b ≥ (1 <<< 1024) - (1 <<< 970)

/-- Whether `significand * 10 ^ exponent` is too large for a double. -/
def tooLarge (significand : Nat) (exponent : Int) : Bool :=
  significand ≠ 0 &&
    (exponent > 308 ||
      (exponent ≥ 0 &&
        productOverflows (roundToDouble significand) (roundToDouble (Nat.pow 10 exponent.toNat))))

/-! ## Gathering digits -/

/-- Appends digits to a number for as long as it fits 64 bits. The second part of the
answer is how many digits were left out. -/
def gather (n : Nat) : List Char → Nat × Nat
  | [] => (n, 0)
  | c :: digits =>
    let longer := n * 10 + (c.toNat - 48)
    if longer < UInt64.size then gather longer digits else (n, digits.length + 1)

/-- Exponents are read up to this size. -/
def exponentLimit : Nat := 0x7fffffff

/-- The number that digits stand for. -/
def digitsValue (digits : List Char) : Nat :=
  digits.foldl (fun n c => n * 10 + (c.toNat - 48)) 0

/-- An inexact number of a size, with what is left of the text. -/
def sized (significand : Nat) (exponent : Int) (rest : List Char) : Read Number :=
  if tooLarge significand exponent then .error .malformed else .ok (.inexact, rest)

/-- Reads the exponent of a number, from the character after the letter. -/
def readExponent (significand : Nat) (exponent : Int) (s : List Char) : Read Number :=
  let down := s.head? = some '-'
  let digits := if down ∨ s.head? = some '+' then s.tail else s
  match digits with
  | [] => .error .ended
  | c :: _ =>
    if c.isDigit then
      let size := digitsValue (digits.takeWhile Char.isDigit)
      let rest := digits.dropWhile Char.isDigit
      if size > exponentLimit then
        if significand ≠ 0 ∧ ¬ down then .error .malformed else .ok (.inexact, rest)
      else sized significand (if down then exponent - size else exponent + size) rest
    else .error .malformed

/-- Reads the digits after a point. At least one has to follow. -/
def readFraction (significand leftOut : Nat) (s : List Char) : Read Number :=
  let digits := s.takeWhile Char.isDigit
  let rest := s.dropWhile Char.isDigit
  if digits.isEmpty then .error (if rest.isEmpty then .ended else .malformed)
  else
    let (significand, unread) := gather significand digits
    let exponent : Int := leftOut - (digits.length - unread)
    match rest with
    | 'e' :: r => readExponent significand exponent r
    | 'E' :: r => readExponent significand exponent r
    | _ => sized significand exponent rest

/-- A whole number. The smallest word of 64 bits with a sign is `-2^63`. -/
def whole (minus : Bool) (n : Nat) : Number :=
  if !minus then .natural n
  else if 1 ≤ n ∧ n ≤ 1 <<< 63 then .negative n
  else .inexact

/-- What may follow the whole part of a number. -/
def readRest (minus : Bool) (significand leftOut : Nat) (s : List Char) : Read Number :=
  match s with
  | '.' :: r => readFraction significand leftOut r
  | 'e' :: r => readExponent significand leftOut r
  | 'E' :: r => readExponent significand leftOut r
  | _ => if leftOut = 0 then .ok (whole minus significand, s) else sized significand leftOut s

/-- Reads a number without its sign. A zero has no digit after it. -/
def readMagnitude (minus : Bool) : List Char → Read Number
  | [] => .error .ended
  | '0' :: r =>
    if (r.head?.any Char.isDigit) then .error .malformed else readRest minus 0 0 r
  | c :: r =>
    if c.isDigit then
      let (significand, leftOut) := gather (c.toNat - 48) (r.takeWhile Char.isDigit)
      readRest minus significand leftOut (r.dropWhile Char.isDigit)
    else .error .malformed

def readNumber : List Char → Read Number
  | '-' :: r => readMagnitude true r
  | s => readMagnitude false s

/-! ## A number takes at least one character -/

theorem length_dropWhile_le {p : Char → Bool} (s : List Char) :
    (s.dropWhile p).length ≤ s.length :=
  (List.dropWhile_sublist p).length_le

theorem sized_rest {m : Nat} {e : Int} {s r : List Char} {n : Number}
    (h : sized m e s = .ok (n, r)) : r = s := by
  simp only [sized] at h
  split at h <;> simp_all

theorem readExponent_rest {m : Nat} {e : Int} {s r : List Char} {n : Number}
    (h : readExponent m e s = .ok (n, r)) : r.length ≤ s.length := by
  simp only [readExponent] at h
  generalize hd : (if s.head? = some '-' ∨ s.head? = some '+' then s.tail else s) = d at h
  have hlen : d.length ≤ s.length := by
    subst hd; split <;> simp
  have hrest := length_dropWhile_le (p := Char.isDigit) d
  split at h
  · simp at h
  · split at h
    · split at h
      · split at h
        · simp at h
        · simp only [Except.ok.injEq, Prod.mk.injEq] at h
          rw [← h.2]; omega
      · rw [sized_rest h]; omega
    · simp at h

theorem readFraction_rest {m k : Nat} {s r : List Char} {n : Number}
    (h : readFraction m k s = .ok (n, r)) : r.length ≤ s.length := by
  have hrest := length_dropWhile_le (p := Char.isDigit) s
  simp only [readFraction] at h
  generalize s.dropWhile Char.isDigit = d at h hrest
  split at h
  · simp at h
  · split at h
    · have := readExponent_rest h; simp at hrest; omega
    · have := readExponent_rest h; simp at hrest; omega
    · rw [sized_rest h]; omega

theorem readRest_rest {minus : Bool} {m k : Nat} {s r : List Char} {n : Number}
    (h : readRest minus m k s = .ok (n, r)) : r.length ≤ s.length := by
  simp only [readRest] at h
  split at h
  · have := readFraction_rest h; simp; omega
  · have := readExponent_rest h; simp; omega
  · have := readExponent_rest h; simp; omega
  · split at h
    · simp only [Except.ok.injEq, Prod.mk.injEq] at h
      exact Nat.le_of_eq (congrArg List.length h.2.symm)
    · exact Nat.le_of_eq (congrArg List.length (sized_rest h))

theorem readMagnitude_shorter {minus : Bool} {s r : List Char} {n : Number}
    (h : readMagnitude minus s = .ok (n, r)) : r.length < s.length := by
  simp only [readMagnitude] at h
  split at h
  · simp at h
  · split at h
    · simp at h
    · have := readRest_rest h; simp; omega
  · rename_i c r' _
    have hrest := length_dropWhile_le (p := Char.isDigit) r'
    split at h
    · have := readRest_rest h; simp; omega
    · simp at h

theorem readNumber_shorter {s r : List Char} {n : Number}
    (h : readNumber s = .ok (n, r)) : r.length < s.length := by
  simp only [readNumber] at h
  split at h
  · have := readMagnitude_shorter h; simp; omega
  · exact readMagnitude_shorter h

end Simt.Json
