-- A string is read back from what was written for it, whatever its characters are.
-- Each character is written as one piece: itself, a letter after a backslash, or
-- the four digits of its number. Reading one piece gives the character and leaves
-- what stands after the piece, and a string is its pieces in a row.
import Simt.Json.Text
import Simt.Proofs.Numeral

namespace Simt.Json

open Numeral (digitChar padded)

variable {taken r : List Char}

/-! ## Escapes by number -/

theorem hexValue_digitChar : ∀ {d : Nat}, d < 16 → hexValue (digitChar d) = some d := by decide

theorem codeUnit_digits {a b c d : Nat} (ha : a < 16) (hb : b < 16) (hc : c < 16) (hd : d < 16) :
    codeUnit (digitChar a :: digitChar b :: digitChar c :: digitChar d :: r) =
      .ok (((a * 16 + b) * 16 + c) * 16 + d) := by
  have hbytes := fun e : Char => e.utf8Size_pos
  have h := And.intro (hbytes (digitChar a)) (And.intro (hbytes (digitChar b))
    (And.intro (hbytes (digitChar c)) (hbytes (digitChar d))))
  rw [codeUnit, if_neg]
  · simp [hexValue_digitChar, ha, hb, hc, hd]
  · simp only [List.take_succ_cons, List.take_zero, List.foldl_cons, List.foldl_nil]
    omega

/-- The number of a character below 256, which is not one of a surrogate. -/
theorem escape_padded {n : Nat} (hn : n < 256) :
    escape ('u' :: padded 4 16 n ++ r) = .ok (Char.ofNat n, 5) := by
  have hunit : codeUnit (padded 4 16 n ++ r) = .ok n := by
    have := codeUnit_digits (r := r) (a := 0) (b := 0) (c := n / 16) (d := n % 16)
      (by decide) (by decide) (by omega) (by omega)
    rw [Numeral.padded_byte hn]
    refine this.trans (congrArg Except.ok ?_)
    omega
  have hplain : isTrailing n = false ∧ isLeading n = false := by
    simp only [isTrailing, isLeading, Bool.and_eq_false_iff, decide_eq_false_iff_not]
    omega
  simp only [List.cons_append, escape, hunit, bind, Except.bind, hplain]
  rfl

/-! ## Pieces of a string -/

theorem readText_escape {d : Char} {n : Nat} (h : escape r = .ok (d, n)) :
    readText taken ('\\' :: r) = readText (d :: taken) (r.drop n) := by
  rw [readText, if_neg (by decide), if_pos rfl]
  simp [h]

theorem readText_letter {c d : Char} (h : escape (c :: r) = .ok (d, 1)) :
    readText taken (['\\', c] ++ r) = readText (d :: taken) r :=
  readText_escape h

theorem readText_plain {c : Char} (hquote : c ≠ '"') (hslash : c ≠ '\\')
    (hplain : isControl c = false) : readText taken (c :: r) = readText (c :: taken) r := by
  rw [readText, if_neg hquote, if_neg hslash, hplain]
  rfl

theorem isControl_lt {c : Char} (h : isControl c = true) : c.toNat < 32 := by
  have : c < ' ' := by simpa [isControl] using h
  exact this

/-- The piece of a character is read as that character. -/
theorem readText_writeChar (c : Char) :
    readText taken (writeChar c ++ r) = readText (c :: taken) r := by
  unfold writeChar
  -- the seven characters that have a letter
  iterate 7
    split
    case isTrue h => subst h; exact readText_letter rfl
  split
  case isTrue h =>
    have hlt := isControl_lt h
    have hescape := escape_padded (r := r) (n := c.toNat) (by omega)
    have hlength : (padded 4 16 c.toNat).length = 4 := by
      rw [Numeral.padded_byte (by omega)]
      rfl
    rw [Char.ofNat_toNat] at hescape
    refine (readText_escape hescape).trans ?_
    simp [hlength]
  case isFalse hquote hslash _ _ _ _ _ hcontrol =>
    exact readText_plain hquote hslash (by simpa using hcontrol)

/-! ## Whole strings -/

theorem readText_flatMap (s : List Char) :
    readText taken (s.flatMap writeChar ++ '"' :: r) = .ok (taken.reverse ++ s, r) := by
  induction s generalizing taken with
  | nil => rw [List.flatMap_nil, List.nil_append, readText, if_pos rfl, List.append_nil]
  | cons c s ih =>
    rw [List.flatMap_cons, List.append_assoc, readText_writeChar, ih, List.reverse_cons,
      List.append_assoc]
    rfl

/-- What `writeText` puts after the opening quote is read back. -/
theorem readText_writeText (s : List Char) :
    ∃ t, writeText s ++ r = '"' :: t ∧ readText [] t = .ok (s, r) := by
  refine ⟨s.flatMap writeChar ++ '"' :: r, ?_, readText_flatMap s⟩
  simp [writeText]

end Simt.Json
