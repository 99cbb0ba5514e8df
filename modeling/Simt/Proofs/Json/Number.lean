-- A whole number that fits its words is read back from its decimal text. Where the
-- text of a number ends is only known by what follows it, so every law here is
-- about a number with some text after it, and asks of that text that it does not
-- go on with the number.
import Simt.Json.Number
import Simt.Proofs.Numeral

namespace Simt.Json

open Numeral (chars digits digitChar signedChars)

/-- A text that does not go on with a number that stands before it. -/
def Apart (rest : List Char) : Prop :=
  ∀ c ∈ rest.head?, c.isDigit = false ∧ c ≠ '.' ∧ c ≠ 'e' ∧ c ≠ 'E'

theorem apart_nil : Apart [] := by
  intro c hc
  simp at hc

theorem apart_cons {c : Char} (rest : List Char)
    (h : c.isDigit = false ∧ c ≠ '.' ∧ c ≠ 'e' ∧ c ≠ 'E') : Apart (c :: rest) := by
  intro d hd
  obtain rfl : c = d := by simpa using hd
  exact h

/-! ## Digits and what follows them -/

theorem takeWhile_digits {cs rest : List Char} (hcs : ∀ c ∈ cs, c.isDigit = true)
    (hrest : Apart rest) : (cs ++ rest).takeWhile Char.isDigit = cs := by
  rw [List.takeWhile_append_of_pos hcs]
  cases rest with
  | nil => simp
  | cons c r => simp [(hrest c rfl).1]

theorem dropWhile_digits {cs rest : List Char} (hcs : ∀ c ∈ cs, c.isDigit = true)
    (hrest : Apart rest) : (cs ++ rest).dropWhile Char.isDigit = rest := by
  rw [List.dropWhile_append_of_pos hcs]
  cases rest with
  | nil => rfl
  | cons c r => simp [(hrest c rfl).1]

theorem le_foldl_digits (ds : List Nat) (n : Nat) :
    n ≤ ds.foldl (fun v d => 10 * v + d) n := by
  induction ds generalizing n with
  | nil => exact Nat.le_refl n
  | cons d ds ih =>
    have := ih (10 * n + d)
    simp only [List.foldl_cons]
    omega

/-- Digits that are gathered leave none out, as long as the number they end in fits. -/
theorem gather_digits {ds : List Nat} (n : Nat) (hds : ∀ d ∈ ds, d < 10)
    (hfit : ds.foldl (fun v d => 10 * v + d) n < UInt64.size) :
    gather n (ds.map digitChar) = (ds.foldl (fun v d => 10 * v + d) n, 0) := by
  induction ds generalizing n with
  | nil => rfl
  | cons d ds ih =>
    have hd := Numeral.toNat_digitChar (hds d List.mem_cons_self)
    have hle := le_foldl_digits ds (10 * n + d)
    rw [List.map_cons, gather, hd, Nat.mul_comm n 10]
    simp only [List.foldl_cons] at hfit ⊢
    rw [if_pos (by omega)]
    exact ih _ (fun e he => hds e (List.mem_cons_of_mem d he)) hfit

/-! ## Numbers -/

variable {rest : List Char} {n : Nat} {minus : Bool}

theorem readRest_apart (hrest : Apart rest) :
    readRest minus n 0 rest = .ok (whole minus n, rest) := by
  cases rest with
  | nil => rfl
  | cons c r =>
    obtain ⟨-, hpoint, he, hE⟩ := hrest c rfl
    unfold readRest
    split <;> simp_all

theorem readMagnitude_chars (hn : n < UInt64.size) (hrest : Apart rest) :
    readMagnitude minus (chars 10 n ++ rest) = .ok (whole minus n, rest) := by
  rcases Nat.eq_zero_or_pos n with rfl | hpos
  · have hstop : rest.head?.any Char.isDigit = false := by
      cases rest with
      | nil => rfl
      | cons c r => exact (hrest c rfl).1
    rw [chars, Numeral.digits_of_lt (by decide)]
    change readMagnitude minus ('0' :: rest) = _
    rw [readMagnitude, hstop]
    exact readRest_apart hrest
  · obtain ⟨d, ds, hd, hd0⟩ := Numeral.digits_of_pos (show 2 ≤ 10 by decide) hpos
    have hlt : ∀ e ∈ d :: ds, e < 10 := hd ▸ Numeral.digits_lt (by decide)
    have hd10 := hlt d List.mem_cons_self
    have hds : ∀ e ∈ ds, e < 10 := fun e he => hlt e (List.mem_cons_of_mem d he)
    have hcs : ∀ c ∈ ds.map digitChar, c.isDigit = true := by
      intro c hc
      obtain ⟨e, he, rfl⟩ := List.mem_map.mp hc
      exact Numeral.isDigit_digitChar (hds e he)
    have hvalue : ds.foldl (fun v d => 10 * v + d) d = n := by
      have := Numeral.value_digits 10 n
      rw [hd] at this
      simpa [Numeral.value] using this
    have hgather := gather_digits d hds (by omega)
    rw [chars, hd, List.map_cons, List.cons_append, readMagnitude]
    · rw [if_pos (Numeral.isDigit_digitChar hd10), takeWhile_digits hcs hrest,
        dropWhile_digits hcs hrest, Numeral.toNat_digitChar hd10, hgather, hvalue]
      exact readRest_apart hrest
    · exact Numeral.digitChar_ne_zero hd0 hd10

theorem readNumber_chars (hn : n < UInt64.size) (hrest : Apart rest) :
    readNumber (chars 10 n ++ rest) = .ok (.natural n, rest) := by
  obtain ⟨c, cs, hc, hdigit⟩ := Numeral.chars_eq_cons n
  have hread : readMagnitude false (chars 10 n ++ rest) = .ok (.natural n, rest) :=
    readMagnitude_chars hn hrest
  rw [hc, List.cons_append] at hread ⊢
  rw [readNumber, hread]
  · rintro r ⟨⟩
    simp at hdigit

/-- What is read where a whole number was written. -/
def Number.ofInt (i : Int) : Number :=
  if i < 0 then .negative i.natAbs else .natural i.natAbs

theorem readNumber_signedChars {i : Int} (hi : i.natAbs ≤ 1 <<< 63) (hrest : Apart rest) :
    readNumber (signedChars i ++ rest) = .ok (.ofInt i, rest) := by
  have hfit : i.natAbs < UInt64.size := Nat.lt_of_le_of_lt hi (by decide)
  rw [signedChars, Number.ofInt]
  split
  · have hwhole : whole true i.natAbs = .negative i.natAbs := by
      rw [whole, if_neg (by simp), if_pos (by omega)]
    rw [List.cons_append, readNumber, readMagnitude_chars hfit hrest, hwhole]
  · exact readNumber_chars hfit hrest

end Simt.Json
