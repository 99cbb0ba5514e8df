-- Numerals that are read back. A reader takes the digits of a text from the highest to the lowest,
-- and zeros in front of a number do not change what it finds.
import Mathlib
import Simt.Proofs.Numeral

namespace Simt.Numeral

variable {base : Nat}

/-! ## The number of a row of digits -/

theorem value_eq_ofDigits (base : Nat) (ds : List Nat) :
    value base ds = Nat.ofDigits base ds.reverse := by
  rw [Nat.ofDigits_eq_foldr, List.foldr_reverse, value]
  exact congrArg (fun step => ds.foldl step 0) (funext₂ fun v d => Nat.add_comm _ _)

/-- The highest digit counts as many times as the digits after it have values. -/
theorem value_cons (d : Nat) (ds : List Nat) :
    value base (d :: ds) = d * base ^ ds.length + value base ds := by
  rw [value_eq_ofDigits, List.reverse_cons, Nat.ofDigits_append, Nat.ofDigits_singleton,
    ← value_eq_ofDigits, List.length_reverse, Nat.mul_comm, Nat.add_comm]

/-- Zeros in front do not count. -/
theorem value_zeros (count : Nat) (ds : List Nat) :
    value base (List.replicate count 0 ++ ds) = value base ds := by
  induction count with
  | zero => rfl
  | succ count ih =>
    rw [List.replicate_succ, List.cons_append, value_cons, ih, Nat.zero_mul, Nat.zero_add]

/-- The lowest binary digits of a number, the highest one first, stand for its remainder. -/
theorem value_testBits (n width : Nat) :
    value 2 ((List.range width).reverse.map fun place => (n.testBit place).toNat) =
      n % 2 ^ width := by
  induction width with
  | zero => simp [value, Nat.mod_one]
  | succ width ih =>
    rw [List.range_succ, List.reverse_append, List.reverse_singleton, List.singleton_append,
      List.map_cons, value_cons, ih, List.length_map, List.length_reverse, List.length_range,
      Nat.toNat_testBit, Nat.mod_pow_succ, Nat.mul_comm, Nat.add_comm]

/-! ## Reading a text -/

/-- The digit that a character is. Letters follow the nine, in lowercase. -/
def digit? (c : Char) : Option Nat :=
  if '0' ≤ c ∧ c ≤ '9' then some (c.toNat - 48)
  else if 'a' ≤ c ∧ c ≤ 'z' then some (c.toNat - 87)
  else none

/-- The number that a text stands for in `base`, the highest digit first. A text of no characters
stands for zero. -/
def read? (base : Nat) (text : List Char) : Option Nat :=
  (text.mapM fun c => (digit? c).filter (· < base)).map (value base)

theorem digit?_digitChar : ∀ {d : Nat}, d < 16 → digit? (digitChar d) = some d := by decide

theorem mapM_digitChar (hb : base ≤ 16) {ds : List Nat} (h : ∀ d ∈ ds, d < base) :
    (ds.map digitChar).mapM (fun c => (digit? c).filter (· < base)) = some ds := by
  induction ds with
  | nil => rfl
  | cons d ds ih =>
    have hd : d < base := h d List.mem_cons_self
    rw [List.map_cons, List.mapM_cons, ih fun e he => h e (List.mem_cons_of_mem d he),
      digit?_digitChar (Nat.lt_of_lt_of_le hd hb)]
    simp [Option.filter, hd]

theorem read?_digits (hb : base ≤ 16) {ds : List Nat} (h : ∀ d ∈ ds, d < base) :
    read? base (ds.map digitChar) = some (value base ds) := by
  rw [read?, mapM_digitChar hb h]
  rfl

/-- A number is read back from its text, with the zeros in front of it. -/
theorem read?_padded (hb : 2 ≤ base) (hb' : base ≤ 16) (width n : Nat) :
    read? base (padded width base n) = some n := by
  have hchars : padded width base n =
      (List.replicate (width - (chars base n).length) 0 ++ digits base n).map digitChar := by
    rw [padded, List.map_append, List.map_replicate]
    rfl
  have hdigits : ∀ d ∈ List.replicate (width - (chars base n).length) 0 ++ digits base n,
      d < base := by
    intro d hd
    rcases List.mem_append.mp hd with h | h
    · rw [(List.mem_replicate.mp h).2]
      omega
    · exact digits_lt hb d h
  rw [hchars, read?_digits hb' hdigits, value_zeros, value_digits]

end Simt.Numeral
