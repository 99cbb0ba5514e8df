-- Numbers as text. A number is written digit by digit in a base, the highest
-- digit first, and a fixed width is filled with zeros on the left. Every number
-- that the model prints, decimal or hexadecimal, goes through this module.
namespace Simt.Numeral

/-- The digits of `n` in `base`, the highest first. Zero has one digit. -/
def digits (base n : Nat) : List Nat :=
  if base < 2 ∨ n < base then [n] else digits base (n / base) ++ [n % base]
termination_by n
decreasing_by exact Nat.div_lt_self (by omega) (by omega)

/-- The number that a list of digits stands for, the highest digit first. -/
def value (base : Nat) (ds : List Nat) : Nat :=
  ds.foldl (fun v d => base * v + d) 0

/-- The digits past nine are lowercase letters. -/
def digitChar (d : Nat) : Char :=
  if d < 10 then Char.ofNat (48 + d) else Char.ofNat (87 + d)

/-- The text of `n` in `base`. -/
def chars (base n : Nat) : List Char :=
  (digits base n).map digitChar

/-- The text of `n` in `base`, with zeros on the left up to `width` characters. -/
def padded (width base n : Nat) : List Char :=
  List.replicate (width - (chars base n).length) '0' ++ chars base n

def decimal (n : Nat) : String :=
  String.ofList (chars 10 n)

/-- Lowercase hexadecimal text of at least `width` digits. -/
def hex (width n : Nat) : String :=
  String.ofList (padded width 16 n)

/-- A whole number in decimal, with a minus sign below zero. -/
def signedChars (i : Int) : List Char :=
  if i < 0 then '-' :: chars 10 i.natAbs else chars 10 i.natAbs

/-! ## Reading back -/

theorem value_append (base : Nat) (ds : List Nat) (d : Nat) :
    value base (ds ++ [d]) = base * value base ds + d := by
  simp [value]

/-- The digits of a number stand for that number. -/
theorem value_digits (base n : Nat) : value base (digits base n) = n := by
  fun_induction digits base n with
  | case1 n _ => simp [value]
  | case2 n _ ih => rw [value_append, ih]; exact Nat.div_add_mod n base

end Simt.Numeral
