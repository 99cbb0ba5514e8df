-- The digits of a number, and the characters they are written with. The first digit
-- of a number is not zero unless the number is, so a text of digits never begins
-- with a zero that it could do without.
import Simt.Text.Numeral

namespace Simt.Numeral

variable {base n : Nat}

/-! ## Digits -/

theorem digits_of_lt (h : n < base) : digits base n = [n] := by
  rw [digits, if_pos (.inr h)]

theorem digits_ne_nil : digits base n ≠ [] := by
  rw [digits]
  split <;> simp

theorem digits_lt (hb : 2 ≤ base) : ∀ d ∈ digits base n, d < base := by
  fun_induction digits base n with
  | case1 n h => simp only [List.mem_singleton, forall_eq]; omega
  | case2 n h ih =>
    simp only [List.mem_append, List.mem_singleton]
    rintro d (hd | rfl)
    · exact ih d hd
    · exact Nat.mod_lt n (by omega)

theorem digits_of_pos (hb : 2 ≤ base) (hn : 0 < n) :
    ∃ d ds, digits base n = d :: ds ∧ 0 < d := by
  fun_induction digits base n with
  | case1 n h => exact ⟨n, [], rfl, hn⟩
  | case2 n h ih =>
    obtain ⟨d, ds, he, hd⟩ := ih (Nat.div_pos (by omega) (by omega))
    exact ⟨d, ds ++ [n % base], by rw [he]; rfl, hd⟩

/-! ## The characters of digits -/

/-- A number below 256 has two hexadecimal digits, after zeros. -/
theorem padded_byte (h : n < 256) :
    padded 4 16 n = ['0', '0', digitChar (n / 16), digitChar (n % 16)] := by
  rcases Nat.lt_or_ge n 16 with hlt | hge
  · have hd : n / 16 = 0 ∧ n % 16 = n := by omega
    rw [padded, chars, digits_of_lt hlt, hd.1, hd.2]
    rfl
  · have hd : digits 16 n = [n / 16, n % 16] := by
      rw [digits, if_neg (by omega), digits_of_lt (by omega)]
      rfl
    rw [padded, chars, hd]
    rfl

theorem isDigit_digitChar : ∀ {d : Nat}, d < 10 → (digitChar d).isDigit = true := by decide

theorem toNat_digitChar : ∀ {d : Nat}, d < 10 → (digitChar d).toNat - 48 = d := by decide

theorem digitChar_ne_zero : ∀ {d : Nat}, 0 < d → d < 10 → digitChar d ≠ '0' := by
  intro d h0 h10 he
  have := toNat_digitChar h10
  rw [he] at this
  exact absurd this (by simp; omega)

theorem isDigit_chars : ∀ c ∈ chars 10 n, c.isDigit = true := by
  intro c hc
  obtain ⟨d, hd, rfl⟩ := List.mem_map.mp hc
  exact isDigit_digitChar (digits_lt (by decide) d hd)

/-- The text of a number begins with a digit. -/
theorem chars_eq_cons (n : Nat) : ∃ c cs, chars 10 n = c :: cs ∧ c.isDigit = true := by
  obtain ⟨c, cs, hc⟩ := List.exists_cons_of_ne_nil (l := chars 10 n) (by simp [chars, digits_ne_nil])
  exact ⟨c, cs, hc, isDigit_chars c (hc ▸ List.mem_cons_self)⟩

end Simt.Numeral
