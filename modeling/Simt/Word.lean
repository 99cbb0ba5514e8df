-- Checked arithmetic. Counters and coordinates of the model are words of 32 or 64
-- bits. A result that does not fit is a fault and never wraps, and so is a divisor
-- of zero.
import Simt.Fault

namespace Simt.Word

def add32 (a b : UInt32) : Outcome UInt32 :=
  if a.toNat + b.toNat < UInt32.size then .ok (a + b) else .error .addOverflow

def mul32 (a b : UInt32) : Outcome UInt32 :=
  if a.toNat * b.toNat < UInt32.size then .ok (a * b) else .error .mulOverflow

def add64 (a b : UInt64) : Outcome UInt64 :=
  if a.toNat + b.toNat < UInt64.size then .ok (a + b) else .error .addOverflow

def mul64 (a b : UInt64) : Outcome UInt64 :=
  if a.toNat * b.toNat < UInt64.size then .ok (a * b) else .error .mulOverflow

/-- The sum of a list of words, added from the left. -/
def sum32 (words : List UInt32) : Outcome UInt32 :=
  words.foldlM add32 0

/-- The quotient, rounded up. -/
def divCeil (a b : Nat) : Outcome Nat :=
  if b = 0 then .error .divisionByZero else .ok ((a + b - 1) / b)

def rem (a b : Nat) : Outcome Nat :=
  if b = 0 then .error .remainderByZero else .ok (a % b)

/-! ## What a checked result means -/

theorem add32_eq_ok {a b c : UInt32} :
    add32 a b = .ok c ↔ c.toNat = a.toNat + b.toNat := by
  have h := UInt32.toNat_lt_size c
  simp only [add32]
  split <;> simp [← UInt32.toNat_inj, UInt32.toNat_add] <;> simp only [UInt32.size] at * <;> omega

theorem add64_eq_ok {a b c : UInt64} :
    add64 a b = .ok c ↔ c.toNat = a.toNat + b.toNat := by
  have h := UInt64.toNat_lt_size c
  simp only [add64]
  split <;> simp [← UInt64.toNat_inj, UInt64.toNat_add] <;> simp only [UInt64.size] at * <;> omega

theorem mul32_eq_ok {a b c : UInt32} :
    mul32 a b = .ok c ↔ c.toNat = a.toNat * b.toNat := by
  have h := UInt32.toNat_lt_size c
  simp only [mul32]
  split
  · rename_i hlt
    simp only [Except.ok.injEq, ← UInt32.toNat_inj, UInt32.toNat_mul]
    rw [Nat.mod_eq_of_lt hlt]
    exact eq_comm
  · simp only [reduceCtorEq, false_iff]; omega

theorem mul64_eq_ok {a b c : UInt64} :
    mul64 a b = .ok c ↔ c.toNat = a.toNat * b.toNat := by
  have h := UInt64.toNat_lt_size c
  simp only [mul64]
  split
  · rename_i hlt
    simp only [Except.ok.injEq, ← UInt64.toNat_inj, UInt64.toNat_mul]
    rw [Nat.mod_eq_of_lt hlt]
    exact eq_comm
  · simp only [reduceCtorEq, false_iff]; omega

theorem divCeil_eq_ok {a b c : Nat} : divCeil a b = .ok c ↔ b ≠ 0 ∧ c = (a + b - 1) / b := by
  unfold divCeil
  split <;> simp_all [eq_comm]

theorem rem_eq_ok {a b c : Nat} : rem a b = .ok c ↔ b ≠ 0 ∧ c = a % b := by
  unfold rem
  split <;> simp_all [eq_comm]

end Simt.Word
