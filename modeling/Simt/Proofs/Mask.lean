-- Masks as sets of lanes. The bit of a lane is a power of two, so that a test reads one
-- binary digit of the word, and an insertion adds one lane to those that were there.
import Simt.Proofs.Outcome
import Simt.Mask

namespace Simt.Mask

variable {lane other width : Nat}

theorem bit_toNat (h : lane < maxWarpSize) : (bit lane).toNat = 2 ^ lane := by
  unfold maxWarpSize at h
  have hpow : 2 ^ lane < 2 ^ 32 := Nat.pow_lt_pow_right (by omega) h
  have hl : lane < UInt32.size := by simp only [UInt32.size]; omega
  rw [bit, UInt32.toNat_shiftLeft, UInt32.toNat_ofNat_of_lt' hl, Nat.mod_eq_of_lt h,
    Nat.shiftLeft_eq, UInt32.toNat_one, Nat.one_mul, Nat.mod_eq_of_lt hpow]

/-- A test reads one binary digit of the word. -/
theorem test_eq_testBit (m : Mask) (h : lane < maxWarpSize) :
    m.test lane = m.bits.toNat.testBit lane := by
  have hzero : (m.bits &&& bit lane = 0) ↔ m.bits.toNat.testBit lane = false := by
    rw [← UInt32.toNat_inj, UInt32.toNat_and, bit_toNat h, Nat.and_two_pow, UInt32.toNat_zero]
    cases m.bits.toNat.testBit lane <;> simp
  rw [test, decide_eq_true h, Bool.true_and]
  cases hb : m.bits.toNat.testBit lane
  · simp [hzero.mpr hb]
  · simp only [bne_iff_ne, ne_eq, hzero, hb]
    decide

theorem test_eq_false_of_le (m : Mask) (h : maxWarpSize ≤ lane) : m.test lane = false := by
  simp [test, Nat.not_lt.mpr h]

@[simp] theorem test_empty (lane : Nat) : empty.test lane = false := by
  simp [test, empty]

theorem test_insert (m : Mask) (h : other < maxWarpSize) :
    (m.insert other).test lane = (m.test lane || decide (other = lane)) := by
  by_cases hl : lane < maxWarpSize
  · rw [test_eq_testBit _ hl, test_eq_testBit _ hl, insert, UInt32.toNat_or, bit_toNat h,
      Nat.testBit_or, Nat.testBit_two_pow]
  · rw [test_eq_false_of_le _ (Nat.not_lt.mp hl), test_eq_false_of_le _ (Nat.not_lt.mp hl)]
    simp only [Bool.false_or, Bool.false_eq, decide_eq_false_iff_not]
    omega

theorem test_foldl_insert (named : List Nat) (m : Mask) (h : ∀ l ∈ named, l < maxWarpSize) :
    (named.foldl insert m).test lane = (m.test lane || decide (lane ∈ named)) := by
  induction named generalizing m with
  | nil => simp
  | cons l rest ih =>
    rw [List.foldl_cons, ih _ fun j hj => h j (List.mem_cons_of_mem l hj),
      test_insert _ (h l List.mem_cons_self), Bool.or_assoc]
    congr 1
    simp [eq_comm]

/-! ## The lowest lanes -/

/-- The binary digits of the word are the tests, also past the last lane. -/
theorem testBit_bits (m : Mask) (lane : Nat) : m.bits.toNat.testBit lane = m.test lane := by
  by_cases h : lane < maxWarpSize
  · exact (test_eq_testBit m h).symm
  · have hge : maxWarpSize ≤ lane := Nat.not_lt.mp h
    rw [test_eq_false_of_le m hge]
    exact Nat.testBit_lt_two_pow
      (m.bits.toNat_lt_size.trans_le (Nat.pow_le_pow_right Nat.two_pos hge))

/-- A mask that has the lowest lanes of another one is the remainder of that word. -/
theorem bits_eq_mod {m m' : Mask} (h : ∀ lane, m.test lane = (decide (lane < width) && m'.test lane)) :
    m.bits.toNat = m'.bits.toNat % 2 ^ width := by
  apply Nat.eq_of_testBit_eq
  intro lane
  rw [Nat.testBit_mod_two_pow, testBit_bits, testBit_bits, h]

theorem filter_range_lt {n : Nat} (h : width ≤ n) :
    ((List.range n).filter fun lane => decide (lane < width)) = List.range width := by
  obtain ⟨k, rfl⟩ := Nat.exists_eq_add_of_le h
  rw [List.range_add, List.filter_append]
  have hlow : ((List.range width).filter fun lane => decide (lane < width)) = List.range width := by
    apply List.filter_eq_self.mpr
    intro lane hl
    simpa using hl
  have hhigh : (((List.range k).map (width + ·)).filter fun lane => decide (lane < width)) = [] := by
    apply List.filter_eq_nil_iff.mpr
    intro lane hl
    obtain ⟨j, _, rfl⟩ := List.mem_map.mp hl
    simp
  rw [hlow, hhigh, List.append_nil]

theorem full_ok (h : width ≤ maxWarpSize) :
    ∃ m, full width = .ok m ∧ ∀ lane, m.test lane = decide (lane < width) := by
  have key : ∃ m, full width = .ok m ∧ m.bits.toNat = 2 ^ width - 1 := by
    unfold full
    rcases Nat.lt_or_eq_of_le h with hlt | heq
    · rw [if_pos hlt]
      refine ⟨_, rfl, ?_⟩
      have hone : 1 ≤ bit width := by
        rw [UInt32.le_iff_toNat_le, bit_toNat hlt]
        exact Nat.one_le_two_pow
      rw [UInt32.toNat_sub_of_le _ _ hone, bit_toNat hlt]
      rfl
    · subst heq
      exact ⟨_, rfl, rfl⟩
  obtain ⟨m, hm, hbits⟩ := key
  refine ⟨m, hm, fun lane => ?_⟩
  by_cases hl : lane < maxWarpSize
  · rw [test_eq_testBit _ hl, hbits, Nat.testBit_two_pow_sub_one]
  · rw [test_eq_false_of_le _ (Nat.not_lt.mp hl)]
    simp only [Bool.false_eq, decide_eq_false_iff_not]
    omega

/-- A mask that has the lowest lanes lists them in order. -/
theorem lanes_eq_range {m : Mask} (hw : width ≤ maxWarpSize)
    (h : ∀ lane, m.test lane = decide (lane < width)) : m.lanes = List.range width := by
  rw [lanes, List.filter_congr fun lane _ => h lane]
  exact filter_range_lt hw

end Simt.Mask
