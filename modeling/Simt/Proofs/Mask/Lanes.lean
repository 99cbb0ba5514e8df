-- A mask and the list of its lanes say the same. The word has as many ones as the list has lanes,
-- lanes become active by being set in any order, and a mask is made again by setting its own lanes.
-- The full mask of a width is what an issue of all ones leaves in a slot of that width.
import Simt.Proofs.Slot.Text

namespace Simt

/-! ## Ones -/

theorem ones_zero : ones 0 = 0 := by
  unfold ones
  rfl

/-- The lowest digit is a one or not, and the ones above it are those of the half. -/
theorem ones_eq (n : Nat) : ones n = n % 2 + ones (n / 2) := by
  by_cases h : n = 0
  · subst h
    simp [ones_zero]
  · rw [ones, if_neg h]

/-- A number has as many ones as there are places where its binary digit is set. -/
theorem ones_eq_length_filter {n width : Nat} (h : n < 2 ^ width) :
    ones n = ((List.range width).filter n.testBit).length := by
  induction width generalizing n with
  | zero =>
    obtain rfl : n = 0 := by simpa using h
    exact ones_zero
  | succ width ih =>
    have hhalf : n / 2 < 2 ^ width := by
      rw [Nat.pow_succ] at h
      omega
    -- The places above the lowest one are those of the half, one place higher.
    have hhigher : (((List.range width).map Nat.succ).filter n.testBit).length = ones (n / 2) := by
      have htest : n.testBit ∘ Nat.succ = (n / 2).testBit := funext fun _ => Nat.testBit_succ ..
      rw [List.filter_map, List.length_map, htest, ih hhalf]
    rw [List.range_succ_eq_map, List.filter_cons, ones_eq, Nat.testBit_zero]
    split
    · rename_i hone
      simp only [decide_eq_true_eq] at hone
      rw [List.length_cons, hhigher, hone, Nat.add_comm]
    · rename_i hzero
      simp only [decide_eq_true_eq] at hzero
      rw [hhigher]
      omega

namespace Mask

variable {m m' : Mask} {lane width : Nat} {named : List Nat}

/-! ## The list of the lanes -/

theorem lt_of_test (h : m.test lane = true) : lane < maxWarpSize := by
  by_contra hge
  rw [test_eq_false_of_le m (Nat.not_lt.mp hge)] at h
  cases h

theorem mem_lanes : lane ∈ m.lanes ↔ m.test lane = true := by
  unfold lanes
  rw [List.mem_filter, List.mem_range]
  exact ⟨And.right, fun h => ⟨lt_of_test h, h⟩⟩

theorem lt_of_mem_lanes (h : lane ∈ m.lanes) : lane < maxWarpSize :=
  lt_of_test (mem_lanes.mp h)

theorem lanes_ascending (m : Mask) : m.lanes.Pairwise (· < ·) :=
  List.pairwise_lt_range.filter _

theorem eq_of_bits (h : m.bits.toNat = m'.bits.toNat) : m = m' :=
  congrArg Mask.mk (UInt32.toNat_inj.mp h)

/-- Masks that no test tells apart are the same. -/
theorem eq_of_test (h : ∀ lane, m.test lane = m'.test lane) : m = m' := by
  apply eq_of_bits
  apply Nat.eq_of_testBit_eq
  intro lane
  rw [testBit_bits, testBit_bits, h]

theorem count_eq_length (m : Mask) : m.count = m.lanes.length := by
  have htest : m.bits.toNat.testBit = m.test := funext m.testBit_bits
  have hones : ones m.bits.toNat = ((List.range maxWarpSize).filter m.bits.toNat.testBit).length :=
    ones_eq_length_filter m.bits.toNat_lt_size
  rw [count, hones, htest, lanes]

theorem lanes_eq_nil : m.lanes = [] ↔ m = empty := by
  rw [List.eq_nil_iff_forall_not_mem]
  constructor
  · intro h
    apply eq_of_test
    intro lane
    rw [test_empty, ← Bool.not_eq_true, ← mem_lanes]
    exact h lane
  · rintro rfl lane hlane
    rw [mem_lanes, test_empty] at hlane
    cases hlane

theorem isEmpty_iff : m.isEmpty = true ↔ m.lanes = [] := by
  rw [lanes_eq_nil, isEmpty, beq_iff_eq]
  exact ⟨congrArg Mask.mk, congrArg Mask.bits⟩

/-! ## Lanes that are set one after the other -/

/-- A row of calls goes through where each of its lanes has a bit. -/
theorem foldlM_set (m : Mask) (h : ∀ l ∈ named, l < maxWarpSize) :
    named.foldlM set m = .ok (named.foldl insert m) := by
  induction named generalizing m with
  | nil => rfl
  | cons l rest ih =>
    have hset : m.set l = .ok (m.insert l) := if_pos (h l List.mem_cons_self)
    rw [List.foldlM_cons, hset, Outcome.ok_bind, List.foldl_cons]
    exact ih _ fun j hj => h j (List.mem_cons_of_mem l hj)

theorem foldl_insert_lanes (m : Mask) : m.lanes.foldl insert empty = m := by
  apply eq_of_test
  intro lane
  rw [test_foldl_insert _ _ fun _ hl => lt_of_mem_lanes hl, test_empty, Bool.false_or]
  simp only [mem_lanes, Bool.decide_eq_true]

/-- What the list of the lanes tells of a mask. -/
structure ToldByLanes (m : Mask) : Prop where
  ascending : m.lanes.Pairwise (· < ·)
  mem : ∀ lane, lane ∈ m.lanes ↔ m.test lane = true
  count : m.count = m.lanes.length
  isEmpty : m.isEmpty = true ↔ m.lanes = []
  /-- The lanes, set on an empty mask, make the mask again. -/
  rebuilt : m.lanes.foldlM set empty = .ok m
  /-- No lane past the word is active. -/
  past : ∀ lane, maxWarpSize ≤ lane → m.test lane = false

theorem toldByLanes (m : Mask) : m.ToldByLanes where
  ascending := m.lanes_ascending
  mem _ := mem_lanes
  count := m.count_eq_length
  isEmpty := isEmpty_iff
  rebuilt := by rw [foldlM_set _ fun _ hl => lt_of_mem_lanes hl, foldl_insert_lanes]
  past _ := test_eq_false_of_le m

/-! ## All ones -/

/-- The full mask has the lowest ones of a word of all ones. -/
theorem full_bits (h : width ≤ maxWarpSize) :
    ∃ m, full width = .ok m ∧ m.lanes = List.range width ∧
      m.bits.toNat = (0xffffffff : UInt32).toNat % 2 ^ width := by
  obtain ⟨m, hm, htest⟩ := full_ok h
  obtain ⟨word, hword, htestWord⟩ := full_ok (Nat.le_refl maxWarpSize)
  cases hword
  refine ⟨m, hm, lanes_eq_range h htest, bits_eq_mod fun lane => ?_⟩
  rw [htest, htestWord, ← Bool.decide_and, decide_eq_decide]
  omega

end Mask

namespace Slot

variable {α : Type} {s : Slot α} {width : Nat}

theorem inUse_new (h : width ≤ maxWarpSize) :
    ∃ s : Slot α, s.InUse ∧ s.width = width ∧ s.empty = true := by
  obtain ⟨s, hs, hidle⟩ := new_ok (α := α) h
  exact ⟨s, .new hs, hidle.width, hidle.empty⟩

/-- An issue of all ones makes every lane of the slot active. -/
theorem InUse.issue_ones (hs : s.InUse) (he : s.empty = true) (warp : UInt32) (cycle : UInt64) :
    ∃ t, s.issue 0xffffffff warp cycle = .ok t ∧ Mask.full s.width = .ok t.active := by
  obtain ⟨t, ht⟩ : ∃ t, s.issue 0xffffffff warp cycle = .ok t := ⟨_, if_pos he⟩
  obtain ⟨m, hm, _, hbits⟩ := Mask.full_bits hs.sound.width
  have hactive : t.active = m := Mask.eq_of_bits ((issue_bits hs.sound ht).trans hbits.symm)
  refine ⟨t, ht, ?_⟩
  rw [hactive, hm]

end Slot

namespace Mask

/-- Lanes of the word can be set on any mask, in any order and more than once. The active lanes are
then those that were active and those that were named, and the list of the lanes tells all of the
mask. The full mask of a width has the lanes below it, and is what an issue of all ones leaves in
any empty slot of that width, of which there is one. -/
theorem a_mask_and_its_lanes_say_the_same {α : Type} (m : Mask) {named : List Nat}
    (h : ∀ l ∈ named, l < maxWarpSize) :
    (∃ after, named.foldlM set m = .ok after ∧ after.ToldByLanes ∧
      ∀ lane, after.test lane = true ↔ m.test lane = true ∨ lane ∈ named) ∧
    ∀ width, width ≤ maxWarpSize → ∃ whole, full width = .ok whole ∧
      whole.lanes = List.range width ∧
      (∃ s : Slot α, s.InUse ∧ s.width = width ∧ s.empty = true) ∧
      ∀ s : Slot α, s.InUse → s.width = width → s.empty = true → ∀ warp cycle,
        ∃ t, s.issue 0xffffffff warp cycle = .ok t ∧ t.active = whole := by
  constructor
  · refine ⟨named.foldl insert m, foldlM_set m h, toldByLanes _, fun lane => ?_⟩
    rw [test_foldl_insert _ _ h, Bool.or_eq_true, decide_eq_true_eq]
  · intro width hw
    obtain ⟨whole, hwhole, hlanes, _⟩ := full_bits hw
    refine ⟨whole, hwhole, hlanes, Slot.inUse_new hw, ?_⟩
    rintro s hs rfl he warp cycle
    obtain ⟨t, ht, hfull⟩ := hs.issue_ones he warp cycle
    rw [hwhole, Except.ok.injEq] at hfull
    exact ⟨t, ht, hfull.symm⟩

/-- A slot of 32 lanes that was in use, with nothing left on its lanes. -/
def wiped : Slot Nat :=
  ⟨.placeholder, 32, true, false, 0, 0, .empty, some (List.replicate 32 .fresh)⟩

theorem wiped_inUse : wiped.InUse := by
  have hnew : Slot.InUse (⟨.placeholder, 32, true, false, 0, 0, .empty, none⟩ : Slot Nat) :=
    .new (rfl : Slot.new 32 = .ok _)
  have hissue := hnew.step (rfl : Slot.step _ (.issue 6 1 1) = .ok _)
  have hset := hissue.step (rfl : Slot.step _ (.edit (.setAddr 31 64)) = .ok _)
  exact hset.step (rfl : Slot.step _ .clear = .ok _)

/-- Four calls name three lanes, of which the last lane of the word was active before. -/
theorem three_lanes_are_active_after_four_calls :
    (∀ l ∈ [31, 4, 0, 4], l < maxWarpSize) ∧
      (∃ after, [31, 4, 0, 4].foldlM set ⟨0x80000000⟩ = .ok after ∧ after.ToldByLanes ∧
        after.test 31 = true ∧ after.test 0 = true ∧ after.test 4 = true ∧ after.test 5 = false) ∧
      wiped.InUse ∧ ∃ whole t, full 32 = .ok whole ∧ whole.lanes = List.range 32 ∧
        wiped.issue 0xffffffff 7 9 = .ok t ∧ t.active = whole := by
  have hnamed : ∀ l ∈ [31, 4, 0, 4], l < maxWarpSize := by decide
  obtain ⟨⟨after, hafter, htold, htest⟩, hfull⟩ :=
    a_mask_and_its_lanes_say_the_same (α := Nat) ⟨0x80000000⟩ hnamed
  obtain ⟨whole, hwhole, hlanes, _, hissue⟩ := hfull 32 (by decide)
  obtain ⟨t, ht, hactive⟩ := hissue wiped wiped_inUse rfl rfl 7 9
  refine ⟨hnamed, ⟨after, hafter, htold, ?_, ?_, ?_, ?_⟩, wiped_inUse,
    whole, t, hwhole, hlanes, ht, hactive⟩
  · exact (htest 31).mpr (by decide)
  · exact (htest 0).mpr (by decide)
  · exact (htest 4).mpr (by decide)
  · rw [← Bool.not_eq_true, htest]
    decide

end Mask

end Simt
