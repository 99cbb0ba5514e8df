-- What a slot shows of itself. Its text has the address of its instruction in hexadecimal and one
-- binary digit for each lane, so two slots of one width show the same text exactly if they agree on
-- both.
import Simt.Proofs.Numeral.Reading
import Simt.Proofs.Slot.Reuse

namespace Simt.Slot

open Numeral (digitChar padded read?)

variable {α β : Type} {s t : Slot α}

/-! ## Slots in use -/

/-- The slots that calls lead to. A move leads to two of them. -/
inductive InUse : Slot α → Prop
  | new {width : Nat} {s : Slot α} : Slot.new width = .ok s → InUse s
  | step {s t : Slot α} {op : Operation α} {line : List (α × Instruction)} :
      InUse s → s.step op = .ok (t, line) → InUse t
  | moved {target source moved emptied : Slot α} : InUse target → InUse source →
      target.move source = .ok (moved, emptied) → InUse moved
  | emptied {target source moved emptied : Slot α} : InUse target → InUse source →
      target.move source = .ok (moved, emptied) → InUse emptied

theorem InUse.sound (h : s.InUse) : s.Sound := by
  induction h with
  | new hnew => exact sound_of_new hnew
  | step _ hstep ih => exact step_sound ih hstep
  | moved _ _ hmove _ ih =>
    obtain ⟨_, rfl, _⟩ := move_cases hmove
    exact ih
  | emptied _ _ hmove ih _ =>
    obtain ⟨_, _, rfl⟩ := move_cases hmove
    exact ih.clear

/-! ## The lanes -/

theorem length_maskText (s : Slot α) : s.maskText.toList.length = s.width := by
  simp [maskText]

theorem maskText_digits (s : Slot α) : s.maskText.toList =
    ((List.range s.width).reverse.map fun lane =>
      (s.active.bits.toNat.testBit lane).toNat).map digitChar := by
  rw [maskText, String.toList_ofList, List.map_map]
  refine List.map_congr_left fun lane _ => ?_
  rw [Function.comp_apply, Mask.testBit_bits]
  cases s.active.test lane <;> rfl

/-- The lanes are the binary digits of the mask, where none of them is past the width. -/
theorem read?_maskText (h : s.active.bits.toNat < 2 ^ s.width) :
    read? 2 s.maskText.toList = some s.active.bits.toNat := by
  have hbinary : ∀ d ∈ (List.range s.width).reverse.map fun lane =>
      (s.active.bits.toNat.testBit lane).toNat, d < 2 := by
    intro d hd
    obtain ⟨lane, _, rfl⟩ := List.mem_map.mp hd
    exact Bool.toNat_lt _
  rw [maskText_digits, Numeral.read?_digits (by decide) hbinary, Numeral.value_testBits,
    Nat.mod_eq_of_lt h]

/-! ## The whole text -/

/-- What stands in a text between the first `0x` and the next closing bracket. -/
def addressField : List Char → List Char
  | '0' :: 'x' :: rest => rest.takeWhile (· ≠ ']')
  | _ :: rest => addressField rest
  | [] => []

theorem text_toList (s : Slot α) : s.text.toList =
    " [inst @ pc=0x".toList ++ padded 4 16 s.inst.pc.toNat ++ "] ".toList ++ s.maskText.toList := by
  simp only [text, Instruction.text, Numeral.hex, String.toList_append, String.toList_ofList]

theorem rtake_text (s : Slot α) : s.text.toList.rtake s.width = s.maskText.toList := by
  rw [List.rtake, text_toList, List.length_append, length_maskText, Nat.add_sub_cancel,
    List.drop_left]

theorem digitChar_ne_bracket : ∀ {d : Nat}, d < 16 → digitChar d ≠ ']' := by decide

theorem addressField_text (s : Slot α) :
    addressField s.text.toList = padded 4 16 s.inst.pc.toNat := by
  have hdigits : ∀ c ∈ padded 4 16 s.inst.pc.toNat, decide (c ≠ ']') = true := by
    intro c hc
    rw [padded, Numeral.chars] at hc
    rcases List.mem_append.mp hc with hzero | hdigit
    · rw [(List.mem_replicate.mp hzero).2]
      rfl
    · obtain ⟨d, hd, rfl⟩ := List.mem_map.mp hdigit
      exact decide_eq_true (digitChar_ne_bracket (Numeral.digits_lt (by decide) d hd))
  have hfield : addressField s.text.toList = (padded 4 16 s.inst.pc.toNat ++
      ("] ".toList ++ s.maskText.toList)).takeWhile (· ≠ ']') := by
    rw [text_toList, List.append_assoc, List.append_assoc]
    rfl
  rw [hfield, List.takeWhile_append_of_pos hdigits]
  simp

/-- The digits between `0x` and the bracket are the address. -/
theorem read?_address (s : Slot α) :
    read? 16 (addressField s.text.toList) = some s.inst.pc.toNat := by
  rw [addressField_text, Numeral.read?_padded (by decide) (by decide)]

/-- The characters at the end, one for each lane of the slot, are the mask. -/
theorem InUse.read?_lanes (h : s.InUse) :
    read? 2 (s.text.toList.rtake s.width) = some s.active.bits.toNat := by
  rw [rtake_text, read?_maskText h.sound.bits]

/-- The mask and the address of a slot in use are read back from its text. So the texts of two
slots of one width are the same exactly if their addresses and their masks are. -/
theorem a_text_tells_the_address_and_the_lanes {s : Slot α} {t : Slot β} (hs : s.InUse)
    (ht : t.InUse) (hwidth : s.width = t.width) :
    (s.text = t.text ↔ s.inst.pc = t.inst.pc ∧ s.active = t.active) ∧
      read? 2 (s.text.toList.rtake s.width) = some s.active.bits.toNat ∧
      read? 16 (addressField s.text.toList) = some s.inst.pc.toNat := by
  refine ⟨⟨fun htext => ⟨?_, ?_⟩, ?_⟩, hs.read?_lanes, read?_address s⟩
  · have h := read?_address s
    rw [htext, read?_address t, Option.some.injEq] at h
    exact UInt32.toNat_inj.mp h.symm
  · have h := hs.read?_lanes
    rw [htext, hwidth, ht.read?_lanes, Option.some.injEq] at h
    exact congrArg Mask.mk (UInt32.toNat_inj.mp h.symm)
  · rintro ⟨hpc, hactive⟩
    rw [text, text, Instruction.text, Instruction.text, maskText, maskText, hpc, hactive, hwidth]

/-- A slot of four lanes that holds the instruction of an address. -/
def holding (pc mask : UInt32) : Slot Nat :=
  ⟨{ Instruction.placeholder with pc }, 4, false, false, 1, 1, ⟨mask⟩, none⟩

theorem holding_inUse (pc mask lanes : UInt32) (h : Slot.step
    ⟨{ Instruction.placeholder with pc }, 4, true, false, 0, 0, .empty, none⟩ (.issue mask 1 1) =
      .ok (holding pc lanes, [])) : (holding pc lanes).InUse := by
  have hnew : InUse (⟨.placeholder, 4, true, false, 0, 0, .empty, none⟩ : Slot Nat) :=
    .new (rfl : Slot.new 4 = .ok _)
  have hset : InUse (⟨{ Instruction.placeholder with pc }, 4, true, false, 0, 0, .empty, none⟩ :
      Slot Nat) :=
    .step hnew (rfl : Slot.step _ (.edit (.setInst { Instruction.placeholder with pc })) = .ok _)
  exact .step hset h

/-- The address of the first slot has five digits. The second slot has another address, and the
same lanes, since it has no lane past the fourth. -/
theorem two_slots_show_two_addresses :
    (holding 0x12345 3).InUse ∧ (holding 8 3).InUse ∧
      (holding 0x12345 3).text ≠ (holding 8 3).text ∧
      read? 2 ((holding 0x12345 3).text.toList.rtake 4) = some 3 ∧
      read? 16 (addressField (holding 0x12345 3).text.toList) = some 0x12345 := by
  have hfirst : (holding 0x12345 3).InUse := holding_inUse _ 3 _ (by decide)
  have hsecond : (holding 8 3).InUse := holding_inUse _ 0xf3 _ (by decide)
  obtain ⟨htext, hlanes, haddress⟩ := a_text_tells_the_address_and_the_lanes hfirst hsecond rfl
  refine ⟨hfirst, hsecond, fun h => ?_, hlanes, haddress⟩
  exact absurd (htext.mp h).1 (by decide)

end Simt.Slot
