-- One slot for one issue after another. A slot that rests is like a new one, an issue puts
-- the lowest lanes to work, and whatever the edits of a hook did, a clear brings the slot
-- back to rest.
import Simt.Proofs.Mask
import Simt.Slot

namespace Simt

variable {α : Type}

/-- What a hook may do to a slot: set the instruction, or record something on one lane. -/
inductive SlotEdit (α : Type) where
  | setInst (value : Instruction)
  | setAddr (lane : Nat) (addr : UInt64)
  | setCacheMiss (lane : Nat) (cacheMiss : Bool)
  | park (lane : Nat) (work : α)

namespace SlotEdit

def apply (s : Slot α) : SlotEdit α → Outcome (Slot α)
  | .setInst value => .ok { s with inst := value }
  | .setAddr lane addr => s.setAddr lane addr
  | .setCacheMiss lane cacheMiss => s.setCacheMiss lane cacheMiss
  | .park lane work => s.park lane work

/-- The edit names no lane at or past the width. -/
def Below (width : Nat) : SlotEdit α → Prop
  | .setInst _ => True
  | .setAddr lane _ | .setCacheMiss lane _ | .park lane _ => lane < width

end SlotEdit

namespace Slot

variable {s t : Slot α} {width : Nat}

/-- The lanes, where there are any, are as many as the width says. -/
def Fits (s : Slot α) : Prop := ∀ l, s.lanes = some l → l.length = s.width

/-- A slot at rest. The lanes may be there, and then nothing is recorded on them. -/
structure Idle (s : Slot α) (w : Nat) : Prop where
  width : s.width = w
  empty : s.empty = true
  atomic : s.atomic = false
  active : s.active = .empty
  lanes : ∀ l, s.lanes = some l → l = List.replicate w .fresh

theorem new_ok (h : width ≤ maxWarpSize) : ∃ s : Slot α, new width = .ok s ∧ s.Idle width := by
  unfold new
  rw [if_pos h]
  exact ⟨_, rfl, rfl, rfl, rfl, rfl, fun l hl => by cases hl⟩

theorem Idle.fits (h : s.Idle width) : s.Fits := by
  intro l hl
  rw [h.lanes l hl, List.length_replicate, h.width]

/-! ## Edits -/

/-- An edit leaves the issue alone: only the instruction, the lanes and the mark of parked
work can change. -/
structure SameIssue (s t : Slot α) : Prop where
  width : t.width = s.width
  empty : t.empty = s.empty
  warp : t.warp = s.warp
  issueCycle : t.issueCycle = s.issueCycle
  active : t.active = s.active

theorem SameIssue.trans {u : Slot α} (h : SameIssue s t) (h' : SameIssue t u) : SameIssue s u :=
  ⟨h'.width.trans h.width, h'.empty.trans h.empty, h'.warp.trans h.warp,
    h'.issueCycle.trans h.issueCycle, h'.active.trans h.active⟩

theorem length_madeLanes (h : s.Fits) : s.madeLanes.length = s.width := by
  unfold madeLanes
  cases hl : s.lanes with
  | none => simp
  | some l => exact h l hl

theorem updateLane_ok {lane : Nat} (change : Lane α → Lane α) (h : s.Fits) (hl : lane < s.width) :
    ∃ t, s.updateLane lane change = .ok t ∧ t.Fits ∧ SameIssue s t := by
  have hlen := length_madeLanes h
  unfold updateLane
  rw [if_pos (by omega)]
  refine ⟨_, rfl, ?_, rfl, rfl, rfl, rfl, rfl⟩
  intro l hl
  cases hl
  rw [List.length_modify, hlen]

theorem edit_ok {e : SlotEdit α} (h : s.Fits) (he : e.Below s.width) :
    ∃ t, e.apply s = .ok t ∧ t.Fits ∧ SameIssue s t := by
  cases e with
  | setInst value => exact ⟨_, rfl, h, rfl, rfl, rfl, rfl, rfl⟩
  | setAddr lane addr => exact updateLane_ok _ h he
  | setCacheMiss lane cacheMiss => exact updateLane_ok _ h he
  | park lane work =>
    obtain ⟨t, ht, hfit, hsame⟩ := updateLane_ok (s := { s with atomic := true })
      ({ · with parked := some work }) h he
    exact ⟨t, ht, hfit, hsame.width, hsame.empty, hsame.warp, hsame.issueCycle, hsame.active⟩

theorem edits_ok {edits : List (SlotEdit α)} (h : s.Fits) (he : ∀ e ∈ edits, e.Below s.width) :
    ∃ t, edits.foldlM SlotEdit.apply s = .ok t ∧ t.Fits ∧ SameIssue s t := by
  induction edits generalizing s with
  | nil => exact ⟨s, rfl, h, rfl, rfl, rfl, rfl, rfl⟩
  | cons e rest ih =>
    obtain ⟨u, hu, hfit, hsame⟩ := edit_ok h (he e List.mem_cons_self)
    obtain ⟨t, ht, hfit', hsame'⟩ := ih hfit fun e' he' => by
      rw [hsame.width]
      exact he e' (List.mem_cons_of_mem e he')
    refine ⟨t, ?_, hfit', hsame.trans hsame'⟩
    rw [List.foldlM_cons, hu]
    exact ht

/-! ## Parked work -/

/-- The work that a delivery takes off the lanes, in the order of the lanes. -/
def due (s : Slot α) : List α :=
  if s.atomic then (s.lanes.getD []).filterMap (·.parked) else []

theorem length_due_le (h : s.Fits) : s.due.length ≤ s.width := by
  unfold due
  split
  · cases hl : s.lanes with
    | none => simp
    | some l =>
      rw [Option.getD_some, ← h l hl]
      exact List.length_filterMap_le _ _
  · exact Nat.zero_le _

/-- The delivery changes nothing that the clear after it would leave. -/
theorem takeParked_eq_ok {work : List α} (ha : s.atomic = true) :
    s.takeParked = .ok (work, t) ↔
      s.empty = false ∧ work = s.due ∧
        t = { s with lanes := s.lanes.map (·.map ({ · with parked := none })) } := by
  unfold takeParked due
  rw [ha]
  cases s.empty <;> simp [eq_comm]

theorem clear_idle (h : s.Fits) : s.clear.Idle s.width := by
  refine ⟨rfl, rfl, rfl, rfl, ?_⟩
  intro l hl
  obtain ⟨l', hl', rfl⟩ := Option.map_eq_some_iff.mp hl
  rw [List.map_const', h l' hl']

/-! ## An issue -/

/-- An issue into a slot at rest makes the lowest lanes active, and nothing else stands on
the slot. -/
theorem issue_ok {m : Mask} {k : Nat} (h : s.Idle width) (hw : width ≤ maxWarpSize)
    (hm : ∀ lane, m.test lane = decide (lane < k)) (hk : k ≤ width) (warp : UInt32)
    (cycle : UInt64) :
    ∃ t, s.issue m.bits warp cycle = .ok t ∧ t.inst = s.inst ∧ t.width = width ∧
      t.empty = false ∧ t.atomic = false ∧ t.warp = warp ∧ t.issueCycle = cycle ∧
      t.active.lanes = List.range k ∧ t.lanes = s.lanes := by
  unfold issue
  rw [if_pos h.empty]
  refine ⟨_, rfl, rfl, h.width, rfl, h.atomic, rfl, rfl, ?_, rfl⟩
  have hnamed : (List.range s.width).filter (Mask.mk m.bits).test = List.range k := by
    rw [h.width, List.filter_congr fun lane _ => hm lane]
    exact Mask.filter_range_lt hk
  have hbelow : ∀ l ∈ List.range k, l < maxWarpSize := by
    intro l hl
    have := List.mem_range.mp hl
    omega
  simp only [hnamed, h.active]
  apply Mask.lanes_eq_range (hk.trans hw)
  intro lane
  rw [Mask.test_foldl_insert _ _ hbelow]
  simp

end Slot

end Simt
