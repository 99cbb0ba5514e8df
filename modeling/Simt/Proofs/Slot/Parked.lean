-- Work that is parked on the lanes of a slot. Each operation is told by what is parked on a lane
-- afterwards, and a delivery by the lanes in ascending order.
import Simt.Proofs.Slot

namespace Simt

variable {α : Type}

namespace SlotEdit

/-- What the edit parks on a lane. -/
def parks (lane : Nat) : SlotEdit α → Option α
  | .park l work => if l = lane then some work else none
  | .setInst _ | .setAddr _ _ | .setCacheMiss _ _ => none

/-- The instruction that the edit sets. -/
def inst? : SlotEdit α → Option Instruction
  | .setInst value => some value
  | .setAddr _ _ | .setCacheMiss _ _ | .park _ _ => none

/-- The last work that the edits park on a lane. -/
def lastParked (edits : List (SlotEdit α)) (lane : Nat) : Option α :=
  (edits.filterMap (parks lane)).getLast?

/-- What the edits leave parked, in ascending order of the lanes. -/
def leftParked (width : Nat) (edits : List (SlotEdit α)) : List α :=
  (List.range width).filterMap (lastParked edits)

/-- The instruction after the edits: the last one that they set, or the one before. -/
def instAfter (inst : Instruction) (edits : List (SlotEdit α)) : Instruction :=
  (edits.filterMap inst?).getLast?.getD inst

theorem lastParked_cons (e : SlotEdit α) (rest : List (SlotEdit α)) (lane : Nat) :
    lastParked (e :: rest) lane = (lastParked rest lane).or (e.parks lane) := by
  unfold lastParked
  cases hp : e.parks lane with
  | none => simp [hp]
  | some work =>
    rw [List.filterMap_cons_some hp, List.getLast?_cons]
    cases (rest.filterMap (parks lane)).getLast? <;> rfl

theorem instAfter_cons (inst : Instruction) (e : SlotEdit α) (rest : List (SlotEdit α)) :
    instAfter inst (e :: rest) = instAfter (e.inst?.getD inst) rest := by
  unfold instAfter
  cases hi : e.inst? with
  | none => simp [hi]
  | some value =>
    rw [List.filterMap_cons_some hi, List.getLast?_cons, Option.getD_some, Option.getD_some]

end SlotEdit

namespace Slot

variable {s t : Slot α} {lane : Nat}

/-- What is parked on a lane, active or not. -/
def parkedAt (s : Slot α) (lane : Nat) : Option α := (s.lane? lane).bind (·.parked)

/-- All that is parked, in ascending order of the lanes. -/
def pending (s : Slot α) : List α := (List.range s.width).filterMap s.parkedAt

theorem parkedAt_of_lanes {lanes : List (Lane α)} (h : s.lanes = some lanes) (lane : Nat) :
    s.parkedAt lane = lanes[lane]?.bind (·.parked) := by
  rw [parkedAt, lane?, h, Option.bind_some]

theorem parkedAt_of_none (h : s.lanes = none) (lane : Nat) : s.parkedAt lane = none := by
  rw [parkedAt, lane?, h]
  rfl

theorem Fits.lt_of_parkedAt {work : α} (h : s.Fits) (hp : s.parkedAt lane = some work) :
    lane < s.width := by
  cases hl : s.lanes with
  | none =>
    rw [parkedAt_of_none hl] at hp
    cases hp
  | some lanes =>
    rw [parkedAt_of_lanes hl, Option.bind_eq_some_iff] at hp
    obtain ⟨l, hget, _⟩ := hp
    rw [← h lanes hl]
    exact (List.getElem?_eq_some_iff.mp hget).1

/-- The lanes read one after the other. -/
theorem filterMap_range_getElem? {β γ : Type} (f : β → Option γ) (l : List β) :
    (List.range l.length).filterMap (fun i => l[i]?.bind f) = l.filterMap f := by
  induction l using List.reverseRecOn with
  | nil => rfl
  | append_singleton l b ih =>
    rw [List.length_append, List.length_singleton, List.range_succ, List.filterMap_append,
      List.filterMap_append, ← ih]
    congr 1
    · refine List.filterMap_congr fun i hi => ?_
      rw [List.getElem?_append_left (List.mem_range.mp hi)]
    · rw [List.filterMap_cons, List.getElem?_concat_length]
      rfl

theorem Fits.pending_eq (h : s.Fits) :
    s.pending = (s.lanes.getD []).filterMap (·.parked) := by
  unfold pending
  cases hl : s.lanes with
  | none =>
    rw [List.filterMap_eq_nil_iff.mpr fun lane _ => parkedAt_of_none hl lane]
    rfl
  | some lanes =>
    rw [Option.getD_some, ← h lanes hl, ← filterMap_range_getElem? _ lanes]
    exact List.filterMap_congr fun lane _ => parkedAt_of_lanes hl lane

/-- Nothing is parked on fresh lanes. -/
theorem fresh_parked (count lane : Nat) :
    (List.replicate count (.fresh : Lane α))[lane]?.bind (·.parked) = none := by
  rw [Option.bind_eq_none_iff]
  intro l hget
  rw [List.eq_of_mem_replicate (List.mem_of_getElem? hget)]
  rfl

/-! ## Slots in use -/

theorem clear_parkedAt (s : Slot α) (lane : Nat) : s.clear.parkedAt lane = none := by
  cases hl : s.lanes with
  | none => exact parkedAt_of_none (by rw [clear, hl]; rfl) lane
  | some lanes =>
    have hcleared : s.clear.lanes = some (List.replicate lanes.length .fresh) := by
      rw [clear, hl, ← List.map_const']
      rfl
    rw [parkedAt_of_lanes hcleared, fresh_parked]

theorem Idle.parkedAt {width : Nat} (h : s.Idle width) (lane : Nat) : s.parkedAt lane = none := by
  cases hl : s.lanes with
  | none => exact parkedAt_of_none hl lane
  | some lanes => rw [parkedAt_of_lanes hl, h.lanes lanes hl, fresh_parked]

theorem issue_cases {mask warp : UInt32} {cycle : UInt64} (h : s.issue mask warp cycle = .ok t) :
    s.empty = true ∧ t.empty = false ∧ t.inst = s.inst ∧ t.width = s.width ∧
      t.atomic = s.atomic ∧ t.lanes = s.lanes := by
  unfold issue at h
  split at h
  · rename_i he
    cases h
    exact ⟨he, rfl, rfl, rfl, rfl, rfl⟩
  · cases h

theorem parkedAt_congr (h : t.lanes = s.lanes) (lane : Nat) : t.parkedAt lane = s.parkedAt lane := by
  rw [parkedAt, parkedAt, lane?, lane?, h]

/-! ## Edits -/

/-- What is parked shows on the lanes that an edit works on, made new or not. -/
theorem madeLanes_parked (s : Slot α) (lane : Nat) :
    s.madeLanes[lane]?.bind (·.parked) = s.parkedAt lane := by
  unfold madeLanes
  cases hl : s.lanes with
  | none => rw [parkedAt_of_none hl, Option.getD_none, fresh_parked]
  | some lanes => rw [parkedAt_of_lanes hl, Option.getD_some]

theorem updateLane_cases {change : Lane α → Lane α} (h : s.updateLane lane change = .ok t) :
    lane < s.madeLanes.length ∧ t = { s with lanes := some (s.madeLanes.modify lane change) } := by
  unfold updateLane at h
  split at h
  · rename_i hlt
    cases h
    exact ⟨hlt, rfl⟩
  · cases h

theorem updateLane_parkedAt {change : Lane α → Lane α} (h : s.updateLane lane change = .ok t)
    (other : Nat) : t.parkedAt other =
      if lane = other then s.madeLanes[other]?.bind (fun l => (change l).parked)
      else s.parkedAt other := by
  obtain ⟨_, rfl⟩ := updateLane_cases h
  rw [parkedAt_of_lanes rfl, List.getElem?_modify]
  by_cases hl : lane = other
  · simp [hl, Option.bind_map]
  · simp [hl, madeLanes_parked]

/-- An edit parks its work on its lane, and leaves what is parked on the other lanes. -/
theorem edit_parkedAt {e : SlotEdit α} (h : e.apply s = .ok t) (other : Nat) :
    t.parkedAt other = (e.parks other).or (s.parkedAt other) := by
  cases e with
  | setInst value =>
    cases h
    rfl
  | setAddr lane addr =>
    rw [updateLane_parkedAt h, madeLanes_parked, ite_self]
    rfl
  | setCacheMiss lane cacheMiss =>
    rw [updateLane_parkedAt h, madeLanes_parked, ite_self]
    rfl
  | park lane work =>
    obtain ⟨hlt, _⟩ := updateLane_cases h
    rw [updateLane_parkedAt h]
    by_cases hl : lane = other
    · subst hl
      simp [SlotEdit.parks, List.getElem?_eq_getElem hlt]
    · simp only [SlotEdit.parks, if_neg hl, Option.none_or]
      rfl

theorem edit_inst {e : SlotEdit α} (h : e.apply s = .ok t) : t.inst = e.inst?.getD s.inst := by
  cases e with
  | setInst value =>
    cases h
    rfl
  | setAddr lane addr => rw [(updateLane_cases h).2]; rfl
  | setCacheMiss lane cacheMiss => rw [(updateLane_cases h).2]; rfl
  | park lane work => rw [(updateLane_cases h).2]; rfl

/-- An edit that goes through names a lane of the slot. -/
theorem edit_below {e : SlotEdit α} (hs : s.Fits) (h : e.apply s = .ok t) : e.Below s.width := by
  rw [← length_madeLanes hs]
  cases e with
  | setInst value => trivial
  | setAddr lane addr => exact (updateLane_cases h).1
  | setCacheMiss lane cacheMiss => exact (updateLane_cases h).1
  | park lane work => exact (updateLane_cases h).1

theorem edit_keeps {e : SlotEdit α} (hs : s.Fits) (h : e.apply s = .ok t) :
    t.Fits ∧ SameIssue s t := by
  obtain ⟨u, hu, hfit, hsame⟩ := edit_ok hs (edit_below hs h)
  rw [h, Except.ok.injEq] at hu
  rw [hu]
  exact ⟨hfit, hsame⟩

/-- A slot with parked work is marked for it. -/
def Marked (s : Slot α) : Prop := ∀ lane, (s.parkedAt lane).isSome = true → s.atomic = true

theorem edit_marked {e : SlotEdit α} (hs : s.Marked) (h : e.apply s = .ok t) : t.Marked := by
  intro lane hp
  rw [edit_parkedAt h] at hp
  cases e with
  | setInst value =>
    cases h
    exact hs lane hp
  | setAddr l addr =>
    rw [(updateLane_cases h).2]
    exact hs lane hp
  | setCacheMiss l cacheMiss =>
    rw [(updateLane_cases h).2]
    exact hs lane hp
  | park l work => rw [(updateLane_cases h).2]

/-- After edits, each lane has the last work that they parked on it, or what it had before. -/
theorem edits_parked {edits : List (SlotEdit α)} (hs : s.Marked)
    (h : edits.foldlM SlotEdit.apply s = .ok t) :
    (∀ lane, t.parkedAt lane = (SlotEdit.lastParked edits lane).or (s.parkedAt lane)) ∧
      t.inst = SlotEdit.instAfter s.inst edits ∧ t.Marked := by
  induction edits generalizing s with
  | nil =>
    cases h
    exact ⟨fun _ => rfl, rfl, hs⟩
  | cons e rest ih =>
    obtain ⟨u, hu, h⟩ := Outcome.bind_eq_ok.mp h
    obtain ⟨hparked, hinst, hmarked⟩ := ih (edit_marked hs hu) h
    refine ⟨?_, ?_, hmarked⟩
    · intro lane
      rw [hparked, edit_parkedAt hu, SlotEdit.lastParked_cons, Option.or_assoc]
    · rw [hinst, edit_inst hu, SlotEdit.instAfter_cons]

/-! ## Deliveries -/

/-- What is due on a marked slot is all that is parked. -/
theorem Marked.due_eq (hm : s.Marked) (h : s.Fits) : s.due = s.pending := by
  unfold due
  split
  · exact h.pending_eq.symm
  · rename_i ha
    symm
    refine List.filterMap_eq_nil_iff.mpr fun lane _ => ?_
    by_contra hp
    exact ha (hm lane (Option.isSome_iff_ne_none.mpr hp))

/-- After edits of a slot that had nothing parked on it, what they have left parked is due. -/
theorem edits_due {edits : List (SlotEdit α)} (hfit : s.Fits) (hmarked : s.Marked)
    (hnone : ∀ lane, s.parkedAt lane = none) (hbelow : ∀ e ∈ edits, e.Below s.width)
    (h : edits.foldlM SlotEdit.apply s = .ok t) :
    t.inst = SlotEdit.instAfter s.inst edits ∧ t.due = SlotEdit.leftParked s.width edits ∧
      t.due.length ≤ s.width := by
  obtain ⟨u, hu, hfit', hsame⟩ := edits_ok hfit hbelow
  rw [h, Except.ok.injEq] at hu
  rw [← hu] at hfit' hsame
  obtain ⟨hparked, hinst, hmarked'⟩ := edits_parked hmarked h
  refine ⟨hinst, ?_, ?_⟩
  · rw [hmarked'.due_eq hfit', pending, hsame.width]
    refine List.filterMap_congr fun lane _ => ?_
    rw [hparked, hnone, Option.or_none]
  · rw [← hsame.width]
    exact length_due_le hfit'

/-- A delivery takes all that is parked off the lanes, and changes nothing else. -/
theorem takeParked_cases {work : List α} (hs : s.Fits) (h : s.takeParked = .ok (work, t)) :
    work = s.pending ∧ (∀ lane, t.parkedAt lane = none) ∧ t.Fits ∧ t.inst = s.inst ∧
      t.width = s.width ∧ t.empty = s.empty ∧ s.empty = false := by
  have ha : s.atomic = true := by
    unfold takeParked at h
    split at h
    · rename_i hb
      exact (Bool.and_eq_true_iff.mp hb).1
    · cases h
  obtain ⟨he, rfl, rfl⟩ := (takeParked_eq_ok ha).mp h
  refine ⟨?_, ?_, ?_, rfl, rfl, rfl, he⟩
  · rw [due, if_pos ha, hs.pending_eq]
  · intro lane
    cases hl : s.lanes with
    | none => exact parkedAt_of_none rfl lane
    | some lanes =>
      rw [parkedAt_of_lanes rfl, List.getElem?_map, Option.bind_map, Option.bind_eq_none_iff]
      intro l _
      rfl
  · intro lanes hl
    obtain ⟨lanes', hl', rfl⟩ := Option.map_eq_some_iff.mp hl
    rw [List.length_map]
    exact hs lanes' hl'

end Slot

end Simt
