-- One warp instruction. An issue that goes through calls the hook once, leaves the slot at
-- rest and the counters ahead, and touches its SM only where the warp arrives at a barrier.
import Simt.Proofs.Launch.Hook
import Simt.Proofs.Sm.Hosting

namespace Simt

/-- The cycles that one issue takes. -/
def Instruction.cost (inst : Instruction) : Nat := max inst.cycles.toNat 1

namespace Launch

variable {σ α : Type} {hook : Hook σ α} {folder : Folder} {cta : Cta} {inst : Instruction}
  {warp : Warp} {front next : Front σ α} {slot edited : Slot α} {host : σ} {width : Nat}

theorem toNat_cost (inst : Instruction) : (max inst.cycles 1).toUInt64.toNat = inst.cost := by
  show (if inst.cycles ≤ 1 then (1 : UInt32) else inst.cycles).toUInt64.toNat = _
  rw [UInt32.toNat_toUInt64, Instruction.cost]
  split <;> rename_i hle <;> rw [UInt32.le_iff_toNat_le, UInt32.toNat_one] at hle
  · rw [UInt32.toNat_one]
    omega
  · omega

/-! ## What an issue does -/

/-- An issue that went through, with the slot as the hook got it and as the hook left it. -/
structure Issue (hook : Hook σ α) (folder : Folder) (cta : Cta) (inst : Instruction) (warp : Warp)
    (front next : Front σ α) (slot edited : Slot α) (host : σ) : Prop where
  occupied : occupy inst warp front = .ok slot
  called : hook.issue folder front.host slot (context cta warp front.cycle) = .ok (host, edited)
  host : next.host = edited.due.foldl (fun host work => hook.deliver host work edited.inst) host
  slot : next.slot = edited.clear
  met : meet cta inst warp front.sm = .ok next.sm
  issued : next.issued.toNat = front.issued.toNat + 1
  atomics : Word.add64 front.atomics (UInt64.ofNat edited.due.length) = .ok next.atomics
  cycle : next.cycle.toNat = front.cycle.toNat + inst.cost

/-- The SM is the same after a delivery as before it. -/
theorem settle_cases (h : settle hook warp.id front = .ok next) :
    next.sm = front.sm ∧ next.slot.clear = front.slot.clear ∧
      next.host = front.slot.due.foldl
        (fun host work => hook.deliver host work front.slot.inst) front.host ∧
      next.issued = front.issued ∧ next.cycle = front.cycle ∧
      Word.add64 front.atomics (UInt64.ofNat front.slot.due.length) = .ok next.atomics := by
  unfold settle at h
  split at h
  · rename_i ha
    obtain ⟨sm, hsm, h⟩ := Outcome.bind_eq_ok.mp h
    obtain ⟨⟨work, taken⟩, hwork, h⟩ := Outcome.bind_eq_ok.mp h
    obtain ⟨atomics, hatomics, h⟩ := Outcome.bind_eq_ok.mp h
    obtain ⟨sm', hsm', h⟩ := Outcome.bind_eq_ok.mp h
    cases h
    obtain ⟨_, rfl, rfl⟩ := (Slot.takeParked_eq_ok ha).mp hwork
    rw [Sm.completeAtomic_of_issueAtomic hsm, Except.ok.injEq] at hsm'
    refine ⟨hsm'.symm, ?_, rfl, rfl, rfl, hatomics⟩
    simp [Slot.clear, Function.comp_def]
  · rename_i ha
    cases h
    have hdue : front.slot.due = [] := by simp [Slot.due, ha]
    refine ⟨rfl, rfl, by rw [hdue]; rfl, rfl, rfl, ?_⟩
    rw [hdue]
    exact Word.add64_eq_ok.mpr (by simp)

theorem issue_cases (h : issue hook folder cta inst warp front = .ok next) :
    ∃ slot edited host, Issue hook folder cta inst warp front next slot edited host := by
  obtain ⟨slot, hslot, h⟩ := Outcome.bind_eq_ok.mp h
  obtain ⟨⟨host, edited⟩, hcall, h⟩ := Outcome.bind_eq_ok.mp h
  obtain ⟨mid, hmid, h⟩ := Outcome.bind_eq_ok.mp h
  obtain ⟨sm, hsm, h⟩ := Outcome.bind_eq_ok.mp h
  obtain ⟨issued, hissued, h⟩ := Outcome.bind_eq_ok.mp h
  obtain ⟨cycle, hcycle, h⟩ := Outcome.bind_eq_ok.mp h
  cases h
  obtain ⟨hs, hclear, hhost, hi, hc, ha⟩ := settle_cases hmid
  refine ⟨slot, edited, host, hslot, hcall, hhost, hclear, by rw [← hs]; exact hsm, ?_, ha, ?_⟩
  · rw [Word.add64_eq_ok.mp hissued, hi]
    rfl
  · rw [Word.add64_eq_ok.mp hcycle, hc, toNat_cost]

/-- The slot that the hook gets: the instruction of the program, on as many lanes as the warp
has threads. -/
theorem occupy_ok (inst : Instruction) (hs : front.slot.Idle width) (hw : width ≤ maxWarpSize)
    (hk : warp.threads.length ≤ width) :
    ∃ slot, occupy inst warp front = .ok slot ∧ slot.inst = inst ∧ slot.width = width ∧
      slot.empty = false ∧ slot.active.lanes = List.range warp.threads.length ∧ slot.Fits := by
  obtain ⟨m, hm, htest⟩ := Mask.full_ok (hk.trans hw)
  have hidle : Slot.Idle { front.slot with inst } width :=
    ⟨hs.width, hs.empty, hs.atomic, hs.active, hs.lanes⟩
  obtain ⟨slot, hslot, hinst, hwidth, hempty, _, _, _, hactive, hlanes⟩ :=
    Slot.issue_ok hidle hw htest hk warp.id front.cycle
  refine ⟨slot, ?_, hinst, hwidth, hempty, hactive, ?_⟩
  · rw [occupy, hm]
    exact hslot
  · intro l hl
    rw [hlanes] at hl
    rw [hs.lanes l hl, List.length_replicate, hwidth]

/-- A confined hook answers, and leaves a slot that holds the same issue. -/
theorem call_ok (hc : hook.Confined width) (hwidth : slot.width = width) (hfit : slot.Fits)
    (folder : Folder) (host : σ) (ctx : IssueContext) :
    ∃ host' edited, hook.issue folder host slot ctx = .ok (host', edited) ∧ edited.Fits ∧
      Slot.SameIssue slot edited := by
  obtain ⟨host', edits, hbelow, he⟩ := hc folder host slot ctx
  obtain ⟨edited, hedited, hfit', hsame⟩ := Slot.edits_ok hfit (by rw [hwidth]; exact hbelow)
  exact ⟨host', edited, by rw [he, hedited]; rfl, hfit', hsame⟩

/-- An issue starts from a slot at rest and ends with one. -/
theorem Issue.keeps_idle (h : Issue hook folder cta inst warp front next slot edited host)
    (hc : hook.Confined width) (hw : width ≤ maxWarpSize) (hs : front.slot.Idle width)
    (hk : warp.threads.length ≤ width) :
    slot.inst = inst ∧ slot.active.lanes = List.range warp.threads.length ∧
      next.slot.Idle width ∧ edited.due.length ≤ width := by
  obtain ⟨u, hu, hinst, hwidth, _, hactive, hfit⟩ := occupy_ok inst hs hw hk
  rw [h.occupied, Except.ok.injEq] at hu
  subst hu
  obtain ⟨host', e, he, hfit', hsame⟩ :=
    call_ok hc hwidth hfit folder front.host (context cta warp front.cycle)
  rw [h.called, Except.ok.injEq, Prod.mk.injEq] at he
  obtain ⟨rfl, rfl⟩ := he
  have hwidth' : edited.width = width := hsame.width.trans hwidth
  refine ⟨hinst, hactive, ?_, ?_⟩
  · rw [h.slot, ← hwidth']
    exact Slot.clear_idle hfit'
  · rw [← hwidth']
    exact Slot.length_due_le hfit'

/-! ## Issues with room -/

theorem settle_ok {r : Resident} (hf : front.sm.warps.find? warp.id = some r)
    (hp : r.pending = 0) (he : front.slot.empty = false) (hfit : front.slot.Fits)
    (ha : front.atomics.toNat + front.slot.width < UInt64.size) :
    ∃ next, settle hook warp.id front = .ok next := by
  unfold settle
  split
  · rename_i hatomic
    obtain ⟨sm, hsm⟩ := Sm.issueAtomic_ok hf hp
    have hback := Sm.completeAtomic_of_issueAtomic hsm
    have htaken := (Slot.takeParked_eq_ok hatomic).mpr ⟨he, rfl, rfl⟩
    have hdue := Slot.length_due_le hfit
    obtain ⟨atomics, hatomics⟩ := Word.add64_ok (a := front.atomics)
      (b := UInt64.ofNat front.slot.due.length)
      (by rw [UInt64.toNat_ofNat_of_lt' (by omega)]; omega)
    rw [deliver, hsm, Outcome.ok_bind, htaken]
    simp only [Outcome.ok_bind, hatomics, hback]
    exact ⟨_, rfl⟩
  · exact ⟨_, rfl⟩

theorem meet_ok {sm : Sm} {r : Resident} (hf : sm.warps.find? warp.id = some r)
    (hcta : r.cta = cta.index) (hr : sm.released.toNat + 1 < UInt64.size) :
    ∃ t, meet cta inst warp sm = .ok t := by
  unfold meet
  split
  · exact Sm.arrive_ok hf hcta hr
  · exact ⟨_, rfl⟩

/-- A warp arrives at a barrier that it meets, and at another instruction nothing happens. -/
theorem meet_cases {sm t : Sm} (h : meet cta inst warp sm = .ok t) :
    (inst.op = .barrier ∧ sm.arrive cta.index warp.id = .ok t) ∨
      (inst.op ≠ .barrier ∧ t = sm) := by
  unfold meet at h
  split at h
  · exact Or.inl ⟨‹_›, h⟩
  · cases h
    exact Or.inr ⟨‹_›, rfl⟩

theorem meet_serves {sm t : Sm} {id : UInt32} (h : meet cta inst warp sm = .ok t)
    (hs : sm.Serves cta.index id) : t.Serves cta.index id := by
  rcases meet_cases h with ⟨_, ha⟩ | ⟨_, rfl⟩
  · exact hs.arrive ha
  · exact hs

theorem meet_released_le {sm t : Sm} (h : meet cta inst warp sm = .ok t) :
    t.released.toNat ≤ sm.released.toNat + 1 := by
  rcases meet_cases h with ⟨_, ha⟩ | ⟨_, rfl⟩
  · exact Sm.arrive_released_le ha
  · exact Nat.le_succ _

theorem meet_config {sm t : Sm} (h : meet cta inst warp sm = .ok t) : t.config = sm.config := by
  rcases meet_cases h with ⟨_, ha⟩ | ⟨_, rfl⟩
  · exact Sm.arrive_config ha
  · rfl

/-- A warp that is resident under its block, with nothing in flight, can issue as long as the
counters have room. -/
theorem issue_ok {r : Resident} (folder : Folder) (hc : hook.Confined width)
    (hw : width ≤ maxWarpSize) (hs : front.slot.Idle width) (hk : warp.threads.length ≤ width)
    (hf : front.sm.warps.find? warp.id = some r) (hcta : r.cta = cta.index) (hp : r.pending = 0)
    (hr : front.sm.released.toNat + 1 < UInt64.size)
    (hi : front.issued.toNat + 1 < UInt64.size)
    (ha : front.atomics.toNat + width < UInt64.size)
    (hy : front.cycle.toNat + inst.cost < UInt64.size) :
    ∃ next, issue hook folder cta inst warp front = .ok next := by
  obtain ⟨slot, hslot, _, hwidth, hempty, _, hfit⟩ := occupy_ok inst hs hw hk
  obtain ⟨host, edited, hcall, hfit', hsame⟩ :=
    call_ok hc hwidth hfit folder front.host (context cta warp front.cycle)
  have hwidth' : edited.width = width := hsame.width.trans hwidth
  obtain ⟨mid, hmid⟩ : ∃ mid, settle hook warp.id { front with slot := edited, host } = .ok mid :=
    settle_ok hf hp (hsame.empty.trans hempty) hfit' (by rw [hwidth']; exact ha)
  obtain ⟨hsm, _, _, hissued, hcycle, _⟩ := settle_cases hmid
  obtain ⟨sm, hmet⟩ : ∃ sm, meet cta inst warp mid.sm = .ok sm :=
    meet_ok (by rw [hsm]; exact hf) hcta (by rw [hsm]; exact hr)
  obtain ⟨issued, hissued'⟩ := Word.add64_ok (a := mid.issued) (b := 1)
    (by rw [hissued]; exact hi)
  obtain ⟨cycle, hcycle'⟩ := Word.add64_ok (a := mid.cycle) (b := (max inst.cycles 1).toUInt64)
    (by rw [hcycle, toNat_cost]; exact hy)
  rw [issue, hslot, Outcome.ok_bind, hcall]
  simp only [Outcome.ok_bind, hmid, hmet, hissued', hcycle']
  exact ⟨_, rfl⟩

end Launch

end Simt
