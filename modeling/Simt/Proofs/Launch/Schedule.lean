-- The program of one block. Every pair of an instruction and a warp is issued once, in the
-- order of the program and then of the warps. What the counters come to is told through the
-- pairs that are left, and the barriers of the block through the SM that hosts it.
import Simt.Proofs.Launch.Issue

namespace Simt.Launch

variable {σ α : Type} {hook : Hook σ α} {folder : Folder} {cta : Cta} {inst : Instruction}
  {warp : Warp} {warps : List Warp} {program : List Instruction} {front mid next : Front σ α}
  {width : Nat}

/-! ## The schedule of a block -/

/-- A block issues along the pairs of its instructions and its warps. -/
theorem issueAll_eq_foldlM :
    issueAll hook folder cta warps program front =
      (program ×ˢ warps).foldlM (fun front t => issue hook folder cta t.1 t.2 front) front := by
  induction program generalizing front with
  | nil => rfl
  | cons inst rest ih =>
    rw [List.product_cons, List.foldlM_append, List.foldlM_map, issueAll, List.foldlM_cons]
    exact congrArg _ (funext fun mid => ih)

/-- What the counters come to at the end of a schedule, told from the part that is left. -/
structure Outlook (width : Nat) (rest : List (Instruction × Warp)) (front : Front σ α)
    (issued atomics cycle : Nat) : Prop where
  idle : front.slot.Idle width
  short : ∀ t ∈ rest, t.2.threads.length ≤ width
  issued : front.issued.toNat + rest.length = issued
  atomics : front.atomics.toNat + width * rest.length ≤ atomics
  cycle : front.cycle.toNat + (rest.map (·.1.cost)).sum = cycle

variable {rest : List (Instruction × Warp)} {issued atomics cycle : Nat}

theorem sum_cost_product (program : List Instruction) (warps : List Warp) :
    ((program ×ˢ warps).map (·.1.cost)).sum = (program.map Instruction.cost).sum * warps.length := by
  induction program with
  | nil => simp
  | cons inst rest ih =>
    rw [List.product_cons, List.map_append, List.sum_append, ih, List.map_cons, List.sum_cons,
      Nat.add_mul, List.map_map]
    simp [Function.comp_def, Nat.mul_comm]

theorem outlook_first (program : List Instruction) (hidle : front.slot.Idle width)
    (hshort : ∀ warp ∈ warps, warp.threads.length ≤ width) :
    Outlook width (program ×ˢ warps) front
      (front.issued.toNat + program.length * warps.length)
      (front.atomics.toNat + width * (program.length * warps.length))
      (front.cycle.toNat + (program.map Instruction.cost).sum * warps.length) := by
  refine ⟨hidle, fun t ht => hshort t.2 (List.mem_product.mp ht).2, ?_, ?_, ?_⟩
  · rw [List.length_product]
  · rw [List.length_product]
  · rw [sum_cost_product]

theorem Outlook.step (hc : hook.Confined width) (hw : width ≤ maxWarpSize)
    {t : Instruction × Warp} (ho : Outlook width (t :: rest) front issued atomics cycle)
    (h : issue hook folder cta t.1 t.2 front = .ok next) :
    Outlook width rest next issued atomics cycle := by
  obtain ⟨slot, edited, host, h⟩ := issue_cases h
  obtain ⟨_, _, hidle, hdue⟩ :=
    h.keeps_idle hc hw ho.idle (ho.short t List.mem_cons_self)
  have hi := ho.issued
  have ha := ho.atomics
  have hy := ho.cycle
  have hadd := Word.add64_eq_ok.mp h.atomics
  have hdue' : (UInt64.ofNat edited.due.length).toNat = edited.due.length :=
    UInt64.toNat_ofNat_of_lt' (by unfold maxWarpSize at hw; simp only [UInt64.size]; omega)
  rw [List.length_cons] at hi ha
  rw [List.map_cons, List.sum_cons] at hy
  rw [Nat.mul_add, Nat.mul_one] at ha
  refine ⟨hidle, fun u hu => ho.short u (List.mem_cons_of_mem t hu), ?_, ?_, ?_⟩
  · rw [h.issued]
    omega
  · rw [hadd, hdue']
    omega
  · rw [h.cycle]
    omega

/-- The end of a schedule is as it was foretold. -/
theorem Outlook.issueAll (hc : hook.Confined width) (hw : width ≤ maxWarpSize)
    (ho : Outlook width (program ×ˢ warps) front issued atomics cycle)
    (h : issueAll hook folder cta warps program front = .ok next) :
    Outlook width [] next issued atomics cycle := by
  rw [issueAll_eq_foldlM] at h
  exact Outcome.foldlM_keeps (P := fun rest front => Outlook width rest front issued atomics cycle)
    (fun t rest b c hb hstep => hb.step hc hw hstep) ho h

/-- What each issue of a block keeps, the block keeps. -/
theorem issueAll_keeps {P : Front σ α → Prop} (hc : hook.Confined width) (hw : width ≤ maxWarpSize)
    (step : ∀ (inst : Instruction) (warp : Warp) (front next : Front σ α) (slot edited : Slot α)
      (host : σ), Issue hook folder cta inst warp front next slot edited host →
      front.slot.Idle width → warp.threads.length ≤ width → P front → P next)
    (ho : Outlook width (program ×ˢ warps) front issued atomics cycle) (hp : P front)
    (h : issueAll hook folder cta warps program front = .ok next) :
    Outlook width [] next issued atomics cycle ∧ P next := by
  rw [issueAll_eq_foldlM] at h
  refine Outcome.foldlM_keeps (P := fun rest front =>
    Outlook width rest front issued atomics cycle ∧ P front) ?_ ⟨ho, hp⟩ h
  rintro t rest b c ⟨hb, hbefore⟩ hstep
  obtain ⟨slot, edited, host, hissue⟩ := issue_cases hstep
  exact ⟨hb.step hc hw hstep,
    step t.1 t.2 b c slot edited host hissue hb.idle (hb.short t List.mem_cons_self) hbefore⟩

/-- A schedule goes through where its warps can take their turns and the counters have room. -/
theorem issueAll_ok (hc : hook.Confined width) (hw : width ≤ maxWarpSize)
    (ho : Outlook width (program ×ˢ warps) front issued atomics cycle)
    (hs : ∀ warp ∈ warps, front.sm.Serves cta.index warp.id)
    (hr : front.sm.released.toNat + (program ×ˢ warps).length < UInt64.size)
    (hi : issued < UInt64.size) (ha : atomics < UInt64.size) (hy : cycle < UInt64.size) :
    ∃ next, issueAll hook folder cta warps program front = .ok next := by
  rw [issueAll_eq_foldlM]
  refine (Outcome.foldlM_ok (P := fun rest front =>
    Outlook width rest front issued atomics cycle ∧
    (∀ t ∈ rest, front.sm.Serves cta.index t.2.id) ∧
    front.sm.released.toNat + rest.length < UInt64.size) ?_ ⟨ho, ?_, hr⟩).imp fun _ h => h.1
  · rintro t rest b ⟨hb, hserve, hroom⟩
    obtain ⟨r, hf, hcta, hp⟩ := hserve t List.mem_cons_self
    have hbi := hb.issued
    have hba := hb.atomics
    have hby := hb.cycle
    rw [List.length_cons] at hbi hba hroom
    rw [List.map_cons, List.sum_cons] at hby
    rw [Nat.mul_add, Nat.mul_one] at hba
    obtain ⟨c, hstep⟩ := issue_ok folder hc hw hb.idle (hb.short t List.mem_cons_self)
      hf hcta hp (by omega) (by omega) (by omega) (show b.cycle.toNat + t.1.cost < _ by omega)
    obtain ⟨slot, edited, host, hissue⟩ := issue_cases hstep
    refine ⟨c, hstep, hb.step hc hw hstep, ?_, ?_⟩
    · intro u hu
      exact meet_serves hissue.met (hserve u (List.mem_cons_of_mem t hu))
    · have := meet_released_le hissue.met
      omega
  · intro t ht
    exact hs t.2 (List.mem_product.mp ht).2

/-! ## The calls of the hook -/

/-- The call shows the hook an instruction of the program for a warp of the block. -/
structure Shows (cta : Cta) (call : HookCall α) (t : Instruction × Warp) : Prop where
  inst : call.slot.inst = t.1
  lanes : call.slot.active.lanes = List.range t.2.threads.length
  context : ∃ cycle, call.context = context cta t.2 cycle

/-- An issue adds one call to the log, with the slot as the hook got it, and then what it
delivers. -/
theorem Issue.log {front next : Front (σ × List (HookEvent α)) α} {slot edited : Slot α}
    {host : σ × List (HookEvent α)}
    (h : Issue hook.logged folder cta inst warp front next slot edited host) :
    next.host.2 = front.host.2 ++ .called ⟨folder, slot, context cta warp front.cycle⟩ ::
      edited.due.map (.delivered · edited.inst) := by
  rw [h.host, Hook.logged_foldl, Hook.logged_issue h.called, List.append_assoc,
    List.singleton_append]

theorem Issue.calls {front next : Front (σ × List (HookEvent α)) α} {slot edited : Slot α}
    {host : σ × List (HookEvent α)}
    (h : Issue hook.logged folder cta inst warp front next slot edited host) :
    HookEvent.calls next.host.2 =
      HookEvent.calls front.host.2 ++ [⟨folder, slot, context cta warp front.cycle⟩] := by
  rw [h.log, HookEvent.calls_append, HookEvent.calls_issue]

/-- The hook is called once for each pair of the schedule, in order. -/
theorem issueAll_calls {front next : Front (σ × List (HookEvent α)) α}
    (hc : hook.Confined width) (hw : width ≤ maxWarpSize)
    (ho : Outlook width (program ×ˢ warps) front issued atomics cycle)
    (h : issueAll hook.logged folder cta warps program front = .ok next) :
    ∃ calls, HookEvent.calls next.host.2 = HookEvent.calls front.host.2 ++ calls ∧
      List.Forall₂ (Shows cta) calls (program ×ˢ warps) := by
  rw [issueAll_eq_foldlM] at h
  refine Outcome.foldlM_emits (e := fun front => HookEvent.calls front.host.2)
    (P := fun rest front => Outlook width rest front issued atomics cycle) ?_ ho h
  intro t rest b c hb hstep
  obtain ⟨slot, edited, host, hissue⟩ := issue_cases hstep
  obtain ⟨hinst, hlanes, _⟩ :=
    hissue.keeps_idle hc.logged hw hb.idle (hb.short t List.mem_cons_self)
  exact ⟨hb.step hc.logged hw hstep, ⟨folder, slot, context cta t.2 b.cycle⟩, hissue.calls, hinst,
    hlanes, b.cycle, rfl⟩

/-! ## The barriers of the block -/

/-- Whatever is resident, an SM releases at most one barrier for each issue. -/
theorem issueAll_released_le (h : issueAll hook folder cta warps program front = .ok next) :
    next.sm.released.toNat ≤ front.sm.released.toNat + program.length * warps.length ∧
      next.sm.config = front.sm.config := by
  rw [issueAll_eq_foldlM] at h
  rw [← List.length_product]
  refine Outcome.foldlM_keeps
    (P := fun rest (mid : Front σ α) => mid.sm.released.toNat + rest.length ≤
      front.sm.released.toNat + (program ×ˢ warps).length ∧ mid.sm.config = front.sm.config)
    ?_ ⟨le_rfl, rfl⟩ h
  rintro t rest b c ⟨hle, hconf⟩ hstep
  obtain ⟨slot, edited, host, hissue⟩ := issue_cases hstep
  rw [List.length_cons] at hle
  have hmet := meet_released_le hissue.met
  exact ⟨by omega, (meet_config hissue.met).trans hconf⟩

/-- One warp issues: at a barrier it arrives, and the last warp releases it. -/
theorem issue_hosts {ids : List UInt32} {k : Nat}
    (hh : front.sm.Hosts cta.index ids (if inst.op = .barrier then k else 0))
    (hid : ids[k]? = some warp.id) (h : issue hook folder cta inst warp front = .ok next) :
    next.sm.Hosts cta.index ids (if inst.op = .barrier ∧ k + 1 ≠ ids.length then k + 1 else 0) ∧
      next.sm.released.toNat = front.sm.released.toNat +
        (if inst.op = .barrier ∧ k + 1 = ids.length then 1 else 0) ∧
      next.sm.config = front.sm.config := by
  obtain ⟨slot, edited, host, hissue⟩ := issue_cases h
  rcases meet_cases hissue.met with ⟨hop, harrive⟩ | ⟨hop, hsame⟩
  · rw [if_pos hop] at hh
    obtain ⟨hhost, hcount, hconf⟩ := hh.arrive hid harrive
    refine ⟨?_, ?_, hconf⟩
    · simpa only [hop, true_and, ne_eq, ite_not] using hhost
    · simpa only [hop, true_and] using hcount
  · rw [if_neg hop] at hh
    rw [hsame]
    simpa [hop] using hh

theorem issueEach_append (ws : List Warp) :
    issueEach hook folder cta (ws ++ [warp]) inst front =
      issueEach hook folder cta ws inst front >>= issue hook folder cta inst warp := by
  simp only [issueEach, List.foldlM_append, List.foldlM_cons, List.foldlM_nil, bind_pure]

/-- While a warp has not issued the instruction, the barrier is not released. -/
theorem issueEach_part {ws rest : List Warp}
    (hh : front.sm.Hosts cta.index ((ws ++ warp :: rest).map Warp.id) 0)
    (h : issueEach hook folder cta ws inst front = .ok next) :
    next.sm.Hosts cta.index ((ws ++ warp :: rest).map Warp.id)
        (if inst.op = .barrier then ws.length else 0) ∧
      next.sm.released.toNat = front.sm.released.toNat ∧
      next.sm.config = front.sm.config := by
  induction ws using List.reverseRecOn generalizing warp rest next with
  | nil =>
    cases h
    exact ⟨by simpa using hh, rfl, rfl⟩
  | append_singleton ws w ih =>
    rw [issueEach_append] at h
    obtain ⟨mid, hmid, h⟩ := Outcome.bind_eq_ok.mp h
    rw [List.append_assoc, List.singleton_append] at hh ⊢
    obtain ⟨hm, hcount, hconf⟩ := ih hh hmid
    obtain ⟨hn, hcount', hconf'⟩ := issue_hosts hm (by simp) h
    have hlt : ws.length + 1 ≠ ((ws ++ w :: warp :: rest).map Warp.id).length := by
      simp
    simp only [hlt, ne_eq, not_false_eq_true, and_true, and_false, if_false, Nat.add_zero]
      at hn hcount'
    refine ⟨by simpa using hn, hcount'.trans hcount, hconf'.trans hconf⟩

/-- One instruction is issued for every warp: a barrier is released once. -/
theorem issueEach_hosts (hh : front.sm.Hosts cta.index (warps.map Warp.id) 0)
    (h : issueEach hook folder cta warps inst front = .ok next) :
    next.sm.Hosts cta.index (warps.map Warp.id) 0 ∧
      next.sm.released.toNat = front.sm.released.toNat +
        (if inst.op = .barrier ∧ warps ≠ [] then 1 else 0) ∧
      next.sm.config = front.sm.config := by
  rcases List.eq_nil_or_concat' warps with rfl | ⟨ws, w, rfl⟩
  · cases h
    exact ⟨hh, by simp, rfl⟩
  · rw [issueEach_append] at h
    obtain ⟨mid, hmid, h⟩ := Outcome.bind_eq_ok.mp h
    obtain ⟨hm, hcount, hconf⟩ := issueEach_part hh hmid
    obtain ⟨hn, hcount', hconf'⟩ := issue_hosts hm (by simp) h
    refine ⟨by simpa using hn, ?_, hconf'.trans hconf⟩
    rw [hcount', hcount]
    simp

/-- The whole program is issued: as many releases as it has barriers. -/
theorem issueAll_hosts (hh : front.sm.Hosts cta.index (warps.map Warp.id) 0)
    (h : issueAll hook folder cta warps program front = .ok next) :
    next.sm.Hosts cta.index (warps.map Warp.id) 0 ∧
      next.sm.released.toNat = front.sm.released.toNat +
        (if warps = [] then 0 else program.countP (·.op = .barrier)) ∧
      next.sm.config = front.sm.config := by
  induction program generalizing front with
  | nil =>
    cases h
    exact ⟨hh, by simp, rfl⟩
  | cons inst rest ih =>
    rw [issueAll, List.foldlM_cons] at h
    obtain ⟨mid, hmid, h⟩ := Outcome.bind_eq_ok.mp h
    obtain ⟨hm, hcount, hconf⟩ := issueEach_hosts hh hmid
    obtain ⟨hn, hcount', hconf'⟩ := ih hm h
    refine ⟨hn, ?_, hconf'.trans hconf⟩
    rw [hcount', hcount, List.countP_cons]
    by_cases hnil : warps = []
    · simp [hnil]
    · by_cases hop : inst.op = .barrier
      · simp only [hop, hnil, ne_eq, not_false_eq_true, and_self, if_true, if_false, decide_true]
        omega
      · simp [hnil, hop]

end Simt.Launch
