-- The counts of a launch, and launches with room for them. What the counts come to is told
-- through the blocks that are left. On a calm device a launch goes through as long as what
-- the counts come to fits into their words.
import Simt.Proofs.Launch.Barriers

namespace Simt.Launch

variable {σ α : Type} {plan : LaunchPlan σ α} {warpsPerCta : UInt32} {device : Device}
  {kernel : Kernel} {first state next : State σ α} {opening : Opening} {s m n : Nat}

/-! ## The work that is left -/

/-- The warps of the blocks from `n` on. -/
def warpsLeft (device : Device) (kernel : Kernel) (s m n : Nat) : Nat :=
  ((List.range' n (kernel.grid.volume - n)).map fun f =>
    (share kernel.block device.warpSize (handedOut s m f)).length).sum

/-- The threads of the blocks from `n` on. -/
def threadsLeft (kernel : Kernel) (s m n : Nat) : Nat :=
  ((List.range' n (kernel.grid.volume - n)).map fun f =>
    kernel.block.volume - handedOut s m f).sum

theorem warpsLeft_succ (h : n < kernel.grid.volume) :
    warpsLeft device kernel s m n =
      (share kernel.block device.warpSize (handedOut s m n)).length +
        warpsLeft device kernel s m (n + 1) := by
  have hsucc : kernel.grid.volume - n = kernel.grid.volume - (n + 1) + 1 := by omega
  rw [warpsLeft, hsucc, List.range'_succ, List.map_cons, List.sum_cons, warpsLeft]

theorem threadsLeft_succ (h : n < kernel.grid.volume) :
    threadsLeft kernel s m n =
      kernel.block.volume - handedOut s m n + threadsLeft kernel s m (n + 1) := by
  have hsucc : kernel.grid.volume - n = kernel.grid.volume - (n + 1) + 1 := by omega
  rw [threadsLeft, hsucc, List.range'_succ, List.map_cons, List.sum_cons, threadsLeft]

/-- A sum over the blocks from the first one on. Only the first one was begun before. -/
theorem sum_handedOut (count : Nat → Nat) {blocks : Nat} (h : s < blocks) :
    ((List.range' s (blocks - s)).map fun f => count (handedOut s m f)).sum =
      count m + (blocks - (s + 1)) * count 0 := by
  have hsucc : blocks - s = blocks - (s + 1) + 1 := by omega
  have hrest : (List.range' (s + 1) (blocks - (s + 1))).map (fun f => count (handedOut s m f)) =
      List.replicate (blocks - (s + 1)) (count 0) := by
    rw [List.eq_replicate_iff]
    refine ⟨by simp, fun c hc => ?_⟩
    obtain ⟨f, hf, rfl⟩ := List.mem_map.mp hc
    have hle := (List.mem_range'_1.mp hf).1
    rw [handedOut, if_neg (by omega)]
  rw [hsucc, List.range'_succ, List.map_cons, List.sum_cons, hrest, List.sum_replicate, smul_eq_mul,
    handedOut, if_pos rfl]

theorem warpsLeft_first (hd : device.Sound) (h : s < kernel.grid.volume) :
    warpsLeft device kernel s m s =
      warpsNeeded (kernel.block.volume - m) device.warpSize +
        (kernel.grid.volume - (s + 1)) * warpsNeeded kernel.block.volume device.warpSize := by
  rw [warpsLeft, sum_handedOut (fun m => (share kernel.block device.warpSize m).length) h,
    length_share _ hd.warpSize_pos, length_share _ hd.warpSize_pos, Nat.sub_zero]

theorem threadsLeft_first (h : s < kernel.grid.volume) :
    threadsLeft kernel s m s =
      kernel.block.volume - m + (kernel.grid.volume - (s + 1)) * kernel.block.volume := by
  rw [threadsLeft, sum_handedOut (fun m => kernel.block.volume - m) h, Nat.sub_zero]

/-- The work of the blocks that are left of a launch which began with a whole block. -/
theorem warpsLeft_zero (hd : device.Sound) (s n : Nat) :
    warpsLeft device kernel s 0 n =
      (kernel.grid.volume - n) * warpsNeeded kernel.block.volume device.warpSize := by
  simp [warpsLeft, length_share _ hd.warpSize_pos]

theorem threadsLeft_zero (kernel : Kernel) (s n : Nat) :
    threadsLeft kernel s 0 n = (kernel.grid.volume - n) * kernel.block.volume := by
  simp [threadsLeft]

/-- The barriers that an SM has released, and the instructions that are left to issue, are
no more than the instructions of the whole launch. -/
theorem releases_le (program : List Instruction) (h : s ≤ n) (hn : n ≤ kernel.grid.volume)
    (sm : Nat) :
    program.countP (·.op = .barrier) * blocksOn device kernel s m n sm +
        program.length * warpsLeft device kernel s m n ≤
      program.length * warpsLeft device kernel s m s := by
  induction n, h using Nat.le_induction with
  | base => simp [blocksOn]
  | succ n h ih =>
    have hprev := ih (by omega)
    rw [warpsLeft_succ (by omega), Nat.mul_add] at hprev
    rw [blocksOn_succ device kernel m sm h, Nat.mul_add]
    have hblock : program.countP (·.op = .barrier) *
        (if sm = (ctaAt device kernel n).sm ∧
          share kernel.block device.warpSize (handedOut s m n) ≠ [] then 1 else 0) ≤
        program.length * (share kernel.block device.warpSize (handedOut s m n)).length := by
      refine Nat.mul_le_mul List.countP_le_length ?_
      split
      · rename_i hwarps
        exact List.length_pos_iff.mpr hwarps.2
      · exact Nat.zero_le _
    omega

/-! ## What the counts come to -/

/-- The counts of a whole launch. -/
structure Totals where
  blocks : Nat
  warps : Nat
  threads : Nat
  issued : Nat
  /-- A bound, since the hook decides what it parks. -/
  atomics : Nat
  cycles : Nat

/-- What the counts come to when the blocks from `n` on are executed. -/
structure Forecast (program : List Instruction) (first : State σ α) (s m n : Nat) (total : Totals)
    (state : State σ α) : Prop where
  idle : state.slot.Idle first.device.warpSize
  blocks : state.stats.blocks.toNat + (first.kernel.grid.volume - n) = total.blocks
  warps : state.stats.warps.toNat + warpsLeft first.device first.kernel s m n = total.warps
  threads : state.stats.threads.toNat + threadsLeft first.kernel s m n = total.threads
  issued : state.stats.issued.toNat +
    program.length * warpsLeft first.device first.kernel s m n = total.issued
  atomics : state.stats.atomics.toNat + first.device.warpSize *
    (program.length * warpsLeft first.device first.kernel s m n) ≤ total.atomics
  cycles : state.stats.cycles.toNat +
    (program.map Instruction.cost).sum * warpsLeft first.device first.kernel s m n = total.cycles
  placed : state.blocksBySm.length = first.device.sms.length
  counted : ∀ count ∈ state.blocksBySm, count.toNat ≤ state.stats.blocks.toNat

/-- What the counts come to at the end of the next block. -/
theorem Forecast.outlook {total : Totals} {program : List Instruction}
    (hf : Forecast program first s m n total state) (h : Stands first s m n state)
    (hd : first.device.Sound) (hm : m < first.kernel.block.reach)
    (hn : n < first.kernel.grid.volume) (hopen : openCta warpsPerCta state = .ok opening)
    (htaken : opening.admission.refused = false) :
    Outlook first.device.warpSize (program ×ˢ opening.admission.taken) (opening.front state)
      (state.stats.issued.toNat + program.length *
        (share first.kernel.block first.device.warpSize (handedOut s m n)).length)
      (state.stats.atomics.toNat + first.device.warpSize * (program.length *
        (share first.kernel.block first.device.warpSize (handedOut s m n)).length))
      (state.stats.cycles.toNat + (program.map Instruction.cost).sum *
        (share first.kernel.block first.device.warpSize (handedOut s m n)).length) := by
  have hidle : (opening.front state).slot.Idle first.device.warpSize := hf.idle
  have hlook := outlook_first program hidle (h.short hd hm hn hopen htaken)
  rwa [h.length_taken hm hn hopen htaken] at hlook

theorem Forecast.advance {total : Totals} (hf : Forecast plan.program first s m n total state)
    (hc : plan.hook.Confined first.device.warpSize) (h : Stands first s m n state)
    (hd : first.device.Sound) (hm : m < first.kernel.block.reach)
    (hn : n < first.kernel.grid.volume)
    (hdone : executeCta plan warpsPerCta state = .ok (.done next)) :
    Forecast plan.program first s m (n + 1) total next := by
  obtain ⟨opening, front, hopen, htaken, hissue, hfin⟩ := executeCta_done hdone
  obtain ⟨hidle, _, hissued, hatomics, hcycle⟩ :=
    (hf.outlook h hd hm hn hopen htaken).issueAll hc hd.warpSize_le hissue
  rw [List.length_nil, Nat.add_zero] at hissued
  rw [List.length_nil, Nat.mul_zero, Nat.add_zero] at hatomics
  rw [List.map_nil, List.sum_nil, Nat.add_zero] at hcycle
  have hstats := hfin.stats
  rw [(h.opens hm hn hopen).2.1] at hstats
  obtain ⟨hblocks, hwarps, hthreads, hi, ha, hy⟩ :=
    addBlock_cases hd.warpSize_pos hd.warpSize_le hstats
  obtain ⟨count, more, hcount, hmore, hcounts⟩ := countBlock_cases hfin.counts
  have fblocks := hf.blocks
  have fwarps := hf.warps
  have fthreads := hf.threads
  have fissued := hf.issued
  have fatomics := hf.atomics
  have fcycles := hf.cycles
  rw [warpsLeft_succ hn] at fwarps
  rw [warpsLeft_succ hn, Nat.mul_add] at fissued fcycles
  rw [warpsLeft_succ hn, Nat.mul_add, Nat.mul_add] at fatomics
  rw [threadsLeft_succ hn] at fthreads
  simp only at hblocks hwarps hthreads
  refine ⟨by rw [hfin.slot]; exact hidle, by omega, by omega, by omega, ?_, ?_, ?_, ?_, ?_⟩
  · rw [hi]
    simp only
    omega
  · rw [ha]
    simp only
    omega
  · rw [hy]
    simp only
    omega
  · rw [hcounts, List.length_set]
    exact hf.placed
  · intro c hmem
    rw [hcounts] at hmem
    rcases List.mem_or_eq_of_mem_set hmem with hmem | rfl
    · have := hf.counted c hmem
      omega
    · have := hf.counted count (List.mem_of_getElem? hcount)
      omega

/-! ## Launches with room -/

/-- Every count fits into its word. -/
structure Totals.Fit (total : Totals) : Prop where
  blocks : total.blocks < UInt32.size
  warps : total.warps < UInt32.size
  threads : total.threads < UInt32.size
  issued : total.issued < UInt64.size
  atomics : total.atomics < UInt64.size
  cycles : total.cycles < UInt64.size

theorem Stands.openCta_ok (h : Stands first s m n state) (hd : first.device.Sound)
    (hm : m < first.kernel.block.reach) (hn : n < first.kernel.grid.volume)
    (hgrid : first.kernel.grid.volume < UInt64.size)
    (hids : (UInt32.ofNat n).toNat * warpsPerCta.toNat + 0 +
      (share first.kernel.block first.device.warpSize (handedOut s m n)).length ≤ UInt32.size) :
    ∃ opening, openCta warpsPerCta state = .ok opening := by
  have hkernel : state.kernel.grid = first.kernel.grid ∧ state.kernel.block = first.kernel.block := by
    rw [h.kernel]
    exact ⟨rfl, rfl⟩
  have hwidth : state.device.warpSize = first.device.warpSize := by
    rw [Device.warpSize, Device.warpSize, h.config]
  have hlt : (ctaAt state.device state.kernel n).sm < state.device.sms.length :=
    Nat.mod_lt _ (by rw [h.count]; exact hd.sms_pos)
  exact Launch.openCta_ok h.at (by rw [hkernel.1]; exact hn) (h.handed_lt hm) (by omega)
    (List.getElem?_eq_getElem hlt) (by rw [hkernel.2, hwidth]; exact hids)

/-- A block that an SM hosts alone issues the whole program. -/
theorem Forecast.issueAll_ok {total : Totals} (hf : Forecast plan.program first s m n total state)
    (ht : total.Fit) (hc : plan.hook.Confined first.device.warpSize)
    (h : Stands first s m n state) (hd : first.device.Sound) (hm : m < first.kernel.block.reach)
    (hn : n < first.kernel.grid.volume) (hopen : openCta warpsPerCta state = .ok opening)
    (htaken : opening.admission.refused = false)
    (hhost : opening.admission.sm.Hosts opening.cta.index
      (opening.admission.taken.map Warp.id) 0)
    (hroom : opening.admission.sm.released.toNat + plan.program.length *
      (share first.kernel.block first.device.warpSize (handedOut s m n)).length < UInt64.size) :
    ∃ front, issueAll plan.hook state.folder opening.cta opening.admission.taken plan.program
      (opening.front state) = .ok front := by
  have fissued := hf.issued
  have fatomics := hf.atomics
  have fcycles := hf.cycles
  rw [warpsLeft_succ hn, Nat.mul_add] at fissued fcycles
  rw [warpsLeft_succ hn, Nat.mul_add, Nat.mul_add] at fatomics
  refine Launch.issueAll_ok hc hd.warpSize_le (hf.outlook h hd hm hn hopen htaken)
    (fun warp hwarp => hhost.serves (List.mem_map_of_mem hwarp)) ?_ ?_ ?_ ?_
  · rw [List.length_product, h.length_taken hm hn hopen htaken]
    exact hroom
  · have := ht.issued
    omega
  · have := ht.atomics
    omega
  · have := ht.cycles
    omega

/-- A block whose warps can leave gets done, as long as it can be counted. -/
theorem Forecast.finish_ok {total : Totals} {front : Front σ α} {left : Sm}
    (hf : Forecast plan.program first s m n total state) (hblocks : total.blocks < UInt32.size)
    (hwarps : total.warps < UInt32.size) (hthreads : total.threads < UInt32.size)
    (h : Stands first s m n state) (hd : first.device.Sound) (hm : m < first.kernel.block.reach)
    (hn : n < first.kernel.grid.volume) (hgrid : first.kernel.grid.volume < UInt64.size)
    (hopen : openCta warpsPerCta state = .ok opening)
    (hleave : leave opening.admission.taken front.sm = .ok left) :
    ∃ next, finish plan opening front state = .ok next := by
  obtain ⟨_, hshares, hopened, sm, hsm, _⟩ := h.opens hm hn hopen
  have fblocks := hf.blocks
  have fwarps := hf.warps
  have fthreads := hf.threads
  rw [warpsLeft_succ hn] at fwarps
  rw [threadsLeft_succ hn] at fthreads
  obtain ⟨stats, hstats⟩ : ∃ stats, Stats.addBlock { state.stats with
      issued := front.issued, atomics := front.atomics, cycles := front.cycle }
      opening.threads = .ok stats := by
    rw [hshares]
    refine addBlock_ok hd.warpSize_pos hd.warpSize_le ?_ ?_ ?_
    · simp only
      omega
    · simp only
      omega
    · simp only
      omega
  obtain ⟨counts, hcounts⟩ : ∃ counts, countBlock opening.cta.sm state.blocksBySm = .ok counts := by
    refine countBlock_ok ?_ fun count hcount => ?_
    · rw [hf.placed, ← h.count]
      exact (List.getElem?_eq_some_iff.mp hsm).1
    · have := hf.counted count hcount
      omega
  have hat : opening.kernel.At n (max (handedOut s m n) first.kernel.block.volume) := by
    rw [hopened]
    exact ⟨rfl, rfl⟩
  exact Launch.finish_ok plan hleave hstats hcounts (hat.advanced (by rw [hopened]; exact hn))
    (by rw [hopened]; exact hgrid)

/-- On a calm device a block gets done when its warps have places and ids and the counts have
room. -/
theorem executeCta_ok {total : Totals} (hf : Forecast plan.program first s m n total state)
    (ht : total.Fit) (hc : plan.hook.Confined first.device.warpSize)
    (h : Stands first s m n state) (hr : Releases plan first s m n state)
    (hd : first.device.Sound) (hm : m < first.kernel.block.reach)
    (hn : n < first.kernel.grid.volume) (hgrid : first.kernel.grid.volume < UInt64.size)
    (hplaces : (share first.kernel.block first.device.warpSize (handedOut s m n)).length ≤
      first.device.config.maxWarps.toNat)
    (hids : (UInt32.ofNat n).toNat * warpsPerCta.toNat + 0 +
      (share first.kernel.block first.device.warpSize (handedOut s m n)).length ≤ UInt32.size)
    (hroom : ∀ sm ∈ state.device.sms, sm.released.toNat + plan.program.length *
      (share first.kernel.block first.device.warpSize (handedOut s m n)).length < UInt64.size) :
    ∃ next, executeCta plan warpsPerCta state = .ok (.done next) := by
  obtain ⟨opening, hopen⟩ := h.openCta_ok hd hm hn hgrid hids
  have htaken := Calm.takes hr h hm hn hplaces hopen
  obtain ⟨hhost, sm, hsm, hreleased, _⟩ := Calm.hosts hr h hm hn (by omega) hopen
  obtain ⟨front, hissue⟩ := hf.issueAll_ok ht hc h hd hm hn hopen htaken hhost
    (by rw [hreleased]; exact hroom sm (List.mem_of_getElem? hsm))
  obtain ⟨left, hleave, _⟩ := leave_hosts (issueAll_hosts hhost hissue).1
  obtain ⟨next, hfinish⟩ := hf.finish_ok ht.blocks ht.warps ht.threads h hd hm hn hgrid
    hopen hleave
  refine ⟨next, ?_⟩
  rw [executeCta, hopen, Outcome.ok_bind]
  simp only [htaken, hissue, hfinish, Outcome.ok_bind]
  rfl

/-- The counts of a launch that begins at block `s` with `m` threads handed out. -/
def Totals.ofLaunch (program : List Instruction) (device : Device) (kernel : Kernel) (s m : Nat) :
    Totals where
  blocks := kernel.grid.volume - s
  warps := warpsLeft device kernel s m s
  threads := threadsLeft kernel s m s
  issued := program.length * warpsLeft device kernel s m s
  atomics := device.warpSize * (program.length * warpsLeft device kernel s m s)
  cycles := (program.map Instruction.cost).sum * warpsLeft device kernel s m s

/-- What is left of a launch comes to what the whole launch does. -/
abbrev Planned (plan : LaunchPlan σ α) (first : State σ α) (s m n : Nat) (state : State σ α) : Prop :=
  Forecast plan.program first s m n (Totals.ofLaunch plan.program first.device first.kernel s m) state

theorem planned_first (plan : LaunchPlan σ α) (folder : Folder) (host : σ) {slot : Slot α}
    (hidle : slot.Idle device.warpSize) :
    Planned plan (start device kernel folder host slot) s m s
      (start device kernel folder host slot) where
  idle := hidle
  blocks := Nat.zero_add _
  warps := Nat.zero_add _
  threads := Nat.zero_add _
  issued := Nat.zero_add _
  atomics := (Nat.zero_add _).le
  cycles := Nat.zero_add _
  placed := List.length_replicate
  counted count hcount := by
    rw [List.eq_of_mem_replicate hcount]
    exact Nat.zero_le _

theorem length_share_le_needed (hd : device.Sound) (m : Nat) :
    (share kernel.block device.warpSize m).length ≤
      warpsNeeded kernel.block.volume device.warpSize := by
  rw [length_share _ hd.warpSize_pos, warpsNeeded, warpsNeeded]
  exact Nat.div_le_div_right (by omega)

/-- The warps that are left are no more than there are threads in the grid, and neither are
the threads. -/
theorem left_le (hd : device.Sound) :
    warpsLeft device kernel s m s ≤ kernel.grid.volume * kernel.block.volume ∧
      threadsLeft kernel s m s ≤ kernel.grid.volume * kernel.block.volume := by
  have hblocks := Nat.mul_le_mul_right kernel.block.volume (Nat.sub_le kernel.grid.volume s)
  constructor
  · refine le_trans (List.sum_le_card_nsmul _ kernel.block.volume ?_) (by simpa using hblocks)
    intro warps hwarps
    obtain ⟨f, _, rfl⟩ := List.mem_map.mp hwarps
    exact (length_share_le _ hd.warpSize_pos _).trans (Nat.sub_le _ _)
  · refine le_trans (List.sum_le_card_nsmul _ kernel.block.volume ?_) (by simpa using hblocks)
    intro threads hthreads
    obtain ⟨f, _, rfl⟩ := List.mem_map.mp hthreads
    exact Nat.sub_le _ _

/-- The counts fit when the threads of the whole grid, the issues and the cycles do. -/
theorem Totals.ofLaunch_fit {program : List Instruction} (hd : device.Sound)
    (hgrid : kernel.grid.volume < UInt32.size)
    (hthreads : kernel.grid.volume * kernel.block.volume < UInt32.size)
    (hissues : 32 * (program.length * warpsLeft device kernel s m s) < UInt64.size)
    (hcycles : (program.map Instruction.cost).sum * warpsLeft device kernel s m s < UInt64.size) :
    (Totals.ofLaunch program device kernel s m).Fit where
  blocks := (Nat.sub_le _ _).trans_lt hgrid
  warps := (left_le hd).1.trans_lt hthreads
  threads := (left_le hd).2.trans_lt hthreads
  issued := (Nat.le_mul_of_pos_left _ (by decide)).trans_lt hissues
  atomics := (Nat.mul_le_mul_right _ hd.warpSize_le).trans_lt hissues
  cycles := hcycles

/-- Each issue delivers at most as many pieces of work as the device has lanes. -/
theorem Forecast.atomics_le (hf : Planned plan first s m n state) :
    state.stats.atomics.toNat ≤ first.device.warpSize * state.stats.issued.toNat := by
  have hissued := hf.issued
  have hatomics := hf.atomics
  simp only [Totals.ofLaunch] at hissued hatomics
  rw [← hissued, Nat.mul_add] at hatomics
  omega

/-- The warps that were counted, and those of the next block, are fewer than there are ids. -/
theorem Forecast.warps_lt (hf : Planned plan first s m n state) (hd : first.device.Sound)
    (hn : n < first.kernel.grid.volume)
    (hthreads : first.kernel.grid.volume * first.kernel.block.volume < UInt32.size) :
    state.stats.warps.toNat +
      (share first.kernel.block first.device.warpSize (handedOut s m n)).length < UInt32.size := by
  have hwarps := hf.warps
  have hleft := (@left_le first.device first.kernel s m hd).1
  rw [warpsLeft_succ hn] at hwarps
  simp only [Totals.ofLaunch] at hwarps
  omega

/-- The ids of the warps of a block are words, when those of all blocks are. -/
theorem ids_le (hd : device.Sound) (hn : n < kernel.grid.volume)
    (hgrid : kernel.grid.volume < UInt32.size)
    (hids : kernel.grid.volume * warpsNeeded kernel.block.volume device.warpSize ≤ UInt32.size) :
    (UInt32.ofNat n).toNat *
        (UInt32.ofNat (warpsNeeded kernel.block.volume device.warpSize)).toNat + 0 +
      (share kernel.block device.warpSize (handedOut s m n)).length ≤ UInt32.size := by
  have hnum : (UInt32.ofNat n).toNat = n := UInt32.toNat_ofNat_of_lt' (by omega)
  have hwpc : (UInt32.ofNat (warpsNeeded kernel.block.volume device.warpSize)).toNat ≤
      warpsNeeded kernel.block.volume device.warpSize := Nat.mod_le _ _
  rw [hnum]
  calc n * (UInt32.ofNat (warpsNeeded kernel.block.volume device.warpSize)).toNat + 0 +
        (share kernel.block device.warpSize (handedOut s m n)).length
      ≤ (n + 1) * warpsNeeded kernel.block.volume device.warpSize := by
        rw [Nat.succ_mul]
        exact Nat.add_le_add (Nat.mul_le_mul_left n hwpc) (length_share_le_needed hd _)
    _ ≤ kernel.grid.volume * warpsNeeded kernel.block.volume device.warpSize :=
        Nat.mul_le_mul_right _ hn
    _ ≤ UInt32.size := hids

/-- An SM with room for the instructions of the launch has room for those of a block. -/
theorem Releases.room (hr : Releases plan first s m n state) (h : Stands first s m n state)
    (hn : n < first.kernel.grid.volume)
    (hroom : ∀ sm ∈ first.device.sms, sm.released.toNat +
      plan.program.length * warpsLeft first.device first.kernel s m s < UInt64.size) :
    ∀ sm ∈ state.device.sms, sm.released.toNat + plan.program.length *
      (share first.kernel.block first.device.warpSize (handedOut s m n)).length < UInt64.size := by
  intro sm hsm
  obtain ⟨i, hi⟩ := List.getElem?_of_mem hsm
  obtain ⟨sm₀, hsm₀, hgain⟩ := Calm.released hr i sm hi
  have hmax := hroom sm₀ (List.mem_of_getElem? hsm₀)
  have hle := @releases_le first.device first.kernel s m n plan.program h.le hn.le i
  rw [warpsLeft_succ hn, Nat.mul_add] at hle
  omega

/-- What a launch on a calm device reports, where it goes through. -/
theorem launch_stats {folder : Folder} {host : σ} {report : LaunchReport σ}
    (hc : plan.hook.Confined device.warpSize) (hd : device.Sound)
    (hq : ∀ sm ∈ device.sms, sm.liveWarps = 0) (hbound : kernel.bound = true)
    (hat : kernel.At s m) (hs : s < kernel.grid.reach) (hm : m < kernel.block.reach)
    (hfits : warpsNeeded kernel.block.volume device.warpSize ≤ device.config.maxWarps.toNat)
    (h : launch plan device kernel folder host = .ok report) :
    ∃ stats, report.result = .ok stats ∧
      stats.blocks.toNat = kernel.grid.volume - s ∧
      stats.warps.toNat = warpsLeft device kernel s m s ∧
      stats.threads.toNat = threadsLeft kernel s m s ∧
      stats.issued.toNat = plan.program.length * warpsLeft device kernel s m s ∧
      stats.cycles.toNat =
        (plan.program.map Instruction.cost).sum * warpsLeft device kernel s m s := by
  rcases launch_cases hbound h with ⟨hlarge, _⟩ | ⟨warpsPerCta, first, last, hbegins, hrun, rfl⟩
  · omega
  · have hidle := hbegins.idle hd
    obtain ⟨slot, _, rfl⟩ := hbegins.start
    obtain ⟨n, final, hstands, _, ⟨hf, hr⟩, hlast⟩ := run_stands (Q := fun n state =>
      Planned plan (start device kernel folder host slot) s m n state ∧
      Releases plan (start device kernel folder host slot) s m n state) hat
      hs hm
      ⟨planned_first plan folder host hidle, releases_first hd hq⟩
      (fun n state next hst hn hq hdone => ⟨hq.1.advance hc hst hd hm hn hdone,
        hq.2.advance hst hd hm hn hdone⟩) hrun
    rcases hlast with ⟨rfl, hend⟩ | ⟨warps, refused, rfl, hn, hrefused⟩
    · have hover : kernel.grid.volume - n = 0 := Nat.sub_eq_zero_of_le (hend (Nat.le_add_left _ _)).1
      have hwarps : warpsLeft device kernel s m n = 0 := by simp [warpsLeft, hover]
      have hthreads : threadsLeft kernel s m n = 0 := by simp [threadsLeft, hover]
      have fblocks := hf.blocks
      have fwarps := hf.warps
      have fthreads := hf.threads
      have fissued := hf.issued
      have fcycles := hf.cycles
      simp only [start, hwarps, hthreads, hover, Nat.mul_zero, Nat.add_zero]
        at fblocks fwarps fthreads fissued fcycles
      exact ⟨final.stats, rfl, fblocks, fwarps, fthreads, fissued, fcycles⟩
    · obtain ⟨opening, _, hopen, href, _⟩ := executeCta_refused hrefused
      have htaken := Calm.takes hr hstands hm hn
        ((length_share_le_needed hd _).trans hfits) hopen
      rw [href] at htaken
      cases htaken

/-- A launch on a calm device goes through when its blocks fit, its warps have ids, and its
counts have room. -/
theorem launch_ok {folder : Folder} {host : σ} (hc : plan.hook.Confined device.warpSize)
    (hd : device.Sound) (hq : ∀ sm ∈ device.sms, sm.liveWarps = 0) (hbound : kernel.bound = true)
    (hat : kernel.At s m) (hs : s < kernel.grid.reach) (hm : m < kernel.block.reach)
    (hsize : kernel.block.volume < UInt64.size) (hgrid : kernel.grid.volume < UInt32.size)
    (hfits : warpsNeeded kernel.block.volume device.warpSize ≤ device.config.maxWarps.toNat)
    (hids : kernel.grid.volume * warpsNeeded kernel.block.volume device.warpSize ≤ UInt32.size)
    (ht : (Totals.ofLaunch plan.program device kernel s m).Fit)
    (hroom : ∀ sm ∈ device.sms, sm.released.toNat +
      plan.program.length * warpsLeft device kernel s m s < UInt64.size) :
    ∃ report stats, launch plan device kernel folder host = .ok report ∧
      report.result = .ok stats := by
  obtain ⟨first, hbegins⟩ := begins_ok (α := α) folder host hd hbound hsize hfits
  have hidle := hbegins.idle hd
  obtain ⟨last, hrun⟩ : ∃ last, run plan
      (UInt32.ofNat (warpsNeeded kernel.block.volume device.warpSize)) kernel.grid.volume first =
        .ok last := by
    obtain ⟨slot, _, rfl⟩ := hbegins.start
    refine run_stands_ok (Q := fun n state =>
      Planned plan (start device kernel folder host slot) s m n state ∧
      Releases plan (start device kernel folder host slot) s m n state) hat hs hm
      ⟨planned_first plan folder host hidle, releases_first hd hq⟩ ?_
    rintro n state hstands hn ⟨hf, hr⟩
    have hn : n < kernel.grid.volume := hn
    have hlen := (@length_share_le_needed device kernel hd (handedOut s m n)).trans hfits
    obtain ⟨next, hdone⟩ := executeCta_ok hf ht hc hstands hr hd hm hn (hgrid.trans (by decide))
      hlen (ids_le hd hn hgrid hids) (hr.room hstands hn hroom)
    refine ⟨.done next, hdone, ?_⟩
    rintro _ ⟨⟩
    exact ⟨hf.advance hc hstands hd hm hn hdone, hr.advance hstands hd hm hn hdone⟩
  have hlaunch := hbegins.launch hrun
  obtain ⟨stats, hok, _⟩ := launch_stats hc hd hq hbound hat hs hm hfits hlaunch
  exact ⟨_, stats, hlaunch, hok⟩

end Simt.Launch
