-- The snapshots of a launch. After every block the file at the path tells how far the launch
-- has come, and it stays as it is while the hook is called for the next block. The calls and
-- the deliveries that it counts are those that stand in the log at that time.
import Simt.Proofs.Launch.Coverage
import Simt.Proofs.Launch.Delivery
import Simt.Proofs.Launch.Rejection
import Simt.Proofs.Snapshot.File

namespace Simt

/-- The snapshot of a launch that began with block `s` and has executed `k` blocks, with as many
deliveries as the hook has asked for. -/
structure Snapshot.Tells (snapshot : Snapshot) (program : List Instruction) (device : Device)
    (kernel : Kernel) (s k delivered : Nat) : Prop where
  status : snapshot.status = if s + k = kernel.grid.volume then "complete" else "running"
  kernelName : snapshot.kernelName = kernel.name
  grid : snapshot.grid = kernel.grid
  block : snapshot.block = kernel.block
  warpSize : snapshot.warpSize.toNat = device.warpSize
  blocksTotal : snapshot.blocksTotal.toNat = kernel.grid.volume
  blocks : snapshot.blocks.toNat = k
  warps : snapshot.warps.toNat = k * warpsNeeded kernel.block.volume device.warpSize
  threads : snapshot.threads.toNat = k * kernel.block.volume
  issued : snapshot.issued.toNat =
    k * warpsNeeded kernel.block.volume device.warpSize * program.length
  atomics : snapshot.atomics.toNat = delivered
  /-- An SM has executed the blocks whose numbers select it. -/
  blocksBySm : snapshot.blocksBySm.map UInt32.toNat = (List.range device.sms.length).map fun sm =>
    (List.range' s k).countP (· % device.sms.length = sm)

namespace Launch

variable {σ α : Type} {warpsPerCta : UInt32} {sink : SnapshotSink} {s n : Nat}

/-! ## The snapshot of a block -/

section Snapshots

variable {plan : LaunchPlan σ α} {first state next : State σ α}

/-- A block that is done leaves its snapshot in the folder. -/
theorem executeCta_records (hsink : plan.sink = some sink)
    (h : executeCta plan warpsPerCta state = .ok (.done next)) :
    ∃ taken, snapshot sink next = .ok taken ∧ next.folder = taken.save state.folder sink.path := by
  obtain ⟨opening, _, h⟩ := Outcome.bind_eq_ok.mp h
  split at h
  · obtain ⟨_, _, h⟩ := Outcome.bind_eq_ok.mp h
    cases h
  · obtain ⟨front, _, h⟩ := Outcome.bind_eq_ok.mp h
    obtain ⟨last, hfinish, h⟩ := Outcome.bind_eq_ok.mp h
    cases h
    obtain ⟨sm, _, h⟩ := Outcome.bind_eq_ok.mp hfinish
    obtain ⟨stats, _, h⟩ := Outcome.bind_eq_ok.mp h
    obtain ⟨counts, _, h⟩ := Outcome.bind_eq_ok.mp h
    obtain ⟨kernel, _, h⟩ := Outcome.bind_eq_ok.mp h
    simp only [record, hsink] at h
    obtain ⟨taken, htaken, h⟩ := Outcome.bind_eq_ok.mp h
    cases h
    exact ⟨taken, htaken, rfl⟩

/-- How many of the blocks from `s` on, and before `n`, come to an SM by their numbers. -/
def turnsOf (sms s n sm : Nat) : Nat := (List.range' s (n - s)).countP (· % sms = sm)

theorem turnsOf_succ (sms sm : Nat) (h : s ≤ n) :
    turnsOf sms s (n + 1) sm = turnsOf sms s n sm + if n % sms = sm then 1 else 0 := by
  rw [turnsOf, turnsOf, range'_snoc h, List.countP_append]
  simp only [List.countP_singleton, decide_eq_true_eq]

/-- A count goes up by one for the SM of the block, and stays for the others. -/
theorem countBlock_turns {id sms : Nat} {turns : Nat → Nat} {counts counted : List UInt32}
    (hturns : counts.map UInt32.toNat = (List.range sms).map turns)
    (h : countBlock id counts = .ok counted) :
    counted.map UInt32.toNat =
      (List.range sms).map fun sm => turns sm + if id = sm then 1 else 0 := by
  obtain ⟨count, more, hcount, hmore, rfl⟩ := countBlock_cases h
  have hid := congrArg (·[id]?) hturns
  simp only [List.getElem?_map, hcount, Option.map_some] at hid
  obtain ⟨sm, hsm, hcount⟩ := Option.map_eq_some_iff.mp hid.symm
  obtain ⟨hlt, rfl⟩ := List.getElem?_eq_some_iff.mp hsm
  rw [List.getElem_range] at hcount
  rw [List.map_set, hturns, hmore, ← hcount]
  refine List.ext_getElem (by simp) fun i _ hi => ?_
  rw [List.getElem_set]
  split
  · subst_vars
    simp
  · rename_i hne
    simp [hne]

/-- What was counted after `k` whole blocks. -/
theorem Forecast.counts {k : Nat} (hf : Planned plan first s 0 (s + k) state)
    (hd : first.device.Sound) (hk : s + k ≤ first.kernel.grid.volume) :
    state.stats.blocks.toNat = k ∧
      state.stats.warps.toNat = k * warpsNeeded first.kernel.block.volume first.device.warpSize ∧
      state.stats.threads.toNat = k * first.kernel.block.volume ∧
      state.stats.issued.toNat =
        k * warpsNeeded first.kernel.block.volume first.device.warpSize * plan.program.length := by
  have hleft : first.kernel.grid.volume - s = k + (first.kernel.grid.volume - (s + k)) := by omega
  have fblocks := hf.blocks
  have fwarps := hf.warps
  have fthreads := hf.threads
  have fissued := hf.issued
  simp only [Totals.ofLaunch, warpsLeft_zero hd, threadsLeft_zero, hleft, Nat.add_mul, Nat.mul_add]
    at fblocks fwarps fthreads fissued
  refine ⟨by omega, by omega, by omega, ?_⟩
  rw [Nat.mul_comm]
  omega

/-- What the snapshot says of a launch that stands at a block. -/
theorem snapshot_tells {k : Nat} {taken : Snapshot} (hd : first.device.Sound)
    (hgrid : first.kernel.grid.volume < UInt32.size) (h : Stands first s 0 (s + k) state)
    (hk : s + k ≤ first.kernel.grid.volume) (hf : Planned plan first s 0 (s + k) state)
    (hturns : state.blocksBySm.map UInt32.toNat =
      (List.range first.device.sms.length).map (turnsOf first.device.sms.length s (s + k)))
    (htaken : snapshot sink state = .ok taken) :
    taken.Tells plan.program first.device first.kernel s k state.stats.atomics.toNat := by
  have hvolume := Dim3.volume_lt_reach first.kernel.grid
  have hmore := h.more (by omega)
  have hkernel := h.kernel
  obtain ⟨hblocks, hwarps, hthreads, hissued⟩ := hf.counts hd hk
  obtain ⟨total, htotal, htaken⟩ := Outcome.bind_eq_ok.mp htaken
  cases htaken
  have hsize : total.toNat = first.kernel.grid.volume := by
    rw [Kernel.numBlocks, hkernel] at htotal
    exact Dim3.size_eq_ok htotal
  refine ⟨?_, ?_, by rw [hkernel], by rw [hkernel], ?_, ?_, hblocks, hwarps, hthreads, hissued, rfl,
    ?_⟩
  · -- The kernel has gone on to the next block already, so it is done where no block is left.
    by_cases hend : s + k = first.kernel.grid.volume
    · rw [if_pos hend, if_pos]
      exact h.ended (by omega) hend.ge
    · rw [if_neg hend, if_neg]
      simpa using hmore.mpr (by omega)
  · show state.kernel.name = _
    rw [hkernel]
    rfl
  · have hwidth := hd.warpSize_le
    rw [Device.warpSize, h.config, ← Device.warpSize]
    exact UInt32.toNat_ofNat_of_lt' (by unfold maxWarpSize at hwidth; simp only [UInt32.size]; omega)
  · rw [UInt64.toNat_toUInt32, hsize]
    exact Nat.mod_eq_of_lt hgrid
  · rw [hturns]
    refine List.map_congr_left fun sm _ => ?_
    rw [turnsOf, Nat.add_sub_cancel_left]

end Snapshots

variable {plan : LaunchPlan σ α} {device : Device} {kernel : Kernel} {folder : Folder}
  {first state next : State (σ × List (HookEvent α)) α}

/-- The launch stands at a block with its counts, and the path holds the last snapshot. -/
structure Published (plan : LaunchPlan σ α) (sink : SnapshotSink)
    (first : State (σ × List (HookEvent α)) α) (s n : Nat)
    (state : State (σ × List (HookEvent α)) α) : Prop where
  planned : Planned plan.logged first s 0 n state
  delivered : Delivered first state
  turns : state.blocksBySm.map UInt32.toNat =
    (List.range first.device.sms.length).map (turnsOf first.device.sms.length s n)
  untouched : n = s → state.folder = first.folder
  saved : s < n → ∃ taken, snapshot sink state = .ok taken ∧
    Snapshot.load? state.folder sink.path = some taken

theorem published_first {host : σ} (hb : Begins device kernel folder (host, []) warpsPerCta first)
    (hd : device.Sound) : Published plan sink first s s first := by
  have hidle := hb.idle hd
  obtain ⟨slot, _, rfl⟩ := hb.start
  refine ⟨planned_first plan.logged folder (host, []) hidle, delivered_start hidle, ?_,
    fun _ => rfl, fun hlt => absurd hlt (Nat.lt_irrefl s)⟩
  refine List.ext_getElem (by simp [start]) fun i _ _ => ?_
  simp [start, turnsOf]

theorem Published.advance (hp : Published plan sink first s n state)
    (hc : plan.hook.Confined first.device.warpSize) (hsink : plan.sink = some sink)
    (hpath : Snapshot.Savable sink.path) (h : Stands first s 0 n state) (hd : first.device.Sound)
    (hgrid : first.kernel.grid.volume < UInt32.size) (hn : n < first.kernel.grid.volume)
    (hdone : executeCta plan.logged warpsPerCta state = .ok (.done next)) :
    Published plan sink first s (n + 1) next := by
  have hm : 0 < first.kernel.block.reach := Dim3.reach_pos _
  obtain ⟨opening, _, hopen, _, _, hfin⟩ := executeCta_done hdone
  have hword : (UInt32.ofNat n).toNat = n := UInt32.toNat_ofNat_of_lt' (by omega)
  have hturns := countBlock_turns hp.turns hfin.counts
  rw [(h.opens hm hn hopen).1, ctaAt, hword] at hturns
  have hlogged : plan.logged.sink = some sink := hsink
  obtain ⟨taken, htaken, hfolder⟩ := executeCta_records hlogged hdone
  have hplanned := hp.planned.advance hc.logged h hd hm hn hdone
  have hdelivered := hp.delivered.advance hc h hd hm hn hdone
  have hload := Snapshot.load?_save hpath state.folder taken
  rw [← hfolder] at hload
  have hle := h.le
  refine ⟨hplanned, hdelivered, ?_, fun hend => by omega, fun _ => ⟨taken, htaken, hload⟩⟩
  rw [hturns]
  exact List.map_congr_left fun sm _ => (turnsOf_succ _ sm hle).symm

/-! ## The calls after a block -/

/-- A block adds to the log the calls that are made for it, with the folder as it was before. -/
theorem issueAll_appends {hook : Hook σ α} {cta : Cta} {warps : List Warp}
    {program : List Instruction} {front last : Front (σ × List (HookEvent α)) α}
    (h : issueAll hook.logged folder cta warps program front = .ok last) :
    ∃ lines, last.host.2 = front.host.2 ++ lines ∧ ∀ call ∈ HookEvent.calls lines,
      call.folder = folder ∧ call.context.ctaIndex = cta.index := by
  rw [issueAll_eq_foldlM] at h
  refine Outcome.foldlM_keeps (P := fun _ (mid : Front (σ × List (HookEvent α)) α) =>
    ∃ lines, mid.host.2 = front.host.2 ++ lines ∧ ∀ call ∈ HookEvent.calls lines,
      call.folder = folder ∧ call.context.ctaIndex = cta.index) ?_ ⟨[], by simp [HookEvent.calls]⟩ h
  rintro t rest b c ⟨lines, hlines, hcalls⟩ hstep
  obtain ⟨slot, edited, host, hissue⟩ := issue_cases hstep
  refine ⟨lines ++ .called ⟨folder, slot, context cta t.2 b.cycle⟩ ::
    edited.due.map (.delivered · edited.inst), by rw [hissue.log, hlines, List.append_assoc], ?_⟩
  intro call hcall
  rw [HookEvent.calls_append, HookEvent.calls_issue, List.mem_append, List.mem_singleton] at hcall
  rcases hcall with hcall | rfl
  · exact hcalls call hcall
  · exact ⟨rfl, rfl⟩

/-- The log of a launch at block `n`, told from where it was at block `b`. The calls since then are
for the blocks from `b` on, and those for block `b` were made with the folder of then. -/
structure Continues (start : State (σ × List (HookEvent α)) α) (b n : Nat)
    (state : State (σ × List (HookEvent α)) α) : Prop where
  le : b ≤ n
  folder : b = n → state.folder = start.folder
  lines : ∃ lines, state.host.2 = start.host.2 ++ lines ∧ ∀ call ∈ HookEvent.calls lines,
    b ≤ call.context.ctaIndex.toNat ∧ call.context.ctaIndex.toNat < n ∧
      (call.context.ctaIndex.toNat = b → call.folder = start.folder)

theorem continues_first (b : Nat) (state : State (σ × List (HookEvent α)) α) :
    Continues state b b state :=
  ⟨le_rfl, fun _ => rfl, [], by simp [HookEvent.calls]⟩

theorem Continues.advance {start : State (σ × List (HookEvent α)) α} {b : Nat}
    (hl : Continues start b n state) (h : Stands first s 0 n state)
    (hgrid : first.kernel.grid.volume < UInt32.size) (hn : n < first.kernel.grid.volume)
    (hdone : executeCta plan.logged warpsPerCta state = .ok (.done next)) :
    Continues start b (n + 1) next := by
  have hm : 0 < first.kernel.block.reach := Dim3.reach_pos _
  obtain ⟨opening, front, hopen, _, hissue, hfin⟩ := executeCta_done hdone
  obtain ⟨before, hbefore, hcalls⟩ := hl.lines
  obtain ⟨lines, hlines, hblock⟩ := issueAll_appends hissue
  have hword : (UInt32.ofNat n).toNat = n := UInt32.toNat_ofNat_of_lt' (by omega)
  have hle := hl.le
  refine ⟨by omega, fun hend => by omega, before ++ lines, ?_, ?_⟩
  · rw [hfin.host, hlines, ← List.append_assoc, ← hbefore]
    rfl
  · intro call hcall
    rw [HookEvent.calls_append, List.mem_append] at hcall
    rcases hcall with hcall | hcall
    · obtain ⟨hle, hlt, hfolder⟩ := hcalls call hcall
      exact ⟨hle, by omega, hfolder⟩
    · -- A call of this block. Its folder is the one of block `b` where this is block `b`.
      obtain ⟨hfolder, hindex⟩ := hblock call hcall
      rw [(h.opens hm hn hopen).1] at hindex
      have hnumber : call.context.ctaIndex.toNat = n := by rw [hindex]; exact hword
      refine ⟨by omega, by omega, fun hat => ?_⟩
      rw [hfolder]
      exact hl.folder (by omega)

/-- What there is to see of a launch after `k` blocks. The log has the calls for the blocks before,
and with every call for the next block the hook finds the folder as it is now. -/
structure Checkpoint (plan : LaunchPlan σ α) (sink : SnapshotSink) (device : Device)
    (kernel : Kernel) (folder : Folder) (report : LaunchReport (σ × List (HookEvent α))) (s k : Nat)
    (state : State (σ × List (HookEvent α)) α) : Prop where
  before : ∀ call ∈ HookEvent.calls state.host.2, call.context.ctaIndex.toNat < s + k
  after : ∃ later, report.host.2 = state.host.2 ++ later ∧ ∀ call ∈ HookEvent.calls later,
    s + k ≤ call.context.ctaIndex.toNat ∧
      (call.context.ctaIndex.toNat = s + k → call.folder = state.folder)
  last : k = kernel.grid.volume - s → report.folder = state.folder ∧ report.host = state.host
  untouched : k = 0 → state.folder = folder
  saved : 0 < k → ∃ snapshot, Snapshot.load? state.folder sink.path = some snapshot ∧
    snapshot.Tells plan.program device kernel s k (HookEvent.deliveries state.host.2).length

theorem Checkpoint.folder_of_call {report : LaunchReport (σ × List (HookEvent α))} {k : Nat}
    {call : HookCall α} (h : Checkpoint plan sink device kernel folder report s k state)
    (hcall : call ∈ HookEvent.calls report.host.2)
    (hindex : call.context.ctaIndex.toNat = s + k) : call.folder = state.folder := by
  obtain ⟨later, hlog, hnext⟩ := h.after
  rw [hlog, HookEvent.calls_append, List.mem_append] at hcall
  rcases hcall with hcall | hcall
  · have := h.before call hcall
    omega
  · exact (hnext call hcall).2 hindex

/-- A launch that goes through has a checkpoint after each of its blocks. -/
theorem run_checkpoint {host : σ} {final : State (σ × List (HookEvent α)) α} {k : Nat} (places : Nat)
    (hb : Begins device kernel folder (host, []) warpsPerCta first) (hd : device.Sound)
    (hat : kernel.At s 0) (hs : s < kernel.grid.reach) (hgrid : kernel.grid.volume < UInt32.size)
    (hc : plan.hook.ConfinedIn (Calls plan device kernel folder host) device.warpSize)
    (hsink : plan.sink = some sink) (hpath : Snapshot.Savable sink.path)
    (hk : k ≤ kernel.grid.volume - s)
    (hrun : run plan.logged warpsPerCta kernel.grid.volume first = .ok (.done final)) :
    ∃ state, run plan.logged warpsPerCta k first = .ok (.done state) ∧
      Checkpoint plan sink device kernel folder (BlockEnd.report places (.done final)) s k state := by
  obtain ⟨g, hg, hagrees⟩ := hc.stand_in
  have hruns := hb.run_agrees (hagrees.logged [])
  have hpublished : Published { plan with hook := g } sink first s s first := published_first hb hd
  have hempty : first.host.2 = [] ∧ first.folder = folder := by
    obtain ⟨slot, _, rfl⟩ := hb.start
    exact ⟨rfl, rfl⟩
  obtain ⟨rfl, rfl, hat⟩ := hb.at hat
  have hm : 0 < first.kernel.block.reach := Dim3.reach_pos _
  have hvolume := Dim3.volume_lt_reach first.kernel.grid
  have hstart := stands_first hat
  -- The blocks up to the checkpoint, and then the blocks that are left.
  rcases run_split hrun (show k ≤ first.kernel.grid.volume by omega) with
    ⟨state, hstate, hrest⟩ | ⟨_, _, hrefused, _⟩
  case inr => cases hrefused
  rcases run_split hrest (show first.kernel.grid.volume - (s + k) ≤ _ by omega) with
    ⟨last, hlast, hend⟩ | ⟨_, _, hrefused, _⟩
  case inr => cases hrefused
  obtain ⟨hstands, hp⟩ := hstart.after_keeps (Q := Published { plan with hook := g } sink first s) hm
    hk hpublished
    (fun n state next hst hn hp hdone => hp.advance hg hsink hpath hst hd hgrid hn hdone)
    ((hruns k).trans hstate)
  obtain ⟨_, _, _, lines, hlines, hcalls⟩ := hstart.after_keeps (Q := Continues first s) hm hk
    (continues_first s first)
    (fun n state next hst hn hl hdone => hl.advance hst hgrid hn hdone) hstate
  obtain ⟨hover, _, _, later, hlater, hnext⟩ := hstands.after_keeps (Q := Continues state (s + k))
    hm le_rfl (continues_first (s + k) state)
    (fun n state next hst hn hl hdone => hl.advance hst hgrid hn hdone) hlast
  rw [run_ended _ (hover.ended (by omega) (by omega))] at hend
  cases hend
  rw [hempty.1, List.nil_append] at hlines
  refine ⟨state, hstate, ?_, ⟨later, hlater, fun call hcall => ?_⟩, fun hall => ?_, fun hzero => ?_,
    fun hpos => ?_⟩
  · intro call hcall
    rw [hlines] at hcall
    exact (hcalls call hcall).2.1
  · obtain ⟨hle, _, hfolder⟩ := hnext call hcall
    exact ⟨hle, hfolder⟩
  · have hnone : first.kernel.grid.volume - (s + k) = 0 := by omega
    rw [hnone] at hlast
    cases hlast
    exact ⟨rfl, rfl⟩
  · rw [hp.untouched (by omega), hempty.2]
  · obtain ⟨taken, htaken, hload⟩ := hp.saved (by omega)
    refine ⟨taken, hload, ?_⟩
    rw [← hp.delivered.tallied]
    exact snapshot_tells hd hgrid hstands (by omega) hp.planned hp.turns htaken

end Launch

/-- A launch with a path for its snapshots leaves the folder alone until the first block is done.
From then on, after each block and with every call of the hook for the next one, the path holds a
snapshot that tells of all blocks before: how many there were, on which SMs, and what they have
issued and delivered. -/
theorem every_snapshot_tells_of_all_blocks_before_it {σ α : Type} {plan : LaunchPlan σ α}
    {sink : SnapshotSink} {device : Device} {kernel : Kernel} {folder : Folder} {host : σ} {s : Nat}
    {report : LaunchReport σ} (hd : device.Sound) (hq : ∀ sm ∈ device.sms, sm.liveWarps = 0)
    (hbound : kernel.bound = true) (hk : kernel.Reached s 0) (hgrid : kernel.grid.volume < 2 ^ 32)
    (hfits : warpsNeeded kernel.block.volume device.warpSize ≤ device.config.maxWarps.toNat)
    (hc : plan.hook.ConfinedIn (Launch.Calls plan device kernel folder host) device.warpSize)
    (hsink : plan.sink = some sink) (hpath : Snapshot.Savable sink.path)
    (h : launch plan device kernel folder host = .ok report) :
    ∃ log warpsPerCta first,
      launch plan.logged device kernel folder (host, []) = .ok (report.mapHost (·, log)) ∧
      Launch.Begins device kernel folder (host, []) warpsPerCta first ∧
      ∀ k ≤ kernel.grid.volume - s, ∃ state,
        Launch.run plan.logged warpsPerCta k first = .ok (.done state) ∧
        Launch.Checkpoint plan sink device kernel folder (report.mapHost (·, log)) s k state := by
  obtain ⟨hat, hs, hm⟩ := hk.stands
  rw [launch_logged plan device kernel folder host []] at h
  obtain ⟨logged, hrun, rfl⟩ := Outcome.map_eq_ok.mp h
  obtain ⟨g, hg, hagrees⟩ := hc.stand_in
  obtain ⟨_, hok, _⟩ := Launch.launch_stats hg.logged hd hq hbound hat hs hm hfits
    ((hagrees.launch_logged []).trans hrun)
  rcases Launch.launch_cases hbound hrun with
    ⟨hlarge, _⟩ | ⟨warpsPerCta, first, last, hbegins, hblocks, rfl⟩
  · omega
  cases last with
  | refused warps refused => cases hok
  | done final =>
    exact ⟨final.host.2, warpsPerCta, first, hrun, hbegins, fun k hk =>
      Launch.run_checkpoint device.config.maxWarps.toNat hbegins hd hat hs hgrid hc hsink hpath hk
        hblocks⟩

namespace Launch

def livePath : Path := .ofName "live.json"

theorem livePath_savable : Snapshot.Savable livePath :=
  ⟨⟨"live.json", by cbv⟩, ⟨"live.json.tmp", by cbv⟩⟩

def liveSink : SnapshotSink := ⟨livePath, UInt32.toUInt64⟩

def live : LaunchPlan Nat UInt64 := ⟨[barrier, .placeholder], tallying, some liveSink⟩

theorem live_confined :
    live.hook.ConfinedIn (Calls live .small lastThreeBlocks .empty 0) Device.small.warpSize :=
  tallying_confined Device.small_sound lastThreeBlocks_reached (by decide) _ .empty 0

theorem live_ok : ∃ report, launch live .small lastThreeBlocks .empty 0 = .ok report := by
  have hat : lastThreeBlocks.At 1 0 := ⟨rfl, rfl⟩
  have hleft : warpsLeft .small lastThreeBlocks 1 0 1 = 6 := warpsLeft_zero Device.small_sound 1 1
  have hranges : Ranges live.program .small lastThreeBlocks 1 0 := by
    constructor
    case issues => rw [hleft]; decide
    case cycles => rw [hleft]; decide
    case released => rw [hleft]; decide
    all_goals decide
  obtain ⟨report, _, h, _⟩ := hranges.launch_ok live_confined Device.small_sound
    Device.small_quiet rfl hat (by decide) (by decide) (by decide) (by decide)
  exact ⟨report, h⟩

end Launch

/-- Three blocks are left of four. While the hook is called for the last of them, the file says that
each SM has executed one, and in the end it says that the launch is complete. -/
theorem a_reader_sees_two_blocks_and_then_three :
    ∃ (report : LaunchReport Nat) (log : List (HookEvent UInt64)),
      launch Launch.live.logged .small Launch.lastThreeBlocks .empty (0, []) =
        .ok (report.mapHost (·, log)) ∧
      (∀ call ∈ HookEvent.calls log, call.context.ctaIndex = 3 → ∃ seen,
        Snapshot.load? call.folder Launch.livePath = some seen ∧ seen.status = "running" ∧
        seen.blocks.toNat = 2 ∧ seen.threads.toNat = 6 ∧
        seen.blocksBySm.map UInt32.toNat = [1, 1]) ∧
      ∃ last, Snapshot.load? report.folder Launch.livePath = some last ∧
        last.status = "complete" ∧ last.blocks.toNat = 3 ∧ last.issued.toNat = 12 ∧
        last.blocksBySm.map UInt32.toNat = [1, 2] ∧
        last.atomics.toNat = (HookEvent.deliveries log).length := by
  obtain ⟨report, h⟩ := Launch.live_ok
  have hsink : Launch.live.sink = some Launch.liveSink := rfl
  obtain ⟨log, _, _, hrun, _, hcheck⟩ := every_snapshot_tells_of_all_blocks_before_it
    Device.small_sound Device.small_quiet rfl Launch.lastThreeBlocks_reached (by decide) (by decide)
    Launch.live_confined hsink Launch.livePath_savable h
  obtain ⟨state, _, htwo⟩ := hcheck 2 (by decide)
  obtain ⟨final, _, hthree⟩ := hcheck 3 (by decide)
  refine ⟨report, log, hrun, fun call hcall hindex => ?_, ?_⟩
  · obtain ⟨seen, hseen, htells⟩ := htwo.saved (by decide)
    rw [htwo.folder_of_call hcall (by rw [hindex]; rfl)]
    exact ⟨seen, hseen, htells.status, htells.blocks, htells.threads, htells.blocksBySm⟩
  · obtain ⟨last, hlast, htells⟩ := hthree.saved (by decide)
    obtain ⟨hfolder, hlog⟩ : report.folder = final.folder ∧ (report.host, log) = final.host :=
      hthree.last rfl
    rw [← hfolder] at hlast
    rw [← hlog] at htells
    exact ⟨last, hlast, htells.status, htells.blocks, htells.issued, htells.blocksBySm,
      htells.atomics⟩

end Simt
