-- The barriers of a launch. On a device with no live warp, an SM releases every barrier of
-- the program once for each block that it executes, and no warp issues while it waits.
import Simt.Proofs.Launch.Course

namespace Simt

namespace Launch

variable {σ α : Type} {plan : LaunchPlan σ α} {warpsPerCta : UInt32} {device : Device}
  {kernel : Kernel} {folder : Folder} {host : σ} {first state next : State σ α}
  {s m n : Nat}

/-! ## The releases of an SM -/

/-- How many of the blocks from `s` on, and before `n`, are executed on an SM by some warp. -/
def blocksOn (device : Device) (kernel : Kernel) (s m n sm : Nat) : Nat :=
  (List.range' s (n - s)).countP fun f => decide (sm = (ctaAt device kernel f).sm ∧
    share kernel.block device.warpSize (handedOut s m f) ≠ [])

theorem blocksOn_succ (device : Device) (kernel : Kernel) (m sm : Nat) (h : s ≤ n) :
    blocksOn device kernel s m (n + 1) sm = blocksOn device kernel s m n sm +
      if sm = (ctaAt device kernel n).sm ∧
        share kernel.block device.warpSize (handedOut s m n) ≠ [] then 1 else 0 := by
  rw [blocksOn, blocksOn, range'_snoc h, List.countP_append]
  simp only [List.countP_singleton, decide_eq_true_eq]

/-- From the first thread of a block on, every block has warps as long as blocks have threads. -/
theorem blocksOn_eq (hd : device.Sound) (hgrid : kernel.grid.volume < UInt32.size) (sm : Nat) :
    blocksOn device kernel s 0 kernel.grid.volume sm =
      if kernel.block.volume = 0 then 0
      else (List.range' s (kernel.grid.volume - s)).countP (· % device.sms.length = sm) := by
  have hshare : share kernel.block device.warpSize 0 ≠ [] ↔ kernel.block.volume ≠ 0 := by
    have hpos := hd.warpSize_pos
    rw [← List.length_pos_iff, length_share _ hpos, warpsNeeded, Nat.div_pos_iff]
    omega
  split
  · rename_i h0
    rw [blocksOn, List.countP_eq_zero]
    intro f _
    simp [hshare, h0]
  · rename_i h0
    refine List.countP_congr fun f hf => ?_
    obtain ⟨hle, hlt⟩ := List.mem_range'_1.mp hf
    have hword : (UInt32.ofNat f).toNat = f := UInt32.toNat_ofNat_of_lt' (by omega)
    simp only [decide_eq_true_eq, handedOut_zero, hshare, ctaAt, hword]
    constructor
    · rintro ⟨hsm, _⟩
      exact hsm.symm
    · intro hsm
      exact ⟨hsm.symm, h0⟩

/-- The device of a launch over the blocks from `s` on is calm before block `n`. -/
def Releases (plan : LaunchPlan σ α) (first : State σ α) (s m n : Nat) (state : State σ α) : Prop :=
  Calm first.device
    (fun sm => plan.program.countP (·.op = .barrier) * blocksOn first.device first.kernel s m n sm)
    state.device

theorem releases_first (hd : first.device.Sound)
    (hq : ∀ sm ∈ first.device.sms, sm.liveWarps = 0) : Releases plan first s m s first := by
  simpa [Releases, blocksOn] using calm_refl hd hq

theorem Releases.advance (hr : Releases plan first s m n state) (h : Stands first s m n state)
    (hd : first.device.Sound) (hm : m < first.kernel.block.reach)
    (hn : n < first.kernel.grid.volume)
    (hdone : executeCta plan warpsPerCta state = .ok (.done next)) :
    Releases plan first s m (n + 1) next := by
  have hcalm := Calm.advance hr h hd hm hn hdone
  unfold Releases
  convert hcalm using 2 with sm
  rw [blocksOn_succ first.device first.kernel m sm h.le, Nat.mul_add]
  congr 1
  split <;> simp

/-- Where a launch on a device with no live warp comes to a block, the device is calm. -/
theorem Comes.calm (h : Comes plan device kernel folder host warpsPerCta state)
    (hd : device.Sound) (hq : ∀ sm ∈ device.sms, sm.liveWarps = 0) (hat : kernel.At s m)
    (hs : s < kernel.grid.reach) (hm : m < kernel.block.reach) :
    ∃ first n, first.device = device ∧ first.kernel = kernel ∧ Stands first s m n state ∧
      n < kernel.grid.volume ∧ Releases plan first s m n state := by
  refine h.stands (Q := fun first n state => Releases plan first s m n state) hat hs hm ?_ ?_
  · intro first hbegins
    obtain ⟨rfl, _, _⟩ := hbegins.at hat
    exact releases_first hd hq
  · rintro first rfl rfl n state next hst hn hr hdone
    exact hr.advance hst hd hm hn hdone

/-! ## The moments of an issue -/

/-- A launch comes to issue an instruction for a warp: the blocks before are done, the
instructions before are issued for all warps of the block, and the instruction is issued for
the warps before. -/
inductive Issuing (plan : LaunchPlan σ α) (device : Device) (kernel : Kernel) (folder : Folder)
    (host : σ) : Instruction → Warp → Front σ α → Prop where
  | intro {warpsPerCta first blocks state opening insts inst insts' ws warp ws' mid front}
      (begins : Begins device kernel folder host warpsPerCta first)
      (before : run plan warpsPerCta blocks first = .ok (.done state))
      (more : state.kernel.ctasDone = false)
      (opened : openCta warpsPerCta state = .ok opening)
      (taken : opening.admission.refused = false)
      (program : plan.program = insts ++ inst :: insts')
      (warps : opening.admission.taken = ws ++ warp :: ws')
      (issued : issueAll plan.hook state.folder opening.cta opening.admission.taken insts
        (opening.front state) = .ok mid)
      (turn : issueEach plan.hook state.folder opening.cta ws inst mid = .ok front) :
      Issuing plan device kernel folder host inst warp front

/-- A warp that issues on a calm device waits for nothing. -/
theorem issuing_ready {inst : Instruction} {warp : Warp} {front : Front σ α} (hd : device.Sound)
    (hq : ∀ sm ∈ device.sms, sm.liveWarps = 0) (hat : kernel.At s m)
    (hs : s < kernel.grid.reach) (hm : m < kernel.block.reach)
    (hwords : s < kernel.grid.volume → kernel.block.volume < UInt32.size)
    (h : Issuing plan device kernel folder host inst warp front) :
    front.sm.waitsAtBarrier warp.id = false ∧ front.sm.waitsForAtomics warp.id = false := by
  obtain ⟨hbegins, hbefore, hmore, hopen, htaken, hprogram, hwarps, hissued, hturn⟩ := h
  rename_i ws _ _
  have hcomes : Comes plan device kernel folder host _ _ := ⟨⟨_, _, hbegins, hbefore⟩, hmore⟩
  obtain ⟨first, n, rfl, rfl, hstands, hn, hr⟩ := hcomes.calm hd hq hat hs hm
  have hlen := (length_share_le first.kernel.block hd.warpSize_pos (handedOut s m n)).trans
    ((Nat.sub_le _ _).trans (hwords (hstands.le.trans_lt hn)).le)
  obtain ⟨hhost, _⟩ := Calm.hosts hr hstands hm hn hlen hopen
  obtain ⟨hmid, _⟩ := issueAll_hosts hhost hissued
  rw [hwarps] at hmid
  obtain ⟨hfront, _⟩ := issueEach_part hmid hturn
  refine hfront.ready (i := ws.length) (by simp) ?_
  split
  · exact le_rfl
  · exact Nat.zero_le _

/-! ## The whole launch -/

/-- A launch that executes a block has fewer threads in a block than there are words. -/
theorem launch_words {report : LaunchReport σ} {stats : Stats} (hd : device.Sound)
    (hbound : kernel.bound = true) (hat : kernel.At s 0) (hn : s < kernel.grid.volume)
    (h : launch plan device kernel folder host = .ok report) (hok : report.result = .ok stats) :
    kernel.block.volume < UInt32.size := by
  rcases launch_cases hbound h with ⟨_, rfl⟩ | ⟨warpsPerCta, first, last, hbegins, hrun, rfl⟩
  · cases hok
  · obtain ⟨rfl, rfl, hat⟩ := hbegins.at hat
    have hreach := Dim3.volume_lt_reach first.kernel.grid
    have hstands := stands_first hat
    obtain ⟨limit, hlimit⟩ : ∃ limit, first.kernel.grid.volume = limit + 1 :=
      ⟨first.kernel.grid.volume - 1, by omega⟩
    rw [hlimit, run, (hstands.more (by omega)).mpr hn] at hrun
    obtain ⟨result, hresult, hrun⟩ := Outcome.bind_eq_ok.mp hrun
    cases result with
    | refused warps refused =>
      cases hrun
      cases hok
    | done next =>
      have hwords := hstands.words hd (Dim3.reach_pos _) hn hresult
      simpa [handedOut] using hwords

/-- What the SMs of a calm device have released after a launch. -/
theorem launch_releases {report : LaunchReport σ} {stats : Stats} (hd : device.Sound)
    (hq : ∀ sm ∈ device.sms, sm.liveWarps = 0) (hbound : kernel.bound = true)
    (hat : kernel.At s m) (hs : s < kernel.grid.reach) (hm : m < kernel.block.reach)
    (h : launch plan device kernel folder host = .ok report) (hok : report.result = .ok stats) :
    report.device.sms.length = device.sms.length ∧
      Calm device (fun sm => plan.program.countP (·.op = .barrier) *
        blocksOn device kernel s m kernel.grid.volume sm) report.device := by
  rcases launch_cases hbound h with ⟨_, rfl⟩ | ⟨warpsPerCta, first, last, hbegins, hrun, rfl⟩
  · cases hok
  · obtain ⟨rfl, rfl, hat⟩ := hbegins.at hat
    obtain ⟨n, final, hstands, _, hr, hlast⟩ := run_stands
      (Q := fun n state => Releases plan first s m n state) hat hs hm
      (releases_first hd hq)
      (fun n state next hst hn hr hdone => hr.advance hst hd hm hn hdone) hrun
    rcases hlast with ⟨rfl, hend⟩ | ⟨_, _, rfl, _⟩
    · obtain ⟨_, hblocks⟩ := hend (by omega)
      refine ⟨hstands.count, ?_⟩
      have hsame : blocksOn first.device first.kernel s m n =
          blocksOn first.device first.kernel s m first.kernel.grid.volume := by
        funext sm
        rw [blocksOn, blocksOn, hblocks]
      rw [← hsame]
      exact hr
    · cases hok

end Launch

/-- A launch on a device with no live warp releases, on each SM, every barrier of the program
once for each block that the SM executes, and no barrier where the blocks have no threads. A
warp that issues an instruction waits neither at a barrier nor for an atomic. -/
theorem every_block_releases_every_barrier_once {σ α : Type} (plan : LaunchPlan σ α)
    {device : Device} {kernel : Kernel} {grid block : Dim3} {entry : KernelEntry} {s : Nat}
    (folder : Folder) (host : σ) (hd : device.Sound)
    (hq : ∀ sm ∈ device.sms, sm.liveWarps = 0)
    (hk : Kernel.advanceCtas s (.bind grid block entry) = .ok kernel)
    (hgrid : grid.volume < UInt32.size) :
    (∀ report stats, launch plan device kernel folder host = .ok report →
      report.result = .ok stats →
        report.device.sms.length = device.sms.length ∧
        ∀ i sm, report.device.sms[i]? = some sm → ∃ sm₀, device.sms[i]? = some sm₀ ∧
          sm.released.toNat = sm₀.released.toNat +
            if block.volume = 0 then 0
            else plan.program.countP (·.op = .barrier) *
              (List.range' s (grid.volume - s)).countP (· % device.sms.length = i)) ∧
    (∀ inst warp front, Launch.Issuing plan device kernel folder host inst warp front →
      (block.volume < UInt32.size ∨ ∃ report stats,
        launch plan device kernel folder host = .ok report ∧ report.result = .ok stats) →
      front.sm.waitsAtBarrier warp.id = false ∧ front.sm.waitsForAtomics warp.id = false) := by
  obtain ⟨hbound, rfl, rfl, hat, hs⟩ := Kernel.advanceCtas_at hk
  have hm : 0 < kernel.block.reach := (Nat.zero_le _).trans_lt (Dim3.volume_lt_reach _)
  constructor
  · intro report stats h hok
    obtain ⟨hcount, hcalm⟩ := Launch.launch_releases hd hq hbound hat hs hm h hok
    refine ⟨hcount, fun i sm hsm => ?_⟩
    obtain ⟨sm₀, hsm₀, hreleased⟩ := hcalm.released i sm hsm
    refine ⟨sm₀, hsm₀, ?_⟩
    rw [hreleased, Launch.blocksOn_eq hd hgrid, mul_ite, Nat.mul_zero]
  · intro inst warp front hissuing hwords
    refine Launch.issuing_ready hd hq hat hs hm (fun hn => ?_) hissuing
    rcases hwords with hwords | ⟨report, stats, h, hok⟩
    · exact hwords
    · exact Launch.launch_words hd hbound hat hn h hok

namespace Launch

def barrier : Instruction := { Instruction.placeholder with op := .barrier }

/-- A program that meets a barrier twice, with a hook that does nothing. -/
def twoBarriers : LaunchPlan Unit Unit := ⟨[barrier, .placeholder, barrier], .idle, none⟩

/-- Four blocks of three threads, where the first block was handed out before. -/
def lastThreeBlocks : Kernel :=
  { Kernel.bind (.line 4) (.line 3) ⟨"sums", 24⟩ with nextCta := ⟨1, 0, 0⟩ }

theorem lastThreeBlocks_reached : lastThreeBlocks.Reached 1 0 :=
  .cta (.bind (.line 4) (.line 3) ⟨"sums", 24⟩) rfl

def beforeTwoBarriers : State Unit Unit :=
  start .small lastThreeBlocks .empty () ⟨.placeholder, 2, true, false, 0, 0, .empty, none⟩

def secondBlock : Opening where
  cta := ⟨1, ⟨1, 0, 0⟩, 1, .line 3⟩
  threads := [[0, 1], [2]]
  kernel := { lastThreeBlocks with nextThread := ⟨0, 0, 1⟩ }
  admission :=
    ⟨{ Sm.new 1 Device.small.config with warps := ⟨[(2, .fresh 1), (3, .fresh 1)], by decide⟩ },
      [⟨2, [0, 1]⟩, ⟨3, [2]⟩], false⟩

end Launch

/-- The second of two SMs executes two of three blocks, with two barriers in each. When the
last warp of a block comes to the last barrier, it does not wait yet. -/
theorem two_barriers_of_two_blocks_are_four :
    (∃ report sm, launch Launch.twoBarriers .small Launch.lastThreeBlocks .empty () = .ok report ∧
      report.device.sms[1]? = some sm ∧ sm.released.toNat = 4) ∧
    ∃ front, Launch.Issuing Launch.twoBarriers .small Launch.lastThreeBlocks .empty ()
        Launch.barrier ⟨3, [2]⟩ front ∧
      front.sm.waitsAtBarrier 3 = false ∧ front.sm.waitsForAtomics 3 = false := by
  obtain ⟨hreleased, hready⟩ := @every_block_releases_every_barrier_once Unit Unit
    Launch.twoBarriers .small Launch.lastThreeBlocks (.line 4) (.line 3) ⟨"sums", 24⟩ 1 .empty ()
    Device.small_sound Device.small_quiet rfl (by decide)
  constructor
  · obtain ⟨report, h⟩ : ∃ report, launch Launch.twoBarriers .small Launch.lastThreeBlocks .empty ()
        = .ok report := Outcome.exists_ok (by cbv)
    have hresult : (launch Launch.twoBarriers .small Launch.lastThreeBlocks .empty ()).map
        (·.result.isOk) = .ok true := by cbv
    rw [h] at hresult
    obtain ⟨stats, hok⟩ : ∃ stats, report.result = .ok stats := by
      cases hresult' : report.result with
      | error e => simp [Except.map, hresult', Except.isOk, Except.toBool] at hresult
      | ok stats => exact ⟨stats, rfl⟩
    obtain ⟨hcount, hsms⟩ := hreleased report stats h hok
    have hsm := List.getElem?_eq_getElem (show 1 < report.device.sms.length by rw [hcount]; decide)
    obtain ⟨sm₀, hsm₀, hnum⟩ := hsms 1 _ hsm
    cases hsm₀
    exact ⟨report, _, h, hsm, hnum⟩
  · obtain ⟨front, h⟩ : ∃ front, (Launch.issueAll .idle .empty Launch.secondBlock.cta
          Launch.secondBlock.admission.taken [Launch.barrier, .placeholder]
          (Launch.secondBlock.front Launch.beforeTwoBarriers) >>=
        Launch.issueEach .idle .empty Launch.secondBlock.cta [⟨2, [0, 1]⟩] Launch.barrier)
          = .ok front := Outcome.exists_ok (by cbv)
    obtain ⟨mid, hmid, hfront⟩ := Outcome.bind_eq_ok.mp h
    have hissuing : Launch.Issuing Launch.twoBarriers .small Launch.lastThreeBlocks .empty ()
        Launch.barrier ⟨3, [2]⟩ front :=
      @Launch.Issuing.intro _ _ _ _ _ _ _ 2 Launch.beforeTwoBarriers 0 _ Launch.secondBlock
        [Launch.barrier, .placeholder] Launch.barrier [] [⟨2, [0, 1]⟩] ⟨3, [2]⟩ [] mid front
        ⟨rfl, ⟨_, rfl⟩, by decide, by decide, by decide, _, rfl, rfl⟩ rfl rfl (by cbv) rfl rfl rfl
        hmid hfront
    exact ⟨front, hissuing, hready _ _ _ hissuing (Or.inl (by decide))⟩

end Simt
