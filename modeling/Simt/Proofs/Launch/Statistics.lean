-- The statistics of a launch. On a device with no live warp every count has a closed form, also
-- for a kernel that was taken over in the middle of a block. What the hook leaves in the slot has
-- no part in it.
import Simt.Proofs.Launch.Calls
import Simt.Proofs.Launch.Contexts
import Simt.Proofs.Launch.Delivery
import Simt.Proofs.Launch.Totals

namespace Simt

namespace Launch

variable {σ α : Type} {plan : LaunchPlan σ α} {device : Device} {kernel : Kernel}
  {folder : Folder} {host : σ × List (HookEvent α)} {s m : Nat}

/-- A launch that goes through leaves the kernel past the last layer of its grid, with no thread
of a block handed out. -/
theorem launch_exhausts {report : LaunchReport (σ × List (HookEvent α))} {stats : Stats}
    (hc : plan.hook.Confined device.warpSize) (hd : device.Sound) (hbound : kernel.bound = true)
    (hat : kernel.At s m) (hs : s < kernel.grid.volume) (hm : m < kernel.block.reach)
    (hfits : warpsNeeded kernel.block.volume device.warpSize ≤ device.config.maxWarps.toNat)
    (h : launch plan.logged device kernel folder host = .ok report)
    (hok : report.result = .ok stats) :
    report.kernel = { kernel with nextCta := ⟨0, 0, kernel.grid.z⟩, nextThread := .zero } := by
  obtain ⟨warpsPerCta, first, n, final, hbegins, hstands, _, hend⟩ :=
    launch_calls hc hd hbound hat (hs.trans (Dim3.volume_lt_reach _)) hm hfits h
  rcases hend with ⟨rfl, _, hn⟩ | ⟨_, _, _, rfl, _⟩
  · obtain ⟨slot, _, rfl⟩ := hbegins.start
    have hle := hstands.le
    obtain rfl : n = kernel.grid.volume := by omega
    have hkernel := hstands.kernel
    simp only [start, handedOut, if_neg hs.ne', Dim3.place_zero,
      Dim3.place_volume ((Nat.zero_le s).trans_lt hs)] at hkernel
    exact hkernel
  · cases hok

end Launch

/-- What a launch on a device with no live warp counts, where `r` threads are left of the next
block and `n` warps are left in all. It counts the blocks, the threads and the warps that are
left, an issue and its cycles for each warp and each instruction of the program, and the parked
work that was delivered. The kernel is done afterwards. -/
theorem every_count_of_a_launch_has_a_closed_form {σ α : Type} (plan : LaunchPlan σ α)
    {device : Device} {kernel : Kernel} {s m r n : Nat} (folder : Folder) (host : σ)
    (hd : device.Sound) (hq : ∀ sm ∈ device.sms, sm.liveWarps = 0)
    (hbound : kernel.bound = true) (hk : kernel.Reached s m) (hs : s < kernel.grid.volume)
    (hr : r = kernel.block.volume - m)
    (hn : n = warpsNeeded r device.warpSize +
      (kernel.grid.volume - s - 1) * warpsNeeded kernel.block.volume device.warpSize)
    (hfits : warpsNeeded kernel.block.volume device.warpSize ≤ device.config.maxWarps.toNat)
    (hgrid : kernel.grid.volume < 2 ^ 32)
    (hthreads : kernel.grid.volume * kernel.block.volume < 2 ^ 32)
    (hissues : n * plan.program.length < 2 ^ 59)
    (hcycles : n * (plan.program.map Instruction.cost).sum < 2 ^ 59)
    (hreleased : ∀ sm ∈ device.sms, sm.released.toNat < 2 ^ 63)
    (hc : plan.hook.ConfinedIn (Launch.Calls plan device kernel folder host) device.warpSize) :
    ∃ report stats, launch plan.logged device kernel folder (host, []) = .ok report ∧
      launch plan device kernel folder host = .ok (report.mapHost Prod.fst) ∧
      report.result = .ok stats ∧
      stats.blocks.toNat = kernel.grid.volume - s ∧
      stats.threads.toNat = r + (kernel.grid.volume - s - 1) * kernel.block.volume ∧
      stats.warps.toNat = n ∧
      stats.issued.toNat = n * plan.program.length ∧
      stats.cycles.toNat = n * (plan.program.map Instruction.cost).sum ∧
      stats.atomics.toNat = (HookEvent.deliveries report.host.2).length ∧
      report.kernel.ctasDone = true ∧ report.kernel.nextCta = ⟨0, 0, kernel.grid.z⟩ := by
  obtain ⟨hat, hreach, hm⟩ := hk.stands
  subst hr
  have hwarps : n = Launch.warpsLeft device kernel s m s := by
    rw [hn, Launch.warpsLeft_first hd hs, Nat.sub_sub]
  subst hwarps
  rw [Nat.mul_comm] at hissues hcycles
  have hblock : kernel.block.volume < 2 ^ 32 :=
    (Nat.le_mul_of_pos_left _ ((Nat.zero_le s).trans_lt hs)).trans_lt hthreads
  have hids : kernel.grid.volume * warpsNeeded kernel.block.volume device.warpSize ≤ UInt32.size :=
    (Nat.mul_le_mul_left _ (Launch.warpsNeeded_le hd.warpSize_pos _)).trans hthreads.le
  have hfit : (Launch.Totals.ofLaunch plan.program device kernel s m).Fit :=
    Launch.Totals.ofLaunch_fit hd hgrid hthreads (by simp only [UInt64.size]; omega)
      (hcycles.trans (by decide))
  obtain ⟨g, hg, hagrees⟩ := hc.stand_in
  have hlogged := hagrees.launch_logged []
  obtain ⟨report, stats, hrun, hok⟩ : ∃ report stats,
      launch (LaunchPlan.logged { plan with hook := g }) device kernel folder (host, []) =
        .ok report ∧ report.result = .ok stats :=
    Launch.launch_ok hg.logged hd hq hbound hat hreach hm (hblock.trans (by decide)) hgrid hfits hids
      hfit fun sm hsm => by
        have hroom := hreleased sm hsm
        simp only [LaunchPlan.logged, UInt64.size]
        omega
  obtain ⟨counted, hcounted, hblocks, hwarps, hthreads, hissued, hcycles⟩ :=
    Launch.launch_stats hg.logged hd hq hbound hat hreach hm hfits hrun
  rw [hok, Except.ok.injEq] at hcounted
  subst hcounted
  have hatomics := Launch.launch_delivers hg hd hbound hat hreach hm hrun hok
  have hkernel := Launch.launch_exhausts hg hd hbound hat hs hm hfits hrun hok
  refine ⟨report, stats, hlogged.symm.trans hrun, ?_, hok, hblocks, ?_, hwarps, ?_, ?_, hatomics,
    ?_, ?_⟩
  · rw [launch_logged plan device kernel folder host [], ← hlogged, hrun]
    rfl
  · rw [hthreads, Launch.threadsLeft_first hs, Nat.sub_sub]
  · rw [hissued, Nat.mul_comm]
    rfl
  · rw [hcycles, Nat.mul_comm]
    rfl
  · simp [hkernel, Kernel.ctasDone, Dim3.inside]
  · rw [hkernel]

namespace Launch

/-- Three blocks of three threads. The first block and two threads of the second are gone. -/
def takenOver : Kernel :=
  { Kernel.bind (.line 3) (.line 3) ⟨"sums", 16⟩ with nextCta := ⟨1, 0, 0⟩, nextThread := ⟨2, 0, 0⟩ }

theorem takenOver_reached : takenOver.Reached 1 2 := by
  have hcta : Kernel.Reached { takenOver with nextThread := .zero } 1 0 :=
    .cta (.bind (.line 3) (.line 3) ⟨"sums", 16⟩) rfl
  have hthread : Kernel.Reached { takenOver with nextThread := ⟨1, 0, 0⟩ } 1 1 := .thread hcta rfl
  exact .thread hthread rfl

/-- An instruction of three cycles after one that takes none. -/
def meddled : LaunchPlan Nat Unit :=
  ⟨[.placeholder, { Instruction.placeholder with cycles := 3 }], meddling, none⟩

end Launch

/-- Three warps are left, one with the last thread of its block. They issue six instructions in
twelve cycles, and each issue delivers what was parked. -/
theorem three_warps_issue_in_twelve_cycles :
    ∃ report stats, launch Launch.meddled.logged .small Launch.takenOver .empty (0, []) =
        .ok report ∧
      report.result = .ok stats ∧ stats.blocks.toNat = 2 ∧ stats.threads.toNat = 4 ∧
      stats.warps.toNat = 3 ∧ stats.issued.toNat = 6 ∧ stats.cycles.toNat = 12 ∧
      stats.atomics.toNat = (HookEvent.deliveries report.host.2).length ∧
      report.kernel.ctasDone = true ∧ report.kernel.nextCta = ⟨0, 0, 1⟩ := by
  obtain ⟨report, stats, hrun, _, hok, hblocks, hthreads, hwarps, hissued, hcycles, hatomics, hdone,
      hnext⟩ := @every_count_of_a_launch_has_a_closed_form Nat Unit Launch.meddled .small
    Launch.takenOver 1 2 1 3 .empty 0 Device.small_sound Device.small_quiet rfl
    Launch.takenOver_reached (by decide) (by decide) (by decide) (by decide) (by decide) (by decide)
    (by decide) (by decide) (by decide)
    (Launch.meddling_confined Device.small_sound Launch.takenOver_reached none .empty 0)
  exact ⟨report, stats, hrun, hok, hblocks, hthreads, hwarps, hissued, hcycles, hatomics, hdone,
    hnext⟩

end Simt
