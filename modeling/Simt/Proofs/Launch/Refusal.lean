-- Launches that are refused. A launch whose blocks could never fit changes nothing. A launch
-- that is refused at a block in the middle leaves the block open with all of its threads
-- handed out, so that the next launch of the kernel executes the block with no threads.
import Simt.Proofs.Launch.Calls
import Simt.Proofs.Launch.Locality
import Simt.Proofs.Launch.Totals

namespace Simt

namespace Launch

variable {σ α : Type} {plan : LaunchPlan σ α} {warpsPerCta : UInt32} {device : Device}
  {kernel : Kernel} {first state next : State σ α} {s m n : Nat}

/-! ## A block that is refused -/

/-- A block that is refused has threads, and all of them are handed out afterwards. -/
theorem Stands.refused {warps : Nat} (h : Stands first s m n state) (hd : first.device.Sound)
    (hm : m < first.kernel.block.reach) (hn : n < first.kernel.grid.volume)
    (hrefused : executeCta plan warpsPerCta state = .ok (.refused warps next)) :
    handedOut s m n < first.kernel.block.volume ∧
      warps = (share first.kernel.block first.device.warpSize (handedOut s m n)).length ∧
      next.host = state.host ∧
      next.kernel = { first.kernel with
        nextCta := first.kernel.grid.place n
        nextThread := first.kernel.block.place first.kernel.block.volume } := by
  obtain ⟨opening, left, hopen, href, hwarps, _, rfl⟩ := executeCta_refused hrefused
  obtain ⟨_, hthreads, hkernel, sm, _, henter⟩ := h.opens hm hn hopen
  have hlt : handedOut s m n < first.kernel.block.volume := by
    have hlen := length_share_le first.kernel.block hd.warpSize_pos (handedOut s m n)
    rcases enter_cases henter with ⟨htaken, _⟩ | ⟨_, k, hk, _⟩
    · rw [href] at htaken
      cases htaken
    · rw [hthreads] at hk
      omega
  refine ⟨hlt, by rw [hwarps, hthreads], rfl, ?_⟩
  rw [← Nat.max_eq_right hlt.le]
  exact hkernel

theorem run_done {limit : Nat} (h : state.kernel.ctasDone = true) :
    run plan warpsPerCta limit state = .ok (.done state) := by
  cases limit with
  | zero => rfl
  | succ limit => rw [run, if_pos h]

/-- A launch that fits and is refused has a block to execute. -/
theorem inside_of_refused {folder : Folder} {host : σ} {report : LaunchReport σ} {e : ModelError}
    (hbound : kernel.bound = true)
    (hfits : warpsNeeded kernel.block.volume device.warpSize ≤ device.config.maxWarps.toNat)
    (h : launch plan device kernel folder host = .ok report) (herr : report.result = .error e) :
    kernel.nextCta.inside kernel.grid = true := by
  rcases launch_cases hbound h with ⟨hlarge, _⟩ | ⟨warpsPerCta, first, last, hbegins, hrun, rfl⟩
  · omega
  · obtain ⟨slot, _, rfl⟩ := hbegins.start
    by_contra hout
    have hdone : (start device kernel folder host slot).kernel.ctasDone = true := by
      simpa [start, Kernel.ctasDone] using hout
    rw [run_done hdone] at hrun
    cases hrun
    cases herr

/-- A launch that fits and is refused stops at a block, after the blocks before it. -/
theorem launch_refused {folder : Folder} {host : σ}
    {report : LaunchReport (σ × List (HookEvent α))} {e : ModelError}
    (hc : plan.hook.Confined device.warpSize) (hd : device.Sound) (hbound : kernel.bound = true)
    (hthread : kernel.nextThread = .zero)
    (hfits : warpsNeeded kernel.block.volume device.warpSize ≤ device.config.maxWarps.toNat)
    (h : launch plan.logged device kernel folder (host, []) = .ok report)
    (herr : report.result = .error e) :
    ∃ s n, kernel.At s 0 ∧ s ≤ n ∧ n < kernel.grid.volume ∧ 0 < kernel.block.volume ∧
      e = .ctaTooLarge (warpsNeeded kernel.block.volume device.warpSize)
        device.config.maxWarps.toNat ∧
      report.kernel = { kernel with
        nextCta := kernel.grid.place n
        nextThread := kernel.block.place kernel.block.volume } ∧
      List.Forall₂ (fun call t => Shows (ctaAt device kernel t.1) call t.2)
        (HookEvent.calls report.host.2)
        (tasks plan.program device kernel
          (UInt32.ofNat (warpsNeeded kernel.block.volume device.warpSize)) s 0 n) := by
  obtain ⟨hplace, hrank⟩ := Dim3.place_rank (inside_of_refused hbound hfits h herr)
  have hat : kernel.At (Dim3.rank kernel.nextCta kernel.grid) 0 :=
    ⟨hplace.symm, by rw [hthread, Dim3.place_zero]⟩
  have hreach := Dim3.volume_lt_reach kernel.grid
  obtain ⟨warpsPerCta, first, n, final, hbegins, hstands, hcalled, hend⟩ :=
    launch_calls hc hd hbound hat (by omega) (Dim3.reach_pos _) hfits h
  rcases hend with ⟨rfl, _⟩ | ⟨warps, refused, hn, rfl, hrefused⟩
  · cases herr
  · have hwpc := hbegins.warps
    obtain ⟨slot, _, rfl⟩ := hbegins.start
    obtain ⟨hsome, hwarps, hhost, hkernel⟩ := hstands.refused hd (Dim3.reach_pos _) hn
      hrefused
    obtain ⟨calls, hcalls, hall⟩ := hcalled.calls
    refine ⟨_, n, hat, hstands.le, hn, ?_, ?_, hkernel, ?_⟩
    · exact (Nat.zero_le _).trans_lt hsome
    · rw [handedOut_zero] at hwarps
      rw [← Except.error.inj herr, hwarps]
      show ModelError.ctaTooLarge (share kernel.block device.warpSize 0).length _ = _
      rw [length_share _ hd.warpSize_pos, Nat.sub_zero]
    · have hlog : HookEvent.calls refused.host.2 = calls := by
        rw [hhost]
        exact hcalls
      show List.Forall₂ _ (HookEvent.calls refused.host.2) _
      rw [hlog, ← hwpc]
      exact hall

/-! ## The launch after it -/

/-- A launch of the kernel on SMs with nothing live counts block `n` and the blocks after it,
and executes the threads of the blocks after it alone. -/
def Skips (config : Config) (kernel : Kernel) (n : Nat) : Prop :=
  ∀ (τ β : Type) (plan : LaunchPlan τ β) (device : Device) (folder : Folder) (host : τ)
    (report : LaunchReport τ), device.Sound → device.config = config →
    (∀ sm ∈ device.sms, sm.liveWarps = 0) →
    plan.hook.ConfinedIn (Calls plan device kernel folder host) device.warpSize →
    launch plan device kernel folder host = .ok report →
    ∃ stats, report.result = .ok stats ∧
      stats.blocks.toNat = kernel.grid.volume - n ∧
      stats.threads.toNat = (kernel.grid.volume - (n + 1)) * kernel.block.volume

theorem skips_of_handed_out (hbound : kernel.bound = true) (hat : kernel.At n kernel.block.volume)
    (hn : n < kernel.grid.volume)
    (hfits : warpsNeeded kernel.block.volume device.warpSize ≤ device.config.maxWarps.toNat) :
    Skips device.config kernel n := by
  intro τ β plan emptied folder host report hd hconf hq hc h
  rw [Device.warpSize, ← hconf] at hfits
  obtain ⟨g, hg, hagrees⟩ := hc.stand_in
  rw [← hagrees.launch] at h
  obtain ⟨stats, hok, hblocks, _, hthreads, _⟩ :=
    launch_stats hg hd hq hbound hat (hn.trans (Dim3.volume_lt_reach _)) (Dim3.volume_lt_reach _)
      hfits h
  refine ⟨stats, hok, hblocks, ?_⟩
  rw [hthreads, threadsLeft_first hn, Nat.sub_self, Nat.zero_add]

end Launch

/-- A launch that is refused leaves the kernel at a first thread exactly when the blocks could
never fit, and then it changes nothing at all. Any other refusal comes after `k` blocks that
were executed. It leaves all threads of the block after them handed out, and the next launch
that goes through skips this block. -/
theorem a_block_that_is_refused_loses_its_threads {σ α : Type} (plan : LaunchPlan σ α)
    {device : Device} {kernel : Kernel} (folder : Folder) (host : σ) {report : LaunchReport σ}
    {e : ModelError} (hd : device.Sound) (hbound : kernel.bound = true)
    (hthread : kernel.nextThread = .zero)
    (hc : plan.hook.ConfinedIn (Launch.Calls plan device kernel folder host) device.warpSize)
    (h : launch plan device kernel folder host = .ok report) (herr : report.result = .error e) :
    e = .ctaTooLarge (warpsNeeded kernel.block.volume device.warpSize)
      device.config.maxWarps.toNat ∧
    (report.kernel.nextThread = .zero ↔
      device.config.maxWarps.toNat < warpsNeeded kernel.block.volume device.warpSize) ∧
    (report = ⟨device, kernel, folder, host, .error e⟩ ∨
      ∃ s k log, kernel.nextCta = kernel.grid.place s ∧ s + k < kernel.grid.volume ∧
        launch plan.logged device kernel folder (host, []) =
          .ok (report.mapHost fun host => (host, log)) ∧
        List.Forall₂ (fun call t => Launch.Shows (Launch.ctaAt device kernel t.1) call t.2)
          (HookEvent.calls log)
          (Launch.tasks plan.program device kernel
            (UInt32.ofNat (warpsNeeded kernel.block.volume device.warpSize)) s 0 (s + k)) ∧
        0 < kernel.block.volume ∧
        report.kernel = { kernel with
          nextCta := kernel.grid.place (s + k)
          nextThread := ⟨0, 0, kernel.block.z⟩ } ∧
        Launch.Skips device.config report.kernel (s + k)) := by
  by_cases hfits : warpsNeeded kernel.block.volume device.warpSize ≤ device.config.maxWarps.toNat
  · rw [launch_logged plan device kernel folder host []] at h
    obtain ⟨logged, hlogged, rfl⟩ := Outcome.map_eq_ok.mp h
    obtain ⟨g, hg, hagrees⟩ := hc.stand_in
    obtain ⟨s, n, hat, hle, hn, hsome, hresult, hkernel, hcalls⟩ :=
      Launch.launch_refused hg hd hbound hthread hfits ((hagrees.launch_logged []).trans hlogged) herr
    obtain ⟨k, rfl⟩ := Nat.exists_eq_add_of_le hle
    have hskips : Launch.Skips device.config logged.kernel (s + k) := by
      rw [hkernel]
      exact Launch.skips_of_handed_out hbound ⟨rfl, rfl⟩ hn hfits
    rw [Dim3.place_volume hsome] at hkernel
    have hz : kernel.block.z ≠ 0 := by
      intro h0
      simp [Dim3.volume, h0] at hsome
    refine ⟨hresult, ⟨fun hzero => ?_, fun hlarge => by omega⟩, Or.inr
      ⟨s, k, logged.host.2, hat.cta, hn, hlogged, hcalls, hsome, hkernel, hskips⟩⟩
    have hthread' : logged.kernel.nextThread = .zero := hzero
    rw [hkernel] at hthread'
    exact absurd (congrArg Dim3.z hthread') hz
  · obtain ⟨hlarge, rfl⟩ | ⟨_, _, _, hbegins, _⟩ := Launch.launch_cases hbound h
    · cases herr
      exact ⟨rfl, ⟨fun _ => hlarge, fun _ => hthread⟩, Or.inl rfl⟩
    · exact absurd hbegins.fits hfits

namespace Launch

/-- A small device. Three of the four places of the second SM are taken. -/
def crowded : Device where
  config := Device.small.config
  sms := [.new 0 Device.small.config, { Sm.new 1 Device.small.config with
    warps := ⟨[(100, .fresh 9), (101, .fresh 9), (102, .fresh 9)], by decide⟩ }]

theorem crowded_sound : crowded.Sound := ⟨rfl, rfl, by decide⟩

/-- Three blocks of two warps each. -/
def threeBlocks : Kernel := .bind (.line 3) (.line 3) ⟨"sums", 16⟩

def oneIssue : LaunchPlan Unit Unit := ⟨[.placeholder], .idle, none⟩

theorem oneIssue_confined : oneIssue.hook.ConfinedIn
    (Calls oneIssue crowded threeBlocks .empty ()) crowded.warpSize :=
  (Hook.idle_confined _).on _

end Launch

/-- The second SM refuses the second of three blocks, and the launch after it skips the block. -/
theorem the_second_of_three_blocks_is_skipped :
    ∃ report, launch Launch.oneIssue Launch.crowded Launch.threeBlocks .empty () = .ok report ∧
      report.kernel.nextThread ≠ .zero ∧
      ∃ k, report.kernel.nextCta = (Dim3.line 3).place k ∧
        Launch.Skips Launch.crowded.config report.kernel k := by
  have hrun : (launch Launch.oneIssue Launch.crowded Launch.threeBlocks .empty ()).map
      (·.result.isOk) = .ok false := by cbv
  obtain ⟨report, h, hrefused⟩ := Outcome.map_eq_ok.mp hrun
  obtain ⟨e, herr⟩ : ∃ e, report.result = .error e := by
    cases hresult : report.result with
    | error e => exact ⟨e, rfl⟩
    | ok stats =>
      rw [hresult] at hrefused
      cases hrefused
  obtain ⟨_, hiff, hcases⟩ := @a_block_that_is_refused_loses_its_threads Unit Unit Launch.oneIssue
    Launch.crowded Launch.threeBlocks .empty () report e Launch.crowded_sound rfl rfl
    Launch.oneIssue_confined h herr
  have hopen : report.kernel.nextThread ≠ .zero := fun hzero => absurd (hiff.mp hzero) (by decide)
  rcases hcases with rfl | ⟨s, k, _, _, _, _, _, _, hkernel, hskips⟩
  · exact absurd rfl hopen
  · exact ⟨report, h, hopen, s + k, by rw [hkernel]; rfl, hskips⟩

namespace Launch

/-- A launch on the crowded device, and the launch after the warps in its way have gone. -/
def resumed : Outcome (LaunchReport Unit × LaunchReport Unit) := do
  let refused ← launch oneIssue crowded threeBlocks .empty ()
  let sms ← refused.device.sms.mapM fun sm => sm.run [.exit 100, .exit 101, .exit 102, .retire]
  let report ← launch oneIssue { refused.device with sms } refused.kernel refused.folder ()
  return (refused, report)

end Launch

/-- Two blocks are left after the refusal, and only the three threads of one of them execute. -/
theorem a_launch_after_a_refusal_leaves_threads_out :
    ∃ refused report stats, Launch.resumed = .ok (refused, report) ∧
      refused.result = .error (.ctaTooLarge 2 4) ∧ refused.kernel.nextCta = ⟨1, 0, 0⟩ ∧
      refused.kernel.nextThread ≠ .zero ∧
      report.result = .ok stats ∧ stats.blocks = 2 ∧ stats.threads ≠ 2 * 3 := by
  have hrun : Launch.resumed.map (fun r => (r.1.result, r.1.kernel.nextCta, r.1.kernel.nextThread,
      r.2.result)) = .ok (.error (.ctaTooLarge 2 4), ⟨1, 0, 0⟩, ⟨0, 0, 1⟩,
        .ok ⟨2, 2, 3, 2, 0, 2⟩) := by cbv
  obtain ⟨⟨refused, report⟩, h, hvalues⟩ := Outcome.map_eq_ok.mp hrun
  simp only [Prod.mk.injEq] at hvalues
  obtain ⟨hrefused, hcta, hthread, hresult⟩ := hvalues
  exact ⟨refused, report, _, h, hrefused, hcta, by rw [hthread]; decide, hresult, rfl, by decide⟩

end Simt
