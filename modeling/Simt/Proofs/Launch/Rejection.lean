-- Which launches are rejected. A launch whose blocks need more warps than an SM has places is
-- rejected before anything happens. On a device with no live warp no other launch is: each block
-- has left its SM before the next one comes, so every warp that an SM is asked to take has a place.
import Simt.Proofs.Launch.Locality
import Simt.Proofs.Launch.Totals

namespace Simt

namespace Launch

variable {σ α : Type} {plan : LaunchPlan σ α} {device : Device} {kernel : Kernel} {folder : Folder}
  {host : σ} {s m : Nat}

/-- A launch comes to ask an SM to take a warp of a block: the blocks before are done, and the SM
has taken the warps of the block before. -/
inductive Asking (plan : LaunchPlan σ α) (device : Device) (kernel : Kernel) (folder : Folder)
    (host : σ) : Sm → UInt32 → UInt32 → Prop where
  | intro {warpsPerCta state index id threads formed sm asked warp}
      (comes : Comes plan device kernel folder host warpsPerCta state)
      (number : state.kernel.nextCtaIndex = .ok index)
      (turn : Word.rem index.toUInt32.toNat state.device.sms.length = .ok id)
      (form : state.kernel.formWarps state.device.warpSize = .ok (threads, formed))
      (chosen : state.device.sms[id]? = some sm)
      (asks : Asks index.toUInt32 warpsPerCta 0 threads sm asked warp) :
      Asking plan device kernel folder host asked index.toUInt32 warp

/-- A launch that is refused at a block has asked an SM for a warp that the SM did not take. -/
theorem asking_of_refused {warpsPerCta : UInt32} {state next : State σ α} {warps : Nat}
    (hcomes : Comes plan device kernel folder host warpsPerCta state)
    (h : executeCta plan warpsPerCta state = .ok (.refused warps next)) :
    ∃ sm cta warp, Asking plan device kernel folder host sm cta warp ∧
      sm.launch? cta warp = none := by
  obtain ⟨opening, _, hopen, href, _⟩ := executeCta_refused h
  obtain ⟨index, hindex, hopen⟩ := Outcome.bind_eq_ok.mp hopen
  obtain ⟨id, hid, hopen⟩ := Outcome.bind_eq_ok.mp hopen
  obtain ⟨⟨threads, formed⟩, hform, hopen⟩ := Outcome.bind_eq_ok.mp hopen
  dsimp only at hopen
  split at hopen
  · cases hopen
  · rename_i sm hsm
    obtain ⟨admission, henter, hopen⟩ := Outcome.bind_eq_ok.mp hopen
    cases hopen
    obtain ⟨asked, warp, hasks, hnone⟩ := asks_of_refused henter href
    exact ⟨asked, _, warp, .intro hcomes hindex hid hform hsm hasks, hnone⟩

/-- On a calm device no warp is refused in a launch whose blocks fit on an SM. -/
theorem Asking.taken {sm : Sm} {cta warp : UInt32} (hd : device.Sound)
    (hq : ∀ sm ∈ device.sms, sm.liveWarps = 0) (hat : kernel.At s m) (hs : s < kernel.grid.reach)
    (hm : m < kernel.block.reach)
    (hfits : warpsNeeded kernel.block.volume device.warpSize ≤ device.config.maxWarps.toNat)
    (h : Asking plan device kernel folder host sm cta warp) : ∃ t, sm.launch? cta warp = some t := by
  obtain @⟨_, state, index, _, threads, _, chosen, _, _, hcomes, _, _, hform, hsm, hasks⟩ := h
  obtain ⟨first, n, rfl, rfl, hstands, hn, hr⟩ := hcomes.calm hd hq hat hs hm
  -- Between two blocks no warp is live, so the whole of the SM is there for the block.
  obtain ⟨hlive, hconf⟩ := Calm.quiet hr chosen (List.mem_of_getElem? hsm)
  have hthreads : threads.length ≤ first.device.config.maxWarps.toNat := by
    have hblock : state.kernel.block = first.kernel.block := by rw [hstands.kernel]
    have hwidth : state.device.warpSize = first.device.warpSize := by
      rw [Device.warpSize, Device.warpSize, hstands.config]
    rw [hstands.at.formWarps (hstands.handed_lt hm), Except.ok.injEq, Prod.mk.injEq, hblock,
      hwidth] at hform
    rw [← hform.1]
    exact (length_share_le_needed hd _).trans hfits
  refine hasks.taken ?_
  rw [Sm.liveWarps_eq_card, hlive, hconf, Finset.card_empty]
  omega

/-- The counts of a launch from block `s` on, with `m` threads handed out, fit into their words,
and each SM can count the barriers. -/
structure Ranges (program : List Instruction) (device : Device) (kernel : Kernel) (s m : Nat) :
    Prop where
  grid : kernel.grid.volume < 2 ^ 32
  threads : kernel.grid.volume * kernel.block.volume < 2 ^ 32
  issues : 32 * (program.length * warpsLeft device kernel s m s) < 2 ^ 64
  cycles : (program.map Instruction.cost).sum * warpsLeft device kernel s m s < 2 ^ 64
  released : ∀ sm ∈ device.sms,
    sm.released.toNat + program.length * warpsLeft device kernel s m s < 2 ^ 64

/-- Within its ranges a launch on a calm device goes through. -/
theorem Ranges.launch_ok (hr : Ranges plan.program device kernel s m)
    (hc : plan.hook.ConfinedIn (Calls plan device kernel folder host) device.warpSize)
    (hd : device.Sound) (hq : ∀ sm ∈ device.sms, sm.liveWarps = 0) (hbound : kernel.bound = true)
    (hat : kernel.At s m) (hs : s < kernel.grid.reach) (hm : m < kernel.block.reach)
    (hsize : kernel.block.volume < 2 ^ 64)
    (hfits : warpsNeeded kernel.block.volume device.warpSize ≤ device.config.maxWarps.toNat) :
    ∃ report stats, launch plan device kernel folder host = .ok report ∧
      report.result = .ok stats := by
  have hids : kernel.grid.volume * warpsNeeded kernel.block.volume device.warpSize ≤ UInt32.size :=
    (Nat.mul_le_mul_left _ (warpsNeeded_le hd.warpSize_pos _)).trans hr.threads.le
  obtain ⟨g, hg, hagrees⟩ := hc.stand_in
  rw [← hagrees.launch]
  exact Launch.launch_ok hg hd hq hbound hat hs hm hsize hr.grid hfits hids
    (Totals.ofLaunch_fit hd hr.grid hr.threads hr.issues hr.cycles) hr.released

end Launch

/-- A block that needs more warps than an SM has places is rejected, whatever is resident, and
nothing else happens: the hook is not called and the folder is the same. A block that needs no
more is taken on a device with no live warp. No SM refuses a warp in the whole launch, the launch
ends well if it ends, and it ends within its ranges. -/
theorem a_launch_is_rejected_where_a_block_cannot_fit_and_nowhere_else {σ α : Type}
    (plan : LaunchPlan σ α) {device : Device} {kernel : Kernel} {s m : Nat} (folder : Folder)
    (host : σ) (hd : device.Sound) (hbound : kernel.bound = true) (hk : kernel.Reached s m)
    (hsize : kernel.block.volume < 2 ^ 64) :
    (device.config.maxWarps.toNat < warpsNeeded kernel.block.volume device.warpSize →
      launch plan device kernel folder host = .ok ⟨device, kernel, folder, host,
        .error (.ctaTooLarge (warpsNeeded kernel.block.volume device.warpSize)
          device.config.maxWarps.toNat)⟩ ∧
      ∃ report, launch plan.logged device kernel folder (host, []) = .ok report ∧
        report.host.2 = []) ∧
    (warpsNeeded kernel.block.volume device.warpSize ≤ device.config.maxWarps.toNat →
      (∀ sm ∈ device.sms, sm.liveWarps = 0) →
        (∀ sm cta warp, Launch.Asking plan device kernel folder host sm cta warp →
          ∃ t, sm.launch? cta warp = some t) ∧
        (∀ report, launch plan device kernel folder host = .ok report →
          ∃ stats, report.result = .ok stats) ∧
        (Launch.Ranges plan.program device kernel s m →
          plan.hook.ConfinedIn (Launch.Calls plan device kernel folder host) device.warpSize →
          ∃ report stats, launch plan device kernel folder host = .ok report ∧
            report.result = .ok stats)) := by
  obtain ⟨hat, hs, hm⟩ := hk.stands
  constructor
  · intro hlarge
    exact ⟨Launch.launch_too_large plan folder host hd hbound hsize hlarge, _,
      Launch.launch_too_large plan.logged folder (host, []) hd hbound hsize hlarge, rfl⟩
  · intro hfits hq
    have hall : ∀ sm cta warp, Launch.Asking plan device kernel folder host sm cta warp →
        ∃ t, sm.launch? cta warp = some t := by
      intro sm cta warp hasking
      exact hasking.taken hd hq hat hs hm hfits
    refine ⟨hall, ?_, ?_⟩
    · intro report h
      cases hresult : report.result with
      | ok stats => exact ⟨stats, rfl⟩
      | error e =>
        rcases Launch.refused_comes hbound h hresult with
          ⟨hlarge, _⟩ | ⟨_, state, _, _, hcomes, hrefused, _⟩
        · omega
        · obtain ⟨sm, cta, warp, hasking, hnone⟩ := Launch.asking_of_refused hcomes hrefused
          obtain ⟨t, ht⟩ := hall sm cta warp hasking
          rw [hnone] at ht
          cases ht
    · intro hranges hc
      exact hranges.launch_ok hc hd hq hbound hat hs hm hsize hfits

namespace Launch

/-- A small device with warps that have exited and are not forgotten yet. Warp 0 had the id of a
warp to come, and warp 9 left under a block with a number to come. -/
def leftover : Device where
  config := Device.small.config
  sms := [{ Sm.new 0 Device.small.config with
      warps := ⟨[(0, ⟨7, false, true, 1⟩), (9, ⟨0, false, true, 0⟩)], by decide⟩ },
    .new 1 Device.small.config]

theorem leftover_sound : leftover.Sound := ⟨rfl, rfl, by decide⟩

/-- Three blocks of so many threads. -/
def blocksOf (threads : UInt32) : Kernel := .bind (.line 3) (.line threads) ⟨"sums", 16⟩

/-- A program that parks nothing. -/
def meetOnce : LaunchPlan Unit Unit := ⟨[.placeholder, barrier], .idle, none⟩

theorem meetOnce_ranges : Ranges meetOnce.program leftover (blocksOf 8) 0 0 := by
  have hleft : warpsLeft leftover (blocksOf 8) 0 0 0 = 12 :=
    warpsLeft_first leftover_sound (by decide)
  refine ⟨by decide, by decide, ?_, ?_, ?_⟩
  · rw [hleft]
    decide
  · rw [hleft]
    decide
  · rw [hleft]
    decide

end Launch

/-- On SMs with four places for warps of two lanes, a block of nine threads is rejected and a
block of eight is taken. -/
theorem nine_threads_are_rejected_and_eight_are_taken :
    launch Launch.meetOnce Launch.leftover (Launch.blocksOf 9) .empty () =
      .ok ⟨Launch.leftover, Launch.blocksOf 9, .empty, (), .error (.ctaTooLarge 5 4)⟩ ∧
    ∃ report stats, launch Launch.meetOnce Launch.leftover (Launch.blocksOf 8) .empty () =
      .ok report ∧ report.result = .ok stats := by
  have hlarge := @a_launch_is_rejected_where_a_block_cannot_fit_and_nowhere_else Unit Unit
    Launch.meetOnce Launch.leftover (Launch.blocksOf 9) 0 0 .empty () Launch.leftover_sound rfl
    (.bind _ _ _) (by decide)
  have hfits := @a_launch_is_rejected_where_a_block_cannot_fit_and_nowhere_else Unit Unit
    Launch.meetOnce Launch.leftover (Launch.blocksOf 8) 0 0 .empty () Launch.leftover_sound rfl
    (.bind _ _ _) (by decide)
  obtain ⟨_, _, hend⟩ := hfits.2 (by decide) (by decide)
  exact ⟨(hlarge.1 (by decide)).1, hend Launch.meetOnce_ranges ((Hook.idle_confined _).on _)⟩

end Simt
