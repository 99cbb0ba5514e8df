-- The work of a launch. On a device with no live warp the hook is called once for each
-- block that is left, each instruction of the program and each warp of the block, in this
-- order, and the warps share out the threads of the block.
import Simt.Proofs.Launch.Calls
import Simt.Proofs.Launch.Contexts
import Simt.Proofs.Launch.Totals

namespace Simt

namespace Launch

variable {σ α : Type} {plan : LaunchPlan σ α} {device : Device} {kernel : Kernel}
  {warpsPerCta : UInt32} {s f : Nat}

/-! ## The work of whole blocks -/

/-- The counts fit when the threads of the whole grid, the issues and the cycles do. -/
theorem ofLaunch_fit {program : List Instruction} (hd : device.Sound)
    (hgrid : kernel.grid.volume < UInt32.size)
    (hthreads : kernel.grid.volume * kernel.block.volume < UInt32.size)
    (hissues : 32 * (program.length * ((kernel.grid.volume - s) *
      warpsNeeded kernel.block.volume device.warpSize)) < UInt64.size)
    (hcycles : (program.map Instruction.cost).sum * ((kernel.grid.volume - s) *
      warpsNeeded kernel.block.volume device.warpSize) < UInt64.size) :
    (Totals.ofLaunch program device kernel s 0).Fit := by
  rw [← warpsLeft_zero hd s s] at hissues hcycles
  exact Totals.ofLaunch_fit hd hgrid hthreads hissues hcycles

/-- The warp of a block with a number has its share of the threads of the block. -/
theorem warpsOf_getElem? (hd : device.Sound) {w : Nat}
    (hw : w < warpsNeeded kernel.block.volume device.warpSize) :
    (warpsOf device kernel warpsPerCta s 0 f)[w]? = some
      ⟨UInt32.ofNat ((UInt32.ofNat f).toNat * warpsPerCta.toNat + w),
        (List.range' (w * device.warpSize)
          (min ((w + 1) * device.warpSize) kernel.block.volume - w * device.warpSize)).map
            UInt32.ofNat⟩ := by
  have hpos := hd.warpSize_pos
  have hlt : w * device.warpSize < kernel.block.volume := by
    rw [warpsNeeded, Nat.lt_div_iff_mul_lt hpos] at hw
    omega
  rw [warpsOf, named, List.getElem?_mapIdx, handedOut_zero, share, getElem?_pieces hpos,
    if_pos (by simpa using hlt)]
  simp only [Option.map_some, Nat.add_zero, Nat.sub_zero, Option.some.injEq, Warp.mk.injEq, true_and]
  rw [← List.map_drop, ← List.map_take, List.drop_range', Nat.zero_add, Nat.mul_one, Nat.succ_mul]
  rcases Nat.le_total device.warpSize (kernel.block.volume - w * device.warpSize) with hle | hle
  · rw [List.take_range'_of_length_ge hle, Nat.min_eq_left (by omega), Nat.add_sub_cancel_left]
  · rw [List.take_range'_of_length_le hle, Nat.min_eq_right (by omega)]

/-- The call is made for block `t.1`, place `t.2.1` of the program and warp `t.2.2` of the
block. -/
structure Covers (program : List Instruction) (device : Device) (kernel : Kernel)
    (call : HookCall α) (t : Nat × Nat × Nat) : Prop where
  sm : call.context.sm = t.1 % device.sms.length
  index : call.context.ctaIndex.toNat = t.1
  cta : call.context.cta = kernel.grid.place t.1
  block : call.context.block = kernel.block
  warp : call.context.warp.toNat =
    t.1 * warpsNeeded kernel.block.volume device.warpSize + t.2.2
  threads : call.context.threads.map UInt32.toNat =
    List.range' (t.2.2 * device.warpSize)
      (min ((t.2.2 + 1) * device.warpSize) kernel.block.volume - t.2.2 * device.warpSize)
  inst : program[t.2.1]? = some call.slot.inst
  active : call.slot.active.lanes = List.range call.context.threads.length

/-- What is shown for a pair of the schedule covers the places of the pair. -/
theorem covers_of_shows (hd : device.Sound) {program : List Instruction} {call : HookCall α}
    {t : Instruction × Warp} {p w : Nat} (hf : f < kernel.grid.volume)
    (hw : w < warpsNeeded kernel.block.volume device.warpSize)
    (hgrid : kernel.grid.volume < UInt32.size)
    (hthreads : kernel.grid.volume * kernel.block.volume < UInt32.size)
    (hwpc : warpsPerCta = UInt32.ofNat (warpsNeeded kernel.block.volume device.warpSize))
    (h : Shows (ctaAt device kernel f) call t) (hp : program[p]? = some t.1)
    (ht : (warpsOf device kernel warpsPerCta s 0 f)[w]? = some t.2) :
    Covers program device kernel call (f, p, w) := by
  have hneeded := warpsNeeded_le hd.warpSize_pos kernel.block.volume
  have hblock : kernel.block.volume < UInt32.size :=
    (Nat.le_mul_of_pos_left _ (by omega)).trans_lt hthreads
  have hindex : (UInt32.ofNat f).toNat = f := UInt32.toNat_ofNat_of_lt' (by omega)
  have hcount : warpsPerCta.toNat = warpsNeeded kernel.block.volume device.warpSize := by
    rw [hwpc]
    exact UInt32.toNat_ofNat_of_lt' (by omega)
  have hid : f * warpsNeeded kernel.block.volume device.warpSize + w < UInt32.size := by
    calc f * warpsNeeded kernel.block.volume device.warpSize + w
        < (f + 1) * warpsNeeded kernel.block.volume device.warpSize := by
          rw [Nat.succ_mul]
          omega
      _ ≤ kernel.grid.volume * kernel.block.volume := Nat.mul_le_mul hf hneeded
      _ < UInt32.size := hthreads
  rw [warpsOf_getElem? hd hw, hindex, hcount, Option.some.injEq] at ht
  obtain ⟨cycle, hctx⟩ := h.context
  rw [← ht] at hctx
  refine ⟨?_, ?_, ?_, ?_, ?_, ?_, ?_, ?_⟩
  · rw [hctx, context, ctaAt, hindex]
  · rw [hctx]
    exact hindex
  · rw [hctx]
    rfl
  · rw [hctx]
    rfl
  · rw [hctx]
    exact UInt32.toNat_ofNat_of_lt' hid
  · rw [hctx]
    simp only [context, List.map_map]
    refine (List.map_congr_left fun i hi => ?_).trans (List.map_id _)
    obtain ⟨hge, hlt⟩ := List.mem_range'_1.mp hi
    exact UInt32.toNat_ofNat_of_lt' (by omega)
  · rw [hp, h.inst]
  · rw [h.lanes, hctx, ← ht]
    rfl

/-! ## Lists of places -/

theorem forall₂_places {β : Type} (l : List β) :
    List.Forall₂ (fun x i => l[i]? = some x) l (List.range l.length) := by
  rw [List.forall₂_iff_get]
  exact ⟨by simp, fun i _ _ => by simp⟩

theorem forall₂_product {β γ δ ε : Type} {R : β → δ → Prop} {S : γ → ε → Prop} {as : List β}
    {bs : List γ} {cs : List δ} {ds : List ε} (h : List.Forall₂ R as cs)
    (h' : List.Forall₂ S bs ds) :
    List.Forall₂ (fun x y => R x.1 y.1 ∧ S x.2 y.2) (as ×ˢ bs) (cs ×ˢ ds) := by
  induction h with
  | nil => exact .nil
  | @cons a c as cs hac _ ih =>
    rw [List.product_cons, List.product_cons]
    refine List.rel_append ?_ ih
    rw [List.forall₂_map_left_iff, List.forall₂_map_right_iff]
    exact h'.imp fun b d hbd => ⟨hac, hbd⟩

theorem forall₂_trans {β γ δ : Type} {R : β → γ → Prop} {S : γ → δ → Prop} {T : β → δ → Prop}
    {as : List β} {bs : List γ} {cs : List δ} (h : List.Forall₂ R as bs)
    (h' : List.Forall₂ S bs cs) (step : ∀ a b c, R a b → S b c → T a c) :
    List.Forall₂ T as cs := by
  induction h generalizing cs with
  | nil =>
    cases h'
    exact .nil
  | cons hab _ ih =>
    cases h' with
    | cons hbc h' => exact .cons (step _ _ _ hab hbc) (ih h')

/-- The pairs of a launch and their places. -/
theorem tasks_places (hd : device.Sound) (program : List Instruction) :
    List.Forall₂ (fun t x => t.1 = x.1 ∧ x.1 < kernel.grid.volume ∧
        x.2.2 < warpsNeeded kernel.block.volume device.warpSize ∧
        program[x.2.1]? = some t.2.1 ∧
        (warpsOf device kernel warpsPerCta s 0 x.1)[x.2.2]? = some t.2.2)
      (tasks program device kernel warpsPerCta s 0 kernel.grid.volume)
      (List.range' s (kernel.grid.volume - s) ×ˢ List.range program.length ×ˢ
        List.range (warpsNeeded kernel.block.volume device.warpSize)) := by
  have hlen : ∀ f, (warpsOf device kernel warpsPerCta s 0 f).length =
      warpsNeeded kernel.block.volume device.warpSize := by
    intro f
    rw [length_warpsOf, handedOut_zero, length_share _ hd.warpSize_pos, Nat.sub_zero]
  have hblocks : List.Forall₂ (fun f g => f = g ∧ g < kernel.grid.volume)
      (List.range' s (kernel.grid.volume - s)) (List.range' s (kernel.grid.volume - s)) := by
    rw [List.forall₂_same]
    intro f hf
    have := List.mem_range'_1.mp hf
    exact ⟨rfl, by omega⟩
  refine List.rel_flatMap hblocks fun f g hfg => ?_
  obtain ⟨rfl, hf⟩ := hfg
  have hwarps := forall₂_places (warpsOf device kernel warpsPerCta s 0 f)
  rw [hlen] at hwarps
  rw [List.forall₂_map_left_iff, List.forall₂_map_right_iff]
  refine (forall₂_product (forall₂_places program) hwarps).imp fun t x htx => ?_
  have hlt := (List.getElem?_eq_some_iff.mp htx.2).1
  rw [hlen] at hlt
  exact ⟨rfl, hf, hlt, htx.1, htx.2⟩

end Launch

/-- On a device with no live warp a launch goes through when its blocks fit on an SM and its
counts have room. The hook is called once for each block that is left, each instruction of
the program and each warp of the block, in this order. -/
theorem every_warp_of_every_block_issues_every_instruction_once {σ α : Type}
    (plan : LaunchPlan σ α) {device : Device} {kernel : Kernel} {grid block : Dim3}
    {entry : KernelEntry} {s : Nat} (folder : Folder) (host : σ) (hd : device.Sound)
    (hq : ∀ sm ∈ device.sms, sm.liveWarps = 0)
    (hk : Kernel.advanceCtas s (.bind grid block entry) = .ok kernel)
    (hfits : warpsNeeded block.volume device.warpSize ≤ device.config.maxWarps.toNat)
    (hsize : block.volume < UInt64.size) (hgrid : grid.volume < UInt32.size)
    (hthreads : grid.volume * block.volume < UInt32.size)
    (hcycles : (plan.program.map Instruction.cost).sum *
      ((grid.volume - s) * warpsNeeded block.volume device.warpSize) < UInt64.size)
    (hissues : 32 * (plan.program.length *
      ((grid.volume - s) * warpsNeeded block.volume device.warpSize)) < UInt64.size)
    (hreleased : ∀ sm ∈ device.sms, sm.released.toNat + plan.program.length *
      ((grid.volume - s) * warpsNeeded block.volume device.warpSize) < UInt64.size)
    (hc : plan.hook.ConfinedIn (Launch.Calls plan device kernel folder host) device.warpSize) :
    ∃ report stats, launch plan.logged device kernel folder (host, []) = .ok report ∧
      launch plan device kernel folder host = .ok (report.mapHost Prod.fst) ∧
      report.result = .ok stats ∧
      List.Forall₂ (Launch.Covers plan.program device kernel) (HookEvent.calls report.host.2)
        (List.range' s (grid.volume - s) ×ˢ List.range plan.program.length ×ˢ
          List.range (warpsNeeded block.volume device.warpSize)) := by
  obtain ⟨hbound, rfl, rfl, hat, hs⟩ := Kernel.advanceCtas_at hk
  have hm : 0 < kernel.block.reach := (Nat.zero_le _).trans_lt (Dim3.volume_lt_reach _)
  have hneeded := Launch.warpsNeeded_le hd.warpSize_pos kernel.block.volume
  have hids : kernel.grid.volume * warpsNeeded kernel.block.volume device.warpSize ≤ UInt32.size :=
    (Nat.mul_le_mul_left _ hneeded).trans hthreads.le
  have hleft := @Launch.warpsLeft_zero device kernel hd s s
  have hfit := Launch.ofLaunch_fit hd hgrid hthreads hissues hcycles
  obtain ⟨g, hg, hagrees⟩ := hc.stand_in
  have hlogged := hagrees.launch_logged []
  obtain ⟨report, stats, hrun, hok⟩ : ∃ report stats,
      launch (LaunchPlan.logged { plan with hook := g }) device kernel folder (host, []) =
        .ok report ∧ report.result = .ok stats :=
    Launch.launch_ok hg.logged hd hq hbound hat hs hm hsize hgrid hfits hids hfit
      (by rw [hleft]; exact hreleased)
  refine ⟨report, stats, hlogged.symm.trans hrun, ?_, hok, ?_⟩
  · rw [launch_logged plan device kernel folder host [], ← hlogged, hrun]
    rfl
  · obtain ⟨warpsPerCta, first, n, final, hbegins, _, hcalled, hend⟩ :=
      Launch.launch_calls hg hd hbound hat hs hm hfits hrun
    rcases hend with ⟨rfl, _, hn⟩ | ⟨_, _, _, rfl, _⟩
    · obtain ⟨slot, _, rfl⟩ := hbegins.start
      obtain ⟨calls, hcalls, hall⟩ := hcalled.calls
      have hlog : HookEvent.calls final.host.2 = calls := hcalls
      rw [Launch.tasks, hn] at hall
      show List.Forall₂ _ (HookEvent.calls final.host.2) _
      rw [hlog]
      refine Launch.forall₂_trans hall (Launch.tasks_places hd plan.program) ?_
      rintro call t ⟨f, p, w⟩ hshows ⟨hf, hlt, hw, hp, hwarp⟩
      rw [hf] at hshows
      exact Launch.covers_of_shows hd hlt hw hgrid hthreads hbegins.warps hshows hp hwarp
    · cases hok

namespace Launch

/-- Three blocks of three threads. The first block is gone. -/
def lastTwoBlocks : Kernel :=
  { Kernel.bind (.line 3) (.line 3) ⟨"sums", 16⟩ with nextCta := ⟨1, 0, 0⟩ }

theorem lastTwoBlocks_reached : lastTwoBlocks.Reached 1 0 :=
  .cta (.bind (.line 3) (.line 3) ⟨"sums", 16⟩) rfl

end Launch

/-- Two blocks are left, with two lanes to a warp, and the hook goes over the threads of each. -/
theorem two_blocks_of_two_warps_issue_two_instructions :
    ∃ report stats, launch
        (LaunchPlan.logged ⟨[.placeholder, .placeholder], Launch.tallying, none⟩) .small
        Launch.lastTwoBlocks .empty (0, []) = .ok report ∧
      report.result = .ok stats ∧
      List.Forall₂ (Launch.Covers [.placeholder, .placeholder] .small Launch.lastTwoBlocks)
        (HookEvent.calls report.host.2)
        [(1, 0, 0), (1, 0, 1), (1, 1, 0), (1, 1, 1), (2, 0, 0), (2, 0, 1), (2, 1, 0), (2, 1, 1)] := by
  obtain ⟨report, stats, hrun, _, hok, hcalls⟩ :=
    @every_warp_of_every_block_issues_every_instruction_once Nat UInt64
      ⟨[.placeholder, .placeholder], Launch.tallying, none⟩ .small Launch.lastTwoBlocks (.line 3)
      (.line 3) ⟨"sums", 16⟩ 1 .empty 0 Device.small_sound Device.small_quiet rfl (by decide)
      (by decide) (by decide) (by decide) (by decide) (by decide) (by decide)
      (Launch.tallying_confined Device.small_sound Launch.lastTwoBlocks_reached (by decide) none
        .empty 0)
  exact ⟨report, stats, hrun, hok, hcalls⟩

end Simt
