-- The launch of the histogram. The warps of a block share out its threads, whatever their width
-- is, and the blocks hold more threads than count. So the threads that count add one each to their
-- bins, in the order of their numbers.
import Simt.Proofs.Demo.Hook
import Simt.Proofs.Launch.Coverage
import Simt.Proofs.Launch.History

namespace Simt.Demo

open Launch

variable {device : Device} {f width : Nat} {warpsPerCta : UInt32}

/-! ## The launch of the program -/

def plan : LaunchPlan Memory Nat := { program, hook, sink := none }

/-- Eight blocks of 128 threads. -/
def kernel : Kernel := .bind (.line 8) (.line threadsPerBlock) entry

theorem launchConfig_kernel : ∃ config, launchConfig = .ok config ∧ config.kernel entry = kernel :=
  ⟨_, rfl, rfl⟩

/-- The plan with a hook that does nothing outside of the blocks of the program. -/
noncomputable def confined (width : Nat) : LaunchPlan Memory Nat :=
  { plan with hook := guarded width }

theorem kernel_reached : kernel.Reached 0 0 := .bind (.line 8) (.line threadsPerBlock) entry

theorem kernel_at : kernel.At 0 0 ∧ 0 < kernel.grid.reach ∧ 0 < kernel.block.reach :=
  kernel_reached.stands

theorem inside_of_gives (hd : device.Sound) {ctx : IssueContext} (h : Gives device kernel 0 0 ctx) :
    Inside device.warpSize ctx :=
  ⟨h.block, h.short hd⟩

theorem inside_context {warp : Warp} (hd : device.Sound)
    (h : warp ∈ warpsOf device kernel warpsPerCta 0 0 f) (cycle : UInt64) :
    Inside device.warpSize (context (ctaAt device kernel f) warp cycle) :=
  ⟨rfl, threads_of_mem_warpsOf hd h⟩

/-! ## The threads of the launch -/

/-- The warps of a block have all of its threads, in order. -/
theorem warpsOf_threads {kernel : Kernel} (hd : device.Sound) (warpsPerCta : UInt32) (s f : Nat) :
    (warpsOf device kernel warpsPerCta s 0 f).flatMap Warp.threads =
      (List.range kernel.block.volume).map UInt32.ofNat := by
  rw [List.flatMap_def, warpsOf, named_threads, handedOut_zero, share,
    flatten_pieces hd.warpSize_pos, Nat.sub_zero, List.range_eq_range']

/-- The numbers of the threads that add to a bin, when a warp of a block issues an instruction. -/
def addersOf (t : Nat × Instruction × Warp) : List Nat :=
  if t.2.1.op = .store then
    (t.2.2.threads.map fun thread => t.1 * kernel.block.volume + thread.toNat).filter
      (· < threadCount.toNat)
  else []

theorem adders_of_shows {call : HookCall Nat} {t : Nat × Instruction × Warp} (ht : t.1 < 8)
    (h : Shows (ctaAt device kernel t.1) call t.2) : adders call = addersOf t := by
  obtain ⟨cycle, hctx⟩ := h.context
  have hindex : (UInt32.ofNat t.1).toNat = t.1 :=
    UInt32.toNat_ofNat_of_lt' (by simp only [UInt32.size]; omega)
  have hnumbers : call.context.numbers =
      t.2.2.threads.map fun thread => t.1 * kernel.block.volume + thread.toNat := by
    rw [IssueContext.numbers, hctx]
    simp only [context, ctaAt, hindex]
  simp only [adders, addersOf, stores, h.inst, hnumbers, decide_eq_true_eq]

theorem block_adders (hd : device.Sound) (f : Nat) :
    (program ×ˢ warpsOf device kernel warpsPerCta 0 0 f).flatMap (fun t => addersOf (f, t)) =
      ((List.range kernel.block.volume).map (f * kernel.block.volume + ·)).filter
        (· < threadCount.toNat) := by
  have hwords : ((List.range kernel.block.volume).map UInt32.ofNat).map
      (fun thread => f * kernel.block.volume + thread.toNat) =
        (List.range kernel.block.volume).map (f * kernel.block.volume + ·) := by
    rw [List.map_map]
    refine List.map_congr_left fun i hi => ?_
    have hlt : i < 128 := List.mem_range.mp hi
    rw [Function.comp_apply, UInt32.toNat_ofNat_of_lt' (by simp only [UInt32.size]; omega)]
  have hnone : ∀ warps : List Warp, warps.flatMap (fun _ => ([] : List Nat)) = [] := fun warps =>
    List.flatMap_eq_nil_iff.mpr fun _ _ => rfl
  rw [← hwords, ← warpsOf_threads hd warpsPerCta 0 f, List.map_flatMap,
    List.filter_flatMap]
  -- Of the three instructions only the atomic adds anything.
  simp [program, addersOf, instruction, List.product_cons, List.flatMap_append, List.flatMap_map,
    hnone]

/-- Over the whole launch, the threads that count add to their bins one after the other. -/
theorem tasks_adders (hd : device.Sound) :
    (tasks program device kernel warpsPerCta 0 0 8).flatMap addersOf =
      List.range threadCount.toNat := by
  have hblocks : (tasks program device kernel warpsPerCta 0 0 8).flatMap addersOf =
      (List.range 8).flatMap fun f =>
        ((List.range kernel.block.volume).map (f * kernel.block.volume + ·)).filter
          (· < threadCount.toNat) := by
    rw [tasks, List.flatMap_assoc, Nat.sub_zero, ← List.range_eq_range']
    exact List.flatMap_congr fun f _ => by rw [List.flatMap_map, block_adders hd]
  rw [hblocks, ← List.filter_flatMap, Dim3.range_tile]
  exact Mask.filter_range_lt (by decide)

/-- The first warp of a block is full. -/
theorem first_warp (hd : device.Sound) (warpsPerCta : UInt32) : ∃ warp rest,
    warpsOf device kernel warpsPerCta 0 0 0 = warp :: rest ∧
      warp.threads.length = device.warpSize := by
  have hpos := hd.warpSize_pos
  have hle : device.warpSize ≤ 128 := hd.warpSize_le.trans (by decide)
  have hvolume : kernel.block.volume = 128 := rfl
  have hsome : 0 < warpsNeeded kernel.block.volume device.warpSize := by
    rw [warpsNeeded, hvolume]
    exact Nat.div_pos (by omega) hpos
  have hfirst := @warpsOf_getElem? device kernel warpsPerCta 0 0 hd 0 hsome
  obtain ⟨warp, rest, hwarps⟩ := List.exists_cons_of_ne_nil
    (l := warpsOf device kernel warpsPerCta 0 0 0) (by rintro h; simp [h] at hfirst)
  refine ⟨warp, rest, hwarps, ?_⟩
  rw [hwarps, List.getElem?_cons_zero, Option.some.injEq] at hfirst
  simp only [hfirst, List.length_map, List.length_range', hvolume]
  omega

/-- The instruction that adds. -/
def atomic : Instruction := program[1]

/-- The first atomic is issued for the first warp of the first block. -/
theorem first_atomic (hd : device.Sound) (warpsPerCta : UInt32) : ∃ warp,
    (tasks program device kernel warpsPerCta 0 0 8).find? (·.2.1.op = .store) =
        some (0, atomic, warp) ∧
      warp.threads.length = device.warpSize := by
  obtain ⟨warp, rest, hwarps, hlength⟩ := first_warp hd warpsPerCta
  have hnone : rest.find? (fun _ => false) = none := List.find?_eq_none.mpr fun _ _ h => by cases h
  refine ⟨warp, ?_, hlength⟩
  -- Before the atomic only the first instruction is issued.
  simp [tasks, List.range'_succ, hwarps, atomic, program, List.product_cons, List.find?_append,
    instruction, hnone]

/-! ## Lists that match -/

theorem forall₂_left {β γ : Type} {R : β → γ → Prop} {P : β → Prop} {as : List β} {bs : List γ}
    (hall : List.Forall₂ R as bs) (hR : ∀ a, ∀ b ∈ bs, R a b → P a) : ∀ a ∈ as, P a := by
  induction hall with
  | nil => simp
  | cons hab _ ih =>
    rw [List.forall_mem_cons]
    exact ⟨hR _ _ List.mem_cons_self hab, ih fun a b hb => hR a b (List.mem_cons_of_mem _ hb)⟩

theorem forall₂_flatMap {β γ δ : Type} {R : β → γ → Prop} {as : List β} {bs : List γ}
    {g : β → List δ} {h : γ → List δ} (hall : List.Forall₂ R as bs)
    (hR : ∀ a, ∀ b ∈ bs, R a b → g a = h b) : as.flatMap g = bs.flatMap h := by
  induction hall with
  | nil => rfl
  | cons hab _ ih =>
    rw [List.flatMap_cons, List.flatMap_cons, hR _ _ List.mem_cons_self hab,
      ih fun a b hb => hR a b (List.mem_cons_of_mem _ hb)]

theorem forall₂_find? {β γ : Type} {R : β → γ → Prop} {as : List β} {bs : List γ} {b : γ}
    {p : β → Bool} {q : γ → Bool} (hall : List.Forall₂ R as bs) (hR : ∀ a b, R a b → p a = q b)
    (hb : bs.find? q = some b) : ∃ a, as.find? p = some a ∧ R a b := by
  induction hall with
  | nil => cases hb
  | @cons a c as bs hac _ ih =>
    rw [List.find?_cons] at hb ⊢
    rw [hR a c hac]
    split at hb
    · cases hb
      exact ⟨a, rfl, hac⟩
    · exact ih hb

/-! ## What the program remembers -/

/-- What a launch of the program has recorded at any time. -/
structure Recorded (width : Nat) (host : Memory × List (HookEvent Nat)) : Prop where
  widths : ∀ call ∈ HookEvent.calls host.2, call.slot.width = width
  replayed : (∀ call ∈ HookEvent.calls host.2, Inside width call.context) →
    host = replay (HookEvent.calls host.2)

theorem issue_recorded {folder : Folder} {cta : Cta} {inst : Instruction} {warp : Warp}
    {front next : Front (Memory × List (HookEvent Nat)) Nat} {slot edited : Slot Nat}
    {host : Memory × List (HookEvent Nat)}
    (h : Issue (confined width).logged.hook folder cta inst warp front next slot edited host)
    (hs : front.slot.Idle width) (hr : Recorded width front.host) : Recorded width next.host := by
  have hcalls := h.calls
  refine ⟨fun call hcall => ?_, fun hinside => ?_⟩
  · rw [hcalls] at hcall
    rcases List.mem_append.mp hcall with hbefore | hnew
    · exact hr.widths call hbefore
    · obtain rfl := List.mem_singleton.mp hnew
      exact (occupy_unparked h.occupied hs).1
  · rw [hcalls, List.forall_mem_append] at hinside
    rw [hcalls]
    exact issue_replays h hs (hinside.2 _ (List.mem_singleton_self _)) (hr.replayed hinside.1)

theorem launch_recorded (hd : device.Sound) {folder : Folder}
    {report : LaunchReport (Memory × List (HookEvent Nat))}
    (h : launch (confined device.warpSize).logged device kernel folder (.start, []) = .ok report) :
    Recorded device.warpSize report.host := by
  obtain ⟨hat, hs, hm⟩ := kernel_at
  refine launch_keeps_host (P := Recorded device.warpSize) (guarded_confined device.warpSize).logged hd
    hat hs hm (fun _ _ _ _ _ _ _ _ _ hissue hidle hr => issue_recorded hissue hidle hr) ⟨?_, ?_⟩ h
  · simp [HookEvent.calls]
  · exact fun _ => rfl

/-! ## The outcome of the launch -/

/-- The slot of the first atomic, as text. -/
theorem text_of_full {slot : Slot Nat} (hinst : slot.inst = atomic) (hwidth : slot.width = width)
    (hlanes : slot.active.lanes = List.range width) :
    slot.text = " [inst @ pc=0x0008] " ++ String.ofList (List.replicate width '1') := by
  have hmask : (List.range slot.width).reverse.map
      (fun lane => if slot.active.test lane then '1' else '0') = List.replicate width '1' := by
    rw [List.eq_replicate_iff]
    refine ⟨by simp [hwidth], fun c hc => ?_⟩
    obtain ⟨lane, hlane, rfl⟩ := List.mem_map.mp hc
    rw [List.mem_reverse, hwidth, ← hlanes, Mask.lanes, List.mem_filter] at hlane
    rw [hlane.2, if_pos rfl]
  rw [Slot.text, Slot.maskText, hmask, hinst]
  congr 1
  decide +kernel

theorem mem_tasks {t : Nat × Instruction × Warp} {n : Nat}
    (h : t ∈ tasks program device kernel warpsPerCta 0 0 n) :
    t.1 < n ∧ t.2.2 ∈ warpsOf device kernel warpsPerCta 0 0 t.1 := by
  obtain ⟨f, hf, ht⟩ := List.mem_flatMap.mp h
  obtain ⟨u, hu, rfl⟩ := List.mem_map.mp ht
  have hlt := (List.mem_range'_1.mp hf).2
  exact ⟨by omega, (List.mem_product.mp hu).2⟩

/-- What the program has done when every block is executed. -/
structure Counted (host : Memory × List (HookEvent Nat)) : Prop where
  /-- A call is followed by one delivery for each thread that adds, and it goes to its bin. -/
  log : host.2 = (HookEvent.calls host.2).flatMap entries
  /-- Each thread that counts has added once. -/
  adders : (HookEvent.calls host.2).flatMap adders = List.range threadCount.toNat
  bins : host.1.bins = (List.range binCount).map fun bin =>
    UInt32.ofNat ((List.range threadCount.toNat).countP (· % binCount = bin))

theorem Counted.deliveries {host : Memory × List (HookEvent Nat)} (h : Counted host) :
    (HookEvent.deliveries host.2).length = 1000 := by
  have hentries : ∀ calls : List (HookCall Nat),
      (HookEvent.deliveries (calls.flatMap entries)).length = (calls.flatMap Demo.adders).length := by
    intro calls
    induction calls with
    | nil => rfl
    | cons call rest ih =>
      simp only [HookEvent.deliveries] at ih
      simp [HookEvent.deliveries, entries, List.filterMap_append, ih]
  rw [h.log, hentries, h.adders, List.length_range]
  rfl

/-- In a launch that goes through, the hook was called for all blocks. -/
theorem launch_tasks (hd : device.Sound) {folder : Folder}
    {report : LaunchReport (Memory × List (HookEvent Nat))} {stats : Stats}
    (hfits : warpsNeeded 128 device.warpSize ≤ device.config.maxWarps.toNat)
    (h : launch (confined device.warpSize).logged device kernel folder (.start, []) = .ok report)
    (hok : report.result = .ok stats) :
    ∃ warpsPerCta, List.Forall₂ (fun call t => Shows (ctaAt device kernel t.1) call t.2)
      (HookEvent.calls report.host.2) (tasks program device kernel warpsPerCta 0 0 8) := by
  obtain ⟨hat, hs, hm⟩ := kernel_at
  obtain ⟨warpsPerCta, first, n, final, hbegins, _, hcalled, hend⟩ :=
    launch_calls (guarded_confined device.warpSize) hd rfl hat hs hm hfits h
  rcases hend with ⟨rfl, _, hn⟩ | ⟨_, _, _, rfl, _⟩
  · obtain ⟨slot, _, rfl⟩ := hbegins.start
    obtain ⟨calls, hcalls, hall⟩ := hcalled.calls
    have hlog : HookEvent.calls final.host.2 = calls := hcalls
    obtain rfl : n = 8 := hn
    exact ⟨warpsPerCta, hlog ▸ hall⟩
  · cases hok

/-- A launch that goes through has counted right, and remembers the first atomic. -/
theorem launch_counted (hd : device.Sound) {folder : Folder}
    {report : LaunchReport (Memory × List (HookEvent Nat))} {stats : Stats}
    (hfits : warpsNeeded 128 device.warpSize ≤ device.config.maxWarps.toNat)
    (h : launch (confined device.warpSize).logged device kernel folder (.start, []) = .ok report)
    (hok : report.result = .ok stats) :
    Counted report.host ∧ report.host.1.sample =
      some (" [inst @ pc=0x0008] " ++ String.ofList (List.replicate device.warpSize '1')) := by
  have hrecorded := launch_recorded hd h
  obtain ⟨warpsPerCta, hall⟩ := launch_tasks hd hfits h hok
  have hinside : ∀ call ∈ HookEvent.calls report.host.2,
      Inside device.warpSize call.context := by
    refine forall₂_left hall fun call t ht hshows => ?_
    obtain ⟨cycle, hctx⟩ := hshows.context
    rw [hctx]
    exact inside_context hd (mem_tasks ht).2 cycle
  have hhost := hrecorded.replayed hinside
  have hadders : (HookEvent.calls report.host.2).flatMap adders = List.range threadCount.toNat :=
    (forall₂_flatMap hall fun call t ht hshows => adders_of_shows (mem_tasks ht).1 hshows).trans
      (tasks_adders hd)
  have hbins : report.host.1.bins =
      ((HookEvent.calls report.host.2).flatMap adders).foldl add Memory.start.bins :=
    congrArg (·.1.bins) hhost
  have hsample : report.host.1.sample =
      ((HookEvent.calls report.host.2).find? stores).map (·.slot.text) :=
    congrArg (·.1.sample) hhost
  refine ⟨⟨congrArg Prod.snd hhost, hadders, ?_⟩, ?_⟩
  · rw [hbins, hadders, foldl_add, Memory.start]
    exact List.ext_getElem (by simp) fun bin _ _ => by simp
  · obtain ⟨warp, hfirst, hlength⟩ := first_atomic hd warpsPerCta
    obtain ⟨call, hcall, hshows⟩ := forall₂_find? (p := stores) hall
      (fun call t hshows => by rw [stores, hshows.inst]) hfirst
    have hwidth := hrecorded.widths call (List.mem_of_find?_eq_some hcall)
    have hlanes := hshows.lanes
    rw [hlength] at hlanes
    rw [hsample, hcall, Option.map_some, text_of_full hshows.inst hwidth hlanes]

/-- The statistics of the launch, where a block needs a number of warps. -/
structure Figures (needed : Nat) (stats : Stats) : Prop where
  blocks : stats.blocks.toNat = 8
  warps : stats.warps.toNat = 8 * needed
  threads : stats.threads.toNat = 1024
  issued : stats.issued.toNat = 24 * needed
  atomics : stats.atomics.toNat = 1000
  cycles : stats.cycles.toNat = 24 * needed

/-- The launch goes through where an SM can hold a block. -/
theorem launch_finishes (hd : device.Sound) (hv : device.Vacant)
    (hreleased : ∀ sm ∈ device.sms, sm.released = 0)
    (hfits : warpsNeeded 128 device.warpSize ≤ device.config.maxWarps.toNat) :
    ∃ report stats, launch plan.logged device kernel .empty (.start, []) = .ok report ∧
      report.result = .ok stats ∧ Counted report.host ∧
      report.host.1.sample =
        some (" [inst @ pc=0x0008] " ++ String.ofList (List.replicate device.warpSize '1')) ∧
      Figures (warpsNeeded 128 device.warpSize) stats := by
  obtain ⟨hat, hs, hm⟩ := kernel_at
  have hc := (guarded_confined device.warpSize).logged
  have hgrid : kernel.grid.volume = 8 := rfl
  have hblock : kernel.block.volume = 128 := rfl
  have hlength : (confined device.warpSize).logged.program.length = 3 := rfl
  have hcost : ((confined device.warpSize).logged.program.map Instruction.cost).sum = 3 := rfl
  have hcount : warpsNeeded 128 device.warpSize ≤ 128 := warpsNeeded_le hd.warpSize_pos 128
  have hwarps : warpsLeft device kernel 0 0 0 = 8 * warpsNeeded 128 device.warpSize :=
    warpsLeft_zero hd 0 0
  have hfit : (Totals.ofLaunch (confined device.warpSize).logged.program device kernel 0 0).Fit :=
    Totals.ofLaunch_fit hd (by decide) (by decide)
      (by rw [hwarps, hlength]; simp only [UInt64.size]; omega)
      (by rw [hwarps, hcost]; simp only [UInt64.size]; omega)
  obtain ⟨report, stats, hrun, hok⟩ : ∃ report stats,
      launch (confined device.warpSize).logged device kernel .empty (.start, []) = .ok report ∧
        report.result = .ok stats := by
    refine launch_ok hc hd hv.quiet rfl hat hs hm (by decide) (by decide) hfits ?_ hfit ?_
    · rw [hgrid, hblock]
      simp only [UInt32.size]
      omega
    · intro sm hsm
      rw [hreleased sm hsm, hwarps, hlength, UInt64.toNat_zero]
      simp only [UInt64.size]
      omega
  obtain ⟨counted, hcounted, hblocks, hwarps', hthreads, hissued, hcycles⟩ :=
    launch_stats hc hd hv.quiet rfl hat hs hm hfits hrun
  rw [hok, Except.ok.injEq] at hcounted
  subst hcounted
  obtain ⟨hall, hsample⟩ := launch_counted hd hfits hrun hok
  have hatomics := launch_delivers (guarded_confined device.warpSize) hd rfl hat hs hm hrun hok
  have hagrees : (guarded device.warpSize).Agrees (Calls plan device kernel .empty .start) plan.hook :=
    (hook.within_agrees _).mono fun _ _ hcall => inside_of_gives hd (hcall.gives kernel_reached)
  have hlogged : launch plan.logged device kernel .empty (.start, []) = .ok report :=
    (hagrees.launch_logged []).symm.trans hrun
  rw [hwarps] at hwarps' hissued hcycles
  rw [hlength] at hissued
  rw [hcost] at hcycles
  refine ⟨report, stats, hlogged, hok, hall, hsample, hblocks, hwarps', ?_, ?_, ?_, ?_⟩
  · rw [hthreads, threadsLeft_zero]
    rfl
  · omega
  · rw [hatomics, hall.deliveries]
  · omega

end Simt.Demo
