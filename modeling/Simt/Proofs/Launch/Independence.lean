-- What a hook sees does not depend on what hooks did before. The slot is wiped after every issue
-- and takes its instruction from the program, so each call finds nothing of the calls before on
-- it. And where two hooks work on the same launch, they are called in the same places at the same
-- cycles, and the warps arrive at the same barriers.
import Simt.Proofs.Launch.Barriers
import Simt.Proofs.Launch.Coverage
import Simt.Proofs.Launch.Transcript
import Simt.Proofs.Launch.Twins

namespace Simt

variable {σ τ α β : Type}

/-! ## Clean slots -/

namespace Slot

variable {s : Slot α} {width : Nat}

/-- Nothing that a hook can record is on the slot. -/
structure Clean (s : Slot α) : Prop where
  atomic : s.atomic = false
  cacheMiss : ∀ lane, s.cacheMiss lane = false
  parkedAt : ∀ lane, s.parkedAt lane = none
  hasParked : ∀ lane, s.hasParked lane = false
  addr? : ∀ lane, s.addr? lane = none ∨ s.addr? lane = some 0

theorem clean_of_lanes (hatomic : s.atomic = false)
    (hlanes : ∀ l, s.lanes = some l → l = List.replicate width .fresh) : s.Clean := by
  have hlane : ∀ lane, s.lane? lane = none ∨ s.lane? lane = some .fresh := by
    intro lane
    cases hl : s.lane? lane with
    | none => exact .inl rfl
    | some l =>
      obtain ⟨lanes, hs, hget⟩ := Option.bind_eq_some_iff.mp hl
      rw [hlanes lanes hs] at hget
      rw [List.eq_of_mem_replicate (List.mem_of_getElem? hget)]
      exact .inr rfl
  refine ⟨hatomic, fun lane => ?_, fun lane => ?_, fun lane => ?_, fun lane => ?_⟩
  · rcases hlane lane with h | h <;> rw [cacheMiss, h] <;> rfl
  · rcases hlane lane with h | h <;> rw [Slot.parkedAt, h] <;> rfl
  · rcases hlane lane with h | h <;> rw [hasParked, h] <;> exact Bool.and_false _
  · rcases hlane lane with h | h <;> rw [addr?, h]
    · exact .inl rfl
    · exact .inr rfl

end Slot

namespace Launch

variable {plan : LaunchPlan σ α} {plan' : LaunchPlan τ β} {device : Device} {kernel : Kernel}
  {folder folder' : Folder} {host : σ} {host' : τ} {warp : Warp} {inst : Instruction} {cta : Cta}
  {width s m : Nat}

/-- The hook gets a clean slot, whatever instruction stands in it. -/
theorem occupy_clean {front : Front σ α} {slot : Slot α} (h : occupy inst warp front = .ok slot)
    (hs : front.slot.Idle width) : slot.Clean := by
  obtain ⟨active, _, h⟩ := Outcome.bind_eq_ok.mp h
  obtain ⟨_, _, _, _, hatomic, hlanes⟩ := Slot.issue_cases h
  have hfresh : ∀ l, slot.lanes = some l → l = List.replicate width .fresh := by
    rw [hlanes]
    exact hs.lanes
  exact Slot.clean_of_lanes (hatomic.trans hs.atomic) hfresh

theorem launch_clean {host : σ × List (HookEvent α)} {report : LaunchReport (σ × List (HookEvent α))}
    (hc : plan.hook.Confined device.warpSize) (hd : device.Sound) (hat : kernel.At s m)
    (hs : s < kernel.grid.reach) (hm : m < kernel.block.reach)
    (hfirst : ∀ call ∈ HookEvent.calls host.2, call.slot.Clean)
    (h : launch plan.logged device kernel folder host = .ok report) :
    ∀ call ∈ HookEvent.calls report.host.2, call.slot.Clean := by
  refine launch_keeps_host (P := fun host => ∀ call ∈ HookEvent.calls host.2, call.slot.Clean)
    hc.logged hd hat hs hm ?_ hfirst h
  intro folder cta inst warp front next slot edited host hissue hidle hp call hcall
  rw [hissue.calls] at hcall
  rcases List.mem_append.mp hcall with hbefore | hnew
  · exact hp call hbefore
  · obtain rfl := List.mem_singleton.mp hnew
    exact occupy_clean hissue.occupied hidle

/-- The calls of any launch go through the blocks, the program and the warps in order. -/
theorem launch_shows {host : σ} {report : LaunchReport (σ × List (HookEvent α))}
    (hc : plan.hook.Confined device.warpSize) (hd : device.Sound) (hat : kernel.At s m)
    (hs : s < kernel.grid.reach) (hm : m < kernel.block.reach)
    (h : launch plan.logged device kernel folder (host, []) = .ok report) :
    ∃ warpsPerCta n, List.Forall₂ (fun call t => Shows (ctaAt device kernel t.1) call t.2)
      (HookEvent.calls report.host.2) (tasks plan.program device kernel warpsPerCta s m n) := by
  have hnone : List.Forall₂ (fun call t => Shows (ctaAt device kernel t.1) call t.2)
      (HookEvent.calls ([] : List (HookEvent α))) (tasks plan.program device kernel 0 s m s) := by
    simp [HookEvent.calls, tasks]
  cases hbound : kernel.bound with
  | false =>
    rw [launch_unbound _ folder _ hbound] at h
    cases h
    exact ⟨0, s, hnone⟩
  | true =>
    rcases Nat.lt_or_ge device.config.maxWarps.toNat
      (warpsNeeded kernel.block.volume device.warpSize) with hlarge | hfits
    · rcases launch_cases hbound h with ⟨_, rfl⟩ | ⟨_, _, _, hbegins, _⟩
      · exact ⟨0, s, hnone⟩
      · exact absurd hbegins.fits (Nat.not_le.mpr hlarge)
    · obtain ⟨warpsPerCta, first, n, final, hbegins, _, hcalled, hend⟩ :=
        launch_calls hc hd hbound hat hs hm hfits h
      obtain ⟨slot, _, rfl⟩ := hbegins.start
      obtain ⟨calls, hcalls, hall⟩ := hcalled.calls
      have hlog : HookEvent.calls report.host.2 = calls := by
        rcases hend with ⟨rfl, _⟩ | ⟨_, _, _, rfl, hrefused⟩
        · exact hcalls
        · obtain ⟨_, _, _, _, _, _, rfl⟩ := executeCta_refused hrefused
          exact hcalls
      exact ⟨warpsPerCta, n, hlog ▸ hall⟩

/-- The calls of a log go through the blocks, the program and the warps in order. Each of them has
got a clean slot that holds the instruction of the program. -/
structure Presents (program : List Instruction) (device : Device) (kernel : Kernel)
    (s m : Nat) (log : List (HookEvent α)) : Prop where
  clean : ∀ call ∈ HookEvent.calls log, call.slot.Clean
  shows : ∃ warpsPerCta n, List.Forall₂
    (fun call t => Shows (ctaAt device kernel t.1) call t.2)
    (HookEvent.calls log) (tasks program device kernel warpsPerCta s m n)

theorem launch_presents {report : LaunchReport (σ × List (HookEvent α))} (hd : device.Sound)
    (hk : kernel.Reached s m)
    (hc : plan.hook.ConfinedIn (Calls plan device kernel folder host) device.warpSize)
    (h : launch plan.logged device kernel folder (host, []) = .ok report) :
    Presents plan.program device kernel s m report.host.2 := by
  obtain ⟨hat, hs, hm⟩ := hk.stands
  obtain ⟨g, hg, hagrees⟩ := hc.stand_in
  rw [← hagrees.launch_logged []] at h
  have hshows := launch_shows hg hd hat hs hm h
  exact ⟨launch_clean hg hd hat hs hm (by simp [HookEvent.calls]) h, hshows⟩

/-! ## Arrivals at barriers -/

/-- A warp arrives at a barrier in a launch: some blocks of the launch are done, some instructions
of the block are issued for all warps, and the next one, a barrier, for some warps. The SM is as
`before` then, and as `after` when the warp has issued the barrier. -/
inductive Arrival (plan : LaunchPlan σ α) (device : Device) (kernel : Kernel) (folder : Folder)
    (host : σ) : (blocks place number : Nat) → Cta → Warp → (before after : Sm) → Prop where
  | intro {warpsPerCta first blocks state opening insts inst insts' ws warp ws' mid front next}
      (begins : Begins device kernel folder host warpsPerCta first)
      (done : run plan warpsPerCta blocks first = .ok (.done state))
      (more : state.kernel.ctasDone = false)
      (opened : openCta warpsPerCta state = .ok opening)
      (taken : opening.admission.refused = false)
      (program : plan.program = insts ++ inst :: insts')
      (warps : opening.admission.taken = ws ++ warp :: ws')
      (issued : issueAll plan.hook state.folder opening.cta opening.admission.taken insts
        (opening.front state) = .ok mid)
      (turn : issueEach plan.hook state.folder opening.cta ws inst mid = .ok front)
      (issues : issue plan.hook state.folder opening.cta inst warp front = .ok next)
      (barrier : inst.op = .barrier)
      (arrives : front.sm.arrive opening.cta.index warp.id = .ok next.sm) :
      Arrival plan device kernel folder host blocks insts.length ws.length opening.cta warp
        front.sm next.sm

theorem issueAll_append {hook : Hook σ α} {warps : List Warp} {insts insts' : List Instruction}
    {front last : Front σ α}
    (h : issueAll hook folder cta warps (insts ++ inst :: insts') front = .ok last) :
    ∃ mid after, issueAll hook folder cta warps insts front = .ok mid ∧
      issueEach hook folder cta warps inst mid = .ok after := by
  rw [issueAll, List.foldlM_append] at h
  obtain ⟨mid, hmid, h⟩ := Outcome.bind_eq_ok.mp h
  rw [List.foldlM_cons] at h
  obtain ⟨after, hafter, _⟩ := Outcome.bind_eq_ok.mp h
  exact ⟨mid, after, hmid, hafter⟩

theorem issueEach_split {hook : Hook σ α} {ws ws' : List Warp} {mid last : Front σ α}
    (h : issueEach hook folder cta (ws ++ warp :: ws') inst mid = .ok last) :
    ∃ front next, issueEach hook folder cta ws inst mid = .ok front ∧
      issue hook folder cta inst warp front = .ok next := by
  rw [issueEach, List.foldlM_append] at h
  obtain ⟨front, hfront, h⟩ := Outcome.bind_eq_ok.mp h
  rw [List.foldlM_cons] at h
  obtain ⟨next, hnext, _⟩ := Outcome.bind_eq_ok.mp h
  exact ⟨front, next, hfront, hnext⟩

/-- A launch that goes through comes to every block that a launch with another hook comes to. -/
theorem reaches_twin {warpsPerCta : UInt32} {first state : State σ α} {blocks : Nat}
    {report' : LaunchReport τ} (hb : Begins device kernel folder host warpsPerCta first)
    (hat : kernel.At s m) (hs : s < kernel.grid.reach) (hm : m < kernel.block.reach)
    (hprogram : plan'.program = plan.program)
    (hdone : run plan warpsPerCta blocks first = .ok (.done state))
    (hmore : state.kernel.ctasDone = false)
    (h' : launch plan' device kernel folder' host' = .ok report') :
    ∃ first' state', Begins device kernel folder' host' warpsPerCta first' ∧
      run plan' warpsPerCta blocks first' = .ok (.done state') ∧
      state.Twin (fun _ _ => True) state' ∧
      ∃ last', executeCta plan' warpsPerCta state' = .ok last' := by
  have hkeep := Hook.keep_true plan.hook plan'.hook
  rcases launch_cases hb.bound h' with ⟨hlarge, _⟩ | ⟨warpsPerCta', first', last', hb', hrun', _⟩
  · exact absurd hb.fits (Nat.not_le.mpr hlarge)
  obtain rfl : warpsPerCta = warpsPerCta' := hb.warps.trans hb'.warps.symm
  have htwin : first.Twin (fun _ _ => True) first' := by
    obtain ⟨slot, _, rfl⟩ := hb.start
    obtain ⟨slot', _, rfl⟩ := hb'.start
    exact ⟨rfl, rfl, ⟨0, rfl⟩, rfl, trivial⟩
  have hlt : blocks < kernel.grid.volume := by
    obtain ⟨_, rfl, hat⟩ := hb.at hat
    have := (stands_first hat).after_more hs hm hdone hmore
    omega
  -- The other launch goes on past these blocks, or it was refused one of them, which the first
  -- launch was not.
  rcases run_split hrun' hlt.le with ⟨state', hdone', hrest⟩ | ⟨_, _, rfl, hrefused⟩
  · have hend := run_twin hkeep hprogram htwin _ _ hdone hdone'
    cases hend with
    | done hstate =>
      refine ⟨first', state', hb', hdone', hstate, ?_⟩
      obtain ⟨left, hleft⟩ : ∃ left, kernel.grid.volume - blocks = left + 1 :=
        ⟨kernel.grid.volume - blocks - 1, by omega⟩
      rw [hleft, run, ← hstate.kernel, hmore] at hrest
      obtain ⟨result, hresult, _⟩ := Outcome.bind_eq_ok.mp hrest
      exact ⟨result, hresult⟩
  · have hend := run_twin hkeep hprogram htwin _ _ hdone hrefused
    cases hend

/-- A block that was taken issues the whole program. -/
theorem executeCta_issues {warpsPerCta : UInt32} {state : State σ α} {last : BlockEnd σ α}
    {opening : Opening} (h : executeCta plan warpsPerCta state = .ok last)
    (hopen : openCta warpsPerCta state = .ok opening) (htaken : opening.admission.refused = false) :
    ∃ front, issueAll plan.hook state.folder opening.cta opening.admission.taken plan.program
      (opening.front state) = .ok front := by
  rw [executeCta, hopen, Outcome.ok_bind, htaken] at h
  obtain ⟨front, hfront, _⟩ := Outcome.bind_eq_ok.mp h
  exact ⟨front, hfront⟩

/-- Every arrival of a launch is one of any other launch that goes through, with another hook. -/
theorem Arrival.twin {report' : LaunchReport τ} {blocks place number : Nat} {before after : Sm}
    (h : Arrival plan device kernel folder host blocks place number cta warp before after)
    (hat : kernel.At s m) (hs : s < kernel.grid.reach) (hm : m < kernel.block.reach)
    (hprogram : plan'.program = plan.program)
    (h' : launch plan' device kernel folder' host' = .ok report') :
    Arrival plan' device kernel folder' host' blocks place number cta warp before after := by
  have hkeep := Hook.keep_true plan.hook plan'.hook
  obtain ⟨hb, hdone, hmore, hopen, htaken, hsplit, hwarps, hissued, hturn, hissues, hbarrier,
    harrives⟩ := h
  obtain ⟨first', state', hb', hdone', hstate, last', hlast'⟩ :=
    reaches_twin hb hat hs hm hprogram hdone hmore h'
  have hopen' := hstate.openCta.trans hopen
  obtain ⟨_, hall⟩ := executeCta_issues hlast' hopen' htaken
  rw [hprogram, hsplit] at hall
  obtain ⟨mid', _, hissued', heach⟩ := issueAll_append hall
  have hmid := issueAll_twin hkeep (hstate.starts _) _ _ hissued hissued'
  rw [hwarps] at heach
  obtain ⟨front', next', hturn', hissues'⟩ := issueEach_split heach
  have hfront := issueEach_twin hkeep hmid _ _ hturn hturn'
  have hnext := issue_twin hkeep hfront _ _ hissues hissues'
  have harrives' := harrives
  rw [hfront.sm, hnext.sm] at harrives'
  have harrival := Arrival.intro hb' hdone' (hstate.kernel ▸ hmore) hopen' htaken
    (hprogram.trans hsplit) hwarps hissued' hturn' hissues' hbarrier harrives'
  rwa [← hfront.sm, ← hnext.sm] at harrival

end Launch

/-! ## Two hooks -/

/-- Whatever the calls before have recorded, a hook is called with a clean slot that holds the
instruction of the program. The contexts of the calls, with their cycles, are the same for any two
hooks with which the launch goes through. So are the arrivals at barriers, with the SMs before and
after them, the devices and kernels that are left, and all counts but that of the deliveries. -/
theorem what_a_hook_sees_does_not_depend_on_hooks {plan : LaunchPlan σ α} {plan' : LaunchPlan τ β}
    {device : Device} {kernel : Kernel} {folder folder' : Folder} {host : σ} {host' : τ} {s m : Nat}
    {report : LaunchReport σ} {report' : LaunchReport τ} (hd : device.Sound)
    (hk : kernel.Reached s m) (hprogram : plan'.program = plan.program)
    (hc : plan.hook.ConfinedIn (Launch.Calls plan device kernel folder host) device.warpSize)
    (hc' : plan'.hook.ConfinedIn (Launch.Calls plan' device kernel folder' host') device.warpSize)
    (h : launch plan device kernel folder host = .ok report)
    (h' : launch plan' device kernel folder' host' = .ok report') :
    ∃ log log', launch plan.logged device kernel folder (host, []) = .ok (report.mapHost (·, log)) ∧
      launch plan'.logged device kernel folder' (host', []) = .ok (report'.mapHost (·, log')) ∧
      Launch.Presents plan.program device kernel s m log ∧
      Launch.Presents plan.program device kernel s m log' ∧
      HookEvent.contexts log' = HookEvent.contexts log ∧
      (∀ blocks place number cta warp before after,
        Launch.Arrival plan device kernel folder host blocks place number cta warp before after ↔
          Launch.Arrival plan' device kernel folder' host' blocks place number cta warp before
            after) ∧
      report'.device = report.device ∧ report'.kernel = report.kernel ∧
      ∃ atomics, report'.result = report.result.map ({ · with atomics }) := by
  obtain ⟨hat, hs, hm⟩ := hk.stands
  have hlogged := h
  rw [launch_logged plan device kernel folder host []] at hlogged
  obtain ⟨logged, hrun, rfl⟩ := Outcome.map_eq_ok.mp hlogged
  have hlogged' := h'
  rw [launch_logged plan' device kernel folder' host' []] at hlogged'
  obtain ⟨logged', hrun', rfl⟩ := Outcome.map_eq_ok.mp hlogged'
  have htwin := @launch_twin _ _ _ _ _ plan.logged plan'.logged device kernel folder folder'
    (host, []) (host', []) (Hook.keep_contexts plan.hook plan'.hook) hprogram rfl _ _ hrun hrun'
  refine ⟨logged.host.2, logged'.host.2, hrun, hrun', Launch.launch_presents hd hk hc hrun, ?_,
    htwin.host.symm, fun blocks place number cta warp before after => ?_, htwin.device.symm,
    htwin.kernel.symm, htwin.result⟩
  · rw [← hprogram]
    exact Launch.launch_presents hd hk hc' hrun'
  · exact ⟨fun ha => ha.twin hat hs hm hprogram h', fun ha => ha.twin hat hs hm hprogram.symm h⟩

namespace Launch

def talliesAndWaits : LaunchPlan Nat UInt64 := ⟨[barrier, .placeholder], tallying, none⟩

def meddles : LaunchPlan Nat Unit := ⟨[barrier, .placeholder], meddling, none⟩

end Launch

/-- One hook parks work for each thread, and the other changes the instructions and parks work for
each lane. Twelve pieces of work are delivered and sixteen, and both hooks are called with the same
contexts. -/
theorem two_hooks_are_called_in_the_same_places :
    ∃ (report report' : LaunchReport Nat) (log : List (HookEvent UInt64))
      (log' : List (HookEvent Unit)),
      launch Launch.talliesAndWaits.logged .small Launch.twoOfThree .empty (0, []) =
        .ok (report.mapHost (·, log)) ∧
      launch Launch.meddles.logged .small Launch.twoOfThree .empty (7, []) =
        .ok (report'.mapHost (·, log')) ∧
      report.result = .ok ⟨2, 4, 6, 8, 12, 8⟩ ∧ report'.result = .ok ⟨2, 4, 6, 8, 16, 8⟩ ∧
      Launch.Presents [Launch.barrier, .placeholder] .small Launch.twoOfThree 0 0 log' ∧
      HookEvent.contexts log' = HookEvent.contexts log ∧ report'.device = report.device := by
  have hrun : (launch Launch.talliesAndWaits .small Launch.twoOfThree .empty 0).map (·.result) =
      .ok (.ok ⟨2, 4, 6, 8, 12, 8⟩) := by cbv
  have hrun' : (launch Launch.meddles .small Launch.twoOfThree .empty 7).map (·.result) =
      .ok (.ok ⟨2, 4, 6, 8, 16, 8⟩) := by cbv
  obtain ⟨report, h, hok⟩ := Outcome.map_eq_ok.mp hrun
  obtain ⟨report', h', hok'⟩ := Outcome.map_eq_ok.mp hrun'
  have hk := Launch.twoOfThree_reached
  have hprogram : Launch.meddles.program = Launch.talliesAndWaits.program := rfl
  obtain ⟨log, log', hlogged, hlogged', _, hpresents, hcontexts, _, hdevice, _⟩ :=
    @what_a_hook_sees_does_not_depend_on_hooks _ _ _ _ Launch.talliesAndWaits Launch.meddles _ _
      _ _ _ _ 0 0 report report' Device.small_sound hk hprogram
      (Launch.tallying_confined Device.small_sound hk (by decide) none .empty 0)
      (Launch.meddling_confined Device.small_sound hk none .empty 7) h h'
  exact ⟨report, report', log, log', hlogged, hlogged', hok, hok', hpresents, hcontexts, hdevice⟩

end Simt
