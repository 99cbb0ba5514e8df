-- Launches within their range. Whatever is resident on the SMs, a launch comes to an answer as
-- long as its counts have room. The warps of a block take over ids that are in use, and from
-- then on they can take their turns. What the SMs release is paid for by the issues of the launch
-- and by the warps that leave.
import Simt.Proofs.Launch.Contexts
import Simt.Proofs.Launch.Totals

namespace Simt

namespace Launch

variable {σ α : Type} {plan : LaunchPlan σ α} {warpsPerCta : UInt32} {device : Device}
  {kernel : Kernel} {folder : Folder} {host : σ} {first state next : State σ α} {s m n : Nat}

/-! ## Devices through launches -/

theorem executeCta_sound {last : BlockEnd σ α} (places : Nat) (hd : state.device.Sound)
    (h : executeCta plan warpsPerCta state = .ok last) : (last.report places).device.Sound := by
  cases last with
  | done next =>
    obtain ⟨opening, front, hopen, _, hissue, hfin⟩ := executeCta_done h
    obtain ⟨sm, hsm, henter⟩ := openCta_sm hopen
    obtain ⟨left, hleave, hdevice⟩ := hfin.device
    have hconf : left.config = sm.config :=
      ((leave_cases hleave).2.trans (issueAll_released_le hissue).2).trans (enter_same henter).2
    rw [BlockEnd.report, hdevice]
    exact hd.set hsm hconf
  | refused warps next =>
    obtain ⟨opening, left, hopen, _, _, hleave, rfl⟩ := executeCta_refused h
    obtain ⟨sm, hsm, henter⟩ := openCta_sm hopen
    exact hd.set hsm ((leave_cases hleave).2.trans (enter_same henter).2)

/-- A launch that comes to an answer leaves the device sound. -/
theorem launch_sound {report : LaunchReport σ} (hd : device.Sound)
    (h : launch plan device kernel folder host = .ok report) : report.device.Sound := by
  cases hbound : kernel.bound with
  | false =>
    rw [launch, hbound] at h
    cases h
    exact hd
  | true =>
    rcases launch_cases hbound h with ⟨_, rfl⟩ | ⟨warpsPerCta, first, last, hbegins, hrun, rfl⟩
    · exact hd
    · obtain ⟨slot, _, rfl⟩ := hbegins.start
      obtain ⟨_, final, hfinal, hlast⟩ := run_keeps
        (P := fun _ (state : State σ α) => state.device.Sound)
        (fun k state next hsound _ hdone => executeCta_sound 0 hsound hdone) hd hrun
      rcases hlast with ⟨rfl, _⟩ | ⟨warps, refused, rfl, _, _, hrefused⟩
      · exact hfinal
      · exact executeCta_sound _ hfinal hrefused

/-! ## What a launch spends -/

/-- A launch comes to execute a block: the blocks before are done, and the SM takes the block. -/
inductive Executing (plan : LaunchPlan σ α) (device : Device) (kernel : Kernel) (folder : Folder)
    (host : σ) : State σ α → Opening → Prop where
  | intro {warpsPerCta first blocks state opening}
      (begins : Begins device kernel folder host warpsPerCta first)
      (before : run plan warpsPerCta blocks first = .ok (.done state))
      (more : state.kernel.ctasDone = false)
      (opened : openCta warpsPerCta state = .ok opening)
      (taken : opening.admission.refused = false) :
      Executing plan device kernel folder host state opening

/-- The blocks that a launch executes, each with the blocks before it, issue at most so many
instructions, in at most so many cycles. -/
structure Spends (plan : LaunchPlan σ α) (device : Device) (kernel : Kernel) (folder : Folder)
    (host : σ) (issues cycles : Nat) : Prop where
  issues : ∀ state opening, Executing plan device kernel folder host state opening →
    state.stats.issued.toNat + plan.program.length * opening.admission.taken.length ≤ issues
  cycles : ∀ state opening, Executing plan device kernel folder host state opening →
    state.stats.cycles.toNat +
      (plan.program.map Instruction.cost).sum * opening.admission.taken.length ≤ cycles

/-- A launch with another hook executes the same blocks, if the hooks agree where it calls them. -/
theorem executing_agrees {g : Hook σ α} {opening : Opening}
    (hg : g.Agrees (Calls plan device kernel folder host) plan.hook) :
    Executing { plan with hook := g } device kernel folder host state opening ↔
      Executing plan device kernel folder host state opening := by
  constructor
  · rintro ⟨hbegins, hbefore, hmore, hopen, htaken⟩
    rw [hbegins.run_agrees hg] at hbefore
    exact .intro hbegins hbefore hmore hopen htaken
  · rintro ⟨hbegins, hbefore, hmore, hopen, htaken⟩
    rw [← hbegins.run_agrees hg] at hbefore
    exact .intro hbegins hbefore hmore hopen htaken

theorem spends_agrees {g : Hook σ α} {issues cycles : Nat}
    (hg : g.Agrees (Calls plan device kernel folder host) plan.hook) :
    Spends { plan with hook := g } device kernel folder host issues cycles ↔
      Spends plan device kernel folder host issues cycles := by
  constructor
  · intro h
    exact ⟨fun state opening ho => h.issues state opening ((executing_agrees hg).mpr ho),
      fun state opening ho => h.cycles state opening ((executing_agrees hg).mpr ho)⟩
  · intro h
    exact ⟨fun state opening ho => h.issues state opening ((executing_agrees hg).mp ho),
      fun state opening ho => h.cycles state opening ((executing_agrees hg).mp ho)⟩

/-- What a block that is executed adds to the counts is a part of the forecast. -/
theorem Executing.planned {opening : Opening}
    (h : Executing plan device kernel folder host state opening)
    (hc : plan.hook.Confined device.warpSize) (hd : device.Sound) (hat : kernel.At s m)
    (hs : s < kernel.grid.reach) (hm : m < kernel.block.reach) :
    ∃ (n : Nat) (first : State σ α), first.device = device ∧ first.kernel = kernel ∧
      n < kernel.grid.volume ∧ Planned plan first s m n state ∧
      opening.admission.taken.length =
        (share kernel.block device.warpSize (handedOut s m n)).length := by
  obtain ⟨hbegins, hbefore, hmore, hopen, htaken⟩ := h
  have hcomes : Comes plan device kernel folder host _ state := ⟨⟨_, _, hbegins, hbefore⟩, hmore⟩
  obtain ⟨first, n, rfl, rfl, hstands, hn, hf⟩ := hcomes.stands
    (Q := fun first n state => Planned plan first s m n state) hat hs hm
    (by
      intro first hbegins
      have hidle := hbegins.idle hd
      obtain ⟨slot, _, rfl⟩ := hbegins.start
      exact planned_first plan folder host hidle)
    (by
      rintro first rfl rfl n state next hst hn hf hdone
      exact hf.advance hc hst hd hm hn hdone)
  exact ⟨n, first, rfl, rfl, hn, hf, hstands.length_taken hm hn hopen htaken⟩

/-- No launch spends more than all of its blocks would. -/
theorem spends_all (plan : LaunchPlan σ α) (folder : Folder) (host : σ)
    (hc : plan.hook.ConfinedIn (Calls plan device kernel folder host) device.warpSize)
    (hd : device.Sound) (hk : kernel.Reached s m) :
    Spends plan device kernel folder host (plan.program.length * warpsLeft device kernel s m s)
      ((plan.program.map Instruction.cost).sum * warpsLeft device kernel s m s) := by
  obtain ⟨hat, hs, hm⟩ := hk.stands
  obtain ⟨g, hg, hagrees⟩ := hc.stand_in
  rw [← spends_agrees hagrees]
  constructor
  · intro state opening h
    obtain ⟨n, first, rfl, rfl, hn, hf, hcount⟩ := h.planned hg hd hat hs hm
    have hissued := hf.issued
    rw [warpsLeft_succ hn, ← hcount, Nat.mul_add] at hissued
    simp only [Totals.ofLaunch] at hissued ⊢
    omega
  · intro state opening h
    obtain ⟨n, first, rfl, rfl, hn, hf, hcount⟩ := h.planned hg hd hat hs hm
    have hcycles := hf.cycles
    rw [warpsLeft_succ hn, ← hcount, Nat.mul_add] at hcycles
    simp only [Totals.ofLaunch] at hcycles ⊢
    omega

/-! ## One block -/

/-- A launch between two blocks, on any device. It has kept to what it may issue. What an SM has
released since the launch began is paid for by issues and by warps that have left, and there is
room for more warps than a launch has. -/
structure Steady (issues : Nat) (state : State σ α) : Prop where
  sound : state.device.Sound
  issued : state.stats.issued.toNat ≤ issues
  released : ∀ sm ∈ state.device.sms, sm.released.toNat + 2 ^ 33 + issues ≤
    UInt64.size + state.stats.issued.toNat + state.stats.warps.toNat

theorem steady_first {issues : Nat} {slot : Slot α} (hd : device.Sound)
    (hroom : ∀ sm ∈ device.sms, sm.released.toNat + 2 ^ 33 + issues ≤ UInt64.size) :
    Steady issues (start device kernel folder host slot) where
  sound := hd
  issued := Nat.zero_le _
  released sm hsm := hroom sm hsm

section Block

variable {issues : Nat} {opening : Opening} (hst : Steady issues state)
  (hf : Planned plan first s m n state) (h : Stands first s m n state) (hd : first.device.Sound)
  (hm : m < first.kernel.block.reach) (hn : n < first.kernel.grid.volume)
  (hgrid : first.kernel.grid.volume < UInt32.size)
  (hthreads : first.kernel.grid.volume * first.kernel.block.volume < UInt32.size)

include hst

/-- The SM that is asked to take the next block has room for the rest of the launch. -/
theorem Steady.opened (hopen : openCta warpsPerCta state = .ok opening) :
    opening.admission.sm.released.toNat + 2 ^ 33 + issues ≤
      UInt64.size + state.stats.issued.toNat + state.stats.warps.toNat := by
  obtain ⟨sm, hsm, henter⟩ := openCta_sm hopen
  rw [(enter_same henter).1]
  exact hst.released sm (List.mem_of_getElem? hsm)

include hf h hd hm hn

theorem Steady.advance (hc : plan.hook.Confined first.device.warpSize)
    (hspend : ∀ opening, openCta warpsPerCta state = .ok opening →
      opening.admission.refused = false →
      state.stats.issued.toNat + plan.program.length * opening.admission.taken.length ≤ issues)
    (hdone : executeCta plan warpsPerCta state = .ok (.done next)) : Steady issues next := by
  have hsound : next.device.Sound := executeCta_sound 0 hst.sound hdone
  have hnext := hf.advance hc h hd hm hn hdone
  obtain ⟨opening, front, hopen, htaken, hissue, hfin⟩ := executeCta_done hdone
  obtain ⟨left, hleave, hdevice⟩ := hfin.device
  have hspent := hspend opening hopen htaken
  have hcount := h.length_taken hm hn hopen htaken
  -- What the block has added to the counts is what the forecast has lost.
  have hissued := hf.issued.trans hnext.issued.symm
  have hwarps := hf.warps.trans hnext.warps.symm
  rw [warpsLeft_succ hn, ← hcount] at hissued hwarps
  rw [Nat.mul_add] at hissued
  refine ⟨hsound, by omega, ?_⟩
  intro sm hsm
  rw [hdevice] at hsm
  rcases List.mem_or_eq_of_mem_set hsm with hsm | rfl
  · have hroom := hst.released sm hsm
    omega
  · have hroom := hst.opened hopen
    have hgain := (issueAll_released_le hissue).1
    have hleft := (leave_cases hleave).1
    rw [front_sm] at hgain
    omega

include hthreads

/-- A block that is refused leaves again. -/
theorem Steady.refuse_ok (hopen : openCta warpsPerCta state = .ok opening) :
    ∃ next, refuse opening state = .ok next := by
  obtain ⟨sm, _, henter⟩ := openCta_sm hopen
  have hcount := length_taken_le henter
  rw [(h.opens hm hn hopen).2.1] at hcount
  have hroom := hst.opened hopen
  have hissued := hst.issued
  have hwarps := hf.warps_lt hd hn hthreads
  obtain ⟨left, hleave⟩ : ∃ left, leave opening.admission.taken opening.admission.sm = .ok left := by
    refine leave_ok ?_
    simp only [UInt32.size] at hwarps
    omega
  rw [refuse, hleave]
  exact ⟨_, rfl⟩

include hgrid

/-- A block that is taken issues the whole program, and leaves. -/
theorem Steady.finish_ok (hc : plan.hook.Confined first.device.warpSize)
    (hissues : 32 * issues < UInt64.size)
    (hopen : openCta warpsPerCta state = .ok opening) (htaken : opening.admission.refused = false)
    (hspent : state.stats.issued.toNat + plan.program.length * opening.admission.taken.length ≤
      issues)
    (hcycles : state.stats.cycles.toNat +
      (plan.program.map Instruction.cost).sum * opening.admission.taken.length < UInt64.size) :
    ∃ front next, issueAll plan.hook state.folder opening.cta opening.admission.taken plan.program
      (opening.front state) = .ok front ∧ finish plan opening front state = .ok next := by
  have hcount := h.length_taken hm hn hopen htaken
  have hroom := hst.opened hopen
  have hwarps := hf.warps_lt hd hn hthreads
  obtain ⟨front, hissue⟩ : ∃ front, issueAll plan.hook state.folder opening.cta
      opening.admission.taken plan.program (opening.front state) = .ok front := by
    obtain ⟨sm, _, henter⟩ := openCta_sm hopen
    have hatomics : state.stats.atomics.toNat + first.device.warpSize *
        (plan.program.length * opening.admission.taken.length) ≤ 32 * issues := by
      calc state.stats.atomics.toNat + first.device.warpSize *
            (plan.program.length * opening.admission.taken.length)
          ≤ first.device.warpSize * (state.stats.issued.toNat +
              plan.program.length * opening.admission.taken.length) := by
            rw [Nat.mul_add]
            exact Nat.add_le_add_right hf.atomics_le _
        _ ≤ 32 * issues := Nat.mul_le_mul hd.warpSize_le hspent
    have hlook := hf.outlook h hd hm hn hopen htaken
    rw [← hcount] at hlook
    refine Launch.issueAll_ok hc hd.warpSize_le hlook (enter_serves henter).2 ?_ ?_ ?_ hcycles
    · rw [List.length_product, front_sm]
      simp only [UInt32.size] at hwarps
      omega
    · omega
    · omega
  -- The arrivals are paid for by the issues. An exit may free warps of another launch that wait
  -- under the same number, and that is what the rest of the room is for.
  have hgain := (issueAll_released_le hissue).1
  rw [front_sm] at hgain
  obtain ⟨left, hleave⟩ : ∃ left, leave opening.admission.taken front.sm = .ok left := by
    refine leave_ok ?_
    simp only [UInt32.size] at hwarps
    omega
  have hleft := @left_le first.device first.kernel s m hd
  obtain ⟨next, hfinish⟩ := hf.finish_ok ((Nat.sub_le _ _).trans_lt hgrid)
    (hleft.1.trans_lt hthreads) (hleft.2.trans_lt hthreads) h hd hm hn (hgrid.trans (by decide))
    hopen hleave
  exact ⟨front, next, hissue, hfinish⟩

/-- A block goes through within the range of the launch: it is executed or refused. -/
theorem Steady.executes (hc : plan.hook.Confined first.device.warpSize)
    (hissues : 32 * issues < UInt64.size)
    (hwarps : warpsPerCta =
      UInt32.ofNat (warpsNeeded first.kernel.block.volume first.device.warpSize))
    (hspend : ∀ opening, openCta warpsPerCta state = .ok opening →
      opening.admission.refused = false →
      state.stats.issued.toNat + plan.program.length * opening.admission.taken.length ≤ issues ∧
      state.stats.cycles.toNat +
        (plan.program.map Instruction.cost).sum * opening.admission.taken.length < UInt64.size) :
    ∃ last, executeCta plan warpsPerCta state = .ok last := by
  have hids : first.kernel.grid.volume *
      warpsNeeded first.kernel.block.volume first.device.warpSize ≤ UInt32.size :=
    (Nat.mul_le_mul_left _ (warpsNeeded_le hd.warpSize_pos _)).trans hthreads.le
  have hnumbers := @ids_le first.device first.kernel s m n hd hn hgrid hids
  rw [← hwarps] at hnumbers
  obtain ⟨opening, hopen⟩ := h.openCta_ok hd hm hn (hgrid.trans (by decide)) hnumbers
  rw [executeCta, hopen, Outcome.ok_bind]
  cases htaken : opening.admission.refused with
  | true =>
    obtain ⟨next, hrefuse⟩ := hst.refuse_ok hf h hd hm hn hthreads hopen
    rw [if_pos rfl, hrefuse]
    exact ⟨_, rfl⟩
  | false =>
    obtain ⟨hspent, hcycles⟩ := hspend opening hopen htaken
    obtain ⟨front, next, hissue, hfinish⟩ :=
      hst.finish_ok hf h hd hm hn hgrid hthreads hc hissues hopen htaken hspent hcycles
    rw [if_neg Bool.false_ne_true, hissue, Outcome.ok_bind, hfinish]
    exact ⟨_, rfl⟩

end Block

/-! ## The whole launch -/

/-- A launch that begins within its range comes to an answer. -/
theorem answers_of_begins {issues cycles : Nat}
    (hb : Begins (α := α) device kernel folder host warpsPerCta first)
    (hc : plan.hook.Confined device.warpSize) (hd : device.Sound) (hat : kernel.At s m)
    (hs : s < kernel.grid.reach) (hm : m < kernel.block.reach)
    (hgrid : kernel.grid.volume < UInt32.size)
    (hthreads : kernel.grid.volume * kernel.block.volume < UInt32.size)
    (hspends : Spends plan device kernel folder host issues cycles)
    (hissues : 32 * issues < UInt64.size) (hcycles : cycles < UInt64.size)
    (hroom : ∀ sm ∈ device.sms, sm.released.toNat + 2 ^ 33 + issues ≤ UInt64.size) :
    ∃ last : BlockEnd σ α, launch plan device kernel folder host =
      .ok (last.report device.config.maxWarps.toNat) := by
  have hidle := hb.idle hd
  have hbegins := hb
  have hwarps := hb.warps
  obtain ⟨slot, _, rfl⟩ := hb.start
  obtain ⟨last, hrun⟩ : ∃ last, run plan warpsPerCta kernel.grid.volume
      (start device kernel folder host slot) = .ok last := by
    refine run_stands_ok (Q := fun n state =>
      Planned plan (start device kernel folder host slot) s m n state ∧ Steady issues state ∧
      ∃ blocks, run plan warpsPerCta blocks (start device kernel folder host slot) =
        .ok (.done state)) hat hs hm
      ⟨planned_first plan folder host hidle, steady_first hd hroom, 0, rfl⟩ ?_
    rintro n state hstands hn ⟨hf, hst, blocks, hbefore⟩
    have hmore := (hstands.more (hn.trans (Dim3.volume_lt_reach _))).mpr hn
    have hexec : ∀ opening, openCta warpsPerCta state = .ok opening →
        opening.admission.refused = false → Executing plan device kernel folder host state opening :=
      fun opening hopen htaken => .intro hbegins hbefore hmore hopen htaken
    obtain ⟨last, hlast⟩ := hst.executes hf hstands hd hm hn hgrid hthreads hc hissues hwarps
      fun opening hopen htaken => ⟨hspends.issues state opening (hexec opening hopen htaken),
        (hspends.cycles state opening (hexec opening hopen htaken)).trans_lt hcycles⟩
    refine ⟨last, hlast, ?_⟩
    rintro next rfl
    exact ⟨hf.advance hc hstands hd hm hn hlast,
      hst.advance hf hstands hd hm hn hc (fun opening hopen htaken =>
        hspends.issues state opening (hexec opening hopen htaken)) hlast,
      blocks + 1, run_succ hbefore hmore hlast⟩
  exact ⟨last, hbegins.launch hrun⟩

end Launch

/-- A launch within its range never faults, whatever is resident on the SMs and wherever the kernel
stands. It goes through, or it says that a block has no room, and it leaves the device sound for
the next launch. The issues and the cycles are those of the blocks that it comes to execute. -/
theorem a_launch_within_its_range_never_faults {σ α : Type} (plan : LaunchPlan σ α)
    {device : Device} {kernel : Kernel} {s m issues cycles : Nat} (folder : Folder) (host : σ)
    (hd : device.Sound) (hk : kernel.Reached s m) (hsize : kernel.block.volume < 2 ^ 64)
    (hgrid : kernel.grid.volume < 2 ^ 32)
    (hthreads : kernel.grid.volume * kernel.block.volume < 2 ^ 32)
    (hspends : Launch.Spends plan device kernel folder host issues cycles)
    (hissues : 32 * issues < 2 ^ 64) (hcycles : cycles < 2 ^ 64)
    (hreleased : ∀ sm ∈ device.sms, sm.released.toNat ≤ 2 ^ 64 - 2 ^ 33 - issues)
    (hc : plan.hook.ConfinedIn (Launch.Calls plan device kernel folder host) device.warpSize) :
    ∃ report, launch plan device kernel folder host = .ok report ∧ report.device.Sound ∧
      ((∃ stats, report.result = .ok stats) ∨
        ∃ warps places, report.result = .error (.ctaTooLarge warps places)) := by
  obtain ⟨hat, hs, hm⟩ := hk.stands
  suffices hanswer : ∃ report, launch plan device kernel folder host = .ok report ∧
      ((∃ stats, report.result = .ok stats) ∨
        ∃ warps places, report.result = .error (.ctaTooLarge warps places)) by
    obtain ⟨report, hreport, hresult⟩ := hanswer
    exact ⟨report, hreport, Launch.launch_sound hd hreport, hresult⟩
  cases hbound : kernel.bound with
  | false => exact ⟨_, Launch.launch_unbound plan folder host hbound, Or.inl ⟨.zero, rfl⟩⟩
  | true =>
    by_cases hfits : warpsNeeded kernel.block.volume device.warpSize ≤ device.config.maxWarps.toNat
    · obtain ⟨first, hbegins⟩ := Launch.begins_ok (α := α) folder host hd hbound hsize hfits
      have hroom : ∀ sm ∈ device.sms, sm.released.toNat + 2 ^ 33 + issues ≤ UInt64.size := by
        intro sm hsm
        have hle := hreleased sm hsm
        simp only [UInt64.size]
        omega
      obtain ⟨g, hg, hagrees⟩ := hc.stand_in
      obtain ⟨last, hlast⟩ := Launch.answers_of_begins hbegins hg hd hat hs hm hgrid hthreads
        ((Launch.spends_agrees hagrees).mpr hspends) hissues hcycles hroom
      refine ⟨_, hagrees.launch.symm.trans hlast, ?_⟩
      cases last with
      | done state => exact Or.inl ⟨state.stats, rfl⟩
      | refused warps state => exact Or.inr ⟨warps, _, rfl⟩
    · exact ⟨_, Launch.launch_too_large plan folder host hd hbound hsize (Nat.lt_of_not_le hfits),
        Or.inr ⟨_, _, rfl⟩⟩

namespace Launch

/-- A small device in use. On the first SM a warp with the id of a warp to come waits under another
block, and a warp of a block with a number to come waits with atomics in flight. The second SM has
one place left. -/
def occupied : Device where
  config := Device.small.config
  sms := [{ Sm.new 0 Device.small.config with
      warps := ⟨[(0, ⟨7, true, false, 0⟩), (50, ⟨0, true, false, 3⟩)], by decide⟩, released := 41 },
    { Sm.new 1 Device.small.config with
      warps := ⟨[(60, .fresh 9), (61, .fresh 9), (62, .fresh 9)], by decide⟩ }]

theorem occupied_sound : occupied.Sound := ⟨rfl, rfl, by decide⟩

/-- Two barriers, and a hook that goes over the threads of every warp. -/
def tallyAtBarriers : LaunchPlan Nat UInt64 := ⟨[barrier, .placeholder, barrier], tallying, none⟩

end Launch

/-- Warps in the way are no fault: three blocks with two barriers come to an answer. -/
theorem three_blocks_come_to_an_answer :
    ∃ report, launch Launch.tallyAtBarriers Launch.occupied
        (.bind (.line 3) (.line 3) ⟨"sums", 16⟩) .empty 0 = .ok report ∧ report.device.Sound ∧
      ((∃ stats, report.result = .ok stats) ∨
        ∃ warps places, report.result = .error (.ctaTooLarge warps places)) := by
  have hleft : Launch.warpsLeft Launch.occupied (.bind (.line 3) (.line 3) ⟨"sums", 16⟩) 0 0 0 = 6 :=
    Launch.warpsLeft_first Launch.occupied_sound (by decide)
  have hreached := Kernel.Reached.bind (.line 3) (.line 3) ⟨"sums", 16⟩
  have hconfined := @Launch.tallying_confined Launch.tallyAtBarriers.program Launch.occupied _ 0 0
    Launch.occupied_sound hreached (by decide) none .empty 0
  have hspends := Launch.spends_all Launch.tallyAtBarriers .empty 0 hconfined Launch.occupied_sound
    hreached
  rw [hleft] at hspends
  exact a_launch_within_its_range_never_faults Launch.tallyAtBarriers .empty 0 Launch.occupied_sound
    hreached (by decide) (by decide) (by decide) hspends (by decide) (by decide) (by decide)
    hconfined

end Simt
