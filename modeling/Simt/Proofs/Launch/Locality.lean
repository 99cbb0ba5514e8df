-- A launch depends on its hook through the calls that it makes. Two hooks that answer these calls
-- alike give the same launch, so what a hook would do in any other call may be left out of it.
import Simt.Proofs.Launch.Course

namespace Simt

variable {σ τ α : Type}

namespace Launch

/-- A launch calls its hook: it has come to a block, the SM has taken the block, and the pairs of an
instruction and a warp before this one have issued. The call is told with the host that is passed
to the hook. -/
inductive Calls (plan : LaunchPlan σ α) (device : Device) (kernel : Kernel) (folder : Folder)
    (host : σ) : σ → HookCall α → Prop where
  | intro {warpsPerCta state opening before inst warp after front slot}
      (comes : Comes plan device kernel folder host warpsPerCta state)
      (opened : openCta warpsPerCta state = .ok opening)
      (taken : opening.admission.refused = false)
      (order : plan.program ×ˢ opening.admission.taken = before ++ (inst, warp) :: after)
      (issued : before.foldlM
        (fun front t => issue plan.hook state.folder opening.cta t.1 t.2 front)
        (opening.front state) = .ok front)
      (occupied : occupy inst warp front = .ok slot) :
      Calls plan device kernel folder host front.host
        ⟨state.folder, slot, context opening.cta warp front.cycle⟩

end Launch

namespace Hook

/-! ## Hooks on some calls -/

/-- On these calls the hook changes the slot by edits, and names no lane at or past the width. -/
def ConfinedIn (hook : Hook σ α) (calls : σ → HookCall α → Prop) (width : Nat) : Prop :=
  ∀ host call, calls host call →
    ∃ (host' : σ) (edits : List (SlotEdit α)), (∀ e ∈ edits, e.Below width) ∧
      hook.issue call.folder host call.slot call.context =
        (edits.foldlM SlotEdit.apply call.slot).map (host', ·)

/-- On these calls the hook changes the slot by the edits that are given, one after the other. They
name no lane at or past the width. -/
def Makes (hook : Hook σ α) (edits : σ → HookCall α → List (SlotEdit α))
    (calls : σ → HookCall α → Prop) (width : Nat) : Prop :=
  ∀ host call, calls host call → (∀ e ∈ edits host call, e.Below width) ∧
    ∃ host', hook.issue call.folder host call.slot call.context =
      ((edits host call).foldlM SlotEdit.apply call.slot).map (host', ·)

/-- The hooks answer these calls alike, and deliver alike. -/
structure Agrees (calls : σ → HookCall α → Prop) (g h : Hook σ α) : Prop where
  issue : ∀ host call, calls host call →
    g.issue call.folder host call.slot call.context =
      h.issue call.folder host call.slot call.context
  deliver : g.deliver = h.deliver

open Classical in
/-- The hook on some calls. On the others it does nothing. -/
noncomputable def within (calls : σ → HookCall α → Prop) (hook : Hook σ α) : Hook σ α where
  issue folder host slot ctx :=
    if calls host ⟨folder, slot, ctx⟩ then hook.issue folder host slot ctx else .ok (host, slot)
  deliver := hook.deliver

variable {calls calls' : σ → HookCall α → Prop} {g hook : Hook σ α} {width : Nat}

theorem within_agrees (calls : σ → HookCall α → Prop) (hook : Hook σ α) :
    (hook.within calls).Agrees calls hook where
  issue _ _ hcall := if_pos hcall
  deliver := rfl

theorem Agrees.symm (h : g.Agrees calls hook) : hook.Agrees calls g where
  issue host call hcall := (h.issue host call hcall).symm
  deliver := h.deliver.symm

theorem Agrees.mono (h : g.Agrees calls hook)
    (hle : ∀ host call, calls' host call → calls host call) : g.Agrees calls' hook where
  issue host call hcall := h.issue host call (hle host call hcall)
  deliver := h.deliver

theorem ConfinedIn.mono (h : hook.ConfinedIn calls width)
    (hle : ∀ host call, calls' host call → calls host call) : hook.ConfinedIn calls' width :=
  fun host call hcall => h host call (hle host call hcall)

/-- A hook that does nothing outside of these calls is confined in all. -/
theorem ConfinedIn.within (h : hook.ConfinedIn calls width) :
    (hook.within calls).Confined width := by
  intro folder host slot ctx
  unfold Hook.within
  by_cases hcall : calls host ⟨folder, slot, ctx⟩
  · simp only [if_pos hcall]
    exact h host ⟨folder, slot, ctx⟩ hcall
  · simp only [if_neg hcall]
    exact ⟨host, [], by simp, rfl⟩

theorem Makes.mono {edits : σ → HookCall α → List (SlotEdit α)} (h : hook.Makes edits calls width)
    (hle : ∀ host call, calls' host call → calls host call) : hook.Makes edits calls' width :=
  fun host call hcall => h host call (hle host call hcall)

theorem Makes.confinedIn {edits : σ → HookCall α → List (SlotEdit α)}
    (h : hook.Makes edits calls width) : hook.ConfinedIn calls width := by
  intro host call hcall
  obtain ⟨hbelow, host', hissue⟩ := h host call hcall
  exact ⟨host', edits host call, hbelow, hissue⟩

theorem Confined.on (h : hook.Confined width) (calls : σ → HookCall α → Prop) :
    hook.ConfinedIn calls width :=
  fun host call _ => h call.folder host call.slot call.context

end Hook

namespace Launch

variable {plan : LaunchPlan σ α} {g : Hook σ α} {device : Device} {kernel : Kernel}
  {folder : Folder} {host : σ} {warpsPerCta : UInt32} {first state : State σ α}

/-! ## One block -/

/-- An issue asks its hook once, in the call that it makes. -/
theorem issue_agrees {hook : Hook σ α} {calls : σ → HookCall α → Prop} {cta : Cta}
    {inst : Instruction} {warp : Warp} {front : Front σ α} (hg : g.Agrees calls hook)
    (hcall : ∀ slot, occupy inst warp front = .ok slot →
      calls front.host ⟨folder, slot, context cta warp front.cycle⟩) :
    issue g folder cta inst warp front = issue hook folder cta inst warp front := by
  have hsettle : settle g = settle hook := by
    funext id front
    simp only [settle, deliver, hg.deliver]
  unfold issue
  refine Outcome.bind_congr_ok fun slot hslot => ?_
  rw [hg.issue front.host _ (hcall slot hslot), hsettle]

/-- The pairs of a block issue alike, also a part of them from the first one on. -/
theorem Comes.issues_agree {opening : Opening} {items after : List (Instruction × Warp)}
    (h : Comes plan device kernel folder host warpsPerCta state)
    (hg : g.Agrees (Calls plan device kernel folder host) plan.hook)
    (hopen : openCta warpsPerCta state = .ok opening) (htaken : opening.admission.refused = false)
    (horder : plan.program ×ˢ opening.admission.taken = items ++ after) :
    items.foldlM (fun front t => issue g state.folder opening.cta t.1 t.2 front)
        (opening.front state) =
      items.foldlM (fun front t => issue plan.hook state.folder opening.cta t.1 t.2 front)
        (opening.front state) := by
  refine Outcome.foldlM_congr_reached fun before t rest front hitems hissued => ?_
  apply issue_agrees hg
  intro slot hslot
  have hsplit : plan.program ×ˢ opening.admission.taken = before ++ t :: (rest ++ after) := by
    rw [horder, hitems, List.append_assoc, List.cons_append]
  exact .intro h hopen htaken hsplit hissued hslot

theorem Comes.executeCta_agrees (h : Comes plan device kernel folder host warpsPerCta state)
    (hg : g.Agrees (Calls plan device kernel folder host) plan.hook) :
    executeCta { plan with hook := g } warpsPerCta state = executeCta plan warpsPerCta state := by
  unfold executeCta
  refine Outcome.bind_congr_ok fun opening hopen => ?_
  split
  · rfl
  · rename_i htaken
    have hissues := h.issues_agree hg hopen (by simpa using htaken) (List.append_nil _).symm
    rw [← issueAll_eq_foldlM, ← issueAll_eq_foldlM] at hissues
    rw [hissues]
    rfl

/-! ## The whole launch -/

theorem Begins.run_agrees (hb : Begins device kernel folder host warpsPerCta first)
    (hg : g.Agrees (Calls plan device kernel folder host) plan.hook) (limit : Nat) :
    run { plan with hook := g } warpsPerCta limit first = run plan warpsPerCta limit first := by
  -- The blocks that are done before a block say that the launch comes to it.
  suffices hfrom : ∀ blocks state, run plan warpsPerCta blocks first = .ok (.done state) →
      run { plan with hook := g } warpsPerCta limit state = run plan warpsPerCta limit state from
    hfrom 0 first rfl
  induction limit with
  | zero => exact fun _ _ _ => rfl
  | succ limit ih =>
    intro blocks state hbefore
    rw [run, run]
    split
    · rfl
    · rename_i hmore
      have hmore : state.kernel.ctasDone = false := by simpa using hmore
      have hcomes : Comes plan device kernel folder host warpsPerCta state :=
        ⟨⟨first, blocks, hb, hbefore⟩, hmore⟩
      rw [hcomes.executeCta_agrees hg]
      refine Outcome.bind_congr_ok fun last hlast => ?_
      cases last with
      | refused warps refused => rfl
      | done next => exact ih (blocks + 1) next (run_succ hbefore hmore hlast)

/-- The launch with the other hook makes the same calls. -/
theorem Calls.agrees {host' : σ} {call : HookCall α}
    (h : Calls { plan with hook := g } device kernel folder host host' call)
    (hg : g.Agrees (Calls plan device kernel folder host) plan.hook) :
    Calls plan device kernel folder host host' call := by
  obtain ⟨⟨⟨first, blocks, hb, hbefore⟩, hmore⟩, hopen, htaken, horder, hissued, hslot⟩ := h
  rw [hb.run_agrees hg] at hbefore
  have hcomes : Comes plan device kernel folder host _ _ := ⟨⟨first, blocks, hb, hbefore⟩, hmore⟩
  rw [hcomes.issues_agree hg hopen htaken horder] at hissued
  exact .intro hcomes hopen htaken horder hissued hslot

/-! ## Calls of a view -/

/-- The launch on the view of a host makes the calls of the launch. -/
theorem Calls.view {view : σ → τ} {k : Hook τ α} {host' : σ} {call : HookCall α}
    (h : Calls plan device kernel folder host host' call) (hv : Hook.Views view plan.hook k) :
    Calls { plan with hook := k } device kernel folder (view host) (view host') call := by
  obtain @⟨wpc, state, opening, before, inst, warp, after, front, slot,
    ⟨⟨first, blocks, hb, hbefore⟩, hmore⟩, hopen, htaken, horder, hissued, hslot⟩ := h
  have hbegins : Begins device kernel folder (view host) wpc (first.mapHost view) := by
    obtain ⟨hbound, hsize, hlanes, hfits, hwarps, new, hnew, rfl⟩ := hb
    exact ⟨hbound, hsize, hlanes, hfits, hwarps, new, hnew, rfl⟩
  have hcomes : Comes { plan with hook := k } device kernel folder (view host) wpc
      (state.mapHost view) := by
    refine ⟨⟨first.mapHost view, blocks, hbegins, ?_⟩, hmore⟩
    rw [run_views hv, hbefore]
    rfl
  have hturn : before.foldlM (fun front t => issue k state.folder opening.cta t.1 t.2 front)
      ((opening.front state).mapHost view) = .ok (front.mapHost view) := by
    rw [Outcome.foldlM_map (fun front t => issue_views hv state.folder opening.cta t.1 t.2 front),
      hissued]
    rfl
  have hoccupied : occupy inst warp (front.mapHost view) = .ok slot := hslot
  exact .intro hcomes hopen htaken horder hturn hoccupied

end Launch

namespace Hook.Agrees

variable {plan : LaunchPlan σ α} {g : Hook σ α} {device : Device} {kernel : Kernel}
  {folder : Folder} {host : σ}

/-- A launch goes the same way with two hooks that agree where it calls them. -/
theorem launch (h : g.Agrees (Launch.Calls plan device kernel folder host) plan.hook) :
    Simt.launch { plan with hook := g } device kernel folder host =
      Simt.launch plan device kernel folder host := by
  unfold Simt.launch
  split
  · rfl
  · rename_i hbound
    refine Outcome.bind_congr_ok fun threads hthreads => ?_
    refine Outcome.bind_congr_ok fun warps hwarps => ?_
    have hlanes := (Word.divCeil_eq_ok.mp hwarps).1
    rw [Launch.divCeil_block hthreads hlanes, Except.ok.injEq] at hwarps
    subst hwarps
    simp only
    split
    · rfl
    · rename_i hfits
      refine Outcome.bind_congr_ok fun slot hslot => ?_
      have hb : Launch.Begins device kernel folder host
          (UInt32.ofNat (warpsNeeded kernel.block.volume device.warpSize))
          (Launch.start device kernel folder host slot) :=
        ⟨by simpa using hbound, ⟨threads, hthreads⟩, hlanes, Nat.not_lt.mp hfits, rfl, slot, hslot,
          rfl⟩
      rw [hb.run_agrees h]

/-- A log tells of nothing that the hooks do not share. -/
theorem logged (h : g.Agrees (Launch.Calls plan device kernel folder host) plan.hook)
    (log : List (HookEvent α)) :
    g.logged.Agrees (Launch.Calls plan.logged device kernel folder (host, log))
      plan.logged.hook where
  issue host' call hcall := by
    have hview := hcall.view (k := plan.hook) plan.hook.logged_views
    simp only [LaunchPlan.logged, Hook.logged, h.issue host'.1 call hview]
  deliver := by simp only [LaunchPlan.logged, Hook.logged, h.deliver]

theorem launch_logged (h : g.Agrees (Launch.Calls plan device kernel folder host) plan.hook)
    (log : List (HookEvent α)) :
    Simt.launch (LaunchPlan.logged { plan with hook := g }) device kernel folder (host, log) =
      Simt.launch plan.logged device kernel folder (host, log) :=
  (h.logged log).launch

end Hook.Agrees

/-- A hook that is confined where a launch calls it may be taken to be confined everywhere. -/
theorem Hook.ConfinedIn.stand_in {plan : LaunchPlan σ α} {calls : σ → HookCall α → Prop}
    {width : Nat} (h : plan.hook.ConfinedIn calls width) :
    ∃ g : Hook σ α, g.Confined width ∧ g.Agrees calls plan.hook :=
  ⟨plan.hook.within calls, h.within, plan.hook.within_agrees calls⟩

end Simt
