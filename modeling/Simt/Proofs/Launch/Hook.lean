-- What a launch does with its hook. A hook is confined when it changes a slot by edits of
-- the lanes that a warp has. A logged hook writes down what it is called with, and nothing
-- but the host of a launch depends on the log.
import Simt.Proofs.Slot
import Simt.Launch

namespace Simt

variable {σ τ α : Type}

/-- The hook changes the slot by edits, and names no lane at or past the width. -/
def Hook.Confined (hook : Hook σ α) (width : Nat) : Prop :=
  ∀ folder host slot ctx, ∃ (host' : σ) (edits : List (SlotEdit α)), (∀ e ∈ edits, e.Below width) ∧
    hook.issue folder host slot ctx = (edits.foldlM SlotEdit.apply slot).map (host', ·)

theorem Hook.idle_confined (width : Nat) : (Hook.idle : Hook σ α).Confined width :=
  fun _ host _ _ => ⟨host, [], by simp, rfl⟩

/-! ## The log -/

/-- What the hook is called with. -/
structure HookCall (α : Type) where
  folder : Folder
  slot : Slot α
  context : IssueContext

inductive HookEvent (α : Type) where
  | called (call : HookCall α)
  | delivered (work : α) (inst : Instruction)

/-- The hook with a log of its calls and of the work that is delivered, in order. -/
def Hook.logged (hook : Hook σ α) : Hook (σ × List (HookEvent α)) α where
  issue folder host slot ctx := do
    let (inner, edited) ← hook.issue folder host.1 slot ctx
    return ((inner, host.2 ++ [.called ⟨folder, slot, ctx⟩]), edited)
  deliver host work inst := (hook.deliver host.1 work inst, host.2 ++ [.delivered work inst])

/-- The calls of a log, in order. -/
def HookEvent.calls (log : List (HookEvent α)) : List (HookCall α) :=
  log.filterMap fun
    | .called call => some call
    | .delivered _ _ => none

theorem HookEvent.calls_append (log later : List (HookEvent α)) :
    calls (log ++ later) = calls log ++ calls later :=
  List.filterMap_append

/-- An issue is one call, whatever is delivered after it. -/
theorem HookEvent.calls_issue (call : HookCall α) (work : List α) (inst : Instruction) :
    calls (.called call :: work.map (.delivered · inst)) = [call] := by
  simp [calls]

theorem Hook.Confined.logged {hook : Hook σ α} {width : Nat} (h : hook.Confined width) :
    hook.logged.Confined width := by
  intro folder host slot ctx
  obtain ⟨host', edits, hbelow, he⟩ := h folder host.1 slot ctx
  refine ⟨(host', host.2 ++ [.called ⟨folder, slot, ctx⟩]), edits, hbelow, ?_⟩
  simp only [Hook.logged, he]
  cases edits.foldlM SlotEdit.apply slot <;> rfl

theorem Hook.logged_issue {hook : Hook σ α} {folder : Folder}
    {host host' : σ × List (HookEvent α)} {slot edited : Slot α} {ctx : IssueContext}
    (h : hook.logged.issue folder host slot ctx = .ok (host', edited)) :
    host'.2 = host.2 ++ [.called ⟨folder, slot, ctx⟩] := by
  obtain ⟨⟨inner, e⟩, _, h⟩ := Outcome.bind_eq_ok.mp h
  cases h
  rfl

/-- The log has one line for each piece of work that is delivered. -/
theorem Hook.logged_foldl {hook : Hook σ α} (inst : Instruction) (work : List α)
    (host : σ × List (HookEvent α)) :
    (work.foldl (fun host w => hook.logged.deliver host w inst) host).2 =
      host.2 ++ work.map (.delivered · inst) := by
  induction work generalizing host with
  | nil => simp
  | cons w rest ih =>
    rw [List.foldl_cons, ih]
    simp [Hook.logged]

/-! ## Views of the host -/

/-- The second hook does to the view of a host what the first one does to the host. -/
structure Hook.Views (view : σ → τ) (h : Hook σ α) (g : Hook τ α) : Prop where
  issue : ∀ folder host slot ctx, g.issue folder (view host) slot ctx =
    (h.issue folder host slot ctx).map (Prod.map view id)
  deliver : ∀ host work inst, g.deliver (view host) work inst = view (h.deliver host work inst)

theorem Hook.logged_views (hook : Hook σ α) : Hook.Views Prod.fst hook.logged hook where
  issue folder host slot ctx := by
    simp only [Hook.logged]
    cases hook.issue folder host.1 slot ctx <;> rfl
  deliver _ _ _ := rfl

namespace Launch

def Front.mapHost (view : σ → τ) (front : Front σ α) : Front τ α :=
  ⟨front.sm, front.slot, view front.host, front.issued, front.atomics, front.cycle⟩

def State.mapHost (view : σ → τ) (state : State σ α) : State τ α :=
  ⟨state.device, state.kernel, state.folder, view state.host, state.slot, state.stats,
    state.blocksBySm⟩

def BlockEnd.mapHost (view : σ → τ) : BlockEnd σ α → BlockEnd τ α
  | .done state => .done (state.mapHost view)
  | .refused warps state => .refused warps (state.mapHost view)

variable {view : σ → τ} {h : Hook σ α} {g : Hook τ α}

/-! ## One warp instruction -/

theorem deliver_views (hv : Hook.Views view h g) (warp : UInt32) (front : Front σ α) :
    deliver g warp (front.mapHost view) = (deliver h warp front).map (Front.mapHost view) := by
  have hfold : ∀ (inst : Instruction) (work : List α) (host : σ),
      work.foldl (fun host w => g.deliver host w inst) (view host) =
        view (work.foldl (fun host w => h.deliver host w inst) host) := by
    intro inst work
    induction work with
    | nil => exact fun _ => rfl
    | cons w rest ih =>
      intro host
      rw [List.foldl_cons, List.foldl_cons, hv.deliver, ih]
  refine Outcome.bind_map_right fun sm => Outcome.bind_map_right fun taken => ?_
  refine Outcome.bind_map_right fun atomics => Outcome.bind_map_right fun sm => ?_
  simp only [Front.mapHost, hfold]
  rfl

theorem settle_views (hv : Hook.Views view h g) (warp : UInt32) (front : Front σ α) :
    settle g warp (front.mapHost view) = (settle h warp front).map (Front.mapHost view) := by
  have ha : (front.mapHost view).slot.atomic = front.slot.atomic := rfl
  rw [settle, settle, ha]
  split
  · exact deliver_views hv warp front
  · rfl

theorem issue_views (hv : Hook.Views view h g) (folder : Folder) (cta : Cta) (inst : Instruction)
    (warp : Warp) (front : Front σ α) :
    issue g folder cta inst warp (front.mapHost view) =
      (issue h folder cta inst warp front).map (Front.mapHost view) := by
  refine Outcome.bind_map_right fun slot => ?_
  refine Outcome.bind_map (hv.issue folder front.host slot _) fun result => ?_
  obtain ⟨host, edited⟩ := result
  refine Outcome.bind_map (settle_views hv warp.id { front with slot := edited, host }) fun mid => ?_
  exact Outcome.bind_map_right fun sm => Outcome.bind_map_right fun issued =>
    Outcome.bind_map_right fun cycle => rfl

theorem issueAll_views (hv : Hook.Views view h g) (folder : Folder) (cta : Cta) (warps : List Warp)
    (program : List Instruction) (front : Front σ α) :
    issueAll g folder cta warps program (front.mapHost view) =
      (issueAll h folder cta warps program front).map (Front.mapHost view) := by
  refine Outcome.foldlM_map (fun front inst => ?_) program front
  exact Outcome.foldlM_map (fun front warp => issue_views hv folder cta inst warp front) warps front

/-! ## Blocks -/

theorem record_views (plan : LaunchPlan σ α) (state : State σ α) :
    record { plan with hook := g } (state.mapHost view) =
      (record plan state).map (State.mapHost view) := by
  unfold record
  cases plan.sink with
  | none => rfl
  | some sink => exact Outcome.bind_map_right fun snapshot => rfl

theorem executeCta_views {plan : LaunchPlan σ α} (hv : Hook.Views view plan.hook g)
    (wpc : UInt32) (state : State σ α) :
    executeCta { plan with hook := g } wpc (state.mapHost view) =
      (executeCta plan wpc state).map (BlockEnd.mapHost view) := by
  refine Outcome.bind_map_right fun opening => ?_
  simp only
  split
  · refine Outcome.bind_map (v := State.mapHost view) ?_ fun state => rfl
    exact Outcome.bind_map_right fun sm => rfl
  · refine Outcome.bind_map (issueAll_views hv state.folder opening.cta opening.admission.taken
      plan.program (opening.front state)) fun front => ?_
    refine Outcome.bind_map (v := State.mapHost view) ?_ fun state => rfl
    refine Outcome.bind_map_right fun sm => Outcome.bind_map_right fun stats => ?_
    refine Outcome.bind_map_right fun counts => Outcome.bind_map_right fun kernel => ?_
    exact record_views plan { state.putSm opening.cta.sm sm with
      kernel, host := front.host, slot := front.slot, stats, blocksBySm := counts }

theorem run_views {plan : LaunchPlan σ α} (hv : Hook.Views view plan.hook g)
    (wpc : UInt32) (limit : Nat) (state : State σ α) :
    run { plan with hook := g } wpc limit (state.mapHost view) =
      (run plan wpc limit state).map (BlockEnd.mapHost view) := by
  induction limit generalizing state with
  | zero => rfl
  | succ limit ih =>
    have hdone : (state.mapHost view).kernel.ctasDone = state.kernel.ctasDone := rfl
    rw [run, run, hdone]
    split
    · rfl
    · refine Outcome.bind_map (executeCta_views hv wpc state) fun last => ?_
      cases last with
      | done state => exact ih state
      | refused warps state => rfl

end Launch

/-! ## The whole launch -/

def LaunchReport.mapHost (view : σ → τ) (report : LaunchReport σ) : LaunchReport τ :=
  ⟨report.device, report.kernel, report.folder, view report.host, report.result⟩

/-- A launch on the view of a host is the view of the launch. -/
theorem launch_views {view : σ → τ} {plan : LaunchPlan σ α} {g : Hook τ α}
    (hv : Hook.Views view plan.hook g) (device : Device) (kernel : Kernel) (folder : Folder)
    (host : σ) :
    launch { plan with hook := g } device kernel folder (view host) =
      (launch plan device kernel folder host).map (LaunchReport.mapHost view) := by
  unfold launch
  split
  · rfl
  · refine Outcome.bind_map_right fun threads => Outcome.bind_map_right fun warps => ?_
    simp only
    split
    · rfl
    · refine Outcome.bind_map_right fun slot => ?_
      refine Outcome.bind_map (Launch.run_views hv _ _ (Launch.start device kernel folder host slot))
        fun last => ?_
      cases last <;> rfl

def LaunchPlan.logged (plan : LaunchPlan σ α) : LaunchPlan (σ × List (HookEvent α)) α :=
  ⟨plan.program, plan.hook.logged, plan.sink⟩

/-- A launch that is logged is the launch, and a log. -/
theorem launch_logged (plan : LaunchPlan σ α) (device : Device) (kernel : Kernel)
    (folder : Folder) (host : σ) (log : List (HookEvent α)) :
    launch plan device kernel folder host =
      (launch plan.logged device kernel folder (host, log)).map (LaunchReport.mapHost Prod.fst) :=
  @launch_views _ _ _ Prod.fst plan.logged plan.hook plan.hook.logged_views device kernel folder
    (host, log)

end Simt
