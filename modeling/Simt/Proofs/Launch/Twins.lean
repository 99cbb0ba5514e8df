-- Two launches of one program with two hooks. A launch reads of the hook's work one thing only,
-- whether something is parked, and the SM is after a delivery as it was before it. So the SMs,
-- the kernel and all counts but that of the deliveries go the same way in both launches.
import Simt.Proofs.Launch.Course

namespace Simt

variable {σ τ α β : Type}

/-- Two hooks keep a relation of their hosts, as long as they are called in the same places. -/
structure Hook.Keep (R : σ → τ → Prop) (hook : Hook σ α) (other : Hook τ β) : Prop where
  issue : ∀ {host host'}, R host host' → ∀ folder folder' slot slot' ctx,
    Outcome.Agrees (fun r r' => R r.1 r'.1) (hook.issue folder host slot ctx)
      (other.issue folder' host' slot' ctx)
  deliver : ∀ {host host'}, R host host' → ∀ work inst, R (hook.deliver host work inst) host'
  deliver' : ∀ {host host'}, R host host' → ∀ work inst, R host (other.deliver host' work inst)

theorem Hook.keep_true (hook : Hook σ α) (other : Hook τ β) : Hook.Keep (fun _ _ => True) hook other :=
  ⟨fun _ _ _ _ _ _ _ _ _ _ => trivial, fun _ _ _ => trivial, fun _ _ _ => trivial⟩

/-- The contexts of the calls of a log, in order. -/
def HookEvent.contexts (log : List (HookEvent α)) : List IssueContext :=
  (HookEvent.calls log).map (·.context)

/-- Hooks that are called in the same places write down the same contexts. -/
theorem Hook.keep_contexts (hook : Hook σ α) (other : Hook τ β) :
    Hook.Keep (fun host host' => HookEvent.contexts host.2 = HookEvent.contexts host'.2)
      hook.logged other.logged where
  issue h folder folder' slot slot' ctx := by
    intro r r' hr hr'
    rw [Hook.logged_issue hr, Hook.logged_issue hr']
    simpa [HookEvent.contexts, HookEvent.calls] using h
  deliver h work inst := by simpa [HookEvent.contexts, HookEvent.calls, Hook.logged] using h
  deliver' h work inst := by simpa [HookEvent.contexts, HookEvent.calls, Hook.logged] using h

namespace Hook.Keep

variable {R : σ → τ → Prop} {hook : Hook σ α} {other : Hook τ β}

theorem foldl (hk : Hook.Keep R hook other) {host : σ} {host' : τ} (h : R host host')
    (work : List α) (work' : List β) (inst inst' : Instruction) :
    R (work.foldl (fun host w => hook.deliver host w inst) host)
      (work'.foldl (fun host w => other.deliver host w inst') host') := by
  induction work generalizing host with
  | cons w rest ih => exact ih (hk.deliver h w inst)
  | nil =>
    induction work' generalizing host' with
    | nil => exact h
    | cons w rest ih => exact ih (hk.deliver' h w inst')

end Hook.Keep

namespace Launch

variable {R : σ → τ → Prop} {hook : Hook σ α} {other : Hook τ β} {plan : LaunchPlan σ α}
  {plan' : LaunchPlan τ β} {folder folder' : Folder} {cta : Cta} {inst : Instruction} {warp : Warp}
  {warpsPerCta : UInt32}

/-! ## One warp instruction -/

/-- Two launches stand at the same issue. -/
structure Front.Twin (R : σ → τ → Prop) (front : Front σ α) (front' : Front τ β) : Prop where
  sm : front.sm = front'.sm
  issued : front.issued = front'.issued
  cycle : front.cycle = front'.cycle
  host : R front.host front'.host

variable {front : Front σ α} {front' : Front τ β}

theorem issue_twin (hk : Hook.Keep R hook other) (h : front.Twin R front') :
    Outcome.Agrees (Front.Twin R) (issue hook folder cta inst warp front)
      (issue other folder' cta inst warp front') := by
  intro next next' hnext hnext'
  obtain ⟨slot, edited, host, hissue⟩ := issue_cases hnext
  obtain ⟨slot', edited', host', hissue'⟩ := issue_cases hnext'
  have hcalled := hissue'.called
  rw [← h.cycle] at hcalled
  have hhost := hk.issue h.host _ _ _ _ _ _ _ hissue.called hcalled
  have hmet := hissue'.met
  rw [← h.sm, hissue.met, Except.ok.injEq] at hmet
  refine ⟨hmet, ?_, ?_, ?_⟩
  · rw [← UInt64.toNat_inj, hissue.issued, hissue'.issued, h.issued]
  · rw [← UInt64.toNat_inj, hissue.cycle, hissue'.cycle, h.cycle]
  · rw [hissue.host, hissue'.host]
    exact hk.foldl hhost _ _ _ _

theorem issueEach_twin {warps : List Warp} (hk : Hook.Keep R hook other) (h : front.Twin R front') :
    Outcome.Agrees (Front.Twin R) (issueEach hook folder cta warps inst front)
      (issueEach other folder' cta warps inst front') := by
  refine Outcome.agrees_foldlM (fun mid mid' warp hmid => ?_) warps h
  exact issue_twin hk hmid

theorem issueAll_twin {warps : List Warp} {program : List Instruction} (hk : Hook.Keep R hook other)
    (h : front.Twin R front') :
    Outcome.Agrees (Front.Twin R) (issueAll hook folder cta warps program front)
      (issueAll other folder' cta warps program front') := by
  refine Outcome.agrees_foldlM (fun mid mid' inst hmid => ?_) program h
  exact issueEach_twin hk hmid

/-! ## One block -/

/-- Two launches stand between the same two blocks. -/
structure State.Twin (R : σ → τ → Prop) (state : State σ α) (state' : State τ β) : Prop where
  device : state.device = state'.device
  kernel : state.kernel = state'.kernel
  stats : ∃ atomics, state'.stats = { state.stats with atomics }
  counts : state.blocksBySm = state'.blocksBySm
  host : R state.host state'.host

inductive BlockEnd.Twin (R : σ → τ → Prop) : BlockEnd σ α → BlockEnd τ β → Prop
  | done {state : State σ α} {state' : State τ β} :
      state.Twin R state' → Twin R (.done state) (.done state')
  | refused {warps : Nat} {state : State σ α} {state' : State τ β} :
      state.Twin R state' → Twin R (.refused warps state) (.refused warps state')

variable {state : State σ α} {state' : State τ β}

/-- The same block is opened. -/
theorem State.Twin.openCta (h : state.Twin R state') :
    openCta warpsPerCta state' = openCta warpsPerCta state := by
  rw [Launch.openCta, Launch.openCta, h.device, h.kernel]

theorem State.Twin.starts (h : state.Twin R state') (opening : Opening) :
    (opening.front state).Twin R (opening.front state') := by
  obtain ⟨atomics, hstats⟩ := h.stats
  refine ⟨rfl, ?_, ?_, h.host⟩
  · rw [Opening.front, Opening.front, hstats]
  · rw [Opening.front, Opening.front, hstats]

theorem addBlock_atomics (stats : Stats) (atomics : UInt64) (warps : List (List UInt32)) :
    Stats.addBlock { stats with atomics } warps =
      (Stats.addBlock stats warps).map ({ · with atomics }) :=
  Outcome.bind_map_right fun _ => Outcome.bind_map_right fun _ => Outcome.bind_map_right fun _ =>
    Outcome.bind_map_right fun _ => rfl

theorem finish_twin {opening : Opening} (h : state.Twin R state') (hf : front.Twin R front') :
    Outcome.Agrees (State.Twin R) (finish plan opening front state)
      (finish plan' opening front' state') := by
  intro next next' hnext hnext'
  have hfin := finish_cases hnext
  have hfin' := finish_cases hnext'
  refine ⟨?_, ?_, ?_, ?_, ?_⟩
  · obtain ⟨sm, hleave, hdevice⟩ := hfin.device
    obtain ⟨sm', hleave', hdevice'⟩ := hfin'.device
    rw [← hf.sm, hleave, Except.ok.injEq] at hleave'
    rw [hdevice, hdevice', h.device, hleave']
  · have hkernel := hfin'.kernel
    rwa [hfin.kernel, Except.ok.injEq] at hkernel
  · have hstats := hfin'.stats
    obtain ⟨atomics, hbefore⟩ := h.stats
    have hsame : { state'.stats with
          issued := front'.issued, atomics := front'.atomics, cycles := front'.cycle } =
        { { state.stats with
          issued := front.issued, atomics := front.atomics, cycles := front.cycle } with
          atomics := front'.atomics } := by
      rw [hbefore, hf.issued, hf.cycle]
    rw [hsame, addBlock_atomics, hfin.stats] at hstats
    exact ⟨front'.atomics, (Except.ok.inj hstats).symm⟩
  · have hcounts := hfin'.counts
    rwa [← h.counts, hfin.counts, Except.ok.injEq] at hcounts
  · rw [hfin.host, hfin'.host]
    exact hf.host

theorem refuse_twin {opening : Opening} (h : state.Twin R state') :
    Outcome.Agrees (State.Twin R) (refuse opening state) (refuse opening state') := by
  refine (Outcome.agrees_eq _).bind ?_
  rintro sm _ rfl
  refine Outcome.agrees_ok ⟨?_, rfl, h.stats, h.counts, h.host⟩
  rw [State.putSm, State.putSm, h.device]

theorem executeCta_twin (hk : Hook.Keep R plan.hook plan'.hook)
    (hprogram : plan'.program = plan.program) (h : state.Twin R state') :
    Outcome.Agrees (BlockEnd.Twin R) (executeCta plan warpsPerCta state)
      (executeCta plan' warpsPerCta state') := by
  rw [executeCta, executeCta, h.openCta, hprogram]
  refine (Outcome.agrees_eq _).bind ?_
  rintro opening _ rfl
  split
  · exact (refuse_twin h).bind fun _ _ hnext => Outcome.agrees_ok (.refused hnext)
  · refine (issueAll_twin hk (h.starts opening)).bind fun _ _ hfront => ?_
    exact (finish_twin h hfront).bind fun _ _ hnext => Outcome.agrees_ok (.done hnext)

/-! ## The whole launch -/

theorem run_twin {limit : Nat} (hk : Hook.Keep R plan.hook plan'.hook)
    (hprogram : plan'.program = plan.program) (h : state.Twin R state') :
    Outcome.Agrees (BlockEnd.Twin R) (run plan warpsPerCta limit state)
      (run plan' warpsPerCta limit state') := by
  induction limit generalizing state state' with
  | zero => exact Outcome.agrees_ok (.done h)
  | succ limit ih =>
    rw [run, run, h.kernel]
    split
    · exact Outcome.agrees_ok (.done h)
    · refine (executeCta_twin hk hprogram h).bind fun last last' hlast => ?_
      cases hlast with
      | done hnext => exact ih hnext
      | refused hnext => exact Outcome.agrees_ok (.refused hnext)

end Launch

/-- Two reports that say the same but for the count of deliveries. -/
structure LaunchReport.Twin (R : σ → τ → Prop) (report : LaunchReport σ) (report' : LaunchReport τ) :
    Prop where
  device : report.device = report'.device
  kernel : report.kernel = report'.kernel
  result : ∃ atomics, report'.result = report.result.map ({ · with atomics })
  host : R report.host report'.host

theorem launch_twin {R : σ → τ → Prop} {plan : LaunchPlan σ α} {plan' : LaunchPlan τ β}
    {device : Device} {kernel : Kernel} {folder folder' : Folder} {host : σ} {host' : τ}
    (hk : Hook.Keep R plan.hook plan'.hook) (hprogram : plan'.program = plan.program)
    (h : R host host') :
    Outcome.Agrees (LaunchReport.Twin R) (launch plan device kernel folder host)
      (launch plan' device kernel folder' host') := by
  unfold launch
  split
  · exact Outcome.agrees_ok ⟨rfl, rfl, ⟨0, rfl⟩, h⟩
  · refine (Outcome.agrees_eq _).bind ?_
    rintro threads _ rfl
    refine (Outcome.agrees_eq _).bind ?_
    rintro warps _ rfl
    simp only
    split
    · exact Outcome.agrees_ok ⟨rfl, rfl, ⟨0, rfl⟩, h⟩
    · refine Outcome.Agrees.bind (R := fun _ _ => True) (fun _ _ _ _ => trivial) fun slot slot' _ => ?_
      have hstart : (Launch.start device kernel folder host slot).Twin R
          (Launch.start device kernel folder' host' slot') := ⟨rfl, rfl, ⟨0, rfl⟩, rfl, h⟩
      refine (Launch.run_twin hk hprogram hstart).bind fun last last' hlast => ?_
      cases hlast with
      | done hend =>
        obtain ⟨atomics, hstats⟩ := hend.stats
        exact Outcome.agrees_ok ⟨hend.device, hend.kernel, ⟨atomics, by rw [hstats]; rfl⟩, hend.host⟩
      | refused hend => exact Outcome.agrees_ok ⟨hend.device, hend.kernel, ⟨0, rfl⟩, hend.host⟩

end Simt
