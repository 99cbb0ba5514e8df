-- The work of each call of the hook. The slot is used again for every issue, and each call finds
-- nothing parked on it. What a call leaves parked is delivered before the next call, on all lanes
-- of the slot, and then the warp has nothing in flight.
import Simt.Proofs.Launch.Contexts
import Simt.Proofs.Slot.Parked

namespace Simt

variable {σ α : Type}

/-! ## The transcript -/

/-- A call of the hook, and the edits that it has made. -/
structure EditedCall (α : Type) where
  call : HookCall α
  edits : List (SlotEdit α)

inductive HookEntry (α : Type) where
  | called (call : EditedCall α)
  | delivered (work : α) (inst : Instruction)

/-- What the edits of a call have left parked: of each lane the last work, in ascending order of the
lanes. -/
def EditedCall.left (width : Nat) (c : EditedCall α) : List α := SlotEdit.leftParked width c.edits

/-- A call, and then the deliveries of what it has left parked, with the instruction that it has
left in the slot. -/
def EditedCall.entries (width : Nat) (c : EditedCall α) : List (HookEntry α) :=
  .called c :: (c.left width).map (.delivered · (SlotEdit.instAfter c.call.slot.inst c.edits))

/-- The hook with a transcript of its calls, with the edits of each, and of the deliveries. -/
def Hook.transcribed (edits : σ → HookCall α → List (SlotEdit α)) (hook : Hook σ α) :
    Hook (σ × List (HookEntry α)) α where
  issue folder host slot ctx := do
    let (inner, edited) ← hook.issue folder host.1 slot ctx
    return ((inner, host.2 ++
      [.called ⟨⟨folder, slot, ctx⟩, edits host.1 ⟨folder, slot, ctx⟩⟩]), edited)
  deliver host work inst := (hook.deliver host.1 work inst, host.2 ++ [.delivered work inst])

def LaunchPlan.transcribed (plan : LaunchPlan σ α) (edits : σ → HookCall α → List (SlotEdit α)) :
    LaunchPlan (σ × List (HookEntry α)) α :=
  ⟨plan.program, plan.hook.transcribed edits, plan.sink⟩

variable {hook : Hook σ α} {edits : σ → HookCall α → List (SlotEdit α)}
  {width : Nat}

theorem Hook.transcribed_views (edits : σ → HookCall α → List (SlotEdit α))
    (hook : Hook σ α) : Hook.Views Prod.fst (hook.transcribed edits) hook where
  issue folder host slot ctx := by
    simp only [Hook.transcribed]
    cases hook.issue folder host.1 slot ctx <;> rfl
  deliver _ _ _ := rfl

/-- A launch with a transcript is the launch, and a transcript. -/
theorem launch_transcribed (plan : LaunchPlan σ α)
    (edits : σ → HookCall α → List (SlotEdit α)) (device : Device)
    (kernel : Kernel) (folder : Folder) (host : σ) :
    launch plan device kernel folder host =
      (launch (plan.transcribed edits) device kernel folder (host, [])).map
        (LaunchReport.mapHost Prod.fst) :=
  @launch_views _ _ _ Prod.fst (plan.transcribed edits) plan.hook
    (plan.hook.transcribed_views edits) device kernel folder (host, [])

/-- A call of the hook writes down its edits, and they give the slot that it leaves. -/
theorem Hook.Makes.called {calls : σ → HookCall α → Prop} {folder : Folder}
    {host host' : σ × List (HookEntry α)} {slot edited : Slot α} {ctx : IssueContext}
    (h : hook.Makes edits calls width) (hmade : calls host.1 ⟨folder, slot, ctx⟩)
    (hcall : (hook.transcribed edits).issue folder host slot ctx = .ok (host', edited)) :
    host'.2 = host.2 ++ [.called ⟨⟨folder, slot, ctx⟩, edits host.1 ⟨folder, slot, ctx⟩⟩] ∧
      (edits host.1 ⟨folder, slot, ctx⟩).foldlM SlotEdit.apply slot = .ok edited := by
  obtain ⟨_, inner, hissue⟩ := h host.1 ⟨folder, slot, ctx⟩ hmade
  obtain ⟨⟨inner', e⟩, hinner, hcall⟩ := Outcome.bind_eq_ok.mp hcall
  cases hcall
  rw [hissue] at hinner
  obtain ⟨_, hedits, he⟩ := Outcome.map_eq_ok.mp hinner
  cases he
  exact ⟨rfl, hedits⟩

theorem Hook.transcribed_foldl (inst : Instruction) (work : List α)
    (host : σ × List (HookEntry α)) :
    (work.foldl (fun host w => (hook.transcribed edits).deliver host w inst) host).2 =
      host.2 ++ work.map (.delivered · inst) := by
  induction work generalizing host with
  | nil => simp
  | cons w rest ih =>
    rw [List.foldl_cons, ih]
    simp [Hook.transcribed]

/-! ## Hooks that make their edits in every call -/

/-- Whatever it is called with, the hook makes the edits. -/
abbrev Hook.Always (hook : Hook σ α) (edits : σ → HookCall α → List (SlotEdit α)) (width : Nat) :
    Prop :=
  hook.Makes edits (fun _ _ => True) width

theorem Hook.Always.transcribed (h : hook.Always edits width) :
    (hook.transcribed edits).Confined width := by
  intro folder host slot ctx
  obtain ⟨hbelow, host', hissue⟩ := h host.1 ⟨folder, slot, ctx⟩ trivial
  refine ⟨(host', host.2 ++ [.called ⟨⟨folder, slot, ctx⟩, edits host.1 ⟨folder, slot, ctx⟩⟩]),
    edits host.1 ⟨folder, slot, ctx⟩, hbelow, ?_⟩
  simp only [Hook.transcribed, hissue]
  cases (edits host.1 ⟨folder, slot, ctx⟩).foldlM SlotEdit.apply slot <;> rfl

open Classical in
/-- A hook that makes edits in some calls may be taken to make none in the others. -/
theorem Hook.Makes.stand_in {calls : σ → HookCall α → Prop} (h : hook.Makes edits calls width) :
    ∃ (g : Hook σ α) (made : σ → HookCall α → List (SlotEdit α)), g.Always made width ∧
      g.Agrees calls hook ∧ ∀ host call, calls host call → made host call = edits host call := by
  refine ⟨hook.within calls, fun host call => if calls host call then edits host call else [],
    fun host call _ => ?_, hook.within_agrees calls, fun host call hcall => if_pos hcall⟩
  unfold Hook.within
  by_cases hcall : calls host call
  · simp only [if_pos hcall]
    exact h host call hcall
  · simp only [if_neg hcall]
    exact ⟨by simp, host, rfl⟩

/-- A transcript tells of nothing that two hooks do not share. -/
theorem Hook.Agrees.transcribed {plan : LaunchPlan σ α} {g : Hook σ α}
    {made : σ → HookCall α → List (SlotEdit α)} {device : Device} {kernel : Kernel}
    {folder : Folder} {host : σ}
    (h : g.Agrees (Launch.Calls plan device kernel folder host) plan.hook)
    (hmade : ∀ host' call, Launch.Calls plan device kernel folder host host' call →
      made host' call = edits host' call) :
    (g.transcribed made).Agrees
      (Launch.Calls (plan.transcribed edits) device kernel folder (host, []))
      (plan.transcribed edits).hook where
  issue host' call hcall := by
    have hview := hcall.view (k := plan.hook) (plan.hook.transcribed_views edits)
    simp only [LaunchPlan.transcribed, Hook.transcribed, h.issue host'.1 call hview,
      hmade host'.1 call hview]
  deliver := by simp only [LaunchPlan.transcribed, Hook.transcribed, h.deliver]

namespace Launch

variable {plan : LaunchPlan σ α} {device : Device} {kernel : Kernel} {folder : Folder} {host : σ}
  {cta : Cta} {inst : Instruction} {warp : Warp} {s m : Nat}

/-! ## One issue -/

/-- A slot at rest has nothing parked when the hook gets it. -/
theorem occupy_unparked {front : Front σ α} {slot : Slot α} (h : occupy inst warp front = .ok slot)
    (hs : front.slot.Idle width) :
    slot.width = width ∧ slot.Fits ∧ slot.Marked ∧ ∀ lane, slot.parkedAt lane = none := by
  obtain ⟨active, _, h⟩ := Outcome.bind_eq_ok.mp h
  have hidle : Slot.Idle { front.slot with inst } width :=
    ⟨hs.width, hs.empty, hs.atomic, hs.active, hs.lanes⟩
  obtain ⟨_, _, _, hwidth, _, hlanes⟩ := Slot.issue_cases h
  have hnone : ∀ lane, slot.parkedAt lane = none := by
    intro lane
    rw [Slot.parkedAt_congr hlanes, hidle.parkedAt]
  refine ⟨hwidth.trans hs.width, ?_, ?_, hnone⟩
  · intro lanes hl
    rw [hlanes] at hl
    rw [hwidth]
    exact hidle.fits lanes hl
  · intro lane hp
    rw [hnone] at hp
    cases hp

/-- The transcript consists of calls, each with the deliveries of its own work, and the count is
the length of all deliveries. -/
def Transcript (width : Nat) (entries : List (HookEntry α)) (atomics : UInt64) : Prop :=
  ∃ calls : List (EditedCall α), entries = calls.flatMap (EditedCall.entries width) ∧
    atomics.toNat = (calls.flatMap (EditedCall.left width)).length

/-- An issue adds one call to the transcript, with what the call has left parked. -/
theorem Issue.transcript {front next : Front (σ × List (HookEntry α)) α} {slot edited : Slot α}
    {host : σ × List (HookEntry α)}
    (h : Issue (hook.transcribed edits) folder cta inst warp front next slot edited host)
    (hmakes : hook.Always edits width) (hw : width ≤ maxWarpSize) (hs : front.slot.Idle width)
    (ht : Transcript width front.host.2 front.atomics) :
    Transcript width next.host.2 next.atomics := by
  obtain ⟨hwidth, hfit, hmarked, hnone⟩ := occupy_unparked h.occupied hs
  obtain ⟨hwritten, hedits⟩ := hmakes.called trivial h.called
  obtain ⟨hbelow, _⟩ := hmakes front.host.1 ⟨folder, slot, context cta warp front.cycle⟩ trivial
  -- The slot had nothing parked on it, so what is due was parked by the edits of this call.
  obtain ⟨hinst, hdue, hlen⟩ :=
    Slot.edits_due hfit hmarked hnone (by rw [hwidth]; exact hbelow) hedits
  rw [hwidth] at hdue hlen
  have hword : (UInt64.ofNat edited.due.length).toNat = edited.due.length := by
    refine UInt64.toNat_ofNat_of_lt' ?_
    unfold maxWarpSize at hw
    simp only [UInt64.size]
    omega
  obtain ⟨calls, hentries, hcount⟩ := ht
  refine ⟨calls ++ [⟨⟨folder, slot, context cta warp front.cycle⟩,
    edits front.host.1 ⟨folder, slot, context cta warp front.cycle⟩⟩], ?_, ?_⟩
  · rw [h.host, Hook.transcribed_foldl, hwritten, hentries, hdue, hinst]
    simp [EditedCall.entries, EditedCall.left]
  · rw [Word.add64_eq_ok.mp h.atomics, hword, hcount, hdue]
    simp [EditedCall.left]

/-! ## After an issue -/

/-- A launch has issued an instruction for a warp: the blocks before are done, the instructions
before are issued for all warps of the block, and the instruction for the warps before and for
this one. -/
inductive Issued (plan : LaunchPlan σ α) (device : Device) (kernel : Kernel) (folder : Folder)
    (host : σ) : Warp → Front σ α → Prop where
  | intro {warpsPerCta state opening insts inst insts' ws warp ws' mid next}
      (comes : Comes plan device kernel folder host warpsPerCta state)
      (opened : openCta warpsPerCta state = .ok opening)
      (taken : opening.admission.refused = false)
      (program : plan.program = insts ++ inst :: insts')
      (warps : opening.admission.taken = ws ++ warp :: ws')
      (before : issueAll plan.hook state.folder opening.cta opening.admission.taken insts
        (opening.front state) = .ok mid)
      (turn : issueEach plan.hook state.folder opening.cta (ws ++ [warp]) inst mid = .ok next) :
      Issued plan device kernel folder host warp next

theorem issueEach_serves {front next : Front σ α} {ws : List Warp} {id : UInt32}
    (hs : front.sm.Serves cta.index id) (h : issueEach hook folder cta ws inst front = .ok next) :
    next.sm.Serves cta.index id := by
  refine Outcome.foldlM_keeps (P := fun _ (front : Front σ α) => front.sm.Serves cta.index id)
    ?_ hs h
  intro warp rest b c hb hstep
  obtain ⟨slot, edited, host, hissue⟩ := issue_cases hstep
  exact meet_serves hissue.met hb

/-- A warp that has issued is not waiting for the work that it has parked. -/
theorem Issued.idle {front : Front σ α} (h : Issued plan device kernel folder host warp front) :
    front.sm.waitsForAtomics warp.id = false := by
  obtain @⟨_, state, opening, insts, _, _, ws, _, ws', mid, _, _, hopen, _, _, hwarps, hbefore,
    hturn⟩ := h
  obtain ⟨sm, _, henter⟩ := openCta_sm hopen
  have hfirst : (opening.front state).sm.Serves opening.cta.index warp.id :=
    (enter_serves henter).2 warp (by rw [hwarps]; simp)
  have hmid : mid.sm.Serves opening.cta.index warp.id :=
    Outcome.foldlM_keeps (P := fun _ (front : Front σ α) =>
      front.sm.Serves opening.cta.index warp.id)
      (fun inst rest b c hb hc => issueEach_serves hb hc) hfirst hbefore
  obtain ⟨r, hf, _, hp⟩ := issueEach_serves hmid hturn
  simp [Sm.waitsForAtomics, hf, hp]

end Launch

/-- In a launch that goes through, each call of the hook has its own work delivered, and nothing
else is. The transcript is a row of calls. After each call stands, for every lane of the slot that
has got work in it, the last one, in ascending order of the lanes, with the instruction as the call
has left it. The count is the length of all deliveries, and a warp that has issued waits for none. -/
theorem each_call_of_the_hook_has_its_own_work_delivered {σ α : Type} (plan : LaunchPlan σ α)
    {device : Device} {kernel : Kernel} {s m : Nat} {edits : σ → HookCall α → List (SlotEdit α)}
    (folder : Folder) (host : σ) {report : LaunchReport σ} {stats : Stats} (hd : device.Sound)
    (hk : kernel.Reached s m)
    (hmakes : plan.hook.Makes edits (Launch.Calls plan device kernel folder host) device.warpSize)
    (h : launch plan device kernel folder host = .ok report) (hok : report.result = .ok stats) :
    (∃ calls : List (EditedCall α),
      launch (plan.transcribed edits) device kernel folder (host, []) =
        .ok (report.mapHost fun host =>
          (host, calls.flatMap (EditedCall.entries device.warpSize))) ∧
      stats.atomics.toNat = (calls.flatMap (EditedCall.left device.warpSize)).length) ∧
    ∀ warp front, Launch.Issued plan device kernel folder host warp front →
      front.sm.waitsForAtomics warp.id = false := by
  obtain ⟨hat, hs, hm⟩ := hk.stands
  refine ⟨?_, fun warp front => Launch.Issued.idle⟩
  rw [launch_transcribed plan edits device kernel folder host] at h
  obtain ⟨transcribed, hrun, rfl⟩ := Outcome.map_eq_ok.mp h
  obtain ⟨g, made, hg, hagrees, hmade⟩ := hmakes.stand_in
  have hstand : launch (LaunchPlan.transcribed { plan with hook := g } made) device kernel folder
      (host, []) = .ok transcribed := (hagrees.transcribed hmade).launch.trans hrun
  obtain ⟨calls, hentries, hcount⟩ : Launch.Transcript device.warpSize transcribed.host.2
      stats.atomics :=
    Launch.launch_keeps (P := fun host atomics => Launch.Transcript device.warpSize host.2 atomics)
      hg.transcribed hd hat hs hm
      (fun _ _ _ _ _ _ _ _ _ hissue hidle _ ht =>
        hissue.transcript hg hd.warpSize_le hidle ht)
      ⟨[], rfl, rfl⟩ hstand hok
  refine ⟨calls, ?_, hcount⟩
  rw [hrun, ← hentries]
  rfl

namespace Launch

/-- Each thread adds its number in the grid to a total, by work that is parked on its lane. -/
def tallies : LaunchPlan Nat UInt64 := ⟨[.placeholder], tallying, none⟩

/-- Two blocks of a warp with two threads and a warp with one. -/
def twoOfThree : Kernel := .bind (.line 2) (.line 3) ⟨"atomic_add", 16⟩

theorem twoOfThree_reached : twoOfThree.Reached 0 0 := .bind (.line 2) (.line 3) ⟨"atomic_add", 16⟩

end Launch

/-- Four warps issue once each. The numbers of their six threads are delivered, and make fifteen. -/
theorem six_threads_add_their_numbers :
    ∃ (report : LaunchReport Nat) (stats : Stats) (calls : List (EditedCall UInt64)),
      launch Launch.tallies .small Launch.twoOfThree .empty 0 = .ok report ∧
      report.result = .ok stats ∧ report.host = 15 ∧ stats.atomics.toNat = 6 ∧
      launch (Launch.tallies.transcribed Launch.tallyEdits) .small Launch.twoOfThree .empty
        (0, []) = .ok (report.mapHost fun host => (host, calls.flatMap (EditedCall.entries 2))) ∧
      stats.atomics.toNat = (calls.flatMap (EditedCall.left 2)).length := by
  have hrun : (launch Launch.tallies .small Launch.twoOfThree .empty 0).map
      (fun report => (report.result, report.host)) = .ok (.ok ⟨2, 4, 6, 4, 6, 4⟩, 15) := by cbv
  obtain ⟨report, h, hvalues⟩ := Outcome.map_eq_ok.mp hrun
  obtain ⟨hok, hhost⟩ := Prod.mk.injEq .. ▸ hvalues
  have hk := Launch.twoOfThree_reached
  have hmakes : Launch.tallies.hook.Makes Launch.tallyEdits
      (Launch.Calls Launch.tallies .small Launch.twoOfThree .empty 0) 2 :=
    (Launch.tallying_makes Device.small_sound (by decide)).of_passes Device.small_sound hk
  obtain ⟨⟨calls, hcalls, hcount⟩, _⟩ := @each_call_of_the_hook_has_its_own_work_delivered Nat
    UInt64 Launch.tallies .small Launch.twoOfThree 0 0 Launch.tallyEdits .empty 0 report _
    Device.small_sound hk hmakes h hok
  exact ⟨report, _, calls, h, hok, hhost, rfl, hcalls, hcount⟩

end Simt
