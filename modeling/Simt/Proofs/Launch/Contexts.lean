-- What a launch passes to its hook. The contexts come from the blocks and the warps of the kernel,
-- and the slot holds the instruction on as many lanes as the warp has threads. So a hook that goes
-- over the threads of its context, or over the active lanes of its slot, is confined.
import Simt.Proofs.Launch.Locality

namespace Simt

variable {σ α : Type}

/-! ## Numbers in the grid -/

/-- The number of each thread of the warp in the whole grid. -/
def IssueContext.numbers (ctx : IssueContext) : List Nat :=
  ctx.threads.map fun thread => ctx.ctaIndex.toNat * ctx.block.volume + thread.toNat

theorem IssueContext.globalId_ok {ctx : IssueContext} {lane i : Nat}
    (hsize : ctx.block.volume < UInt64.size) (h : ctx.numbers[lane]? = some i)
    (hi : i < UInt64.size) : ∃ id, ctx.globalId lane = .ok id ∧ id.toNat = i := by
  rw [numbers, List.getElem?_map] at h
  obtain ⟨thread, hthread, rfl⟩ := Option.map_eq_some_iff.mp h
  obtain ⟨size, hblock⟩ := Dim3.size_ok hsize
  have hvolume := Dim3.size_eq_ok hblock
  obtain ⟨before, hbefore⟩ := Word.mul64_ok (a := ctx.ctaIndex.toUInt64) (b := size)
    (by rw [UInt32.toNat_toUInt64, hvolume]; omega)
  have hmul := Word.mul64_eq_ok.mp hbefore
  rw [UInt32.toNat_toUInt64, hvolume] at hmul
  obtain ⟨id, hid⟩ := Word.add64_ok (a := before) (b := thread.toUInt64)
    (by rw [hmul, UInt32.toNat_toUInt64]; exact hi)
  refine ⟨id, ?_, ?_⟩
  · simp only [globalId, hblock, Outcome.ok_bind, hbefore, hthread, hid]
  · rw [Word.add64_eq_ok.mp hid, hmul, UInt32.toNat_toUInt64]

/-! ## Calls -/

/-- A launch that begins at block `s`, with `m` threads of it handed out, may call its hook here. -/
inductive Launch.Gives (device : Device) (kernel : Kernel) (s m : Nat) : IssueContext → Prop
  | intro {n : Nat} {warp : Launch.Warp} (cycle : UInt64) (block : n < kernel.grid.volume)
      (warps : warp ∈ Launch.warpsOf device kernel
        (UInt32.ofNat (warpsNeeded kernel.block.volume device.warpSize)) s m n) :
      Gives device kernel s m (Launch.context (Launch.ctaAt device kernel n) warp cycle)

/-- Such a launch may call its hook with this slot in this context. -/
structure Launch.Passes (program : List Instruction) (device : Device) (kernel : Kernel) (s m : Nat)
    (call : HookCall α) : Prop where
  gives : Launch.Gives device kernel s m call.context
  inst : call.slot.inst ∈ program
  width : call.slot.width = device.warpSize
  fits : call.slot.Fits
  used : call.slot.empty = false
  /-- The lanes of the threads are the active ones. -/
  lanes : call.slot.active.lanes = List.range call.context.threads.length

namespace Launch

variable {plan : LaunchPlan σ α} {device : Device} {kernel : Kernel} {folder : Folder} {host : σ}
  {warpsPerCta : UInt32} {state : State σ α} {ctx : IssueContext} {s m : Nat}

/-! ## The contexts -/

theorem Gives.short (h : Gives device kernel s m ctx) (hd : device.Sound) :
    ctx.threads.length ≤ device.warpSize := by
  obtain ⟨cycle, _, hwarp⟩ := h
  exact threads_of_mem_warpsOf hd hwarp

theorem Gives.block (h : Gives device kernel s m ctx) : ctx.block = kernel.block := by
  obtain ⟨cycle, _, _⟩ := h
  rfl

/-- Every thread of such a context has a number in the grid, and a word holds it. -/
theorem Gives.globalId_ok {lane : Nat} (h : Gives device kernel s m ctx)
    (hblock : kernel.block.volume < 2 ^ 32) (hlane : lane < ctx.threads.length) :
    ∃ id, ctx.globalId lane = .ok id := by
  have hvolume : ctx.block.volume < 2 ^ 32 := by rwa [h.block]
  have hnumber : ctx.numbers[lane]? =
      some (ctx.ctaIndex.toNat * ctx.block.volume + ctx.threads[lane].toNat) := by
    rw [IssueContext.numbers, List.getElem?_map, List.getElem?_eq_getElem hlane]
    rfl
  have hindex := ctx.ctaIndex.toNat_lt_size
  have hthread := ctx.threads[lane].toNat_lt_size
  have hproduct : ctx.ctaIndex.toNat * ctx.block.volume ≤ (2 ^ 32 - 1) * (2 ^ 32 - 1) :=
    Nat.mul_le_mul (by simp only [UInt32.size] at hindex; omega) (by omega)
  obtain ⟨id, hid, _⟩ := IssueContext.globalId_ok (by simp only [UInt64.size]; omega) hnumber
    (by simp only [UInt32.size, UInt64.size] at *; omega)
  exact ⟨id, hid⟩

/-- The context of a warp of the block that a launch has come to. -/
theorem Comes.gives {opening : Opening} {warp : Warp}
    (h : Comes plan device kernel folder host warpsPerCta state)
    (hk : kernel.Reached s m) (hopen : openCta warpsPerCta state = .ok opening)
    (htaken : opening.admission.refused = false) (hwarp : warp ∈ opening.admission.taken)
    (cycle : UInt64) : Gives device kernel s m (context opening.cta warp cycle) := by
  obtain ⟨hat, hs, hm⟩ := hk.stands
  have hwarps : warpsPerCta = UInt32.ofNat (warpsNeeded kernel.block.volume device.warpSize) := by
    obtain ⟨first, _, hbegins, _⟩ := h.before
    exact hbegins.warps
  obtain ⟨first, n, rfl, rfl, hstands, hn, _⟩ := h.stands (Q := fun _ _ _ => True) hat hs hm
    (fun _ _ => trivial) (fun _ _ _ _ _ _ _ _ _ _ => trivial)
  rw [hstands.takes hm hn hopen htaken, hwarps] at hwarp
  rw [(hstands.opens hm hn hopen).1]
  exact .intro cycle hn hwarp

theorem Calls.gives {host' : σ} {call : HookCall α}
    (h : Calls plan device kernel folder host host' call) (hk : kernel.Reached s m) :
    Gives device kernel s m call.context := by
  obtain @⟨_, _, opening, before, inst, warp, after, front, _, hcomes, hopen, htaken, horder, _, _⟩ :=
    h
  have hmem : (inst, warp) ∈ plan.program ×ˢ opening.admission.taken := by
    rw [horder]
    simp
  exact hcomes.gives hk hopen htaken (List.mem_product.mp hmem).2 front.cycle

/-! ## The slots -/

/-- Where a launch comes to a block, its slot is at rest. -/
theorem Comes.idle (h : Comes plan device kernel folder host warpsPerCta state)
    (hc : plan.hook.Confined device.warpSize) (hd : device.Sound) (hk : kernel.Reached s m) :
    state.slot.Idle device.warpSize := by
  obtain ⟨hat, hs, hm⟩ := hk.stands
  obtain ⟨_, _, rfl, rfl, _, _, hidle⟩ := h.stands
    (Q := fun first _ state => state.slot.Idle first.device.warpSize) hat hs hm
    (fun first hbegins => by
      have hidle := hbegins.idle hd
      rwa [← (hbegins.at hat).1] at hidle)
    (by
      rintro first rfl rfl n state next hst hn hidle hdone
      exact (hst.keeps (P := fun _ _ => True) hc hd hm hn
        (fun _ _ _ _ _ _ _ _ _ _ _ _ _ => trivial) hidle trivial hdone).1)
  exact hidle

/-- A confined hook is passed a slot as it was issued into. -/
theorem Calls.passes_of_confined {host' : σ} {call : HookCall α}
    (h : Calls plan device kernel folder host host' call)
    (hc : plan.hook.Confined device.warpSize) (hd : device.Sound) (hk : kernel.Reached s m) :
    Passes plan.program device kernel s m call := by
  have hgives := h.gives hk
  obtain @⟨_, state, opening, before, inst, warp, after, front, slot, hcomes, hopen, htaken, horder,
    hissued, hslot⟩ := h
  have hshort : ∀ t ∈ before ++ (inst, warp) :: after, t.2.threads.length ≤ device.warpSize := by
    intro t ht
    rw [← horder] at ht
    exact (hcomes.gives hk hopen htaken (List.mem_product.mp ht).2 0).short hd
  have hidle : front.slot.Idle device.warpSize := by
    refine (Outcome.foldlM_keeps (P := fun rest (front : Front σ α) =>
      front.slot.Idle device.warpSize ∧ ∀ t ∈ rest, t.2.threads.length ≤ device.warpSize)
      ?_ ⟨hcomes.idle hc hd hk, fun t ht => hshort t (List.mem_append_left _ ht)⟩ hissued).1
    rintro t rest b c ⟨hb, hrest⟩ hstep
    obtain ⟨_, _, _, hissue⟩ := issue_cases hstep
    exact ⟨(hissue.keeps_idle hc hd.warpSize_le hb (hrest t List.mem_cons_self)).2.2.1,
      fun u hu => hrest u (List.mem_cons_of_mem t hu)⟩
  obtain ⟨u, hu, hinst, hwidth, hused, hlanes, hfits⟩ := occupy_ok inst hidle hd.warpSize_le
    (hshort (inst, warp) (by simp))
  rw [hslot, Except.ok.injEq] at hu
  subst hu
  have hmem : (inst, warp) ∈ plan.program ×ˢ opening.admission.taken := by
    rw [horder]
    simp
  refine ⟨hgives, ?_, hwidth, hfits, hused, hlanes⟩
  rw [hinst]
  exact (List.mem_product.mp hmem).1

/-- So is a hook that is confined on such slots. -/
theorem Calls.passes {host' : σ} {call : HookCall α}
    (h : Calls plan device kernel folder host host' call) (hd : device.Sound)
    (hk : kernel.Reached s m)
    (hc : plan.hook.ConfinedIn (fun _ call => Passes plan.program device kernel s m call)
      device.warpSize) : Passes plan.program device kernel s m call := by
  -- The hook and its stand-in agree on all calls of the stand-in, so these are all calls.
  obtain ⟨g, hg, hagrees⟩ := hc.stand_in
  have hpasses : ∀ host' call,
      Calls { plan with hook := g } device kernel folder host host' call →
        Passes plan.program device kernel s m call :=
    fun _ _ hcall => hcall.passes_of_confined hg hd hk
  have hsame : plan.hook.Agrees (Calls { plan with hook := g } device kernel folder host) g :=
    hagrees.symm.mono hpasses
  exact hpasses host' call
    (@Calls.agrees _ _ { plan with hook := g } plan.hook _ _ _ _ _ _ h hsame)

theorem Passes.lt_of_active {program : List Instruction} {call : HookCall α} {lane : Nat}
    (h : Passes program device kernel s m call) (hd : device.Sound)
    (hlane : lane ∈ call.slot.active.lanes) : lane < device.warpSize := by
  rw [h.lanes, List.mem_range] at hlane
  exact hlane.trans_le (h.gives.short hd)

end Launch

/-- A hook that is confined on what a launch may pass is confined where the launch calls it. -/
theorem Hook.ConfinedIn.of_passes {plan : LaunchPlan σ α} {device : Device} {kernel : Kernel}
    {folder : Folder} {host : σ} {s m : Nat} (hd : device.Sound) (hk : kernel.Reached s m)
    (h : plan.hook.ConfinedIn (fun _ call => Launch.Passes plan.program device kernel s m call)
      device.warpSize) :
    plan.hook.ConfinedIn (Launch.Calls plan device kernel folder host) device.warpSize :=
  h.mono fun _ _ hcall => hcall.passes hd hk h

theorem Hook.Makes.of_passes {plan : LaunchPlan σ α} {device : Device} {kernel : Kernel}
    {folder : Folder} {host : σ} {s m : Nat} {edits : σ → HookCall α → List (SlotEdit α)}
    (hd : device.Sound) (hk : kernel.Reached s m)
    (h : plan.hook.Makes edits
      (fun _ call => Launch.Passes plan.program device kernel s m call) device.warpSize) :
    plan.hook.Makes edits (Launch.Calls plan device kernel folder host) device.warpSize :=
  h.mono fun _ _ hcall => hcall.passes hd hk h.confinedIn

/-! ## Hooks that go over lanes -/

namespace Launch

variable {program : List Instruction} {device : Device} {kernel : Kernel} {s m : Nat}

/-- Records an address on a lane, and parks the number that its thread has in the grid. -/
def tally (ctx : IssueContext) (slot : Slot UInt64) (lane : Nat) : Outcome (Slot UInt64) := do
  let slot ← slot.setAddr lane 4096
  let id ← ctx.globalId lane
  slot.park lane id

/-- A hook that goes over the threads of its context. The numbers of the threads are added up. -/
def tallying : Hook Nat UInt64 where
  issue _ total slot ctx := do
    return (total, ← (List.range ctx.threads.length).foldlM (tally ctx) slot)
  deliver total id _ := total + id.toNat

def tallyLane (ctx : IssueContext) (lane : Nat) : List (SlotEdit UInt64) :=
  match ctx.globalId lane with
  | .ok id => [.setAddr lane 4096, .park lane id]
  | .error _ => []

def tallyEdits (_ : Nat) (call : HookCall UInt64) : List (SlotEdit UInt64) :=
  (List.range call.context.threads.length).flatMap (tallyLane call.context)

theorem tallying_makes (hd : device.Sound) (hblock : kernel.block.volume < 2 ^ 32) :
    tallying.Makes tallyEdits (fun _ call => Passes program device kernel s m call)
      device.warpSize := by
  intro total call hcall
  have hshort := hcall.gives.short hd
  have hlanes : ∀ lane ∈ List.range call.context.threads.length, ∀ slot : Slot UInt64,
      tally call.context slot lane = (tallyLane call.context lane).foldlM SlotEdit.apply slot ∧
        ∀ e ∈ tallyLane call.context lane, e.Below device.warpSize := by
    intro lane hlane slot
    rw [List.mem_range] at hlane
    obtain ⟨id, hid⟩ := hcall.gives.globalId_ok hblock hlane
    have hbelow : lane < device.warpSize := by omega
    constructor
    · simp only [tally, tallyLane, hid, Outcome.ok_bind, List.foldlM_cons, List.foldlM_nil,
        SlotEdit.apply, bind_pure]
    · simp [tallyLane, hid, SlotEdit.Below, hbelow]
  refine ⟨fun e he => ?_, total, ?_⟩
  · obtain ⟨lane, hlane, he⟩ := List.mem_flatMap.mp he
    exact (hlanes lane hlane call.slot).2 e he
  · have hloop : (List.range call.context.threads.length).foldlM (tally call.context) call.slot =
        (tallyEdits total call).foldlM SlotEdit.apply call.slot := by
      rw [tallyEdits, Outcome.foldlM_flatMap]
      exact Outcome.foldlM_congr (fun slot lane hlane => (hlanes lane hlane slot).1) call.slot
    unfold tallying
    simp only [hloop]
    cases (tallyEdits total call).foldlM SlotEdit.apply call.slot <;> rfl

theorem tallying_confined (hd : device.Sound) (hk : kernel.Reached s m)
    (hblock : kernel.block.volume < 2 ^ 32) (sink : Option SnapshotSink) (folder : Folder)
    (host : Nat) : tallying.ConfinedIn
      (Calls ⟨program, tallying, sink⟩ device kernel folder host) device.warpSize :=
  Hook.ConfinedIn.of_passes hd hk (tallying_makes hd hblock).confinedIn

/-- A slow barrier in place of an instruction. -/
def slowed (inst : Instruction) : Instruction := { inst with op := .barrier, cycles := 90 }

/-- A hook that puts a slow barrier in place of every instruction. It records a miss on each active
lane, and parks work on every lane of the slot. -/
def meddling : Hook Nat Unit where
  issue _ host slot _ := do
    let marked ← slot.active.lanes.foldlM (fun slot lane => slot.setCacheMiss lane true)
      { slot with inst := slowed slot.inst }
    let parked ← (List.range slot.width).foldlM (fun slot lane => slot.park lane ()) marked
    return (host + 1, parked)
  deliver host _ _ := host + 1

def meddlingEdits (call : HookCall Unit) : List (SlotEdit Unit) :=
  .setInst (slowed call.slot.inst) :: (call.slot.active.lanes.map (.setCacheMiss · true) ++
    (List.range call.slot.width).map (.park · ()))

theorem meddling_confined (hd : device.Sound) (hk : kernel.Reached s m)
    (sink : Option SnapshotSink) (folder : Folder) (host : Nat) : meddling.ConfinedIn
      (Calls ⟨program, meddling, sink⟩ device kernel folder host) device.warpSize := by
  refine Hook.ConfinedIn.of_passes hd hk fun host call hcall => ?_
  refine ⟨host + 1, meddlingEdits call, ?_, ?_⟩
  · unfold meddlingEdits
    simp only [List.forall_mem_cons, List.forall_mem_append, List.forall_mem_map, SlotEdit.Below,
      List.mem_range, hcall.width, true_and]
    exact ⟨fun lane hlane => hcall.lt_of_active hd hlane, fun lane hlane => hlane⟩
  · unfold meddling meddlingEdits
    simp only [List.foldlM_cons, List.foldlM_append, List.foldlM_map, SlotEdit.apply,
      Outcome.ok_bind]
    refine Outcome.bind_map_right fun marked => ?_
    cases (List.range call.slot.width).foldlM (fun slot lane => slot.park lane ()) marked <;> rfl

end Launch

end Simt
