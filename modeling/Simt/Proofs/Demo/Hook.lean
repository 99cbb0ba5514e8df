-- One issue of the histogram. In a block of the program the hook changes the slot by edits, and
-- leaves the bin of each thread that counts parked on the lane of the thread. What an issue does
-- to the bins is told by the numbers of its threads in the grid.
import Simt.Proofs.Launch.Contexts
import Simt.Proofs.Launch.Delivery
import Simt.Proofs.Launch.Transcript
import Simt.Demo

namespace Simt

/-! ## Edits that set no instruction -/

namespace Slot

variable {α : Type} {s t : Slot α} {edits : List (SlotEdit α)}

theorem edit_text {e : SlotEdit α} (hset : e.inst? = none) (h : e.apply s = .ok t) :
    t.text = s.text := by
  cases e with
  | setInst value => cases hset
  | setAddr lane addr => rw [(updateLane_cases h).2]; rfl
  | setCacheMiss lane cacheMiss => rw [(updateLane_cases h).2]; rfl
  | park lane work => rw [(updateLane_cases h).2]; rfl

/-- Such edits leave what the slot says of itself. -/
theorem edits_text (hset : ∀ e ∈ edits, e.inst? = none)
    (h : edits.foldlM SlotEdit.apply s = .ok t) : t.text = s.text := by
  refine (Outcome.foldlM_keeps (P := fun rest (u : Slot α) =>
    (∀ e ∈ rest, e.inst? = none) ∧ u.text = s.text) ?_ ⟨hset, rfl⟩ h).2
  rintro e rest u v ⟨hrest, hu⟩ hv
  exact ⟨fun e' he' => hrest e' (List.mem_cons_of_mem e he'),
    (edit_text (hrest e List.mem_cons_self) hv).trans hu⟩

end Slot

theorem SlotEdit.lastParked_append {α : Type} (edits later : List (SlotEdit α)) (lane : Nat) :
    lastParked (edits ++ later) lane = (lastParked later lane).or (lastParked edits lane) := by
  rw [lastParked, List.filterMap_append, List.getLast?_append]
  rfl

theorem SlotEdit.instAfter_none {α : Type} {edits : List (SlotEdit α)} (inst : Instruction)
    (hset : ∀ e ∈ edits, e.inst? = none) : instAfter inst edits = inst := by
  rw [instAfter, List.filterMap_eq_nil_iff.mpr hset]
  rfl

namespace Demo

variable {ctx : IssueContext} {slot : Slot Nat} {lane width : Nat}

/-! ## The edits of the hook -/

/-- The context is that of a block of the program, and its warp has no more threads than lanes. -/
structure Inside (width : Nat) (ctx : IssueContext) : Prop where
  block : ctx.block = .line threadsPerBlock
  short : ctx.threads.length ≤ width

/-- The bin that a thread adds to, where the thread counts. -/
def bin? (i : Nat) : Option Nat := if i < threadCount.toNat then some (i % binCount) else none

def laneEdits (ctx : IssueContext) (lane : Nat) : List (SlotEdit Nat) :=
  match ctx.numbers[lane]?.bind bin? with
  | some bin => [.setAddr lane (binBase + 4 * UInt64.ofNat bin), .park lane bin]
  | none => []

/-- What the hook does to the slot of an atomic. -/
def parkEdits (ctx : IssueContext) : List (SlotEdit Nat) :=
  (List.range ctx.threads.length).flatMap (laneEdits ctx)

/-- What the hook does to a slot. -/
def edits (slot : Slot Nat) (ctx : IssueContext) : List (SlotEdit Nat) :=
  if slot.inst.op = .store then parkEdits ctx else []

theorem mem_laneEdits {e : SlotEdit Nat} (h : e ∈ laneEdits ctx lane) :
    e.inst? = none ∧ ∀ width, lane < width → e.Below width := by
  unfold laneEdits at h
  split at h
  · rcases List.mem_pair.mp h with rfl | rfl <;> exact ⟨rfl, fun _ => id⟩
  · cases h

theorem mem_edits {e : SlotEdit Nat} (h : e ∈ edits slot ctx) :
    e.inst? = none ∧ ∀ width, ctx.threads.length ≤ width → e.Below width := by
  unfold edits at h
  split at h
  · obtain ⟨lane, hlane, he⟩ := List.mem_flatMap.mp h
    obtain ⟨hinst, hbelow⟩ := mem_laneEdits he
    rw [List.mem_range] at hlane
    exact ⟨hinst, fun width hle => hbelow width (by omega)⟩
  · cases h

theorem numbers_lt {i : Nat} (hblock : ctx.block = .line threadsPerBlock)
    (h : ctx.numbers[lane]? = some i) : i < UInt64.size := by
  rw [IssueContext.numbers, List.getElem?_map] at h
  obtain ⟨thread, -, rfl⟩ := Option.map_eq_some_iff.mp h
  have hindex := ctx.ctaIndex.toNat_lt_size
  have hthread := thread.toNat_lt_size
  have hvolume : ctx.block.volume = 128 := by rw [hblock]; rfl
  rw [hvolume]
  simp only [UInt32.size, UInt64.size] at *
  omega

theorem parkLane_eq (hblock : ctx.block = .line threadsPerBlock) (hlane : lane < ctx.threads.length) :
    parkLane ctx slot lane = (laneEdits ctx lane).foldlM SlotEdit.apply slot := by
  obtain ⟨i, hi⟩ : ∃ i, ctx.numbers[lane]? = some i :=
    ⟨_, List.getElem?_eq_getElem (by simpa [IssueContext.numbers] using hlane)⟩
  obtain ⟨id, hid, rfl⟩ := IssueContext.globalId_ok (by rw [hblock]; decide) hi (numbers_lt hblock hi)
  have hcounts : id ≥ threadCount.toUInt64 ↔ ¬ id.toNat < threadCount.toNat := by
    rw [ge_iff_le, UInt64.le_iff_toNat_le, UInt32.toNat_toUInt64, Nat.not_lt]
  rw [parkLane, hid, Outcome.ok_bind, laneEdits, hi, Option.bind_some, bin?]
  by_cases hlt : id.toNat < threadCount.toNat
  · rw [if_neg (by rw [hcounts]; exact not_not_intro hlt), if_pos hlt]
    simp only [List.foldlM_cons, List.foldlM_nil, SlotEdit.apply, bind_pure]
  · rw [if_pos (hcounts.mpr hlt), if_neg hlt]
    rfl

/-- What the program remembers after a call of the hook, before anything is delivered. -/
def sampled (memory : Memory) (slot : Slot Nat) : Memory :=
  { memory with sample := memory.sample <|> if slot.inst.op = .store then some slot.text else none }

/-- In a block of the program the hook makes its edits, and none of them shows in the sample. -/
theorem hook_issue (hblock : ctx.block = .line threadsPerBlock) (folder : Folder) (memory : Memory)
    (slot : Slot Nat) : hook.issue folder memory slot ctx =
      ((edits slot ctx).foldlM SlotEdit.apply slot).map (sampled memory slot, ·) := by
  have hpark : (List.range ctx.threads.length).foldlM (parkLane ctx) slot =
      (parkEdits ctx).foldlM SlotEdit.apply slot := by
    rw [parkEdits, Outcome.foldlM_flatMap]
    exact Outcome.foldlM_congr
      (fun s lane hlane => parkLane_eq hblock (List.mem_range.mp hlane)) slot
  have htext : ∀ e ∈ edits slot ctx, e.inst? = none := fun e he => (mem_edits he).1
  simp only [hook, sampled]
  by_cases hstore : slot.inst.op = .store
  · simp only [edits, hstore, if_true] at htext ⊢
    rw [hpark]
    cases hedits : (parkEdits ctx).foldlM SlotEdit.apply slot with
    | error e => rfl
    | ok edited =>
      rw [← Slot.edits_text htext hedits]
      rfl
  · simp [edits, hstore, Except.map]

theorem hook_confined (width : Nat) :
    hook.ConfinedIn (fun _ call => Inside width call.context) width := by
  intro memory call hctx
  exact ⟨sampled memory call.slot, edits call.slot call.context,
    fun e he => (mem_edits he).2 width hctx.short,
    hook_issue hctx.block call.folder memory call.slot⟩

/-- The hook that does nothing outside of the blocks of the program. -/
noncomputable def guarded (width : Nat) : Hook Memory Nat :=
  hook.within fun _ call => Inside width call.context

theorem guarded_confined (width : Nat) : (guarded width).Confined width :=
  (hook_confined width).within

/-! ## What is due -/

theorem lastParked_parkEdits (ctx : IssueContext) (lane : Nat) :
    SlotEdit.lastParked (parkEdits ctx) lane = ctx.numbers[lane]?.bind bin? := by
  have hlast : ∀ l, SlotEdit.lastParked (laneEdits ctx l) lane =
      if l = lane then ctx.numbers[lane]?.bind bin? else none := by
    intro l
    unfold laneEdits
    by_cases hl : l = lane
    · subst hl
      cases ctx.numbers[l]?.bind bin? <;> simp [SlotEdit.lastParked, SlotEdit.parks]
    · cases ctx.numbers[l]?.bind bin? <;> simp [SlotEdit.lastParked, SlotEdit.parks, hl]
  have hupto : ∀ k, SlotEdit.lastParked ((List.range k).flatMap (laneEdits ctx)) lane =
      if lane < k then ctx.numbers[lane]?.bind bin? else none := by
    intro k
    induction k with
    | zero => rfl
    | succ k ih =>
      rw [List.range_succ, List.flatMap_append, SlotEdit.lastParked_append, ih, List.flatMap_singleton,
        hlast]
      by_cases hk : k = lane
      · subst hk
        simp
      · simp [hk, show lane < k + 1 ↔ lane < k by omega]
  rw [parkEdits, hupto]
  split
  · rfl
  · rename_i hlane
    rw [List.getElem?_eq_none (by simpa [IssueContext.numbers] using Nat.not_lt.mp hlane)]
    rfl

theorem filterMap_bin? (is : List Nat) :
    is.filterMap bin? = (is.filter (· < threadCount.toNat)).map (· % binCount) := by
  induction is with
  | nil => rfl
  | cons i rest ih =>
    by_cases hi : i < threadCount.toNat <;> simp [bin?, hi, ih]

/-- The bins of the threads that count are left parked, in the order of the lanes. -/
theorem leftParked_parkEdits (hctx : ctx.threads.length ≤ width) :
    SlotEdit.leftParked width (parkEdits ctx) =
      (ctx.numbers.filter (· < threadCount.toNat)).map (· % binCount) := by
  have hlength : ctx.numbers.length = ctx.threads.length := List.length_map _
  obtain ⟨more, rfl⟩ := Nat.exists_eq_add_of_le hctx
  rw [SlotEdit.leftParked, List.filterMap_congr fun lane _ => lastParked_parkEdits ctx lane,
    List.range_add, List.filterMap_append, ← hlength, Slot.filterMap_range_getElem?, filterMap_bin?,
    List.filterMap_eq_nil_iff.mpr, List.append_nil]
  intro lane hlane
  obtain ⟨l, _, rfl⟩ := List.mem_map.mp hlane
  rw [List.getElem?_eq_none (by omega)]
  rfl

/-! ## One issue -/

/-- The call is that of an atomic. -/
def stores (call : HookCall Nat) : Bool := call.slot.inst.op = .store

/-- The numbers of the threads that add to a bin in a call. -/
def adders (call : HookCall Nat) : List Nat :=
  if stores call then call.context.numbers.filter (· < threadCount.toNat) else []

/-- A call, and one delivery for each thread that adds to a bin. -/
def entries (call : HookCall Nat) : List (HookEvent Nat) :=
  .called call :: (adders call).map fun i => .delivered (i % binCount) call.slot.inst

/-- A thread adds one to its bin. -/
def add (bins : List UInt32) (i : Nat) : List UInt32 := bins.modify (i % binCount) (· + 1)

/-- When threads have added, each bin has one more for each of them that it belongs to. -/
theorem foldl_add (is : List Nat) (bins : List UInt32) : is.foldl add bins =
    bins.mapIdx fun bin n => n + UInt32.ofNat (is.countP (· % binCount = bin)) := by
  induction is generalizing bins with
  | nil => exact List.ext_getElem? fun bin => by simp
  | cons i rest ih =>
    rw [List.foldl_cons, ih]
    refine List.ext_getElem? fun bin => ?_
    simp only [add, List.getElem?_mapIdx, List.getElem?_modify, List.countP_cons]
    cases bins[bin]? with
    | none => rfl
    | some n =>
      by_cases hbin : i % binCount = bin
      · simp only [hbin, if_true, decide_true, UInt32.ofNat_add, Option.map_some, Option.map_eq_map]
        rw [Option.some.injEq, UInt32.add_assoc, UInt32.add_comm 1]
        rfl
      · simp [hbin]

/-- What the program remembers of some calls, and the log of them. -/
def replay (calls : List (HookCall Nat)) : Memory × List (HookEvent Nat) :=
  (⟨(calls.flatMap adders).foldl add Memory.start.bins, (calls.find? stores).map (·.slot.text)⟩,
    calls.flatMap entries)

theorem replay_snoc (calls : List (HookCall Nat)) (call : HookCall Nat) :
    replay (calls ++ [call]) =
      ({ sampled (replay calls).1 call.slot with
          bins := (adders call).foldl add (replay calls).1.bins },
        (replay calls).2 ++ entries call) := by
  simp only [replay, sampled, List.flatMap_append, List.foldl_append, List.find?_append, Prod.mk.injEq,
    Memory.mk.injEq, List.flatMap_singleton, and_true, true_and]
  cases hfirst : calls.find? stores with
  | some first => rfl
  | none =>
    by_cases hstore : call.slot.inst.op = .store <;> simp [stores, hstore]

theorem deliver_foldl (inst : Instruction) (is : List Nat) (host : Memory × List (HookEvent Nat)) :
    (is.map (· % binCount)).foldl (fun host work => hook.logged.deliver host work inst) host =
      ({ host.1 with bins := is.foldl add host.1.bins },
        host.2 ++ is.map fun i => .delivered (i % binCount) inst) := by
  induction is generalizing host with
  | nil => simp
  | cons i rest ih =>
    rw [List.map_cons, List.foldl_cons, ih]
    simp [Hook.logged, hook, add]

/-- The bins of the adders are due after a call that found nothing parked. -/
theorem due_of_edits {call : HookCall Nat} {left : Slot Nat} (hwidth : call.slot.width = width)
    (hfit : call.slot.Fits) (hmarked : call.slot.Marked)
    (hnone : ∀ lane, call.slot.parkedAt lane = none)
    (hlanes : call.context.threads.length ≤ width)
    (h : (edits call.slot call.context).foldlM SlotEdit.apply call.slot = .ok left) :
    left.inst = call.slot.inst ∧ left.due = (adders call).map (· % binCount) := by
  have hbelow : ∀ e ∈ edits call.slot call.context, e.Below call.slot.width := by
    rw [hwidth]
    exact fun e he => (mem_edits he).2 width hlanes
  obtain ⟨hinst, hdue, _⟩ := Slot.edits_due hfit hmarked hnone hbelow h
  rw [SlotEdit.instAfter_none _ fun e he => (mem_edits he).1] at hinst
  rw [hwidth] at hdue
  refine ⟨hinst, ?_⟩
  rw [hdue, edits, adders, stores]
  by_cases hstore : call.slot.inst.op = .store
  · simp only [hstore, if_true, decide_true]
    exact leftParked_parkEdits hlanes
  · simp [hstore, SlotEdit.leftParked, SlotEdit.lastParked]

open Launch in
/-- In a block of the program, an issue adds one to the bin of each of its threads that counts. -/
theorem issue_replays {folder : Folder} {cta : Cta} {inst : Instruction} {warp : Warp}
    {front next : Front (Memory × List (HookEvent Nat)) Nat} {slot edited : Slot Nat}
    {host : Memory × List (HookEvent Nat)} {calls : List (HookCall Nat)}
    (h : Issue (guarded width).logged folder cta inst warp front next slot edited host)
    (hs : front.slot.Idle width) (hctx : Inside width (context cta warp front.cycle))
    (hreplay : front.host = replay calls) :
    next.host = replay (calls ++ [⟨folder, slot, context cta warp front.cycle⟩]) := by
  have hcall := h.called
  simp only [Hook.logged, guarded, Hook.within, hctx, if_true, hook_issue hctx.block] at hcall
  obtain ⟨⟨memory, e⟩, hmade, hcall⟩ := Outcome.bind_eq_ok.mp hcall
  simp only [Outcome.pure_eq_ok, Except.ok.injEq, Prod.mk.injEq] at hcall
  obtain ⟨hhost, rfl⟩ := hcall
  obtain ⟨left, hedits, hmemory⟩ := Outcome.map_eq_ok.mp hmade
  simp only [Prod.mk.injEq] at hmemory
  obtain ⟨rfl, rfl⟩ := hmemory
  obtain ⟨hwidth, hfit, hmarked, hnone⟩ := occupy_unparked h.occupied hs
  obtain ⟨hinst, hdue⟩ := @due_of_edits width ⟨folder, slot, context cta warp front.cycle⟩ left
    hwidth hfit hmarked hnone hctx.short hedits
  rw [h.host, hdue, hinst, replay_snoc, ← hreplay, ← hhost]
  refine (deliver_foldl slot.inst _ _).trans ?_
  simp [entries, sampled]

end Demo

end Simt
