-- The calls of the hook over a whole launch. Whatever is resident on the SMs, the hook sees
-- the blocks that are done in the order of their numbers, and of each block every pair of
-- an instruction and a warp once.
import Simt.Proofs.Launch.Course

namespace Simt.Launch

variable {σ α : Type} {plan : LaunchPlan σ α} {warpsPerCta : UInt32} {width s m n : Nat}

/-! ## The pairs of a launch -/

/-- What the blocks from `s` on, and before `n`, issue: a block, an instruction and a warp. -/
def tasks (program : List Instruction) (device : Device) (kernel : Kernel) (warpsPerCta : UInt32)
    (s m n : Nat) : List (Nat × Instruction × Warp) :=
  (List.range' s (n - s)).flatMap fun f =>
    (program ×ˢ warpsOf device kernel warpsPerCta s m f).map (f, ·)

theorem tasks_succ (program : List Instruction) (device : Device) (kernel : Kernel)
    (warpsPerCta : UInt32) (m : Nat) (h : s ≤ n) :
    tasks program device kernel warpsPerCta s m (n + 1) =
      tasks program device kernel warpsPerCta s m n ++
        (program ×ˢ warpsOf device kernel warpsPerCta s m n).map (n, ·) := by
  rw [tasks, range'_snoc h, List.flatMap_append, tasks]
  simp

/-! ## One block after the other -/

variable {first state next : State (σ × List (HookEvent α)) α}

/-- The calls of a launch are those of the blocks before `n`, and the slot rests. -/
structure Called (program : List Instruction) (warpsPerCta : UInt32)
    (first : State (σ × List (HookEvent α)) α) (s m n : Nat)
    (state : State (σ × List (HookEvent α)) α) : Prop where
  idle : state.slot.Idle first.device.warpSize
  calls : ∃ calls, HookEvent.calls state.host.2 = HookEvent.calls first.host.2 ++ calls ∧
    List.Forall₂ (fun call t => Shows (ctaAt first.device first.kernel t.1) call t.2) calls
      (tasks program first.device first.kernel warpsPerCta s m n)

theorem called_first (hidle : first.slot.Idle first.device.warpSize) :
    Called plan.program warpsPerCta first s m s first := by
  refine ⟨hidle, [], by simp, ?_⟩
  simp [tasks]

theorem Called.advance (hc : plan.hook.Confined first.device.warpSize)
    (hcalled : Called plan.program warpsPerCta first s m n state)
    (h : Stands first s m n state) (hd : first.device.Sound)
    (hm : m < first.kernel.block.reach) (hn : n < first.kernel.grid.volume)
    (hdone : executeCta plan.logged warpsPerCta state = .ok (.done next)) :
    Called plan.program warpsPerCta first s m (n + 1) next := by
  obtain ⟨opening, front, hopen, htaken, hissue, hfin⟩ := executeCta_done hdone
  have hcta := (h.opens hm hn hopen).1
  have hwarps := h.takes hm hn hopen htaken
  rw [hwarps] at hissue
  have hidle : (opening.front state).slot.Idle first.device.warpSize := hcalled.idle
  have hshort : ∀ warp ∈ warpsOf first.device first.kernel warpsPerCta s m n,
      warp.threads.length ≤ first.device.warpSize := fun warp => threads_of_mem_warpsOf hd
  have hlook := outlook_first plan.program hidle hshort
  obtain ⟨calls, hlog, hshows⟩ := issueAll_calls hc hd.warpSize_le hlook hissue
  obtain ⟨before, hbefore, hall⟩ := hcalled.calls
  have hend := hlook.issueAll hc.logged hd.warpSize_le hissue
  refine ⟨by rw [hfin.slot]; exact hend.idle, before ++ calls, ?_, ?_⟩
  · rw [hfin.host, hlog, ← List.append_assoc, ← hbefore]
    rfl
  · rw [tasks_succ _ _ _ _ _ h.le]
    refine List.rel_append hall ?_
    rw [hcta] at hshows
    rw [List.forall₂_map_right_iff]
    exact hshows

/-- How far a logged launch has come at its end, and what the hook was called with until then. -/
theorem launch_calls {device : Device} {kernel : Kernel} {folder : Folder}
    {host : σ × List (HookEvent α)} {report : LaunchReport (σ × List (HookEvent α))}
    (hc : plan.hook.Confined device.warpSize) (hd : device.Sound) (hbound : kernel.bound = true)
    (hat : kernel.At s m) (hs : s < kernel.grid.reach) (hm : m < kernel.block.reach)
    (hfits : warpsNeeded kernel.block.volume device.warpSize ≤ device.config.maxWarps.toNat)
    (h : launch plan.logged device kernel folder host = .ok report) :
    ∃ warpsPerCta first n final, Begins device kernel folder host warpsPerCta first ∧
      Stands first s m n final ∧ Called plan.program warpsPerCta first s m n final ∧
      ((report = BlockEnd.report device.config.maxWarps.toNat (.done final) ∧
          kernel.grid.volume ≤ n ∧ n - s = kernel.grid.volume - s) ∨
        ∃ warps refused, n < kernel.grid.volume ∧
          report = BlockEnd.report device.config.maxWarps.toNat (.refused warps refused) ∧
          executeCta plan.logged warpsPerCta final = .ok (.refused warps refused)) := by
  rcases launch_cases hbound h with ⟨hlarge, _⟩ | ⟨warpsPerCta, first, last, hbegins, hrun, hreport⟩
  · omega
  · obtain ⟨rfl, rfl, hat⟩ := hbegins.at hat
    obtain ⟨n, final, hstands, _, hcalled, hlast⟩ := run_stands
      (Q := fun n state => Called plan.program warpsPerCta first s m n state) hat hs hm
      (called_first (hbegins.idle hd))
      (fun n state next hst hn hcalled hdone => hcalled.advance hc hst hd hm hn hdone) hrun
    refine ⟨warpsPerCta, first, n, final, hbegins, hstands, hcalled, ?_⟩
    rcases hlast with ⟨rfl, hend⟩ | ⟨warps, refused, rfl, hn, hrefused⟩
    · exact Or.inl ⟨hreport, hend (by omega)⟩
    · exact Or.inr ⟨warps, refused, hn, hreport, hrefused⟩

end Simt.Launch
