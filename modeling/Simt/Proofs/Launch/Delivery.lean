-- Deliveries of parked work. Each issue delivers what the hook has left on the lanes of the slot,
-- and counts as much as it delivers, so the count of a launch is the length of what its log says
-- was delivered.
import Simt.Proofs.Launch.Course

namespace Simt

variable {σ α : Type}

/-- The work that was delivered in a log, with the instruction that it was given, in order. -/
def HookEvent.deliveries (log : List (HookEvent α)) : List (α × Instruction) :=
  log.filterMap fun
    | .called _ => none
    | .delivered work inst => some (work, inst)

namespace Launch

variable {plan : LaunchPlan σ α} {hook : Hook σ α} {folder : Folder} {cta : Cta}
  {inst : Instruction} {warp : Warp} {front next : Front (σ × List (HookEvent α)) α}
  {slot edited : Slot α} {host : σ × List (HookEvent α)} {warpsPerCta : UInt32} {s m n : Nat}

/-! ## One issue -/

/-- An issue delivers the work that is due on the slot as the hook has left it. -/
theorem Issue.deliveries
    (h : Issue hook.logged folder cta inst warp front next slot edited host) :
    HookEvent.deliveries next.host.2 =
      HookEvent.deliveries front.host.2 ++ edited.due.map (·, edited.inst) := by
  rw [h.log]
  simp [HookEvent.deliveries]

/-- The count of delivered work is the length of the log of deliveries. -/
def Tallied (atomics : UInt64) (log : List (HookEvent α)) : Prop :=
  atomics.toNat = (HookEvent.deliveries log).length

theorem Issue.tallied (h : Issue hook.logged folder cta inst warp front next slot edited host)
    (hdue : edited.due.length ≤ maxWarpSize) (ht : Tallied front.atomics front.host.2) :
    Tallied next.atomics next.host.2 := by
  have hword : (UInt64.ofNat edited.due.length).toNat = edited.due.length :=
    UInt64.toNat_ofNat_of_lt' (by unfold maxWarpSize at hdue; simp only [UInt64.size]; omega)
  unfold Tallied at *
  rw [Word.add64_eq_ok.mp h.atomics, hword, ht, h.deliveries, List.length_append, List.length_map]

/-! ## Blocks -/

variable {first state state' : State (σ × List (HookEvent α)) α}

/-- The slot rests between two blocks, and the count is the length of the log. -/
structure Delivered (first state : State (σ × List (HookEvent α)) α) : Prop where
  idle : state.slot.Idle first.device.warpSize
  tallied : Tallied state.stats.atomics state.host.2

theorem delivered_start {device : Device} {kernel : Kernel} {folder : Folder} {host : σ}
    {slot : Slot α} (hidle : slot.Idle device.warpSize) :
    Delivered (start device kernel folder (host, []) slot)
      (start device kernel folder (host, []) slot) where
  idle := hidle
  tallied := rfl

theorem Delivered.advance (hdel : Delivered first state)
    (hc : plan.hook.Confined first.device.warpSize) (h : Stands first s m n state)
    (hd : first.device.Sound) (hm : m < first.kernel.block.reach)
    (hn : n < first.kernel.grid.volume)
    (hdone : executeCta plan.logged warpsPerCta state = .ok (.done state')) :
    Delivered first state' := by
  obtain ⟨hidle, htallied⟩ := h.keeps (P := fun host atomics => Tallied atomics host.2) hc.logged
    hd hm hn
    (by
      intro folder cta inst warp front next slot edited host hissue hrests hshort ht
      obtain ⟨_, _, _, hdue⟩ := hissue.keeps_idle hc.logged hd.warpSize_le hrests hshort
      exact hissue.tallied (hdue.trans hd.warpSize_le) ht) hdel.idle hdel.tallied hdone
  exact ⟨hidle, htallied⟩

/-! ## The whole launch -/

/-- A launch that goes through counts the work that it has delivered. -/
theorem launch_delivers {device : Device} {kernel : Kernel} {folder : Folder} {host : σ}
    {report : LaunchReport (σ × List (HookEvent α))} {stats : Stats}
    (hc : plan.hook.Confined device.warpSize) (hd : device.Sound) (hbound : kernel.bound = true)
    (hat : kernel.At s m) (hs : s < kernel.grid.reach) (hm : m < kernel.block.reach)
    (h : launch plan.logged device kernel folder (host, []) = .ok report)
    (hok : report.result = .ok stats) :
    stats.atomics.toNat = (HookEvent.deliveries report.host.2).length := by
  rcases launch_cases hbound h with ⟨_, rfl⟩ | ⟨warpsPerCta, first, last, hbegins, hrun, rfl⟩
  · cases hok
  · have hidle := hbegins.idle hd
    obtain ⟨slot, _, rfl⟩ := hbegins.start
    obtain ⟨n, final, _, _, hdel, hlast⟩ := run_stands
      (Q := fun _ state => Delivered (start device kernel folder (host, []) slot) state) hat hs hm
      (delivered_start hidle)
      (fun n state next hst hn hdel hdone => hdel.advance hc hst hd hm hn hdone) hrun
    rcases hlast with ⟨rfl, _⟩ | ⟨_, _, rfl, _⟩
    · cases hok
      exact hdel.tallied
    · cases hok

end Launch

end Simt
