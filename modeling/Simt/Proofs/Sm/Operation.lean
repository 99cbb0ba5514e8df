-- Runs of an SM. An operation is one of the six things that a core can be told, and a run
-- is a list of them. A refused launch changes nothing and the run goes on, while a fault
-- ends the run.
import Simt.Proofs.Sm

namespace Simt.Sm

inductive Operation where
  | launch (cta warp : UInt32)
  | arrive (cta warp : UInt32)
  | exit (warp : UInt32)
  | issueAtomic (warp : UInt32)
  | completeAtomic (warp : UInt32)
  | retire
  deriving DecidableEq

def step (s : Sm) : Operation → Outcome Sm
  | .launch cta warp => .ok ((s.launch? cta warp).getD s)
  | .arrive cta warp => s.arrive cta warp
  | .exit warp => s.exit warp
  | .issueAtomic warp => s.issueAtomic warp
  | .completeAtomic warp => s.completeAtomic warp
  | .retire => .ok s.retire

def run (s : Sm) (ops : List Operation) : Outcome Sm :=
  ops.foldlM step s

/-- A run of one operation more. -/
theorem run_take_succ (s : Sm) (ops : List Operation) {k : Nat} {op : Operation}
    (h : ops[k]? = some op) :
    s.run (ops.take (k + 1)) = s.run (ops.take k) >>= (·.step op) := by
  simp only [run, List.take_add_one, h, Option.toList_some, List.foldlM_append, List.foldlM_cons,
    List.foldlM_nil, bind_pure]

/-- A run that ends well has passed through a state after each number of operations. -/
theorem run_take_ok {s t : Sm} {ops : List Operation} (h : s.run ops = .ok t) (k : Nat) :
    ∃ u, s.run (ops.take k) = .ok u := by
  rw [← List.take_append_drop k ops, run, List.foldlM_append, Outcome.bind_eq_ok] at h
  obtain ⟨u, hu, _⟩ := h
  exact ⟨u, hu⟩

/-- What every operation of a run keeps holds in every state of the run. -/
theorem run_take_keeps {s t : Sm} {ops : List Operation} {P : Sm → Prop}
    (step : ∀ k u v op, s.run (ops.take k) = .ok u → ops[k]? = some op → P u →
      u.step op = .ok v → P v)
    (hs : P s) (k : Nat) (h : s.run (ops.take k) = .ok t) : P t := by
  induction k generalizing t with
  | zero =>
    cases h
    exact hs
  | succ k ih =>
    cases hop : ops[k]? with
    | none =>
      have hlen := List.getElem?_eq_none_iff.mp hop
      rw [List.take_of_length_le (by omega)] at h
      exact ih (by rw [List.take_of_length_le hlen]; exact h)
    | some op =>
      rw [run_take_succ _ _ hop, Outcome.bind_eq_ok] at h
      obtain ⟨u, hu, hstep⟩ := h
      exact step k u t op hu hop (ih hu) hstep

theorem step_config {s t : Sm} {op : Operation} (h : s.step op = .ok t) : t.config = s.config := by
  cases op with
  | launch cta warp =>
    cases h
    cases hl : s.launch? cta warp with
    | none => rfl
    | some u =>
      obtain ⟨_, rfl⟩ := launch?_eq_some.mp hl
      rfl
  | arrive cta warp => exact arrive_config h
  | exit warp => exact exit_config h
  | issueAtomic warp =>
    rcases issueAtomic_cases h with ⟨_, rfl⟩ | ⟨r, pending, _, _, rfl⟩
    · rfl
    · rfl
  | completeAtomic warp =>
    rcases completeAtomic_cases h with ⟨_, rfl⟩ | ⟨r, _, _, rfl⟩
    · rfl
    · rfl
  | retire =>
    cases h
    rfl

theorem run_config {s t : Sm} {ops : List Operation} (h : s.run ops = .ok t) :
    t.config = s.config := by
  refine Outcome.foldlM_keeps (P := fun _ u => u.config = s.config) ?_ rfl h
  intro op rest u v hu hv
  rw [step_config hv, hu]

/-- Only a launch adds a live warp, and it adds its own. -/
theorem step_liveIds_subset {s t : Sm} {op : Operation} (h : s.step op = .ok t)
    (hop : ∀ cta warp, op ≠ .launch cta warp) : t.liveIds ⊆ s.liveIds := by
  cases op with
  | launch cta warp => exact absurd rfl (hop cta warp)
  | arrive cta warp => rw [arrive_liveIds h]
  | exit warp =>
    rw [exit_liveIds h]
    exact Finset.erase_subset warp s.liveIds
  | issueAtomic warp => rw [issueAtomic_liveIds h]
  | completeAtomic warp => rw [completeAtomic_liveIds h]
  | retire =>
    cases h
    rw [retire_liveIds]

end Simt.Sm
