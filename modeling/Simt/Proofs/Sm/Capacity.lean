-- The warp limit of an SM. The limit holds along every run in which no warp that has exited
-- begins again on a full SM, and such a relaunch passes the limit every time.
import Simt.Proofs.Sm.Operation

namespace Simt.Sm

/-- A launch of `warp` would pass the limit: the SM is full, and the id is still in the table
under a warp that has exited. -/
def Overfills (s : Sm) (warp : UInt32) : Prop :=
  s.config.maxWarps.toNat ≤ s.liveWarps ∧ ∃ r, s.warps.find? warp = some r ∧ r.exited = true

theorem overfills_launch {s t : Sm} {cta warp : UInt32} (ho : s.Overfills warp)
    (h : s.step (.launch cta warp) = .ok t) : s.config.maxWarps.toNat < t.liveWarps := by
  obtain ⟨hfull, r, hf, hr⟩ := ho
  have hl : s.launch? cta warp = some { s with warps := s.warps.insert warp (.fresh cta) } :=
    launch?_eq_some.mpr ⟨fun _ => ⟨r, hf⟩, rfl⟩
  have hnot : warp ∉ s.liveIds := by
    rw [mem_liveIds, hf]
    simp [hr]
  simp only [step, hl, Option.getD_some, Except.ok.injEq] at h
  subst h
  rw [launch?_liveWarps hl, if_neg hnot]
  omega

/-- Every other step keeps the limit. -/
theorem step_keeps_limit {s t : Sm} {op : Operation} (h : s.step op = .ok t)
    (hop : ∀ cta warp, op = .launch cta warp → ¬ s.Overfills warp)
    (hs : s.liveWarps ≤ s.config.maxWarps.toNat) : t.liveWarps ≤ s.config.maxWarps.toNat := by
  by_cases hl : ∃ cta warp, op = .launch cta warp
  · obtain ⟨cta, warp, rfl⟩ := hl
    cases h
    cases ht : s.launch? cta warp with
    | none => exact hs
    | some u =>
      rw [Option.getD_some, launch?_liveWarps ht]
      split
      · exact hs
      · rename_i hm
        by_contra hgt
        refine hop cta warp rfl ⟨by omega, ?_⟩
        obtain ⟨r, hr⟩ := (launch?_eq_some.mp ht).1 (by omega)
        refine ⟨r, hr, ?_⟩
        by_contra hlive
        exact hm (mem_liveIds.mpr ⟨r, hr, by simpa using hlive⟩)
  · have hsub := step_liveIds_subset h fun cta warp he => hl ⟨cta, warp, he⟩
    rw [liveWarps_eq_card] at hs ⊢
    exact (Finset.card_le_card hsub).trans hs

/-- An SM stays within its warp limit after every operation of a run exactly when the run
never launches an id of an exited warp, not yet retired, while the SM is full. -/
theorem the_limit_holds_unless_an_exited_warp_begins_again (id : Nat) (config : Config)
    (ops : List Operation) (final : Sm) (h : (new id config).run ops = .ok final) :
    (∀ k s, (new id config).run (ops.take k) = .ok s → s.liveWarps ≤ config.maxWarps.toNat) ↔
      ∀ k s cta warp, (new id config).run (ops.take k) = .ok s →
        ops[k]? = some (.launch cta warp) → ¬ s.Overfills warp := by
  constructor
  · intro hall k s cta warp hs hop ho
    obtain ⟨t, ht⟩ := run_take_ok h (k + 1)
    have hstep := ht
    rw [run_take_succ _ _ hop, hs, Outcome.ok_bind] at hstep
    have hgt := overfills_launch ho hstep
    rw [run_config hs] at hgt
    exact absurd (hall (k + 1) t ht) (Nat.not_le.mpr hgt)
  · intro hnone k
    induction k with
    | zero =>
      intro s hs
      cases hs
      rw [liveWarps_eq_card, liveIds_new, Finset.card_empty]
      exact Nat.zero_le _
    | succ k ih =>
      intro t ht
      cases hop : ops[k]? with
      | none =>
        have hlen := List.getElem?_eq_none_iff.mp hop
        rw [List.take_of_length_le (by omega)] at ht
        exact ih t (by rw [List.take_of_length_le hlen]; exact ht)
      | some op =>
        rw [run_take_succ _ _ hop, Outcome.bind_eq_ok] at ht
        obtain ⟨s, hs, hstep⟩ := ht
        have hc : s.config = config := run_config hs
        rw [← hc]
        refine step_keeps_limit hstep ?_ (by rw [hc]; exact ih s hs)
        intro cta warp he
        exact hnone k s cta warp hs (by rw [hop, he])

/-- A run that fills the SM, retires a warp and takes another one. -/
theorem the_limit_holds_over_two_generations :
    ∃ final, (new 0 { Config.h100 with maxWarps := 1 }).run
        [.launch 0 0, .launch 0 0, .exit 0, .retire, .launch 1 0] = .ok final ∧
      final.liveWarps ≤ 1 := by
  refine ⟨_, rfl, ?_⟩
  refine (the_limit_holds_unless_an_exited_warp_begins_again 0 { Config.h100 with maxWarps := 1 }
    [.launch 0 0, .launch 0 0, .exit 0, .retire, .launch 1 0] _ rfl).mpr ?_ 5 _ rfl
  intro k s cta warp hs hop ⟨hfull, r, hf, hr⟩
  match k with
  | 0 | 4 =>
    cases hs
    exact absurd hfull (by decide)
  | 1 =>
    cases hs
    cases hop
    cases hf
    cases hr
  | 2 | 3 => cases hop
  | k + 5 => simp at hop

/-- A warp that exits and begins again while another one runs: two live warps where the limit
is one. -/
theorem a_relaunched_warp_passes_the_limit :
    ∃ s, (new 0 { Config.h100 with maxWarps := 1 }).run
        [.launch 0 0, .exit 0, .launch 0 1, .launch 0 0] = .ok s ∧ ¬ s.liveWarps ≤ 1 := by
  exact ⟨_, rfl, by decide⟩

end Simt.Sm
