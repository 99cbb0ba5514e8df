-- Warps that have exited, and the barrier. The exit of a warp takes its mark off, and a barrier
-- does not count it any more. But a warp that has exited may still be told to arrive, and then it
-- is marked as waiting, unless the same arrival finds its block complete.
import Simt.Proofs.Sm.Lifetime

namespace Simt.Sm

variable {first s t : Sm} {cta warp id : UInt32} {op : Operation} {ops : List Operation}

/-! ## Exits and lives -/

/-- The warp was begun by the run, and it has not exited since then. -/
def Running (first : Sm) (ops : List Operation) (warp : UInt32) : Prop :=
  ∃ since, Since first ops warp since ∧ .exit warp ∉ since

/-- The warp has exited, and the SM has not forgotten it. -/
def HasExited (s : Sm) (warp : UInt32) : Prop :=
  ∃ r, s.warps.find? warp = some r ∧ r.exited = true

/-- The last life of a resident warp has come to an end when the SM has it as exited. -/
theorem running_iff_not_exited {id : Nat} {config : Config} {r : Resident}
    (h : (new id config).run ops = .ok s) (hf : s.warps.find? warp = some r) :
    Running (new id config) ops warp ↔ r.exited = false := by
  obtain ⟨since, hsince, hsums⟩ := run_account? h (account?_of_find? hf)
  have hexited : r.exited = true ↔ .exit warp ∈ since := hsums.exited
  rw [← Bool.not_eq_true, hexited]
  constructor
  · rintro ⟨since', hsince', hnot⟩
    rwa [hsince.unique hsince'] at hnot
  · intro hnot
    exact ⟨since, hsince, hnot⟩

/-! ## One operation -/

/-- No warp that has exited is marked as waiting. -/
def ExitedPass (s : Sm) : Prop :=
  ∀ id r, s.warps.find? id = some r → r.exited = true → r.atBarrier = false

/-- A change of one warp keeps the marks in order, if it does so for that warp. -/
theorem ExitedPass.update {change : Resident → Resident} (hs : s.ExitedPass)
    (h : ∀ r, s.warps.find? id = some r → (change r).exited = true → (change r).atBarrier = false) :
    ExitedPass { s with warps := s.warps.update id change } := by
  intro j r hf hexited
  by_cases hj : j = id
  · subst hj
    rw [WarpTable.find?_update_self, Option.map_eq_some_iff] at hf
    obtain ⟨q, hq, rfl⟩ := hf
    exact h q hq hexited
  · rw [WarpTable.find?_update_ne _ _ hj] at hf
    exact hs j r hf hexited

/-- A release only takes marks off. -/
theorem ExitedPass.tryRelease (hs : s.ExitedPass) (h : s.tryRelease cta = .ok t) :
    t.ExitedPass := by
  rcases tryRelease_cases h with ⟨_, rfl⟩ | ⟨_, _, _, _, hfind⟩
  · exact hs
  · intro id r hf hexited
    rw [hfind, Option.map_eq_some_iff] at hf
    obtain ⟨q, hq, rfl⟩ := hf
    rw [Resident.freed_exited] at hexited
    unfold Resident.freed
    split
    · rfl
    · exact hs id q hq hexited

/-- The mark of a warp that has exited is nothing to its block. -/
theorem marked_complete (h : s.HasExited warp) (cta : UInt32) :
    (s.marked warp).Complete cta ↔ s.Complete cta := by
  have hmember : ∀ id, (s.marked warp).member? id = s.member? id := by
    intro id
    by_cases hid : id = warp
    · subst hid
      obtain ⟨r, hf, hexited⟩ := h
      simp [member?, marked, hf, Option.filter, Resident.live, hexited]
    · exact member?_congr (marked_ne s hid)
  simp only [complete_iff_member?, hmember]

/-- A warp that has exited is left waiting by its arrival, unless the block goes on. -/
theorem arrive_waits (h : s.arrive cta warp = .ok t) (hexited : s.HasExited warp)
    (hnot : ¬ s.Complete cta) : t.waitsAtBarrier warp = true ∧ t.HasExited warp := by
  obtain ⟨hr, _⟩ := arrive_marked h
  rw [← marked_complete hexited] at hnot
  obtain ⟨r, hf, hlast⟩ := hexited
  rw [tryRelease_eq_self hnot, Except.ok.injEq] at hr
  subst hr
  have hmarked : (s.marked warp).warps.find? warp = some { r with atBarrier := true } := by
    rw [marked, WarpTable.find?_update_self, hf]
    rfl
  exact ⟨by rw [waitsAtBarrier, hmarked]; rfl, _, hmarked, hlast⟩

/-- An arrival keeps the marks in order, if no warp that has exited is left waiting by it. -/
theorem arrive_exitedPass (h : s.arrive cta warp = .ok t) (hs : s.ExitedPass)
    (hgo : s.HasExited warp → s.Complete cta) : t.ExitedPass := by
  obtain ⟨hr, hown⟩ := arrive_marked h
  by_cases hexited : s.HasExited warp
  · -- The mark is out of order until the release, which takes it off with those of the block.
    rcases tryRelease_cases hr with ⟨hnot, _⟩ | ⟨_, _, _, _, hfind⟩
    · exact absurd ((marked_complete hexited cta).mpr (hgo hexited)) hnot
    · intro id r hf hlast
      rw [hfind, Option.map_eq_some_iff] at hf
      obtain ⟨q, hq, rfl⟩ := hf
      rw [Resident.freed_exited] at hlast
      unfold Resident.freed
      split
      · rfl
      · rename_i hcta
        have hid : id ≠ warp := by
          rintro rfl
          rw [marked, WarpTable.find?_update_self, Option.map_eq_some_iff] at hq
          obtain ⟨p, hp, rfl⟩ := hq
          exact hcta (hown p hp)
        rw [marked_ne s hid] at hq
        exact hs id q hq hlast
  · refine ExitedPass.tryRelease (s := s.marked warp) (hs.update ?_) hr
    intro r hf hlast
    exact absurd ⟨r, hf, hlast⟩ hexited

/-- Every operation keeps the marks in order, but for the arrival of a warp that has exited. -/
theorem step_exitedPass (h : s.step op = .ok t) (hs : s.ExitedPass)
    (hop : ∀ cta warp, op = .arrive cta warp → s.HasExited warp → s.Complete cta) :
    t.ExitedPass := by
  cases op with
  | launch cta warp =>
    cases h
    cases hl : s.launch? cta warp with
    | none => exact hs
    | some u =>
      obtain ⟨_, rfl⟩ := launch?_eq_some.mp hl
      intro id r hf hexited
      rw [Option.getD_some] at hf
      by_cases hid : id = warp
      · subst hid
        rw [WarpTable.find?_insert_self, Option.some.injEq] at hf
        subst hf
        cases hexited
      · rw [WarpTable.find?_insert_ne _ _ hid] at hf
        exact hs id r hf hexited
  | arrive cta warp => exact arrive_exitedPass h hs (hop cta warp rfl)
  | exit warp =>
    rcases exit_cases h with ⟨_, rfl⟩ | ⟨r, _, hr⟩
    · exact hs
    · exact ExitedPass.tryRelease (s := s.ended warp) (hs.update fun _ _ _ => rfl) hr
  | issueAtomic warp =>
    rcases issueAtomic_cases h with ⟨_, rfl⟩ | ⟨r, pending, _, _, rfl⟩
    · exact hs
    · exact hs.update fun q hq => hs warp q hq
  | completeAtomic warp =>
    rcases completeAtomic_cases h with ⟨_, rfl⟩ | ⟨r, _, _, rfl⟩
    · exact hs
    · exact hs.update fun q hq => hs warp q hq
  | retire =>
    cases h
    intro id r hf hexited
    rw [retire_find?, Option.filter_eq_some_iff] at hf
    exact hs id r hf.1 hexited

/-! ## Runs -/

/-- In every state of a run, the warps that are shown at a barrier were begun and have not exited
since then, exactly when the run lets no warp that has exited arrive, but for arrivals that find
the block ready to go on. -/
theorem only_running_warps_wait_unless_an_exited_warp_arrives (id : Nat) (config : Config)
    (ops : List Operation) (final : Sm) (h : (new id config).run ops = .ok final) :
    (∀ k s warp, (new id config).run (ops.take k) = .ok s → s.waitsAtBarrier warp = true →
      Running (new id config) (ops.take k) warp) ↔
      ∀ k s cta warp, (new id config).run (ops.take k) = .ok s →
        ops[k]? = some (.arrive cta warp) → s.HasExited warp → s.Complete cta := by
  constructor
  · intro hall k s cta warp hs hop hexited
    by_contra hnot
    obtain ⟨t, ht⟩ := run_take_ok h (k + 1)
    have hstep := ht
    rw [run_take_succ _ _ hop, hs, Outcome.ok_bind] at hstep
    obtain ⟨hwaits, r, hf, hlast⟩ := arrive_waits hstep hexited hnot
    have hlive := (running_iff_not_exited ht hf).mp (hall (k + 1) t warp ht hwaits)
    rw [hlast] at hlive
    cases hlive
  · intro hgo k s warp hs hwaits
    have hpass : s.ExitedPass := by
      refine run_take_keeps ?_ ?_ k hs
      · intro k u v op hu hop hpass hstep
        refine step_exitedPass hstep hpass ?_
        rintro cta warp rfl
        exact hgo k u cta warp hu hop
      · intro id r hf
        cases hf
    rw [waitsAtBarrier, Option.any_eq_true] at hwaits
    obtain ⟨r, hf, hmark⟩ := hwaits
    rw [running_iff_not_exited hs hf, ← Bool.not_eq_true]
    intro hlast
    rw [hpass warp r hf hlast] at hmark
    cases hmark

/-- Warp 0 exits and begins again before it comes to the barrier. -/
theorem a_warp_that_began_again_waits :
    ∃ final, (new 0 .h100).run
        [.launch 7 0, .launch 7 1, .exit 0, .launch 7 0, .arrive 7 0] = .ok final ∧
      final.waitsAtBarrier 0 = true ∧
      Running (new 0 .h100) [.launch 7 0, .launch 7 1, .exit 0, .launch 7 0, .arrive 7 0] 0 := by
  refine ⟨_, rfl, by decide, ?_⟩
  refine (only_running_warps_wait_unless_an_exited_warp_arrives 0 .h100
    [.launch 7 0, .launch 7 1, .exit 0, .launch 7 0, .arrive 7 0] _ rfl).mpr ?_ 5 _ 0 rfl (by decide)
  intro k s cta warp hs hop hexited
  match k with
  | 0 | 1 | 2 | 3 => cases hop
  | 4 =>
    cases hs
    cases hop
    obtain ⟨r, hf, hlast⟩ := hexited
    cases hf
    cases hlast
  | k + 5 => simp at hop

/-- Warp 0 exits and then arrives at the barrier, where warp 1 is still to come. -/
theorem an_exited_warp_waits_for_the_rest_of_its_block :
    ∃ s, (new 0 .h100).run [.launch 0 0, .launch 0 1, .exit 0, .arrive 0 0] = .ok s ∧
      s.waitsAtBarrier 0 = true ∧
      ¬ Running (new 0 .h100) [.launch 0 0, .launch 0 1, .exit 0, .arrive 0 0] 0 := by
  refine ⟨_, rfl, by decide, ?_⟩
  rintro ⟨since, hsince, hnot⟩
  have hlast : Since (new 0 .h100) [.launch 0 0, .launch 0 1, .exit 0, .arrive 0 0] 0
      [.launch 0 1, .exit 0, .arrive 0 0] := ⟨⟨[], 0, _, _, rfl, rfl, rfl⟩, by simp⟩
  rw [hlast.unique hsince] at hnot
  exact hnot (by simp)

end Simt.Sm
