-- No block is stuck at its barrier. After every operation each block with a live warp has a live
-- warp that does not wait, as long as no warp is moved to another block. So a warp that is not
-- resident can prompt a block, and nothing comes of it.
import Simt.Proofs.Sm.Release

namespace Simt.Sm

variable {s t u : Sm} {cta warp : UInt32} {op : Operation}

/-! ## Blocks that can go on -/

/-- Every block that has a live warp has a live warp that does not wait. -/
def Open (s : Sm) : Prop :=
  ∀ warp cta waits, s.member? warp = some (cta, waits) → ∃ other, s.member? other = some (cta, false)

theorem open_iff : s.Open ↔ ∀ cta, ¬ s.Complete cta := by
  simp only [complete_iff_member?]
  constructor
  · rintro h cta ⟨⟨id, waits, hid⟩, hall⟩
    obtain ⟨other, hother⟩ := h id cta waits hid
    exact absurd (hall other false hother) (by simp)
  · intro h warp cta waits hmember
    by_contra hnone
    refine h cta ⟨⟨warp, waits, hmember⟩, fun id waits hid => ?_⟩
    cases waits with
    | true => rfl
    | false => exact absurd ⟨id, hid⟩ hnone

/-- A block with the same members is complete or not as it was. -/
theorem complete_congr
    (h : ∀ id waits, t.member? id = some (cta, waits) ↔ s.member? id = some (cta, waits)) :
    t.Complete cta ↔ s.Complete cta := by
  simp only [complete_iff_member?, h]

/-- A change of one warp is nothing to a block that the warp belongs to neither before nor after
it. -/
theorem complete_of_other (warp : UInt32)
    (hothers : ∀ id, id ≠ warp → u.warps.find? id = s.warps.find? id)
    (hs : ∀ r, s.warps.find? warp = some r → r.cta ≠ cta)
    (hu : ∀ r, u.warps.find? warp = some r → r.cta ≠ cta) : u.Complete cta ↔ s.Complete cta := by
  refine complete_congr fun id waits => ?_
  by_cases hid : id = warp
  · subst hid
    simp only [member?_eq_some]
    constructor
    · rintro ⟨r, hf, _, hcta, _⟩
      exact absurd hcta (hu r hf)
    · rintro ⟨r, hf, _, hcta, _⟩
      exact absurd hcta (hs r hf)
  · rw [member?_congr (hothers id hid)]

/-- After a look at a block, the block is not complete, and the others are what they were. -/
theorem tryRelease_open (hothers : ∀ other, other ≠ cta → ¬ u.Complete other)
    (h : u.tryRelease cta = .ok t) : t.Open := by
  rw [open_iff]
  intro other hcomplete
  rcases tryRelease_cases h with ⟨hopen, rfl⟩ | ⟨_, _, _, _, hfind⟩
  · by_cases hc : other = cta
    · exact hopen (hc ▸ hcomplete)
    · exact hothers other hc hcomplete
  · by_cases hc : other = cta
    · subst hc
      obtain ⟨id, r, hf, hcta, hlive⟩ := hcomplete.peopled
      have hwaits := hcomplete.waiting id r hf hcta hlive
      rw [hfind, Option.map_eq_some_iff] at hf
      obtain ⟨q, _, rfl⟩ := hf
      rw [Resident.freed_cta] at hcta
      rw [Resident.freed, if_pos hcta] at hwaits
      cases hwaits
    · refine hothers other hc ((complete_congr fun id waits => ?_).mp hcomplete)
      simp only [member?_eq_some, hfind, Option.map_eq_some_iff]
      constructor
      · rintro ⟨_, ⟨q, hq, rfl⟩, hlive, hcta, hwaits⟩
        rw [Resident.freed_cta] at hcta
        rw [freed_of_ne (hcta ▸ hc)] at hlive hwaits
        exact ⟨q, hq, hlive, hcta, hwaits⟩
      · rintro ⟨q, hq, hlive, hcta, hwaits⟩
        have hsame : q.freed cta = q := freed_of_ne (hcta ▸ hc)
        exact ⟨q, ⟨q, hq, hsame⟩, hlive, hcta, hwaits⟩

/-! ## One operation -/

/-- A warp that begins does not wait. The blocks of other warps are what they were, unless the
warp has left one of them. -/
theorem launch_open (hs : s.Open) (hhome : ∀ r, s.warps.find? warp = some r → r.cta = cta)
    (h : s.launch? cta warp = some t) : t.Open := by
  obtain ⟨_, rfl⟩ := launch?_eq_some.mp h
  rw [open_iff] at hs ⊢
  intro other hcomplete
  by_cases hc : other = cta
  · subst hc
    have hwaits := hcomplete.waiting warp _ (WarpTable.find?_insert_self _ _ _) rfl rfl
    cases hwaits
  · refine hs other ((complete_of_other warp ?_ ?_ ?_).mp hcomplete)
    · exact fun id hid => WarpTable.find?_insert_ne _ _ hid
    · rintro r hf rfl
      exact hc (hhome r hf)
    · intro r hf
      rw [WarpTable.find?_insert_self, Option.some.injEq] at hf
      rw [← hf]
      exact fun h => hc h.symm

/-- A change of a warp of one block, and a look at the block. -/
theorem look_open (hs : s.Open) (change : Resident → Resident)
    (hcta : ∀ r, (change r).cta = r.cta) (hhome : ∀ r, s.warps.find? warp = some r → r.cta = cta)
    (h : tryRelease { s with warps := s.warps.update warp change } cta = .ok t) : t.Open := by
  refine tryRelease_open (fun other hne hcomplete => ?_) h
  refine open_iff.mp hs other ((complete_of_other warp ?_ ?_ ?_).mp hcomplete)
  · exact fun id hid => WarpTable.find?_update_ne _ _ hid
  · intro r hf
    rw [hhome r hf]
    exact hne.symm
  · intro r hf
    rw [WarpTable.find?_update_self, Option.map_eq_some_iff] at hf
    obtain ⟨q, hq, rfl⟩ := hf
    rw [hcta, hhome q hq]
    exact hne.symm

theorem open_congr (h : ∀ id, t.member? id = s.member? id) (hs : s.Open) : t.Open := by
  rw [open_iff] at hs ⊢
  intro cta hcomplete
  exact hs cta ((complete_congr fun id waits => by rw [h]).mp hcomplete)

/-- Every operation leaves the blocks able to go on, where a warp that begins again stays with
its block. -/
theorem step_open (hs : s.Open)
    (hhome : ∀ cta warp r, op = .launch cta warp → s.warps.find? warp = some r → r.cta = cta)
    (h : s.step op = .ok t) : t.Open := by
  cases op with
  | launch cta warp =>
    cases h
    cases hl : s.launch? cta warp with
    | none => exact hs
    | some u => exact launch_open hs (fun r hf => hhome cta warp r rfl hf) hl
  | arrive cta warp =>
    obtain ⟨hr, hown⟩ := arrive_marked h
    exact look_open hs ({ · with atBarrier := true }) (fun _ => rfl) hown hr
  | exit warp =>
    rcases exit_cases h with ⟨_, rfl⟩ | ⟨r, hf, hr⟩
    · exact hs
    · refine look_open hs ({ · with exited := true, atBarrier := false }) (fun _ => rfl)
        (fun q hq => ?_) hr
      rw [hf, Option.some.injEq] at hq
      rw [hq]
  | issueAtomic warp =>
    rcases issueAtomic_cases h with ⟨_, rfl⟩ | ⟨r, pending, _, _, rfl⟩
    · exact hs
    · exact open_congr (member?_pending s warp pending) hs
  | completeAtomic warp =>
    rcases completeAtomic_cases h with ⟨_, rfl⟩ | ⟨r, _, _, rfl⟩
    · exact hs
    · exact open_congr (member?_pending s warp _) hs
  | retire =>
    cases h
    exact open_congr (member?_retire s) hs

/-! ## Runs -/

/-- The run never launches an id that is resident under another block. -/
def KeepsHomes (s : Sm) (ops : List Operation) : Prop :=
  ∀ k t cta warp r, s.run (ops.take k) = .ok t → ops[k]? = some (.launch cta warp) →
    t.warps.find? warp = some r → r.cta = cta

theorem run_open {ops : List Operation} (hs : s.Open) (hhomes : s.KeepsHomes ops) (k : Nat)
    (h : s.run (ops.take k) = .ok t) : t.Open := by
  refine run_take_keeps (P := Open) (fun k u v op hu hop hopen hstep => ?_) hs k h
  refine step_open hopen ?_ hstep
  rintro cta warp r rfl hf
  exact hhomes k u cta warp r hu hop hf

/-- In every state of a run that moves no warp to another block, a block that has a live warp has
one that does not wait at the barrier. So the arrival of a warp that is not resident changes
nothing. -/
theorem a_block_with_a_live_warp_has_one_that_does_not_wait (id : Nat) (config : Config)
    (ops : List Operation) (hhomes : (new id config).KeepsHomes ops) (k : Nat) (s : Sm)
    (hs : (new id config).run (ops.take k) = .ok s) :
    (∀ warp cta waits, s.member? warp = some (cta, waits) →
      ∃ other, s.member? other = some (cta, false)) ∧
    ∀ cta warp, s.warps.find? warp = none → s.arrive cta warp = .ok s := by
  have hopen : s.Open := by
    refine run_open (fun warp cta waits hmember => ?_) hhomes k hs
    cases hmember
  refine ⟨hopen, fun cta warp hnone => ?_⟩
  rw [arrive, hnone]
  exact tryRelease_eq_self (open_iff.mp hopen cta)

/-- A warp that begins twice in its block waits, and the other warp of the block does not. -/
theorem the_block_of_a_waiting_warp_can_go_on :
    ∃ s, (new 0 .h100).run [.launch 7 0, .launch 7 1, .launch 7 0, .arrive 7 0] = .ok s ∧
      s.member? 0 = some (7, true) ∧ (∃ other, s.member? other = some (7, false)) ∧
      s.arrive 7 9 = .ok s := by
  have hhomes : (new 0 .h100).KeepsHomes
      [.launch 7 0, .launch 7 1, .launch 7 0, .arrive 7 0] := by
    intro k t cta warp r ht hop hf
    match k with
    | 0 | 1 =>
      cases ht
      cases hop
      cases hf
    | 2 =>
      cases ht
      cases hop
      cases hf
      rfl
    | 3 => cases hop
    | k + 4 => simp at hop
  refine ⟨_, rfl, by decide, ?_⟩
  obtain ⟨hmoves, hprompt⟩ := a_block_with_a_live_warp_has_one_that_does_not_wait 0 .h100
    [.launch 7 0, .launch 7 1, .launch 7 0, .arrive 7 0] hhomes 4 _ rfl
  exact ⟨hmoves 0 7 true (by decide), hprompt 7 9 (by decide)⟩

/-- A warp that begins again under another block leaves a block behind of which all live warps
wait. -/
example : ((new 0 .h100).run [.launch 7 0, .launch 7 1, .arrive 7 0, .launch 8 1]).map
    (fun s => (s.members 7).map (·.atBarrier)) = .ok [true] := by rfl

end Simt.Sm
