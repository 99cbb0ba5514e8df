-- Releases of barriers. A block is looked at only when a warp arrives or exits, and its barrier
-- is released only when no other live warp of the block is still on its way. No other operation
-- takes a mark off a live warp, but for those that name the warp itself.
import Simt.Proofs.Sm.Operation

namespace Simt.Sm

variable {s t u : Sm} {cta warp id : UInt32} {op : Operation}

/-! ## The members of a block -/

/-- A live warp as a barrier sees it: its block, and whether it waits. -/
def member? (s : Sm) (id : UInt32) : Option (UInt32 × Bool) :=
  ((s.warps.find? id).filter Resident.live).map fun r => (r.cta, r.atBarrier)

theorem member?_eq_some {waits : Bool} : s.member? id = some (cta, waits) ↔
    ∃ r, s.warps.find? id = some r ∧ r.exited = false ∧ r.cta = cta ∧ r.atBarrier = waits := by
  simp [member?, Resident.live, and_assoc]

theorem member?_of_find? {r : Resident} (hf : s.warps.find? id = some r) (hlive : r.exited = false) :
    s.member? id = some (r.cta, r.atBarrier) :=
  member?_eq_some.mpr ⟨r, hf, hlive, rfl, rfl⟩

theorem member?_congr (h : t.warps.find? id = s.warps.find? id) : t.member? id = s.member? id := by
  rw [member?, member?, h]

theorem waitsAtBarrier_of_member? {waits : Bool} (h : s.member? id = some (cta, waits)) :
    s.waitsAtBarrier id = waits := by
  obtain ⟨r, hf, _, _, hwaits⟩ := member?_eq_some.mp h
  rw [waitsAtBarrier, hf, Option.any_some, hwaits]

/-- A block is complete when it has a member and all of its members wait. -/
theorem complete_iff_member? : s.Complete cta ↔ (∃ id waits, s.member? id = some (cta, waits)) ∧
    ∀ id waits, s.member? id = some (cta, waits) → waits = true := by
  constructor
  · rintro ⟨⟨id, r, hf, rfl, hlive⟩, hwaiting⟩
    refine ⟨⟨id, _, member?_of_find? hf hlive⟩, fun j waits hj => ?_⟩
    obtain ⟨q, hq, hlive', hcta, rfl⟩ := member?_eq_some.mp hj
    exact hwaiting j q hq hcta hlive'
  · rintro ⟨⟨id, waits, hid⟩, hall⟩
    obtain ⟨r, hf, hlive, hcta, _⟩ := member?_eq_some.mp hid
    refine ⟨⟨id, r, hf, hcta, hlive⟩, fun j q hq hcta' hlive' => ?_⟩
    have hj := member?_of_find? hq hlive'
    rw [hcta'] at hj
    exact hall j _ hj

/-- A change of the atomics of a warp is nothing to a barrier. -/
theorem member?_pending (s : Sm) (warp pending id : UInt32) :
    member? { s with warps := s.warps.update warp ({ · with pending }) } id = s.member? id := by
  by_cases hid : id = warp
  · subst hid
    rw [member?, member?, WarpTable.find?_update_self]
    cases s.warps.find? id with
    | none => rfl
    | some r => cases hr : r.exited <;> simp [Option.filter, Resident.live, hr]
  · exact member?_congr (WarpTable.find?_update_ne _ _ hid)

/-- Warps that have exited are not members, and may be forgotten. -/
theorem member?_retire (s : Sm) (id : UInt32) : s.retire.member? id = s.member? id := by
  rw [member?, retire_find?, Option.filter_filter, member?]
  simp

/-! ## What makes a block look -/

/-- The operation makes block `cta` look whether it can go on, on behalf of `warp`. -/
def Prompts (s : Sm) (cta warp : UInt32) (op : Operation) : Prop :=
  op = .arrive cta warp ∨ op = .exit warp ∧ ∃ r, s.warps.find? warp = some r ∧ r.cta = cta

/-- The barrier of block `cta` is released on behalf of `warp`. -/
structure Release (s : Sm) (cta warp : UInt32) (t : Sm) : Prop where
  /-- The release is counted once. -/
  counted : t.released.toNat = s.released.toNat + 1
  /-- Somebody is there to go on. -/
  peopled : ∃ id waits, t.member? id = some (cta, waits)
  /-- All other members of the block were waiting. -/
  awaited : ∀ id waits, id ≠ warp → s.member? id = some (cta, waits) → waits = true
  /-- No warp of the block waits any more. -/
  freed : ∀ id r, t.warps.find? id = some r → r.cta = cta → r.atBarrier = false

theorem freed_of_ne {r : Resident} (h : r.cta ≠ cta) : r.freed cta = r := if_neg h

/-- A look at a block, after a change of one warp, releases the barrier or does nothing. -/
theorem tryRelease_release (hcount : u.released = s.released)
    (hothers : ∀ id, id ≠ warp → u.warps.find? id = s.warps.find? id)
    (h : u.tryRelease cta = .ok t) :
    t = u ∨ s.Release cta warp t ∧
      ∀ id, t.warps.find? id = (u.warps.find? id).map (Resident.freed cta) := by
  rcases tryRelease_cases h with ⟨_, rfl⟩ | ⟨hcomplete, _, _, hreleased, hfind⟩
  · exact Or.inl rfl
  · refine Or.inr ⟨⟨by rw [hreleased, hcount], ?_, ?_, ?_⟩, hfind⟩
    · obtain ⟨id, r, hf, hcta, hlive⟩ := hcomplete.peopled
      refine ⟨id, _, member?_eq_some.mpr ⟨r.freed cta, by rw [hfind, hf]; rfl, ?_, ?_, rfl⟩⟩
      · rw [Resident.freed_exited, hlive]
      · rw [Resident.freed_cta, hcta]
    · intro id waits hid hmember
      rw [← member?_congr (hothers id hid)] at hmember
      exact (complete_iff_member?.mp hcomplete).2 id waits hmember
    · intro id r hf hcta
      rw [hfind, Option.map_eq_some_iff] at hf
      obtain ⟨q, _, rfl⟩ := hf
      rw [Resident.freed_cta] at hcta
      rw [Resident.freed, if_pos hcta]

/-! ## One operation -/

/-- An arrival is a mark and a look at the block, also where there is no warp to mark. -/
theorem arrive_marked (h : s.arrive cta warp = .ok t) :
    (s.marked warp).tryRelease cta = .ok t ∧
      ∀ r, s.warps.find? warp = some r → r.cta = cta := by
  rcases arrive_cases h with ⟨hnone, hr⟩ | ⟨r, hf, hcta, hr⟩
  · refine ⟨?_, fun r hf => by rw [hnone] at hf; cases hf⟩
    rwa [marked, WarpTable.update_eq_self _ hnone]
  · refine ⟨hr, fun q hq => ?_⟩
    rw [hf, Option.some.injEq] at hq
    rw [← hq, hcta]

theorem marked_ne (s : Sm) (h : id ≠ warp) :
    (s.marked warp).warps.find? id = s.warps.find? id := WarpTable.find?_update_ne _ _ h

theorem ended_ne (s : Sm) (h : id ≠ warp) :
    (s.ended warp).warps.find? id = s.warps.find? id := WarpTable.find?_update_ne _ _ h

theorem still_waits (hm : s.member? id = some (cta, true))
    (h : t.member? id = s.member? id) : t.waitsAtBarrier id = true :=
  waitsAtBarrier_of_member? (h.trans hm)

/-- A release for one block leaves the members of other blocks alone. -/
theorem member?_freed {cta' : UInt32} (hm : u.member? id = some (cta', true)) (hne : cta' ≠ cta)
    (hfind : ∀ id, t.warps.find? id = (u.warps.find? id).map (Resident.freed cta)) :
    t.waitsAtBarrier id = true := by
  obtain ⟨r, hf, _, hcta, hwaits⟩ := member?_eq_some.mp hm
  rw [← hcta] at hne
  rw [waitsAtBarrier, hfind, hf, Option.map_some, freed_of_ne hne, Option.any_some, hwaits]

/-- An operation that releases no barrier leaves every mark of a live warp, but for those of the
warp that it ends or begins. A release leaves the marks of other blocks. -/
theorem step_cases (h : s.step op = .ok t) :
    (t.released = s.released ∧
      ∀ id cta, op ≠ .exit id → (∀ cta', op ≠ .launch cta' id) →
        s.member? id = some (cta, true) → t.waitsAtBarrier id = true) ∨
    ∃ cta warp, s.Prompts cta warp op ∧ s.Release cta warp t ∧
      ∀ id cta', op ≠ .exit id → cta' ≠ cta → s.member? id = some (cta', true) →
        t.waitsAtBarrier id = true := by
  cases op with
  | launch cta warp =>
    left
    cases h
    cases hl : s.launch? cta warp with
    | none => exact ⟨rfl, fun id _ _ _ hm => waitsAtBarrier_of_member? hm⟩
    | some u =>
      obtain ⟨_, rfl⟩ := launch?_eq_some.mp hl
      refine ⟨rfl, fun id _ _ hlaunch hm => still_waits hm (member?_congr ?_)⟩
      refine WarpTable.find?_insert_ne _ _ fun hid => ?_
      exact hlaunch cta (by rw [hid])
  | arrive cta warp =>
    obtain ⟨hr, hown⟩ := arrive_marked h
    have hothers : ∀ id, id ≠ warp → (s.marked warp).warps.find? id = s.warps.find? id :=
      fun id hid => marked_ne s hid
    rcases tryRelease_release (s := s) (u := s.marked warp) rfl hothers hr with
      rfl | ⟨hrelease, hfind⟩
    · refine Or.inl ⟨rfl, fun id _ _ _ hm => ?_⟩
      by_cases hid : id = warp
      · subst hid
        obtain ⟨r, hf, _⟩ := member?_eq_some.mp hm
        rw [waitsAtBarrier, marked, WarpTable.find?_update_self, hf]
        rfl
      · exact still_waits hm (member?_congr (hothers id hid))
    · refine Or.inr ⟨cta, warp, Or.inl rfl, hrelease, fun id cta' _ hne hm => ?_⟩
      have hid : id ≠ warp := by
        rintro rfl
        obtain ⟨r, hf, _, hcta, _⟩ := member?_eq_some.mp hm
        exact hne (hcta ▸ hown r hf)
      exact member?_freed ((member?_congr (hothers id hid)).trans hm) hne hfind
  | exit warp =>
    have hothers : ∀ id, id ≠ warp → (s.ended warp).warps.find? id = s.warps.find? id :=
      fun id hid => ended_ne s hid
    have hne : ∀ id, Operation.exit warp ≠ .exit id → id ≠ warp := by
      rintro id hop rfl
      exact hop rfl
    rcases exit_cases h with ⟨_, rfl⟩ | ⟨r, hf, hr⟩
    · exact Or.inl ⟨rfl, fun id _ _ _ hm => waitsAtBarrier_of_member? hm⟩
    · rcases tryRelease_release (s := s) (u := s.ended warp) rfl hothers hr with
        rfl | ⟨hrelease, hfind⟩
      · refine Or.inl ⟨rfl, fun id _ hop _ hm => still_waits hm ?_⟩
        exact member?_congr (hothers id (hne id hop))
      · refine Or.inr ⟨r.cta, warp, Or.inr ⟨rfl, r, hf, rfl⟩, hrelease, fun id cta' hop hcta hm => ?_⟩
        exact member?_freed ((member?_congr (hothers id (hne id hop))).trans hm) hcta hfind
  | issueAtomic warp =>
    left
    rcases issueAtomic_cases h with ⟨_, rfl⟩ | ⟨r, pending, _, _, rfl⟩
    · exact ⟨rfl, fun id _ _ _ hm => waitsAtBarrier_of_member? hm⟩
    · exact ⟨rfl, fun id _ _ _ hm => still_waits hm (member?_pending s warp pending id)⟩
  | completeAtomic warp =>
    left
    rcases completeAtomic_cases h with ⟨_, rfl⟩ | ⟨r, _, _, rfl⟩
    · exact ⟨rfl, fun id _ _ _ hm => waitsAtBarrier_of_member? hm⟩
    · exact ⟨rfl, fun id _ _ _ hm => still_waits hm (member?_pending s warp _ id)⟩
  | retire =>
    left
    cases h
    exact ⟨rfl, fun id _ _ _ hm => still_waits hm (member?_retire s id)⟩

/-- An operation leaves the count of released barriers or adds one to it. It adds one only where
a warp arrives or exits, a member of its block is live afterwards, all other members were
waiting, and no warp of the block waits any more. The mark of a live warp comes off only with
such a release of its own block, with its exit, or where its id begins again. -/
theorem a_barrier_waits_for_every_member_of_its_block {s t : Sm} {op : Operation}
    (h : s.step op = .ok t) :
    (t.released = s.released ∨ ∃ cta warp, s.Prompts cta warp op ∧ s.Release cta warp t) ∧
    ∀ id cta, s.member? id = some (cta, true) → t.waitsAtBarrier id = false →
      op = .exit id ∨ (∃ cta', op = .launch cta' id) ∨
        ∃ warp, s.Prompts cta warp op ∧ s.Release cta warp t := by
  have hmark : ∀ id, t.waitsAtBarrier id = false → ¬ t.waitsAtBarrier id = true := by
    intro id hoff hon
    rw [hoff] at hon
    cases hon
  rcases step_cases h with ⟨hsame, hkeep⟩ | ⟨cta, warp, hprompts, hrelease, hkeep⟩
  · refine ⟨Or.inl hsame, fun id cta hm hoff => ?_⟩
    by_contra hnone
    simp only [not_or, not_exists] at hnone
    exact hmark id hoff (hkeep id cta hnone.1 hnone.2.1 hm)
  · refine ⟨Or.inr ⟨cta, warp, hprompts, hrelease⟩, fun id cta' hm hoff => ?_⟩
    by_cases hexit : op = .exit id
    · exact Or.inl hexit
    · have hcta : cta' = cta := by
        by_contra hne
        exact hmark id hoff (hkeep id cta' hexit hne hm)
      subst hcta
      exact Or.inr (Or.inr ⟨warp, hprompts, hrelease⟩)

/-- Of three warps one waits, one has exited, and the third one comes to the barrier. -/
theorem the_last_of_three_warps_frees_the_first :
    ∃ s t, (new 0 .h100).run [.launch 7 0, .launch 7 1, .launch 7 2, .arrive 7 0, .exit 1] = .ok s ∧
      s.step (.arrive 7 2) = .ok t ∧ s.member? 0 = some (7, true) ∧ t.waitsAtBarrier 0 = false ∧
      ∃ warp, s.Prompts 7 warp (.arrive 7 2) ∧ s.Release 7 warp t := by
  have hfrees : ∀ s t : Sm, s.step (.arrive 7 2) = .ok t → s.member? 0 = some (7, true) →
      t.waitsAtBarrier 0 = false →
      ∃ warp, s.Prompts 7 warp (.arrive 7 2) ∧ s.Release 7 warp t := by
    intro s t h hwaits hfree
    rcases (a_barrier_waits_for_every_member_of_its_block h).2 0 7 hwaits hfree with
      hop | ⟨_, hop⟩ | hrelease
    · cases hop
    · cases hop
    · exact hrelease
  exact ⟨_, _, rfl, rfl, by decide, by decide, hfrees _ _ rfl (by decide) (by decide)⟩

end Simt.Sm
