-- The operations of an SM, one law for each. What an operation does is told through the
-- map of the warps: who is live afterwards, whose mark is taken off, and whether the count
-- of released barriers grows. Later modules use these laws and unfold no operation.
import Simt.Proofs.WarpTable
import Simt.Sm

namespace Simt

/-- The mark of a warp of one block, taken off. -/
def Resident.freed (cta : UInt32) (r : Resident) : Resident :=
  if r.cta = cta then { r with atBarrier := false } else r

@[simp] theorem Resident.freed_cta (cta : UInt32) (r : Resident) : (r.freed cta).cta = r.cta := by
  unfold Resident.freed
  split <;> rfl

@[simp] theorem Resident.freed_exited (cta : UInt32) (r : Resident) :
    (r.freed cta).exited = r.exited := by
  unfold Resident.freed
  split <;> rfl

namespace Sm

variable {s s' : Sm} {cta warp id : UInt32}

/-! ## The live warps -/

/-- The ids of the warps that have not exited. -/
def liveIds (s : Sm) : Finset UInt32 := s.warps.idsWhere Resident.live

theorem mem_liveIds : id ∈ s.liveIds ↔ ∃ r, s.warps.find? id = some r ∧ r.exited = false := by
  simp [liveIds, WarpTable.mem_idsWhere, Resident.live]

theorem liveWarps_eq_card (s : Sm) : s.liveWarps = s.liveIds.card :=
  s.warps.countP_residents Resident.live

@[simp] theorem liveIds_new (n : Nat) (config : Config) : (new n config).liveIds = ∅ := rfl

/-- The live warps are decided by the map alone. -/
theorem liveIds_congr
    (h : ∀ id, (s'.warps.find? id).map (·.exited) = (s.warps.find? id).map (·.exited)) :
    s'.liveIds = s.liveIds := by
  have key : ∀ (u : Sm) id, id ∈ u.liveIds ↔ (u.warps.find? id).map (·.exited) = some false := by
    intro u id
    rw [mem_liveIds, Option.map_eq_some_iff]
  ext id
  rw [key, key, h]

/-! ## The release of a barrier -/

/-- The block has a live warp, and every live warp of it waits. -/
structure Complete (s : Sm) (cta : UInt32) : Prop where
  peopled : ∃ id r, s.warps.find? id = some r ∧ r.cta = cta ∧ r.exited = false
  waiting : ∀ id r, s.warps.find? id = some r → r.cta = cta → r.exited = false →
    r.atBarrier = true

theorem complete_iff :
    (!(s.members cta).isEmpty && (s.members cta).all (·.atBarrier)) = true ↔ s.Complete cta := by
  have hmem : ∀ r, r ∈ s.members cta ↔
      ∃ id, s.warps.find? id = some r ∧ r.cta = cta ∧ r.exited = false := by
    intro r
    simp [members, WarpTable.mem_residents, Resident.live]
  rw [Bool.and_eq_true, Bool.not_eq_true', List.isEmpty_eq_false_iff_exists_mem, List.all_eq_true]
  constructor
  · rintro ⟨⟨r, hr⟩, hall⟩
    obtain ⟨id, hid⟩ := (hmem r).mp hr
    exact ⟨⟨id, r, hid⟩, fun j q h1 h2 h3 => hall q ((hmem q).mpr ⟨j, h1, h2, h3⟩)⟩
  · rintro ⟨⟨id, r, hr⟩, hall⟩
    refine ⟨⟨r, (hmem r).mpr ⟨id, hr⟩⟩, ?_⟩
    intro q hq
    obtain ⟨j, h1, h2, h3⟩ := (hmem q).mp hq
    exact hall j q h1 h2 h3

/-- A block that is not complete is left as it is. A complete block loses its marks, and the
count grows by one. -/
theorem tryRelease_cases (h : s.tryRelease cta = .ok s') :
    (¬ s.Complete cta ∧ s' = s) ∨
    (s.Complete cta ∧ s'.id = s.id ∧ s'.config = s.config ∧
      s'.released.toNat = s.released.toNat + 1 ∧
      ∀ id, s'.warps.find? id = (s.warps.find? id).map (Resident.freed cta)) := by
  unfold tryRelease at h
  split at h
  · rename_i hc
    obtain ⟨released, hr, h⟩ := Outcome.bind_eq_ok.mp h
    cases h
    refine Or.inr ⟨complete_iff.mp hc, rfl, rfl, by simpa using Word.add64_eq_ok.mp hr, ?_⟩
    intro id
    exact s.warps.find?_map _ id
  · rename_i hc
    cases h
    exact Or.inl ⟨fun hcomplete => hc (complete_iff.mpr hcomplete), rfl⟩

theorem tryRelease_eq_self (h : ¬ s.Complete cta) : s.tryRelease cta = .ok s := by
  rw [tryRelease, if_neg]
  rw [complete_iff]
  exact h

/-- A release can only fail by the count. -/
theorem tryRelease_ok (hr : s.released.toNat + 1 < UInt64.size) : ∃ t, s.tryRelease cta = .ok t := by
  unfold tryRelease
  split
  · simp [Word.add64, hr]
  · exact ⟨s, rfl⟩

theorem tryRelease_released_le (h : s.tryRelease cta = .ok s') :
    s'.released.toNat ≤ s.released.toNat + 1 := by
  rcases tryRelease_cases h with ⟨_, rfl⟩ | ⟨_, _, _, hr, _⟩ <;> omega

theorem tryRelease_liveIds (h : s.tryRelease cta = .ok s') : s'.liveIds = s.liveIds := by
  rcases tryRelease_cases h with ⟨_, rfl⟩ | ⟨_, _, _, _, hfind⟩
  · rfl
  · apply liveIds_congr
    intro id
    rw [hfind, Option.map_map]
    congr 1
    funext r
    simp

theorem tryRelease_config (h : s.tryRelease cta = .ok s') : s'.config = s.config := by
  rcases tryRelease_cases h with ⟨_, rfl⟩ | ⟨_, _, hc, _⟩
  · rfl
  · exact hc

/-! ## Warps come and go -/

theorem launch?_eq_some :
    s.launch? cta warp = some s' ↔
      (s.config.maxWarps.toNat ≤ s.liveWarps → ∃ r, s.warps.find? warp = some r) ∧
        s' = { s with warps := s.warps.insert warp (.fresh cta) } := by
  unfold launch?
  rw [← WarpTable.contains_eq_true]
  by_cases hfull : s.config.maxWarps.toNat ≤ s.liveWarps <;>
    by_cases hc : s.warps.contains warp = true <;> simp [hfull, hc, eq_comm]

theorem launch?_eq_none :
    s.launch? cta warp = none ↔
      s.config.maxWarps.toNat ≤ s.liveWarps ∧ s.warps.find? warp = none := by
  unfold launch?
  by_cases hfull : s.config.maxWarps.toNat ≤ s.liveWarps <;>
    cases hf : s.warps.find? warp <;> simp [hfull, WarpTable.contains, hf]

theorem launch?_liveIds (h : s.launch? cta warp = some s') :
    s'.liveIds = insert warp s.liveIds := by
  obtain ⟨_, rfl⟩ := launch?_eq_some.mp h
  ext id
  rw [Finset.mem_insert, mem_liveIds, mem_liveIds]
  by_cases hid : id = warp
  · subst hid
    simp [Resident.fresh]
  · simp [WarpTable.find?_insert_ne _ _ hid, hid]

/-- The live warps after an accepted launch: one more, unless the id was live. -/
theorem launch?_liveWarps (h : s.launch? cta warp = some s') :
    s'.liveWarps = s.liveWarps + if warp ∈ s.liveIds then 0 else 1 := by
  rw [liveWarps_eq_card, liveWarps_eq_card, launch?_liveIds h]
  split
  · rename_i hm
    rw [Finset.insert_eq_of_mem hm, Nat.add_zero]
  · rename_i hm
    exact Finset.card_insert_of_notMem hm

theorem retire_find? (s : Sm) (id : UInt32) :
    s.retire.warps.find? id = (s.warps.find? id).filter Resident.live :=
  s.warps.find?_filter Resident.live id

theorem retire_liveIds (s : Sm) : s.retire.liveIds = s.liveIds := by
  ext id
  rw [mem_liveIds, mem_liveIds]
  simp only [retire_find?, Option.filter_eq_some_iff]
  constructor
  · rintro ⟨r, ⟨h, _⟩, hr⟩
    exact ⟨r, h, hr⟩
  · rintro ⟨r, h, hr⟩
    exact ⟨r, ⟨h, by simp [Resident.live, hr]⟩, hr⟩

/-- The SM with a warp that has exited, before the rest of its block is looked at. -/
def ended (s : Sm) (warp : UInt32) : Sm :=
  { s with warps := s.warps.update warp ({ · with exited := true, atBarrier := false }) }

theorem ended_liveIds (s : Sm) (warp : UInt32) : (s.ended warp).liveIds = s.liveIds.erase warp := by
  ext id
  rw [Finset.mem_erase, mem_liveIds, mem_liveIds]
  by_cases hid : id = warp
  · subst hid
    simp [ended]
  · simp [ended, WarpTable.find?_update_ne _ _ hid, hid]

theorem exit_cases (h : s.exit warp = .ok s') :
    (s.warps.find? warp = none ∧ s' = s) ∨
    ∃ r, s.warps.find? warp = some r ∧ (s.ended warp).tryRelease r.cta = .ok s' := by
  unfold exit at h
  split at h
  · rename_i hf
    cases h
    exact Or.inl ⟨hf, rfl⟩
  · rename_i r hf
    exact Or.inr ⟨r, hf, h⟩

theorem exit_liveIds (h : s.exit warp = .ok s') : s'.liveIds = s.liveIds.erase warp := by
  rcases exit_cases h with ⟨hf, rfl⟩ | ⟨r, _, hr⟩
  · rw [Finset.erase_eq_of_notMem]
    rw [mem_liveIds, hf]
    simp
  · rw [tryRelease_liveIds hr, ended_liveIds]

theorem exit_config (h : s.exit warp = .ok s') : s'.config = s.config := by
  rcases exit_cases h with ⟨_, rfl⟩ | ⟨r, _, hr⟩
  · rfl
  · exact tryRelease_config (s := s.ended warp) hr

/-- The exit of a warp can only fail by the count of its block. -/
theorem exit_ok (hr : s.released.toNat + 1 < UInt64.size) : ∃ t, s.exit warp = .ok t := by
  unfold exit
  split
  · exact ⟨s, rfl⟩
  · exact tryRelease_ok hr

theorem exit_released_le (h : s.exit warp = .ok s') :
    s'.released.toNat ≤ s.released.toNat + 1 := by
  rcases exit_cases h with ⟨_, rfl⟩ | ⟨r, _, hr⟩
  · exact Nat.le_succ _
  · exact tryRelease_released_le (s := s.ended warp) hr

/-! ## Arrivals -/

/-- The SM with a warp that waits, before its block is looked at. -/
def marked (s : Sm) (warp : UInt32) : Sm :=
  { s with warps := s.warps.update warp ({ · with atBarrier := true }) }

theorem marked_liveIds (s : Sm) (warp : UInt32) : (s.marked warp).liveIds = s.liveIds := by
  apply liveIds_congr
  intro id
  by_cases hid : id = warp
  · subst hid
    rw [marked, WarpTable.find?_update_self, Option.map_map]
    rfl
  · rw [marked, WarpTable.find?_update_ne _ _ hid]

theorem arrive_cases (h : s.arrive cta warp = .ok s') :
    (s.warps.find? warp = none ∧ s.tryRelease cta = .ok s') ∨
    ∃ r, s.warps.find? warp = some r ∧ r.cta = cta ∧ (s.marked warp).tryRelease cta = .ok s' := by
  unfold arrive at h
  split at h
  · rename_i hf
    exact Or.inl ⟨hf, h⟩
  · rename_i r hf
    split at h
    · rename_i hcta
      exact Or.inr ⟨r, hf, hcta, h⟩
    · cases h

/-- A warp that is resident under its block arrives, unless the count is at its end. -/
theorem arrive_ok {r : Resident} (hf : s.warps.find? warp = some r) (hcta : r.cta = cta)
    (hr : s.released.toNat + 1 < UInt64.size) : ∃ t, s.arrive cta warp = .ok t := by
  unfold arrive
  simp only [hf, hcta, if_true]
  exact tryRelease_ok hr

theorem arrive_liveIds (h : s.arrive cta warp = .ok s') : s'.liveIds = s.liveIds := by
  rcases arrive_cases h with ⟨_, hr⟩ | ⟨r, _, _, hr⟩
  · exact tryRelease_liveIds hr
  · rw [tryRelease_liveIds hr, marked_liveIds]

theorem arrive_released_le (h : s.arrive cta warp = .ok s') :
    s'.released.toNat ≤ s.released.toNat + 1 := by
  rcases arrive_cases h with ⟨_, hr⟩ | ⟨r, _, _, hr⟩
  · exact tryRelease_released_le hr
  · exact tryRelease_released_le (s := s.marked warp) hr

theorem arrive_config (h : s.arrive cta warp = .ok s') : s'.config = s.config := by
  rcases arrive_cases h with ⟨_, hr⟩ | ⟨r, _, _, hr⟩
  · exact tryRelease_config hr
  · exact tryRelease_config (s := s.marked warp) hr

/-! ## Atomics in flight -/

theorem issueAtomic_cases (h : s.issueAtomic warp = .ok s') :
    (s.warps.find? warp = none ∧ s' = s) ∨
    ∃ r pending, s.warps.find? warp = some r ∧ pending.toNat = r.pending.toNat + 1 ∧
      s' = { s with warps := s.warps.update warp ({ · with pending }) } := by
  unfold issueAtomic at h
  split at h
  · rename_i hf
    cases h
    exact Or.inl ⟨hf, rfl⟩
  · rename_i r hf
    obtain ⟨pending, hp, h⟩ := Outcome.bind_eq_ok.mp h
    cases h
    exact Or.inr ⟨r, pending, hf, by simpa using Word.add32_eq_ok.mp hp, rfl⟩

theorem completeAtomic_cases (h : s.completeAtomic warp = .ok s') :
    (s.warps.find? warp = none ∧ s' = s) ∨
    ∃ r, s.warps.find? warp = some r ∧ r.pending ≠ 0 ∧
      s' = { s with warps := s.warps.update warp ({ · with pending := r.pending - 1 }) } := by
  unfold completeAtomic at h
  split at h
  · rename_i hf
    cases h
    exact Or.inl ⟨hf, rfl⟩
  · rename_i r hf
    split at h
    · cases h
    · rename_i hp
      cases h
      exact Or.inr ⟨r, hf, hp, rfl⟩

/-- A change of the atomics of a warp ends no warp. -/
theorem liveIds_pending (s : Sm) (warp : UInt32) (pending : UInt32) :
    liveIds { s with warps := s.warps.update warp ({ · with pending }) } = s.liveIds := by
  apply liveIds_congr
  intro id
  by_cases hid : id = warp
  · subst hid
    rw [WarpTable.find?_update_self, Option.map_map]
    rfl
  · rw [WarpTable.find?_update_ne _ _ hid]

theorem issueAtomic_liveIds (h : s.issueAtomic warp = .ok s') : s'.liveIds = s.liveIds := by
  rcases issueAtomic_cases h with ⟨_, rfl⟩ | ⟨r, pending, _, _, rfl⟩
  · rfl
  · exact liveIds_pending s warp pending

theorem completeAtomic_liveIds (h : s.completeAtomic warp = .ok s') : s'.liveIds = s.liveIds := by
  rcases completeAtomic_cases h with ⟨_, rfl⟩ | ⟨r, _, _, rfl⟩
  · rfl
  · exact liveIds_pending s warp _

/-- An atomic that completes right after its issue leaves no trace. -/
theorem completeAtomic_of_issueAtomic (h : s.issueAtomic warp = .ok s') :
    s'.completeAtomic warp = .ok s := by
  rcases issueAtomic_cases h with ⟨hf, rfl⟩ | ⟨r, pending, hf, hp, rfl⟩
  · simp [completeAtomic, hf]
  · have hne : pending ≠ 0 := by
      rintro rfl
      simp at hp
    have hone : 1 ≤ pending := by
      rw [UInt32.le_iff_toNat_le]
      simp
      omega
    have hback : pending - 1 = r.pending := by
      rw [← UInt32.toNat_inj, UInt32.toNat_sub_of_le _ _ hone]
      simp
      omega
    simp only [completeAtomic, WarpTable.find?_update_self, hf, Option.map_some, hne, if_false]
    congr 2
    apply WarpTable.update_update_eq_self hf
    simp [hback]

theorem issueAtomic_ok {r : Resident} (hf : s.warps.find? warp = some r) (hp : r.pending = 0) :
    ∃ t, s.issueAtomic warp = .ok t := by
  simp only [issueAtomic, hf, hp]
  exact ⟨_, rfl⟩

end Sm

end Simt
