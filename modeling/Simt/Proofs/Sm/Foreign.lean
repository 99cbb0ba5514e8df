-- A block beside foreign warps. The block has its number and its ids for itself, and then an SM
-- changes nothing but the warps of the block while the block is on it. When the block has left,
-- the foreign warps are as before, less those that had exited.
import Simt.Proofs.Sm

namespace Simt.Sm

variable {before s t u : Sm} {cta id : UInt32} {ids : List UInt32}

/-! ## Warps that are spared -/

/-- The SM has kept its live warps as they were, and has got no others. What it has forgotten had
exited. -/
structure Spares (s t : Sm) : Prop where
  kept : ∀ id r, s.warps.find? id = some r → r.exited = false → t.warps.find? id = some r
  only : ∀ id r, t.warps.find? id = some r → s.warps.find? id = some r

theorem Spares.refl (s : Sm) : Spares s s :=
  ⟨fun _ _ h _ => h, fun _ _ h => h⟩

theorem Spares.trans (h : Spares s t) (h' : Spares t u) : Spares s u :=
  ⟨fun id r hf hr => h'.kept id r (h.kept id r hf hr) hr,
    fun id r hf => h.only id r (h'.only id r hf)⟩

/-! ## One block more -/

/-- An SM with the warps of a block beside those that were there before. No warp from before has
the number of the block, or an id of it. -/
structure Lodges (before : Sm) (cta : UInt32) (ids : List UInt32) (s : Sm) : Prop where
  apart : ∀ id r, before.warps.find? id = some r → r.cta ≠ cta
  unused : ∀ id ∈ ids, before.warps.find? id = none
  lodged : ∀ id ∈ ids, ∃ r, s.warps.find? id = some r ∧ r.cta = cta
  others : ∀ id, id ∉ ids → s.warps.find? id = before.warps.find? id

theorem lodges_nil (h : ∀ id r, s.warps.find? id = some r → r.cta ≠ cta) : s.Lodges cta [] s where
  apart := h
  unused id hid := by cases hid
  lodged id hid := by cases hid
  others _ _ := rfl

/-- A warp of the block is resident exactly under the ids of the block. -/
theorem Lodges.mem_of_cta {r : Resident} (h : before.Lodges cta ids s)
    (hf : s.warps.find? id = some r) (hr : r.cta = cta) : id ∈ ids := by
  by_contra hid
  rw [h.others id hid] at hf
  exact h.apart id r hf hr

theorem Lodges.cta_of_mem (h : before.Lodges cta ids s) (hid : id ∈ ids) :
    ∀ r, s.warps.find? id = some r → r.cta = cta := by
  intro r hf
  obtain ⟨q, hq, hcta⟩ := h.lodged id hid
  rw [hf, Option.some.injEq] at hq
  rw [hq]
  exact hcta

theorem Lodges.launch (h : before.Lodges cta ids s) (hid : before.warps.find? id = none)
    (hl : s.launch? cta id = some t) : before.Lodges cta (ids ++ [id]) t := by
  obtain ⟨_, rfl⟩ := launch?_eq_some.mp hl
  refine ⟨h.apart, ?_, ?_, ?_⟩
  · intro j hj
    rcases List.mem_append.mp hj with hj | hj
    · exact h.unused j hj
    · rw [List.mem_singleton.mp hj]
      exact hid
  · intro j hj
    by_cases hji : j = id
    · subst hji
      exact ⟨.fresh cta, by simp, rfl⟩
    · have hmem : j ∈ ids := by simpa [hji] using hj
      rw [WarpTable.find?_insert_ne _ _ hji]
      exact h.lodged j hmem
  · intro j hj
    have hji : j ≠ id := by
      rintro rfl
      simp at hj
    rw [WarpTable.find?_insert_ne _ _ hji]
    exact h.others j fun hmem => hj (List.mem_append_left _ hmem)

/-- Changes of the warps of the block, by which none of them leaves it, let the others be. -/
theorem Lodges.congr (h : before.Lodges cta ids s)
    (hin : ∀ id ∈ ids, (t.warps.find? id).map (·.cta) = (s.warps.find? id).map (·.cta))
    (hout : ∀ id, id ∉ ids → t.warps.find? id = s.warps.find? id) :
    before.Lodges cta ids t := by
  refine ⟨h.apart, h.unused, ?_, ?_⟩
  · intro j hj
    obtain ⟨r, hf, hr⟩ := h.lodged j hj
    have hcta := hin j hj
    rw [hf, Option.map_some, hr] at hcta
    exact Option.map_eq_some_iff.mp hcta
  · intro j hj
    rw [hout j hj, h.others j hj]

theorem Lodges.tryRelease (h : before.Lodges cta ids s) (hr : s.tryRelease cta = .ok t) :
    before.Lodges cta ids t := by
  rcases tryRelease_cases hr with ⟨_, rfl⟩ | ⟨_, _, _, _, hfind⟩
  · exact h
  · refine h.congr ?_ ?_
    · intro j _
      rw [hfind, Option.map_map]
      congr 1
      funext r
      simp
    · intro j hj
      have hsame : ∀ r, s.warps.find? j = some r → r.freed cta = r := by
        intro r hf
        rw [h.others j hj] at hf
        simp [Resident.freed, h.apart j r hf]
      rw [hfind]
      cases hf : s.warps.find? j with
      | none => rfl
      | some r => rw [Option.map_some, hsame r hf]

/-- A change of one warp of the block, by which it stays in the block. -/
theorem Lodges.update {change : Resident → Resident} (h : before.Lodges cta ids s) (hid : id ∈ ids)
    (hchange : ∀ r, (change r).cta = r.cta) :
    before.Lodges cta ids { s with warps := s.warps.update id change } := by
  refine h.congr ?_ ?_
  · intro j _
    by_cases hji : j = id
    · subst hji
      rw [WarpTable.find?_update_self, Option.map_map]
      congr 1
      funext r
      exact hchange r
    · rw [WarpTable.find?_update_ne _ _ hji]
  · intro j hj
    rw [WarpTable.find?_update_ne]
    rintro rfl
    exact hj hid

/-- A warp arrives at the barrier of the block, and the foreign warps stay as they are. -/
theorem Lodges.arrive (h : before.Lodges cta ids s) (ha : s.arrive cta id = .ok t) :
    before.Lodges cta ids t := by
  rcases arrive_cases ha with ⟨_, hr⟩ | ⟨r, hf, hcta, hr⟩
  · exact h.tryRelease hr
  · have hmarked : before.Lodges cta ids (s.marked id) :=
      h.update (h.mem_of_cta hf hcta) fun _ => rfl
    exact hmarked.tryRelease hr

theorem Lodges.ended (h : before.Lodges cta ids s) (hid : id ∈ ids) :
    before.Lodges cta ids (s.ended id) :=
  h.update hid fun _ => rfl

/-- The exit of a warp of the block looks at the block alone. -/
theorem Lodges.exit (h : before.Lodges cta ids s) (hid : id ∈ ids) (he : s.exit id = .ok t) :
    before.Lodges cta ids t := by
  rcases exit_cases he with ⟨_, rfl⟩ | ⟨r, hf, hr⟩
  · exact h
  · rw [h.cta_of_mem hid r hf] at hr
    exact (h.ended hid).tryRelease hr

/-- When the warps of the block have exited and are forgotten, the warps from before are left,
less those that had exited. -/
theorem Lodges.retire (h : before.Lodges cta ids s) (hgone : ∀ id ∈ ids, id ∉ s.liveIds) :
    Spares before s.retire := by
  have hfind : ∀ id, s.retire.warps.find? id = (before.warps.find? id).filter Resident.live := by
    intro j
    rw [retire_find?]
    by_cases hj : j ∈ ids
    · rw [h.unused j hj, Option.filter_none, Option.filter_eq_none_iff]
      intro r hf hlive
      exact hgone j hj (mem_liveIds.mpr ⟨r, hf, by simpa [Resident.live] using hlive⟩)
    · rw [h.others j hj]
  constructor
  · intro j r hf hr
    simp [hfind, hf, Resident.live, hr]
  · intro j r hf
    rw [hfind] at hf
    exact (Option.filter_eq_some_iff.mp hf).1

/-! ## A block that does not wait -/

/-- No warp of the block waits at its barrier. -/
def Unwaiting (s : Sm) (cta : UInt32) : Prop :=
  ∀ id r, s.warps.find? id = some r → r.cta = cta → r.atBarrier = false

theorem Unwaiting.launch (h : s.Unwaiting cta) (hl : s.launch? cta id = some t) :
    t.Unwaiting cta := by
  obtain ⟨_, rfl⟩ := launch?_eq_some.mp hl
  intro j r hf hr
  by_cases hji : j = id
  · subst hji
    rw [WarpTable.find?_insert_self, Option.some.injEq] at hf
    rw [← hf]
    rfl
  · rw [WarpTable.find?_insert_ne _ _ hji] at hf
    exact h j r hf hr

theorem Unwaiting.ended (h : s.Unwaiting cta) : (s.ended id).Unwaiting cta := by
  intro j r hf hr
  by_cases hji : j = id
  · subst hji
    rw [Sm.ended, WarpTable.find?_update_self, Option.map_eq_some_iff] at hf
    obtain ⟨_, _, rfl⟩ := hf
    rfl
  · rw [Sm.ended, WarpTable.find?_update_ne _ _ hji] at hf
    exact h j r hf hr

/-- An exit from a block in which no warp waits releases nothing. -/
theorem Unwaiting.exit (h : s.Unwaiting cta)
    (hid : ∀ r, s.warps.find? id = some r → r.cta = cta) (he : s.exit id = .ok t) :
    t.Unwaiting cta ∧ t.released = s.released := by
  rcases exit_cases he with ⟨_, rfl⟩ | ⟨r, hf, hr⟩
  · exact ⟨h, rfl⟩
  · have hopen : ¬ (s.ended id).Complete cta := by
      intro hc
      obtain ⟨j, q, hq, hcta, hlive⟩ := hc.peopled
      have hwait := hc.waiting j q hq hcta hlive
      rw [h.ended j q hq hcta] at hwait
      cases hwait
    rw [hid r hf, tryRelease_eq_self hopen, Except.ok.injEq] at hr
    subst hr
    exact ⟨h.ended, rfl⟩

end Simt.Sm
