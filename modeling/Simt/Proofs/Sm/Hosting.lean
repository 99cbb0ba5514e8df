-- An SM that runs one block and no other. The warps of the block arrive at a barrier in the
-- order of their numbers, and the last one releases it. Their exits release nothing, since
-- none of the warps that are left waits.
import Simt.Proofs.Sm

namespace Simt.Sm

variable {s t : Sm} {cta id : UInt32} {ids : List UInt32} {k : Nat}

/-! ## Arrivals change marks alone -/

/-- A warp, whether it waits or not. -/
def unmarked (r : Resident) : Resident := { r with atBarrier := false }

theorem tryRelease_unmarked (h : s.tryRelease cta = .ok t) (id : UInt32) :
    (t.warps.find? id).map unmarked = (s.warps.find? id).map unmarked := by
  rcases tryRelease_cases h with ⟨_, rfl⟩ | ⟨_, _, _, _, hfind⟩
  · rfl
  · rw [hfind, Option.map_map]
    congr 1
    funext r
    simp only [Function.comp, unmarked, Resident.freed]
    split <;> rfl

theorem arrive_unmarked {warp : UInt32} (h : s.arrive cta warp = .ok t) (id : UInt32) :
    (t.warps.find? id).map unmarked = (s.warps.find? id).map unmarked := by
  rcases arrive_cases h with ⟨_, hr⟩ | ⟨r, _, _, hr⟩
  · exact tryRelease_unmarked hr id
  · rw [tryRelease_unmarked hr]
    by_cases hid : id = warp
    · subst hid
      rw [marked, WarpTable.find?_update_self, Option.map_map]
      rfl
    · rw [marked, WarpTable.find?_update_ne _ _ hid]

/-- A warp that can take its turn: resident under its block, with no atomic in flight. -/
def Serves (s : Sm) (cta id : UInt32) : Prop :=
  ∃ r, s.warps.find? id = some r ∧ r.cta = cta ∧ r.pending = 0

theorem Serves.arrive {warp : UInt32} (hs : s.Serves cta id) (h : s.arrive cta warp = .ok t) :
    t.Serves cta id := by
  obtain ⟨r, hf, hcta, hp⟩ := hs
  have hu := arrive_unmarked h id
  rw [hf, Option.map_some, Option.map_eq_some_iff] at hu
  obtain ⟨q, hq, hqr⟩ := hu
  have hsame : q.cta = r.cta ∧ q.pending = r.pending := by
    rw [show q.cta = (unmarked q).cta from rfl, show q.pending = (unmarked q).pending from rfl, hqr]
    exact ⟨rfl, rfl⟩
  exact ⟨q, hq, hsame.1.trans hcta, hsame.2.trans hp⟩

/-- A warp that begins under its block can take its turn, whatever had its id before. -/
theorem serves_of_launch? (h : s.launch? cta id = some t) : t.Serves cta id := by
  obtain ⟨_, rfl⟩ := launch?_eq_some.mp h
  exact ⟨.fresh cta, WarpTable.find?_insert_self _ _ _, rfl, rfl⟩

theorem Serves.launch {warp : UInt32} (hs : s.Serves cta id) (h : s.launch? cta warp = some t) :
    t.Serves cta id := by
  by_cases hid : id = warp
  · subst hid
    exact serves_of_launch? h
  · obtain ⟨r, hf, hr⟩ := hs
    obtain ⟨_, rfl⟩ := launch?_eq_some.mp h
    exact ⟨r, by rw [WarpTable.find?_insert_ne _ _ hid, hf], hr⟩

/-! ## One block alone -/

/-- The live warps are those of one block, and the first few of them wait. -/
structure Hosts (s : Sm) (cta : UInt32) (ids : List UInt32) (arrived : Nat) : Prop where
  distinct : ids.Nodup
  resident : ∀ i id, ids[i]? = some id →
    s.warps.find? id = some ⟨cta, decide (i < arrived), false, 0⟩
  alone : ∀ id ∈ s.liveIds, id ∈ ids

theorem hosts_nil (cta : UInt32) (h : s.liveIds = ∅) : s.Hosts cta [] 0 where
  distinct := List.nodup_nil
  resident _ _ h := by cases h
  alone id hid := by simp [h] at hid

theorem Hosts.liveIds_eq (h : s.Hosts cta ids k) : s.liveIds = ids.toFinset := by
  ext id
  rw [List.mem_toFinset]
  refine ⟨h.alone id, fun hid => ?_⟩
  obtain ⟨i, hi⟩ := List.getElem?_of_mem hid
  exact mem_liveIds.mpr ⟨_, h.resident i id hi, rfl⟩

theorem Hosts.serves (h : s.Hosts cta ids k) (hid : id ∈ ids) : s.Serves cta id := by
  obtain ⟨i, hi⟩ := List.getElem?_of_mem hid
  exact ⟨_, h.resident i id hi, rfl, rfl⟩

/-- A warp that has not arrived holds nothing up. -/
theorem Hosts.ready {i : Nat} (h : s.Hosts cta ids k) (hi : ids[i]? = some id) (hk : k ≤ i) :
    s.waitsAtBarrier id = false ∧ s.waitsForAtomics id = false := by
  rw [waitsAtBarrier, waitsForAtomics, h.resident i id hi]
  simpa using hk

/-- The block is complete when all of its warps wait. -/
theorem Hosts.complete_iff (h : s.Hosts cta ids k) :
    s.Complete cta ↔ ids ≠ [] ∧ ids.length ≤ k := by
  constructor
  · intro hc
    obtain ⟨id, r, hf, _, hlive⟩ := hc.peopled
    have hid := h.alone id (mem_liveIds.mpr ⟨r, hf, hlive⟩)
    refine ⟨List.ne_nil_of_mem hid, ?_⟩
    by_contra hlt
    have hk : ids[k]? = some ids[k] := List.getElem?_eq_getElem (by omega)
    have hwait := hc.waiting _ _ (h.resident k _ hk) rfl rfl
    simp at hwait
  · rintro ⟨hne, hlen⟩
    constructor
    · obtain ⟨id, hid⟩ := List.exists_mem_of_ne_nil ids hne
      obtain ⟨i, hi⟩ := List.getElem?_of_mem hid
      exact ⟨id, _, h.resident i id hi, rfl, rfl⟩
    · intro id r hf _ hlive
      obtain ⟨i, hi⟩ := List.getElem?_of_mem (h.alone id (mem_liveIds.mpr ⟨r, hf, hlive⟩))
      obtain ⟨hlt, _⟩ := List.getElem?_eq_some_iff.mp hi
      rw [h.resident i id hi, Option.some.injEq] at hf
      subst hf
      simp only [decide_eq_true_eq]
      omega

/-- One more warp begins. -/
theorem Hosts.launch (h : s.Hosts cta ids 0) (hid : id ∉ ids) (hl : s.launch? cta id = some t) :
    t.Hosts cta (ids ++ [id]) 0 := by
  obtain ⟨_, rfl⟩ := launch?_eq_some.mp hl
  refine ⟨?_, ?_, ?_⟩
  · rw [List.nodup_append]
    refine ⟨h.distinct, List.nodup_singleton id, ?_⟩
    rintro a ha b hb rfl
    exact hid (List.mem_singleton.mp hb ▸ ha)
  · intro i j hj
    by_cases hji : j = id
    · subst hji
      simp [Resident.fresh]
    · have hi : ids[i]? = some j := by
        rw [List.getElem?_append] at hj
        split at hj
        · exact hj
        · have := List.mem_of_getElem? hj
          exact absurd (List.mem_singleton.mp this) hji
      rw [WarpTable.find?_insert_ne _ _ hji]
      exact h.resident i j hi
  · intro j hj
    rw [launch?_liveIds hl, Finset.mem_insert] at hj
    rcases hj with rfl | hj
    · simp
    · exact List.mem_append_left _ (h.alone j hj)

/-! ## The barrier of the block -/

theorem Hosts.marked (h : s.Hosts cta ids k) (hid : ids[k]? = some id) :
    (s.marked id).Hosts cta ids (k + 1) := by
  refine ⟨h.distinct, ?_, fun j hj => h.alone j (by rwa [marked_liveIds] at hj)⟩
  intro i j hj
  obtain ⟨hik, _⟩ := List.getElem?_eq_some_iff.mp hid
  by_cases hji : j = id
  · subst hji
    obtain rfl : k = i := (List.getElem?_inj hik h.distinct).mp (hid.trans hj.symm)
    rw [Sm.marked, WarpTable.find?_update_self, h.resident k j hid]
    simp
  · have hne : i ≠ k := by
      rintro rfl
      rw [hj, Option.some.injEq] at hid
      exact hji hid
    have hiff : i < k ↔ i < k + 1 := by omega
    rw [Sm.marked, WarpTable.find?_update_ne _ _ hji, h.resident i j hj]
    simp only [hiff]

theorem Hosts.freed (h : s.Hosts cta ids k)
    (hfind : ∀ id, t.warps.find? id = (s.warps.find? id).map (Resident.freed cta))
    (hlive : t.liveIds = s.liveIds) : t.Hosts cta ids 0 := by
  refine ⟨h.distinct, ?_, fun j hj => h.alone j (by rwa [hlive] at hj)⟩
  intro i j hj
  rw [hfind, h.resident i j hj]
  simp [Resident.freed]

/-- The next warp arrives. Where it is the last one, the barrier is released. -/
theorem Hosts.arrive (h : s.Hosts cta ids k) (hid : ids[k]? = some id)
    (ha : s.arrive cta id = .ok t) :
    t.Hosts cta ids (if k + 1 = ids.length then 0 else k + 1) ∧
      t.released.toNat = s.released.toNat + (if k + 1 = ids.length then 1 else 0) ∧
      t.config = s.config := by
  obtain ⟨hk, _⟩ := List.getElem?_eq_some_iff.mp hid
  have hm := h.marked hid
  rcases arrive_cases ha with ⟨hnone, _⟩ | ⟨r, _, _, hr⟩
  · rw [h.resident k id hid] at hnone
    cases hnone
  · rcases tryRelease_cases hr with ⟨hopen, rfl⟩ | ⟨hfull, _, hconf, hcount, hfind⟩
    · rw [hm.complete_iff] at hopen
      have hlt : ¬ k + 1 = ids.length :=
        fun he => hopen ⟨List.ne_nil_of_length_pos (by omega), by omega⟩
      rw [if_neg hlt, if_neg hlt]
      exact ⟨hm, rfl, rfl⟩
    · rw [hm.complete_iff] at hfull
      have he : k + 1 = ids.length := by omega
      rw [if_pos he, if_pos he]
      exact ⟨hm.freed hfind (tryRelease_liveIds hr), hcount, hconf⟩

/-! ## The end of the block -/

theorem Hosts.ended {rest : List UInt32} (h : s.Hosts cta (id :: rest) 0) :
    (s.ended id).Hosts cta rest 0 := by
  have hd := List.nodup_cons.mp h.distinct
  refine ⟨hd.2, ?_, ?_⟩
  · intro i j hj
    have hji : j ≠ id := by
      rintro rfl
      exact hd.1 (List.mem_of_getElem? hj)
    rw [Sm.ended, WarpTable.find?_update_ne _ _ hji]
    exact h.resident (i + 1) j (by simpa using hj)
  · intro j hj
    rw [ended_liveIds, Finset.mem_erase] at hj
    exact (List.mem_cons.mp (h.alone j hj.2)).resolve_left hj.1

/-- The exit of the first warp releases no barrier. -/
theorem Hosts.exit {rest : List UInt32} (h : s.Hosts cta (id :: rest) 0) :
    s.exit id = .ok (s.ended id) := by
  have hopen : ¬ (s.ended id).Complete cta := by
    rw [h.ended.complete_iff]
    rintro ⟨hne, hlen⟩
    exact hne (List.eq_nil_of_length_eq_zero (by omega))
  rw [Sm.exit, h.resident 0 id rfl]
  exact tryRelease_eq_self hopen

end Simt.Sm
