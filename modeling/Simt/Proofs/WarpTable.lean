-- The warp table as a partial map. Every law of an SM speaks of `find?` alone: the order of
-- the entries and the list under the table appear in this module and nowhere after it.
import Simt.Proofs.Outcome
import Simt.Sm.WarpTable

namespace Simt.WarpTable

/-! ## One id -/

theorem mem_entries {t : WarpTable} {id : UInt32} {r : Resident} :
    (id, r) ∈ t.entries ↔ t.find? id = some r := by
  obtain ⟨entries, hd⟩ := t
  unfold find?
  simp only
  induction entries with
  | nil => simp
  | cons e rest ih =>
    obtain ⟨j, q⟩ := e
    rw [List.map_cons, List.nodup_cons] at hd
    by_cases hj : id = j
    · subst hj
      have hnot : (id, r) ∉ rest := fun h => hd.1 (List.mem_map.mpr ⟨_, h, rfl⟩)
      simp [hnot, eq_comm]
    · have hb : (id == j) = false := by simpa using hj
      simp [List.lookup_cons, hb, hj, ih hd.2]

theorem find?_map (t : WarpTable) (change : UInt32 → Resident → Resident) (id : UInt32) :
    (t.map change).find? id = (t.find? id).map (change id) := by
  apply Option.ext
  intro r
  rw [← mem_entries, Option.map_eq_some_iff]
  constructor
  · intro h
    obtain ⟨⟨j, q⟩, hq, he⟩ := List.mem_map.mp h
    cases he
    exact ⟨q, mem_entries.mp hq, rfl⟩
  · rintro ⟨q, hq, rfl⟩
    exact List.mem_map.mpr ⟨(id, q), mem_entries.mpr hq, rfl⟩

@[simp] theorem find?_update_self (t : WarpTable) (id : UInt32) (change : Resident → Resident) :
    (t.update id change).find? id = (t.find? id).map change := by
  simp [update, find?_map]

theorem find?_update_ne (t : WarpTable) {id j : UInt32} (change : Resident → Resident)
    (h : j ≠ id) : (t.update id change).find? j = t.find? j := by
  simp [update, find?_map, h]

/-! ## Changes of many warps -/

/-- Changes that agree on the warps of the table make the same table. -/
theorem map_congr {t : WarpTable} {change other : UInt32 → Resident → Resident}
    (h : ∀ id r, t.find? id = some r → change id r = other id r) : t.map change = t.map other := by
  obtain ⟨entries, hd⟩ := t
  simp only [map, mk.injEq]
  refine List.map_congr_left ?_
  rintro ⟨id, r⟩ hr
  rw [h id r (mem_entries.mp hr)]

theorem map_map (t : WarpTable) (change after : UInt32 → Resident → Resident) :
    (t.map change).map after = t.map fun id r => after id (change id r) := by
  simp [map, Function.comp_def]

theorem map_self (t : WarpTable) : (t.map fun _ r => r) = t := by
  simp [map]

/-- A change that a second change takes back leaves the table as it was. -/
theorem update_update_eq_self {t : WarpTable} {id : UInt32} {r : Resident}
    {change back : Resident → Resident} (h : t.find? id = some r) (hback : back (change r) = r) :
    (t.update id change).update id back = t := by
  rw [update, update, map_map]
  refine (map_congr fun j q hq => ?_).trans t.map_self
  by_cases hj : j = id
  · subst hj
    rw [h, Option.some.injEq] at hq
    subst hq
    simp [hback]
  · simp [hj]

/-- A change of an id that is not in the table changes nothing. -/
theorem update_eq_self {t : WarpTable} {id : UInt32} (change : Resident → Resident)
    (h : t.find? id = none) : t.update id change = t := by
  refine (map_congr fun j q hq => ?_).trans t.map_self
  have hj : j ≠ id := by
    rintro rfl
    rw [h] at hq
    cases hq
  simp [hj]

/-! ## Other tables -/

theorem find?_filter (t : WarpTable) (keep : Resident → Bool) (id : UInt32) :
    (t.filter keep).find? id = (t.find? id).filter keep := by
  apply Option.ext
  intro r
  rw [← mem_entries, Option.filter_eq_some_iff, ← mem_entries]
  simp [filter]

@[simp] theorem find?_insert_self (t : WarpTable) (id : UInt32) (r : Resident) :
    (t.insert id r).find? id = some r := by
  rw [← mem_entries]
  simp [insert]

theorem find?_insert_ne (t : WarpTable) {id j : UInt32} (r : Resident) (h : j ≠ id) :
    (t.insert id r).find? j = t.find? j := by
  apply Option.ext
  intro q
  rw [← mem_entries, ← mem_entries]
  simp [insert, h]

@[simp] theorem find?_empty (id : UInt32) : empty.find? id = none := rfl

theorem eq_empty {t : WarpTable} (h : ∀ id, t.find? id = none) : t = empty := by
  obtain ⟨entries, hd⟩ := t
  cases entries with
  | nil => rfl
  | cons e rest =>
    have hf : find? ⟨e :: rest, hd⟩ e.1 = some e.2 := mem_entries.mp List.mem_cons_self
    rw [h] at hf
    cases hf

theorem contains_eq_true {t : WarpTable} {id : UInt32} :
    t.contains id = true ↔ ∃ r, t.find? id = some r := by
  rw [contains, Option.isSome_iff_exists]

/-! ## All warps of the table -/

theorem mem_residents {t : WarpTable} {r : Resident} :
    r ∈ t.residents ↔ ∃ id, t.find? id = some r := by
  simp only [residents, List.mem_map, ← mem_entries]
  constructor
  · rintro ⟨⟨id, q⟩, h, rfl⟩
    exact ⟨id, h⟩
  · rintro ⟨id, h⟩
    exact ⟨(id, r), h, rfl⟩

/-- The ids of the warps with some property. -/
def idsWhere (t : WarpTable) (p : Resident → Bool) : Finset UInt32 :=
  ((t.entries.filter fun e => p e.2).map Prod.fst).toFinset

theorem mem_idsWhere {t : WarpTable} {p : Resident → Bool} {id : UInt32} :
    id ∈ t.idsWhere p ↔ ∃ r, t.find? id = some r ∧ p r = true := by
  simp only [idsWhere, List.mem_toFinset, List.mem_map, List.mem_filter]
  constructor
  · rintro ⟨⟨j, r⟩, ⟨h, hp⟩, rfl⟩
    exact ⟨r, mem_entries.mp h, hp⟩
  · rintro ⟨r, h, hp⟩
    exact ⟨(id, r), ⟨mem_entries.mpr h, hp⟩, rfl⟩

theorem countP_residents (t : WarpTable) (p : Resident → Bool) :
    t.residents.countP p = (t.idsWhere p).card := by
  have hd : ((t.entries.filter fun e => p e.2).map Prod.fst).Nodup :=
    t.distinct.sublist (List.filter_sublist.map Prod.fst)
  rw [idsWhere, List.toFinset_card_of_nodup hd, List.length_map, residents, List.countP_map,
    List.countP_eq_length_filter]
  rfl

end Simt.WarpTable
