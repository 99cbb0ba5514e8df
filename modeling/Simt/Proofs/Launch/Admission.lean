-- The warps of a block come and go. An SM takes them in the order of their numbers, under
-- ids that count on from block to block. An SM with no other live warp refuses none that it
-- has a place for, and after the block it has no live warp again.
import Simt.Proofs.Sm.Hosting
import Simt.Launch

namespace Simt.Launch

variable {sm : Sm} {cta warpsPerCta id : UInt32} {ids : List UInt32} {number base : Nat}
  {threads : List (List UInt32)} {admission : Admission}

/-! ## The ids of the warps -/

theorem warpId_eq_ok : warpId cta warpsPerCta number = .ok id ↔
    id.toNat = cta.toNat * warpsPerCta.toNat + (UInt32.ofNat number).toNat := by
  unfold warpId
  rw [Outcome.bind_eq_ok]
  constructor
  · rintro ⟨before, hmul, hadd⟩
    rw [Word.add32_eq_ok.mp hadd, Word.mul32_eq_ok.mp hmul]
  · intro h
    have hlt := id.toNat_lt_size
    obtain ⟨before, hmul⟩ := Word.mul32_ok (a := cta) (b := warpsPerCta) (by omega)
    refine ⟨before, hmul, Word.add32_eq_ok.mpr ?_⟩
    rw [h, Word.mul32_eq_ok.mp hmul]

theorem warpId_word (h : warpId cta warpsPerCta number = .ok id) :
    id = UInt32.ofNat (cta.toNat * warpsPerCta.toNat + number) := by
  rw [← UInt32.toNat_inj, UInt32.toNat_ofNat', ← Nat.mod_eq_of_lt id.toNat_lt_size,
    warpId_eq_ok.mp h, UInt32.toNat_ofNat', Nat.add_mod_mod]

/-- The warps of a block, where the warps of the blocks before have used up the ids below
the base. -/
def named (base number : Nat) (threads : List (List UInt32)) : List Warp :=
  threads.mapIdx fun i ts => ⟨UInt32.ofNat (base + number + i), ts⟩

theorem named_cons (base number : Nat) (ts : List UInt32) (rest : List (List UInt32)) :
    named base number (ts :: rest) =
      ⟨UInt32.ofNat (base + number), ts⟩ :: named base (number + 1) rest := by
  rw [named, List.mapIdx_cons, named, Nat.add_zero]
  congr 2
  funext i ts
  rw [show base + number + (i + 1) = base + (number + 1) + i by omega]

theorem length_named (base number : Nat) (threads : List (List UInt32)) :
    (named base number threads).length = threads.length := List.length_mapIdx

theorem named_threads (base number : Nat) (threads : List (List UInt32)) :
    (named base number threads).map Warp.threads = threads := by
  induction threads generalizing number with
  | nil => rfl
  | cons ts rest ih => rw [named_cons, List.map_cons, ih]

theorem named_ids (base number : Nat) (threads : List (List UInt32)) :
    (named base number threads).map Warp.id =
      (List.range' (base + number) threads.length).map UInt32.ofNat := by
  induction threads generalizing number with
  | nil => rfl
  | cons ts rest ih => rw [named_cons, List.map_cons, ih, List.length_cons, List.range'_succ]; rfl

theorem id_lt_of_mem_named {warp : Warp} (h : warp ∈ named base number threads) :
    warp.id.toNat < base + number + threads.length := by
  have hid := List.mem_map_of_mem (f := Warp.id) h
  rw [named_ids] at hid
  obtain ⟨k, hk, he⟩ := List.mem_map.mp hid
  have hlt := (List.mem_range'_1.mp hk).2
  rw [← he]
  exact (Nat.mod_le _ _).trans_lt hlt

/-- The ids of a block are different from one another as long as a word can count them. -/
theorem named_nodup (hroom : threads.length ≤ UInt32.size) :
    ((named base number threads).map Warp.id).Nodup := by
  rw [named_ids]
  refine List.Nodup.map_on ?_ List.nodup_range'
  intro a ha b hb he
  rw [List.mem_range'_1] at ha hb
  rw [← UInt32.toNat_inj, UInt32.toNat_ofNat', UInt32.toNat_ofNat'] at he
  simp only [UInt32.size] at hroom
  omega

/-! ## Warps come -/

/-- What an SM takes of a block: all of its warps, or the first few and not the next. -/
theorem enter_cases (h : enter cta warpsPerCta number threads sm = .ok admission) :
    (admission.refused = false ∧
      admission.taken = named (cta.toNat * warpsPerCta.toNat) number threads ∧
      ∀ i < threads.length, ∃ id, warpId cta warpsPerCta (number + i) = .ok id) ∨
    (admission.refused = true ∧ ∃ k < threads.length,
      admission.taken = (named (cta.toNat * warpsPerCta.toNat) number threads).take k) := by
  induction threads generalizing number sm admission with
  | nil =>
    cases h
    exact Or.inl ⟨rfl, rfl, fun i hi => absurd hi (Nat.not_lt_zero i)⟩
  | cons ts rest ih =>
    obtain ⟨id, hid, h⟩ := Outcome.bind_eq_ok.mp h
    have hword := warpId_word hid
    rw [named_cons]
    cases hl : sm.launch? cta id with
    | none =>
      rw [hl] at h
      cases h
      exact Or.inr ⟨rfl, 0, Nat.succ_pos _, rfl⟩
    | some t =>
      rw [hl] at h
      obtain ⟨later, hlater, h⟩ := Outcome.bind_eq_ok.mp h
      cases h
      rcases ih hlater with ⟨href, htaken, hids⟩ | ⟨href, k, hk, htaken⟩
      · refine Or.inl ⟨href, by simp only [htaken, hword], ?_⟩
        intro i hi
        cases i with
        | zero => exact ⟨id, hid⟩
        | succ i =>
          obtain ⟨j, hj⟩ := hids i (by simpa using hi)
          exact ⟨j, by rw [← hj]; congr 1; omega⟩
      · refine Or.inr ⟨href, k + 1, by simpa using hk, ?_⟩
        simp only [htaken, hword, List.take_succ_cons]

theorem length_taken_le (h : enter cta warpsPerCta number threads sm = .ok admission) :
    admission.taken.length ≤ threads.length := by
  rcases enter_cases h with ⟨_, htaken, _⟩ | ⟨_, k, _, htaken⟩
  · rw [htaken, length_named]
  · rw [htaken, ← length_named (cta.toNat * warpsPerCta.toNat) number threads]
    exact List.length_take_le' _ _

/-- While an SM takes the warps of a block, from a number on, it is asked to take one of them. -/
inductive Asks (cta warpsPerCta : UInt32) : Nat → List (List UInt32) → Sm → Sm → UInt32 → Prop where
  | next {number ts rest sm id} (named : warpId cta warpsPerCta number = .ok id) :
      Asks cta warpsPerCta number (ts :: rest) sm sm id
  | later {number ts rest sm t asked before id} (named : warpId cta warpsPerCta number = .ok before)
      (taken : sm.launch? cta before = some t)
      (more : Asks cta warpsPerCta (number + 1) rest t asked id) :
      Asks cta warpsPerCta number (ts :: rest) sm asked id

/-- The warps of the block that the SM has taken before are fewer than those of the whole block. -/
theorem Asks.room {asked : Sm} (h : Asks cta warpsPerCta number threads sm asked id) :
    asked.liveWarps < sm.liveWarps + threads.length ∧ asked.config = sm.config := by
  induction h with
  | next _ => simp
  | later _ taken _ ih =>
    have hlive := Sm.launch?_liveWarps taken
    obtain ⟨_, rfl⟩ := Sm.launch?_eq_some.mp taken
    obtain ⟨hlt, hconf⟩ := ih
    refine ⟨?_, hconf⟩
    rw [List.length_cons]
    split at hlive <;> omega

/-- An SM that has a place for every warp of the block takes each warp that it is asked to take. -/
theorem Asks.taken {asked : Sm} (h : Asks cta warpsPerCta number threads sm asked id)
    (hplaces : sm.liveWarps + threads.length ≤ sm.config.maxWarps.toNat) :
    ∃ t, asked.launch? cta id = some t := by
  obtain ⟨hlt, hconf⟩ := h.room
  rw [← Option.ne_none_iff_exists']
  intro hnone
  have hfull := (Sm.launch?_eq_none.mp hnone).1
  rw [hconf] at hfull
  omega

/-- A block is refused at a warp that the SM is asked to take, and does not take. -/
theorem asks_of_refused (h : enter cta warpsPerCta number threads sm = .ok admission)
    (href : admission.refused = true) :
    ∃ asked id, Asks cta warpsPerCta number threads sm asked id ∧ asked.launch? cta id = none := by
  induction threads generalizing number sm admission with
  | nil =>
    cases h
    cases href
  | cons ts rest ih =>
    obtain ⟨id, hid, h⟩ := Outcome.bind_eq_ok.mp h
    cases hl : sm.launch? cta id with
    | none => exact ⟨sm, id, .next hid, hl⟩
    | some t =>
      rw [hl] at h
      obtain ⟨later, hlater, h⟩ := Outcome.bind_eq_ok.mp h
      cases h
      obtain ⟨asked, next, hasks, hnone⟩ := ih hlater href
      exact ⟨asked, next, .later hid hl hasks, hnone⟩

/-- An SM refuses a warp of a block only where it has fewer places than live warps and warps
of the block. -/
theorem enter_refused (h : enter cta warpsPerCta number threads sm = .ok admission)
    (href : admission.refused = true) :
    sm.config.maxWarps.toNat < sm.liveWarps + threads.length := by
  obtain ⟨asked, id, hasks, hnone⟩ := asks_of_refused h href
  by_contra hplaces
  obtain ⟨t, ht⟩ := hasks.taken (Nat.not_lt.mp hplaces)
  rw [hnone] at ht
  cases ht

/-- Warps that come release no barrier. -/
theorem enter_same (h : enter cta warpsPerCta number threads sm = .ok admission) :
    admission.sm.released = sm.released ∧ admission.sm.config = sm.config := by
  induction threads generalizing number sm admission with
  | nil =>
    cases h
    exact ⟨rfl, rfl⟩
  | cons ts rest ih =>
    obtain ⟨id, hid, h⟩ := Outcome.bind_eq_ok.mp h
    cases hl : sm.launch? cta id with
    | none =>
      rw [hl] at h
      cases h
      exact ⟨rfl, rfl⟩
    | some t =>
      rw [hl] at h
      obtain ⟨later, hlater, h⟩ := Outcome.bind_eq_ok.mp h
      cases h
      obtain ⟨_, rfl⟩ := Sm.launch?_eq_some.mp hl
      have hsame := ih hlater
      exact hsame

/-- The warps that an SM takes can take their turns, whatever had their ids before. -/
theorem enter_serves (h : enter cta warpsPerCta number threads sm = .ok admission) :
    (∀ id, sm.Serves cta id → admission.sm.Serves cta id) ∧
      ∀ warp ∈ admission.taken, admission.sm.Serves cta warp.id := by
  induction threads generalizing number sm admission with
  | nil =>
    cases h
    exact ⟨fun _ hs => hs, fun warp hwarp => by cases hwarp⟩
  | cons ts rest ih =>
    obtain ⟨id, hid, h⟩ := Outcome.bind_eq_ok.mp h
    cases hl : sm.launch? cta id with
    | none =>
      rw [hl] at h
      cases h
      exact ⟨fun _ hs => hs, fun warp hwarp => by cases hwarp⟩
    | some t =>
      rw [hl] at h
      obtain ⟨later, hlater, h⟩ := Outcome.bind_eq_ok.mp h
      cases h
      obtain ⟨hkeep, htaken⟩ := ih hlater
      refine ⟨fun j hs => hkeep j (hs.launch hl), ?_⟩
      intro warp hwarp
      rcases List.mem_cons.mp hwarp with rfl | hwarp
      · exact hkeep id (Sm.serves_of_launch? hl)
      · exact htaken warp hwarp

/-- On an SM that hosts the block alone, the ids taken are hosted with those before. -/
theorem enter_hosts (hh : sm.Hosts cta ids 0)
    (hnew : (ids ++ (named (cta.toNat * warpsPerCta.toNat) number threads).map Warp.id).Nodup)
    (h : enter cta warpsPerCta number threads sm = .ok admission) :
    admission.sm.Hosts cta (ids ++ admission.taken.map Warp.id) 0 := by
  induction threads generalizing number sm admission ids with
  | nil =>
    cases h
    simpa using hh
  | cons ts rest ih =>
    obtain ⟨id, hid, h⟩ := Outcome.bind_eq_ok.mp h
    rw [named_cons, List.map_cons, ← warpId_word hid] at hnew
    cases hl : sm.launch? cta id with
    | none =>
      rw [hl] at h
      cases h
      simpa using hh
    | some t =>
      rw [hl] at h
      obtain ⟨later, hlater, h⟩ := Outcome.bind_eq_ok.mp h
      cases h
      have hid' : id ∉ ids := fun hmem =>
        (List.nodup_append.mp hnew).2.2 id hmem id List.mem_cons_self rfl
      have hhost := ih (hh.launch hid' hl)
        (by rwa [List.append_assoc, List.singleton_append]) hlater
      simpa using hhost

/-- An SM can be asked for all warps whose ids are words. -/
theorem enter_ok (hroom : cta.toNat * warpsPerCta.toNat + number + threads.length ≤ UInt32.size) :
    ∃ admission, enter cta warpsPerCta number threads sm = .ok admission := by
  induction threads generalizing number sm with
  | nil => exact ⟨_, rfl⟩
  | cons ts rest ih =>
    rw [List.length_cons] at hroom
    have hid : warpId cta warpsPerCta number =
        .ok (UInt32.ofNat (cta.toNat * warpsPerCta.toNat + number)) := by
      rw [warpId_eq_ok, UInt32.toNat_ofNat_of_lt' (by omega), UInt32.toNat_ofNat_of_lt' (by omega)]
    rw [enter, hid, Outcome.ok_bind]
    cases sm.launch? cta (UInt32.ofNat (cta.toNat * warpsPerCta.toNat + number)) with
    | none => exact ⟨_, rfl⟩
    | some t =>
      obtain ⟨later, hlater⟩ : ∃ later, enter cta warpsPerCta (number + 1) rest t = .ok later :=
        ih (by omega)
      simp only [hlater, Outcome.ok_bind]
      exact ⟨_, rfl⟩

/-! ## Warps go -/

/-- Warps can leave while the count has room for one release each. The warps of another block
may wait under the same number, and then the exits free them. -/
theorem leave_ok {warps : List Warp} (hr : sm.released.toNat + warps.length < UInt64.size) :
    ∃ t, leave warps sm = .ok t := by
  have hexits : ∃ t, warps.foldlM (fun sm warp => sm.exit warp.id) sm = .ok t := by
    refine (Outcome.foldlM_ok
      (P := fun rest (u : Sm) => u.released.toNat + rest.length < UInt64.size)
      ?_ hr).imp fun _ h => h.1
    intro warp rest u hu
    rw [List.length_cons] at hu
    obtain ⟨v, hv⟩ : ∃ v, u.exit warp.id = .ok v := Sm.exit_ok (by omega)
    have hle := Sm.exit_released_le hv
    exact ⟨v, hv, by omega⟩
  obtain ⟨t, ht⟩ := hexits
  exact ⟨t.retire, by rw [leave, ht]; rfl⟩

theorem leave_cases {t : Sm} {warps : List Warp} (h : leave warps sm = .ok t) :
    t.released.toNat ≤ sm.released.toNat + warps.length ∧ t.config = sm.config := by
  obtain ⟨u, hu, h⟩ := Outcome.bind_eq_ok.mp h
  cases h
  have hkept : u.released.toNat ≤ sm.released.toNat + warps.length ∧ u.config = sm.config := by
    refine Outcome.foldlM_keeps
      (P := fun rest (u : Sm) =>
        u.released.toNat + rest.length ≤ sm.released.toNat + warps.length ∧ u.config = sm.config)
      ?_ ⟨le_rfl, rfl⟩ hu
    rintro warp rest u v ⟨hle, hconf⟩ hv
    rw [List.length_cons] at hle
    have hstep := Sm.exit_released_le hv
    exact ⟨by omega, (Sm.exit_config hv).trans hconf⟩
  exact hkept

/-- The block that an SM hosts alone leaves it with no live warp, and releases nothing. -/
theorem leave_hosts {warps : List Warp} (hh : sm.Hosts cta (warps.map Warp.id) 0) :
    ∃ t, leave warps sm = .ok t ∧ t.liveIds = ∅ ∧ t.released = sm.released ∧
      t.config = sm.config := by
  have hexits : ∃ t, warps.foldlM (fun sm warp => sm.exit warp.id) sm = .ok t ∧
      t.Hosts cta [] 0 ∧ t.released = sm.released ∧ t.config = sm.config := by
    induction warps generalizing sm with
    | nil => exact ⟨sm, rfl, hh, rfl, rfl⟩
    | cons warp rest ih =>
      rw [List.map_cons] at hh
      obtain ⟨t, ht, hhost, hcount, hconf⟩ := ih hh.ended
      refine ⟨t, ?_, hhost, hcount, hconf⟩
      rw [List.foldlM_cons, hh.exit, Outcome.ok_bind, ht]
  obtain ⟨t, ht, hhost, hcount, hconf⟩ := hexits
  refine ⟨t.retire, ?_, ?_, hcount, hconf⟩
  · rw [leave, ht]
    rfl
  · rw [Sm.retire_liveIds, hhost.liveIds_eq]
    rfl

end Simt.Launch
