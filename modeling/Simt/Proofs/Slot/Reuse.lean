-- Slots that are used again and again. Whatever was done to a slot before, an empty one has
-- nothing of the last issue, and the next issue makes the lanes of its own mask active and no
-- others. Slots that change places keep their widths with them.
import Simt.Proofs.Slot.Pool

namespace Simt

variable {ι α : Type}

namespace Slot

variable {s t : Slot α} {op : Operation α} {line : List (α × Instruction)} {width : Nat}

/-- What holds of a slot at any time of its use. -/
structure Sound (s : Slot α) : Prop where
  width : s.width ≤ maxWarpSize
  /-- No lane at or past the width is active. -/
  bits : s.active.bits.toNat < 2 ^ s.width
  wiped : s.empty = true → s.active = .empty ∧ s.warp = 0 ∧ s.issueCycle = 0
  fits : s.Fits
  marked : s.Marked

/-! ## New slots -/

theorem sound_of_new (h : new width = .ok s) : s.Sound := by
  unfold new at h
  split at h
  · rename_i hle
    cases h
    refine ⟨hle, Nat.two_pow_pos width, fun _ => ⟨rfl, rfl, rfl⟩, ?_, ?_⟩
    · intro lanes hl
      cases hl
    · intro lane hp
      cases hp
  · cases h

theorem new_of_ofWidth (h : ofWidth width = .ok s) : new width = .ok s := by
  unfold ofWidth at h
  split at h
  · rename_i slot hnew
    cases h
    exact hnew
  · cases h

/-! ## One operation -/

/-- An issue into a wiped slot makes the lanes of the mask active that the slot has, and no
others. -/
theorem issue_bits {mask warp : UInt32} {cycle : UInt64} (hs : s.Sound)
    (h : s.issue mask warp cycle = .ok t) : t.active.bits.toNat = mask.toNat % 2 ^ s.width := by
  unfold issue at h
  split at h
  · rename_i he
    cases h
    have htest : ∀ lane, (((List.range s.width).filter (Mask.mk mask).test).foldl Mask.insert
        s.active).test lane = (decide (lane < s.width) && (Mask.mk mask).test lane) := by
      intro lane
      have hbelow : ∀ l ∈ (List.range s.width).filter (Mask.mk mask).test, l < maxWarpSize :=
        fun l hl => (List.mem_range.mp (List.mem_filter.mp hl).1).trans_le hs.width
      rw [Mask.test_foldl_insert _ _ hbelow, (hs.wiped he).1]
      simp
    exact Mask.bits_eq_mod htest
  · cases h

theorem Sound.issue {mask warp : UInt32} {cycle : UInt64} (hs : s.Sound)
    (h : s.issue mask warp cycle = .ok t) : t.Sound := by
  obtain ⟨_, he, _, hwidth, hatomic, hlanes⟩ := issue_cases h
  refine ⟨?_, ?_, ?_, ?_, ?_⟩
  · rw [hwidth]
    exact hs.width
  · rw [issue_bits hs h, hwidth]
    exact Nat.mod_lt _ (Nat.two_pow_pos _)
  · rw [he]
    nofun
  · intro lanes hl
    rw [hlanes] at hl
    rw [hs.fits lanes hl, hwidth]
  · intro lane hp
    rw [parkedAt_congr hlanes] at hp
    rw [hatomic]
    exact hs.marked lane hp

theorem Sound.clear (hs : s.Sound) : s.clear.Sound := by
  refine ⟨hs.width, Nat.two_pow_pos _, fun _ => ⟨rfl, rfl, rfl⟩, (clear_idle hs.fits).fits, ?_⟩
  intro lane hp
  rw [clear_parkedAt] at hp
  cases hp

/-- What leaves the issue alone has to look after the lanes only. -/
theorem Sound.sameIssue (hs : s.Sound) (h : SameIssue s t) (hfits : t.Fits) (hmarked : t.Marked) :
    t.Sound := by
  refine ⟨?_, ?_, ?_, hfits, hmarked⟩
  · rw [h.width]
    exact hs.width
  · rw [h.active, h.width]
    exact hs.bits
  · rw [h.empty, h.active, h.warp, h.issueCycle]
    exact hs.wiped

theorem Sound.edit {change : SlotEdit α} (hs : s.Sound) (h : change.apply s = .ok t) : t.Sound := by
  obtain ⟨hfits, hsame⟩ := edit_keeps hs.fits h
  exact hs.sameIssue hsame hfits (edit_marked hs.marked h)

theorem takeParked_same {work : List α} (h : s.takeParked = .ok (work, t)) : SameIssue s t := by
  unfold takeParked at h
  split at h
  · cases h
    exact ⟨rfl, rfl, rfl, rfl, rfl⟩
  · cases h

theorem Sound.deliver {work : List α} (hs : s.Sound) (h : s.takeParked = .ok (work, t)) :
    t.Sound := by
  obtain ⟨_, hnone, hfits, _⟩ := takeParked_cases hs.fits h
  refine hs.sameIssue (takeParked_same h) hfits fun lane hp => ?_
  rw [hnone] at hp
  cases hp

theorem step_sound (hs : s.Sound) (h : s.step op = .ok (t, line)) : t.Sound := by
  rcases step_cases h with ⟨mask, warp, cycle, _, hissue, _⟩ | ⟨_, rfl, _⟩ | ⟨change, _, hedit, _⟩ |
    ⟨work, _, htake, _⟩
  · exact hs.issue hissue
  · exact hs.clear
  · exact hs.edit hedit
  · exact hs.deliver htake

end Slot

/-! ## A pool in use -/

namespace Pool

variable [DecidableEq ι] {pool last : Pool ι α} {ops : List (Operation ι α)}
  {log : List (List (α × Instruction))}

/-- After any use of new slots, with moves between slots of different widths, every slot is sound.
An edit goes through exactly if it names a lane of the slot, and an issue into an empty slot makes
exactly those lanes of its mask active that the slot has. -/
theorem every_use_of_a_slot_starts_clean {width : ι → Nat}
    (hnew : ∀ p, Slot.new (width p) = .ok (pool p) ∨ Slot.ofWidth (width p) = .ok (pool p))
    (h : pool.run ops = .ok (last, log)) (p : ι) :
    (last p).Sound ∧
      (∀ change : SlotEdit α, (∃ t, change.apply (last p) = .ok t) ↔ change.Below (last p).width) ∧
      ((last p).empty = true → ∀ mask warp cycle, ∃ t, (last p).issue mask warp cycle = .ok t ∧
        t.active.bits.toNat = mask.toNat % 2 ^ (last p).width) := by
  have hfirst : ∀ q, (pool q).Sound := fun q =>
    Slot.sound_of_new ((hnew q).elim id Slot.new_of_ofWidth)
  have hlast : (last p).Sound := run_keeps (fun _ _ _ _ => Slot.step_sound) hfirst h p
  refine ⟨hlast, fun change => ⟨?_, ?_⟩, fun he mask warp cycle => ?_⟩
  · rintro ⟨t, ht⟩
    exact Slot.edit_below hlast.fits ht
  · intro hbelow
    obtain ⟨t, ht, _⟩ := Slot.edit_ok hlast.fits hbelow
    exact ⟨t, ht⟩
  · obtain ⟨t, ht⟩ : ∃ t, (last p).issue mask warp cycle = .ok t := ⟨_, if_pos he⟩
    exact ⟨t, ht, Slot.issue_bits hlast ht⟩

/-- Both slots have had work, and the wide one has taken the place of the narrow one. -/
def changedPlaces : List (Operation Bool Nat) :=
  [.on false (.issue 3 1 1), .on false (.edit (.park 1 8)), .on false .clear,
    .on true (.issue 15 7 5), .on true (.edit (.park 3 30)),
    .move false true Bool.false_ne_true, .on false .deliver]

/-- The place of the wide slot has two lanes now, and the place of the narrow one has four. -/
theorem slots_of_two_widths_change_places :
    ∃ last log, pair.run changedPlaces = .ok (last, log) ∧
      ((last true).Sound ∧ (last true).width = 2 ∧ (last true).empty = true) ∧
      ((last false).Sound ∧ (last false).width = 4) ∧
      (¬ ∃ t, (last true).setAddr 2 64 = .ok t) ∧ (∃ t, (last false).setAddr 2 64 = .ok t) ∧
      ∃ t, (last true).issue 14 9 8 = .ok t ∧ t.active.bits.toNat = 2 := by
  have hrun : (pair.run changedPlaces).map
      (fun r => ((r.1 true).width, (r.1 true).empty, (r.1 false).width)) =
      .ok (2, true, 4) := by cbv
  obtain ⟨⟨last, log⟩, h, hlast⟩ := Outcome.map_eq_ok.mp hrun
  obtain ⟨hnarrow, he, hwide⟩ : (last true).width = 2 ∧ (last true).empty = true ∧
      (last false).width = 4 := by simpa using hlast
  have hnew : ∀ p, Slot.new (if p then 4 else 2) = .ok (pair p) ∨
      Slot.ofWidth (if p then 4 else 2) = .ok (pair p) := by
    intro p
    cases p with
    | true => exact .inl rfl
    | false => exact .inr rfl
  have huse := every_use_of_a_slot_starts_clean hnew h
  obtain ⟨htrue, hedit, hissue⟩ := huse true
  obtain ⟨hfalse, hedit', _⟩ := huse false
  rw [hnarrow] at hedit hissue
  rw [hwide] at hedit'
  refine ⟨last, log, h, ⟨htrue, hnarrow, he⟩, ⟨hfalse, hwide⟩, ?_, ?_, hissue he 14 9 8⟩
  · intro hset
    exact absurd ((hedit (.setAddr 2 64)).mp hset) (Nat.lt_irrefl 2)
  · exact (hedit' (.setAddr 2 64)).mpr (show 2 < 4 by decide)

end Pool

end Simt
