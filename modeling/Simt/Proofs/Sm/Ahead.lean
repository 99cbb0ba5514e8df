-- Two SMs that differ in their counts of released barriers. No operation looks at the count, so
-- the two SMs answer alike for as long as the larger count has room.
import Simt.Proofs.Sm

namespace Simt.Sm

variable {s t : Sm} {cta warp : UInt32} {k : Nat}

/-- The second SM has the warps of the first one, and has released `k` barriers more. -/
def Ahead (k : Nat) (s t : Sm) : Prop :=
  ∃ id released, t = { s with id, released } ∧ released.toNat = s.released.toNat + k

theorem tryRelease_ahead (h : s.Ahead k t) :
    Outcome.Follows (Ahead k) (s.tryRelease cta) (t.tryRelease cta) := by
  obtain ⟨id, released, rfl, hk⟩ := h
  have hmembers : members { s with id, released } cta = s.members cta := rfl
  unfold tryRelease
  rw [hmembers]
  split
  · refine Outcome.Follows.bind (R := fun a b : UInt64 => b.toNat = a.toNat + k) ?_
      fun a b hab => Outcome.follows_ok ⟨id, b, rfl, hab⟩
    intro b hb
    have hmore : b.toNat = released.toNat + 1 := Word.add64_eq_ok.mp hb
    have hlt := b.toNat_lt_size
    obtain ⟨a, ha⟩ := Word.add64_ok (a := s.released) (b := 1) (by rw [UInt64.toNat_one]; omega)
    have hless : a.toNat = s.released.toNat + 1 := Word.add64_eq_ok.mp ha
    exact ⟨a, ha, by omega⟩
  · exact Outcome.follows_ok ⟨id, released, rfl, hk⟩

theorem launch?_ahead (cta warp : UInt32) (h : s.Ahead k t) :
    (s.launch? cta warp = none ∧ t.launch? cta warp = none) ∨
      ∃ s' t', s.launch? cta warp = some s' ∧ t.launch? cta warp = some t' ∧ s'.Ahead k t' := by
  obtain ⟨id, released, rfl, hk⟩ := h
  have hlive : liveWarps { s with id, released } = s.liveWarps := rfl
  unfold launch?
  rw [hlive]
  split
  · exact Or.inl ⟨rfl, rfl⟩
  · exact Or.inr ⟨_, _, rfl, rfl, id, released, rfl, hk⟩

theorem arrive_ahead (h : s.Ahead k t) :
    Outcome.Follows (Ahead k) (s.arrive cta warp) (t.arrive cta warp) := by
  obtain ⟨id, released, rfl, hk⟩ := h
  unfold arrive
  simp only
  split
  · exact tryRelease_ahead ⟨id, released, rfl, hk⟩
  · split
    · exact tryRelease_ahead ⟨id, released, rfl, hk⟩
    · nofun

theorem exit_ahead (h : s.Ahead k t) :
    Outcome.Follows (Ahead k) (s.exit warp) (t.exit warp) := by
  obtain ⟨id, released, rfl, hk⟩ := h
  unfold exit
  simp only
  split
  · exact Outcome.follows_ok ⟨id, released, rfl, hk⟩
  · exact tryRelease_ahead ⟨id, released, rfl, hk⟩

theorem issueAtomic_ahead (h : s.Ahead k t) :
    Outcome.Follows (Ahead k) (s.issueAtomic warp) (t.issueAtomic warp) := by
  obtain ⟨id, released, rfl, hk⟩ := h
  unfold issueAtomic
  simp only
  split
  · exact Outcome.follows_ok ⟨id, released, rfl, hk⟩
  · exact Outcome.follows_bind fun pending => Outcome.follows_ok ⟨id, released, rfl, hk⟩

theorem completeAtomic_ahead (h : s.Ahead k t) :
    Outcome.Follows (Ahead k) (s.completeAtomic warp) (t.completeAtomic warp) := by
  obtain ⟨id, released, rfl, hk⟩ := h
  unfold completeAtomic
  simp only
  split
  · exact Outcome.follows_ok ⟨id, released, rfl, hk⟩
  · split
    · nofun
    · exact Outcome.follows_ok ⟨id, released, rfl, hk⟩

theorem Ahead.retire (h : s.Ahead k t) : s.retire.Ahead k t.retire := by
  obtain ⟨id, released, rfl, hk⟩ := h
  exact ⟨id, released, rfl, hk⟩

end Simt.Sm
