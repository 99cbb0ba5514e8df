-- The work enumerator as two counters. A kernel stands at a number of blocks and at a number
-- of threads of the next block, and every operation of it moves one of these numbers. The
-- threads that are left of a block come out in the order of their numbers.
import Simt.Proofs.Dim3
import Simt.Proofs.Kernel.Pieces

namespace Simt

namespace Kernel

/-- The kernel has handed out `n` blocks, and `m` threads of the block after them. -/
structure At (k : Kernel) (n m : Nat) : Prop where
  cta : k.nextCta = k.grid.place n
  thread : k.nextThread = k.block.place m

variable {k k' : Kernel} {n m : Nat}

/-! ## The blocks -/

theorem At.ctasDone (h : k.At n m) (hn : n < k.grid.reach) :
    k.ctasDone = false ↔ n < k.grid.volume := by
  rw [Kernel.ctasDone, h.cta, Bool.not_eq_false', Dim3.inside_place hn]

theorem At.advanceCta (h : k.At n m) (hn : n < k.grid.reach) :
    k.advanceCta =
      if n + 1 < k.grid.reach then
        .ok { k with nextCta := k.grid.place (n + 1), nextThread := .zero }
      else .error .addOverflow := by
  rw [Kernel.advanceCta, h.cta, Dim3.next_place hn]
  split <;> rfl

theorem At.advanced (h : k.At n m) (hn : n < k.grid.volume) :
    k.advanceCta = .ok { k with nextCta := k.grid.place (n + 1), nextThread := .zero } := by
  have hlt := Dim3.volume_lt_reach k.grid
  rw [h.advanceCta (by omega), if_pos (by omega)]

/-- A number of calls that each go on to the next block. -/
def advanceCtas : Nat → Kernel → Outcome Kernel
  | 0, k => .ok k
  | calls + 1, k => advanceCtas calls k >>= advanceCta

theorem advanceCtas_bind {grid block : Dim3} {entry : KernelEntry} {s : Nat}
    (h : advanceCtas s (.bind grid block entry) = .ok k) :
    k = { Kernel.bind grid block entry with nextCta := grid.place s } ∧ s < grid.reach := by
  induction s generalizing k with
  | zero =>
    cases h
    refine ⟨by simp [Kernel.bind], ?_⟩
    exact Dim3.reach_pos grid
  | succ s ih =>
    obtain ⟨j, hj, hk⟩ := Outcome.bind_eq_ok.mp h
    obtain ⟨rfl, hs⟩ := ih hj
    have hat : Kernel.At { Kernel.bind grid block entry with nextCta := grid.place s } s 0 :=
      ⟨rfl, by simp [Kernel.bind]⟩
    rw [hat.advanceCta hs] at hk
    split at hk
    · rename_i hlt
      cases hk
      exact ⟨rfl, hlt⟩
    · cases hk

/-- A kernel that was bound, and that only went on from block to block. -/
theorem advanceCtas_at {grid block : Dim3} {entry : KernelEntry} {s : Nat}
    (h : advanceCtas s (.bind grid block entry) = .ok k) :
    k.bound = true ∧ k.grid = grid ∧ k.block = block ∧ k.At s 0 ∧ s < grid.reach := by
  obtain ⟨rfl, hs⟩ := advanceCtas_bind h
  exact ⟨rfl, rfl, rfl, ⟨rfl, by simp [Kernel.bind]⟩, hs⟩

/-! ## The threads of a block -/

theorem takeThreads_go (limit : Nat) (taken : List UInt32) (hk : k.nextThread = k.block.place m)
    (hm : m < k.block.reach) (hlimit : k.block.volume ≤ m + limit) :
    takeThreads.go limit taken k =
      .ok (taken.reverse ++ (List.range' m (k.block.volume - m)).map UInt32.ofNat,
        { k with nextThread := k.block.place (max m k.block.volume) }) := by
  induction limit generalizing taken k m with
  | zero =>
    have h0 : k.block.volume - m = 0 := by omega
    rw [takeThreads.go, h0, Nat.max_eq_left (by omega), ← hk]
    simp
  | succ limit ih =>
    rw [takeThreads.go]
    by_cases hlt : m < k.block.volume
    · have hin : k.hasThreads = true := by
        rw [hasThreads, hk, Dim3.inside_place hm]
        exact hlt
      have hreach := Dim3.volume_lt_reach k.block
      have hgo := ih (k := { k with nextThread := k.block.place (m + 1) }) (m := m + 1)
        (k.nextThreadIndex :: taken) rfl (show m + 1 < k.block.reach by omega)
        (show k.block.volume ≤ m + 1 + limit by omega)
      rw [if_pos hin, advanceThread, hk, Dim3.next_place hm, if_pos (by omega)]
      simp only [Outcome.ok_bind, Outcome.pure_eq_ok]
      simp only at hgo
      have hsucc : k.block.volume - m = k.block.volume - (m + 1) + 1 := by omega
      rw [hgo, nextThreadIndex, hk, Dim3.wrappedIndex_place hlt, hsucc, List.range'_succ,
        Nat.max_eq_right (by omega), Nat.max_eq_right (by omega)]
      simp
    · have hout : k.hasThreads = false := by
        rw [hasThreads, hk, ← Bool.not_eq_true, Dim3.inside_place hm]
        exact hlt
      have h0 : k.block.volume - m = 0 := by omega
      rw [if_neg (by simp [hout]), h0, Nat.max_eq_left (by omega), ← hk]
      simp

theorem At.advanceThread (h : k.At n m) (hm : m < k.block.reach) :
    k.advanceThread =
      if m + 1 < k.block.reach then .ok { k with nextThread := k.block.place (m + 1) }
      else .error .addOverflow := by
  rw [Kernel.advanceThread, h.thread, Dim3.next_place hm]
  split <;> rfl

/-- The warps of a block are the pieces of the threads that are left of it, in order. -/
theorem At.formWarps (h : k.At n m) (hm : m < k.block.reach) (width : Nat) :
    k.formWarps width =
      .ok (pieces width ((List.range' m (k.block.volume - m)).map UInt32.ofNat),
        { k with nextThread := k.block.place (max m k.block.volume) }) := by
  rw [formWarps_eq, takeThreads, takeThreads_go _ [] h.thread hm (by omega)]
  rfl

/-! ## Kernels on their way -/

/-- A kernel, bound or not, that went on by `n` blocks and then by `m` threads of the block
after them. -/
inductive Reached : Kernel → Nat → Nat → Prop
  | unbound : Reached .unbound 0 0
  | bind (grid block : Dim3) (entry : KernelEntry) : Reached (.bind grid block entry) 0 0
  | cta {k k' : Kernel} {n m : Nat} : Reached k n m → k.advanceCta = .ok k' → Reached k' (n + 1) 0
  | thread {k k' : Kernel} {n m : Nat} :
      Reached k n m → k.advanceThread = .ok k' → Reached k' n (m + 1)

/-- A kernel stands where the calls on it have led. -/
theorem Reached.stands (h : k.Reached n m) : k.At n m ∧ n < k.grid.reach ∧ m < k.block.reach := by
  have hpos := Dim3.reach_pos
  induction h with
  | unbound => exact ⟨⟨by simp [Kernel.unbound], by simp [Kernel.unbound]⟩, hpos _, hpos _⟩
  | bind grid block entry => exact ⟨⟨by simp [Kernel.bind], by simp [Kernel.bind]⟩, hpos _, hpos _⟩
  | cta _ hnext ih =>
    obtain ⟨hat, hn, _⟩ := ih
    rw [hat.advanceCta hn] at hnext
    split at hnext
    · rename_i hlt
      cases hnext
      exact ⟨⟨rfl, by simp⟩, hlt, hpos _⟩
    · cases hnext
  | thread _ hnext ih =>
    obtain ⟨hat, hn, hm⟩ := ih
    rw [hat.advanceThread hm] at hnext
    split at hnext
    · rename_i hlt
      cases hnext
      exact ⟨⟨hat.cta, rfl⟩, hn, hlt⟩
    · cases hnext

/-- Calls lead a bound kernel to every block within reach, and to every thread of it. -/
theorem reached_bind (grid block : Dim3) (entry : KernelEntry) (hn : n < grid.reach)
    (hm : m < block.reach) : Reached { Kernel.bind grid block entry with
      nextCta := grid.place n, nextThread := block.place m } n m := by
  induction m with
  | zero =>
    induction n with
    | zero => simpa [Kernel.bind] using Reached.bind grid block entry
    | succ n ih =>
      have hreached := ih (by omega)
      refine hreached.cta ?_
      rw [hreached.stands.1.advanceCta (show n < grid.reach by omega)]
      simp [Kernel.bind, hn]
  | succ m ih =>
    have hreached := ih (by omega)
    refine hreached.thread ?_
    rw [hreached.stands.1.advanceThread (show m < block.reach by omega)]
    simp [Kernel.bind, hm]

theorem At.reached (h : k.At n m) (hbound : k.bound = true) (hn : n < k.grid.reach)
    (hm : m < k.block.reach) : k.Reached n m := by
  obtain ⟨entry, hentry⟩ := Option.isSome_iff_exists.mp hbound
  have hk := reached_bind k.grid k.block entry hn hm
  rwa [← h.cta, ← h.thread, Kernel.bind, ← hentry] at hk

end Kernel

end Simt
