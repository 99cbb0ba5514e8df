-- The work enumerator over a row of calls. What a bound kernel tells of its work depends on
-- two numbers of the row: the calls that went on to a block, and the calls that went on to a
-- thread after the last of these.
import Simt.Proofs.Kernel

namespace Simt.Kernel

/-! ## Rows of calls -/

/-- A call that goes on to the next block, or to the next thread of the block. -/
inductive Step where
  | cta
  | thread
  deriving DecidableEq

def Step.take (k : Kernel) : Step → Outcome Kernel
  | .cta => k.advanceCta
  | .thread => k.advanceThread

/-- The calls of a row that went on to a block. -/
def Step.ctas (steps : List Step) : Nat := steps.count .cta

/-- The calls of a row that went on to a thread, after the last one that went on to a block. -/
def Step.threads (steps : List Step) : Nat := (steps.rtakeWhile (· = .thread)).length

/-- The kernel after a row of calls. -/
def walk (k : Kernel) (steps : List Step) : Outcome Kernel := steps.foldlM Step.take k

variable {grid block : Dim3} {entry : KernelEntry} {steps more : List Step} {k k' : Kernel}
  {n m : Nat}

theorem walk_append (k : Kernel) (steps more : List Step) :
    k.walk (steps ++ more) = k.walk steps >>= fun k' => k'.walk more :=
  List.foldlM_append

theorem walk_snoc {step : Step} :
    k.walk (steps ++ [step]) = .ok k' ↔ ∃ j, k.walk steps = .ok j ∧ step.take j = .ok k' := by
  rw [walk_append, Outcome.bind_eq_ok]
  exact exists_congr fun j => and_congr_right fun _ => by simp [walk, -Outcome.pure_eq_ok]

theorem walk_trans {last : Kernel} (h : k.walk steps = .ok k') (hmore : k'.walk more = .ok last) :
    k.walk (steps ++ more) = .ok last := by
  rw [walk_append, h, Outcome.ok_bind, hmore]

namespace Step

theorem ctas_append (steps more : List Step) : ctas (steps ++ more) = ctas steps + ctas more :=
  List.count_append

theorem threads_snoc_thread (steps : List Step) :
    threads (steps ++ [thread]) = threads steps + 1 := by
  simp [threads]

theorem threads_snoc_cta (steps : List Step) : threads (steps ++ [cta]) = 0 := by
  simp [threads]

theorem threads_replicate (steps : List Step) (count : Nat) :
    threads (steps ++ List.replicate count thread) = threads steps + count := by
  induction count with
  | zero => simp
  | succ count ih =>
    rw [List.replicate_succ', ← List.append_assoc, threads_snoc_thread, ih, Nat.add_assoc]

end Step

/-- A row of calls leads as far as its two numbers say, and never changes an extent. -/
theorem walk_reached (h : (bind grid block entry).walk steps = .ok k) :
    k.Reached (Step.ctas steps) (Step.threads steps) ∧ k.grid = grid ∧ k.block = block := by
  induction steps using List.reverseRecOn generalizing k with
  | nil =>
    cases h
    exact ⟨.bind grid block entry, rfl, rfl⟩
  | append_singleton steps step ih =>
    obtain ⟨j, hj, hstep⟩ := walk_snoc.mp h
    obtain ⟨hreached, hgrid, hblock⟩ := ih hj
    rw [Step.ctas_append]
    cases step with
    | cta =>
      rw [Step.threads_snoc_cta]
      refine ⟨.cta hreached hstep, ?_⟩
      obtain ⟨next, -, hnext⟩ := Outcome.bind_eq_ok.mp hstep
      cases hnext
      exact ⟨hgrid, hblock⟩
    | thread =>
      rw [Step.threads_snoc_thread]
      refine ⟨.thread hreached hstep, ?_⟩
      obtain ⟨next, -, hnext⟩ := Outcome.bind_eq_ok.mp hstep
      cases hnext
      exact ⟨hgrid, hblock⟩

/-! ## What the enumerator tells -/

/-- The coordinates of place `n` of an extent, with no end of the last axis. -/
def coordinates (extent : Dim3) (n : Nat) : Nat × Nat × Nat :=
  (n % extent.x.toNat, n / extent.x.toNat % extent.y.toNat, n / (extent.x.toNat * extent.y.toNat))

theorem coordinates_place {extent : Dim3} (h : 0 < extent.volume) (hn : n < extent.reach) :
    ((extent.place n).x.toNat, (extent.place n).y.toNat, (extent.place n).z.toNat) =
      coordinates extent n := by
  obtain ⟨hx, hy⟩ := Dim3.axes_pos h
  rw [Dim3.place_x, Dim3.place_y, Dim3.place_z hn, Dim3.radix_eq hx, Dim3.radix_eq hy,
    Nat.div_div_eq_div_mul, coordinates]

/-- What a kernel of these extents tells of its work after `n` blocks, and after `m` threads of
the block that is next. -/
structure Tells (k : Kernel) (grid block : Dim3) (n m : Nat) : Prop where
  ctasDone : k.ctasDone = true ↔ grid.volume ≤ n
  hasThreads : k.hasThreads = true ↔ m < block.volume
  nextCta : 0 < grid.volume →
    (k.nextCta.x.toNat, k.nextCta.y.toNat, k.nextCta.z.toNat) = coordinates grid n
  nextCtaIndex : 0 < grid.volume → grid.volume < 2 ^ 64 → n ≤ grid.volume →
    ∃ index, k.nextCtaIndex = .ok index ∧ index.toNat = n
  nextThread : 0 < block.volume →
    (k.nextThread.x.toNat, k.nextThread.y.toNat, k.nextThread.z.toNat) = coordinates block m
  nextThreadIndex : 0 < block.volume → k.nextThreadIndex.toNat = m % 2 ^ 32

theorem Reached.tells (h : k.Reached n m) : k.Tells k.grid k.block n m := by
  obtain ⟨hat, hn, hm⟩ := h.stands
  refine ⟨?_, ?_, fun hpos => ?_, fun hpos hsize hle => ?_, fun hpos => ?_, fun hpos => ?_⟩
  · rw [← Bool.not_eq_false, hat.ctasDone hn, not_lt]
  · rw [Kernel.hasThreads, hat.thread, Dim3.inside_place hm]
  · rw [hat.cta, coordinates_place hpos hn]
  · obtain ⟨hx, hy⟩ := Dim3.axes_pos hpos
    have hrank := Dim3.rank_place_of_pos hx hy hn
    obtain ⟨index, hindex⟩ := Dim3.index_ok (i := k.grid.place n) hx
      (by rw [hrank]; exact hle.trans_lt hsize)
    exact ⟨index, by rw [Kernel.nextCtaIndex, hat.cta, hindex],
      (Dim3.index_eq_ok hindex).trans hrank⟩
  · rw [hat.thread, coordinates_place hpos hm]
  · obtain ⟨hx, hy⟩ := Dim3.axes_pos hpos
    rw [Kernel.nextThreadIndex, hat.thread, Dim3.wrappedIndex_eq, Dim3.rank_place_of_pos hx hy hm]
    exact UInt32.toNat_ofNat

theorem walk_tells (h : (bind grid block entry).walk steps = .ok k) :
    k.Tells grid block (Step.ctas steps) (Step.threads steps) := by
  obtain ⟨hreached, rfl, rfl⟩ := walk_reached h
  exact hreached.tells

/-! ## The work enumerator -/

/-- After any row of calls the enumerator tells its work from the two numbers of the row. A
grid that is done stays done, and a block that has no thread left has none after more calls for
threads. -/
theorem the_enumerator_counts_blocks_and_threads
    (h : (bind grid block entry).walk steps = .ok k) :
    k.Tells grid block (Step.ctas steps) (Step.threads steps) ∧
      (∀ more last, k.walk more = .ok last → k.ctasDone = true → last.ctasDone = true) ∧
      ∀ count last, k.walk (List.replicate count .thread) = .ok last →
        k.hasThreads = false → last.hasThreads = false := by
  have htells := walk_tells h
  refine ⟨htells, fun more last hmore hdone => ?_, fun count last hmore hnone => ?_⟩
  · rw [(walk_tells (walk_trans h hmore)).ctasDone, Step.ctas_append]
    exact (htells.ctasDone.mp hdone).trans (Nat.le_add_right _ _)
  · rw [← Bool.not_eq_true, htells.hasThreads] at hnone
    rw [← Bool.not_eq_true, (walk_tells (walk_trans h hmore)).hasThreads, Step.threads_replicate]
    omega

/-- Two calls for threads of the first block, one for the second block, and five for its four
threads. One more call leaves the block without a thread. -/
theorem five_calls_for_four_threads :
    ∃ k last, (bind ⟨2, 2, 1⟩ ⟨2, 1, 2⟩ ⟨"sums", 16⟩).walk
        [.thread, .thread, .cta, .thread, .thread, .thread, .thread, .thread] = .ok k ∧
      k.Tells ⟨2, 2, 1⟩ ⟨2, 1, 2⟩ 1 5 ∧ k.hasThreads = false ∧
      k.walk (List.replicate 1 .thread) = .ok last ∧ last.hasThreads = false := by
  have hcounts : ∀ k last : Kernel, (bind ⟨2, 2, 1⟩ ⟨2, 1, 2⟩ ⟨"sums", 16⟩).walk
        [.thread, .thread, .cta, .thread, .thread, .thread, .thread, .thread] = .ok k →
      k.hasThreads = false → k.walk (List.replicate 1 .thread) = .ok last →
      k.Tells ⟨2, 2, 1⟩ ⟨2, 1, 2⟩ 1 5 ∧ last.hasThreads = false := by
    intro k last h hnone hmore
    obtain ⟨htells, -, hstays⟩ := the_enumerator_counts_blocks_and_threads h
    exact ⟨htells, hstays 1 last hmore hnone⟩
  obtain ⟨htells, hstays⟩ := hcounts _ _ rfl (by decide) rfl
  exact ⟨_, _, rfl, htells, by decide, rfl, hstays⟩

end Simt.Kernel
