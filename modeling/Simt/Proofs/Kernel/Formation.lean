-- The warps of a block. A kernel that has handed out some threads of a block shares out the rest,
-- in order and as many to a warp as it has lanes, and then has no thread of the block left.
import Simt.Launch
import Simt.Proofs.Kernel

namespace Simt.Kernel

variable {k : Kernel} {n m width : Nat}

/-- A block that was handed out has no thread left, also when more was asked for. -/
theorem hasThreads_of_spent (h : k.nextThread = k.block.place (max m k.block.volume))
    (hm : m < k.block.reach) : k.hasThreads = false := by
  have hvolume := Dim3.volume_lt_reach k.block
  have hreach : max m k.block.volume < k.block.reach := by omega
  rw [hasThreads, h, ← Bool.not_eq_true, Dim3.inside_place hreach]
  omega

/-- What a kernel makes of a block after `m` of its threads, and where it stands then. -/
structure SharesOut (k after : Kernel) (m width : Nat) (warps : List (List UInt32)) : Prop where
  /-- One after the other, the warps have the threads that are left, with their numbers modulo
  2^32. -/
  threads : warps.flatten.map UInt32.toNat =
    (List.range' m (k.block.volume - m)).map (· % 2 ^ 32)
  count : warps.length = warpsNeeded (k.block.volume - m) width
  full : ∀ warp ∈ warps.dropLast, warp.length = width
  last : ∀ warp ∈ warps.getLast?, 0 < warp.length ∧ warp.length ≤ width
  noneLeft : after.hasThreads = false
  nextCta : after.nextCta = k.nextCta

/-- A kernel forms warps wherever its calls have led it, whatever the extents of its block are. -/
theorem the_warps_of_a_block_share_out_the_threads_that_are_left (h : k.Reached n m)
    (hw : 0 < width) :
    ∃ warps after, k.formWarps width = .ok (warps, after) ∧ k.SharesOut after m width warps := by
  obtain ⟨hat, _, hm⟩ := h.stands
  refine ⟨_, _, hat.formWarps hm width, ?_, ?_, ?_, ?_, ?_, rfl⟩
  · rw [flatten_pieces hw, List.map_map]
    exact List.map_congr_left fun thread _ => UInt32.toNat_ofNat
  · rw [length_pieces hw, List.length_map, List.length_range', warpsNeeded]
  · intro warp hwarp
    exact length_of_mem_dropLast_pieces hw hwarp
  · intro warp hwarp
    exact length_of_mem_pieces hw (List.mem_of_getLast? hwarp)
  · exact hasThreads_of_spent rfl hm

/-- The second of two blocks, after two of its six threads: the four that are left make a full warp
of three and a warp of one. -/
theorem four_threads_are_left_for_warps_of_three :
    ∃ warps after,
      formWarps { bind ⟨2, 1, 1⟩ ⟨3, 1, 2⟩ ⟨"sums", 16⟩ with
        nextCta := ⟨1, 0, 0⟩, nextThread := ⟨2, 0, 0⟩ } 3 = .ok (warps, after) ∧
      SharesOut { bind ⟨2, 1, 1⟩ ⟨3, 1, 2⟩ ⟨"sums", 16⟩ with
        nextCta := ⟨1, 0, 0⟩, nextThread := ⟨2, 0, 0⟩ } after 2 3 warps ∧
      warps.flatten.map UInt32.toNat = [2, 3, 4, 5] ∧ warps.length = 2 := by
  have hat : At { bind ⟨2, 1, 1⟩ ⟨3, 1, 2⟩ ⟨"sums", 16⟩ with
      nextCta := ⟨1, 0, 0⟩, nextThread := ⟨2, 0, 0⟩ } 1 2 := ⟨by decide, by decide⟩
  obtain ⟨warps, after, hwarps, hshares⟩ :=
    the_warps_of_a_block_share_out_the_threads_that_are_left
      (hat.reached rfl (by decide) (by decide)) (by decide : 0 < 3)
  exact ⟨warps, after, hwarps, hshares, hshares.threads, hshares.count⟩

end Simt.Kernel
