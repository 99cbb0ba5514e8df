-- The warps of a block as pieces of a list. A loop that puts one thread after the other into an
-- open warp, and closes a warp that is full, cuts the list of the threads into pieces of the
-- length of a warp.
import Simt.Proofs.Outcome
import Simt.Launch.Warps

namespace Simt

variable {α : Type} {width : Nat}

/-! ## Pieces of a list -/

/-- Cuts a list into pieces of a length. The last piece may be shorter. -/
def pieces (length : Nat) (items : List α) : List (List α) :=
  if items.isEmpty then []
  else if length = 0 then [items]
  else items.take length :: pieces length (items.drop length)
termination_by items.length
decreasing_by
  have : items.length ≠ 0 := by simp_all
  rw [List.length_drop]; omega

/-- The warps that so many threads need. -/
def warpsNeeded (threads warpSize : Nat) : Nat :=
  (threads + warpSize - 1) / warpSize

theorem pieces_nil (width : Nat) : pieces width ([] : List α) = [] := by
  rw [pieces]
  rfl

theorem pieces_cons (hw : 0 < width) {items : List α} (h : items ≠ []) :
    pieces width items = items.take width :: pieces width (items.drop width) := by
  rw [pieces, if_neg (by simpa using h), if_neg (by omega)]

theorem getElem?_pieces (hw : 0 < width) (items : List α) (i : Nat) :
    (pieces width items)[i]? =
      if i * width < items.length then some ((items.drop (i * width)).take width) else none := by
  induction i generalizing items with
  | zero =>
    cases items with
    | nil => simp [pieces_nil]
    | cons a rest => simp [pieces_cons hw (List.cons_ne_nil a rest)]
  | succ i ih =>
    cases items with
    | nil => simp [pieces_nil]
    | cons a rest =>
      rw [pieces_cons hw (List.cons_ne_nil a rest), List.getElem?_cons_succ, ih, List.drop_drop,
        List.length_drop, Nat.succ_mul, Nat.add_comm width]
      congr 1
      exact propext ⟨fun h => by omega, fun h => by omega⟩

theorem length_pieces (hw : 0 < width) (items : List α) :
    (pieces width items).length = (items.length + width - 1) / width := by
  induction hn : items.length using Nat.strongRecOn generalizing items with
  | ind n ih =>
    subst hn
    cases items with
    | nil =>
      rw [pieces_nil, List.length_nil, List.length_nil, Nat.zero_add,
        Nat.div_eq_of_lt (by omega)]
    | cons a rest =>
      rw [pieces_cons hw (List.cons_ne_nil a rest), List.length_cons,
        ih _ (by simp only [List.length_drop, List.length_cons]; omega) _ rfl]
      simp only [List.length_drop, List.length_cons]
      rcases Nat.lt_or_ge rest.length width with hlt | hge
      · rw [show rest.length + 1 - width = 0 by omega, Nat.zero_add,
          Nat.div_eq_of_lt (show width - 1 < width by omega)]
        exact (Nat.div_eq_of_lt_le (by omega) (by omega)).symm
      · rw [show rest.length + 1 + width - 1 = rest.length + 1 - width + width - 1 + width by omega,
          Nat.add_div_right _ hw]

theorem sum_length_pieces (hw : 0 < width) (items : List α) :
    ((pieces width items).map List.length).sum = items.length := by
  induction hn : items.length using Nat.strongRecOn generalizing items with
  | ind n ih =>
    subst hn
    cases items with
    | nil => simp [pieces_nil]
    | cons a rest =>
      rw [pieces_cons hw (List.cons_ne_nil a rest), List.map_cons, List.sum_cons,
        ih _ (by simp only [List.length_drop, List.length_cons]; omega) _ rfl,
        List.length_take, List.length_drop]
      omega

theorem flatten_pieces (hw : 0 < width) (items : List α) : (pieces width items).flatten = items := by
  induction hn : items.length using Nat.strongRecOn generalizing items with
  | ind n ih =>
    subst hn
    cases items with
    | nil => simp [pieces_nil]
    | cons a rest =>
      rw [pieces_cons hw (List.cons_ne_nil a rest), List.flatten_cons,
        ih _ (by simp only [List.length_drop, List.length_cons]; omega) _ rfl,
        List.take_append_drop]

theorem length_of_mem_pieces (hw : 0 < width) {items piece : List α}
    (h : piece ∈ pieces width items) : 0 < piece.length ∧ piece.length ≤ width := by
  obtain ⟨i, hi⟩ := List.getElem?_of_mem h
  rw [getElem?_pieces hw] at hi
  split at hi
  · cases hi
    rw [List.length_take, List.length_drop]
    omega
  · cases hi

/-- A piece with another one after it is full. -/
theorem length_of_mem_dropLast_pieces (hw : 0 < width) {items piece : List α}
    (h : piece ∈ (pieces width items).dropLast) : piece.length = width := by
  obtain ⟨i, hi⟩ := List.getElem?_of_mem h
  rw [List.getElem?_dropLast] at hi
  split at hi
  · rename_i hlt
    have hafter : (i + 1) * width < items.length := by
      by_contra hnot
      have hnone := getElem?_pieces hw items (i + 1)
      rw [if_neg hnot, List.getElem?_eq_none_iff] at hnone
      omega
    rw [Nat.succ_mul] at hafter
    rw [getElem?_pieces hw, if_pos (by omega)] at hi
    cases hi
    rw [List.length_take, List.length_drop]
    omega
  · cases hi

/-! ## The loop -/

/-- A piece that is short, or that has no end, is the whole list. -/
theorem pieces_short {items : List α} (hne : items ≠ []) (h : items.length < width ∨ width = 0) :
    pieces width items = [items] := by
  unfold pieces
  rw [if_neg (by simpa using hne)]
  split
  · rfl
  · have hle : items.length ≤ width := by omega
    rw [List.take_of_length_le hle, List.drop_of_length_le hle, pieces_nil]

/-- A piece that is full stands before the pieces of what comes after it. -/
theorem pieces_append (hw : 0 < width) {items : List α} (h : items.length = width)
    (rest : List α) : pieces width (items ++ rest) = items :: pieces width rest := by
  have hne : items ≠ [] := by
    rintro rfl
    exact hw.ne h
  rw [pieces_cons hw (by simp [hne]), List.take_left' h, List.drop_left' h]

namespace Forming

/-- The open warp has a lane left. Without lanes a warp is never full. -/
theorem flush_foldl_push (threads : List UInt32) (full : Array (List UInt32)) (lanes : Array UInt32)
    (h : lanes.size < width ∨ width = 0) :
    (threads.foldl (push width) ⟨full, lanes⟩).flush =
      full.toList ++ pieces width (lanes.toList ++ threads) := by
  induction threads generalizing full lanes with
  | nil =>
    rw [List.foldl_nil, List.append_nil]
    unfold flush
    by_cases hlanes : lanes.toList = []
    · simp [Array.toList_eq_nil_iff.mp hlanes, pieces_nil]
    · rw [pieces_short hlanes (by simpa using h), if_neg (by simpa using hlanes),
        Array.toList_push]
  | cons thread rest ih =>
    have hcons : lanes.toList ++ thread :: rest = (lanes.push thread).toList ++ rest := by simp
    rw [List.foldl_cons, push, hcons]
    by_cases hfull : (lanes.push thread).size = width
    · have hpos : 0 < width := by rw [← hfull]; simp
      rw [if_pos hfull, ih _ #[] (Or.inl hpos), List.nil_append, pieces_append hpos hfull]
      simp
    · rw [if_neg hfull]
      rw [Array.size_push] at hfull
      refine ih full (lanes.push thread) ?_
      rw [Array.size_push]
      omega

end Forming

namespace Kernel

/-- The loop takes the threads of the block, and each of them joins a warp. -/
theorem fillWarps_eq (warpSize limit : Nat) (forming : Forming) (taken : List UInt32) (k : Kernel) :
    fillWarps warpSize limit (taken.reverse.foldl (Forming.push warpSize) forming) k =
      (takeThreads.go limit taken k).map
        (Prod.map (List.foldl (Forming.push warpSize) forming) id) := by
  induction limit generalizing taken k with
  | zero => rfl
  | succ limit ih =>
    rw [fillWarps, takeThreads.go]
    split
    · refine Outcome.bind_map_right fun following => ?_
      rw [← ih, List.reverse_cons, List.foldl_append]
      rfl
    · rfl

/-- The warps of a block are the pieces of its threads. -/
theorem formWarps_eq (k : Kernel) (warpSize : Nat) :
    k.formWarps warpSize =
      (k.takeThreads k.block.volume).map (Prod.map (pieces warpSize) id) := by
  have hfill := fillWarps_eq warpSize k.block.volume ⟨#[], #[]⟩ [] k
  rw [List.reverse_nil, List.foldl_nil] at hfill
  rw [formWarps, hfill, takeThreads]
  cases takeThreads.go k.block.volume [] k with
  | error e => rfl
  | ok taken =>
    obtain ⟨threads, k⟩ := taken
    have hpieces := @Forming.flush_foldl_push warpSize threads #[] #[] (by simp; omega)
    simp only [List.nil_append] at hpieces
    simp only [Except.map, Prod.map, id, Outcome.ok_bind, Outcome.pure_eq_ok, hpieces]

end Kernel

end Simt
