-- The odometer step after step, from the first place on. It goes through the places of its extent
-- as nested loops do, with z outermost, and on past their end until the z wheel runs out of
-- numbers. The x and y wheels never do.
import Simt.Proofs.Dim3

namespace Simt.Dim3

variable {bound : Dim3} {n m : Nat}

/-! ## Steps in a row -/

/-- The place after a number of steps from the first one. -/
def walk (bound : Dim3) (steps : Nat) : Outcome Dim3 :=
  Outcome.iterate (fun i => i.next bound) steps zero

theorem iterate_next (n : Nat) (hm : m < reach bound) :
    Outcome.iterate (fun i => i.next bound) n (place bound m) =
      if m + n < reach bound then .ok (place bound (m + n)) else .error .addOverflow := by
  induction n generalizing m with
  | zero => rw [Outcome.iterate, Nat.add_zero, if_pos hm]
  | succ n ih =>
    rw [Outcome.iterate, next_place hm]
    by_cases hnext : m + 1 < reach bound
    · rw [if_pos hnext]
      simp only [ih hnext]
      rw [Nat.add_assoc, Nat.add_comm 1]
    · rw [if_neg hnext, if_neg (by omega)]

/-- A walk leads from one place to the next, and past the last number of the z wheel it faults. -/
theorem walk_eq (bound : Dim3) (n : Nat) :
    walk bound n = if n < reach bound then .ok (place bound n) else .error .addOverflow := by
  have h := iterate_next n (reach_pos bound)
  rwa [place_zero, Nat.zero_add] at h

theorem walk_ok (h : n < reach bound) : walk bound n = .ok (place bound n) := by
  rw [walk_eq, if_pos h]

/-- A digit of a place has room for one step more. -/
theorem add_one_ok {extent x : UInt32} (h : x.toNat < radix extent) :
    ∃ y, Word.add32 x 1 = .ok y :=
  ⟨_, (wheel rfl h).1⟩

/-! ## Nested loops -/

/-- The places of an extent in the order of three nested loops, with z outermost. -/
def places (bound : Dim3) : List Dim3 :=
  (List.range bound.z.toNat).flatMap fun z =>
    (List.range bound.y.toNat).flatMap fun y =>
      (List.range bound.x.toNat).map fun x =>
        ⟨UInt32.ofNat x, UInt32.ofNat y, UInt32.ofNat z⟩

theorem place_digits {x y z : Nat} (hx : x < bound.x.toNat) (hy : y < bound.y.toNat)
    (hz : z < bound.z.toNat) :
    place bound (z * (bound.y.toNat * bound.x.toNat) + (y * bound.x.toNat + x)) =
      ⟨UInt32.ofNat x, UInt32.ofNat y, UInt32.ofNat z⟩ := by
  have ex : (UInt32.ofNat x).toNat = x :=
    UInt32.toNat_ofNat_of_lt' (hx.trans bound.x.toNat_lt_size)
  have ey : (UInt32.ofNat y).toNat = y :=
    UInt32.toNat_ofNat_of_lt' (hy.trans bound.y.toNat_lt_size)
  have ez : (UInt32.ofNat z).toNat = z :=
    UInt32.toNat_ofNat_of_lt' (hz.trans bound.z.toNat_lt_size)
  have hinside : inside ⟨UInt32.ofNat x, UInt32.ofNat y, UInt32.ofNat z⟩ bound = true := by
    simp [inside, UInt32.lt_iff_toNat_lt, ex, ey, ez, hx, hy, hz]
  have hrank : rank ⟨UInt32.ofNat x, UInt32.ofNat y, UInt32.ofNat z⟩ bound =
      z * (bound.y.toNat * bound.x.toNat) + (y * bound.x.toNat + x) := by
    rw [rank, ex, ey, ez]
    ring
  rw [← hrank]
  exact (place_rank hinside).1

/-- Three loops count through the numbers of the places. -/
theorem map_place_range (bound : Dim3) :
    (List.range bound.volume).map (place bound) = places bound := by
  have hvolume : bound.volume = bound.z.toNat * (bound.y.toNat * bound.x.toNat) := by
    rw [volume]
    ring
  rw [hvolume, ← range_tile, List.map_flatMap, places]
  refine List.flatMap_congr fun z hz => ?_
  rw [← range_tile, List.map_flatMap, List.map_flatMap]
  refine List.flatMap_congr fun y hy => ?_
  simp only [List.map_map]
  refine List.map_congr_left fun x hx => ?_
  exact place_digits (List.mem_range.mp hx) (List.mem_range.mp hy) (List.mem_range.mp hz)

/-! ## The range of the odometer -/

/-- From the first place on, the odometer faults exactly when the z wheel has no number left, and
before that its wheels show the number of the steps. The x and y wheels always have room for one
step more. A walk of as many steps as the extent has places goes through. If the extent has any, it
shows them in the order of nested loops, and then stands past the last layer. -/
theorem the_odometer_goes_on_until_its_last_wheel_is_full (bound : Dim3) :
    (∀ n, walk bound n = .error .addOverflow ↔ radix bound.x * radix bound.y * 2 ^ 32 ≤ n) ∧
      (∀ n, n < radix bound.x * radix bound.y * 2 ^ 32 → ∃ i, walk bound n = .ok i ∧
        (i.x.toNat, i.y.toNat, i.z.toNat) =
          (n % radix bound.x, n / radix bound.x % radix bound.y,
            n / (radix bound.x * radix bound.y)) ∧
        (∃ x, Word.add32 i.x 1 = .ok x) ∧ ∃ y, Word.add32 i.y 1 = .ok y) ∧
      (∀ n, n ≤ bound.volume → ∃ i, walk bound n = .ok i) ∧
      (0 < bound.volume → (List.range (bound.volume + 1)).map (walk bound) =
        (places bound ++ [Dim3.mk 0 0 bound.z]).map .ok) := by
  have hreach : radix bound.x * radix bound.y * 2 ^ 32 = reach bound := by
    rw [reach, Nat.mul_assoc]
    rfl
  have hlt := volume_lt_reach bound
  rw [hreach]
  refine ⟨fun n => ?_, fun n hn => ?_, fun n hn => ?_, fun hpos => ?_⟩
  · rw [walk_eq]
    split
    · simp only [reduceCtorEq, false_iff]
      omega
    · simp only [true_iff]
      omega
  · refine ⟨place bound n, walk_ok hn, ?_, ?_, ?_⟩
    · rw [place_x, place_y, place_z hn, Nat.div_div_eq_div_mul]
    · exact add_one_ok ((place_x bound n).trans_lt (Nat.mod_lt _ (radix_pos _)))
    · exact add_one_ok ((place_y bound n).trans_lt (Nat.mod_lt _ (radix_pos _)))
  · exact ⟨_, walk_ok (hn.trans_lt hlt)⟩
  · have hwalk : ∀ n ∈ List.range (bound.volume + 1), walk bound n = .ok (place bound n) := by
      intro n hn
      have := List.mem_range.mp hn
      exact walk_ok (by omega)
    rw [List.map_congr_left hwalk, ← map_place_range, ← place_volume hpos, List.range_succ]
    simp

/-- Two places in a row and two layers of one row each, where the y wheel has an extent of one. The
fifth place is past the last layer, and the walk goes on for as many steps as two places have
numbers of layers. -/
theorem two_layers_of_two_places :
    walk ⟨2, 1, 2⟩ (2 ^ 33) = .error .addOverflow ∧
      (∃ i, walk ⟨2, 1, 2⟩ (2 ^ 33 - 1) = .ok i ∧
        (i.x.toNat, i.y.toNat, i.z.toNat) = (1, 0, 2 ^ 32 - 1) ∧
        (∃ x, Word.add32 i.x 1 = .ok x) ∧ ∃ y, Word.add32 i.y 1 = .ok y) ∧
      (∃ i, walk ⟨2, 1, 2⟩ 4 = .ok i) ∧
      (List.range 5).map (walk ⟨2, 1, 2⟩) =
        [Dim3.mk 0 0 0, ⟨1, 0, 0⟩, ⟨0, 0, 1⟩, ⟨1, 0, 1⟩, ⟨0, 0, 2⟩].map .ok := by
  obtain ⟨hfault, hdigits, hgoes, hplaces⟩ :=
    the_odometer_goes_on_until_its_last_wheel_is_full ⟨2, 1, 2⟩
  exact ⟨(hfault _).mpr (by decide), hdigits _ (by decide), hgoes 4 (by decide),
    hplaces (by decide)⟩

end Simt.Dim3
