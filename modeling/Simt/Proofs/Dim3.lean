-- The odometer as a number. The place after `n` steps has the digits of `n` in the radices
-- of the extent, so that a step adds one, the bound is reached after as many steps as the
-- extent has places, and the number of a place is the count of the steps that lead to it.
import Simt.Proofs.Outcome
import Simt.Dim3

namespace Simt.Dim3

/-! ## One wheel -/

/-- The radix of an axis. An empty axis turns over at every step, as an axis of one place. -/
def radix (extent : UInt32) : Nat := max extent.toNat 1

theorem radix_pos (extent : UInt32) : 0 < radix extent := by
  unfold radix; omega

theorem radix_eq {extent : UInt32} (h : 0 < extent.toNat) : radix extent = extent.toNat := by
  unfold radix; omega

theorem radix_lt (extent : UInt32) : radix extent < UInt32.size := by
  have := extent.toNat_lt_size
  simp only [radix, UInt32.size] at *
  omega

/-- A wheel below its radix goes on by one, and the wheels above it stay. -/
theorem digits_step {n b : Nat} (h : n % b + 1 < b) :
    (n + 1) % b = n % b + 1 ∧ (n + 1) / b = n / b := by
  have hb : 0 < b := by omega
  rw [and_comm]
  apply (Nat.div_mod_unique hb).mpr
  have := Nat.mod_add_div n b
  exact ⟨by omega, h⟩

/-- A wheel at its radix turns over and carries one. -/
theorem digits_carry {n b : Nat} (h : n % b + 1 = b) :
    (n + 1) % b = 0 ∧ (n + 1) / b = n / b + 1 := by
  have hb : 0 < b := by omega
  rw [and_comm]
  apply (Nat.div_mod_unique hb).mpr
  have := Nat.mod_add_div n b
  rw [Nat.mul_add]
  exact ⟨by omega, hb⟩

/-- A wheel after a step: the comparison with the extent is a comparison with the radix. -/
theorem wheel {extent x : UInt32} {d : Nat} (hx : x.toNat = d) (hd : d < radix extent) :
    Word.add32 x 1 = .ok (UInt32.ofNat (d + 1)) ∧
      (UInt32.ofNat (d + 1) < extent ↔ d + 1 < radix extent) := by
  have hlt := radix_lt extent
  have hsize := extent.toNat_lt_size
  have hn : (UInt32.ofNat (d + 1)).toNat = d + 1 := UInt32.toNat_ofNat_of_lt' (by omega)
  refine ⟨Word.add32_eq_ok.mpr (by rw [hn, hx]; rfl), ?_⟩
  rw [UInt32.lt_iff_toNat_lt, hn]
  unfold radix at *
  omega

/-! ## The place after a number of steps -/

/-- The place after `n` steps from the first. -/
def place (bound : Dim3) (n : Nat) : Dim3 where
  x := UInt32.ofNat (n % radix bound.x)
  y := UInt32.ofNat (n / radix bound.x % radix bound.y)
  z := UInt32.ofNat (n / radix bound.x / radix bound.y)

/-- The steps after which the last wheel runs out of numbers. -/
def reach (bound : Dim3) : Nat := radix bound.x * (radix bound.y * UInt32.size)

variable {bound : Dim3} {n : Nat}

theorem place_x (bound : Dim3) (n : Nat) : (place bound n).x.toNat = n % radix bound.x :=
  UInt32.toNat_ofNat_of_lt' ((Nat.mod_lt _ (radix_pos _)).trans (radix_lt _))

theorem place_y (bound : Dim3) (n : Nat) :
    (place bound n).y.toNat = n / radix bound.x % radix bound.y :=
  UInt32.toNat_ofNat_of_lt' ((Nat.mod_lt _ (radix_pos _)).trans (radix_lt _))

theorem lt_reach : n < reach bound ↔ n / radix bound.x / radix bound.y < UInt32.size := by
  rw [Nat.div_lt_iff_lt_mul (radix_pos _), Nat.div_lt_iff_lt_mul (radix_pos _), reach,
    Nat.mul_comm (radix bound.x), Nat.mul_comm (radix bound.y)]

theorem place_z (h : n < reach bound) :
    (place bound n).z.toNat = n / radix bound.x / radix bound.y :=
  UInt32.toNat_ofNat_of_lt' (lt_reach.mp h)

@[simp] theorem place_zero (bound : Dim3) : place bound 0 = zero := by
  simp [place, zero]

/-- A step leads from one place to the next, until the last wheel has no number left. -/
theorem next_place (h : n < reach bound) :
    (place bound n).next bound =
      if n + 1 < reach bound then .ok (place bound (n + 1)) else .error .addOverflow := by
  have hx := wheel (place_x bound n) (Nat.mod_lt n (radix_pos bound.x))
  have hy := wheel (place_y bound n) (Nat.mod_lt (n / radix bound.x) (radix_pos bound.y))
  rw [next, hx.1, Outcome.ok_bind]
  simp only [hx.2]
  split
  · rename_i hlt
    obtain ⟨hmod, hdiv⟩ := digits_step hlt
    have hreach : n + 1 < reach bound := by rw [lt_reach, hdiv]; exact lt_reach.mp h
    rw [if_pos hreach]
    simp [place, hmod, hdiv]
  · rename_i hge
    obtain ⟨hmod, hdiv⟩ := digits_carry (n := n) (b := radix bound.x)
      (by have := Nat.mod_lt n (radix_pos bound.x); omega)
    rw [hy.1, Outcome.ok_bind]
    simp only [hy.2]
    split
    · rename_i hlt
      obtain ⟨hmod', hdiv'⟩ := digits_step hlt
      have hreach : n + 1 < reach bound := by rw [lt_reach, hdiv, hdiv']; exact lt_reach.mp h
      rw [if_pos hreach]
      simp [place, hmod, hdiv, hmod', hdiv']
    · rename_i hge'
      obtain ⟨hmod', hdiv'⟩ := digits_carry (n := n / radix bound.x) (b := radix bound.y)
        (by have := Nat.mod_lt (n / radix bound.x) (radix_pos bound.y); omega)
      have hreach : n + 1 < reach bound ↔ (place bound n).z.toNat + 1 < UInt32.size := by
        rw [lt_reach, hdiv, hdiv', place_z h]
      simp only [hreach, Word.add32, UInt32.toNat_one]
      split
      · simp only [Outcome.ok_bind, Outcome.pure_eq_ok, Except.ok.injEq, place, hmod, hdiv, hmod',
          hdiv', mk.injEq]
        exact ⟨rfl, rfl, by rw [UInt32.ofNat_add]; rfl⟩
      · rfl

/-! ## The bound -/

/-- An extent with a place has no empty axis. -/
theorem axes_pos (h : 0 < bound.volume) : 0 < bound.x.toNat ∧ 0 < bound.y.toNat :=
  ⟨Nat.pos_of_ne_zero fun h0 => by simp [volume, h0] at h,
    Nat.pos_of_ne_zero fun h0 => by simp [volume, h0] at h⟩

theorem volume_eq_radix (h : 0 < bound.volume) :
    bound.volume = radix bound.x * (radix bound.y * bound.z.toNat) := by
  obtain ⟨hx, hy⟩ := axes_pos h
  rw [radix_eq hx, radix_eq hy, volume, Nat.mul_assoc]

theorem reach_pos (bound : Dim3) : 0 < reach bound :=
  Nat.mul_pos (radix_pos _) (Nat.mul_pos (radix_pos _) (by decide))

theorem volume_lt_reach (bound : Dim3) : bound.volume < reach bound := by
  rcases Nat.eq_zero_or_pos bound.volume with h | h
  · rw [h]
    exact reach_pos bound
  · rw [volume_eq_radix h, reach]
    exact Nat.mul_lt_mul_of_pos_left
      (Nat.mul_lt_mul_of_pos_left bound.z.toNat_lt_size (radix_pos _)) (radix_pos _)

/-- The walk is inside the extent for as many steps as the extent has places. -/
theorem inside_place (h : n < reach bound) :
    (place bound n).inside bound = true ↔ n < bound.volume := by
  simp only [inside, Bool.and_eq_true, decide_eq_true_eq, UInt32.lt_iff_toNat_lt, place_x, place_y,
    place_z h]
  have hmx := Nat.mod_lt n (radix_pos bound.x)
  have hmy := Nat.mod_lt (n / radix bound.x) (radix_pos bound.y)
  rcases Nat.eq_zero_or_pos bound.volume with h0 | hpos
  · rw [h0]
    simp only [volume, Nat.mul_eq_zero] at h0
    rcases h0 with (h0 | h0) | h0 <;> simp [h0]
  · obtain ⟨hx, hy⟩ := axes_pos hpos
    rw [volume_eq_radix hpos, Nat.mul_comm (radix bound.x), ← Nat.div_lt_iff_lt_mul (radix_pos _),
      Nat.mul_comm (radix bound.y), ← Nat.div_lt_iff_lt_mul (radix_pos _)]
    rw [radix_eq hx] at hmx hmy ⊢
    rw [radix_eq hy] at hmy ⊢
    exact ⟨fun h => h.2, fun h => ⟨⟨hmx, hmy⟩, h⟩⟩

/-- A walk that is done stands past the last layer. -/
theorem place_volume (h : 0 < bound.volume) : place bound bound.volume = ⟨0, 0, bound.z⟩ := by
  rw [place, volume_eq_radix h]
  have hx := Nat.mul_div_cancel_left (radix bound.y * bound.z.toNat) (radix_pos bound.x)
  have hy := Nat.mul_div_cancel_left bound.z.toNat (radix_pos bound.y)
  rw [hx, hy, Nat.mul_mod_right, Nat.mul_mod_right]
  simp

/-! ## The number of a place -/

/-- The number of a place in exact arithmetic, x fastest. -/
def rank (i bound : Dim3) : Nat :=
  i.x.toNat + bound.x.toNat * (i.y.toNat + bound.y.toNat * i.z.toNat)

theorem index_eq_ok {i : Dim3} {r : UInt64} (h : i.index bound = .ok r) :
    r.toNat = rank i bound := by
  unfold index at h
  obtain ⟨layers, h1, h⟩ := Outcome.bind_eq_ok.mp h
  obtain ⟨rows, h2, h⟩ := Outcome.bind_eq_ok.mp h
  obtain ⟨places, h3, h4⟩ := Outcome.bind_eq_ok.mp h
  rw [Word.mul64_eq_ok] at h1 h3
  rw [Word.add64_eq_ok] at h2 h4
  rw [h4, h3, h2, h1]
  simp [rank]

theorem index_ok {i : Dim3} (hx : 0 < bound.x.toNat) (h : rank i bound < UInt64.size) :
    ∃ r, i.index bound = .ok r := by
  unfold rank at h
  have hrows : i.y.toNat + bound.y.toNat * i.z.toNat ≤
      bound.x.toNat * (i.y.toNat + bound.y.toNat * i.z.toNat) := Nat.le_mul_of_pos_left _ hx
  obtain ⟨layers, h1⟩ := Word.mul64_ok (a := bound.y.toUInt64) (b := i.z.toUInt64)
    (by simp only [UInt32.toNat_toUInt64]; omega)
  have e1 := Word.mul64_eq_ok.mp h1
  obtain ⟨rows, h2⟩ := Word.add64_ok (a := i.y.toUInt64) (b := layers)
    (by rw [e1]; simp only [UInt32.toNat_toUInt64]; omega)
  have e2 := Word.add64_eq_ok.mp h2
  simp only [e1, UInt32.toNat_toUInt64] at e2
  obtain ⟨places, h3⟩ := Word.mul64_ok (a := bound.x.toUInt64) (b := rows)
    (by rw [e2]; simp only [UInt32.toNat_toUInt64]; omega)
  have e3 := Word.mul64_eq_ok.mp h3
  obtain ⟨r, h4⟩ := Word.add64_ok (a := i.x.toUInt64) (b := places)
    (by rw [e3, e2]; simp only [UInt32.toNat_toUInt64]; omega)
  refine ⟨r, ?_⟩
  rw [index, h1, Outcome.ok_bind, h2, Outcome.ok_bind, h3, Outcome.ok_bind, h4]

/-- The number of a place is the count of the steps that lead to it, also past the end of the
extent. -/
theorem rank_place_of_pos (hx : 0 < bound.x.toNat) (hy : 0 < bound.y.toNat) (h : n < reach bound) :
    rank (place bound n) bound = n := by
  rw [rank, place_x, place_y, place_z h, radix_eq hx, radix_eq hy, Nat.mod_add_div, Nat.mod_add_div]

theorem rank_place (h : n < bound.volume) : rank (place bound n) bound = n := by
  obtain ⟨hx, hy⟩ := axes_pos (Nat.zero_lt_of_lt h)
  exact rank_place_of_pos hx hy (h.trans (volume_lt_reach bound))

/-- A place inside the extent is the place after as many steps as its number says. -/
theorem place_rank {i : Dim3} (h : i.inside bound = true) :
    place bound (rank i bound) = i ∧ rank i bound < bound.volume := by
  simp only [inside, Bool.and_eq_true, decide_eq_true_eq, UInt32.lt_iff_toNat_lt] at h
  obtain ⟨⟨hx, hy⟩, hz⟩ := h
  have hdx : rank i bound / bound.x.toNat = i.y.toNat + bound.y.toNat * i.z.toNat := by
    rw [rank, Nat.add_mul_div_left _ _ (by omega), Nat.div_eq_of_lt hx, Nat.zero_add]
  have hmx : rank i bound % bound.x.toNat = i.x.toNat := by
    rw [rank, Nat.add_mul_mod_self_left, Nat.mod_eq_of_lt hx]
  have hdy : (i.y.toNat + bound.y.toNat * i.z.toNat) / bound.y.toNat = i.z.toNat := by
    rw [Nat.add_mul_div_left _ _ (by omega), Nat.div_eq_of_lt hy, Nat.zero_add]
  have hmy : (i.y.toNat + bound.y.toNat * i.z.toNat) % bound.y.toNat = i.y.toNat := by
    rw [Nat.add_mul_mod_self_left, Nat.mod_eq_of_lt hy]
  constructor
  · simp only [place, @radix_eq bound.x (by omega), @radix_eq bound.y (by omega), hdx, hmx, hdy,
      hmy, UInt32.ofNat_toNat]
  · rw [volume, Nat.mul_assoc, Nat.mul_comm bound.x.toNat, ← Nat.div_lt_iff_lt_mul (by omega), hdx,
      Nat.mul_comm bound.y.toNat bound.z.toNat, ← Nat.div_lt_iff_lt_mul (by omega), hdy]
    exact hz

/-- The number modulo 2^32 needs no room. -/
theorem wrappedIndex_eq (i bound : Dim3) : i.wrappedIndex bound = UInt32.ofNat (rank i bound) := by
  rw [wrappedIndex, rank]
  simp only [UInt32.ofNat_add, UInt32.ofNat_mul, UInt32.ofNat_toNat]
  rw [UInt32.mul_add, ← UInt32.mul_assoc, UInt32.add_assoc]

theorem wrappedIndex_place (h : n < bound.volume) :
    (place bound n).wrappedIndex bound = UInt32.ofNat n := by
  rw [wrappedIndex_eq, rank_place h]

/-- Rows of one width tile the numbers. -/
theorem range_tile (width n : Nat) :
    (List.range n).flatMap (fun row => (List.range width).map (row * width + ·)) =
      List.range (n * width) := by
  induction n with
  | zero => simp
  | succ n ih =>
    rw [List.range_succ, List.flatMap_append, ih, Nat.succ_mul, List.range_add, List.flatMap_singleton]

/-! ## Sizes -/

theorem size_eq_ok {d : Dim3} {v : UInt64} (h : d.size = .ok v) : v.toNat = d.volume := by
  unfold size at h
  obtain ⟨plane, h1, h2⟩ := Outcome.bind_eq_ok.mp h
  rw [Word.mul64_eq_ok] at h1 h2
  rw [h2, h1]
  simp [volume]

theorem size_ok {d : Dim3} (h : d.volume < UInt64.size) : ∃ v, d.size = .ok v := by
  have hx := d.x.toNat_lt_size
  have hy := d.y.toNat_lt_size
  have hplane : d.x.toNat * d.y.toNat < UInt64.size :=
    (Nat.mul_le_mul (Nat.le_of_lt_succ hx) (Nat.le_of_lt_succ hy)).trans_lt (by decide)
  obtain ⟨plane, h1⟩ := Word.mul64_ok (a := d.x.toUInt64) (b := d.y.toUInt64) (by simpa using hplane)
  have e1 := Word.mul64_eq_ok.mp h1
  obtain ⟨v, h2⟩ := Word.mul64_ok (a := plane) (b := d.z.toUInt64)
    (by rw [e1]; simpa [volume] using h)
  exact ⟨v, by rw [size, h1, Outcome.ok_bind, h2]⟩

end Simt.Dim3
