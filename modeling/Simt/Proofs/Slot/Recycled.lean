-- A slot that was cleared, next to a new one. The one trace of its past is that its lanes are
-- there, with nothing on them, where a new slot has none yet. The lanes of the new slot are made
-- by the first change to one of them, and made as they are after a clear, so from then on the two
-- slots are one and the same.
import Simt.Proofs.Slot.Reuse

namespace Simt

variable {ι α : Type}

namespace Slot

variable {s t : Slot α} {touched : Bool} {op : Operation α}

/-! ## What can be seen of a slot -/

/-- Everything that a slot tells but the addresses of its lanes. -/
structure LooksLike (s t : Slot α) : Prop where
  inst : s.inst = t.inst
  width : s.width = t.width
  empty : s.empty = t.empty
  atomic : s.atomic = t.atomic
  active : s.active = t.active
  warpId : s.warpId = t.warpId
  issuedAt : s.issuedAt = t.issuedAt
  cacheMiss : ∀ lane, s.cacheMiss lane = t.cacheMiss lane
  hasParked : ∀ lane, s.hasParked lane = t.hasParked lane
  text : s.text = t.text

/-- No lane has an address, and asking for one faults. -/
def NoAddress (s : Slot α) : Prop :=
  ∀ lane, s.addr? lane = none ∧ s.addr lane = .error (.addressUnset lane)

/-- Every lane of the width has the address zero, and the slot has no other lanes. -/
def ZeroAddress (s : Slot α) : Prop :=
  ∀ lane, (lane < s.width → s.addr? lane = some 0 ∧ s.addr lane = .ok 0) ∧
    (s.width ≤ lane → s.addr? lane = none ∧ s.addr lane = .error (.outOfBounds s.width lane))

/-- The operation changes the state of a lane. -/
def Operation.touches : Operation α → Bool
  | .edit (.setAddr _ _) | .edit (.setCacheMiss _ _) | .edit (.park _ _) => true
  | .edit (.setInst _) | .issue _ _ _ | .clear | .deliver => false

/-! ## A slot with a past next to one without -/

/-- The slot as it is when its lanes have been made, with nothing on them. -/
def withLanes (s : Slot α) : Slot α :=
  { s with lanes := some (List.replicate s.width .fresh) }

/-- A slot with a past, next to a slot without one. They are the same once a lane was touched. -/
inductive Recycled : (touched : Bool) → Slot α → Slot α → Prop
  | touched (s : Slot α) : Recycled true s s
  | neverMade {s : Slot α} (hnone : s.lanes = none) : Recycled false s s
  | madeBefore {t : Slot α} (hnone : t.lanes = none) : Recycled false t.withLanes t

theorem withLanes_lane? (s : Slot α) (lane : Nat) :
    s.withLanes.lane? lane = if lane < s.width then some .fresh else none := by
  rw [lane?, withLanes, Option.bind_some, List.getElem?_replicate]

theorem LooksLike.refl (s : Slot α) : s.LooksLike s :=
  ⟨rfl, rfl, rfl, rfl, rfl, rfl, rfl, fun _ => rfl, fun _ => rfl, rfl⟩

theorem withLanes_looksLike (hnone : t.lanes = none) : t.withLanes.LooksLike t := by
  have hlane : ∀ lane, t.lane? lane = none := fun lane => by rw [lane?, hnone]; rfl
  refine ⟨rfl, rfl, rfl, rfl, rfl, rfl, rfl, fun lane => ?_, fun lane => ?_, rfl⟩
  · rw [cacheMiss, cacheMiss, withLanes_lane?, hlane]
    split <;> rfl
  · rw [hasParked, hasParked, withLanes_lane?, hlane]
    change (t.active.test lane && _) = _
    split <;> rfl

theorem noAddress_of_lanes (hnone : s.lanes = none) : s.NoAddress := by
  intro lane
  rw [addr?, addr, lane?, hnone]
  exact ⟨rfl, rfl⟩

theorem withLanes_zeroAddress (s : Slot α) : s.withLanes.ZeroAddress := by
  intro lane
  rw [addr?, withLanes_lane?, addr]
  simp only [withLanes, List.getElem?_replicate, List.length_replicate]
  refine ⟨fun hlt => ?_, fun hle => ?_⟩
  · rw [if_pos hlt]
    exact ⟨rfl, rfl⟩
  · rw [if_neg (Nat.not_lt.mpr hle)]
    exact ⟨rfl, rfl⟩

theorem Recycled.looksLike (h : Recycled touched s t) : s.LooksLike t := by
  cases h with
  | touched => exact .refl s
  | neverMade => exact .refl s
  | madeBefore hnone => exact withLanes_looksLike hnone

/-! ## One operation -/

theorem withLanes_updateLane (hnone : t.lanes = none) (lane : Nat) (change : Lane α → Lane α) :
    t.withLanes.updateLane lane change = t.updateLane lane change := by
  have hmade : t.withLanes.madeLanes = t.madeLanes := by
    rw [madeLanes, madeLanes, hnone]
    rfl
  rw [updateLane, updateLane, hmade]
  rfl

/-- The first change to a lane makes the lanes as a clear leaves them. -/
theorem withLanes_edit (hnone : t.lanes = none) {change : SlotEdit α}
    (htouches : (Operation.edit change).touches = true) :
    change.apply t.withLanes = change.apply t := by
  cases change with
  | setInst value => cases htouches
  | setAddr lane addr => exact withLanes_updateLane hnone lane _
  | setCacheMiss lane cacheMiss => exact withLanes_updateLane hnone lane _
  | park lane work => exact withLanes_updateLane (t := { t with atomic := true }) hnone lane _

/-- Only a change to a lane makes lanes. -/
theorem step_lanes {u : Slot α} {line : List (α × Instruction)} (hnone : t.lanes = none)
    (htouches : op.touches = false) (h : t.step op = .ok (u, line)) : u.lanes = none := by
  rcases step_cases h with ⟨mask, warp, cycle, _, hissue, _⟩ | ⟨_, rfl, _⟩ | ⟨change, rfl, hedit, _⟩ |
    ⟨work, _, htake, _⟩
  · obtain ⟨_, _, _, _, _, hlanes⟩ := issue_cases hissue
    rw [hlanes, hnone]
  · rw [clear, hnone]
    rfl
  · cases change with
    | setInst value =>
      cases hedit
      exact hnone
    | setAddr lane addr => cases htouches
    | setCacheMiss lane cacheMiss => cases htouches
    | park lane work => cases htouches
  · unfold takeParked at htake
    split at htake
    · cases htake
      rw [hnone]
      rfl
    · cases htake

/-- Lanes with nothing on them are in the way of no other operation. -/
theorem withLanes_step (hnone : t.lanes = none) (htouches : op.touches = false) :
    t.withLanes.step op = (t.step op).map fun r => (r.1.withLanes, r.2) := by
  cases op with
  | issue mask warp cycle =>
    cases he : t.empty <;> simp [step, issue, withLanes, he, Except.map]
  | clear => simp [step, clear, withLanes, Except.map]
  | edit change =>
    cases change with
    | setInst value => rfl
    | setAddr lane addr => cases htouches
    | setCacheMiss lane cacheMiss => cases htouches
    | park lane work => cases htouches
  | deliver =>
    cases ha : t.atomic && !t.empty
    · simp [step, takeParked, withLanes, ha, Except.map]
    · simp [step, takeParked, withLanes, ha, hnone, Lane.fresh, Except.map]

/-- What a step keeps of two slots: how they are related, and the same deliveries. -/
def Steps (touched : Bool) (r r' : Slot α × List (α × Instruction)) : Prop :=
  Recycled touched r.1 r'.1 ∧ r.2 = r'.2

theorem step_recycled (h : Recycled touched s t) (op : Operation α) :
    Outcome.Alike (Steps (touched || op.touches)) (s.step op) (t.step op) := by
  have hsame : ∀ u : Slot α, Outcome.Alike (Steps true) (u.step op) (u.step op) := fun u =>
    Outcome.alike_refl (fun r => ⟨.touched r.1, rfl⟩) _
  cases h with
  | touched => exact hsame s
  | neverMade hnone =>
    cases htouches : op.touches with
    | true => exact hsame s
    | false =>
      cases hstep : s.step op with
      | error e => exact .fault e
      | ok r => exact .ok ⟨.neverMade (step_lanes hnone htouches hstep), rfl⟩
  | madeBefore hnone =>
    cases htouches : op.touches with
    | true =>
      have heq : t.withLanes.step op = t.step op := by
        cases op with
        | edit change => rw [step, step, withLanes_edit hnone htouches]
        | issue mask warp cycle => cases htouches
        | clear => cases htouches
        | deliver => cases htouches
      rw [heq]
      exact hsame t
    | false =>
      rw [withLanes_step hnone htouches]
      cases hstep : t.step op with
      | error e => exact .fault e
      | ok r => exact .ok ⟨.madeBefore (step_lanes hnone htouches hstep), rfl⟩

/-! ## A whole use -/

/-- Operations one after the other, with a line for what each of them delivers. -/
def run (s : Slot α) : List (Operation α) → Outcome (Slot α × List (List (α × Instruction)))
  | [] => .ok (s, [])
  | op :: ops => do
    let (next, line) ← s.step op
    let (last, lines) ← next.run ops
    return (last, line :: lines)

/-- Some operation changes the state of a lane. -/
def touchedBy (ops : List (Operation α)) : Bool := ops.any (·.touches)

theorem run_recycled (h : Recycled touched s t) (ops : List (Operation α)) :
    Outcome.Alike (fun r r' => Recycled (touched || touchedBy ops) r.1 r'.1 ∧ r.2 = r'.2)
      (s.run ops) (t.run ops) := by
  induction ops generalizing touched s t with
  | nil =>
    rw [touchedBy, List.any_nil, Bool.or_false]
    exact .ok ⟨h, rfl⟩
  | cons op ops ih =>
    refine (step_recycled h op).bind fun ⟨s', line⟩ ⟨t', line'⟩ ⟨hnext, hline⟩ => ?_
    refine (ih hnext).bind fun ⟨last, lines⟩ ⟨last', lines'⟩ ⟨hlast, hlines⟩ => .ok ⟨?_, ?_⟩
    · rw [touchedBy, List.any_cons, ← Bool.or_assoc]
      exact hlast
    · cases hline
      cases hlines
      rfl

/-- A slot that was cleared, next to a new one with the instruction that the clear left. -/
theorem clear_recycled {fresh : Slot α} (hs : s.Sound) (hnew : new s.width = .ok fresh) :
    Recycled false s.clear { fresh with inst := s.inst } := by
  have hfresh : { fresh with inst := s.inst } = { s.clear with lanes := none } := by
    rw [new, if_pos hs.width] at hnew
    cases hnew
    rfl
  have hidle := clear_idle hs.fits
  cases hlanes : s.clear.lanes with
  | none =>
    have heq : s.clear = { s.clear with lanes := none } := by rw [← hlanes]
    rw [hfresh, ← heq]
    exact .neverMade hlanes
  | some lanes =>
    have heq : s.clear = withLanes { s.clear with lanes := none } := by
      change { s.clear with lanes := s.clear.lanes } =
        { s.clear with lanes := some (List.replicate s.width .fresh) }
      rw [hlanes, hidle.lanes lanes hlanes]
    rw [hfresh, heq]
    exact .madeBefore rfl

end Slot

/-! ## A slot of a pool -/

namespace Pool

variable [DecidableEq ι] {pool last : Pool ι α} {past : List (Operation ι α)}
  {log : List (List (α × Instruction))}

/-- Whatever was done with a slot, once it is cleared, a caller cannot tell it from a new slot of
its width with its instruction. The same operations fault in the same way on both, or they deliver
the same work and leave slots that look alike. The addresses are the same too once an operation
changed a lane. Before that, the new slot has none, and the other may have zeros on its lanes. -/
theorem a_cleared_slot_is_like_a_new_one {width : ι → Nat}
    (hnew : ∀ p, Slot.new (width p) = .ok (pool p) ∨ Slot.ofWidth (width p) = .ok (pool p))
    (h : pool.run past = .ok (last, log)) (p : ι) :
    ∃ fresh, Slot.new (last p).width = .ok fresh ∧ ∀ ops : List (Slot.Operation α),
      Outcome.Alike
        (fun r r' => r.2 = r'.2 ∧ r.1.LooksLike r'.1 ∧
          if Slot.touchedBy ops then
            ∀ lane, r.1.addr? lane = r'.1.addr? lane ∧ r.1.addr lane = r'.1.addr lane
          else r'.1.NoAddress ∧ (r.1.NoAddress ∨ r.1.ZeroAddress))
        ((last p).clear.run ops) (Slot.run { fresh with inst := (last p).inst } ops) := by
  have hfirst : ∀ q, (pool q).Sound := fun q =>
    Slot.sound_of_new ((hnew q).elim id Slot.new_of_ofWidth)
  have hlast : (last p).Sound := run_keeps (fun _ _ _ _ => Slot.step_sound) hfirst h p
  obtain ⟨fresh, hfresh, -⟩ := Slot.new_ok (α := α) hlast.width
  refine ⟨fresh, hfresh, fun ops => ?_⟩
  refine (Slot.run_recycled (Slot.clear_recycled hlast hfresh) ops).mono ?_
  rintro r r' ⟨hslots, hlog⟩
  refine ⟨hlog, hslots.looksLike, ?_⟩
  rw [Bool.false_or] at hslots
  generalize Slot.touchedBy ops = touched at hslots ⊢
  generalize r.1 = s, r'.1 = t at hslots ⊢
  cases hslots with
  | touched => exact fun lane => ⟨rfl, rfl⟩
  | neverMade hnone => exact ⟨Slot.noAddress_of_lanes hnone, .inl (Slot.noAddress_of_lanes hnone)⟩
  | madeBefore hnone =>
    exact ⟨Slot.noAddress_of_lanes hnone, .inr (Slot.withLanes_zeroAddress t)⟩

/-- The wide slot had an address, a miss and parked work. -/
def workedOn : List (Operation Bool Nat) :=
  [.on true (.issue 15 7 5), .on true (.edit (.setAddr 1 64)),
    .on true (.edit (.setCacheMiss 2 true)), .on true (.edit (.park 3 30))]

/-- The address that was recorded is gone, and the next work is delivered as on a new slot. -/
theorem the_wide_slot_is_used_like_a_new_one :
    ∃ last log fresh, pair.run workedOn = .ok (last, log) ∧ (last true).addr? 1 = some 64 ∧
      Slot.new (last true).width = .ok fresh ∧
      Outcome.Alike
        (fun r r' => r.2 = r'.2 ∧ r.1.LooksLike r'.1 ∧
          r'.1.NoAddress ∧ (r.1.NoAddress ∨ r.1.ZeroAddress))
        ((last true).clear.run [.issue 5 2 9])
        (Slot.run { fresh with inst := (last true).inst } [.issue 5 2 9]) ∧
      ((last true).clear.run [.issue 5 2 9]).map (·.1.addr? 1) = .ok (some 0) := by
  have hrun : (pair.run workedOn).map
      (fun r => ((r.1 true).addr? 1, ((r.1 true).clear.run [.issue 5 2 9]).map (·.1.addr? 1))) =
      .ok (some 64, .ok (some 0)) := by cbv
  obtain ⟨⟨last, log⟩, h, hlast⟩ := Outcome.map_eq_ok.mp hrun
  obtain ⟨haddr, hzero⟩ : (last true).addr? 1 = some 64 ∧
      ((last true).clear.run [.issue 5 2 9]).map (·.1.addr? 1) = .ok (some 0) := by
    simpa using hlast
  have hnew : ∀ p, Slot.new (if p then 4 else 2) = .ok (pair p) ∨
      Slot.ofWidth (if p then 4 else 2) = .ok (pair p) := by
    intro p
    cases p with
    | true => exact .inl rfl
    | false => exact .inr rfl
  obtain ⟨fresh, hfresh, halike⟩ := a_cleared_slot_is_like_a_new_one hnew h true
  exact ⟨last, log, fresh, h, haddr, hfresh, halike [.issue 5 2 9], hzero⟩

end Pool

end Simt
