-- Who holds parked work. What an operation of a run has parked is in one slot at a time, and stays
-- on its lane until it is delivered, replaced or dropped. So every piece of work is delivered at
-- most once, by the slot that holds it, and a delivery delivers what its slot holds.
import Simt.Proofs.Slot.Pool

namespace Simt.Pool

variable {ι α : Type} [DecidableEq ι] {pool last : Pool ι α} {op : Operation ι α}
  {ops : List (Operation ι α)} {log : List (List (α × Instruction))} {p p' q : ι} {work work' : α}
  {i j k k' lane lane' : Nat}

/-! ## Custody -/

/-- The work that operation `k` of a run has parked on a lane is in a slot before operation `j`. -/
inductive Holds (ops : List (Operation ι α)) (k lane : Nat) (work : α) : Nat → ι → Prop where
  | parked {p : ι} (parks : ops[k]? = some (.on p (.edit (.park lane work)))) :
      Holds ops k lane work (k + 1) p
  | carried {j : Nat} {p q : ι} {op : Operation ι α} (held : Holds ops k lane work j p)
      (next : ops[j]? = some op) (stays : op.fate p lane = some q) : Holds ops k lane work (j + 1) q

/-- Operation `j` of a run delivers what operation `k` has parked. -/
def Delivers (ops : List (Operation ι α)) (k j : Nat) : Prop :=
  ∃ p lane work, ops[j]? = some (.on p .deliver) ∧ Holds ops k lane work j p

theorem fate_inj (h : op.fate p lane = some q) (h' : op.fate p' lane = some q) : p = p' := by
  cases op with
  | on slot op =>
    rw [fate_on] at h h'
    rw [h.1, h'.1]
  | move target source distinct =>
    rw [fate_move] at h h'
    rcases h with ⟨rfl, rfl⟩ | ⟨_, htarget, rfl⟩
    · rcases h' with ⟨rfl, _⟩ | ⟨_, htarget, rfl⟩
      · rfl
      · exact absurd rfl htarget
    · rcases h' with ⟨_, rfl⟩ | ⟨_, _, rfl⟩
      · exact absurd rfl htarget
      · rfl

/-- Work that is parked replaces what was on the lane of the slot. -/
theorem fate_park : (Operation.on q (.edit (.park lane work))).fate p lane ≠ some q := by
  rw [ne_eq, fate_on]
  rintro ⟨_, hkept⟩
  simpa [Slot.Operation.takesOff] using hkept rfl

theorem fate_deliver : (Operation.on p .deliver : Operation ι α).fate p lane = none := by
  simp [Operation.fate, Slot.Operation.takesOff]

theorem Holds.after (h : Holds ops k lane work j p) : k < j := by
  induction h with
  | parked _ => exact Nat.lt_succ_self k
  | carried _ _ _ ih => exact Nat.lt_succ_of_lt ih

/-- One work at a time is on a lane of a slot. -/
theorem Holds.unique (h : Holds ops k lane work j p) (h' : Holds ops k' lane work' j p) :
    k = k' ∧ work = work' := by
  induction h with
  | parked hparks =>
    cases h' with
    | parked hparks' =>
      rw [hparks] at hparks'
      cases hparks'
      exact ⟨rfl, rfl⟩
    | carried _ hnext hstays =>
      rw [hparks, Option.some.injEq] at hnext
      rw [← hnext] at hstays
      exact absurd hstays fate_park
  | carried _ hnext hstays ih =>
    cases h' with
    | parked hparks' =>
      rw [hparks', Option.some.injEq] at hnext
      rw [← hnext] at hstays
      exact absurd hstays fate_park
    | carried hheld' hnext' hstays' =>
      rw [hnext, Option.some.injEq] at hnext'
      subst hnext'
      obtain rfl := fate_inj hstays hstays'
      exact ih hheld'

/-- Work is in one place at a time. -/
theorem Holds.place (h : Holds ops k lane work j p) (h' : Holds ops k lane' work' j p') :
    p = p' ∧ lane = lane' ∧ work = work' := by
  induction h generalizing p' with
  | parked hparks =>
    cases h' with
    | parked hparks' =>
      rw [hparks] at hparks'
      cases hparks'
      exact ⟨rfl, rfl, rfl⟩
    | carried hheld' _ _ => exact absurd hheld'.after (Nat.lt_irrefl k)
  | carried hheld hnext hstays ih =>
    cases h' with
    | parked _ => exact absurd hheld.after (Nat.lt_irrefl k)
    | carried hheld' hnext' hstays' =>
      obtain ⟨rfl, rfl, rfl⟩ := ih hheld'
      rw [hnext, Option.some.injEq] at hnext'
      subst hnext'
      rw [hstays, Option.some.injEq] at hstays'
      exact ⟨hstays', rfl, rfl⟩

/-- Work that is held has been held before, and no operation in between has taken it. -/
theorem Holds.through (h : Holds ops k lane work j q) (hk : k < i) (hi : i < j) :
    ∃ p op q, Holds ops k lane work i p ∧ ops[i]? = some op ∧ op.fate p lane = some q := by
  induction h with
  | parked _ => omega
  | @carried j p q op hheld hnext hstays ih =>
    by_cases he : i = j
    · subst he
      exact ⟨p, op, q, hheld, hnext, hstays⟩
    · exact ih (by omega)

theorem Delivers.not_later (h : Delivers ops k i) (h' : Delivers ops k j) : ¬ i < j := by
  intro hlt
  obtain ⟨p, lane, work, hop, hheld⟩ := h
  obtain ⟨_, lane', work', _, hheld'⟩ := h'
  obtain ⟨q, op, r, hmid, hnext, hstays⟩ := hheld'.through hheld.after hlt
  obtain ⟨rfl, rfl, rfl⟩ := hheld.place hmid
  rw [hop, Option.some.injEq] at hnext
  rw [← hnext, fate_deliver] at hstays
  cases hstays

theorem Delivers.unique (h : Delivers ops k i) (h' : Delivers ops k j) : i = j := by
  have hle := h.not_later h'
  have hge := h'.not_later h
  omega

/-! ## Slots that hold nothing -/

/-- The operation may put work into a slot. -/
def Operation.fills (p : ι) : Operation ι α → Bool
  | .on slot (.edit (.park _ _)) => slot = p
  | .on _ _ => false
  | .move target _ _ => target = p

theorem not_holds_after_delivery (h : ops[i]? = some (.on p .deliver)) :
    ¬ Holds ops k lane work (i + 1) p := by
  intro hheld
  cases hheld with
  | parked hparks =>
    rw [h] at hparks
    cases hparks
  | carried _ hnext hstays =>
    rw [h, Option.some.injEq] at hnext
    rw [← hnext] at hstays
    have hsame := (fate_on.mp hstays).1
    rw [hsame, fate_deliver] at hstays
    cases hstays

/-- A slot holds nothing as long as nothing is put into it. -/
theorem not_holds_of_unfilled (hij : i ≤ j)
    (hempty : ∀ k lane work, ¬ Holds ops k lane work i p)
    (hno : ∀ n op, i ≤ n → n < j → ops[n]? = some op → op.fills p = false) :
    ∀ k lane work, ¬ Holds ops k lane work j p := by
  induction j, hij using Nat.le_induction with
  | base => exact hempty
  | succ j hij ih =>
    have hbefore := ih fun n op hn hlt => hno n op hn (Nat.lt_succ_of_lt hlt)
    intro k lane work hheld
    cases hheld with
    | parked hparks =>
      have hfill := hno j _ hij (Nat.lt_succ_self j) hparks
      simp [Operation.fills] at hfill
    | @carried _ r _ op hheld hnext hstays =>
      have hfill := hno j op hij (Nat.lt_succ_self j) hnext
      cases op with
      | on slot op =>
        rw [(fate_on.mp hstays).1] at hheld
        exact hbefore k lane work hheld
      | move target source distinct =>
        rcases fate_move.mp hstays with ⟨_, rfl⟩ | ⟨_, _, rfl⟩
        · simp [Operation.fills] at hfill
        · exact hbefore k lane work hheld

/-! ## What a slot holds -/

/-- Work on a lane, with the number of the operation that parked it. -/
structure Held (α : Type) where
  lane : Nat
  number : Nat
  work : α

/-- Before each operation of a run, what is parked on a slot is what the slot holds. -/
theorem run_holds {width : ι → Nat} (hnew : ∀ p, Slot.new (width p) = .ok (pool p))
    (h : pool.run ops = .ok (last, log)) (hop : ops[j]? = some op) :
    ∃ before lines next line, pool.run (ops.take j) = .ok (before, lines) ∧
      (before.Fits ∧ ∀ p lane work, (before p).parkedAt lane = some work ↔
        ∃ k, Holds ops k lane work j p) ∧
      before.step op = .ok (next, line) ∧ log[j]? = some line := by
  refine run_at (P := fun j (before : Pool ι α) => before.Fits ∧
    ∀ p lane work, (before p).parkedAt lane = some work ↔ ∃ k, Holds ops k lane work j p)
    ?_ ?_ h hop
  · refine ⟨fun p => (Slot.idle_of_new (hnew p)).fits, ?_⟩
    intro p lane work
    rw [(Slot.idle_of_new (hnew p)).parkedAt]
    constructor
    · intro h
      cases h
    · rintro ⟨k, hheld⟩
      exact absurd hheld.after (Nat.not_lt_zero k)
  · rintro j op before next line hop ⟨hfit, hiff⟩ hstep
    refine ⟨step_fits hfit hstep, ?_⟩
    intro q lane work
    rw [step_parkedAt hfit hstep]
    constructor
    · rintro (rfl | ⟨p, hp, hfate⟩)
      · exact ⟨j, .parked hop⟩
      · obtain ⟨k, hheld⟩ := (hiff p lane work).mp hp
        exact ⟨k, .carried hheld hop hfate⟩
    · rintro ⟨k, hheld⟩
      cases hheld with
      | parked hparks =>
        rw [hop, Option.some.injEq] at hparks
        exact Or.inl hparks
      | @carried _ p _ op' hheld hnext hstays =>
        rw [hop, Option.some.injEq] at hnext
        subst hnext
        exact Or.inr ⟨p, (hiff p lane work).mpr ⟨k, hheld⟩, hstays⟩

/-- What is parked on some lanes of a slot, in their order, is what the slot holds on them. -/
theorem held_of_lanes {s : Slot α} (hiff : ∀ lane work, s.parkedAt lane = some work ↔
      ∃ k, Holds ops k lane work j p) (lanes : List Nat) :
    ∃ held : List (Held α), held.map Held.work = lanes.filterMap s.parkedAt ∧
      (held.map Held.lane).Sublist lanes ∧
      ∀ h, h ∈ held ↔ h.lane ∈ lanes ∧ Holds ops h.number h.lane h.work j p := by
  induction lanes with
  | nil => exact ⟨[], rfl, .slnil, by simp⟩
  | cons lane rest ih =>
    obtain ⟨held, hwork, hlanes, hmem⟩ := ih
    cases hp : s.parkedAt lane with
    | none =>
      refine ⟨held, by rw [hwork, List.filterMap_cons_none hp], hlanes.cons lane, ?_⟩
      intro h
      rw [hmem, List.mem_cons]
      constructor
      · rintro ⟨hl, hheld⟩
        exact ⟨Or.inr hl, hheld⟩
      · rintro ⟨rfl | hl, hheld⟩
        · rw [(hiff h.lane h.work).mpr ⟨h.number, hheld⟩] at hp
          cases hp
        · exact ⟨hl, hheld⟩
    | some work =>
      obtain ⟨k, hk⟩ := (hiff lane work).mp hp
      refine ⟨⟨lane, k, work⟩ :: held, ?_, hlanes.cons_cons lane, ?_⟩
      · rw [List.map_cons, hwork, List.filterMap_cons_some hp]
      · intro h
        rw [List.mem_cons, hmem, List.mem_cons]
        constructor
        · rintro (rfl | ⟨hl, hheld⟩)
          · exact ⟨Or.inl rfl, hk⟩
          · exact ⟨Or.inr hl, hheld⟩
        · rintro ⟨hl | hl, hheld⟩
          · left
            obtain ⟨lane', k', work'⟩ := h
            cases hl
            obtain ⟨rfl, rfl⟩ := hheld.unique hk
            rfl
          · exact Or.inr ⟨hl, hheld⟩

/-- A line with all that a slot holds before operation `j`, once each, in ascending order of the
lanes, and every work with the instruction. -/
def Lists (ops : List (Operation ι α)) (j : Nat) (p : ι) (inst : Instruction)
    (line : List (α × Instruction)) : Prop :=
  ∃ held : List (Held α), line = held.map (fun h => (h.work, inst)) ∧
    (held.map Held.lane).Pairwise (· < ·) ∧ (held.map Held.number).Nodup ∧
    ∀ h, h ∈ held ↔ Holds ops h.number h.lane h.work j p

/-- What is parked on a slot is what the slot holds. -/
theorem lists_pending {s : Slot α} (hs : s.Fits)
    (hiff : ∀ lane work, s.parkedAt lane = some work ↔ ∃ k, Holds ops k lane work j p)
    (inst : Instruction) : Lists ops j p inst (s.pending.map (·, inst)) := by
  obtain ⟨held, hwork, hlanes, hmem⟩ := held_of_lanes hiff (List.range s.width)
  have hsorted : (held.map Held.lane).Pairwise (· < ·) :=
    List.Pairwise.sublist hlanes List.pairwise_lt_range
  refine ⟨held, ?_, hsorted, ?_, ?_⟩
  · rw [Slot.pending, ← hwork, List.map_map]
    rfl
  · have hnodup : held.Nodup := List.Nodup.of_map Held.lane (hsorted.imp fun h => h.ne)
    refine hnodup.map_on ?_
    rintro ⟨lane, k, work⟩ h ⟨lane', k', work'⟩ h' rfl
    obtain ⟨_, rfl, rfl⟩ := ((hmem _).mp h).2.place ((hmem _).mp h').2
    rfl
  · intro h
    rw [hmem, and_iff_right_iff_imp]
    intro hheld
    exact List.mem_range.mpr (hs.lt_of_parkedAt ((hiff h.lane h.work).mpr ⟨h.number, hheld⟩))

/-- What a run on new slots delivers. A delivery writes a line with the work that its slot holds at
that time, in ascending order of the lanes, each with the instruction of the slot. Nothing else
delivers. What an operation has parked is delivered at most once, and a delivery after another one
delivers nothing when nothing was put into the slot in between. -/
theorem parked_work_is_delivered_once_by_the_slot_that_holds_it {width : ι → Nat}
    (hnew : ∀ p, Slot.new (width p) = .ok (pool p)) (h : pool.run ops = .ok (last, log)) :
    log.length = ops.length ∧
    (∀ (j : Nat) (p : ι), ops[j]? = some (.on p .deliver) → ∃ before lines line,
      pool.run (ops.take j) = .ok (before, lines) ∧ log[j]? = some line ∧
        Lists ops j p (before p).inst line) ∧
    (∀ (j : Nat) (op : Operation ι α), ops[j]? = some op → (∀ p, op ≠ .on p .deliver) →
      log[j]? = some []) ∧
    (∀ k i j, Delivers ops k i → Delivers ops k j → i = j) ∧
    (∀ (i j : Nat) (p : ι), i < j → ops[i]? = some (.on p .deliver) →
      ops[j]? = some (.on p .deliver) →
      (∀ (n : Nat) (op : Operation ι α), i < n → n < j → ops[n]? = some op → op.fills p = false) →
      log[j]? = some []) := by
  have hdelivery : ∀ (j : Nat) (p : ι), ops[j]? = some (.on p .deliver) → ∃ before lines line,
      pool.run (ops.take j) = .ok (before, lines) ∧ log[j]? = some line ∧
        Lists ops j p (before p).inst line := by
    intro j p hop
    obtain ⟨before, lines, next, line, hbefore, ⟨hfit, hiff⟩, hstep, hlog⟩ := run_holds hnew h hop
    refine ⟨before, lines, line, hbefore, hlog, ?_⟩
    rcases step_line hfit hstep with ⟨q, he, rfl⟩ | ⟨hne, _⟩
    · cases he
      exact lists_pending (hfit p) (hiff p) _
    · exact absurd rfl (hne p)
  refine ⟨length_log h, hdelivery, ?_, fun k i j => Delivers.unique, ?_⟩
  · intro j op hop hne
    obtain ⟨before, _, _, line, _, ⟨hfit, _⟩, hstep, hlog⟩ := run_holds hnew h hop
    rcases step_line hfit hstep with ⟨q, he, _⟩ | ⟨_, rfl⟩
    · exact absurd he (hne q)
    · exact hlog
  · intro i j p hij hi hj hno
    obtain ⟨before, _, line, _, hlog, held, rfl, _, _, hmem⟩ := hdelivery j p hj
    have hnone := not_holds_of_unfilled (show i + 1 ≤ j from hij)
      (fun _ _ _ => not_holds_after_delivery hi) hno
    have hnil : held = [] := List.eq_nil_iff_forall_not_mem.mpr fun h hheld =>
      hnone _ _ _ ((hmem h).mp hheld)
    rw [hlog, hnil]
    rfl

/-- Work is parked on the wide slot, and some of it is replaced. The narrow slot has work too, and
loses it when the wide slot is moved to it. It gets a new instruction, and delivers twice. -/
def handedOver : List (Operation Bool Nat) :=
  [.on true (.edit (.park 3 30)), .on true (.edit (.park 1 10)), .on true (.edit (.park 3 31)),
    .on false (.edit (.park 0 99)), .on true (.issue 15 7 5), .move false true (by decide),
    .on false (.edit (.setInst { Instruction.placeholder with cycles := 9 })), .on false .deliver,
    .on false (.edit (.setAddr 0 64)), .on false .deliver]

/-- What replaced other work on the wide slot is delivered by the narrow slot, and only once. -/
theorem replaced_and_dropped_work_is_not_delivered :
    ∃ last log, pair.run handedOver = .ok (last, log) ∧
      log[7]? = some [(10, { Instruction.placeholder with cycles := 9 }),
        (31, { Instruction.placeholder with cycles := 9 })] ∧
      log[9]? = some [] ∧ ∀ j, Delivers handedOver 2 j → j = 7 := by
  have hrun : (pair.run handedOver).map (fun r => r.2[7]?) =
      .ok (some [(10, { Instruction.placeholder with cycles := 9 }),
        (31, { Instruction.placeholder with cycles := 9 })]) := by cbv
  obtain ⟨⟨last, log⟩, h, hlog⟩ := Outcome.map_eq_ok.mp hrun
  have hnew : ∀ p, Slot.new (if p then 4 else 2) = .ok (pair p) := by
    intro p
    cases p <;> rfl
  obtain ⟨_, _, _, honce, hagain⟩ :=
    @parked_work_is_delivered_once_by_the_slot_that_holds_it Bool Nat _ pair last handedOver log
      (fun p => if p then 4 else 2) hnew h
  refine ⟨last, log, h, hlog, hagain 7 9 false (by decide) rfl rfl ?_, ?_⟩
  · intro n op hn hlt hop
    obtain rfl : n = 8 := by omega
    cases hop
    rfl
  · intro j hj
    have hparked : Holds handedOver 2 3 31 3 true := .parked rfl
    have hmoved : Holds handedOver 2 3 31 6 false :=
      .carried (.carried (.carried hparked rfl rfl) rfl rfl) rfl rfl
    exact honce 2 j 7 hj ⟨false, 3, 31, rfl, .carried hmoved rfl rfl⟩

end Simt.Pool
