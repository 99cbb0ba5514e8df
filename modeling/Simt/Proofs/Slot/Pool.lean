-- Pools of slots. A caller works on several slots, and moves what one slot holds to another. A run
-- writes down what each of its operations delivers.
import Simt.Proofs.Slot.Parked

namespace Simt

variable {ι α : Type}

/-! ## One slot -/

namespace Slot

/-- What a caller does with one slot. -/
inductive Operation (α : Type) where
  | issue (mask warp : UInt32) (cycle : UInt64)
  | clear
  | edit (change : SlotEdit α)
  | deliver

variable {s t : Slot α} {op : Operation α} {line : List (α × Instruction)} {lane : Nat} {work : α}

/-- One operation, with the work that it delivers and the instruction that the work is given. -/
def step (s : Slot α) : Operation α → Outcome (Slot α × List (α × Instruction))
  | .issue mask warp cycle => do return (← s.issue mask warp cycle, [])
  | .clear => .ok (s.clear, [])
  | .edit change => do return (← change.apply s, [])
  | .deliver => do
    let (work, taken) ← s.takeParked
    return (taken, work.map (·, s.inst))

/-- The operation takes off what is parked on a lane: it delivers it, drops it, or replaces it. -/
def Operation.takesOff (lane : Nat) : Operation α → Bool
  | .clear | .deliver => true
  | .edit (.park l _) => l = lane
  | .issue _ _ _ | .edit _ => false

/-- Each operation is a step of the slot, and a delivery alone delivers. -/
theorem step_cases (h : s.step op = .ok (t, line)) :
    (∃ mask warp cycle, op = .issue mask warp cycle ∧ s.issue mask warp cycle = .ok t ∧ line = []) ∨
    (op = .clear ∧ t = s.clear ∧ line = []) ∨
    (∃ change, op = .edit change ∧ change.apply s = .ok t ∧ line = []) ∨
    (∃ work, op = .deliver ∧ s.takeParked = .ok (work, t) ∧ line = work.map (·, s.inst)) := by
  cases op with
  | issue mask warp cycle =>
    obtain ⟨u, hu, h⟩ := Outcome.bind_eq_ok.mp h
    cases h
    exact Or.inl ⟨mask, warp, cycle, rfl, hu, rfl⟩
  | clear =>
    cases h
    exact Or.inr (Or.inl ⟨rfl, rfl, rfl⟩)
  | edit change =>
    obtain ⟨u, hu, h⟩ := Outcome.bind_eq_ok.mp h
    cases h
    exact Or.inr (Or.inr (Or.inl ⟨change, rfl, hu, rfl⟩))
  | deliver =>
    obtain ⟨⟨work, u⟩, hu, h⟩ := Outcome.bind_eq_ok.mp h
    cases h
    exact Or.inr (Or.inr (Or.inr ⟨work, rfl, hu, rfl⟩))

theorem step_fits (hs : s.Fits) (h : s.step op = .ok (t, line)) : t.Fits := by
  rcases step_cases h with ⟨mask, warp, cycle, _, hissue, _⟩ | ⟨_, rfl, _⟩ | ⟨change, _, hedit, _⟩ |
    ⟨work, _, htake, _⟩
  · obtain ⟨_, _, _, hwidth, _, hlanes⟩ := issue_cases hissue
    intro lanes hl
    rw [hlanes] at hl
    rw [hs lanes hl, hwidth]
  · exact (clear_idle hs).fits
  · exact (edit_keeps hs hedit).1
  · exact (takeParked_cases hs htake).2.2.1

/-- What is parked on a lane after an operation was parked by it, or was there before and is not
taken off. -/
theorem step_parkedAt (hs : s.Fits) (h : s.step op = .ok (t, line)) :
    t.parkedAt lane = some work ↔ op = .edit (.park lane work) ∨
      s.parkedAt lane = some work ∧ op.takesOff lane = false := by
  rcases step_cases h with ⟨mask, warp, cycle, rfl, hissue, _⟩ | ⟨rfl, rfl, _⟩ |
    ⟨change, rfl, hedit, _⟩ | ⟨taken, rfl, htake, _⟩
  · obtain ⟨_, _, _, _, _, hlanes⟩ := issue_cases hissue
    rw [parkedAt_congr hlanes]
    simp [Operation.takesOff]
  · simp [clear_parkedAt, Operation.takesOff]
  · rw [edit_parkedAt hedit]
    cases change with
    | park l work' =>
      by_cases hl : l = lane
      · simp [SlotEdit.parks, Operation.takesOff, hl]
      · simp [SlotEdit.parks, Operation.takesOff, hl]
    | setInst value => simp [SlotEdit.parks, Operation.takesOff]
    | setAddr l addr => simp [SlotEdit.parks, Operation.takesOff]
    | setCacheMiss l cacheMiss => simp [SlotEdit.parks, Operation.takesOff]
  · simp [(takeParked_cases hs htake).2.1 lane, Operation.takesOff]

/-- Only a delivery delivers, and it delivers all that is parked, in the order of the lanes. -/
theorem step_line (hs : s.Fits) (h : s.step op = .ok (t, line)) :
    (op = .deliver ∧ line = s.pending.map (·, s.inst)) ∨ (op ≠ .deliver ∧ line = []) := by
  rcases step_cases h with ⟨mask, warp, cycle, rfl, _, rfl⟩ | ⟨rfl, _, rfl⟩ | ⟨change, rfl, _, rfl⟩ |
    ⟨taken, rfl, htake, rfl⟩
  · exact Or.inr ⟨nofun, rfl⟩
  · exact Or.inr ⟨nofun, rfl⟩
  · exact Or.inr ⟨nofun, rfl⟩
  · exact Or.inl ⟨rfl, by rw [(takeParked_cases hs htake).1]⟩

/-- A move takes what it moves as it is, and wipes what was in its place. -/
theorem move_cases {target source moved emptied : Slot α}
    (h : target.move source = .ok (moved, emptied)) :
    target.empty = true ∧ moved = source ∧ emptied = target.clear := by
  unfold Slot.move at h
  split at h
  · rename_i he
    cases h
    exact ⟨he, rfl, rfl⟩
  · cases h

theorem idle_of_new {width : Nat} (h : new width = .ok s) : s.Idle width := by
  have hle : width ≤ maxWarpSize := by
    unfold new at h
    split at h
    · assumption
    · cases h
  obtain ⟨u, hu, hidle⟩ := new_ok (α := α) hle
  rw [h, Except.ok.injEq] at hu
  rw [hu]
  exact hidle

end Slot

/-! ## Several slots -/

/-- Slots under their names. -/
abbrev Pool (ι α : Type) := ι → Slot α

namespace Pool

/-- Two new slots, one for warps of four lanes and one for warps of two. -/
def pair : Pool Bool Nat := fun wide =>
  ⟨.placeholder, if wide then 4 else 2, true, false, 0, 0, .empty, none⟩

/-- What a caller does with the slots of a pool. -/
inductive Operation (ι α : Type) where
  | on (slot : ι) (op : Slot.Operation α)
  | move (target source : ι) (distinct : target ≠ source)

variable [DecidableEq ι] {pool before next last : Pool ι α} {op : Operation ι α}
  {ops : List (Operation ι α)} {line : List (α × Instruction)} {log : List (List (α × Instruction))}
  {p q : ι} {work : α} {j lane : Nat}

def step (pool : Pool ι α) : Operation ι α → Outcome (Pool ι α × List (α × Instruction))
  | .on slot op => do
    let (changed, line) ← (pool slot).step op
    return (Function.update pool slot changed, line)
  | .move target source _ => do
    let (moved, emptied) ← (pool target).move (pool source)
    return (Function.update (Function.update pool target moved) source emptied, [])

/-- Operations one after the other, with a line for each of them. -/
def run (pool : Pool ι α) : List (Operation ι α) → Outcome (Pool ι α × List (List (α × Instruction)))
  | [] => .ok (pool, [])
  | op :: ops => do
    let (next, line) ← step pool op
    let (last, lines) ← run next ops
    return (last, line :: lines)

theorem run_cons_eq_ok {first : Operation ι α} :
    run pool (first :: ops) = .ok (last, log) ↔ ∃ next line lines,
      step pool first = .ok (next, line) ∧ run next ops = .ok (last, lines) ∧ log = line :: lines := by
  rw [run, Outcome.bind_eq_ok]
  constructor
  · rintro ⟨⟨next, line⟩, hstep, h⟩
    obtain ⟨⟨final, lines⟩, hrest, h⟩ := Outcome.bind_eq_ok.mp h
    cases h
    exact ⟨next, line, lines, hstep, hrest, rfl⟩
  · rintro ⟨next, line, lines, hstep, hrest, rfl⟩
    refine ⟨(next, line), hstep, ?_⟩
    simp only [hrest]
    rfl

theorem length_log (h : run pool ops = .ok (last, log)) : log.length = ops.length := by
  induction ops generalizing pool log with
  | nil =>
    cases h
    rfl
  | cons first rest ih =>
    obtain ⟨next, line, lines, _, hrest, rfl⟩ := run_cons_eq_ok.mp h
    rw [List.length_cons, List.length_cons, ih hrest]

/-- A run comes to each of its operations, and writes the line of it. What every operation keeps
holds before it. -/
theorem run_at {P : Nat → Pool ι α → Prop} (hfirst : P 0 pool)
    (keeps : ∀ j op before next line, ops[j]? = some op → P j before →
      step before op = .ok (next, line) → P (j + 1) next)
    (h : run pool ops = .ok (last, log)) (hop : ops[j]? = some op) :
    ∃ before lines next line, run pool (ops.take j) = .ok (before, lines) ∧ P j before ∧
      step before op = .ok (next, line) ∧ log[j]? = some line := by
  induction ops generalizing pool log j P with
  | nil => simp at hop
  | cons first rest ih =>
    obtain ⟨mid, line, lines, hstep, hrest, rfl⟩ := run_cons_eq_ok.mp h
    cases j with
    | zero =>
      cases hop
      exact ⟨pool, [], mid, line, rfl, hfirst, hstep, rfl⟩
    | succ j =>
      obtain ⟨before, lines', next, line', hbefore, hp, hline, hget⟩ :=
        ih (P := fun j => P (j + 1)) (keeps 0 first pool mid line rfl hfirst hstep)
          (fun j => keeps (j + 1)) hrest hop
      refine ⟨before, line :: lines', next, line', ?_, hp, hline, hget⟩
      rw [List.take_succ_cons]
      exact run_cons_eq_ok.mpr ⟨mid, line, lines', hstep, hbefore, rfl⟩

/-! ## One operation -/

/-- Where the work on a lane of a slot is after an operation: in a slot, or gone. A slot that
something is moved to loses what was parked on it before. -/
def Operation.fate (p : ι) (lane : Nat) : Operation ι α → Option ι
  | .on slot op => if slot = p ∧ op.takesOff lane = true then none else some p
  | .move target source _ =>
    if source = p then some target else if target = p then none else some p

theorem fate_on {slot : ι} {op : Slot.Operation α} :
    (Operation.on slot op).fate p lane = some q ↔
      p = q ∧ (slot = q → op.takesOff lane = false) := by
  rw [Operation.fate]
  by_cases hslot : slot = p
  · subst hslot
    cases op.takesOff lane with
    | true => simp
    | false => simp
  · simp only [hslot, false_and, if_false, Option.some.injEq, iff_self_and]
    rintro rfl he
    exact absurd he hslot

theorem fate_move {target source : ι} {distinct : target ≠ source} :
    (Operation.move target source distinct : Operation ι α).fate p lane = some q ↔
      (p = source ∧ q = target) ∨ (p ≠ source ∧ p ≠ target ∧ p = q) := by
  rw [Operation.fate]
  by_cases hsource : source = p
  · simp [hsource, eq_comm]
  · have hp : p ≠ source := Ne.symm hsource
    by_cases htarget : target = p
    · simp [hsource, hp, htarget]
    · simp [hsource, hp, htarget, Ne.symm htarget]

/-- The lanes of every slot are as many as its width says. -/
def Fits (pool : Pool ι α) : Prop := ∀ p, (pool p).Fits

/-- An operation changes its slot alone, and a move takes the source to the target and leaves
the wiped target in place of the source. -/
theorem step_cases (h : pool.step op = .ok (next, line)) :
    (∃ slot act changed, op = .on slot act ∧ (pool slot).step act = .ok (changed, line) ∧
      next = Function.update pool slot changed) ∨
    ∃ target source distinct, op = .move target source distinct ∧ line = [] ∧
      next = Function.update (Function.update pool target (pool source)) source
        (pool target).clear := by
  cases op with
  | on slot act =>
    obtain ⟨⟨changed, line'⟩, hact, h⟩ := Outcome.bind_eq_ok.mp h
    cases h
    exact Or.inl ⟨slot, act, changed, rfl, hact, rfl⟩
  | move target source distinct =>
    obtain ⟨⟨moved, emptied⟩, hmove, h⟩ := Outcome.bind_eq_ok.mp h
    cases h
    obtain ⟨_, rfl, rfl⟩ := Slot.move_cases hmove
    exact Or.inr ⟨target, source, distinct, rfl, rfl, rfl⟩

/-- What every operation on one slot keeps, every operation on the slots keeps: a move clears the
slot that it moves to. -/
theorem step_keeps {P : Slot α → Prop}
    (keeps : ∀ s act t line, P s → Slot.step s act = .ok (t, line) → P t)
    (hs : ∀ p, P (pool p)) (h : pool.step op = .ok (next, line)) (p : ι) : P (next p) := by
  rcases step_cases h with ⟨slot, act, changed, _, hact, rfl⟩ | ⟨target, source, _, _, _, rfl⟩
  · by_cases hp : p = slot
    · subst hp
      rw [Function.update_self]
      exact keeps _ _ _ _ (hs p) hact
    · rw [Function.update_of_ne hp]
      exact hs p
  · by_cases hsource : p = source
    · rw [hsource, Function.update_self]
      exact keeps _ .clear _ [] (hs target) rfl
    · rw [Function.update_of_ne hsource]
      by_cases htarget : p = target
      · rw [htarget, Function.update_self]
        exact hs source
      · rw [Function.update_of_ne htarget]
        exact hs p

theorem step_fits (hs : pool.Fits) (h : pool.step op = .ok (next, line)) : next.Fits :=
  step_keeps (fun _ _ _ _ => Slot.step_fits) hs h

/-- What every operation on one slot keeps holds of every slot after a run. -/
theorem run_keeps {P : Slot α → Prop}
    (keeps : ∀ s act t line, P s → Slot.step s act = .ok (t, line) → P t)
    (hs : ∀ p, P (pool p)) (h : run pool ops = .ok (last, log)) (p : ι) : P (last p) := by
  induction ops generalizing pool log with
  | nil =>
    cases h
    exact hs p
  | cons first rest ih =>
    obtain ⟨next, line, lines, hstep, hrest, _⟩ := run_cons_eq_ok.mp h
    exact ih (step_keeps keeps hs hstep) hrest

/-- What is parked on a slot after an operation was parked by it, or it came from where it was
before. -/
theorem step_parkedAt (hs : pool.Fits) (h : pool.step op = .ok (next, line)) :
    (next q).parkedAt lane = some work ↔ op = .on q (.edit (.park lane work)) ∨
      ∃ p, (pool p).parkedAt lane = some work ∧ op.fate p lane = some q := by
  rcases step_cases h with ⟨slot, act, changed, rfl, hact, rfl⟩ |
    ⟨target, source, distinct, rfl, _, rfl⟩
  · have hslot : changed.parkedAt lane = some work ↔ _ := Slot.step_parkedAt (hs slot) hact
    simp only [fate_on, Operation.on.injEq]
    by_cases hq : q = slot
    · subst hq
      rw [Function.update_self, hslot]
      simp
    · rw [Function.update_of_ne hq]
      simp [Ne.symm hq]
  · -- The source is wiped, the target has what the source had, and the other slots are as before.
    simp only [fate_move, reduceCtorEq, false_or]
    by_cases hsource : q = source
    · subst hsource
      rw [Function.update_self, Slot.clear_parkedAt]
      simp only [reduceCtorEq, false_iff]
      rintro ⟨p, _, ⟨rfl, rfl⟩ | ⟨hne, _, rfl⟩⟩
      · exact distinct rfl
      · exact hne rfl
    · rw [Function.update_of_ne hsource]
      by_cases htarget : q = target
      · subst htarget
        rw [Function.update_self]
        constructor
        · intro hp
          exact ⟨source, hp, Or.inl ⟨rfl, rfl⟩⟩
        · rintro ⟨p, hp, ⟨rfl, _⟩ | ⟨_, hne, rfl⟩⟩
          · exact hp
          · exact absurd rfl hne
      · rw [Function.update_of_ne htarget]
        constructor
        · intro hp
          exact ⟨q, hp, Or.inr ⟨hsource, htarget, rfl⟩⟩
        · rintro ⟨p, hp, ⟨_, rfl⟩ | ⟨_, _, rfl⟩⟩
          · exact absurd rfl htarget
          · exact hp

/-- An operation writes a line for what it delivers: all that is parked on its slot, in the order
of the lanes, each with the instruction of the slot. -/
theorem step_line (hs : pool.Fits) (h : pool.step op = .ok (next, line)) :
    (∃ p, op = .on p .deliver ∧ line = (pool p).pending.map (·, (pool p).inst)) ∨
      (∀ p, op ≠ .on p .deliver) ∧ line = [] := by
  rcases step_cases h with ⟨slot, act, changed, rfl, hact, _⟩ | ⟨_, _, _, rfl, rfl, _⟩
  · rcases Slot.step_line (hs slot) hact with ⟨rfl, rfl⟩ | ⟨hother, rfl⟩
    · exact Or.inl ⟨slot, rfl, rfl⟩
    · refine Or.inr ⟨?_, rfl⟩
      rintro p he
      cases he
      exact hother rfl
  · exact Or.inr ⟨fun _ => nofun, rfl⟩

end Pool

end Simt
