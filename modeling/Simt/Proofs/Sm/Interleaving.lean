-- Blocks that share an SM. An operation on a warp looks at the block of the warp and changes
-- nothing else but the count of released barriers, so operations on two blocks change places,
-- and what the warps of some blocks do can be mixed in any way with what the warps of others do.
import Simt.Proofs.Sm.Progress

namespace Simt.Sm

variable {s t u : Sm} {cta other id warp : UInt32}

/-! ## Changes of one block -/

/-- A change of the warps of a block that leaves them in the block. -/
structure Change where
  apply : UInt32 → Resident → Resident
  stays : ∀ id r, (apply id r).cta = r.cta

/-- The SM with a change of the warps of one block. -/
def within (s : Sm) (cta : UInt32) (change : Change) : Sm :=
  { s with warps := s.warps.map fun id r => if r.cta = cta then change.apply id r else r }

/-- The change that takes off the marks. -/
def Change.unmark : Change where
  apply _ r := { r with atBarrier := false }
  stays _ _ := rfl

/-- The change of one warp. -/
def Change.ofWarp (warp : UInt32) (change : Resident → Resident)
    (stays : ∀ r, (change r).cta = r.cta) : Change where
  apply id r := if id = warp then change r else r
  stays id r := by
    split
    · exact stays r
    · rfl

variable {change change' : Change}

theorem within_find? (s : Sm) (cta : UInt32) (change : Change) (id : UInt32) :
    (s.within cta change).warps.find? id =
      (s.warps.find? id).map fun r => if r.cta = cta then change.apply id r else r :=
  s.warps.find?_map _ id

/-- A warp of another block is untouched, and no warp comes to another block. -/
theorem within_other {r : Resident} (h : other ≠ cta) (hr : r.cta = other) :
    (s.within cta change).warps.find? id = some r ↔ s.warps.find? id = some r := by
  rw [within_find?, Option.map_eq_some_iff]
  constructor
  · rintro ⟨q, hq, rfl⟩
    split at hr
    · rename_i hcta
      rw [change.stays, hcta] at hr
      exact absurd hr.symm h
    · rename_i hcta
      rw [if_neg hcta]
      exact hq
  · intro hf
    exact ⟨r, hf, if_neg (hr ▸ h)⟩

theorem within_comm (s : Sm) (change change' : Change) (h : other ≠ cta) :
    (s.within cta change).within other change' = (s.within other change').within cta change := by
  simp only [within, WarpTable.map_map]
  congr 1
  refine WarpTable.map_congr fun id r _ => ?_
  by_cases hcta : r.cta = cta
  · simp [hcta, change.stays, h.symm]
  · by_cases hother : r.cta = other
    · simp [hother, h, change'.stays]
    · simp [hcta, hother]

theorem within_complete (h : other ≠ cta) :
    (s.within cta change).Complete other ↔ s.Complete other := by
  refine complete_congr fun id waits => ?_
  simp only [member?_eq_some]
  refine exists_congr fun r => ⟨?_, ?_⟩
  · rintro ⟨hf, hlive, hcta, hwaits⟩
    exact ⟨(within_other h hcta).mp hf, hlive, hcta, hwaits⟩
  · rintro ⟨hf, hlive, hcta, hwaits⟩
    exact ⟨(within_other h hcta).mpr hf, hlive, hcta, hwaits⟩

/-- Two changes of a block are one change of it. -/
def Change.andThen (change after : Change) : Change where
  apply id r := after.apply id (change.apply id r)
  stays id r := by rw [after.stays, change.stays]

theorem within_within (s : Sm) (cta : UInt32) (change after : Change) :
    (s.within cta change).within cta after = s.within cta (change.andThen after) := by
  simp only [within, WarpTable.map_map]
  congr 1
  refine WarpTable.map_congr fun id r _ => ?_
  by_cases hcta : r.cta = cta
  · simp [hcta, change.stays, Change.andThen]
  · simp [hcta]

/-- The change of one warp is a change of its block. -/
theorem within_ofWarp {r : Resident} {f : Resident → Resident} {stays : ∀ r, (f r).cta = r.cta}
    (hf : s.warps.find? warp = some r) :
    s.within r.cta (.ofWarp warp f stays) = { s with warps := s.warps.update warp f } := by
  simp only [within, WarpTable.update]
  congr 1
  refine WarpTable.map_congr fun id q hq => ?_
  by_cases hid : id = warp
  · subst hid
    rw [hf, Option.some.injEq] at hq
    subst hq
    simp [Change.ofWarp]
  · simp [Change.ofWarp, hid]

/-! ## Looks at a block -/

theorem tryRelease_of_complete (h : s.Complete cta) :
    s.tryRelease cta = (Word.add64 s.released 1).map fun released =>
      { s.within cta .unmark with released } := by
  rw [tryRelease, if_pos (complete_iff.mpr h)]
  cases Word.add64 s.released 1 <;> rfl

/-- A look at a block changes the warps of the block alone. -/
theorem tryRelease_within (h : s.tryRelease cta = .ok t) :
    t = s ∨ ∃ released, t = { s.within cta .unmark with released } := by
  by_cases hc : s.Complete cta
  · rw [tryRelease_of_complete hc] at h
    obtain ⟨released, _, rfl⟩ := Outcome.map_eq_ok.mp h
    exact Or.inr ⟨released, rfl⟩
  · rw [tryRelease_eq_self hc, Except.ok.injEq] at h
    exact Or.inl h.symm

/-- A look at a block and a change of another block change places. -/
theorem within_tryRelease (s : Sm) (change : Change) (h : other ≠ cta) :
    (s.within cta change).tryRelease other =
      (s.tryRelease other).map fun t => t.within cta change := by
  by_cases hc : s.Complete other
  · rw [tryRelease_of_complete hc, tryRelease_of_complete ((within_complete h).mpr hc),
      within_comm s change .unmark h]
    cases hr : Word.add64 s.released 1 <;> simp [within, hr, Except.map]
  · rw [tryRelease_eq_self hc, tryRelease_eq_self (mt (within_complete h).mp hc)]
    rfl

theorem tryRelease_complete (h : other ≠ cta) (hr : s.tryRelease cta = .ok t) :
    t.Complete other ↔ s.Complete other := by
  rcases tryRelease_within hr with rfl | ⟨released, rfl⟩
  · rfl
  · have hunmarked : (s.within cta .unmark).Complete other ↔ s.Complete other := within_complete h
    rw [← hunmarked]
    exact complete_congr fun _ _ => Iff.rfl

/-- A look after which another block, that is not complete, has nothing to look for. -/
theorem tryRelease_then (h : other ≠ cta) (ho : ¬ s.Complete other) :
    (s.tryRelease cta >>= fun t => t.tryRelease other) = s.tryRelease cta := by
  cases hr : s.tryRelease cta with
  | error e => rfl
  | ok t => exact tryRelease_eq_self (mt (tryRelease_complete h hr).mp ho)

/-- A look at a block that is complete, after a release for another block. -/
theorem tryRelease_then_complete (h : other ≠ cta) (hc : s.Complete cta) (ho : s.Complete other) :
    (s.tryRelease cta >>= fun t => t.tryRelease other) =
      (Word.add64 s.released 1 >>= fun released => Word.add64 released 1).map fun released =>
        { (s.within cta .unmark).within other .unmark with released } := by
  cases hr : Word.add64 s.released 1 with
  | error e =>
    rw [tryRelease_of_complete hc, hr]
    rfl
  | ok released =>
    have ht : s.tryRelease cta = .ok { s.within cta .unmark with released } := by
      rw [tryRelease_of_complete hc, hr]
      rfl
    rw [ht, Outcome.ok_bind, Outcome.ok_bind,
      tryRelease_of_complete ((tryRelease_complete h ht).mpr ho)]
    rfl

/-- Looks at two blocks change places. -/
theorem tryRelease_comm (s : Sm) (h : other ≠ cta) :
    (s.tryRelease cta >>= fun t => t.tryRelease other) =
      (s.tryRelease other >>= fun t => t.tryRelease cta) := by
  by_cases hc : s.Complete cta
  · by_cases ho : s.Complete other
    · rw [tryRelease_then_complete h hc ho, tryRelease_then_complete h.symm ho hc,
        within_comm s .unmark .unmark h]
    · rw [tryRelease_then h ho, tryRelease_eq_self ho, Outcome.ok_bind]
  · rw [tryRelease_then h.symm hc, tryRelease_eq_self hc, Outcome.ok_bind]

/-! ## Work on one block -/

/-- What an operation does to the block of its warp: a change, and a look where the block may go
on after it. -/
structure Work where
  change : Change
  looks : Bool

def lookIf (s : Sm) (cta : UInt32) : Bool → Outcome Sm
  | true => s.tryRelease cta
  | false => .ok s

def work (s : Sm) (cta : UInt32) (w : Work) : Outcome Sm :=
  (s.within cta w.change).lookIf cta w.looks

theorem within_lookIf (s : Sm) (change : Change) (looks : Bool) (h : other ≠ cta) :
    (s.within cta change).lookIf other looks =
      (s.lookIf other looks).map fun t => t.within cta change := by
  cases looks with
  | true => exact within_tryRelease s change h
  | false => rfl

theorem lookIf_comm (s : Sm) (first second : Bool) (h : other ≠ cta) :
    (s.lookIf cta first >>= fun t => t.lookIf other second) =
      (s.lookIf other second >>= fun t => t.lookIf cta first) := by
  cases first with
  | true =>
    cases second with
    | true => exact tryRelease_comm s h
    | false => exact bind_pure (s.tryRelease cta)
  | false =>
    cases second with
    | true => exact (bind_pure (s.tryRelease other)).symm
    | false => rfl

theorem work_then (s : Sm) (w w' : Work) (h : other ≠ cta) :
    (s.work cta w >>= fun t => t.work other w') =
      (((s.within cta w.change).within other w'.change).lookIf cta w.looks >>= fun t =>
        t.lookIf other w'.looks) := by
  rw [within_lookIf _ _ _ h.symm, work]
  cases (s.within cta w.change).lookIf cta w.looks <;> rfl

/-- Work on two blocks changes places. -/
theorem work_comm (s : Sm) (w w' : Work) (h : other ≠ cta) :
    (s.work cta w >>= fun t => t.work other w') =
      (s.work other w' >>= fun t => t.work cta w) := by
  rw [work_then s w w' h, work_then s w' w h.symm, within_comm s w.change w'.change h,
    lookIf_comm _ _ _ h]

theorem work_within {w : Work} (h : s.work cta w = .ok t) :
    ∃ change released, t = { s.within cta change with released } := by
  obtain ⟨change, looks⟩ := w
  cases looks with
  | true =>
    rcases tryRelease_within h with rfl | ⟨released, rfl⟩
    · exact ⟨change, s.released, rfl⟩
    · refine ⟨change.andThen .unmark, released, ?_⟩
      rw [← within_within]
  | false =>
    cases h
    exact ⟨change, s.released, rfl⟩

/-! ## Operations as work -/

/-- The block of a warp. -/
def block? (s : Sm) (warp : UInt32) : Option UInt32 := (s.warps.find? warp).map (·.cta)

/-- The block that an operation is about, which is that of the resident warp it names. Launches and
retirements are about no block, and neither is an arrival at the barrier of another block. -/
def Operation.block? (s : Sm) : Operation → Option UInt32
  | .arrive cta warp => (s.block? warp).filter (· = cta)
  | .exit warp | .issueAtomic warp | .completeAtomic warp => s.block? warp
  | .launch _ _ | .retire => none

/-- Both SMs have the same warps in the block. -/
def SameBlock (cta : UInt32) (s t : Sm) : Prop :=
  ∀ id r, r.cta = cta → (t.warps.find? id = some r ↔ s.warps.find? id = some r)

theorem SameBlock.symm (h : SameBlock cta s t) : SameBlock cta t s :=
  fun id r hr => (h id r hr).symm

variable {op : Operation}

/-- An operation does some work on its block, and the same work on every SM that has the same warps
in the block. -/
theorem step_eq_work (ho : op.block? s = some cta) (h : s.step op = .ok t) :
    ∃ w, ∀ u, SameBlock cta s u → u.step op = u.work cta w := by
  cases op with
  | launch c warp => cases ho
  | retire => cases ho
  | arrive c warp =>
    obtain ⟨hblock, hc⟩ := Option.filter_eq_some_iff.mp ho
    obtain ⟨r, hf, rfl⟩ := Option.map_eq_some_iff.mp hblock
    refine ⟨⟨.ofWarp warp ({ · with atBarrier := true }) fun _ => rfl, true⟩, fun u hu => ?_⟩
    have hfu := (hu warp r rfl).mpr hf
    rw [work, within_ofWarp hfu]
    simp only [step, arrive, hfu, of_decide_eq_true hc, if_true, lookIf]
  | exit warp =>
    obtain ⟨r, hf, rfl⟩ := Option.map_eq_some_iff.mp ho
    refine ⟨⟨.ofWarp warp ({ · with exited := true, atBarrier := false }) fun _ => rfl, true⟩,
      fun u hu => ?_⟩
    have hfu := (hu warp r rfl).mpr hf
    rw [work, within_ofWarp hfu]
    simp only [step, exit, hfu, lookIf]
  | issueAtomic warp =>
    obtain ⟨r, hf, rfl⟩ := Option.map_eq_some_iff.mp ho
    simp only [step, issueAtomic, hf] at h
    obtain ⟨pending, hp, _⟩ := Outcome.bind_eq_ok.mp h
    refine ⟨⟨.ofWarp warp ({ · with pending }) fun _ => rfl, false⟩, fun u hu => ?_⟩
    have hfu := (hu warp r rfl).mpr hf
    rw [work, within_ofWarp hfu]
    simp [step, issueAtomic, hfu, hp, lookIf]
  | completeAtomic warp =>
    obtain ⟨r, hf, rfl⟩ := Option.map_eq_some_iff.mp ho
    simp only [step, completeAtomic, hf] at h
    split at h
    · cases h
    · rename_i hp
      refine ⟨⟨.ofWarp warp ({ · with pending := r.pending - 1 }) fun _ => rfl, false⟩,
        fun u hu => ?_⟩
      have hfu := (hu warp r rfl).mpr hf
      rw [work, within_ofWarp hfu]
      simp [step, completeAtomic, hfu, hp, lookIf]

/-- An operation changes its own block alone, and the count. -/
theorem step_within (ho : op.block? s = some cta) (h : s.step op = .ok t) :
    ∃ change released, t = { s.within cta change with released } := by
  obtain ⟨w, hw⟩ := step_eq_work ho h
  rw [hw s fun _ _ _ => Iff.rfl] at h
  exact work_within h

/-- An operation leaves the warps of other blocks as they are. -/
theorem step_others (ho : op.block? s = some cta) (h : s.step op = .ok t) (hne : other ≠ cta) :
    SameBlock other s t := by
  obtain ⟨change, released, rfl⟩ := step_within ho h
  exact fun id r hr => within_other hne hr

/-- No operation on a resident warp changes what another operation is about. -/
theorem step_block? (ho : op.block? s = some cta) (h : s.step op = .ok t) (later : Operation) :
    later.block? t = later.block? s := by
  obtain ⟨change, released, rfl⟩ := step_within ho h
  have hblock : ∀ id, block? { s.within cta change with released } id = s.block? id := by
    intro id
    simp only [block?, within_find?, Option.map_map]
    congr 1
    funext r
    by_cases hr : r.cta = cta
    · simp [hr, change.stays]
    · simp [hr]
  cases later <;> simp only [Operation.block?, hblock]

/-- Two operations of different blocks change places. -/
theorem step_swap {first second : Operation} (hne : other ≠ cta)
    (hfirst : first.block? s = some cta) (hsecond : second.block? s = some other)
    (hs : s.step first = .ok u) (ht : u.step second = .ok t) :
    ∃ v, s.step second = .ok v ∧ v.step first = .ok t := by
  obtain ⟨w, hw⟩ := step_eq_work hfirst hs
  obtain ⟨w', hw'⟩ := step_eq_work ((step_block? hfirst hs second).trans hsecond) ht
  have hboth : (s.work cta w >>= fun u => u.work other w') = .ok t := by
    rw [← hw s fun _ _ _ => Iff.rfl, hs, Outcome.ok_bind, ← hw' u fun _ _ _ => Iff.rfl, ht]
  rw [work_comm s w w' hne] at hboth
  obtain ⟨v, hv, hvt⟩ := Outcome.bind_eq_ok.mp hboth
  rw [← hw' s (step_others hfirst hs hne).symm] at hv
  exact ⟨v, hv, by rw [hw v (step_others hsecond hv hne.symm), hvt]⟩

/-! ## Interleavings -/

/-- The third row has the operations of the other two, each of them in its order. -/
inductive Interleaving : List Operation → List Operation → List Operation → Prop
  | nil : Interleaving [] [] []
  | left {op : Operation} {as bs ops : List Operation} :
      Interleaving as bs ops → Interleaving (op :: as) bs (op :: ops)
  | right {op : Operation} {as bs ops : List Operation} :
      Interleaving as bs ops → Interleaving as (op :: bs) (op :: ops)

variable {as bs ops rest : List Operation}

theorem run_cons_eq_ok : s.run (op :: ops) = .ok t ↔ ∃ u, s.step op = .ok u ∧ u.run ops = .ok t := by
  rw [run, List.foldlM_cons, Outcome.bind_eq_ok]
  rfl

/-- An operation may come before operations of other blocks as well as after them. -/
theorem run_first (hop : op.block? s = some other)
    (has : ∀ a ∈ as, ∃ cta, a.block? s = some cta ∧ other ≠ cta)
    (h : s.run (as ++ op :: rest) = .ok t) : s.run (op :: (as ++ rest)) = .ok t := by
  induction as generalizing s with
  | nil => exact h
  | cons a as ih =>
    obtain ⟨u, hu, h⟩ := run_cons_eq_ok.mp h
    obtain ⟨cta, ha, hne⟩ := has a List.mem_cons_self
    have hblock := step_block? ha hu
    have hrest := ih ((hblock op).trans hop) (fun b hb => by
      rw [hblock]
      exact has b (List.mem_cons_of_mem a hb)) h
    -- The operation stands right after `a` now.
    obtain ⟨v, hv, hrun⟩ := run_cons_eq_ok.mp hrest
    obtain ⟨v', hv', hback⟩ := step_swap hne ha hop hu hv
    exact run_cons_eq_ok.mpr ⟨v', hv', run_cons_eq_ok.mpr ⟨v, hback, hrun⟩⟩

/-- Two rows of operations on resident warps, where no block has warps in both rows, lead to the
same state in every order that keeps the order of each row. -/
theorem blocks_on_one_sm_do_not_interfere (has : ∀ a ∈ as, a.block? s ≠ none)
    (hbs : ∀ b ∈ bs, b.block? s ≠ none) (hapart : ∀ a ∈ as, ∀ b ∈ bs, a.block? s ≠ b.block? s)
    (h : s.run (as ++ bs) = .ok t) (hmixed : Interleaving as bs ops) : s.run ops = .ok t := by
  induction hmixed generalizing s with
  | nil => exact h
  | @left op as bs ops _ ih =>
    obtain ⟨u, hu, h⟩ := run_cons_eq_ok.mp h
    obtain ⟨cta, ha⟩ := Option.ne_none_iff_exists'.mp (has op List.mem_cons_self)
    simp only [← step_block? ha hu] at has hbs hapart
    refine run_cons_eq_ok.mpr ⟨u, hu, ih ?_ hbs ?_ h⟩
    · exact fun a ha => has a (List.mem_cons_of_mem op ha)
    · exact fun a ha => hapart a (List.mem_cons_of_mem op ha)
  | @right op as bs ops _ ih =>
    obtain ⟨other, hb⟩ := Option.ne_none_iff_exists'.mp (hbs op List.mem_cons_self)
    have hothers : ∀ a ∈ as, ∃ cta, a.block? s = some cta ∧ other ≠ cta := by
      intro a ha
      obtain ⟨cta, hcta⟩ := Option.ne_none_iff_exists'.mp (has a ha)
      refine ⟨cta, hcta, ?_⟩
      rintro rfl
      exact hapart a ha op List.mem_cons_self (hcta.trans hb.symm)
    obtain ⟨u, hu, h⟩ := run_cons_eq_ok.mp (run_first hb hothers h)
    simp only [← step_block? hb hu] at has hbs hapart
    refine run_cons_eq_ok.mpr ⟨u, hu, ih has ?_ ?_ h⟩
    · exact fun b hb => hbs b (List.mem_cons_of_mem op hb)
    · exact fun a ha b hb => hapart a ha b (List.mem_cons_of_mem op hb)

/-- A block of two warps, one of which exits with an atomic in flight, beside a block of two warps
that come to their barrier. -/
theorem two_blocks_take_turns :
    ∃ s t, (new 0 .h100).run [.launch 7 0, .launch 7 1, .launch 8 2, .launch 8 3] = .ok s ∧
      s.run ([.arrive 7 0, .issueAtomic 1, .exit 1] ++ [.arrive 8 2, .arrive 8 3]) = .ok t ∧
      s.run [.arrive 8 2, .arrive 7 0, .issueAtomic 1, .arrive 8 3, .exit 1] = .ok t ∧
      t.released = 2 := by
  have hmixed : Interleaving [.arrive 7 0, .issueAtomic 1, .exit 1] [.arrive 8 2, .arrive 8 3]
      [.arrive 8 2, .arrive 7 0, .issueAtomic 1, .arrive 8 3, .exit 1] :=
    .right (.left (.left (.right (.left .nil))))
  exact ⟨_, _, rfl, rfl, blocks_on_one_sm_do_not_interfere (by decide) (by decide) (by decide) rfl
    hmixed, rfl⟩

end Simt.Sm
