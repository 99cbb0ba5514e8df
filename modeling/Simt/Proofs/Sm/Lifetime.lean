-- The life of a warp on its SM. A resident warp was begun by the last launch of its id, and what
-- the SM knows of it is the sum of the operations since then: whether it has exited, and how many
-- of its atomics are in flight.
import Simt.Proofs.Sm.Release

namespace Simt.Sm

variable {first s t : Sm} {cta warp id : UInt32} {op : Operation} {ops since since' : List Operation}

/-! ## The operations since a warp began -/

/-- The warp was begun by a launch of the run, and these are the operations after it. None of
them launches the id again. -/
structure Since (first : Sm) (ops : List Operation) (warp : UInt32) (since : List Operation) :
    Prop where
  begun : ∃ before cta s t, ops = before ++ .launch cta warp :: since ∧
    first.run before = .ok s ∧ s.launch? cta warp = some t
  once : ∀ cta, .launch cta warp ∉ since

theorem Since.snoc (h : Since first ops warp since) (hop : ∀ cta, op ≠ .launch cta warp) :
    Since first (ops ++ [op]) warp (since ++ [op]) := by
  obtain ⟨before, cta, s, t, rfl, hs, ht⟩ := h.begun
  refine ⟨⟨before, cta, s, t, by simp, hs, ht⟩, fun cta hmem => ?_⟩
  rcases List.mem_append.mp hmem with hmem | hmem
  · exact h.once cta hmem
  · exact hop cta (List.mem_singleton.mp hmem).symm

/-- A list that ends with the operations since a launch ends with no other ones. -/
theorem Since.unique (h : Since first ops warp since) (h' : Since first ops warp since') :
    since' = since := by
  have hshort : ∀ {l l' more : List Operation} {cta cta' : UInt32},
      (∀ cta, .launch cta warp ∉ l) → .launch cta warp :: l = more ++ .launch cta' warp :: l' →
        l' = l := by
    intro l l' more cta cta' honce he
    cases more with
    | nil => exact (List.cons.inj he).2.symm
    | cons op more =>
      refine absurd ?_ (honce cta')
      rw [(List.cons.inj he).2]
      simp
  obtain ⟨before, cta, _, _, he, _⟩ := h.begun
  obtain ⟨before', cta', _, _, he', _⟩ := h'.begun
  rw [he] at he'
  rcases List.append_eq_append_iff.mp he' with ⟨more, _, hmore⟩ | ⟨more, _, hmore⟩
  · exact hshort h.once hmore
  · exact (hshort h'.once hmore).symm

/-! ## What the SM knows of a warp -/

/-- Whether a resident warp has exited, and how many of its atomics are in flight. -/
def account? (s : Sm) (warp : UInt32) : Option (Bool × UInt32) :=
  (s.warps.find? warp).map fun r => (r.exited, r.pending)

theorem account?_eq_some {exited : Bool} {pending : UInt32} :
    s.account? warp = some (exited, pending) ↔
      ∃ r, s.warps.find? warp = some r ∧ r.exited = exited ∧ r.pending = pending := by
  simp [account?]

theorem account?_congr (h : t.warps.find? warp = s.warps.find? warp) :
    t.account? warp = s.account? warp := by
  rw [account?, account?, h]

theorem account?_of_find? {r : Resident} (h : s.warps.find? warp = some r) :
    s.account? warp = some (r.exited, r.pending) :=
  account?_eq_some.mpr ⟨r, h, rfl, rfl⟩

theorem waitsForAtomics_eq (s : Sm) (warp : UInt32) :
    s.waitsForAtomics warp = (s.account? warp).any fun known => known.2 > 0 := by
  rw [waitsForAtomics, account?]
  cases s.warps.find? warp <;> rfl

/-- A change of one warp, told by what it does to the account of that warp. -/
theorem account?_update (s : Sm) (id : UInt32) (change : Resident → Resident)
    (after : Bool × UInt32 → Bool × UInt32)
    (h : ∀ r, ((change r).exited, (change r).pending) = after (r.exited, r.pending)) :
    account? { s with warps := s.warps.update id change } warp =
      if warp = id then (s.account? warp).map after else s.account? warp := by
  by_cases hid : warp = id
  · subst hid
    rw [if_pos rfl, account?, account?, WarpTable.find?_update_self, Option.map_map, Option.map_map]
    exact congrArg (Option.map · _) (funext h)
  · rw [if_neg hid]
    exact account?_congr (WarpTable.find?_update_ne _ _ hid)

/-- A barrier is nothing to the account of a warp. -/
theorem tryRelease_account? (h : s.tryRelease cta = .ok t) (warp : UInt32) :
    t.account? warp = s.account? warp := by
  rcases tryRelease_cases h with ⟨_, rfl⟩ | ⟨_, _, _, _, hfind⟩
  · rfl
  · rw [account?, account?, hfind, Option.map_map]
    congr 1
    funext r
    simp only [Function.comp_apply, Resident.freed]
    split <;> rfl

theorem arrive_account? (h : s.arrive cta id = .ok t) (warp : UInt32) :
    t.account? warp = s.account? warp := by
  rw [tryRelease_account? (arrive_marked h).1 warp, marked,
    account?_update s id ({ · with atBarrier := true }) (fun known => known) fun _ => rfl,
    Option.map_id', ite_self]

/-! ## One operation -/

/-- What an operation adds to the account of a warp. -/
structure Adds (op : Operation) (warp : UInt32) (before after : Bool × UInt32) : Prop where
  exited : after.1 = true ↔ before.1 = true ∨ op = .exit warp
  pending : after.2.toNat + [op].count (.completeAtomic warp) =
    before.2.toNat + [op].count (.issueAtomic warp)

/-- An operation that is neither an exit nor an atomic of the warp adds nothing. -/
theorem adds_nothing {known : Bool × UInt32} (hexit : op ≠ .exit warp)
    (hissue : op ≠ .issueAtomic warp) (hcomplete : op ≠ .completeAtomic warp) :
    Adds op warp known known := by
  refine ⟨by simp [hexit], ?_⟩
  rw [List.count_singleton, List.count_singleton, if_neg (by simpa using hcomplete),
    if_neg (by simpa using hissue)]

/-- A warp that is resident after an operation, which did not begin it, was resident before. -/
theorem step_account? {after : Bool × UInt32} (h : s.step op = .ok t)
    (hop : ∀ cta, op ≠ .launch cta warp) (ht : t.account? warp = some after) :
    ∃ before, s.account? warp = some before ∧ Adds op warp before after := by
  cases op with
  | launch cta id =>
    refine ⟨after, ?_, adds_nothing (by simp) (by simp) (by simp)⟩
    cases h
    cases hl : s.launch? cta id with
    | none => rwa [hl] at ht
    | some u =>
      rw [hl] at ht
      obtain ⟨_, rfl⟩ := launch?_eq_some.mp hl
      have hid : warp ≠ id := by
        rintro rfl
        exact hop cta rfl
      rwa [Option.getD_some, account?_congr (WarpTable.find?_insert_ne _ _ hid)] at ht
  | arrive cta id =>
    refine ⟨after, ?_, adds_nothing (by simp) (by simp) (by simp)⟩
    rwa [arrive_account? h] at ht
  | exit id =>
    rcases exit_cases h with ⟨hnone, rfl⟩ | ⟨r, _, hr⟩
    · refine ⟨after, ht, adds_nothing ?_ (by simp) (by simp)⟩
      rintro ⟨rfl⟩
      rw [account?, hnone] at ht
      cases ht
    · rw [tryRelease_account? hr, ended, account?_update s id _ (fun known => (true, known.2))
        fun _ => rfl] at ht
      split at ht
      · rename_i hid
        subst hid
        obtain ⟨before, hb, rfl⟩ := Option.map_eq_some_iff.mp ht
        exact ⟨before, hb, by simp, by simp⟩
      · rename_i hid
        exact ⟨after, ht, adds_nothing (by simpa [eq_comm] using hid) (by simp) (by simp)⟩
  | issueAtomic id =>
    rcases issueAtomic_cases h with ⟨hnone, rfl⟩ | ⟨r, pending, hf, hp, rfl⟩
    · refine ⟨after, ht, adds_nothing (by simp) ?_ (by simp)⟩
      rintro ⟨rfl⟩
      rw [account?, hnone] at ht
      cases ht
    · rw [account?_update s id _ (fun known => (known.1, pending)) fun _ => rfl] at ht
      split at ht
      · rename_i hid
        subst hid
        rw [account?_of_find? hf] at ht ⊢
        cases ht
        exact ⟨_, rfl, by simp, by simpa using hp⟩
      · rename_i hid
        exact ⟨after, ht, adds_nothing (by simp) (by simpa [eq_comm] using hid) (by simp)⟩
  | completeAtomic id =>
    rcases completeAtomic_cases h with ⟨hnone, rfl⟩ | ⟨r, hf, hp, rfl⟩
    · refine ⟨after, ht, adds_nothing (by simp) (by simp) ?_⟩
      rintro ⟨rfl⟩
      rw [account?, hnone] at ht
      cases ht
    · rw [account?_update s id _ (fun known => (known.1, r.pending - 1)) fun _ => rfl] at ht
      split at ht
      · rename_i hid
        subst hid
        rw [account?_of_find? hf] at ht ⊢
        cases ht
        have hpos : r.pending.toNat ≠ 0 := fun h0 => hp (UInt32.toNat_inj.mp h0)
        have hone : 1 ≤ r.pending := by
          rw [UInt32.le_iff_toNat_le, UInt32.toNat_one]
          omega
        refine ⟨_, rfl, by simp, ?_⟩
        simp only [List.count_singleton_self, UInt32.toNat_sub_of_le _ _ hone, UInt32.toNat_one]
        simp
        omega
      · rename_i hid
        exact ⟨after, ht, adds_nothing (by simp) (by simp) (by simpa [eq_comm] using hid)⟩
  | retire =>
    refine ⟨after, ?_, adds_nothing (by simp) (by simp) (by simp)⟩
    cases h
    obtain ⟨r, hf, hknown⟩ := account?_eq_some.mp ht
    rw [retire_find?, Option.filter_eq_some_iff] at hf
    exact account?_eq_some.mpr ⟨r, hf.1, hknown⟩

/-- A warp that is resident after a launch of its id was begun by it. -/
theorem launch_account? {after : Bool × UInt32} (h : s.step (.launch cta warp) = .ok t)
    (ht : t.account? warp = some after) : after = (false, 0) ∧ s.launch? cta warp = some t := by
  cases h
  cases hl : s.launch? cta warp with
  | none =>
    rw [hl, Option.getD_none, account?, (launch?_eq_none.mp hl).2] at ht
    cases ht
  | some u =>
    obtain ⟨_, rfl⟩ := launch?_eq_some.mp hl
    rw [hl, Option.getD_some, account?, WarpTable.find?_insert_self] at ht
    cases ht
    exact ⟨rfl, rfl⟩

/-! ## Runs -/

/-- The account of a warp is the sum of the operations since it began. -/
structure Sums (warp : UInt32) (since : List Operation) (known : Bool × UInt32) : Prop where
  exited : known.1 = true ↔ .exit warp ∈ since
  pending : known.2.toNat + since.count (.completeAtomic warp) = since.count (.issueAtomic warp)

theorem Sums.snoc {before after : Bool × UInt32} (h : Sums warp since before)
    (hadds : Adds op warp before after) : Sums warp (since ++ [op]) after := by
  have hp := h.pending
  have hp' := hadds.pending
  refine ⟨?_, ?_⟩
  · rw [hadds.exited, h.exited, List.mem_append, List.mem_singleton, eq_comm (a := op)]
  · rw [List.count_append, List.count_append]
    omega

theorem run_snoc (first : Sm) (ops : List Operation) (op : Operation) :
    first.run (ops ++ [op]) = first.run ops >>= (·.step op) := by
  simp only [run, List.foldlM_append, List.foldlM_cons, List.foldlM_nil, bind_pure]

/-- A warp that is resident after a run was begun in the run, and its account is the sum of the
operations since then. -/
theorem run_account? {id : Nat} {config : Config} {known : Bool × UInt32}
    (h : (new id config).run ops = .ok t) (ht : t.account? warp = some known) :
    ∃ since, Since (new id config) ops warp since ∧ Sums warp since known := by
  induction ops using List.reverseRecOn generalizing t known with
  | nil =>
    cases h
    cases ht
  | append_singleton ops op ih =>
    rw [run_snoc, Outcome.bind_eq_ok] at h
    obtain ⟨s, hs, hstep⟩ := h
    by_cases hop : ∃ cta, op = .launch cta warp
    · obtain ⟨cta, rfl⟩ := hop
      obtain ⟨rfl, hl⟩ := launch_account? hstep ht
      exact ⟨[], ⟨⟨ops, cta, s, t, rfl, hs, hl⟩, by simp⟩, by simp, by simp⟩
    · have hother : ∀ cta, op ≠ .launch cta warp := fun cta he => hop ⟨cta, he⟩
      obtain ⟨before, hb, hadds⟩ := step_account? hstep hother ht
      obtain ⟨since, hsince, hsums⟩ := ih hs hb
      exact ⟨since ++ [op], hsince.snoc hother, hsums.snoc hadds⟩

/-! ## Atomics in flight -/

/-- A resident warp waits for its atomics when more of them were issued than have completed since
the warp began, and one more completion is a fault when as many have completed as were issued.
Whatever else was done to the SM in between makes no difference. An atomic of a warp that is not
resident changes nothing, and nor does its exit. Its arrival at a barrier is nothing to the atomics
of any warp. -/
theorem atomics_in_flight_are_those_issued_since_the_launch (id : Nat) (config : Config)
    (ops : List Operation) (s : Sm) (h : (new id config).run ops = .ok s) (warp : UInt32) :
    (∀ r, s.warps.find? warp = some r → ∃ since, Since (new id config) ops warp since ∧
      (s.waitsForAtomics warp = true ↔
        since.count (.completeAtomic warp) < since.count (.issueAtomic warp)) ∧
      ∀ fault, s.completeAtomic warp = .error fault ↔ fault = .atomicNotIssued ∧
        since.count (.completeAtomic warp) = since.count (.issueAtomic warp)) ∧
    (s.warps.find? warp = none →
      s.issueAtomic warp = .ok s ∧ s.completeAtomic warp = .ok s ∧ s.exit warp = .ok s ∧
      ∀ cta t, s.arrive cta warp = .ok t →
        ∀ other, t.waitsForAtomics other = s.waitsForAtomics other) := by
  constructor
  · intro r hf
    obtain ⟨since, hsince, hsums⟩ := run_account? h (account?_of_find? hf)
    have hpending : r.pending.toNat + since.count (.completeAtomic warp) =
      since.count (.issueAtomic warp) := hsums.pending
    refine ⟨since, hsince, ?_, fun fault => ?_⟩
    · rw [waitsForAtomics_eq, account?_of_find? hf, Option.any_some, decide_eq_true_eq, gt_iff_lt,
        UInt32.lt_iff_toNat_lt, UInt32.toNat_zero]
      simp only
      omega
    · have hequal : r.pending = 0 ↔
          since.count (.completeAtomic warp) = since.count (.issueAtomic warp) := by
        rw [← UInt32.toNat_inj, UInt32.toNat_zero]
        omega
      rw [completeAtomic, hf, ← hequal]
      by_cases h0 : r.pending = 0
      · simp [h0, eq_comm]
      · simp [h0]
  · intro hnone
    refine ⟨by rw [issueAtomic, hnone], by rw [completeAtomic, hnone], by rw [exit, hnone], ?_⟩
    intro cta t harrive other
    rw [waitsForAtomics_eq, waitsForAtomics_eq, arrive_account? harrive]

/-- Two atomics of warp 0 are in flight when it begins again. It issues two more, of which one
completes, and exits. -/
def begunAgain : List Operation := [.launch 7 0, .issueAtomic 0, .issueAtomic 0, .launch 7 0,
  .issueAtomic 0, .launch 7 1, .arrive 7 0, .issueAtomic 0, .completeAtomic 0, .exit 0]

theorem an_exited_warp_waits_for_one_of_two_atomics :
    ∃ s, (new 0 .h100).run begunAgain = .ok s ∧ s.waitsForAtomics 0 = true ∧
      s.completeAtomic 9 = .ok s := by
  have hsince : Since (new 0 .h100) begunAgain 0
      [.issueAtomic 0, .launch 7 1, .arrive 7 0, .issueAtomic 0, .completeAtomic 0, .exit 0] :=
    ⟨⟨[.launch 7 0, .issueAtomic 0, .issueAtomic 0], 7, _, _, rfl, rfl, rfl⟩, by simp⟩
  have hwaits : ∀ s, (new 0 .h100).run begunAgain = .ok s → (∃ r, s.warps.find? 0 = some r) →
      s.warps.find? 9 = none → s.waitsForAtomics 0 = true ∧ s.completeAtomic 9 = .ok s := by
    rintro s hs ⟨r, hf⟩ hnone
    obtain ⟨since, hsince', hwaits, _⟩ :=
      (atomics_in_flight_are_those_issued_since_the_launch 0 .h100 begunAgain s hs 0).1 r hf
    obtain rfl := hsince.unique hsince'
    obtain ⟨_, hcomplete, _⟩ :=
      (atomics_in_flight_are_those_issued_since_the_launch 0 .h100 begunAgain s hs 9).2 hnone
    exact ⟨hwaits.mpr (by decide), hcomplete⟩
  exact ⟨_, rfl, hwaits _ rfl ⟨_, rfl⟩ rfl⟩

end Simt.Sm
