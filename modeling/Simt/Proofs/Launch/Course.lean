-- The course of a launch over its blocks. Before each block the launch stands at the number
-- of the block, whatever the SMs and the hook did. On a device with no live warp no block is
-- refused, and each SM has released the barriers of the blocks that it has executed.
import Simt.Proofs.Device
import Simt.Proofs.Launch.Block

namespace Simt.Launch

variable {σ α : Type} {plan : LaunchPlan σ α} {warpsPerCta : UInt32}
  {first state next : State σ α} {opening : Opening} {s m n : Nat}

/-! ## Runs -/

/-- What every block that is done keeps, a run keeps. The number bounds the blocks left. -/
theorem run_keeps {P : Nat → State σ α → Prop} {limit : Nat} {last : BlockEnd σ α}
    (step : ∀ k state next, P (k + 1) state → state.kernel.ctasDone = false →
      executeCta plan warpsPerCta state = .ok (.done next) → P k next)
    (hp : P limit state) (h : run plan warpsPerCta limit state = .ok last) :
    ∃ k final, P k final ∧
      ((last = .done final ∧ (k = 0 ∨ final.kernel.ctasDone = true)) ∨
        ∃ warps refused, last = .refused warps refused ∧ 0 < k ∧
          final.kernel.ctasDone = false ∧
          executeCta plan warpsPerCta final = .ok (.refused warps refused)) := by
  induction limit generalizing state with
  | zero =>
    cases h
    exact ⟨0, state, hp, Or.inl ⟨rfl, Or.inl rfl⟩⟩
  | succ limit ih =>
    rw [run] at h
    split at h
    · rename_i hdone
      cases h
      exact ⟨limit + 1, state, hp, Or.inl ⟨rfl, Or.inr hdone⟩⟩
    · rename_i hmore
      have hmore : state.kernel.ctasDone = false := by simpa using hmore
      obtain ⟨result, hresult, h⟩ := Outcome.bind_eq_ok.mp h
      cases result with
      | done next => exact ih (step limit state next hp hmore hresult) h
      | refused warps refused =>
        cases h
        exact ⟨limit + 1, state, hp, Or.inr ⟨warps, refused, rfl, Nat.succ_pos _, hmore, hresult⟩⟩

/-- Where every block that a run comes to goes through, the run goes through. -/
theorem run_ok {P : Nat → State σ α → Prop} {limit : Nat}
    (step : ∀ k state, P (k + 1) state → state.kernel.ctasDone = false →
      ∃ last, executeCta plan warpsPerCta state = .ok last ∧ ∀ next, last = .done next → P k next)
    (hp : P limit state) : ∃ last, run plan warpsPerCta limit state = .ok last := by
  induction limit generalizing state with
  | zero => exact ⟨.done state, rfl⟩
  | succ limit ih =>
    rw [run]
    split
    · exact ⟨.done state, rfl⟩
    · rename_i hmore
      obtain ⟨last, hlast, hkeep⟩ := step limit state hp (by simpa using hmore)
      rw [hlast, Outcome.ok_bind]
      cases last with
      | done next => exact ih (hkeep next rfl)
      | refused warps refused => exact ⟨.refused warps refused, rfl⟩

/-- A run of one block more. -/
theorem run_succ {limit : Nat} (h : run plan warpsPerCta limit first = .ok (.done state))
    (hmore : state.kernel.ctasDone = false)
    (hdone : executeCta plan warpsPerCta state = .ok (.done next)) :
    run plan warpsPerCta (limit + 1) first = .ok (.done next) := by
  induction limit generalizing first with
  | zero =>
    cases h
    rw [run, hmore, hdone]
    rfl
  | succ limit ih =>
    rw [run] at h ⊢
    split at h
    · rename_i hend
      cases h
      rw [hend] at hmore
      cases hmore
    · rename_i hgo
      obtain ⟨last, hlast, h⟩ := Outcome.bind_eq_ok.mp h
      rw [if_neg hgo, hlast]
      cases last with
      | done mid => exact ih h
      | refused warps refused => cases h

theorem run_ended (limit : Nat) (h : state.kernel.ctasDone = true) :
    run plan warpsPerCta limit state = .ok (.done state) := by
  cases limit with
  | zero => rfl
  | succ limit => rw [run, if_pos h]

/-- A run of some blocks is the first part of a run of more, or it has ended in the same
refusal. -/
theorem run_split {limit k : Nat} {last : BlockEnd σ α}
    (h : run plan warpsPerCta limit first = .ok last) (hk : k ≤ limit) :
    (∃ mid, run plan warpsPerCta k first = .ok (.done mid) ∧
      run plan warpsPerCta (limit - k) mid = .ok last) ∨
    ∃ warps refused, last = .refused warps refused ∧ run plan warpsPerCta k first = .ok last := by
  induction k generalizing limit first with
  | zero => exact Or.inl ⟨first, rfl, h⟩
  | succ k ih =>
    obtain ⟨limit, rfl⟩ : ∃ more, limit = more + 1 := ⟨limit - 1, by omega⟩
    rw [Nat.add_sub_add_right]
    rw [run] at h ⊢
    split at h
    · rename_i hdone
      cases h
      rw [if_pos hdone]
      exact Or.inl ⟨first, rfl, run_ended _ hdone⟩
    · rename_i hmore
      obtain ⟨result, hresult, h⟩ := Outcome.bind_eq_ok.mp h
      rw [if_neg hmore, hresult]
      cases result with
      | done next => exact ih h (by omega)
      | refused warps refused =>
        cases h
        exact Or.inr ⟨warps, refused, rfl, rfl⟩

/-! ## Where a launch stands -/

/-- The threads of block `n` that were handed out before a launch which began in the middle
of block `s`. -/
def handedOut (s m n : Nat) : Nat := if n = s then m else 0

/-- The blocks from `s` on, up to block `n`. -/
theorem range'_snoc (h : s ≤ n) :
    List.range' s (n + 1 - s) = List.range' s (n - s) ++ [n] := by
  have hsucc : n + 1 - s = n - s + 1 := by omega
  have hlast : s + 1 * (n - s) = n := by omega
  rw [hsucc, List.range'_concat, hlast]

@[simp] theorem handedOut_zero (s n : Nat) : handedOut s 0 n = 0 := ite_self 0

/-- A launch that began at block `s`, with `m` threads of it handed out, comes to block `n`. -/
structure Stands (first : State σ α) (s m n : Nat) (state : State σ α) : Prop where
  le : s ≤ n
  kernel : state.kernel = { first.kernel with
    nextCta := first.kernel.grid.place n
    nextThread := first.kernel.block.place (handedOut s m n) }
  config : state.device.config = first.device.config
  count : state.device.sms.length = first.device.sms.length

theorem stands_first (h : first.kernel.At s m) : Stands first s m s first := by
  refine ⟨le_rfl, ?_, rfl, rfl⟩
  rw [← h.cta, handedOut, if_pos rfl, ← h.thread]

theorem Stands.at (h : Stands first s m n state) : state.kernel.At n (handedOut s m n) := by
  constructor <;> rw [h.kernel]

theorem Stands.handed_lt (h : Stands first s m n state) (hm : m < first.kernel.block.reach) :
    handedOut s m n < state.kernel.block.reach := by
  rw [h.kernel]
  unfold handedOut
  split
  · exact hm
  · exact (Nat.zero_le _).trans_lt hm

theorem Stands.more (h : Stands first s m n state) (hn : n < first.kernel.grid.reach) :
    state.kernel.ctasDone = false ↔ n < first.kernel.grid.volume := by
  have hiff := h.at.ctasDone (by rw [h.kernel]; exact hn)
  rwa [show state.kernel.grid = first.kernel.grid by rw [h.kernel]] at hiff

/-- The block that is opened is the one that the launch stands at. -/
theorem Stands.opens (h : Stands first s m n state) (hm : m < first.kernel.block.reach)
    (hn : n < first.kernel.grid.volume) (hopen : openCta warpsPerCta state = .ok opening) :
    opening.cta = ctaAt first.device first.kernel n ∧
      opening.threads =
        share first.kernel.block first.device.warpSize (handedOut s m n) ∧
      opening.kernel = { first.kernel with
        nextCta := first.kernel.grid.place n
        nextThread :=
          first.kernel.block.place (max (handedOut s m n) first.kernel.block.volume) } ∧
      ∃ sm, state.device.sms[opening.cta.sm]? = some sm ∧
        enter opening.cta.index warpsPerCta 0 opening.threads sm = .ok opening.admission := by
  obtain ⟨hcta, hthreads, hkernel, hsm⟩ :=
    openCta_cases h.at (by rw [h.kernel]; exact hn) (h.handed_lt hm) hopen
  have hblock : state.kernel.block = first.kernel.block := by rw [h.kernel]
  refine ⟨?_, ?_, ?_, hsm⟩
  · rw [hcta, ctaAt, ctaAt, h.count, hblock, h.kernel]
  · rw [hthreads, hblock, Device.warpSize, Device.warpSize, h.config]
  · rw [hkernel, hblock, h.kernel]

/-- The warps of block `f` in a launch that began at block `s` with `m` threads handed out. -/
def warpsOf (device : Device) (kernel : Kernel) (warpsPerCta : UInt32) (s m f : Nat) : List Warp :=
  named ((UInt32.ofNat f).toNat * warpsPerCta.toNat) 0
    (share kernel.block device.warpSize (handedOut s m f))

theorem Stands.takes (h : Stands first s m n state) (hm : m < first.kernel.block.reach)
    (hn : n < first.kernel.grid.volume) (hopen : openCta warpsPerCta state = .ok opening)
    (htaken : opening.admission.refused = false) :
    opening.admission.taken = warpsOf first.device first.kernel warpsPerCta s m n := by
  obtain ⟨hcta, hthreads, _, sm, _, henter⟩ := h.opens hm hn hopen
  rcases enter_cases henter with ⟨_, hnamed, _⟩ | ⟨href, _⟩
  · rw [hnamed, hcta, hthreads]
    rfl
  · rw [href] at htaken
    cases htaken

theorem length_warpsOf (device : Device) (kernel : Kernel) (s m f : Nat) :
    (warpsOf device kernel warpsPerCta s m f).length =
      (share kernel.block device.warpSize (handedOut s m f)).length :=
  length_named _ _ _

theorem Stands.length_taken (h : Stands first s m n state) (hm : m < first.kernel.block.reach)
    (hn : n < first.kernel.grid.volume) (hopen : openCta warpsPerCta state = .ok opening)
    (htaken : opening.admission.refused = false) :
    opening.admission.taken.length =
      (share first.kernel.block first.device.warpSize (handedOut s m n)).length := by
  rw [h.takes hm hn hopen htaken, length_warpsOf]

theorem threads_of_mem_warpsOf {device : Device} {kernel : Kernel} {f : Nat} {warp : Warp}
    (hd : device.Sound) (h : warp ∈ warpsOf device kernel warpsPerCta s m f) :
    warp.threads.length ≤ device.warpSize := by
  have hmem := List.mem_map_of_mem (f := Warp.threads) h
  rw [warpsOf, named_threads] at hmem
  exact (length_of_mem_share hd.warpSize_pos hmem).2

/-- No warp that is taken has more threads than lanes. -/
theorem Stands.short (h : Stands first s m n state) (hd : first.device.Sound)
    (hm : m < first.kernel.block.reach) (hn : n < first.kernel.grid.volume)
    (hopen : openCta warpsPerCta state = .ok opening) (htaken : opening.admission.refused = false) :
    ∀ warp ∈ opening.admission.taken, warp.threads.length ≤ first.device.warpSize := by
  intro warp hwarp
  rw [h.takes hm hn hopen htaken] at hwarp
  exact threads_of_mem_warpsOf hd hwarp

theorem Stands.advance (h : Stands first s m n state) (hm : m < first.kernel.block.reach)
    (hn : n < first.kernel.grid.volume)
    (hdone : executeCta plan warpsPerCta state = .ok (.done next)) :
    Stands first s m (n + 1) next := by
  obtain ⟨opening, front, hopen, _, _, hfin⟩ := executeCta_done hdone
  obtain ⟨_, _, hkernel, _⟩ := h.opens hm hn hopen
  obtain ⟨sm, _, hdevice⟩ := hfin.device
  have hle := h.le
  have hat : opening.kernel.At n (max (handedOut s m n) first.kernel.block.volume) := by
    rw [hkernel]
    exact ⟨rfl, rfl⟩
  have hadvance := hfin.kernel
  rw [hat.advanced (by rw [hkernel]; exact hn), Except.ok.injEq] at hadvance
  refine ⟨by omega, ?_, ?_, ?_⟩
  · have hzero : handedOut s m (n + 1) = 0 := if_neg (by omega)
    rw [← hadvance, hkernel, hzero, Dim3.place_zero]
  · rw [hdevice]
    exact h.config
  · rw [hdevice, List.length_set]
    exact h.count

/-- A run of some of the blocks that are left comes to the block after them, and keeps what each
of them keeps. -/
theorem Stands.after_keeps {Q : Nat → State σ α → Prop} {start : State σ α} {k : Nat}
    (h : Stands first s m n start) (hm : m < first.kernel.block.reach)
    (hk : k ≤ first.kernel.grid.volume - n) (hq : Q n start)
    (step : ∀ n state next, Stands first s m n state → n < first.kernel.grid.volume → Q n state →
      executeCta plan warpsPerCta state = .ok (.done next) → Q (n + 1) next)
    (hrun : run plan warpsPerCta k start = .ok (.done state)) :
    Stands first s m (n + k) state ∧ Q (n + k) state := by
  have hvolume := Dim3.volume_lt_reach first.kernel.grid
  induction k generalizing n start with
  | zero =>
    cases hrun
    exact ⟨h, hq⟩
  | succ k ih =>
    have hlt : n < first.kernel.grid.volume := by omega
    rw [run, (h.more (by omega)).mpr hlt] at hrun
    obtain ⟨result, hresult, hrun⟩ := Outcome.bind_eq_ok.mp hrun
    cases result with
    | refused warps refused => cases hrun
    | done next =>
      have hnext := ih (h.advance hm hlt hresult) (by omega) (step n start next h hlt hq hresult) hrun
      rwa [show n + (k + 1) = n + 1 + k by omega]

theorem Stands.after {start : State σ α} {k : Nat} (h : Stands first s m n start)
    (hm : m < first.kernel.block.reach) (hk : k ≤ first.kernel.grid.volume - n)
    (hrun : run plan warpsPerCta k start = .ok (.done state)) : Stands first s m (n + k) state :=
  (h.after_keeps (Q := fun _ _ => True) hm hk trivial (fun _ _ _ _ _ _ _ => trivial) hrun).1

/-- A launch that has no block left is done. -/
theorem Stands.ended (h : Stands first s m n state) (hn : n < first.kernel.grid.reach)
    (hover : first.kernel.grid.volume ≤ n) : state.kernel.ctasDone = true := by
  by_contra hleft
  have := (h.more hn).mp (by simpa using hleft)
  omega

/-- A launch that has blocks left after a run has done as many blocks as the run was to do. -/
theorem Stands.after_more {start : State σ α} {k : Nat} (h : Stands first s m n start)
    (hn : n < first.kernel.grid.reach) (hm : m < first.kernel.block.reach)
    (hrun : run plan warpsPerCta k start = .ok (.done state))
    (hmore : state.kernel.ctasDone = false) : n + k < first.kernel.grid.volume := by
  have hvolume := Dim3.volume_lt_reach first.kernel.grid
  by_contra hover
  have hj : first.kernel.grid.volume - n ≤ k := by omega
  rcases run_split hrun hj with ⟨mid, hmid, hrest⟩ | ⟨_, _, hrefused, _⟩
  · have hdone := (h.after hm le_rfl hmid).ended (by omega) (by omega)
    rw [run_ended _ hdone] at hrest
    cases hrest
    rw [hdone] at hmore
    cases hmore
  · cases hrefused

/-- What every block of a launch keeps, the launch keeps up to the end of the grid or up to a
block that is refused. -/
theorem run_stands {Q : Nat → State σ α → Prop} {limit : Nat} {last : BlockEnd σ α}
    (hat : first.kernel.At s m) (hs : s < first.kernel.grid.reach)
    (hm : m < first.kernel.block.reach) (hfirst : Q s first)
    (step : ∀ n state next, Stands first s m n state → n < first.kernel.grid.volume → Q n state →
      executeCta plan warpsPerCta state = .ok (.done next) → Q (n + 1) next)
    (h : run plan warpsPerCta limit first = .ok last) :
    ∃ n final, Stands first s m n final ∧ n < first.kernel.grid.reach ∧ Q n final ∧
      ((last = .done final ∧ (first.kernel.grid.volume ≤ s + limit →
          first.kernel.grid.volume ≤ n ∧ n - s = first.kernel.grid.volume - s)) ∨
        ∃ warps refused, last = .refused warps refused ∧ n < first.kernel.grid.volume ∧
          executeCta plan warpsPerCta final = .ok (.refused warps refused)) := by
  have hvolume := Dim3.volume_lt_reach first.kernel.grid
  obtain ⟨k, final, ⟨n, hstands, hreach, hn, hk, hq⟩, hlast⟩ := run_keeps
    (P := fun k state => ∃ n, Stands first s m n state ∧ n < first.kernel.grid.reach ∧
      n - s ≤ first.kernel.grid.volume - s ∧ s + limit = n + k ∧ Q n state)
    (by
      rintro k state next ⟨n, hstands, hreach, hn, hk, hq⟩ hmore hdone
      have hlt := (hstands.more hreach).mp hmore
      have hle := hstands.le
      exact ⟨n + 1, hstands.advance hm hlt hdone, by omega, by omega, by omega,
        step n state next hstands hlt hq hdone⟩)
    ⟨s, stands_first hat, hs, by omega, rfl, hfirst⟩ h
  refine ⟨n, final, hstands, hreach, hq, ?_⟩
  rcases hlast with ⟨hlast, hend⟩ | ⟨warps, refused, hlast, _, hmore, hresult⟩
  · refine Or.inl ⟨hlast, fun hlimit => ?_⟩
    have hle := hstands.le
    have hover : first.kernel.grid.volume ≤ n := by
      rcases hend with rfl | hdone
      · omega
      · by_contra hlt
        rw [(hstands.more hreach).mpr (by omega)] at hdone
        cases hdone
    exact ⟨hover, by omega⟩
  · exact Or.inr ⟨warps, refused, hlast, (hstands.more hreach).mp hmore, hresult⟩

/-- What every block of a launch keeps holds wherever the launch stands between two blocks. -/
theorem run_done_stands {Q : Nat → State σ α → Prop} {limit : Nat}
    (hat : first.kernel.At s m) (hs : s < first.kernel.grid.reach)
    (hm : m < first.kernel.block.reach) (hfirst : Q s first)
    (step : ∀ n state next, Stands first s m n state → n < first.kernel.grid.volume → Q n state →
      executeCta plan warpsPerCta state = .ok (.done next) → Q (n + 1) next)
    (h : run plan warpsPerCta limit first = .ok (.done state)) :
    ∃ n, Stands first s m n state ∧ n < first.kernel.grid.reach ∧ Q n state := by
  obtain ⟨n, final, hstands, hreach, hq, hlast⟩ := run_stands hat hs hm hfirst step h
  rcases hlast with ⟨hlast, _⟩ | ⟨_, _, hlast, _⟩
  · cases hlast
    exact ⟨n, hstands, hreach, hq⟩
  · cases hlast

/-- Where every block that a launch comes to goes through, the launch goes through. -/
theorem run_stands_ok {Q : Nat → State σ α → Prop} {limit : Nat}
    (hat : first.kernel.At s m) (hs : s < first.kernel.grid.reach)
    (hm : m < first.kernel.block.reach) (hfirst : Q s first)
    (step : ∀ n state, Stands first s m n state → n < first.kernel.grid.volume → Q n state →
      ∃ last, executeCta plan warpsPerCta state = .ok last ∧
        ∀ next, last = .done next → Q (n + 1) next) :
    ∃ last, run plan warpsPerCta limit first = .ok last := by
  have hvolume := Dim3.volume_lt_reach first.kernel.grid
  refine run_ok (P := fun _ state => ∃ n, Stands first s m n state ∧
    n < first.kernel.grid.reach ∧ Q n state) ?_ ⟨s, stands_first hat, hs, hfirst⟩
  rintro k state ⟨n, hstands, hreach, hq⟩ hmore
  have hlt := (hstands.more hreach).mp hmore
  obtain ⟨last, hlast, hkeep⟩ := step n state hstands hlt hq
  refine ⟨last, hlast, fun next hnext => ⟨n + 1, ?_, by omega, hkeep next hnext⟩⟩
  subst hnext
  exact hstands.advance hm hlt hlast

/-! ## Devices with no live warp -/

/-- No warp is live, and every SM has released as many barriers more as the gain says. -/
structure Calm (before : Device) (gain : Nat → Nat) (device : Device) : Prop where
  quiet : ∀ sm ∈ device.sms, sm.liveIds = ∅ ∧ sm.config = before.config
  released : ∀ i sm, device.sms[i]? = some sm →
    ∃ sm₀, before.sms[i]? = some sm₀ ∧ sm.released.toNat = sm₀.released.toNat + gain i

theorem calm_refl {device : Device} (hd : device.Sound)
    (hq : ∀ sm ∈ device.sms, sm.liveWarps = 0) : Calm device (fun _ => 0) device where
  quiet sm hsm := by
    refine ⟨?_, hd.shared sm hsm⟩
    rw [← Finset.card_eq_zero, ← Sm.liveWarps_eq_card]
    exact hq sm hsm
  released i sm hsm := ⟨sm, hsm, rfl⟩

/-- An SM takes every warp of a block that has no more warps than the SM has places. -/
theorem Calm.takes {before : Device} {gain : Nat → Nat} (hc : Calm before gain state.device)
    (h : Stands first s m n state) (hm : m < first.kernel.block.reach)
    (hn : n < first.kernel.grid.volume)
    (hplaces : (share first.kernel.block first.device.warpSize (handedOut s m n)).length ≤
      before.config.maxWarps.toNat)
    (hopen : openCta warpsPerCta state = .ok opening) : opening.admission.refused = false := by
  obtain ⟨_, hthreads, _, sm, hsm, henter⟩ := h.opens hm hn hopen
  obtain ⟨hlive, hconf⟩ := hc.quiet sm (List.mem_of_getElem? hsm)
  by_contra href
  have hlt := enter_refused henter (by simpa using href)
  rw [Sm.liveWarps_eq_card, hlive, hconf, hthreads, Finset.card_empty] at hlt
  omega

/-- A block that is taken on a calm device is hosted alone. -/
theorem Calm.hosts {before : Device} {gain : Nat → Nat} (hc : Calm before gain state.device)
    (h : Stands first s m n state) (hm : m < first.kernel.block.reach)
    (hn : n < first.kernel.grid.volume)
    (hwords : (share first.kernel.block first.device.warpSize (handedOut s m n)).length ≤
      UInt32.size)
    (hopen : openCta warpsPerCta state = .ok opening) :
    opening.admission.sm.Hosts opening.cta.index (opening.admission.taken.map Warp.id) 0 ∧
      ∃ sm, state.device.sms[opening.cta.sm]? = some sm ∧
        opening.admission.sm.released = sm.released ∧ opening.admission.sm.config = sm.config := by
  obtain ⟨_, hthreads, _, sm, hsm, henter⟩ := h.opens hm hn hopen
  obtain ⟨hlive, _⟩ := hc.quiet sm (List.mem_of_getElem? hsm)
  rw [hthreads] at henter
  have hhost := enter_hosts (Sm.hosts_nil _ hlive)
    (by rw [List.nil_append]; exact named_nodup hwords) henter
  exact ⟨by simpa using hhost, sm, hsm, enter_same henter⟩

/-- The threads of a block that is done can be counted by a word. -/
theorem Stands.words (h : Stands first s m n state) (hd : first.device.Sound)
    (hm : m < first.kernel.block.reach) (hn : n < first.kernel.grid.volume)
    (hdone : executeCta plan warpsPerCta state = .ok (.done next)) :
    first.kernel.block.volume - handedOut s m n < UInt32.size := by
  obtain ⟨opening, front, hopen, _, _, hfin⟩ := executeCta_done hdone
  have hstats := hfin.stats
  rw [(h.opens hm hn hopen).2.1] at hstats
  have hthreads := (addBlock_cases hd.warpSize_pos hd.warpSize_le hstats).2.2.1
  have hlt := next.stats.threads.toNat_lt_size
  omega

/-- A block that is done leaves the device calm. Its SM has released as many barriers more as
the program has, and none for a block without warps. -/
theorem Calm.advance {before : Device} {gain : Nat → Nat} (hc : Calm before gain state.device)
    (h : Stands first s m n state) (hd : first.device.Sound)
    (hm : m < first.kernel.block.reach) (hn : n < first.kernel.grid.volume)
    (hdone : executeCta plan warpsPerCta state = .ok (.done next)) :
    Calm before (fun i => gain i +
      if i = (ctaAt first.device first.kernel n).sm ∧
          share first.kernel.block first.device.warpSize (handedOut s m n) ≠ [] then
        plan.program.countP (·.op = .barrier)
      else 0) next.device := by
  have hwords := (length_share_le first.kernel.block hd.warpSize_pos (handedOut s m n)).trans
    (h.words hd hm hn hdone).le
  obtain ⟨opening, front, hopen, htaken, hissue, hfin⟩ := executeCta_done hdone
  have hcta := (h.opens hm hn hopen).1
  obtain ⟨hhost, sm, hsm, hreleased, hconf⟩ := hc.hosts h hm hn hwords hopen
  have hwarps := h.takes hm hn hopen htaken
  obtain ⟨hhost', hcount, hconf'⟩ := issueAll_hosts hhost hissue
  obtain ⟨t, ht, hlive, hreleased', hconf''⟩ := leave_hosts hhost'
  obtain ⟨u, hu, hdevice⟩ := hfin.device
  rw [ht, Except.ok.injEq] at hu
  subst hu
  have hnil : opening.admission.taken = [] ↔
      share first.kernel.block first.device.warpSize (handedOut s m n) = [] := by
    rw [hwarps, ← List.length_eq_zero_iff, length_warpsOf, List.length_eq_zero_iff]
  rw [hdevice]
  constructor
  · intro v hv
    rcases List.mem_or_eq_of_mem_set hv with hv | rfl
    · exact hc.quiet v hv
    · refine ⟨hlive, ?_⟩
      rw [hconf'', hconf']
      exact hconf.trans (hc.quiet sm (List.mem_of_getElem? hsm)).2
  · intro i v hv
    have hlen := (List.getElem?_eq_some_iff.mp hsm).1
    by_cases hi : opening.cta.sm = i
    · subst hi
      rw [List.getElem?_set_self hlen, Option.some.injEq] at hv
      subst hv
      obtain ⟨sm₀, hsm₀, hgain⟩ := hc.released _ sm hsm
      refine ⟨sm₀, hsm₀, ?_⟩
      have hstart : (opening.front state).sm.released = sm.released := hreleased
      rw [hreleased', hcount, hstart, hgain, ← hcta]
      simp only [hnil, true_and, ne_eq, ite_not]
      omega
    · rw [List.getElem?_set_ne hi] at hv
      obtain ⟨sm₀, hsm₀, hgain⟩ := hc.released i v hv
      refine ⟨sm₀, hsm₀, ?_⟩
      rw [hgain, if_neg, Nat.add_zero]
      rintro ⟨rfl, _⟩
      rw [hcta] at hi
      exact hi rfl

/-! ## Where a launch begins -/

/-- A launch of a bound kernel whose blocks fit on an SM, before its first block. -/
structure Begins (device : Device) (kernel : Kernel) (folder : Folder) (host : σ)
    (warpsPerCta : UInt32) (first : State σ α) : Prop where
  bound : kernel.bound = true
  size : ∃ threads, kernel.threadsPerCta = .ok threads
  lanes : device.warpSize ≠ 0
  fits : warpsNeeded kernel.block.volume device.warpSize ≤ device.config.maxWarps.toNat
  warps : warpsPerCta = UInt32.ofNat (warpsNeeded kernel.block.volume device.warpSize)
  start : ∃ slot, Slot.new device.warpSize = .ok slot ∧ first = start device kernel folder host slot

theorem Begins.at {device : Device} {kernel : Kernel} {folder : Folder} {host : σ}
    (hb : Begins device kernel folder host warpsPerCta first)
    (hat : kernel.At s m) : first.device = device ∧ first.kernel = kernel ∧ first.kernel.At s m := by
  obtain ⟨slot, _, rfl⟩ := hb.start
  exact ⟨rfl, rfl, hat⟩

/-- A launch begins with a slot at rest. -/
theorem Begins.idle {device : Device} {kernel : Kernel} {folder : Folder} {host : σ}
    (hb : Begins device kernel folder host warpsPerCta first) (hd : device.Sound) :
    first.slot.Idle device.warpSize := by
  obtain ⟨slot, hslot, rfl⟩ := hb.start
  obtain ⟨u, hu, hidle⟩ := Slot.new_ok (α := α) hd.warpSize_le
  rw [hslot, Except.ok.injEq] at hu
  subst hu
  exact hidle

/-- What a launch reports of its last block. -/
def BlockEnd.report (places : Nat) : BlockEnd σ α → LaunchReport σ
  | .done state => ⟨state.device, state.kernel, state.folder, state.host, .ok state.stats⟩
  | .refused warps state =>
    ⟨state.device, state.kernel, state.folder, state.host, .error (.ctaTooLarge warps places)⟩

theorem launch_unbound {device : Device} {kernel : Kernel} (plan : LaunchPlan σ α) (folder : Folder)
    (host : σ) (hbound : kernel.bound = false) :
    launch plan device kernel folder host = .ok ⟨device, kernel, folder, host, .ok .zero⟩ := by
  rw [launch, hbound]
  rfl

/-- The warps of a block are counted on a device that has lanes. -/
theorem divCeil_block {block : Dim3} {threads : UInt64} {width : Nat} (h : block.size = .ok threads)
    (hw : width ≠ 0) : Word.divCeil threads.toNat width = .ok (warpsNeeded block.volume width) :=
  Word.divCeil_eq_ok.mpr ⟨hw, by rw [Dim3.size_eq_ok h, warpsNeeded]⟩

/-- A launch is turned down where an SM could not hold a block. -/
theorem launch_too_large {device : Device} {kernel : Kernel} (plan : LaunchPlan σ α)
    (folder : Folder) (host : σ) (hd : device.Sound) (hbound : kernel.bound = true)
    (hsize : kernel.block.volume < UInt64.size)
    (hlarge : device.config.maxWarps.toNat < warpsNeeded kernel.block.volume device.warpSize) :
    launch plan device kernel folder host = .ok ⟨device, kernel, folder, host, .error (.ctaTooLarge
      (warpsNeeded kernel.block.volume device.warpSize) device.config.maxWarps.toNat)⟩ := by
  obtain ⟨threads, hthreads⟩ := Dim3.size_ok hsize
  have hwarps := divCeil_block hthreads hd.warpSize_pos.ne'
  rw [launch, hbound, Kernel.threadsPerCta, hthreads]
  simp only [Bool.not_true, Bool.false_eq_true, if_false, Outcome.ok_bind, hwarps, hlarge, if_true]
  rfl

theorem begins_ok {device : Device} {kernel : Kernel} (folder : Folder) (host : σ)
    (hd : device.Sound) (hbound : kernel.bound = true) (hsize : kernel.block.volume < UInt64.size)
    (hfits : warpsNeeded kernel.block.volume device.warpSize ≤ device.config.maxWarps.toNat) :
    ∃ first, Begins (α := α) device kernel folder host
      (UInt32.ofNat (warpsNeeded kernel.block.volume device.warpSize)) first := by
  obtain ⟨slot, hslot, _⟩ := Slot.new_ok (α := α) hd.warpSize_le
  exact ⟨_, hbound, Dim3.size_ok hsize, hd.warpSize_pos.ne', hfits, rfl, slot, hslot, rfl⟩

/-- A launch that begins goes through where its run does. -/
theorem Begins.launch {device : Device} {kernel : Kernel} {folder : Folder} {host : σ}
    {last : BlockEnd σ α} (hb : Begins device kernel folder host warpsPerCta first)
    (hrun : run plan warpsPerCta kernel.grid.volume first = .ok last) :
    launch plan device kernel folder host = .ok (last.report device.config.maxWarps.toNat) := by
  obtain ⟨threads, hthreads⟩ := hb.size
  have hwarps := divCeil_block hthreads hb.lanes
  obtain ⟨slot, hslot, rfl⟩ := hb.start
  rw [hb.warps] at hrun
  rw [Simt.launch, hb.bound, hthreads]
  simp only [Bool.not_true, Bool.false_eq_true, if_false, Outcome.ok_bind, hwarps, hslot, hrun,
    Nat.not_lt.mpr hb.fits]
  cases last <;> rfl

/-- A launch of a bound kernel is turned down before anything happens, or runs. -/
theorem launch_cases {device : Device} {kernel : Kernel} {folder : Folder} {host : σ}
    {report : LaunchReport σ} (hbound : kernel.bound = true)
    (h : launch plan device kernel folder host = .ok report) :
    (device.config.maxWarps.toNat < warpsNeeded kernel.block.volume device.warpSize ∧
      report = ⟨device, kernel, folder, host, .error (.ctaTooLarge
        (warpsNeeded kernel.block.volume device.warpSize) device.config.maxWarps.toNat)⟩) ∨
    ∃ warpsPerCta first last, Begins (α := α) device kernel folder host warpsPerCta first ∧
      run plan warpsPerCta kernel.grid.volume first = .ok last ∧
      report = last.report device.config.maxWarps.toNat := by
  rw [launch, hbound] at h
  obtain ⟨threads, hthreads, h⟩ := Outcome.bind_eq_ok.mp h
  obtain ⟨warps, hwarps, h⟩ := Outcome.bind_eq_ok.mp h
  have hlanes := (Word.divCeil_eq_ok.mp hwarps).1
  rw [divCeil_block hthreads hlanes, Except.ok.injEq] at hwarps
  subst hwarps
  simp only at h
  split at h
  · rename_i hlarge
    cases h
    exact Or.inl ⟨hlarge, rfl⟩
  · rename_i hfits
    obtain ⟨slot, hslot, h⟩ := Outcome.bind_eq_ok.mp h
    obtain ⟨last, hrun, h⟩ := Outcome.bind_eq_ok.mp h
    refine Or.inr ⟨_, _, last, ⟨hbound, ⟨threads, hthreads⟩, hlanes, Nat.not_lt.mp hfits, rfl, slot,
      hslot, rfl⟩, hrun, ?_⟩
    cases last <;> cases h <;> rfl

/-- What each issue keeps of the host and of the count of delivered work, a block keeps that is
done. -/
theorem Stands.keeps {P : σ → UInt64 → Prop} (h : Stands first s m n state)
    (hc : plan.hook.Confined first.device.warpSize) (hd : first.device.Sound)
    (hm : m < first.kernel.block.reach) (hn : n < first.kernel.grid.volume)
    (step : ∀ (folder : Folder) (cta : Cta) (inst : Instruction) (warp : Warp)
      (front next : Front σ α) (slot edited : Slot α) (host : σ),
      Issue plan.hook folder cta inst warp front next slot edited host →
      front.slot.Idle first.device.warpSize → warp.threads.length ≤ first.device.warpSize →
      P front.host front.atomics → P next.host next.atomics)
    (hidle : state.slot.Idle first.device.warpSize) (hp : P state.host state.stats.atomics)
    (hdone : executeCta plan warpsPerCta state = .ok (.done next)) :
    next.slot.Idle first.device.warpSize ∧ P next.host next.stats.atomics := by
  obtain ⟨opening, front, hopen, htaken, hissue, hfin⟩ := executeCta_done hdone
  have hstats := hfin.stats
  rw [(h.opens hm hn hopen).2.1] at hstats
  obtain ⟨_, _, _, _, hatomics, _⟩ := addBlock_cases hd.warpSize_pos hd.warpSize_le hstats
  have hrests : (opening.front state).slot.Idle first.device.warpSize := hidle
  have hlook := outlook_first plan.program hrests (h.short hd hm hn hopen htaken)
  obtain ⟨hend, hkept⟩ := issueAll_keeps (P := fun front => P front.host front.atomics) hc
    hd.warpSize_le (step state.folder opening.cta) hlook hp hissue
  rw [hfin.slot, hfin.host, hatomics]
  exact ⟨hend.idle, hkept⟩

/-- What each issue keeps of the host and of the count of delivered work holds at the end of a
launch, also of one that is refused. -/
theorem launch_keeps_counted {P : σ → UInt64 → Prop} {device : Device} {kernel : Kernel}
    {folder : Folder} {host : σ} {report : LaunchReport σ}
    (hc : plan.hook.Confined device.warpSize) (hd : device.Sound) (hat : kernel.At s m)
    (hs : s < kernel.grid.reach) (hm : m < kernel.block.reach)
    (step : ∀ (folder : Folder) (cta : Cta) (inst : Instruction) (warp : Warp)
      (front next : Front σ α) (slot edited : Slot α) (host : σ),
      Issue plan.hook folder cta inst warp front next slot edited host →
      front.slot.Idle device.warpSize → warp.threads.length ≤ device.warpSize →
      P front.host front.atomics → P next.host next.atomics)
    (hfirst : P host 0) (h : launch plan device kernel folder host = .ok report) :
    ∃ atomics, P report.host atomics ∧
      ∀ stats, report.result = .ok stats → stats.atomics = atomics := by
  cases hbound : kernel.bound with
  | false =>
    rw [launch_unbound plan folder host hbound] at h
    cases h
    refine ⟨0, hfirst, ?_⟩
    rintro _ ⟨⟩
    rfl
  | true =>
    rcases launch_cases hbound h with ⟨_, rfl⟩ | ⟨warpsPerCta, first, last, hbegins, hrun, rfl⟩
    · exact ⟨0, hfirst, by rintro _ ⟨⟩⟩
    · have hidle := hbegins.idle hd
      obtain ⟨slot, _, rfl⟩ := hbegins.start
      obtain ⟨n, final, _, _, hkept, hlast⟩ := run_stands
        (Q := fun _ state => state.slot.Idle device.warpSize ∧ P state.host state.stats.atomics)
        hat hs hm ⟨hidle, hfirst⟩
        (fun n state next hst hn hkept hdone =>
          hst.keeps hc hd hm hn step hkept.1 hkept.2 hdone) hrun
      refine ⟨final.stats.atomics, ?_⟩
      rcases hlast with ⟨rfl, _⟩ | ⟨warps, refused, rfl, _, hrefused⟩
      · refine ⟨hkept.2, ?_⟩
        rintro _ ⟨⟩
        rfl
      · obtain ⟨_, _, _, _, _, _, rfl⟩ := executeCta_refused hrefused
        exact ⟨hkept.2, by rintro _ ⟨⟩⟩

theorem launch_keeps {P : σ → UInt64 → Prop} {device : Device} {kernel : Kernel} {folder : Folder}
    {host : σ} {report : LaunchReport σ} {stats : Stats} (hc : plan.hook.Confined device.warpSize)
    (hd : device.Sound) (hat : kernel.At s m) (hs : s < kernel.grid.reach)
    (hm : m < kernel.block.reach)
    (step : ∀ (folder : Folder) (cta : Cta) (inst : Instruction) (warp : Warp)
      (front next : Front σ α) (slot edited : Slot α) (host : σ),
      Issue plan.hook folder cta inst warp front next slot edited host →
      front.slot.Idle device.warpSize → warp.threads.length ≤ device.warpSize →
      P front.host front.atomics → P next.host next.atomics)
    (hfirst : P host 0) (h : launch plan device kernel folder host = .ok report)
    (hok : report.result = .ok stats) : P report.host stats.atomics := by
  obtain ⟨atomics, hkept, hcount⟩ := launch_keeps_counted hc hd hat hs hm step hfirst h
  rwa [hcount stats hok]

/-- What each issue keeps of the host, a launch keeps. -/
theorem launch_keeps_host {P : σ → Prop} {device : Device} {kernel : Kernel} {folder : Folder}
    {host : σ} {report : LaunchReport σ} (hc : plan.hook.Confined device.warpSize)
    (hd : device.Sound) (hat : kernel.At s m) (hs : s < kernel.grid.reach)
    (hm : m < kernel.block.reach)
    (step : ∀ (folder : Folder) (cta : Cta) (inst : Instruction) (warp : Warp)
      (front next : Front σ α) (slot edited : Slot α) (host : σ),
      Issue plan.hook folder cta inst warp front next slot edited host →
      front.slot.Idle device.warpSize → P front.host → P next.host)
    (hfirst : P host) (h : launch plan device kernel folder host = .ok report) : P report.host := by
  obtain ⟨_, hkept, _⟩ := launch_keeps_counted (P := fun host _ => P host) hc hd hat hs hm
    (fun _ _ _ _ _ _ _ _ _ hissue hidle _ hp => step _ _ _ _ _ _ _ _ _ hissue hidle hp) hfirst h
  exact hkept

/-! ## Where a launch comes -/

/-- A launch comes to a block: it has begun, and the blocks before are done. -/
structure Comes (plan : LaunchPlan σ α) (device : Device) (kernel : Kernel) (folder : Folder)
    (host : σ) (warpsPerCta : UInt32) (state : State σ α) : Prop where
  before : ∃ first blocks, Begins device kernel folder host warpsPerCta first ∧
    run plan warpsPerCta blocks first = .ok (.done state)
  more : state.kernel.ctasDone = false

/-- What every block of a launch keeps holds where the launch comes to a block. -/
theorem Comes.stands {device : Device} {kernel : Kernel} {folder : Folder} {host : σ}
    {Q : State σ α → Nat → State σ α → Prop}
    (h : Comes plan device kernel folder host warpsPerCta state)
    (hat : kernel.At s m) (hs : s < kernel.grid.reach) (hm : m < kernel.block.reach)
    (hfirst : ∀ first, Begins device kernel folder host warpsPerCta first → Q first s first)
    (step : ∀ first, first.device = device → first.kernel = kernel → ∀ n state next,
      Stands first s m n state → n < kernel.grid.volume → Q first n state →
      executeCta plan warpsPerCta state = .ok (.done next) → Q first (n + 1) next) :
    ∃ first n, first.device = device ∧ first.kernel = kernel ∧ Stands first s m n state ∧
      n < kernel.grid.volume ∧ Q first n state := by
  obtain ⟨⟨first, blocks, hbegins, hbefore⟩, hmore⟩ := h
  have hq := hfirst first hbegins
  obtain ⟨hdevice, rfl, hat⟩ := hbegins.at hat
  obtain ⟨n, hstands, hreach, hq⟩ := run_done_stands hat hs hm hq (step first hdevice rfl) hbefore
  exact ⟨first, n, hdevice, rfl, hstands, (hstands.more hreach).mp hmore, hq⟩

/-- A launch that is refused was turned down at once, or has come to a block that was refused. -/
theorem refused_comes {device : Device} {kernel : Kernel} {folder : Folder} {host : σ}
    {report : LaunchReport σ} {e : ModelError} (hbound : kernel.bound = true)
    (h : launch plan device kernel folder host = .ok report) (herr : report.result = .error e) :
    (device.config.maxWarps.toNat < warpsNeeded kernel.block.volume device.warpSize ∧
      report = ⟨device, kernel, folder, host, .error (.ctaTooLarge
        (warpsNeeded kernel.block.volume device.warpSize) device.config.maxWarps.toNat)⟩) ∨
    ∃ warpsPerCta state warps refused, Comes plan device kernel folder host warpsPerCta state ∧
      executeCta plan warpsPerCta state = .ok (.refused warps refused) ∧
      report = BlockEnd.report device.config.maxWarps.toNat (.refused warps refused) := by
  rcases launch_cases hbound h with hlarge | ⟨warpsPerCta, first, last, hbegins, hrun, hreport⟩
  · exact Or.inl hlarge
  · obtain ⟨_, final, ⟨blocks, hbefore⟩, hlast⟩ := run_keeps
      (P := fun _ state => ∃ blocks, run plan warpsPerCta blocks first = .ok (.done state))
      (fun _ state next ⟨blocks, hbefore⟩ hmore hdone =>
        ⟨blocks + 1, run_succ hbefore hmore hdone⟩) ⟨0, rfl⟩ hrun
    rcases hlast with ⟨rfl, _⟩ | ⟨warps, refused, rfl, _, hmore, hrefused⟩
    · subst hreport
      cases herr
    · exact Or.inr ⟨warpsPerCta, final, warps, refused, ⟨⟨first, blocks, hbegins, hbefore⟩, hmore⟩,
        hrefused, hreport⟩

end Simt.Launch
