-- One block of a launch. A block that goes through has been opened, issued and left; a
-- block that is refused has been opened and left. Both leave the rest of the device alone.
import Simt.Proofs.Kernel
import Simt.Proofs.Launch.Admission
import Simt.Proofs.Launch.Schedule

namespace Simt.Launch

variable {σ α : Type} {plan : LaunchPlan σ α} {warpsPerCta : UInt32} {state next : State σ α}
  {opening : Opening} {width m n : Nat}

/-! ## The threads of a block -/

/-- No warp is without threads. -/
theorem warpsNeeded_le (hw : 0 < width) (threads : Nat) : warpsNeeded threads width ≤ threads := by
  rw [warpsNeeded, ← Nat.lt_succ_iff, Nat.div_lt_iff_lt_mul hw, Nat.succ_mul]
  have := Nat.le_mul_of_pos_right threads hw
  omega

/-- The threads of a block for each of its warps, where `m` threads were handed out before. -/
def share (block : Dim3) (width m : Nat) : List (List UInt32) :=
  pieces width ((List.range' m (block.volume - m)).map UInt32.ofNat)

theorem length_share (block : Dim3) (hw : 0 < width) (m : Nat) :
    (share block width m).length = warpsNeeded (block.volume - m) width := by
  rw [share, length_pieces hw, List.length_map, List.length_range', warpsNeeded]

theorem length_of_mem_share {block : Dim3} (hw : 0 < width) {ts : List UInt32}
    (h : ts ∈ share block width m) : 0 < ts.length ∧ ts.length ≤ width :=
  length_of_mem_pieces hw h

theorem sum_share (block : Dim3) (hw : 0 < width) (hmax : width ≤ maxWarpSize) (m : Nat) :
    (((share block width m).map fun ts => UInt32.ofNat ts.length).map UInt32.toNat).sum =
      block.volume - m := by
  rw [List.map_map]
  have hlen : (share block width m).map (UInt32.toNat ∘ fun ts => UInt32.ofNat ts.length) =
      (share block width m).map List.length := by
    refine List.map_congr_left fun ts hts => ?_
    have hle := (length_of_mem_share hw hts).2
    exact UInt32.toNat_ofNat_of_lt' (by unfold maxWarpSize at hmax; simp only [UInt32.size]; omega)
  rw [hlen, share, sum_length_pieces hw, List.length_map, List.length_range']

theorem length_share_le (block : Dim3) (hw : 0 < width) (m : Nat) :
    (share block width m).length ≤ block.volume - m := by
  rw [length_share block hw]
  exact warpsNeeded_le hw _

/-! ## The counts -/

/-- A block that is counted has as many threads as a word can count, and as many warps. -/
theorem addBlock_cases {stats counted : Stats} {block : Dim3} (hw : 0 < width)
    (hmax : width ≤ maxWarpSize)
    (h : Stats.addBlock stats (share block width m) = .ok counted) :
    counted.blocks.toNat = stats.blocks.toNat + 1 ∧
      counted.warps.toNat = stats.warps.toNat + (share block width m).length ∧
      counted.threads.toNat = stats.threads.toNat + (block.volume - m) ∧
      counted.issued = stats.issued ∧ counted.atomics = stats.atomics ∧
      counted.cycles = stats.cycles := by
  obtain ⟨blocks, hblocks, h⟩ := Outcome.bind_eq_ok.mp h
  obtain ⟨warps, hwarps, h⟩ := Outcome.bind_eq_ok.mp h
  obtain ⟨size, hsize, h⟩ := Outcome.bind_eq_ok.mp h
  obtain ⟨threads, hthreads, h⟩ := Outcome.bind_eq_ok.mp h
  cases h
  have hsum := Word.sum32_eq_ok hsize
  rw [sum_share block hw hmax] at hsum
  have hlt := size.toNat_lt_size
  have hlen := length_share_le block hw m
  refine ⟨Word.add32_eq_ok.mp hblocks, ?_, ?_, rfl, rfl, rfl⟩
  · rw [Word.add32_eq_ok.mp hwarps, UInt32.toNat_ofNat_of_lt' (by omega)]
  · rw [Word.add32_eq_ok.mp hthreads, hsum]

theorem addBlock_ok {stats : Stats} {block : Dim3} (hw : 0 < width) (hmax : width ≤ maxWarpSize)
    (hblocks : stats.blocks.toNat + 1 < UInt32.size)
    (hwarps : stats.warps.toNat + (share block width m).length < UInt32.size)
    (hthreads : stats.threads.toNat + (block.volume - m) < UInt32.size) :
    ∃ counted, Stats.addBlock stats (share block width m) = .ok counted := by
  have hsum := sum_share block hw hmax m
  obtain ⟨blocks, h1⟩ := Word.add32_ok (a := stats.blocks) (b := 1) hblocks
  obtain ⟨warps, h2⟩ := Word.add32_ok (a := stats.warps)
    (b := UInt32.ofNat (share block width m).length)
    (by rw [UInt32.toNat_ofNat_of_lt' (by omega)]; omega)
  obtain ⟨size, h3⟩ : ∃ size, Word.sum32 ((share block width m).map fun ts =>
      UInt32.ofNat ts.length) = .ok size := Word.sum32_ok (by omega)
  obtain ⟨threads, h4⟩ := Word.add32_ok (a := stats.threads) (b := size)
    (by rw [Word.sum32_eq_ok h3, hsum]; omega)
  simp only [Stats.addBlock, h1, h2, h3, h4, Outcome.ok_bind]
  exact ⟨_, rfl⟩

theorem countBlock_cases {id : Nat} {counts counted : List UInt32}
    (h : countBlock id counts = .ok counted) :
    ∃ count more, counts[id]? = some count ∧ more.toNat = count.toNat + 1 ∧
      counted = counts.set id more := by
  unfold countBlock at h
  split at h
  · cases h
  · rename_i count hcount
    obtain ⟨more, hmore, h⟩ := Outcome.bind_eq_ok.mp h
    cases h
    exact ⟨count, more, hcount, Word.add32_eq_ok.mp hmore, rfl⟩

theorem countBlock_ok {id : Nat} {counts : List UInt32} (hid : id < counts.length)
    (hroom : ∀ count ∈ counts, count.toNat + 1 < UInt32.size) :
    ∃ counted, countBlock id counts = .ok counted := by
  have hget := List.getElem?_eq_getElem hid
  obtain ⟨more, hmore⟩ := Word.add32_ok (b := 1) (hroom counts[id] (List.getElem_mem hid))
  simp only [countBlock, hget, hmore, Outcome.ok_bind]
  exact ⟨_, rfl⟩

/-! ## How a block opens -/

/-- The block with a number, as the warps of it see it. -/
def ctaAt (device : Device) (kernel : Kernel) (n : Nat) : Cta where
  sm := (UInt32.ofNat n).toNat % device.sms.length
  place := kernel.grid.place n
  index := UInt32.ofNat n
  block := kernel.block

/-- A block is opened on an SM of the device, which is asked to take the warps. -/
theorem openCta_sm (h : openCta warpsPerCta state = .ok opening) :
    ∃ sm, state.device.sms[opening.cta.sm]? = some sm ∧
      enter opening.cta.index warpsPerCta 0 opening.threads sm = .ok opening.admission := by
  obtain ⟨index, _, h⟩ := Outcome.bind_eq_ok.mp h
  obtain ⟨smId, _, h⟩ := Outcome.bind_eq_ok.mp h
  obtain ⟨⟨threads, kernel⟩, _, h⟩ := Outcome.bind_eq_ok.mp h
  dsimp only at h
  split at h
  · cases h
  · rename_i sm hsm
    obtain ⟨admission, henter, h⟩ := Outcome.bind_eq_ok.mp h
    cases h
    exact ⟨sm, hsm, henter⟩

@[simp] theorem front_sm (opening : Opening) (state : State σ α) :
    (opening.front state).sm = opening.admission.sm := rfl

/-- What is opened where the kernel stands at block `n`, with `m` threads handed out. -/
theorem openCta_cases (hat : state.kernel.At n m) (hn : n < state.kernel.grid.volume)
    (hm : m < state.kernel.block.reach) (h : openCta warpsPerCta state = .ok opening) :
    opening.cta = ctaAt state.device state.kernel n ∧
      opening.threads = share state.kernel.block state.device.warpSize m ∧
      opening.kernel = { state.kernel with
        nextThread := state.kernel.block.place (max m state.kernel.block.volume) } ∧
      ∃ sm, state.device.sms[opening.cta.sm]? = some sm ∧
        enter opening.cta.index warpsPerCta 0 opening.threads sm = .ok opening.admission := by
  have hsm := openCta_sm h
  obtain ⟨index, hindex, h⟩ := Outcome.bind_eq_ok.mp h
  obtain ⟨smId, hid, h⟩ := Outcome.bind_eq_ok.mp h
  obtain ⟨⟨threads, kernel⟩, hform, h⟩ := Outcome.bind_eq_ok.mp h
  obtain ⟨_, rfl⟩ := Word.rem_eq_ok.mp hid
  rw [hat.formWarps hm, Except.ok.injEq, Prod.mk.injEq] at hform
  obtain ⟨rfl, rfl⟩ := hform
  have hword : index.toUInt32 = UInt32.ofNat n := by
    have hrank := Dim3.index_eq_ok hindex
    rw [hat.cta, Dim3.rank_place hn] at hrank
    rw [← UInt32.toNat_inj, UInt64.toNat_toUInt32, hrank, UInt32.toNat_ofNat']
  simp only [hword] at h
  split at h
  · cases h
  · obtain ⟨admission, _, h⟩ := Outcome.bind_eq_ok.mp h
    cases h
    refine ⟨?_, rfl, rfl, hsm⟩
    rw [ctaAt, hat.cta]

theorem openCta_ok {sm : Sm} (hat : state.kernel.At n m) (hn : n < state.kernel.grid.volume)
    (hm : m < state.kernel.block.reach) (hsize : n < UInt64.size)
    (hsm : state.device.sms[(ctaAt state.device state.kernel n).sm]? = some sm)
    (hroom : (UInt32.ofNat n).toNat * warpsPerCta.toNat + 0 +
      (share state.kernel.block state.device.warpSize m).length ≤ UInt32.size) :
    ∃ opening, openCta warpsPerCta state = .ok opening := by
  have hrank := Dim3.rank_place hn
  have hx : 0 < state.kernel.grid.x.toNat := by
    by_contra h0
    simp [Dim3.volume, Nat.eq_zero_of_not_pos h0] at hn
  obtain ⟨index, hindex⟩ := Dim3.index_ok hx (i := state.kernel.grid.place n) (by omega)
  have hword : index.toUInt32 = UInt32.ofNat n := by
    rw [← UInt32.toNat_inj, UInt64.toNat_toUInt32, Dim3.index_eq_ok hindex, hrank,
      UInt32.toNat_ofNat']
  obtain ⟨admission, henter⟩ : ∃ admission, enter (UInt32.ofNat n) warpsPerCta 0
      (share state.kernel.block state.device.warpSize m) sm = .ok admission := enter_ok hroom
  have hcount : state.device.sms.length ≠ 0 :=
    (List.length_pos_of_mem (List.mem_of_getElem? hsm)).ne'
  have hid : Word.rem (UInt32.ofNat n).toNat state.device.sms.length =
      .ok (ctaAt state.device state.kernel n).sm := Word.rem_eq_ok.mpr ⟨hcount, rfl⟩
  rw [openCta, Kernel.nextCtaIndex, hat.cta, hindex]
  simp only [Outcome.ok_bind, hword, hid, hat.formWarps hm, hsm]
  rw [← share, henter]
  exact ⟨_, rfl⟩

/-! ## How a block ends -/

/-- What a block leaves behind that has issued the whole program. -/
structure Finished (opening : Opening) (front : Front σ α) (state next : State σ α) : Prop where
  device : ∃ sm, leave opening.admission.taken front.sm = .ok sm ∧
    next.device = { state.device with sms := state.device.sms.set opening.cta.sm sm }
  kernel : opening.kernel.advanceCta = .ok next.kernel
  host : next.host = front.host
  slot : next.slot = front.slot
  stats : Stats.addBlock { state.stats with
    issued := front.issued, atomics := front.atomics, cycles := front.cycle } opening.threads =
      .ok next.stats
  counts : countBlock opening.cta.sm state.blocksBySm = .ok next.blocksBySm

theorem record_cases (h : record plan state = .ok next) : ∃ folder, next = { state with folder } := by
  unfold record at h
  split at h
  · cases h
    exact ⟨state.folder, rfl⟩
  · obtain ⟨snapshot, _, h⟩ := Outcome.bind_eq_ok.mp h
    cases h
    exact ⟨_, rfl⟩

theorem finish_cases {front : Front σ α} (h : finish plan opening front state = .ok next) :
    Finished opening front state next := by
  obtain ⟨sm, hsm, h⟩ := Outcome.bind_eq_ok.mp h
  obtain ⟨stats, hstats, h⟩ := Outcome.bind_eq_ok.mp h
  obtain ⟨counts, hcounts, h⟩ := Outcome.bind_eq_ok.mp h
  obtain ⟨kernel, hkernel, h⟩ := Outcome.bind_eq_ok.mp h
  obtain ⟨folder, rfl⟩ := record_cases h
  exact ⟨⟨sm, hsm, rfl⟩, hkernel, rfl, rfl, hstats, hcounts⟩

/-- A block that is done was taken whole by its SM, and has issued the whole program. -/
theorem executeCta_done (h : executeCta plan warpsPerCta state = .ok (.done next)) :
    ∃ opening front, openCta warpsPerCta state = .ok opening ∧
      opening.admission.refused = false ∧
      issueAll plan.hook state.folder opening.cta opening.admission.taken plan.program
        (opening.front state) = .ok front ∧
      Finished opening front state next := by
  obtain ⟨opening, hopen, h⟩ := Outcome.bind_eq_ok.mp h
  split at h
  · obtain ⟨_, _, h⟩ := Outcome.bind_eq_ok.mp h
    cases h
  · rename_i href
    obtain ⟨front, hfront, h⟩ := Outcome.bind_eq_ok.mp h
    obtain ⟨state', hfinish, h⟩ := Outcome.bind_eq_ok.mp h
    cases h
    exact ⟨opening, front, hopen, by simpa using href, hfront, finish_cases hfinish⟩

/-- A block that is refused leaves the kernel as it was opened, and the host alone. -/
theorem executeCta_refused {warps : Nat}
    (h : executeCta plan warpsPerCta state = .ok (.refused warps next)) :
    ∃ opening sm, openCta warpsPerCta state = .ok opening ∧
      opening.admission.refused = true ∧ warps = opening.threads.length ∧
      leave opening.admission.taken opening.admission.sm = .ok sm ∧
      next = { state.putSm opening.cta.sm sm with kernel := opening.kernel } := by
  obtain ⟨opening, hopen, h⟩ := Outcome.bind_eq_ok.mp h
  split at h
  · rename_i href
    obtain ⟨state', hrefuse, h⟩ := Outcome.bind_eq_ok.mp h
    cases h
    obtain ⟨sm, hsm, h⟩ := Outcome.bind_eq_ok.mp hrefuse
    cases h
    exact ⟨opening, sm, hopen, href, rfl, hsm, rfl⟩
  · obtain ⟨front, _, h⟩ := Outcome.bind_eq_ok.mp h
    obtain ⟨state', _, h⟩ := Outcome.bind_eq_ok.mp h
    cases h

/-! ## Blocks that get done -/

theorem record_ok (plan : LaunchPlan σ α) (h : state.kernel.grid.volume < UInt64.size) :
    ∃ next, record plan state = .ok next := by
  unfold record
  split
  · exact ⟨state, rfl⟩
  · obtain ⟨total, htotal⟩ := Dim3.size_ok h
    rw [snapshot, Kernel.numBlocks, htotal]
    exact ⟨_, rfl⟩

/-- A block gets done when its warps can leave and the counts have room. -/
theorem finish_ok {front : Front σ α} {sm : Sm} {stats : Stats} {counts : List UInt32}
    {kernel : Kernel} (plan : LaunchPlan σ α)
    (hleave : leave opening.admission.taken front.sm = .ok sm)
    (hstats : Stats.addBlock { state.stats with
      issued := front.issued, atomics := front.atomics, cycles := front.cycle } opening.threads =
        .ok stats)
    (hcounts : countBlock opening.cta.sm state.blocksBySm = .ok counts)
    (hkernel : opening.kernel.advanceCta = .ok kernel)
    (hgrid : kernel.grid.volume < UInt64.size) :
    ∃ next, finish plan opening front state = .ok next := by
  simp only [finish, hleave, hstats, hcounts, hkernel, Outcome.ok_bind]
  exact record_ok plan hgrid

end Simt.Launch
