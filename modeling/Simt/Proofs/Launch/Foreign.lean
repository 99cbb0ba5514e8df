-- Launches beside foreign warps. A launch works with ids and block numbers below the bounds of its
-- grid. Warps that are resident under ids and numbers past them see nothing of the launch, whether
-- it goes through or a block of it is refused.
import Simt.Proofs.Launch.Totals
import Simt.Proofs.Sm.Foreign

namespace Simt

/-- Each SM of a device has kept its live warps, and has got no others. -/
structure Device.Spares (before after : Device) : Prop where
  count : after.sms.length = before.sms.length
  spares : ∀ (i : Nat) (s t : Sm), before.sms[i]? = some s → after.sms[i]? = some t → s.Spares t

namespace Launch

variable {σ α : Type} {plan : LaunchPlan σ α} {hook : Hook σ α} {warpsPerCta : UInt32}
  {device before after : Device} {kernel : Kernel} {folder : Folder} {host : σ}
  {first state next : State σ α} {opening : Opening} {sm t u : Sm} {cta : UInt32}
  {ids : List UInt32} {s m n : Nat}

/-- The warps on an SM are foreign to a kernel: no warp of the kernel has their ids, and no block
of it has their numbers. -/
def Foreign (device : Device) (kernel : Kernel) (sm : Sm) : Prop :=
  ∀ id r, sm.warps.find? id = some r →
    kernel.grid.volume * warpsNeeded kernel.block.volume device.warpSize ≤ id.toNat ∧
      kernel.grid.volume ≤ r.cta.toNat

theorem Foreign.spared (h : Foreign device kernel sm) (hs : sm.Spares t) :
    Foreign device kernel t := fun id r hf => h id r (hs.only id r hf)

theorem spares_refl (device : Device) : device.Spares device where
  count := rfl
  spares i s t hs ht := by
    rw [hs, Option.some.injEq] at ht
    rw [ht]
    exact .refl t

theorem spares_set {i : Nat} (h : before.Spares after) (hsm : after.sms[i]? = some sm)
    (hs : sm.Spares t) : before.Spares { after with sms := after.sms.set i t } := by
  refine ⟨by rw [List.length_set, h.count], ?_⟩
  intro j u v hu hv
  by_cases hij : i = j
  · subst hij
    rw [List.getElem?_set_self (List.getElem?_eq_some_iff.mp hsm).1, Option.some.injEq] at hv
    rw [← hv]
    exact (h.spares i u sm hu hsm).trans hs
  · rw [List.getElem?_set_ne hij] at hv
    exact h.spares j u v hu hv

/-- On a device that has spared its foreign warps there are foreign warps alone. -/
theorem foreign_of_spares (h : before.Spares after)
    (hforeign : ∀ sm ∈ before.sms, Foreign device kernel sm) :
    ∀ sm ∈ after.sms, Foreign device kernel sm := by
  intro sm hsm
  obtain ⟨i, hi⟩ := List.getElem?_of_mem hsm
  have hlt : i < before.sms.length := by
    rw [← h.count]
    exact (List.getElem?_eq_some_iff.mp hi).1
  have hget := List.getElem?_eq_getElem hlt
  exact (hforeign _ (List.getElem_mem hlt)).spared (h.spares i _ sm hget hi)

/-! ## A block comes, issues and leaves -/

theorem enter_lodges {number : Nat} {threads : List (List UInt32)} {admission : Admission}
    (hl : u.Lodges cta ids sm) (hw : sm.Unwaiting cta)
    (hnew : ∀ warp ∈ named (cta.toNat * warpsPerCta.toNat) number threads,
      u.warps.find? warp.id = none)
    (h : enter cta warpsPerCta number threads sm = .ok admission) :
    u.Lodges cta (ids ++ admission.taken.map Warp.id) admission.sm ∧
      admission.sm.Unwaiting cta := by
  induction threads generalizing number sm admission ids with
  | nil =>
    cases h
    exact ⟨by simpa using hl, hw⟩
  | cons ts rest ih =>
    obtain ⟨id, hid, h⟩ := Outcome.bind_eq_ok.mp h
    rw [named_cons, ← warpId_word hid] at hnew
    cases ht : sm.launch? cta id with
    | none =>
      rw [ht] at h
      cases h
      exact ⟨by simpa using hl, hw⟩
    | some t =>
      rw [ht] at h
      obtain ⟨later, hlater, h⟩ := Outcome.bind_eq_ok.mp h
      cases h
      obtain ⟨hlodge, hwait⟩ := ih (hl.launch (hnew _ List.mem_cons_self) ht) (hw.launch ht)
        (fun warp hwarp => hnew warp (List.mem_cons_of_mem _ hwarp)) hlater
      exact ⟨by simpa using hlodge, hwait⟩

theorem issueAll_lodges {cta : Cta} {warps : List Warp} {program : List Instruction}
    {front next : Front σ α} (hl : u.Lodges cta.index ids front.sm)
    (h : issueAll hook folder cta warps program front = .ok next) :
    u.Lodges cta.index ids next.sm := by
  rw [issueAll_eq_foldlM] at h
  refine Outcome.foldlM_keeps (P := fun _ (front : Front σ α) => u.Lodges cta.index ids front.sm)
    ?_ hl h
  intro t rest b c hb hstep
  obtain ⟨slot, edited, host, hissue⟩ := issue_cases hstep
  rcases meet_cases hissue.met with ⟨_, harrive⟩ | ⟨_, hsame⟩
  · exact hb.arrive harrive
  · rw [hsame]
    exact hb

/-- The SM is left with what it had before the block came. Warps that have not met a barrier release
none when they leave. -/
theorem leave_lodged {warps : List Warp} (hl : u.Lodges cta (warps.map Warp.id) sm)
    (h : leave warps sm = .ok t) :
    u.Spares t ∧ (sm.Unwaiting cta → t.released = sm.released) := by
  obtain ⟨v, hv, h⟩ := Outcome.bind_eq_ok.mp h
  cases h
  -- The warps of the block that are live are among those that have not exited yet.
  obtain ⟨hlodge, _, hlive, hquiet⟩ := Outcome.foldlM_keeps
    (P := fun rest (v : Sm) => u.Lodges cta (warps.map Warp.id) v ∧
      (∀ warp ∈ rest, warp.id ∈ warps.map Warp.id) ∧
      (∀ id ∈ warps.map Warp.id, id ∈ v.liveIds → id ∈ rest.map Warp.id) ∧
      (sm.Unwaiting cta → v.Unwaiting cta ∧ v.released = sm.released))
    (by
      rintro warp rest b c ⟨hb, hrest, hlive, hquiet⟩ hc
      have hmem := hrest warp List.mem_cons_self
      refine ⟨hb.exit hmem hc, ?_, ?_, ?_⟩
      · intro w hw
        exact hrest w (List.mem_cons_of_mem _ hw)
      · intro id hid hmem
        rw [Sm.exit_liveIds hc, Finset.mem_erase] at hmem
        have hleft := hlive id hid hmem.2
        rw [List.map_cons, List.mem_cons] at hleft
        exact hleft.resolve_left hmem.1
      · intro hwait
        obtain ⟨hbefore, hsame⟩ := hquiet hwait
        obtain ⟨hafter, hreleased⟩ := hbefore.exit (hb.cta_of_mem hmem) hc
        exact ⟨hafter, hreleased.trans hsame⟩)
    ⟨hl, fun warp hwarp => List.mem_map_of_mem hwarp, fun id hid _ => hid, fun hw => ⟨hw, rfl⟩⟩ hv
  refine ⟨hlodge.retire ?_, fun hwait => (hquiet hwait).2⟩
  intro id hid hmem
  simpa using hlive id hid hmem

/-! ## Blocks of the launch -/

/-- The block has a number below the grid, and its warps have ids below those of all blocks. -/
theorem Stands.numbers_lt (h : Stands first s m n state) (hd : first.device.Sound)
    (hm : m < first.kernel.block.reach) (hn : n < first.kernel.grid.volume)
    (hwarps : warpsPerCta =
      UInt32.ofNat (warpsNeeded first.kernel.block.volume first.device.warpSize))
    (hopen : openCta warpsPerCta state = .ok opening) :
    opening.cta.index.toNat < first.kernel.grid.volume ∧
      ∀ warp ∈ named (opening.cta.index.toNat * warpsPerCta.toNat) 0 opening.threads,
        warp.id.toNat < first.kernel.grid.volume *
          warpsNeeded first.kernel.block.volume first.device.warpSize := by
  obtain ⟨hcta, hthreads, _⟩ := h.opens hm hn hopen
  -- The number and the count of warps are cut down to words, and that makes neither of them larger.
  have hnumber : opening.cta.index.toNat ≤ n := by
    rw [hcta]
    exact Nat.mod_le _ _
  have hwpc : warpsPerCta.toNat ≤
      warpsNeeded first.kernel.block.volume first.device.warpSize := by
    rw [hwarps]
    exact Nat.mod_le _ _
  have hlen : opening.threads.length ≤
      warpsNeeded first.kernel.block.volume first.device.warpSize := by
    rw [hthreads]
    exact length_share_le_needed hd _
  refine ⟨by omega, ?_⟩
  intro warp hwarp
  calc warp.id.toNat
      < opening.cta.index.toNat * warpsPerCta.toNat + 0 + opening.threads.length :=
        id_lt_of_mem_named hwarp
    _ ≤ n * warpsNeeded first.kernel.block.volume first.device.warpSize +
          warpsNeeded first.kernel.block.volume first.device.warpSize :=
        Nat.add_le_add (Nat.mul_le_mul hnumber hwpc) hlen
    _ = (n + 1) * warpsNeeded first.kernel.block.volume first.device.warpSize :=
        (Nat.succ_mul _ _).symm
    _ ≤ _ := Nat.mul_le_mul_right _ hn

/-- A block of the launch lodges on its SM, beside the foreign warps. -/
theorem Stands.lodges (h : Stands first s m n state) (hd : first.device.Sound)
    (hm : m < first.kernel.block.reach) (hn : n < first.kernel.grid.volume)
    (hwarps : warpsPerCta =
      UInt32.ofNat (warpsNeeded first.kernel.block.volume first.device.warpSize))
    (hforeign : ∀ sm ∈ state.device.sms, Foreign first.device first.kernel sm)
    (hopen : openCta warpsPerCta state = .ok opening) :
    ∃ sm, state.device.sms[opening.cta.sm]? = some sm ∧
      sm.Lodges opening.cta.index (opening.admission.taken.map Warp.id) opening.admission.sm ∧
      opening.admission.sm.Unwaiting opening.cta.index ∧
      opening.admission.sm.released = sm.released := by
  obtain ⟨_, _, _, sm, hsm, henter⟩ := h.opens hm hn hopen
  obtain ⟨hnumber, hids⟩ := h.numbers_lt hd hm hn hwarps hopen
  have hout := hforeign sm (List.mem_of_getElem? hsm)
  have hapart : ∀ id r, sm.warps.find? id = some r → r.cta ≠ opening.cta.index := by
    intro id r hf hr
    have hge := (hout id r hf).2
    rw [hr] at hge
    omega
  have hunused : ∀ warp ∈ named (opening.cta.index.toNat * warpsPerCta.toNat) 0 opening.threads,
      sm.warps.find? warp.id = none := by
    intro warp hwarp
    have hlt := hids warp hwarp
    cases hf : sm.warps.find? warp.id with
    | none => rfl
    | some r =>
      have hge := (hout warp.id r hf).1
      omega
  obtain ⟨hlodge, hwait⟩ := enter_lodges (Sm.lodges_nil hapart)
    (fun id r hf hr => absurd hr (hapart id r hf)) hunused henter
  exact ⟨sm, hsm, hlodge, hwait, (enter_same henter).1⟩

/-- A block that is executed leaves the foreign warps of its SM as they were. So does one that is
refused, and it releases no barrier. -/
theorem Stands.spares {last : BlockEnd σ α} (places : Nat) (h : Stands first s m n state)
    (hd : first.device.Sound) (hm : m < first.kernel.block.reach)
    (hn : n < first.kernel.grid.volume)
    (hwarps : warpsPerCta =
      UInt32.ofNat (warpsNeeded first.kernel.block.volume first.device.warpSize))
    (hforeign : ∀ sm ∈ state.device.sms, Foreign first.device first.kernel sm)
    (hlast : executeCta plan warpsPerCta state = .ok last) :
    ∃ i sm t, state.device.sms[i]? = some sm ∧ sm.Spares t ∧
      (last.report places).device = { state.device with sms := state.device.sms.set i t } ∧
      ∀ warps next, last = .refused warps next → t.released = sm.released := by
  cases last with
  | done next =>
    obtain ⟨opening, front, hopen, _, hissue, hfin⟩ := executeCta_done hlast
    obtain ⟨sm, hsm, hlodge, _⟩ := h.lodges hd hm hn hwarps hforeign hopen
    obtain ⟨t, hleave, hdevice⟩ := hfin.device
    have hissued : sm.Lodges opening.cta.index _ front.sm := issueAll_lodges hlodge hissue
    exact ⟨opening.cta.sm, sm, t, hsm, (leave_lodged hissued hleave).1, hdevice,
      fun _ _ he => by cases he⟩
  | refused warps next =>
    obtain ⟨opening, t, hopen, _, _, hleave, rfl⟩ := executeCta_refused hlast
    obtain ⟨sm, hsm, hlodge, hwait, hsame⟩ := h.lodges hd hm hn hwarps hforeign hopen
    obtain ⟨hspares, hquiet⟩ := leave_lodged hlodge hleave
    exact ⟨opening.cta.sm, sm, t, hsm, hspares, rfl, fun _ _ _ => (hquiet hwait).trans hsame⟩

theorem Stands.advance_spares (h : Stands first s m n state) (hd : first.device.Sound)
    (hm : m < first.kernel.block.reach) (hn : n < first.kernel.grid.volume)
    (hwarps : warpsPerCta =
      UInt32.ofNat (warpsNeeded first.kernel.block.volume first.device.warpSize))
    (hforeign : ∀ sm ∈ first.device.sms, Foreign first.device first.kernel sm)
    (hspared : first.device.Spares state.device) {last : BlockEnd σ α} (places : Nat)
    (hlast : executeCta plan warpsPerCta state = .ok last) :
    first.device.Spares (last.report places).device := by
  obtain ⟨i, sm, t, hsm, hs, hdevice, _⟩ :=
    h.spares places hd hm hn hwarps (foreign_of_spares hspared hforeign) hlast
  rw [hdevice]
  exact spares_set hspared hsm hs

/-! ## The whole launch -/

/-- A launch spares the foreign warps, whether it goes through or is refused. -/
theorem launch_spares {report : LaunchReport σ} (hd : device.Sound) (hbound : kernel.bound = true)
    (hat : kernel.At s m) (hs : s < kernel.grid.reach) (hm : m < kernel.block.reach)
    (hforeign : ∀ sm ∈ device.sms, Foreign device kernel sm)
    (h : launch plan device kernel folder host = .ok report) : device.Spares report.device := by
  rcases launch_cases hbound h with ⟨_, rfl⟩ | ⟨warpsPerCta, first, last, hbegins, hrun, rfl⟩
  · exact spares_refl device
  · have hwarps := hbegins.warps
    obtain ⟨rfl, rfl, hat⟩ := hbegins.at hat
    obtain ⟨n, final, hstands, _, hspared, hlast⟩ := run_stands
      (Q := fun _ state => first.device.Spares state.device) hat hs hm (spares_refl first.device)
      (fun n state next hst hn hspared hdone =>
        hst.advance_spares hd hm hn hwarps hforeign hspared 0 hdone) hrun
    rcases hlast with ⟨rfl, _⟩ | ⟨warps, refused, rfl, hn, hrefused⟩
    · exact hspared
    · exact hstands.advance_spares hd hm hn hwarps hforeign hspared _ hrefused

/-- A block that is refused in a launch has released no barrier on any SM. -/
theorem Comes.refused_released {warps : Nat} (hd : device.Sound) (hat : kernel.At s m)
    (hs : s < kernel.grid.reach) (hm : m < kernel.block.reach)
    (hforeign : ∀ sm ∈ device.sms, Foreign device kernel sm)
    (hcomes : Comes plan device kernel folder host warpsPerCta state)
    (h : executeCta plan warpsPerCta state = .ok (.refused warps next)) :
    next.device.sms.map (·.released) = state.device.sms.map (·.released) := by
  obtain ⟨_, _, hbegins, _⟩ := hcomes.before
  have hwarps := hbegins.warps
  obtain ⟨first, n, rfl, rfl, hstands, hn, hspared⟩ := hcomes.stands
    (Q := fun first _ state => first.device.Spares state.device) hat hs hm
    (fun first _ => spares_refl first.device)
    (by
      rintro first rfl rfl n state next hst hn hspared hdone
      exact hst.advance_spares hd hm hn hwarps hforeign hspared 0 hdone)
  obtain ⟨i, sm, t, hsm, _, hdevice, hsame⟩ :=
    hstands.spares 0 hd hm hn hwarps (foreign_of_spares hspared hforeign) h
  have hnext : next.device = { state.device with sms := state.device.sms.set i t } := hdevice
  obtain ⟨hi, rfl⟩ := List.getElem?_eq_some_iff.mp hsm
  have hlt : i < (state.device.sms.map (·.released)).length := by simpa using hi
  have hsame : t.released = (state.device.sms.map (·.released))[i] := by
    rw [hsame warps next rfl, List.getElem_map]
  rw [hnext, List.map_set, hsame, List.set_getElem_self]

end Launch

/-- A launch does nothing to warps that are foreign to its kernel, whether it goes through or is
refused. The live ones are resident as they were, the forgotten ones had exited, and no other warp
is resident afterwards. A block that is refused has released no barrier. -/
theorem a_launch_leaves_foreign_warps_alone {σ α : Type} (plan : LaunchPlan σ α) {device : Device}
    {kernel : Kernel} {s m : Nat} (folder : Folder) (host : σ) {report : LaunchReport σ}
    (hd : device.Sound) (hbound : kernel.bound = true) (hk : kernel.Reached s m)
    (hforeign : ∀ sm ∈ device.sms, Launch.Foreign device kernel sm)
    (h : launch plan device kernel folder host = .ok report) :
    device.Spares report.device ∧ (∀ sm ∈ report.device.sms, Launch.Foreign device kernel sm) ∧
      ∀ e, report.result = .error e → report.device = device ∨
        ∃ warpsPerCta state warps refused,
          Launch.Comes plan device kernel folder host warpsPerCta state ∧
          Launch.executeCta plan warpsPerCta state = .ok (.refused warps refused) ∧
          report.device = refused.device ∧
          refused.device.sms.map (·.released) = state.device.sms.map (·.released) := by
  obtain ⟨hat, hs, hm⟩ := hk.stands
  have hspares := Launch.launch_spares hd hbound hat hs hm hforeign h
  refine ⟨hspares, Launch.foreign_of_spares hspares hforeign, ?_⟩
  intro e herr
  rcases Launch.refused_comes hbound h herr with
    ⟨_, rfl⟩ | ⟨warpsPerCta, state, warps, refused, hcomes, hrefused, rfl⟩
  · exact Or.inl rfl
  · exact Or.inr ⟨warpsPerCta, state, warps, refused, hcomes, hrefused, rfl,
      hcomes.refused_released hd hat hs hm hforeign hrefused⟩

namespace Launch

/-- A small device with foreign warps. On the first SM one waits with atomics in flight, and one
has exited. On the second SM three of them leave one place. -/
def visited : Device where
  config := Device.small.config
  sms := [{ Sm.new 0 Device.small.config with
      warps := ⟨[(50, ⟨7, true, false, 3⟩), (51, ⟨7, false, true, 0⟩)], by decide⟩,
      released := 41 },
    { Sm.new 1 Device.small.config with
      warps := ⟨[(60, .fresh 8), (61, .fresh 9), (62, .fresh 9)], by decide⟩ }]

theorem visited_sound : visited.Sound := ⟨rfl, rfl, by decide⟩

/-- Three blocks of two warps each. -/
def visitor : Kernel := .bind (.line 3) (.line 3) ⟨"sums", 16⟩

theorem visited_foreign : ∀ sm ∈ visited.sms, Foreign visited visitor sm := by
  have hentries : ∀ sm ∈ visited.sms, ∀ e ∈ sm.warps.entries, 6 ≤ e.1.toNat ∧ 3 ≤ e.2.cta.toNat := by
    decide
  intro sm hsm id r hf
  exact hentries sm hsm (id, r) (WarpTable.mem_entries.mpr hf)

end Launch

/-- The second SM takes one of two warps and is rolled back. Both SMs have kept what they had. -/
theorem a_waiting_warp_is_there_after_a_refusal :
    ∃ report t, launch Launch.twoBarriers Launch.visited Launch.visitor .empty () = .ok report ∧
      report.result.isOk = false ∧ report.device.sms[0]? = some t ∧
      t.warps.find? 50 = some ⟨7, true, false, 3⟩ ∧ t.warps.find? 0 = none := by
  have hrun : (launch Launch.twoBarriers Launch.visited Launch.visitor .empty ()).map
      (·.result.isOk) = .ok false := by cbv
  obtain ⟨report, h, hrefused⟩ := Outcome.map_eq_ok.mp hrun
  obtain ⟨hspares, hout, _⟩ := @a_launch_leaves_foreign_warps_alone Unit Unit Launch.twoBarriers
    Launch.visited Launch.visitor 0 0 .empty () report Launch.visited_sound rfl (.bind _ _ _)
    Launch.visited_foreign h
  have hcount : 0 < report.device.sms.length := by
    rw [hspares.count]
    decide
  have ht := List.getElem?_eq_getElem hcount
  refine ⟨report, _, h, hrefused, ht, (hspares.spares 0 _ _ rfl ht).kept 50 _ rfl rfl, ?_⟩
  cases hf : report.device.sms[0].warps.find? 0 with
  | none => rfl
  | some r => exact absurd (hout _ (List.getElem_mem hcount) 0 r hf).1 (by decide)

end Simt
