-- Launches on one device, one after the other. Each of them leaves the device with no warp on it,
-- so that the next one finds what it would find on a new device, but for the counts of released
-- barriers, and these nobody looks at.
import Simt.Proofs.Launch.Ahead
import Simt.Proofs.Launch.Safety

namespace Simt

/-- No warp is resident on any SM. -/
def Device.Vacant (d : Device) : Prop := ∀ sm ∈ d.sms, sm.warps = .empty

theorem Device.Vacant.quiet {d : Device} (h : d.Vacant) : ∀ sm ∈ d.sms, sm.liveWarps = 0 := by
  intro sm hsm
  rw [Sm.liveWarps, h sm hsm]
  rfl

namespace Launch

variable {σ α : Type} {plan : LaunchPlan σ α} {device : Device} {kernel : Kernel} {folder : Folder}
  {host : σ} {report : LaunchReport σ} {s m : Nat}

/-! ## What a launch leaves -/

/-- Where no warp is live after the warps of a block have left, no warp is resident. -/
theorem leave_vacant {warps : List Warp} {sm t : Sm} (h : leave warps sm = .ok t)
    (hlive : t.liveIds = ∅) : t.warps = .empty := by
  obtain ⟨u, _, h⟩ := Outcome.bind_eq_ok.mp h
  cases h
  refine WarpTable.eq_empty fun id => ?_
  rw [Option.eq_none_iff_forall_ne_some]
  intro r hf
  have hr := (Option.filter_eq_some_iff.mp ((u.retire_find? id).symm.trans hf)).2
  have hmem : id ∈ u.retire.liveIds := Sm.mem_liveIds.mpr ⟨r, hf, by simpa [Resident.live] using hr⟩
  rw [hlive] at hmem
  simp at hmem

/-- The block that is done was the last on its SM. -/
theorem done_vacant {warpsPerCta : UInt32} {state next : State σ α} (hv : state.device.Vacant)
    (hlive : ∀ sm ∈ next.device.sms, sm.liveIds = ∅)
    (hdone : executeCta plan warpsPerCta state = .ok (.done next)) : next.device.Vacant := by
  obtain ⟨opening, front, _, _, _, hfin⟩ := executeCta_done hdone
  obtain ⟨left, hleave, hdevice⟩ := hfin.device
  intro sm hsm
  have hnone := hlive sm hsm
  rw [hdevice] at hsm
  rcases List.mem_or_eq_of_mem_set hsm with hsm | rfl
  · exact hv sm hsm
  · exact leave_vacant hleave hnone

/-- A launch on a vacant device leaves it vacant, and leaves a kernel that calls could have brought
to where it stands. -/
theorem launch_vacant (hd : device.Sound) (hv : device.Vacant) (hk : kernel.Reached s m)
    (h : launch plan device kernel folder host = .ok report) :
    report.device.Vacant ∧ report.device.config = device.config ∧
      ∃ s' m', report.kernel.Reached s' m' := by
  obtain ⟨hat, hs, hm⟩ := hk.stands
  cases hbound : kernel.bound with
  | false =>
    rw [launch_unbound plan folder host hbound] at h
    cases h
    exact ⟨hv, rfl, s, m, hk⟩
  | true =>
    rcases launch_cases hbound h with ⟨_, rfl⟩ | ⟨warpsPerCta, first, last, hbegins, hrun, rfl⟩
    · exact ⟨hv, rfl, s, m, hk⟩
    · have hfits := hbegins.fits
      obtain ⟨rfl, rfl, hat⟩ := hbegins.at hat
      obtain ⟨n, final, hstands, hreach, ⟨hcalm, hvacant⟩, hlast⟩ := run_stands
        (Q := fun n state => Releases plan first s m n state ∧ state.device.Vacant) hat hs hm
        ⟨releases_first hd hv.quiet, hv⟩ (by
          rintro n state next hst hn ⟨hr, hvacant⟩ hdone
          have hr' := hr.advance hst hd hm hn hdone
          exact ⟨hr', done_vacant hvacant (fun sm hsm => (hr'.quiet sm hsm).1) hdone⟩) hrun
      rcases hlast with ⟨rfl, _⟩ | ⟨warps, refused, rfl, hn, hrefused⟩
      · refine ⟨hvacant, hstands.config, n, handedOut s m n, ?_⟩
        have hkernel := hstands.kernel
        refine hstands.at.reached ?_ ?_ (hstands.handed_lt hm)
        · rw [hkernel]
          exact hbound
        · rw [hkernel]
          exact hreach
      · -- No block is refused that a vacant SM could hold.
        obtain ⟨opening, _, hopen, href, _⟩ := executeCta_refused hrefused
        have htakes := Calm.takes hcalm hstands hm hn
          ((length_share_le_needed hd _).trans hfits) hopen
        rw [href] at htakes
        cases htakes

end Launch

/-! ## Launches in a row -/

/-- A device after some launches, where nothing else was done with it. -/
inductive Device.Used (fresh : Device) : Device → Prop
  | fresh : Used fresh fresh
  | launch {σ α : Type} {plan : LaunchPlan σ α} {device : Device} {kernel : Kernel}
      {folder : Folder} {host : σ} {report : LaunchReport σ} {s m : Nat} :
      Used fresh device → kernel.Reached s m →
        Simt.launch plan device kernel folder host = .ok report → Used fresh report.device

/-- Each SM has released a number of barriers from the first device to the second. -/
structure Device.Gains (gain : Nat → Nat) (before after : Device) : Prop where
  count : after.sms.length = before.sms.length
  released : ∀ i s t, before.sms[i]? = some s → after.sms[i]? = some t →
    t.released.toNat = s.released.toNat + gain i

namespace Device

variable {config : Config} {fresh device : Device}

theorem new_of_build (h : build config = .ok (.ok fresh)) {sm : Sm} (hsm : sm ∈ fresh.sms) :
    sm.warps = .empty ∧ sm.released = 0 := by
  unfold build at h
  split at h
  · cases h
  · split at h
    · cases h
    · cases h
      obtain ⟨id, _, rfl⟩ := List.mem_map.mp hsm
      exact ⟨rfl, rfl⟩

/-- After launches a device is vacant. -/
theorem Used.vacant (hbuild : build config = .ok (.ok fresh)) (h : fresh.Used device) :
    device.Sound ∧ device.config = fresh.config ∧ device.Vacant := by
  induction h with
  | fresh => exact ⟨sound_of_build hbuild, rfl, fun sm hsm => (new_of_build hbuild hsm).1⟩
  | launch _ hk hlaunch ih =>
    obtain ⟨hd, hconfig, hv⟩ := ih
    obtain ⟨hvacant, hsame, _⟩ := Launch.launch_vacant hd hv hk hlaunch
    exact ⟨Launch.launch_sound hd hlaunch, hsame.trans hconfig, hvacant⟩

/-- What an SM has released. -/
def releasedOn (d : Device) (i : Nat) : Nat := (d.sms[i]?).elim 0 fun sm => sm.released.toNat

theorem releasedOn_eq {d : Device} {i : Nat} {sm : Sm} (h : d.sms[i]? = some sm) :
    d.releasedOn i = sm.released.toNat := by
  rw [releasedOn, h]
  rfl

/-- A vacant device is a new one, ahead by what it has released. -/
theorem ahead_of_vacant (hbuild : build config = .ok (.ok fresh)) (hd : device.Sound)
    (hconfig : device.config = fresh.config) (hv : device.Vacant) :
    fresh.Ahead device.releasedOn device := by
  have hfresh := sound_of_build hbuild
  have hcount : device.sms.length = fresh.sms.length := by rw [hd.count, hfresh.count, hconfig]
  refine ⟨device.sms, by rw [← hconfig], hcount, fun i t ht => ?_⟩
  obtain ⟨hlt, _⟩ := List.getElem?_eq_some_iff.mp ht
  have hs := List.getElem?_eq_getElem (hcount ▸ hlt)
  have hmem := List.mem_of_getElem? hs
  have hmem' := List.mem_of_getElem? ht
  obtain ⟨hempty, hzero⟩ := new_of_build hbuild hmem
  refine ⟨_, hs, t.id, t.released, ?_, ?_⟩
  · have hwarps : t.warps = (fresh.sms[i]).warps := (hv t hmem').trans hempty.symm
    have hconf : t.config = (fresh.sms[i]).config := by
      rw [hd.shared t hmem', hfresh.shared _ hmem, hconfig]
    rw [← hwarps, ← hconf]
  · rw [releasedOn_eq ht, hzero]
    simp

/-- Two devices that stayed as far apart as they were have gained the same. -/
theorem gains_of_ahead {gap : Nat → Nat} {newer later : Device}
    (hzero : ∀ sm ∈ fresh.sms, sm.released = 0) (h : fresh.Ahead gap device)
    (hlater : newer.Ahead gap later) (hcount : newer.sms.length = fresh.sms.length) :
    Gains newer.releasedOn device later ∧ Gains newer.releasedOn fresh newer := by
  obtain ⟨_, rfl, hlength, hsms⟩ := h
  obtain ⟨_, rfl, hlength', hsms'⟩ := hlater
  constructor
  · refine ⟨by rw [hlength', hcount, hlength], fun i s t hs ht => ?_⟩
    obtain ⟨s₀, hs₀, _, _, rfl, hgap⟩ := hsms i s hs
    obtain ⟨t₀, ht₀, _, _, rfl, hgap'⟩ := hsms' i t ht
    have hnone : s₀.released.toNat = 0 := by
      rw [hzero s₀ (List.mem_of_getElem? hs₀), UInt64.toNat_zero]
    rw [releasedOn_eq ht₀, hgap', hgap, hnone]
    omega
  · refine ⟨hcount, fun i s t hs ht => ?_⟩
    rw [releasedOn_eq ht, hzero s (List.mem_of_getElem? hs), UInt64.toNat_zero, Nat.zero_add]

end Device

/-- A launch leaves no warp behind, whatever it answers. On a device that other launches were made
on before, it answers as on a new device of the same description, makes the same calls of the hook
with the same deliveries between them, and leaves the same kernel and the same snapshots. Each SM
releases as many barriers as on the new device. -/
theorem a_launch_does_not_see_the_launches_before_it {σ α : Type} {plan : LaunchPlan σ α}
    {config : Config} {fresh device : Device} {kernel : Kernel} {folder : Folder} {host : σ}
    {report : LaunchReport σ} {s m : Nat} (hbuild : Device.build config = .ok (.ok fresh))
    (hused : fresh.Used device) (hk : kernel.Reached s m)
    (h : launch plan device kernel folder host = .ok report) :
    report.device.Vacant ∧ (∃ s' m', report.kernel.Reached s' m') ∧
      ∃ first, launch plan fresh kernel folder host = .ok first ∧
        first.result = report.result ∧ first.kernel = report.kernel ∧
        first.folder = report.folder ∧ first.host = report.host ∧
        (∃ log, launch plan.logged device kernel folder (host, []) = .ok (report.mapHost (·, log)) ∧
          launch plan.logged fresh kernel folder (host, []) = .ok (first.mapHost (·, log))) ∧
        ∃ gain, Device.Gains gain device report.device ∧ Device.Gains gain fresh first.device := by
  obtain ⟨hd, hconfig, hv⟩ := hused.vacant hbuild
  obtain ⟨hvacant, _, hreached⟩ := Launch.launch_vacant hd hv hk h
  refine ⟨hvacant, hreached, ?_⟩
  have hahead := Device.ahead_of_vacant hbuild hd hconfig hv
  rw [launch_logged plan device kernel folder host []] at h
  obtain ⟨logged, hlogged, rfl⟩ := Outcome.map_eq_ok.mp h
  obtain ⟨first, hfirst, after, rfl, hafter⟩ := launch_ahead hahead logged hlogged
  refine ⟨first.mapHost Prod.fst, ?_, rfl, rfl, rfl, rfl, ⟨first.host.2, hlogged, hfirst⟩, ?_⟩
  · rw [launch_logged plan fresh kernel folder host [], hfirst]
    rfl
  · have hfresh := Device.sound_of_build hbuild
    have hcount : first.device.sms.length = fresh.sms.length := by
      have hsound := Launch.launch_sound hfresh hfirst
      obtain ⟨_, hsame, _⟩ := Launch.launch_vacant hfresh
        (fun sm hsm => (Device.new_of_build hbuild hsm).1) hk hfirst
      rw [hsound.count, hfresh.count, hsame]
    exact ⟨_, Device.gains_of_ahead (fun sm hsm => (Device.new_of_build hbuild hsm).2) hahead
      hafter hcount⟩

/-- One launch that gets done, one whose blocks are too large, and then the first one again. -/
theorem a_launch_after_two_others :
    ∃ one two three first : LaunchReport Unit,
      launch Launch.twoBarriers .small Launch.lastThreeBlocks .empty () = .ok one ∧
      launch Launch.twoBarriers one.device (.bind (.line 1) (.line 9) ⟨"sums", 24⟩) .empty () =
        .ok two ∧
      two.result = .error (.ctaTooLarge 5 4) ∧
      launch Launch.twoBarriers two.device Launch.lastThreeBlocks .empty () = .ok three ∧
      three.device.sms.map (·.released) = [4, 8] ∧ three.device.Vacant ∧
      launch Launch.twoBarriers .small Launch.lastThreeBlocks .empty () = .ok first ∧
      first.result = three.result ∧ first.kernel = three.kernel ∧
      ∃ gain, Device.Gains gain two.device three.device ∧
        Device.Gains gain .small first.device := by
  have hruns : (do
      let one ← launch Launch.twoBarriers .small Launch.lastThreeBlocks .empty ()
      let two ← launch Launch.twoBarriers one.device (.bind (.line 1) (.line 9) ⟨"sums", 24⟩)
        .empty ()
      let three ← launch Launch.twoBarriers two.device Launch.lastThreeBlocks .empty ()
      return (two.result, three.device.sms.map (·.released)) : Outcome _) =
        .ok (.error (.ctaTooLarge 5 4), [4, 8]) := by cbv
  obtain ⟨one, hone, hruns⟩ := Outcome.bind_eq_ok.mp hruns
  obtain ⟨two, htwo, hruns⟩ := Outcome.bind_eq_ok.mp hruns
  obtain ⟨three, hthree, hruns⟩ := Outcome.bind_eq_ok.mp hruns
  obtain ⟨hresult, hreleased⟩ : two.result = .error (.ctaTooLarge 5 4) ∧
      three.device.sms.map (·.released) = [4, 8] := by simpa using hruns
  have hk := Launch.lastThreeBlocks_reached
  have hused : Device.small.Used two.device :=
    .launch (.launch .fresh hk hone) (.bind (.line 1) (.line 9) ⟨"sums", 24⟩) htwo
  obtain ⟨hvacant, _, first, hfirst, hsame, hkernel, _, _, _, hgain⟩ :=
    @a_launch_does_not_see_the_launches_before_it Unit Unit _ Device.small.config .small _ _ _ _ _
      _ _ rfl hused hk hthree
  exact ⟨one, two, three, first, hone, htwo, hresult, hthree, hreleased, hvacant, hfirst, hsame,
    hkernel, hgain⟩

end Simt
