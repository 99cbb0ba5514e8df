-- Launches on two devices that differ in their counts of released barriers. Neither the hook nor
-- the launch looks at these counts, so the launch on the device with the lower counts does the
-- same step by step, and the two devices stay as far apart as they were.
import Simt.Proofs.Sm.Ahead
import Simt.Launch

namespace Simt

variable {σ α : Type}

/-- The second device has the SMs of the first one, each with its number of barriers more. -/
def Device.Ahead (k : Nat → Nat) (d e : Device) : Prop :=
  ∃ sms, e = { d with sms } ∧ sms.length = d.sms.length ∧
    ∀ i t, sms[i]? = some t → ∃ s : Sm, d.sms[i]? = some s ∧ s.Ahead (k i) t

theorem Device.Ahead.set {k : Nat → Nat} {d e : Device} {i : Nat} {s t : Sm} (h : d.Ahead k e)
    (hst : s.Ahead (k i) t) :
    Device.Ahead k { d with sms := d.sms.set i s } { e with sms := e.sms.set i t } := by
  obtain ⟨sms, rfl, hlength, hsms⟩ := h
  refine ⟨sms.set i t, rfl, by simp [hlength], fun j u hu => ?_⟩
  by_cases hj : i = j
  · subst hj
    obtain ⟨hlt, _⟩ := List.getElem?_eq_some_iff.mp hu
    rw [List.length_set] at hlt
    rw [List.getElem?_set_self hlt, Option.some.injEq] at hu
    subst hu
    exact ⟨s, List.getElem?_set_self (by omega), hst⟩
  · rw [List.getElem?_set_ne hj] at hu ⊢
    exact hsms j u hu

namespace Launch

variable {k : Nat} {gap : Nat → Nat} {hook : Hook σ α} {plan : LaunchPlan σ α} {folder : Folder}
  {cta : Cta} {inst : Instruction} {warp : Warp} {warpsPerCta : UInt32}

/-! ## One warp instruction -/

/-- The second issue stands where the first one does, on an SM that is ahead. -/
def Front.Ahead (k : Nat) (front next : Front σ α) : Prop :=
  ∃ sm, next = { front with sm } ∧ front.sm.Ahead k sm

variable {front next : Front σ α}

theorem settle_ahead {id : UInt32} (h : front.Ahead k next) :
    Outcome.Follows (Front.Ahead k) (settle hook id front) (settle hook id next) := by
  obtain ⟨sm, rfl, hsm⟩ := h
  unfold settle
  simp only
  split
  · refine (Sm.issueAtomic_ahead hsm).bind fun s t hst => ?_
    refine Outcome.follows_bind fun taken => Outcome.follows_bind fun atomics => ?_
    exact (Sm.completeAtomic_ahead hst).bind fun s' t' hst' => Outcome.follows_ok ⟨t', rfl, hst'⟩
  · exact Outcome.follows_ok ⟨sm, rfl, hsm⟩

theorem meet_ahead {s t : Sm} (h : s.Ahead k t) :
    Outcome.Follows (Sm.Ahead k) (meet cta inst warp s) (meet cta inst warp t) := by
  unfold meet
  split
  · exact Sm.arrive_ahead h
  · exact Outcome.follows_ok h

theorem issue_ahead (h : front.Ahead k next) :
    Outcome.Follows (Front.Ahead k) (issue hook folder cta inst warp front)
      (issue hook folder cta inst warp next) := by
  obtain ⟨sm, rfl, hsm⟩ := h
  refine Outcome.follows_bind fun slot => Outcome.follows_bind fun called => ?_
  have hcalled : Front.Ahead k { front with slot := called.2, host := called.1 }
      { front with sm, slot := called.2, host := called.1 } := ⟨sm, rfl, hsm⟩
  refine (settle_ahead hcalled).bind fun mid mid' hmid => ?_
  obtain ⟨sm', rfl, hsm'⟩ := hmid
  refine (meet_ahead hsm').bind fun s t hst => ?_
  refine Outcome.follows_bind fun issued => Outcome.follows_bind fun cycle => ?_
  exact Outcome.follows_ok ⟨t, rfl, hst⟩

theorem issueAll_ahead {warps : List Warp} {program : List Instruction} (h : front.Ahead k next) :
    Outcome.Follows (Front.Ahead k) (issueAll hook folder cta warps program front)
      (issueAll hook folder cta warps program next) := by
  refine Outcome.follows_foldlM (fun a b inst hab => ?_) program h
  exact Outcome.follows_foldlM (fun a b warp => issue_ahead) warps hab

/-! ## One block -/

/-- The second SM has taken the same warps. -/
def Admission.Ahead (k : Nat) (admission other : Admission) : Prop :=
  ∃ sm, other = { admission with sm } ∧ admission.sm.Ahead k sm

theorem enter_ahead {cta : UInt32} {number : Nat} {threads : List (List UInt32)} {s t : Sm}
    (h : s.Ahead k t) : Outcome.Follows (Admission.Ahead k) (enter cta warpsPerCta number threads s)
      (enter cta warpsPerCta number threads t) := by
  induction threads generalizing number s t with
  | nil => exact Outcome.follows_ok ⟨t, rfl, h⟩
  | cons ts rest ih =>
    refine Outcome.follows_bind fun id => ?_
    rcases Sm.launch?_ahead cta id h with ⟨hs, ht⟩ | ⟨s', t', hs, ht, hst⟩
    · rw [hs, ht]
      exact Outcome.follows_ok ⟨t, rfl, h⟩
    · rw [hs, ht]
      refine (ih hst).bind fun admission other hadmission => ?_
      obtain ⟨sm, rfl, hsm⟩ := hadmission
      exact Outcome.follows_ok ⟨sm, rfl, hsm⟩

theorem leave_ahead {warps : List Warp} {s t : Sm} (h : s.Ahead k t) :
    Outcome.Follows (Sm.Ahead k) (leave warps s) (leave warps t) := by
  refine Outcome.Follows.bind (R := Sm.Ahead k) ?_ fun a b hab => Outcome.follows_ok hab.retire
  refine Outcome.follows_foldlM (fun a b warp hab => ?_) warps h
  exact Sm.exit_ahead hab

/-- The second launch stands where the first one does, on a device that is ahead. -/
def State.Ahead (gap : Nat → Nat) (state next : State σ α) : Prop :=
  ∃ device, next = { state with device } ∧ state.device.Ahead gap device

/-- The second SM was asked to take the same block. -/
def Opening.Ahead (gap : Nat → Nat) (opening other : Opening) : Prop :=
  ∃ admission, other = { opening with admission } ∧
    opening.admission.Ahead (gap opening.cta.sm) admission

inductive BlockEnd.Ahead (gap : Nat → Nat) : BlockEnd σ α → BlockEnd σ α → Prop
  | done {state next : State σ α} : state.Ahead gap next → Ahead gap (.done state) (.done next)
  | refused {warps : Nat} {state next : State σ α} :
      state.Ahead gap next → Ahead gap (.refused warps state) (.refused warps next)

variable {state state' : State σ α}

theorem openCta_ahead (h : state.Ahead gap state') :
    Outcome.Follows (Opening.Ahead gap) (openCta warpsPerCta state) (openCta warpsPerCta state') := by
  obtain ⟨_, rfl, sms, rfl, hlength, hsms⟩ := h
  refine Outcome.follows_bind fun index => ?_
  simp only [hlength]
  refine Outcome.follows_bind fun smId => Outcome.follows_bind fun formed => ?_
  obtain ⟨threads, kernel⟩ := formed
  cases ht : sms[smId]? with
  | none => nofun
  | some t =>
    obtain ⟨s, hs, hst⟩ := hsms _ t ht
    rw [hs]
    refine (enter_ahead hst).bind fun admission other hadmission => ?_
    exact Outcome.follows_ok ⟨other, rfl, hadmission⟩

theorem putSm_ahead {i : Nat} {s t : Sm} (h : state.Ahead gap state') (hst : s.Ahead (gap i) t) :
    (state.putSm i s).Ahead gap (state'.putSm i t) := by
  obtain ⟨device, rfl, hdevice⟩ := h
  exact ⟨_, rfl, hdevice.set hst⟩

theorem record_ahead (h : state.Ahead gap state') :
    Outcome.Follows (State.Ahead gap) (record plan state) (record plan state') := by
  obtain ⟨_, rfl, sms, rfl, hsms⟩ := h
  unfold record
  split
  · exact Outcome.follows_ok ⟨_, rfl, sms, rfl, hsms⟩
  · exact Outcome.follows_bind fun snapshot => Outcome.follows_ok ⟨_, rfl, sms, rfl, hsms⟩

theorem refuse_ahead {opening other : Opening} (h : state.Ahead gap state')
    (ho : opening.Ahead gap other) :
    Outcome.Follows (State.Ahead gap) (refuse opening state) (refuse other state') := by
  obtain ⟨_, rfl, sm, rfl, hsm⟩ := ho
  refine (leave_ahead hsm).bind fun s t hst => ?_
  obtain ⟨device, hstate, hdevice⟩ := putSm_ahead h hst
  rw [hstate]
  exact Outcome.follows_ok ⟨device, rfl, hdevice⟩

theorem finish_ahead {opening other : Opening} (h : state.Ahead gap state')
    (ho : opening.Ahead gap other) (hf : front.Ahead (gap opening.cta.sm) next) :
    Outcome.Follows (State.Ahead gap) (finish plan opening front state)
      (finish plan other next state') := by
  obtain ⟨_, rfl, _, rfl, _⟩ := ho
  obtain ⟨sm, rfl, hsm⟩ := hf
  obtain ⟨device, rfl, hdevice⟩ := h
  refine (leave_ahead hsm).bind fun s t hst => ?_
  refine Outcome.follows_bind fun stats => Outcome.follows_bind fun counts => ?_
  refine Outcome.follows_bind fun kernel => record_ahead ?_
  exact ⟨_, rfl, hdevice.set hst⟩

theorem executeCta_ahead (h : state.Ahead gap state') :
    Outcome.Follows (BlockEnd.Ahead gap) (executeCta plan warpsPerCta state)
      (executeCta plan warpsPerCta state') := by
  refine (openCta_ahead h).bind fun opening other ho => ?_
  have ho' := ho
  obtain ⟨_, rfl, sm, rfl, hsm⟩ := ho'
  simp only
  split
  · refine (refuse_ahead h ho).bind fun s t hst => Outcome.follows_ok (.refused hst)
  · have hfront : (opening.front state).Ahead (gap opening.cta.sm)
        (Opening.front { opening with admission := { opening.admission with sm } } state') := by
      obtain ⟨device, rfl, _⟩ := h
      exact ⟨sm, rfl, hsm⟩
    have hfolder : state'.folder = state.folder := by
      obtain ⟨device, rfl, _⟩ := h
      rfl
    rw [hfolder]
    refine (issueAll_ahead hfront).bind fun front next hf => ?_
    exact (finish_ahead h ho hf).bind fun s t hst => Outcome.follows_ok (.done hst)

/-! ## The whole launch -/

theorem run_ahead {limit : Nat} (h : state.Ahead gap state') :
    Outcome.Follows (BlockEnd.Ahead gap) (run plan warpsPerCta limit state)
      (run plan warpsPerCta limit state') := by
  induction limit generalizing state state' with
  | zero => exact Outcome.follows_ok (.done h)
  | succ limit ih =>
    have hkernel : state'.kernel = state.kernel := by
      obtain ⟨device, rfl, _⟩ := h
      rfl
    rw [run, run, hkernel]
    split
    · exact Outcome.follows_ok (.done h)
    · refine (executeCta_ahead h).bind fun last last' hlast => ?_
      cases hlast with
      | done hstate => exact ih hstate
      | refused hstate => exact Outcome.follows_ok (.refused hstate)

end Launch

/-- The second report is the first one, of a device that is ahead. -/
def LaunchReport.Ahead (gap : Nat → Nat) (report other : LaunchReport σ) : Prop :=
  ∃ device, other = { report with device } ∧ report.device.Ahead gap device

/-- Where a launch on a device goes through, the launch on a device with lower counts does the
same, and the counts stay as far apart as they were. -/
theorem launch_ahead {gap : Nat → Nat} {plan : LaunchPlan σ α} {device other : Device}
    {kernel : Kernel} {folder : Folder} {host : σ} (h : device.Ahead gap other) :
    Outcome.Follows (LaunchReport.Ahead gap) (launch plan device kernel folder host)
      (launch plan other kernel folder host) := by
  have hdevice := h
  obtain ⟨sms, rfl, hlength, _⟩ := h
  have hwidth : Device.warpSize { device with sms } = device.warpSize := rfl
  unfold launch
  rw [hwidth]
  split
  · exact Outcome.follows_ok ⟨_, rfl, hdevice⟩
  · refine Outcome.follows_bind fun threads => Outcome.follows_bind fun warps => ?_
    simp only
    split
    · exact Outcome.follows_ok ⟨_, rfl, hdevice⟩
    · refine Outcome.follows_bind fun slot => ?_
      have hstart : (Launch.start device kernel folder host slot).Ahead gap
          (Launch.start { device with sms } kernel folder host slot) :=
        ⟨_, by rw [Launch.start, Launch.start, hlength], hdevice⟩
      refine (Launch.run_ahead hstart).bind fun last last' hlast => ?_
      cases hlast with
      | done hstate =>
        obtain ⟨after, rfl, hafter⟩ := hstate
        exact Outcome.follows_ok ⟨after, rfl, hafter⟩
      | refused hstate =>
        obtain ⟨after, rfl, hafter⟩ := hstate
        exact Outcome.follows_ok ⟨after, rfl, hafter⟩

end Simt
