-- Devices as they come from a description. Whatever is done to the SMs of a device, they
-- stay as many as the description says, and go on sharing it.
import Simt.Proofs.Sm.Operation
import Simt.Device

namespace Simt.Device

/-- A device of a description that passed the check. What is resident on its SMs is open. -/
structure Sound (d : Device) : Prop where
  valid : d.config.validate = .ok ()
  count : d.sms.length = d.config.numSms.toNat
  shared : ∀ sm ∈ d.sms, sm.config = d.config

variable {d : Device} {config : Config}

theorem sound_of_build (h : build config = .ok (.ok d)) : d.Sound := by
  unfold build at h
  split at h
  · cases h
  · rename_i hvalid
    split at h
    · cases h
    · cases h
      refine ⟨hvalid, by simp, ?_⟩
      intro sm hsm
      obtain ⟨id, _, rfl⟩ := List.mem_map.mp hsm
      rfl

theorem config_of_build (h : build config = .ok (.ok d)) : d.config = config := by
  unfold build at h
  split at h
  · cases h
  · split at h
    · cases h
    · cases h
      rfl

/-- A device stays sound when one SM changes and goes on sharing the description. -/
theorem Sound.set {i : Nat} {sm t : Sm} (h : d.Sound) (hsm : d.sms[i]? = some sm)
    (ht : t.config = sm.config) : Sound { d with sms := d.sms.set i t } := by
  refine ⟨h.valid, by simpa using h.count, ?_⟩
  intro u hu
  rcases List.mem_or_eq_of_mem_set hu with hu | rfl
  · exact h.shared u hu
  · rw [ht]
    exact h.shared sm (List.mem_of_getElem? hsm)

/-- An operation on one SM leaves the device sound. -/
theorem Sound.operate {i : Nat} {sm t : Sm} {op : Sm.Operation} (h : d.Sound)
    (hsm : d.sms[i]? = some sm) (ht : sm.step op = .ok t) :
    Sound { d with sms := d.sms.set i t } :=
  h.set hsm (Sm.step_config ht)

theorem Sound.warpSize_le (h : d.Sound) : d.warpSize ≤ maxWarpSize := by
  have hv := h.valid
  unfold Config.validate at hv
  split at hv
  · cases hv
  · rename_i hle
    exact Nat.not_lt.mp hle

theorem Sound.warpSize_pos (h : d.Sound) : 0 < d.warpSize := by
  have hv := h.valid
  unfold Config.validate at hv
  split_ifs at hv with _ h0
  refine Nat.pos_of_ne_zero fun he => h0 ?_
  rw [← UInt64.toNat_inj]
  exact he

theorem Sound.sms_pos (h : d.Sound) : 0 < d.sms.length := by
  have hv := h.valid
  unfold Config.validate at hv
  split_ifs at hv with _ _ h0
  rw [h.count]
  refine Nat.pos_of_ne_zero fun he => h0 ?_
  rw [← UInt64.toNat_inj]
  exact he

/-! ## A small device -/

/-- Two SMs, and on each of them places for four warps of two lanes. -/
def small : Device where
  config := ⟨"small", 2, 2, 4⟩
  sms := [.new 0 ⟨"small", 2, 2, 4⟩, .new 1 ⟨"small", 2, 2, 4⟩]

theorem small_sound : small.Sound :=
  @sound_of_build small small.config rfl

theorem small_quiet : ∀ sm ∈ small.sms, sm.liveWarps = 0 := by decide

end Simt.Device
