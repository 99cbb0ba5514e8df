-- A device description in JSON overrides the H100 field by field. The members of the object may
-- stand in any order and any of them may be missing, and what members of other names say makes no
-- difference. What is made of them is checked as every description is, and then a device can be
-- built from it, if there is room for its SMs.
import Simt.Config.File
import Simt.Device
import Simt.Proofs.Json.Members

namespace Simt.Config

open Json

variable {c : Config} {m : List Char × List Char} {text : String}

/-! ## Settings -/

/-- What one member of a description says. -/
inductive Setting where
  | name (name : String)
  | numSms (n : UInt64)
  | warpSize (n : UInt64)
  | maxWarps (n : UInt64)

namespace Setting

/-- The name of the member. -/
def key : Setting → String
  | name _ => "name"
  | numSms _ => "num_sms"
  | warpSize _ => "warp_size"
  | maxWarps _ => "max_warps_per_sm"

def replace (c : Config) : Setting → Config
  | name text => { c with name := text }
  | numSms n => { c with numSms := n }
  | warpSize n => { c with warpSize := n }
  | maxWarps n => { c with maxWarps := n }

/-- The text of the value of a member: a string in quotes, or a whole number in decimal. -/
inductive IsValue : Setting → List Char → Prop
  | name {name : String} {s : List Char} (h : Spells s name.toList) :
      IsValue (.name name) ('"' :: s ++ ['"'])
  | numSms (n : UInt64) : IsValue (.numSms n) (Numeral.chars 10 n.toNat)
  | warpSize (n : UInt64) : IsValue (.warpSize n) (Numeral.chars 10 n.toNat)
  | maxWarps (n : UInt64) : IsValue (.maxWarps n) (Numeral.chars 10 n.toNat)

end Setting

def keys : List String := ["name", "num_sms", "warp_size", "max_warps_per_sm"]

/-- What a member says, if its name is that of a field. -/
inductive Means : List Char × List Char → Option Setting → Prop
  | setting {setting : Setting} {value : List Char} (h : setting.IsValue value) :
      Means (setting.key.toList, value) (some setting)
  | nothing {key value : List Char} (hkey : ∀ known ∈ keys, known.toList ≠ key)
      (hvalue : IsText .value value) : Means (key, value) none

/-- The fields that a description sets. -/
structure Overrides where
  name : Option String := none
  numSms : Option UInt64 := none
  warpSize : Option UInt64 := none
  maxWarps : Option UInt64 := none

namespace Overrides

def settings (o : Overrides) : List Setting :=
  o.name.toList.map .name ++ o.numSms.toList.map .numSms ++ o.warpSize.toList.map .warpSize ++
    o.maxWarps.toList.map .maxWarps

/-- The description with these fields replaced. -/
def onto (o : Overrides) (c : Config) : Config where
  name := o.name.getD c.name
  numSms := o.numSms.getD c.numSms
  warpSize := o.warpSize.getD c.warpSize
  maxWarps := o.maxWarps.getD c.maxWarps

/-- The text is an object that sets these fields and no others. Each of them is set once, in any
order, and there may be members of other names between them. -/
def IsText (o : Overrides) (text : String) : Prop :=
  ∃ members said, ObjectText members text.toList ∧ List.Forall₂ Means members said ∧
    (said.filterMap id).Perm o.settings

theorem foldl_settings (o : Overrides) (c : Config) :
    o.settings.foldl Setting.replace c = o.onto c := by
  obtain ⟨name, numSms, warpSize, maxWarps⟩ := o
  cases name <;> cases numSms <;> cases warpSize <;> cases maxWarps <;> rfl

theorem nodup_settings (o : Overrides) : (o.settings.map Setting.key).Nodup := by
  obtain ⟨name, numSms, warpSize, maxWarps⟩ := o
  cases name <;> cases numSms <;> cases warpSize <;> cases maxWarps <;>
    simp [settings, Setting.key]

end Overrides

theorem replace_comm {s t : Setting} (h : s.key ≠ t.key) (c : Config) :
    (s.replace c |> t.replace) = (t.replace c |> s.replace) := by
  cases s <;> cases t <;> first | rfl | exact absurd rfl h

/-- The order of settings of different fields makes no difference. -/
theorem foldl_replace_perm {l l' : List Setting} (hperm : l.Perm l')
    (hnodup : (l.map Setting.key).Nodup) (c : Config) :
    l.foldl Setting.replace c = l'.foldl Setting.replace c := by
  refine hperm.foldl_eq' (fun s hs t ht c => ?_) c
  by_cases hkey : s.key = t.key
  · rw [List.inj_on_of_nodup_map hnodup hs ht hkey]
  · exact replace_comm hkey c

/-! ## Reading a description -/

/-- The field of a setting, which is the same for all values of it. -/
def Setting.field : Setting → Json.Field Config
  | name _ => .ofOptional "name" .string (·.name) ({ · with name := · })
  | numSms _ => .ofOptional "num_sms" .u64 (·.numSms) ({ · with numSms := · })
  | warpSize _ => .ofOptional "warp_size" .u64 (·.warpSize) ({ · with warpSize := · })
  | maxWarps _ => .ofOptional "max_warps_per_sm" .u64 (·.maxWarps) ({ · with maxWarps := · })

def fields : List (Json.Field Config) :=
  [Setting.field (.name ""), Setting.field (.numSms 0), Setting.field (.warpSize 0),
    Setting.field (.maxWarps 0)]

theorem codec_eq_record : codec = .record .h100 fields := rfl

theorem map_name_fields : fields.map (·.name) = keys := rfl

theorem Setting.field_mem (setting : Setting) : setting.field ∈ fields := by
  cases setting <;> simp [fields, field]

theorem Setting.field_name (setting : Setting) : setting.field.name = setting.key := by
  cases setting <;> rfl

/-- A setting is read by its field. -/
theorem Setting.IsValue.takes {setting : Setting} {value : List Char} (h : setting.IsValue value)
    (c : Config) : (setting.field.read c).Takes value (setting.replace c) := by
  cases h with
  | name h => exact Record.optional_takes (string_takes h)
  | numSms n => exact Record.optional_takes (u64_takes n)
  | warpSize n => exact Record.optional_takes (u64_takes n)
  | maxWarps n => exact Record.optional_takes (u64_takes n)

/-- Members that set every field at most once replace those fields, from the first to the last. -/
theorem fills_said {members : List (List Char × List Char)} {said : List (Option Setting)}
    {seen : List String} (h : List.Forall₂ Means members said)
    (hnodup : ((said.filterMap id).map Setting.key).Nodup)
    (hnew : ∀ setting ∈ said.filterMap id, setting.key ∉ seen) :
    Record.Fills fields members seen c ((said.filterMap id).foldl Setting.replace c) := by
  induction h generalizing seen c with
  | nil => exact .ends (by simp [fields, Setting.field, Field.ofOptional])
  | @cons m meant members said hmeans _ ih =>
    cases hmeans with
    | nothing hkey hvalue =>
      refine .other ?_ hvalue (ih hnodup hnew)
      intro field hmem
      exact hkey field.name (map_name_fields ▸ List.mem_map_of_mem hmem)
    | @setting setting value hvalue =>
      have hcons : (some setting :: said).filterMap id = setting :: said.filterMap id := rfl
      rw [hcons] at hnodup hnew ⊢
      rw [List.map_cons, List.nodup_cons] at hnodup
      rw [← setting.field_name]
      refine .field setting.field_mem ?_ (hvalue.takes c) (ih hnodup.2 fun other hother => ?_)
      · rw [setting.field_name]
        exact hnew setting List.mem_cons_self
      · rw [List.mem_cons, not_or, setting.field_name]
        refine ⟨fun he => ?_, hnew other (List.mem_cons_of_mem setting hother)⟩
        exact hnodup.1 (he ▸ List.mem_map_of_mem hother)

theorem decode_overrides {o : Overrides} (h : o.IsText text) :
    codec.decode text = .ok (o.onto .h100) := by
  obtain ⟨members, said, htext, hmeans, hperm⟩ := h
  have hnodup : ((said.filterMap id).map Setting.key).Nodup :=
    (hperm.map Setting.key).nodup_iff.mpr o.nodup_settings
  have hfills : Record.Fills fields members [] .h100 _ := fills_said hmeans hnodup (by simp)
  rw [foldl_replace_perm hperm hnodup, o.foldl_settings] at hfills
  rw [codec_eq_record]
  exact Codec.record_decode (by decide) htext hfills

/-- A description that sets some fields is checked as the H100 with these fields. -/
theorem ofJson_overrides {o : Overrides} (h : o.IsText text) :
    ofJson text = (o.onto .h100).validate.map fun _ => o.onto .h100 := by
  rw [ofJson, decode_overrides h]
  rfl

/-! ## Building a device -/

theorem validate_of_ofJson (h : ofJson text = .ok c) : c.validate = .ok () := by
  unfold ofJson at h
  split at h
  · cases h
  · rename_i config _
    cases hvalid : config.validate with
    | error e =>
      rw [hvalid] at h
      cases h
    | ok u =>
      rw [hvalid] at h
      cases h
      exact hvalid

theorem build_of_validate (h : c.validate = .ok ()) :
    (c.numSms.toNat ≤ Device.maxSms → ∃ d, Device.build c = .ok (.ok d)) ∧
      (Device.maxSms < c.numSms.toNat → Device.build c = .error .deviceTooLarge) := by
  refine ⟨fun hle => ?_, fun hgt => ?_⟩
  · rw [Device.build, h]
    exact ⟨_, if_neg (by omega)⟩
  · rw [Device.build, h]
    exact if_pos hgt

/-- A description in JSON is the H100 with the fields replaced that its members set, whatever their
order is and whatever stands between them. It is answered where it passes the check, and with what
the check finds otherwise. From every description that is answered a device can be built, as long
as there is room for its SMs. -/
theorem a_description_replaces_fields_of_the_h100 (o : Overrides) (text : String)
    (h : o.IsText text) :
    ofJson text = ((o.onto .h100).validate.map fun _ => o.onto .h100) ∧
    ∀ config, ofJson text = .ok config →
      (config.numSms.toNat ≤ Device.maxSms → ∃ d, Device.build config = .ok (.ok d)) ∧
      (Device.maxSms < config.numSms.toNat → Device.build config = .error .deviceTooLarge) :=
  ⟨ofJson_overrides h, fun _ hok => build_of_validate (validate_of_ofJson hok)⟩

/-- Between blanks, a member that nobody knows and the number of SMs. -/
theorem a_description_of_four_sms :
    ofJson "\x7b \"note\": [null],\n\"num_sms\" :4\x7d" = .ok { Config.h100 with numSms := 4 } ∧
      ∃ d, Device.build { Config.h100 with numSms := 4 } = .ok (.ok d) := by
  have hnull : IsText .value "[null]".toList :=
    @IsText.filled .list "null".toList (@IsText.last .list [] "null".toList []
      (by decide) (.element (.word (by decide))) (by decide))
  have hnote : MemberText ("note".toList, "[null]".toList) " \"note\": [null]".toList :=
    @MemberText.mk [' '] "note".toList _ [] [' '] _ [] (by decide) (spells_self (by decide))
      (by decide) (by decide) (by decide)
  have hsms : MemberText ("num_sms".toList, "4".toList) "\n\"num_sms\" :4".toList :=
    @MemberText.mk ['\n'] "num_sms".toList _ [' '] [] _ [] (by decide) (spells_self (by decide))
      (by decide) (by decide) (by decide)
  have hfour : (Setting.numSms 4).IsValue "4".toList := by
    rw [show "4".toList = Numeral.chars 10 (4 : UInt64).toNat by decide +kernel]
    exact .numSms 4
  have htext : Overrides.IsText { numSms := some 4 }
      "\x7b \"note\": [null],\n\"num_sms\" :4\x7d" := by
    refine ⟨_, [none, some (.numSms 4)],
      @ObjectText.filled _ [] _ [] (by decide) (.more hnote (.last hsms)) (by decide), ?_, .refl _⟩
    exact .cons (.nothing (by simp [keys]) hnull) (.cons (@Means.setting (.numSms 4) _ hfour) .nil)
  obtain ⟨hread, hbuild⟩ := a_description_replaces_fields_of_the_h100 _ _ htext
  exact ⟨hread, (hbuild _ hread).1 (by decide)⟩

/-- There is no room for the SMs of a description that passes the check. -/
theorem a_description_of_more_sms_than_fit :
    ∃ config, ofJson "\x7b\"num_sms\":18446744073709551615\x7d" = .ok config ∧
      Device.build config = .error .deviceTooLarge := by
  have hsms : MemberText ("num_sms".toList, "18446744073709551615".toList)
      "\"num_sms\":18446744073709551615".toList :=
    @MemberText.mk [] "num_sms".toList _ [] [] _ [] (by decide) (spells_self (by decide))
      (by decide) (by decide) (by decide)
  have hmost : (Setting.numSms 18446744073709551615).IsValue "18446744073709551615".toList := by
    rw [show "18446744073709551615".toList =
      Numeral.chars 10 (18446744073709551615 : UInt64).toNat by decide +kernel]
    exact .numSms 18446744073709551615
  have htext : Overrides.IsText { numSms := some 18446744073709551615 }
      "\x7b\"num_sms\":18446744073709551615\x7d" :=
    ⟨_, [some (.numSms 18446744073709551615)],
      @ObjectText.filled _ [] _ [] (by decide) (.last hsms) (by decide),
      .cons (@Means.setting (.numSms 18446744073709551615) _ hmost) .nil, .refl _⟩
  exact ⟨_, ofJson_overrides htext, (build_of_validate rfl).2 (by decide)⟩

end Simt.Config
