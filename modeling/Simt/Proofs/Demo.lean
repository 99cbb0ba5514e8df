-- The histogram on every device. Where an SM can hold the warps of a block, the program finds a
-- thousand, and the lines that it writes have a closed form. On the other devices its launch is
-- refused.
import Simt.Proofs.Config.File
import Simt.Proofs.Demo.Count
import Simt.Proofs.Json.Model

namespace Simt.Demo

open Launch
open Numeral (decimal)

variable {device : Device}

/-! ## What the program writes -/

def announced (config : Config) : String :=
  "Initialized " ++ config.name ++ " with " ++ decimal config.numSms.toNat ++ " SMs, warp size " ++
    decimal config.warpSize.toNat ++ "\n"

/-- The lines of a count that was right, on a device with warps of this width. -/
def verified (width : Nat) : String :=
  "Verification PASSED: 1000 atomic updates across 16 bins\n" ++
  ("First atomic warp instruction: [inst @ pc=0x0008] " ++
    String.ofList (List.replicate width '1') ++ "\n") ++
  ("Stats: 8 blocks | " ++ decimal (8 * warpsNeeded 128 width) ++ " warps | 1024 threads | " ++
    decimal (24 * warpsNeeded 128 width) ++ " warp insts | 1000 atomics | " ++
    decimal (24 * warpsNeeded 128 width) ++ " cycles\n")

theorem countLines_ok {report : LaunchReport (Memory × List (HookEvent Nat))} {stats : Stats}
    (h : launch plan.logged device kernel .empty (.start, []) = .ok report)
    (hok : report.result = .ok stats) (hcounted : Counted report.host) :
    countLines device =
      .ok (.ok (verdictLine threadCount ++ sampleLine report.host.1.sample ++ statsLine stats)) := by
  obtain ⟨config, hconfig, hkernel⟩ := launchConfig_kernel
  have hplain := launch_logged plan device kernel .empty .start []
  rw [h] at hplain
  have hsum : Word.sum32 report.host.1.bins = .ok threadCount := by
    rw [hcounted.bins]
    decide +kernel
  rw [countLines, hconfig, Outcome.ok_bind, hkernel]
  show (launch plan device kernel .empty .start >>= _) = _
  rw [hplain]
  simp only [Except.map, Outcome.ok_bind, LaunchReport.mapHost, hok, hsum]
  rfl

theorem countLines_refused (hd : device.Sound)
    (hlarge : device.config.maxWarps.toNat < warpsNeeded 128 device.warpSize) :
    countLines device = .ok (.error
      (.ctaTooLarge (warpsNeeded 128 device.warpSize) device.config.maxWarps.toNat)) := by
  obtain ⟨config, hconfig, hkernel⟩ := launchConfig_kernel
  have hrefused := launch_too_large plan .empty .start hd (show kernel.bound = true from rfl) (by decide)
    hlarge
  rw [countLines, hconfig, Outcome.ok_bind, hkernel]
  show (launch plan device kernel .empty .start >>= _) = _
  rw [hrefused]
  rfl

theorem Figures.statsLine_eq {stats : Stats} {warps : Nat} (h : Figures warps stats) :
    statsLine stats = "Stats: 8 blocks | " ++ decimal (8 * warps) ++ " warps | 1024 threads | " ++
      decimal (24 * warps) ++ " warp insts | 1000 atomics | " ++ decimal (24 * warps) ++
      " cycles\n" := by
  have height : decimal 8 = "8" := by decide +kernel
  have hthousands : decimal 1024 = "1024" := by decide +kernel
  have hthousand : decimal 1000 = "1000" := by decide +kernel
  unfold statsLine
  rw [h.blocks, h.warps, h.threads, h.issued, h.atomics, h.cycles, height, hthousands, hthousand]
  simp [String.append_assoc]

theorem sampleLine_eq (ones : String) :
    sampleLine (some (" [inst @ pc=0x0008] " ++ ones)) =
      "First atomic warp instruction: [inst @ pc=0x0008] " ++ ones ++ "\n" := by
  have hlabel : "First atomic warp instruction:" ++ " [inst @ pc=0x0008] " =
      "First atomic warp instruction: [inst @ pc=0x0008] " := by decide +kernel
  show "First atomic warp instruction:" ++ (" [inst @ pc=0x0008] " ++ ones) ++ "\n" = _
  rw [← String.append_assoc, hlabel]

theorem verdictLine_eq : verdictLine threadCount =
    "Verification PASSED: 1000 atomic updates across 16 bins\n" := by
  decide +kernel

/-- The description that the program takes: that of the H100 where there is no file. -/
def Describes (config : Config) : Option TextFile → Prop
  | none => config = .h100
  | some file => Config.ofFile file = .ok config

theorem run_described {config : Config} {file : Option TextFile} (h : Describes config file) :
    run file = runOn config := by
  cases file with
  | none =>
    obtain rfl : config = .h100 := h
    rfl
  | some file =>
    have h : Config.ofFile file = .ok config := h
    rw [run, h]

/-- Every description that passes the check can be written to a file. -/
theorem describes_encode {config : Config} (hvalid : config.validate = .ok ()) :
    Describes config (some (.text (Config.codec.encode config))) := by
  have hfile : ∀ text, Config.ofFile (.text text) = Config.ofJson text := fun _ => rfl
  have hdecoded : Config.codec.decode (Config.codec.encode config) = .ok config :=
    Config.codec_faithful.decode_encode config
  show Config.ofFile _ = _
  rw [hfile, Config.ofJson, hdecoded]
  simp only [hvalid]
  rfl

theorem initializedLine_eq (hd : device.Sound) : initializedLine device = announced device.config := by
  unfold initializedLine
  rw [hd.count]
  rfl

theorem histogram_finishes {config : Config} (hbuild : Device.build config = .ok (.ok device))
    (hfits : warpsNeeded 128 config.warpSize.toNat ≤ config.maxWarps.toNat) :
    histogram device = ⟨announced config ++ verified config.warpSize.toNat, .finished⟩ ∧
      ∃ report, launch plan.logged device kernel .empty (.start, []) = .ok report ∧
        launch plan device kernel .empty .start = .ok (report.mapHost Prod.fst) ∧
        Counted report.host := by
  have hd := Device.sound_of_build hbuild
  have hnew := fun sm (hsm : sm ∈ device.sms) => Device.new_of_build hbuild hsm
  obtain rfl := Device.config_of_build hbuild
  obtain ⟨report, stats, hrun, hok, hcounted, hsample, hfigures⟩ :=
    launch_finishes hd (fun sm hsm => (hnew sm hsm).1) (fun sm hsm => (hnew sm hsm).2) hfits
  refine ⟨?_, report, hrun, ?_, hcounted⟩
  · rw [histogram, countLines_ok hrun hok hcounted, initializedLine_eq hd, hsample, sampleLine_eq,
      verdictLine_eq, hfigures.statsLine_eq]
    rfl
  · rw [launch_logged plan device kernel .empty .start [], hrun]
    rfl

theorem histogram_refused {config : Config} (hbuild : Device.build config = .ok (.ok device))
    (hlarge : config.maxWarps.toNat < warpsNeeded 128 config.warpSize.toNat) :
    histogram device = ⟨announced config, .refused
      (.ctaTooLarge (warpsNeeded 128 config.warpSize.toNat) config.maxWarps.toNat)⟩ := by
  have hd := Device.sound_of_build hbuild
  obtain rfl := Device.config_of_build hbuild
  rw [histogram, countLines_refused hd hlarge, initializedLine_eq hd]
  rfl

end Simt.Demo

namespace Simt

open Demo

/-- On every device that a description gives, however wide its warps are, the histogram is right
where an SM can hold the warps of a block. Every thread that counts adds one to its bin, and what
the program writes says so. On the other devices the launch is refused, and nothing is written
after the device is announced. -/
theorem the_histogram_is_right_on_every_device {config : Config} (hvalid : config.validate = .ok ())
    (hsms : config.numSms.toNat ≤ Device.maxSms) :
    Describes config (some (.text (Config.codec.encode config))) ∧
    (warpsNeeded 128 config.warpSize.toNat ≤ config.maxWarps.toNat →
      (∀ file, Describes config file →
        run file = ⟨announced config ++ verified config.warpSize.toNat, .finished⟩) ∧
      ∃ device report, Device.build config = .ok (.ok device) ∧
        launch plan.logged device kernel .empty (.start, []) = .ok report ∧
        launch plan device kernel .empty .start = .ok (report.mapHost Prod.fst) ∧
        Counted report.host) ∧
    (config.maxWarps.toNat < warpsNeeded 128 config.warpSize.toNat →
      ∀ file, Describes config file →
        run file = ⟨announced config, .refused (.ctaTooLarge
          (warpsNeeded 128 config.warpSize.toNat) config.maxWarps.toNat)⟩) := by
  obtain ⟨device, hbuild⟩ := (Config.build_of_validate hvalid).1 hsms
  have hrun : ∀ file, Describes config file → run file = histogram device := by
    intro file hfile
    rw [run_described hfile, runOn, hbuild]
  refine ⟨describes_encode hvalid, fun hfits => ?_, fun hlarge file hfile => ?_⟩
  · obtain ⟨hreport, report, hlogged, hlaunch, hcounted⟩ := histogram_finishes hbuild hfits
    exact ⟨fun file hfile => (hrun file hfile).trans hreport, device, report, hbuild, hlogged,
      hlaunch, hcounted⟩
  · exact (hrun file hfile).trans (histogram_refused hbuild hlarge)

/-- Five lanes do not divide a block evenly. It takes 26 warps, and the last has three threads. -/
theorem warps_of_five_lanes_count_a_thousand :
    Config.validate ⟨"five", 3, 5, 26⟩ = .ok () ∧
      run (some (.text (Config.codec.encode ⟨"five", 3, 5, 26⟩))) =
        ⟨"Initialized five with 3 SMs, warp size 5\n" ++
          "Verification PASSED: 1000 atomic updates across 16 bins\n" ++
          "First atomic warp instruction: [inst @ pc=0x0008] 11111\n" ++
          "Stats: 8 blocks | 208 warps | 1024 threads | 624 warp insts | 1000 atomics | " ++
          "624 cycles\n", .finished⟩ := by
  have hvalid : Config.validate ⟨"five", 3, 5, 26⟩ = .ok () := rfl
  obtain ⟨hdescribes, hfinishes, _⟩ :=
    @the_histogram_is_right_on_every_device ⟨"five", 3, 5, 26⟩ hvalid (by decide)
  refine ⟨hvalid, ((hfinishes (by decide)).1 _ hdescribes).trans ?_⟩
  rw [Report.mk.injEq]
  exact ⟨by decide +kernel, rfl⟩

end Simt
