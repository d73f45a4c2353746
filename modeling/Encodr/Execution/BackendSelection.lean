import Encodr.Python.Text

/-!
# Execution backends

`select_execution_backend` and `quality_flags_for_backend`: the encoder of a transcode, and the options
it is given.

What the probe of the hardware says is an argument. The log entries, the device path and the default
quality flags of a selection are left out: the command does not depend on them.

* `selectExecutionBackend_transcodes`: a selection encodes, and its filter does not scale.
-/

namespace Encodr

open Python

/-! ## Preferences and probes -/

/-- The keys of `normalise_backend_preference_key`. -/
inductive BackendPreference where
  | cpu
  | intelAuto
  | intelQsv
  | intelVaapi
  | nvidiaGpu
  | amdGpu
deriving DecidableEq, Repr

def BackendPreference.value : BackendPreference → String
  | .cpu => "cpu"
  | .intelAuto => "intel_auto"
  | .intelQsv => "intel_qsv"
  | .intelVaapi => "intel_vaapi"
  | .nvidiaGpu => "nvidia_gpu"
  | .amdGpu => "amd_gpu"

/-- What the probe of a backend says: the entries of its details that decide. -/
structure BackendProbe where
  usable : Bool
  qsvUsable : Bool := false
  qsvCommandPrefix : List String := []
  qsvRenderDevices : List String := []
  /-- `_qsv_unavailable_reason`. -/
  qsvUnavailableReason : Option String := none
  vaapiUsable : Bool := false
  /-- `_first_device_path` of VAAPI. -/
  vaapiDevicePath : Option String := none
  amfUsable : Bool := false
  /-- `_selection_failure_reason`. -/
  failureReason : Option String := none
deriving DecidableEq, Repr

structure SelectedExecutionBackend where
  requestedBackend : BackendPreference
  actualBackend : String
  accelerator : String
  videoEncoder : String
  commandPrefix : List String := []
  videoFilter : Option String := none
  fallbackUsed : Bool := false
  selectionReason : Option String := none
deriving DecidableEq, Repr

/-! ## Encoders -/

/-- `CPU_ENCODERS`. -/
def cpuEncoders : List (String × String) :=
  [("h264", "libx264"), ("hevc", "libx265"), ("av1", "libaom-av1")]

/-- The encoders of an accelerator: for H.264 and HEVC. -/
def acceleratedEncoders (accelerator : String) : List (String × String) :=
  [("h264", "h264_" ++ accelerator), ("hevc", "hevc_" ++ accelerator)]

/-- `_cpu_selection`. -/
def cpuSelection (requested : BackendPreference) (codec : String) (fallbackUsed : Bool)
    (selectionReason : Option String) : Except String SelectedExecutionBackend :=
  match cpuEncoders.lookup codec with
  | none => .error ("Codec '" ++ codec ++ "' is not supported by the CPU execution path.")
  | some encoder => .ok {
      requestedBackend := requested
      actualBackend := "cpu"
      accelerator := "cpu"
      videoEncoder := encoder
      fallbackUsed := fallbackUsed
      selectionReason := selectionReason }

/-- The command prefix of QSV. -/
def qsvCommandPrefix (probe : BackendProbe) (windows : Bool) : List String :=
  if probe.qsvCommandPrefix ≠ [] then probe.qsvCommandPrefix
  else match probe.qsvRenderDevices, windows with
    | device :: _, false =>
      ["-init_hw_device", "qsv=qs:hw,child_device=" ++ device, "-filter_hw_device", "qs"]
    | _, _ => ["-init_hw_device", "qsv=qs", "-filter_hw_device", "qs"]

/-- The selection of QSV. -/
def qsvSelection (requested : BackendPreference) (codec : String) (probe : BackendProbe)
    (windows : Bool) : Option SelectedExecutionBackend := do
  let encoder ← (acceleratedEncoders "qsv").lookup codec
  return {
    requestedBackend := requested
    actualBackend := "intel_qsv"
    accelerator := "qsv"
    videoEncoder := encoder
    commandPrefix := qsvCommandPrefix probe windows
    videoFilter := some "format=nv12,hwupload=extra_hw_frames=64"
    selectionReason := some "Using Intel QSV for hardware-accelerated video encoding." }

/-- The selection of VAAPI. -/
def vaapiSelection (requested : BackendPreference) (actualBackend selectionReason codec : String)
    (probe : BackendProbe) : Option SelectedExecutionBackend := do
  let encoder ← (acceleratedEncoders "vaapi").lookup codec
  let device ← probe.vaapiDevicePath
  return {
    requestedBackend := requested
    actualBackend := actualBackend
    accelerator := "vaapi"
    videoEncoder := encoder
    commandPrefix := ["-vaapi_device", device]
    videoFilter := some "format=nv12,hwupload"
    selectionReason := some selectionReason }

/-- The selection of a backend that needs neither a prefix nor a filter. -/
def plainSelection (requested : BackendPreference) (accelerator selectionReason codec : String) :
    Option SelectedExecutionBackend := do
  let encoder ← (acceleratedEncoders accelerator).lookup codec
  return {
    requestedBackend := requested
    actualBackend := requested.value
    accelerator := accelerator
    videoEncoder := encoder
    selectionReason := some selectionReason }

/-- `_accelerated_selection`. -/
def acceleratedSelection (requested : BackendPreference) (codec : String) (probe : BackendProbe)
    (windows : Bool) : Option SelectedExecutionBackend :=
  if probe.usable = false then none
  else match requested with
    | .cpu => none
    | .intelAuto | .intelQsv | .intelVaapi =>
      if requested ≠ .intelVaapi ∧ probe.qsvUsable then qsvSelection requested codec probe windows
      else if requested ≠ .intelQsv ∧ probe.vaapiUsable then
        let reason := "Using Intel iGPU / VAAPI for hardware-accelerated video encoding."
        let unavailable := if requested = .intelAuto then probe.qsvUnavailableReason else none
        vaapiSelection requested "intel_vaapi"
          (match unavailable with
            | some qsv => reason ++ " QSV unavailable: " ++ qsv ++ "."
            | none => reason) codec probe
      else none
    | .nvidiaGpu => plainSelection requested "nvenc"
      "Using NVIDIA NVENC for hardware-accelerated video encoding." codec
    | .amdGpu =>
      if probe.amfUsable then
        plainSelection requested "amf" "Using AMD AMF for hardware-accelerated video encoding." codec
      else if probe.vaapiUsable then
        vaapiSelection requested "amd_gpu" "Using AMD VAAPI for hardware-accelerated video encoding."
          codec probe
      else none

/-- What a host offers to a transcode: the probe of the preferred backend, where there is one. -/
structure ExecutionHost where
  preferredBackend : BackendPreference := .cpu
  allowCpuFallback : Bool := true
  probe : Option BackendProbe := none
  windows : Bool := false
deriving DecidableEq, Repr

/-- `select_execution_backend`. -/
def selectExecutionBackend (host : ExecutionHost) (targetCodec : Option String) :
    Except String SelectedExecutionBackend :=
  let requested := host.preferredBackend
  let codec := lower (strip (textOr targetCodec "hevc"))
  if requested = .cpu then cpuSelection requested codec false none
  else match host.probe.bind (acceleratedSelection requested codec · host.windows) with
    | some selection => .ok selection
    | none =>
      let reason := host.probe.bind (·.failureReason)
      if host.allowCpuFallback then
        cpuSelection requested codec true (some (reason.getD ("Preferred backend '" ++
          requested.value ++ "' is unavailable, so Encodr is falling back to CPU execution.")))
      else .error (reason.getD ("Preferred backend '" ++ requested.value ++ "' is not supported.") ++
        " CPU fallback is disabled, so Encodr cannot execute this transcode safely.")

/-! ## Quality -/

/-- The flags of a quality mode. Other modes count as `high_quality`. -/
def qualityFlags (highQuality balanced efficient : List String) (mode : String) : List String :=
  if mode = "balanced" then balanced else if mode = "efficient" then efficient else highQuality

/-- `_replace_quality_value`. -/
def replaceQualityValue (flags : List String) (option : String) (value : Option Int) : List String :=
  match value with
  | none => flags
  | some value => flags.set (flags.idxOf option + 1) (toString value)

/-- `quality_flags_for_backend`. -/
def qualityFlagsForBackend (accelerator : String) (qualityMode : Option String)
    (qualityCrf : Option Int) : List String :=
  let mode := textOr qualityMode "high_quality"
  if accelerator = "cpu" then
    replaceQualityValue (qualityFlags ["-preset", "slow", "-crf", "18"]
      ["-preset", "medium", "-crf", "20"] ["-preset", "medium", "-crf", "23"] mode) "-crf" qualityCrf
  else if accelerator = "nvenc" then
    replaceQualityValue (qualityFlags ["-preset", "p5", "-rc", "vbr", "-cq", "19"]
      ["-preset", "p4", "-rc", "vbr", "-cq", "21"] ["-preset", "p3", "-rc", "vbr", "-cq", "24"] mode)
      "-cq" qualityCrf
  else if accelerator = "qsv" then
    replaceQualityValue (qualityFlags ["-global_quality", "19"] ["-global_quality", "21"]
      ["-global_quality", "24"] mode) "-global_quality" qualityCrf
  else if accelerator = "vaapi" then
    replaceQualityValue (qualityFlags ["-qp", "19"] ["-qp", "21"] ["-qp", "24"] mode) "-qp" qualityCrf
  else if accelerator = "amf" then
    let flags := qualityFlags ["-quality", "quality", "-qp_i", "19", "-qp_p", "21"]
      ["-quality", "balanced", "-qp_i", "21", "-qp_p", "23"]
      ["-quality", "speed", "-qp_i", "24", "-qp_p", "26"] mode
    replaceQualityValue (replaceQualityValue flags "-qp_i" qualityCrf) "-qp_p"
      (qualityCrf.map fun crf => min 51 (crf + 2))
  else []

/-! ## What a selection is -/

section Backends

variable {host : ExecutionHost} {targetCodec : Option String} {backend : SelectedExecutionBackend}

/-- The filters of the accelerated backends upload the frames. -/
def uploadFilters : List String :=
  ["format=nv12,hwupload", "format=nv12,hwupload=extra_hw_frames=64"]

/-- The selection encodes, and asks for no filter, or for one that uploads the frames. -/
structure SelectedExecutionBackend.Transcodes (backend : SelectedExecutionBackend) : Prop where
  encoder : backend.videoEncoder ≠ "copy"
  filter : ∀ filter ∈ backend.videoFilter, filter ∈ uploadFilters

section Selections

variable {requested : BackendPreference} {codec encoder actual accelerator reason : String}
  {probe : BackendProbe} {windows : Bool}

theorem cpuEncoders_lookup (h : cpuEncoders.lookup codec = some encoder) : encoder ≠ "copy" := by
  have hall : ∀ e ∈ cpuEncoders, e.2 ≠ "copy" := by decide
  obtain ⟨before, after, heq, -⟩ := List.lookup_eq_some_iff.mp h
  exact hall (codec, encoder) (by rw [heq]; simp)

theorem acceleratedEncoders_lookup (h : (acceleratedEncoders accelerator).lookup codec = some encoder) :
    encoder ≠ "copy" := by
  obtain ⟨before, after, heq, -⟩ := List.lookup_eq_some_iff.mp h
  have hmem : (codec, encoder) ∈ acceleratedEncoders accelerator := by
    rw [heq]
    simp
  simp only [acceleratedEncoders, List.mem_cons, List.not_mem_nil, or_false, Prod.mk.injEq] at hmem
  rcases hmem with ⟨-, rfl⟩ | ⟨-, rfl⟩ <;> simp [← String.toList_inj, String.toList_append]

theorem cpuSelection_transcodes {fallbackUsed : Bool} {reason : Option String}
    (h : cpuSelection requested codec fallbackUsed reason = .ok backend) : backend.Transcodes := by
  unfold cpuSelection at h
  split at h
  · cases h
  · next encoder hencoder =>
    obtain rfl := Except.ok.inj h
    exact ⟨cpuEncoders_lookup hencoder, fun filter hmem => absurd hmem (Option.not_mem_none filter)⟩

theorem qsvSelection_transcodes (h : qsvSelection requested codec probe windows = some backend) :
    backend.Transcodes := by
  simp only [qsvSelection, bind, Option.bind_eq_some_iff, pure, Option.some.injEq] at h
  obtain ⟨encoder, hencoder, rfl⟩ := h
  refine ⟨acceleratedEncoders_lookup hencoder, fun filter hmem => ?_⟩
  obtain rfl := Option.some.inj hmem
  exact List.mem_cons_of_mem _ List.mem_cons_self

theorem vaapiSelection_transcodes
    (h : vaapiSelection requested actual reason codec probe = some backend) : backend.Transcodes := by
  simp only [vaapiSelection, bind, Option.bind_eq_some_iff, pure, Option.some.injEq] at h
  obtain ⟨encoder, hencoder, _, -, rfl⟩ := h
  refine ⟨acceleratedEncoders_lookup hencoder, fun filter hmem => ?_⟩
  obtain rfl := Option.some.inj hmem
  exact List.mem_cons_self

theorem plainSelection_transcodes
    (h : plainSelection requested accelerator reason codec = some backend) : backend.Transcodes := by
  simp only [plainSelection, bind, Option.bind_eq_some_iff, pure, Option.some.injEq] at h
  obtain ⟨encoder, hencoder, rfl⟩ := h
  exact ⟨acceleratedEncoders_lookup hencoder,
    fun filter hmem => absurd hmem (Option.not_mem_none filter)⟩

theorem acceleratedSelection_transcodes
    (h : acceleratedSelection requested codec probe windows = some backend) : backend.Transcodes := by
  unfold acceleratedSelection at h
  split at h
  · cases h
  · split at h
    · cases h
    iterate 3
      split at h
      · exact qsvSelection_transcodes h
      · split at h
        · exact vaapiSelection_transcodes h
        · cases h
    · exact plainSelection_transcodes h
    · split at h
      · exact plainSelection_transcodes h
      · split at h
        · exact vaapiSelection_transcodes h
        · cases h

end Selections

theorem selectExecutionBackend_transcodes (h : selectExecutionBackend host targetCodec = .ok backend) :
    backend.Transcodes := by
  unfold selectExecutionBackend at h
  dsimp only at h
  split at h
  · exact cpuSelection_transcodes h
  · split at h
    · next selection hselection =>
      obtain rfl := Except.ok.inj h
      obtain ⟨probe, -, hprobe⟩ := Option.bind_eq_some_iff.mp hselection
      exact acceleratedSelection_transcodes hprobe
    · split at h
      · exact cpuSelection_transcodes h
      · cases h

end Backends

end Encodr
