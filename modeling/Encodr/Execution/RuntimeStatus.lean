import Mathlib.Data.List.DropRight
import Encodr.Execution.BackendSelection

/-!
# The reported backends of a worker

`resolve_backend_runtime_status`: what the probes that a worker has reported say about a backend
preference. A preference is a text; `normalise_backend_preference_key` and `coerce_backend_preference` read
it.

* `normalise_coerce`: a coerced preference is the same preference.
* `resolveBackendRuntimeStatus`: the backend that the preference stands for, and why another one is taken.
-/

namespace Encodr

open Python

/-! ## Preferences -/

/-- `BACKEND_PREFERENCE_ALIASES`. -/
def backendPreferenceAliases : List (String × BackendPreference) := [
  ("cpu_only", .cpu), ("cpu", .cpu), ("prefer_intel_igpu", .intelAuto), ("intel_igpu", .intelAuto),
  ("intel_auto", .intelAuto), ("auto", .intelAuto), ("qsv", .intelQsv), ("intel_qsv", .intelQsv),
  ("vaapi", .intelVaapi), ("intel_vaapi", .intelVaapi), ("prefer_nvidia_gpu", .nvidiaGpu),
  ("nvidia_gpu", .nvidiaGpu), ("prefer_amd_gpu", .amdGpu), ("amd_gpu", .amdGpu)]

/-- `SUPPORTED_BACKEND_PREFERENCES`. -/
def supportedBackendPreferences : List String :=
  ["cpu_only", "prefer_intel_igpu", "intel_auto", "intel_qsv", "intel_vaapi", "prefer_nvidia_gpu",
    "prefer_amd_gpu"]

/-- `normalise_backend_preference_key`. -/
def normaliseBackendPreferenceKey (value : Option String) : BackendPreference :=
  (backendPreferenceAliases.lookup (strip (textOr value "cpu_only"))).getD .cpu

/-- `backend_preference_key` of a normalised preference. -/
def backendPreferenceKey : BackendPreference → String
  | .cpu => "cpu_only"
  | .nvidiaGpu => "prefer_nvidia_gpu"
  | .amdGpu => "prefer_amd_gpu"
  | preference => preference.value

/-- `coerce_backend_preference`. -/
def coerceBackendPreference (value : String) : String :=
  let cleaned := strip value
  if cleaned ∈ supportedBackendPreferences then cleaned
  else
    let canonical := backendPreferenceKey (normaliseBackendPreferenceKey (some cleaned))
    if canonical ∈ supportedBackendPreferences then canonical else "cpu_only"

/-- `probe_backend_for_preference`. -/
def probeBackendForPreference : BackendPreference → String
  | .intelAuto | .intelQsv | .intelVaapi => "intel_igpu"
  | preference => preference.value

theorem strip_strip (text : String) : strip (strip text) = strip text := by
  have hhead : ∀ xs : List Char, ((xs.dropWhile isSpace).rdropWhile isSpace).dropWhile isSpace =
      (xs.dropWhile isSpace).rdropWhile isSpace := by
    intro xs
    cases hlist : (xs.dropWhile isSpace).rdropWhile isSpace with
    | nil => rfl
    | cons c cs =>
      obtain ⟨tail, htail⟩ := (hlist ▸ List.rdropWhile_prefix isSpace (l := xs.dropWhile isSpace) :
        c :: cs <+: xs.dropWhile isSpace)
      have hnot := List.head_dropWhile_not isSpace (by rw [← htail]; simp)
      simp only [← htail, List.cons_append, List.head_cons] at hnot
      exact List.dropWhile_cons_of_neg (by rw [hnot]; decide)
  have hlast := List.rdropWhile_idempotent isSpace (text.toList.dropWhile isSpace)
  show String.ofList (((String.ofList ((text.toList.dropWhile isSpace).rdropWhile isSpace)).toList.dropWhile
    isSpace).rdropWhile isSpace) = String.ofList ((text.toList.dropWhile isSpace).rdropWhile isSpace)
  rw [String.toList_ofList, hhead, hlast]

/-- A coerced preference is the same preference. -/
theorem normalise_coerce (value : String) :
    normaliseBackendPreferenceKey (some (coerceBackendPreference value)) =
      normaliseBackendPreferenceKey (some value) := by
  have hstrip : normaliseBackendPreferenceKey (some (strip value)) =
      normaliseBackendPreferenceKey (some value) := by
    by_cases hvalue : value = ""
    · rw [hvalue]
      decide
    · by_cases hblank : strip value = ""
      · simp only [normaliseBackendPreferenceKey, textOr, if_neg hvalue, hblank, if_true]
        decide
      · simp only [normaliseBackendPreferenceKey, textOr, if_neg hvalue, if_neg hblank, strip_strip]
  rw [← hstrip, coerceBackendPreference]
  split
  · rfl
  · cases normaliseBackendPreferenceKey (some (strip value)) <;> decide

/-! ## Probes -/

/-- A probe in the list that a worker reports, with what `serialise_backend_probe` says of it. -/
structure HardwareProbe extends BackendProbe where
  backend : String
  /-- `_probe_reason`. -/
  reason : String := "Backend is unavailable."
  /-- `_nested_reason` of QSV, or the cleaned `qsv_unavailable_reason`. -/
  qsvReason : Option String := none
  /-- `_nested_reason` of VAAPI. -/
  vaapiReason : Option String := none
deriving DecidableEq, Repr

/-- What `_backend_status_payload` makes. -/
structure BackendStatus where
  preferredBackend : String
  normalisedBackend : BackendPreference
  selectedBackend : Option String
  transcodeBackendUsable : Bool
  fallbackUsed : Bool
  fallbackReason : Option String := none
  reasonUnavailable : Option String := none
  qsvUsable : Option Bool := none
  qsvUnavailableReason : Option String := none
  vaapiUsable : Option Bool := none
  vaapiUnavailableReason : Option String := none
  degraded : Bool := false
  message : String
deriving DecidableEq, Repr

/-- `_find_backend_probe`: the first of several. -/
def findBackendProbe (probes : List HardwareProbe) (backend : String) : Option HardwareProbe :=
  probes.find? (·.backend = backend)

/-- `_hardware_cpu_fallback_or_failure`. -/
def hardwareCpuFallbackOrFailure (requested : String) (normalised : BackendPreference)
    (allowCpuFallback cpuUsable : Bool) (reason : String) (qsvUsable : Bool)
    (qsvUnavailableReason : Option String) (vaapiReason : String) : BackendStatus :=
  if allowCpuFallback && cpuUsable then {
    preferredBackend := requested
    normalisedBackend := normalised
    selectedBackend := some "cpu"
    transcodeBackendUsable := true
    fallbackUsed := true
    fallbackReason := some reason
    reasonUnavailable := some reason
    qsvUsable := some qsvUsable
    qsvUnavailableReason := qsvUnavailableReason
    vaapiUsable := some false
    vaapiUnavailableReason := some vaapiReason
    message := "Hardware acceleration is unavailable; CPU fallback is selected. " ++ reason }
  else {
    preferredBackend := requested
    normalisedBackend := normalised
    selectedBackend := none
    transcodeBackendUsable := false
    fallbackUsed := false
    reasonUnavailable := some reason
    qsvUsable := some qsvUsable
    qsvUnavailableReason := qsvUnavailableReason
    vaapiUsable := some false
    vaapiUnavailableReason := some vaapiReason
    degraded := true
    message := "Hardware acceleration is unavailable and CPU fallback is disabled. " ++ reason }

/-- The status of QSV, or of VAAPI, where it is usable. -/
def intelStatus (requested : String) (normalised : BackendPreference) (selected message : String) :
    BackendStatus where
  preferredBackend := requested
  normalisedBackend := normalised
  selectedBackend := some selected
  transcodeBackendUsable := true
  fallbackUsed := false
  message := message

/-- `_resolve_intel_runtime_status`. -/
def resolveIntelRuntimeStatus (requested : String) (normalised : BackendPreference)
    (intelProbe : Option HardwareProbe) (allowCpuFallback cpuUsable : Bool) : BackendStatus :=
  let qsvUsable := intelProbe.any (·.qsvUsable)
  let vaapiUsable := intelProbe.any (·.vaapiUsable)
  let qsvReason := (intelProbe.bind (·.qsvReason)).getD "Intel QSV was not reported as usable."
  let vaapiReason := (intelProbe.bind (·.vaapiReason)).getD "Intel VAAPI was not reported as usable."
  let qsvSelected := { intelStatus requested normalised "intel_qsv" "Intel QSV is selected and usable." with
    qsvUsable := some true
    vaapiUsable := some vaapiUsable
    vaapiUnavailableReason := if vaapiUsable then none else some vaapiReason }
  if normalised = .intelAuto then
    if qsvUsable then qsvSelected
    else if vaapiUsable then
      { intelStatus requested normalised "intel_vaapi"
          ("Intel VAAPI active; QSV unavailable: " ++ qsvReason) with
        fallbackReason := some ("QSV unavailable: " ++ qsvReason)
        qsvUsable := some false
        qsvUnavailableReason := some qsvReason
        vaapiUsable := some true }
    else hardwareCpuFallbackOrFailure requested normalised allowCpuFallback cpuUsable
      ("QSV unavailable: " ++ qsvReason ++ "; VAAPI unavailable: " ++ vaapiReason) false (some qsvReason)
      vaapiReason
  else if normalised = .intelQsv then
    if qsvUsable then qsvSelected
    else if allowCpuFallback && cpuUsable then {
      preferredBackend := requested
      normalisedBackend := normalised
      selectedBackend := some "cpu"
      transcodeBackendUsable := true
      fallbackUsed := true
      fallbackReason := some qsvReason
      reasonUnavailable := some qsvReason
      qsvUsable := some false
      qsvUnavailableReason := some qsvReason
      vaapiUsable := some vaapiUsable
      degraded := true
      message := "Intel QSV is required but unavailable; CPU fallback is selected. " ++ qsvReason }
    else {
      preferredBackend := requested
      normalisedBackend := normalised
      selectedBackend := none
      transcodeBackendUsable := false
      fallbackUsed := false
      reasonUnavailable := some qsvReason
      qsvUsable := some false
      qsvUnavailableReason := some qsvReason
      vaapiUsable := some vaapiUsable
      degraded := true
      message := "Intel QSV is required but unavailable. " ++ qsvReason }
  else if vaapiUsable then
    { intelStatus requested normalised "intel_vaapi" "Intel VAAPI is selected and usable." with
      qsvUsable := some qsvUsable
      qsvUnavailableReason := if qsvUsable then none else some qsvReason
      vaapiUsable := some true }
  else hardwareCpuFallbackOrFailure requested normalised allowCpuFallback cpuUsable vaapiReason qsvUsable
    (if qsvUsable then none else some qsvReason) vaapiReason

/-- `text.replace("_", " ")`. -/
def spaced (text : String) : String :=
  String.ofList (text.toList.map fun c => if c = '_' then ' ' else c)

/-- `resolve_backend_runtime_status`. -/
def resolveBackendRuntimeStatus (preferredBackend : Option String) (hardwareProbes : List HardwareProbe)
    (allowCpuFallback cpuAvailable : Bool) : BackendStatus :=
  let requested := textOr (some (strip (textOr preferredBackend "cpu_only"))) "cpu_only"
  let mode := normaliseBackendPreferenceKey (some requested)
  let cpuUsable := cpuAvailable && (findBackendProbe hardwareProbes "cpu").all (·.usable)
  match mode with
  | .cpu => {
      preferredBackend := requested
      normalisedBackend := mode
      selectedBackend := if cpuUsable then some "cpu" else none
      transcodeBackendUsable := cpuUsable
      fallbackUsed := false
      reasonUnavailable := if cpuUsable then none
        else some "CPU execution is unavailable because FFmpeg is not discoverable."
      message := if cpuUsable then "CPU execution is selected." else "CPU execution is unavailable." }
  | .intelAuto | .intelQsv | .intelVaapi =>
    resolveIntelRuntimeStatus requested mode (findBackendProbe hardwareProbes "intel_igpu") allowCpuFallback
      cpuUsable
  | .nvidiaGpu | .amdGpu =>
    let requestedProbe := findBackendProbe hardwareProbes mode.value
    if requestedProbe.any (·.usable) then {
      preferredBackend := requested
      normalisedBackend := mode
      selectedBackend := some mode.value
      transcodeBackendUsable := true
      fallbackUsed := false
      message := spaced mode.value ++ " is selected and usable." }
    else
      let reason := match requestedProbe with
        | some probe => probe.reason
        | none => "Preferred backend '" ++ requested ++ "' was not reported."
      if allowCpuFallback && cpuUsable then {
        preferredBackend := requested
        normalisedBackend := mode
        selectedBackend := some "cpu"
        transcodeBackendUsable := true
        fallbackUsed := true
        fallbackReason := some reason
        reasonUnavailable := some reason
        message := "Preferred backend is unavailable; CPU fallback is selected. " ++ reason }
      else {
        preferredBackend := requested
        normalisedBackend := mode
        selectedBackend := none
        transcodeBackendUsable := false
        fallbackUsed := false
        reasonUnavailable := some reason
        degraded := true
        message := "Preferred backend is unavailable and CPU fallback is disabled. " ++ reason }

end Encodr
