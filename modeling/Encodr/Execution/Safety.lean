import Encodr.Planning.Models
import Encodr.Python.Text
import Encodr.Execution.Metrics

/-!
# The quality gate

`evaluate_execution_safety`: whether the output of a plan may take the place of its source. It judges the
metrics of the execution against the limits that the plan carries.

* `WithinGuard`, `WithinLimit`: what an accepted output keeps.
* `evaluateExecutionSafety_eq_none_iff`: an output is accepted if and only if it keeps both.
* `WithinGuard.mono`, `WithinLimit.mono`: a smaller output keeps the guard, a higher bitrate the limit.
* `qualityGate_sound`: what is known of an accepted output, from what the probes say.
-/

namespace Encodr

open Python

/-! ## Texts -/

/-- The text of a number with `digits` digits after the point, rounded half to even. -/
def formatFixed (digits : Nat) (q : Rat) : String :=
  let scaled := (roundHalfEven (|q| * 10 ^ digits)).toNat
  let rest := toString (scaled % 10 ^ digits)
  (if q < 0 then "-" else "") ++ toString (scaled / 10 ^ digits) ++ "." ++
    "".pushn '0' (digits - rest.length) ++ rest

/-- `format_bitrate`. -/
def formatBitrate : Option Int → String
  | none => "unknown"
  | some bps =>
    let mbps : Rat := bps / 1000000
    if 10 ≤ mbps then formatFixed 1 mbps ++ " Mbps" else formatFixed 2 mbps ++ " Mbps"

/-- `_safe_text`. -/
def safeText (value : Option String) (fallback : String) : String :=
  match value with
  | some value => if strip value = "" then fallback else strip value
  | none => fallback

/-! ## The gate -/

/-- `ExecutionSafetyFailure`. -/
structure SafetyFailure where
  category : String
  message : String
deriving DecidableEq

/-- `_output_larger_than_input_failure`. -/
def outputLargerThanInputFailure (plan : ProcessingPlan) (metrics : ExecutionMetrics) :
    Option SafetyFailure :=
  match plan.video.outputLargerThanInputReviewPercent, metrics.inputSizeBytes, metrics.outputSizeBytes with
  | some guardPercent, some inputSize, some outputSize =>
    if inputSize ≤ 0 then none
    else
      let allowedSize : Rat := inputSize * (1 + guardPercent / 100)
      if outputSize ≤ allowedSize then none
      else
        let growthPercent : Rat := (outputSize - inputSize) / inputSize * 100
        some {
          category := "output_larger_than_input"
          message := "Output grew by " ++ formatFixed 1 growthPercent ++ "%, exceeding configured guard of " ++
            toString guardPercent ++ "%." }
  | _, _, _ => none

/-- `_unmeasurable_bitrate_message`. -/
def unmeasurableBitrateMessage (reduction : Rat) (reductionLimit : Int)
    (minimumBitrate outputBitrate : Option Int) (metrics : ExecutionMetrics) : String :=
  let reasons :=
    (if outputBitrate = none then
      [safeText metrics.outputVideoBitrateUnavailableReason
        "output_video_bitrate_bps is unavailable because ffprobe did not report video stream bit_rate."]
    else []) ++
    (if minimumBitrate = none then ["minimum_output_bitrate_bps is not configured for this plan."] else [])
  "Video compression reduced the picture by " ++ formatFixed 1 reduction ++ "%, above the " ++
    "configured review threshold of " ++ toString reductionLimit ++ "%, but output bitrate could not " ++
    "be measured against a quality floor. Missing value: " ++ " ".intercalate reasons

/-- `evaluate_execution_safety`. -/
def evaluateExecutionSafety (plan : ProcessingPlan) (metrics : ExecutionMetrics) : Option SafetyFailure :=
  match outputLargerThanInputFailure plan metrics with
  | some failure => some failure
  | none =>
    if !plan.video.transcodeRequired then none
    else
      match plan.video.maxAllowedVideoReductionPercent with
      | none => none
      | some reductionLimit =>
        match metrics.compressionReductionPercent with
        | none =>
          let missingReasons :=
            [safeText metrics.compressionReductionUnavailableReason
              "compression_reduction_percent could not be derived."] ++
            (match metrics.outputVideoBitrateUnavailableReason with
            | some reason => [safeText (some reason) "output_video_bitrate_bps could not be derived."]
            | none => [])
          some {
            category := "compression_safety_unmeasurable"
            message := "Video reduction could not be measured safely, so the output requires manual review. " ++
              "Missing value: " ++ " ".intercalate missingReasons }
        | some reduction =>
          let outputBitrate := metrics.outputVideoBitrateBps
          let minimumBitrate := plan.video.minimumOutputBitrateBps
          match minimumBitrate, outputBitrate with
          | some minimum, some output =>
            if output < minimum then some {
              category := "compression_safety_bitrate_floor"
              message := "Encoded video bitrate is below the configured quality safeguard (" ++
                formatBitrate output ++ " < " ++ formatBitrate minimum ++ ")." }
            else if reduction ≤ reductionLimit then none
            else if minimum ≤ output then none
            else some {
              category := "compression_safety_exceeded"
              message := "Video compression reduced the picture by " ++ formatFixed 1 reduction ++
                "% and output bitrate " ++ formatBitrate output ++ " is below the configured safeguard " ++
                formatBitrate minimum ++ "." }
          | _, _ =>
            if reduction ≤ reductionLimit then none
            else some {
              category := "compression_safety_unmeasurable"
              message := unmeasurableBitrateMessage reduction reductionLimit minimumBitrate outputBitrate
                metrics }

/-! ## What an accepted output keeps -/

/-- The output outgrows a source that is not empty by no more than the guard. -/
def WithinGuard (guardPercent inputSize outputSize : Option Int) : Prop :=
  ∀ percent ∈ guardPercent, ∀ input ∈ inputSize, ∀ output ∈ outputSize, 0 < input →
    (output : Rat) ≤ input * (1 + percent / 100)

/-- The reduction of the video is known, the bitrate is not below the floor, and a reduction beyond the
limit has been checked against the floor. -/
structure WithinLimit (reductionLimit : Int) (minimumBitrate outputBitrate : Option Int)
    (reduction : Option Rat) : Prop where
  measured : reduction.isSome
  bitrate : ∀ minimum ∈ minimumBitrate, ∀ output ∈ outputBitrate, minimum ≤ output
  limit : ∀ percent ∈ reduction,
    percent ≤ reductionLimit ∨ minimumBitrate.isSome ∧ outputBitrate.isSome

theorem withinLimit_some_iff {reductionLimit : Int} {minimumBitrate outputBitrate : Option Int}
    {reduction : Rat} :
    WithinLimit reductionLimit minimumBitrate outputBitrate (some reduction) ↔
      (∀ minimum ∈ minimumBitrate, ∀ output ∈ outputBitrate, minimum ≤ output) ∧
      (reduction ≤ reductionLimit ∨ minimumBitrate.isSome ∧ outputBitrate.isSome) := by
  constructor
  · intro h
    exact ⟨h.bitrate, h.limit reduction rfl⟩
  · intro h
    refine ⟨rfl, h.1, fun other hother => ?_⟩
    cases hother
    exact h.2

theorem outputLargerThanInputFailure_eq_none_iff (plan : ProcessingPlan) (metrics : ExecutionMetrics) :
    outputLargerThanInputFailure plan metrics = none ↔
      WithinGuard plan.video.outputLargerThanInputReviewPercent metrics.inputSizeBytes
        metrics.outputSizeBytes := by
  unfold outputLargerThanInputFailure WithinGuard
  cases plan.video.outputLargerThanInputReviewPercent with
  | none => simp
  | some guardPercent =>
    cases metrics.inputSizeBytes with
    | none => simp
    | some inputSize =>
      cases metrics.outputSizeBytes with
      | none => simp
      | some outputSize =>
        by_cases hpos : 0 < inputSize
        · by_cases hsize : (outputSize : Rat) ≤ inputSize * (1 + guardPercent / 100)
          · simp [hpos, hsize]
          · simp [hpos, hsize]
        · -- the growth of an empty source is not judged
          simp [hpos, not_lt.mp hpos]

/-- An output is accepted if and only if it keeps the guard and, where the video is transcoded under a
limit, the limit. -/
theorem evaluateExecutionSafety_eq_none_iff (plan : ProcessingPlan) (metrics : ExecutionMetrics) :
    evaluateExecutionSafety plan metrics = none ↔
      WithinGuard plan.video.outputLargerThanInputReviewPercent metrics.inputSizeBytes
        metrics.outputSizeBytes ∧
      (plan.video.transcodeRequired = true → ∀ limit ∈ plan.video.maxAllowedVideoReductionPercent,
        WithinLimit limit plan.video.minimumOutputBitrateBps metrics.outputVideoBitrateBps
          metrics.compressionReductionPercent) := by
  rw [← outputLargerThanInputFailure_eq_none_iff]
  unfold evaluateExecutionSafety
  cases outputLargerThanInputFailure plan metrics with
  | some failure => simp
  | none =>
    cases plan.video.transcodeRequired with
    | false => simp
    | true =>
      cases plan.video.maxAllowedVideoReductionPercent with
      | none => simp
      | some limit =>
        cases metrics.compressionReductionPercent with
        | none =>
          constructor
          · intro h
            cases h
          · intro h
            cases (h.2 rfl limit rfl).measured
        | some reduction =>
          simp only [withinLimit_some_iff]
          cases plan.video.minimumOutputBitrateBps with
          | none => by_cases hlimit : reduction ≤ limit <;> simp [hlimit]
          | some minimum =>
            cases metrics.outputVideoBitrateBps with
            | none => by_cases hlimit : reduction ≤ limit <;> simp [hlimit]
            | some output =>
              by_cases hfloor : output < minimum
              · simp [hfloor]
              · -- both bitrates are known, so the limit is not decisive
                simp [hfloor, not_lt.mp hfloor]

/-! ## Better outputs -/

/-- A smaller output keeps the guard. -/
theorem WithinGuard.mono {guardPercent inputSize : Option Int} {larger smaller : Int}
    (h : WithinGuard guardPercent inputSize (some larger)) (hle : smaller ≤ larger) :
    WithinGuard guardPercent inputSize (some smaller) := by
  intro percent hpercent input hinput output houtput hpos
  cases houtput
  have hallowed := h percent hpercent input hinput larger rfl hpos
  have hcast : (smaller : Rat) ≤ larger := by exact_mod_cast hle
  exact hcast.trans hallowed

/-- A higher bitrate keeps the limit. -/
theorem WithinLimit.mono {reductionLimit : Int} {minimumBitrate : Option Int} {reduction : Option Rat}
    {lower higher : Int} (h : WithinLimit reductionLimit minimumBitrate (some lower) reduction)
    (hle : lower ≤ higher) : WithinLimit reductionLimit minimumBitrate (some higher) reduction where
  measured := h.measured
  bitrate minimum hminimum output houtput := by
    cases houtput
    exact (h.bitrate minimum hminimum lower rfl).trans hle
  limit percent hpercent := h.limit percent hpercent

/-- A higher output bitrate keeps an accepted output accepted. -/
theorem evaluateExecutionSafety_raise_bitrate {plan : ProcessingPlan} {metrics : ExecutionMetrics}
    {lower higher : Int} (hlower : metrics.outputVideoBitrateBps = some lower) (hle : lower ≤ higher)
    (h : evaluateExecutionSafety plan metrics = none) :
    evaluateExecutionSafety plan { metrics with outputVideoBitrateBps := some higher } = none := by
  rw [evaluateExecutionSafety_eq_none_iff] at h ⊢
  refine ⟨h.1, fun htranscode limit hlimit => ?_⟩
  have hwithin := h.2 htranscode limit hlimit
  rw [hlower] at hwithin
  exact hwithin.mono hle

/-- A smaller output file keeps an accepted output accepted. -/
theorem evaluateExecutionSafety_lower_size {plan : ProcessingPlan} {metrics : ExecutionMetrics}
    {larger smaller : Int} (hlarger : metrics.outputSizeBytes = some larger) (hle : smaller ≤ larger)
    (h : evaluateExecutionSafety plan metrics = none) :
    evaluateExecutionSafety plan { metrics with outputSizeBytes := some smaller } = none := by
  rw [evaluateExecutionSafety_eq_none_iff] at h ⊢
  refine ⟨?_, h.2⟩
  have hwithin := h.1
  rw [hlarger] at hwithin
  exact hwithin.mono hle

/-! ## Soundness -/

/-- What is known of an accepted output of a plan that transcodes under a limit. -/
structure SoundOutput (plan : ProcessingPlan) (reductionLimit : Int) (sourceMedia outputMedia : MediaFile) :
    Prop where
  growth : ∀ percent ∈ plan.video.outputLargerThanInputReviewPercent,
    ∀ input ∈ sourceMedia.container.sizeBytes, ∀ output ∈ outputMedia.container.sizeBytes, 0 < input →
      (output : Rat) ≤ input * (1 + percent / 100)
  reduction : ∃ source output : Int, (estimateStreamClassSizes sourceMedia).video = some source ∧
    (estimateStreamClassSizes outputMedia).video = some output ∧ 0 < source ∧
    (calculateMediaSavings sourceMedia outputMedia).compressionReductionPercent =
      some (((source : Rat) - output) / source * 100)
  floor : ∀ minimum ∈ plan.video.minimumOutputBitrateBps,
    ∀ output ∈ (calculateMediaSavings sourceMedia outputMedia).outputVideoBitrateBps, minimum ≤ output
  limit : ∀ percent ∈ (calculateMediaSavings sourceMedia outputMedia).compressionReductionPercent,
    percent ≤ reductionLimit ∨ plan.video.minimumOutputBitrateBps.isSome ∧
      (calculateMediaSavings sourceMedia outputMedia).outputVideoBitrateBps.isSome

theorem sound_of_accepted {plan : ProcessingPlan} {reductionLimit : Int} {sourceMedia outputMedia : MediaFile}
    (htranscode : plan.video.transcodeRequired = true)
    (hlimit : plan.video.maxAllowedVideoReductionPercent = some reductionLimit)
    (h : evaluateExecutionSafety plan (calculateMediaSavings sourceMedia outputMedia) = none) :
    SoundOutput plan reductionLimit sourceMedia outputMedia := by
  rw [evaluateExecutionSafety_eq_none_iff] at h
  have hwithin := h.2 htranscode reductionLimit hlimit
  obtain ⟨reduction, hreduction⟩ := Option.isSome_iff_exists.mp hwithin.measured
  obtain ⟨source, output, hsource, houtput, hpos, rfl⟩ := compressionReductionPercent_eq hreduction
  exact {
    growth := h.1
    reduction := ⟨source, output, hsource, houtput, hpos, hreduction⟩
    floor := hwithin.bitrate
    limit := hwithin.limit }

/-- An accepted output of a plan that transcodes under a limit does not outgrow a source that is not
empty, its reduction is known and that of the estimated sizes, its bitrate keeps the floor, and its
reduction is within the limit unless the floor and the bitrate are known. A higher bitrate or a smaller
file does not turn an accepted result into a rejected one. -/
theorem qualityGate_sound (plan : ProcessingPlan) (reductionLimit : Int)
    (htranscode : plan.video.transcodeRequired = true)
    (hlimit : plan.video.maxAllowedVideoReductionPercent = some reductionLimit) :
    (∀ sourceMedia outputMedia : MediaFile,
      evaluateExecutionSafety plan (calculateMediaSavings sourceMedia outputMedia) = none →
        SoundOutput plan reductionLimit sourceMedia outputMedia) ∧
    (∀ (metrics : ExecutionMetrics) (lower higher : Int), metrics.outputVideoBitrateBps = some lower →
      lower ≤ higher → evaluateExecutionSafety plan metrics = none →
        evaluateExecutionSafety plan { metrics with outputVideoBitrateBps := some higher } = none) ∧
    (∀ (metrics : ExecutionMetrics) (larger smaller : Int), metrics.outputSizeBytes = some larger →
      smaller ≤ larger → evaluateExecutionSafety plan metrics = none →
        evaluateExecutionSafety plan { metrics with outputSizeBytes := some smaller } = none) :=
  ⟨fun _ _ => sound_of_accepted htranscode hlimit,
    fun _ _ _ => evaluateExecutionSafety_raise_bitrate,
    fun _ _ _ => evaluateExecutionSafety_lower_size⟩

theorem probedParts_valid : ∀ part ∈ ["media", "film.mkv"], ValidPart part := by decide

/-- A plan that transcodes under a guard, a floor and a limit. -/
def gatedPlan : ProcessingPlan where
  action := .transcode
  summary := ⟨.transcode, .high, false, false⟩
  policyContext := {
    policyName := "default"
    policyVersion := 1
    sourcePath := ⟨.slash, ["media", "film.mkv"], probedParts_valid⟩ }
  selectedStreams := { videoStreamIndices := [0] }
  audio := {}
  subtitles := {}
  video := {
    primaryStreamIndex := some 0
    handling := .transcodeToPolicy
    preserveOriginal := false
    transcodeRequired := true
    minimumOutputBitrateBps := some 800
    maxAllowedVideoReductionPercent := some 50
    outputLargerThanInputReviewPercent := some 5 }
  container := {
    targetContainer := .mkv
    handling := .preserve }
  rename := { enabled := false }
  replace := {
    inPlace := true
    requireVerification := true
    keepOriginalUntilVerified := true
    deleteReplacedSource := false }
  confidence := .high
  isAlreadyCompliant := false
  shouldTreatAsProtected := false

/-- A file of eight seconds with one video stream. -/
def probedFile (sizeBytes bitRate : Int) : MediaFile where
  container := {
    filePath := ⟨.slash, ["media", "film.mkv"], probedParts_valid⟩
    fileName := "film.mkv"
    durationSeconds := some 8
    sizeBytes := some sizeBytes }
  videoStreams := [{ index := 0, bitRate := some bitRate }]

theorem qualityGate_sound_gatedPlan :
    SoundOutput gatedPlan 50 (probedFile 1200 1000) (probedFile 1000 900) ∧
      evaluateExecutionSafety gatedPlan
        { calculateMediaSavings (probedFile 1200 1000) (probedFile 1000 900) with
          outputVideoBitrateBps := some 950 } = none := by
  have gate := qualityGate_sound gatedPlan 50 rfl rfl
  have haccepted : evaluateExecutionSafety gatedPlan
      (calculateMediaSavings (probedFile 1200 1000) (probedFile 1000 900)) = none := by decide +kernel
  exact ⟨gate.1 _ _ haccepted, gate.2.1 _ 900 950 (by decide +kernel) (by decide) haccepted⟩

/-- The growth of a source of no bytes is not judged. -/
theorem emptySource_outgrown :
    gatedPlan.video.transcodeRequired = true ∧
      gatedPlan.video.maxAllowedVideoReductionPercent = some 50 ∧
      gatedPlan.video.outputLargerThanInputReviewPercent = some 5 ∧
      evaluateExecutionSafety gatedPlan (calculateMediaSavings (probedFile 0 1000) (probedFile 10 900)) = none ∧
      (probedFile 0 1000).container.sizeBytes = some 0 ∧ (probedFile 10 900).container.sizeBytes = some 10 ∧
      ¬ ((10 : Int) : Rat) ≤ ((0 : Int) : Rat) * (1 + ((5 : Int) : Rat) / 100) := by
  decide +kernel

end Encodr
