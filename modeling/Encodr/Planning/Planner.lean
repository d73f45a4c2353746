import Encodr.Planning.Selection

/-!
# The planner

`build_processing_plan` and the plans that are derived from one: the plan an operator approved, and
the plans that keep the video and only clean up streams.

The rename plan is an argument: no step that executes a plan reads it.

* `determineAction_review`: an ambiguity leads to a manual review.
* `buildProcessingPlan_video`, `buildProcessingPlan_audio`: what a built plan selects.
-/

namespace Encodr

open Python

/-! ## The video plan -/

structure VideoPlanResult where
  plan : VideoPlan
  reasons : List PlanReason
  requiresManualReview : Bool
deriving DecidableEq

/-- `build_4k_video_plan`. -/
def build4kVideoPlan (stream : VideoStream) (rules : FourKVideoRules) : VideoPlanResult :=
  let preserved : VideoPlan := {
    primaryStreamIndex := some stream.index
    handling := .preserve
    preserveOriginal := true
    targetCodec := stream.codecName
    transcodeRequired := false
    qualityMode := some rules.qualityMode
    qualityCrf := rules.qualityCrf
    sourceBitrateBps := stream.bitRate
    minimumOutputBitrateBps := some (bucketBps stream rules.minimumOutputBitrate1080pMbps
      rules.minimumOutputBitrate720pMbps)
    maxAllowedVideoReductionPercent := some rules.maxVideoReductionPercent
    outputLargerThanInputReviewPercent := rules.outputLargerThanInputReviewPercent }
  if rules.mode = .stripOnly ∧ rules.allowTranscode = false then
    { plan := preserved
      reasons := [⟨"video_preserved_for_4k_policy",
        "4K video is preserved under the effective 4K policy."⟩]
      requiresManualReview := false }
  else if rules.allowTranscode = false then
    { plan := preserved
      reasons := [⟨"manual_review_unsupported_4k_policy_mode",
        "The effective 4K rule is not configured to allow video transcoding."⟩]
      requiresManualReview := true }
  else
    let transcode := decide (stream.codecName ≠ some rules.preferredCodec)
    { plan := { preserved with
        handling := if transcode then .transcodeToPolicy else .preserve
        preserveOriginal := !transcode
        targetCodec := some rules.preferredCodec
        transcodeRequired := transcode }
      reasons :=
        reasonIf transcode "video_transcode_required_for_4k_policy_codec"
          "4K video codec does not match the effective 4K policy target." ++
        reasonIf transcode "video_reduction_limit_applies" ("Compression safety will be checked " ++
          "after encoding using video-only reduction and bitrate safeguards.")
      requiresManualReview := false }

/-- `build_non_4k_video_plan`. -/
def buildNon4kVideoPlan (stream : VideoStream) (rules : NonFourKVideoRules) : VideoPlanResult :=
  let lowThreshold := bucketBps stream rules.lowBitrateSkipThreshold1080pMbps
    rules.lowBitrateSkipThreshold720pMbps
  let minimumOutput := bucketBps stream rules.minimumOutputBitrate1080pMbps
    rules.minimumOutputBitrate720pMbps
  let lowBitrate := isLowBitrateSource stream lowThreshold
  let byCodec := !lowBitrate && decide (stream.codecName ≠ some rules.preferredCodec)
  let byBitrate := !lowBitrate && match stream.bitRate with
    | some b => decide (rules.maxVideoBitrateMbps * 1000000 < b)
    | none => false
  let byWidth := !lowBitrate && match stream.width with
    | some w => decide (rules.maxWidth < w)
    | none => false
  let transcode := byCodec || byBitrate || byWidth
  { plan := {
      primaryStreamIndex := some stream.index
      handling := if transcode then .transcodeToPolicy else .preserve
      preserveOriginal := !transcode
      targetCodec := some rules.preferredCodec
      transcodeRequired := transcode
      qualityMode := some rules.qualityMode
      qualityCrf := rules.qualityCrf
      sourceBitrateBps := stream.bitRate
      lowBitrateSkipThresholdBps := some lowThreshold
      minimumOutputBitrateBps := some minimumOutput
      maxAllowedVideoReductionPercent := some rules.maxVideoReductionPercent
      outputLargerThanInputReviewPercent := rules.outputLargerThanInputReviewPercent }
    reasons :=
      reasonIf lowBitrate "video_skip_low_bitrate_source"
        "Source bitrate is already low; transcoding may reduce quality." ++
      reasonIf byCodec "video_transcode_required_for_policy_codec"
        "Video codec does not match the effective non-4K policy target." ++
      reasonIf byBitrate "video_transcode_required_for_policy_bitrate"
        "Video bitrate exceeds the effective non-4K policy limit." ++
      reasonIf byWidth "video_transcode_required_for_policy_width"
        "Video width exceeds the effective non-4K policy limit." ++
      reasonIf transcode "video_reduction_limit_applies" ("Compression safety will be checked " ++
        "after encoding using video-only reduction and bitrate safeguards.") ++
      reasonIf (transcode && rules.outputLargerThanInputReviewPercent.isSome)
        "output_larger_than_input_guard_applies" ("Output size will be checked after encoding " ++
          "and sent to review if it grows beyond the configured guard.")
    requiresManualReview := false }

/-- `build_video_plan`: only a file with exactly one video stream can be planned. -/
def buildVideoPlan (media : MediaFile) (rules : VideoRules) : VideoPlanResult :=
  match media.videoStreams with
  | [stream] =>
    if media.is4k then build4kVideoPlan stream rules.fourK
    else buildNon4kVideoPlan stream rules.non4k
  | _ =>
    { plan := { handling := .preserve, preserveOriginal := true }
      reasons := [⟨"manual_review_video_stream_ambiguity", "The file does not expose exactly one " ++
        "video stream, so planning requires manual review."⟩]
      requiresManualReview := true }

/-! ## Container, replacement and action -/

/-- `build_container_plan`. -/
def buildContainerPlan (media : MediaFile) (target : OutputContainer) : ContainerPlan :=
  let change := decide (media.extension ≠ some target.value)
  { sourceExtension := media.extension
    targetContainer := target
    handling := if change then .remuxToTarget else .preserve
    changeRequired := change }

/-- `build_replace_plan`. -/
def buildReplacePlan (rules : ReplacementRules) : ReplacePlan where
  inPlace := rules.inPlace
  requireVerification := rules.requireVerification
  keepOriginalUntilVerified := rules.keepOriginalUntilVerified
  deleteReplacedSource := rules.deleteReplacedSource

/-- `determine_action`. -/
def determineAction (media : MediaFile) (rules : VideoRules) (video : VideoPlan)
    (complianceCandidate streamCleanupNeeded containerChangeNeeded manualReviewRequired : Bool) :
    PlanAction :=
  if manualReviewRequired then .manualReview
  else if media.is4k then
    if video.transcodeRequired then
      if rules.fourK.allowTranscode then .transcode else .manualReview
    else if complianceCandidate then .skip
    else .remux
  else if video.transcodeRequired then
    if rules.non4k.allowTranscode && decide (.transcode ∈ rules.non4k.decisionOrder) then .transcode
    else .manualReview
  else if streamCleanupNeeded || containerChangeNeeded then
    if .remux ∈ rules.non4k.decisionOrder then .remux else .manualReview
  else if complianceCandidate && decide (.skip ∈ rules.non4k.decisionOrder) then .skip
  else .manualReview

/-- `determine_confidence`. -/
def determineConfidence (action : PlanAction) (warnings : List PlanWarning) : ConfidenceLevel :=
  if action = .manualReview then .low else if warnings.isEmpty then .high else .medium

/-! ## The plan -/

/-- `build_processing_plan`. -/
def buildProcessingPlan (media : MediaFile) (policy : ResolvedPlanningPolicy)
    (rename : RenamePlan) : ProcessingPlan :=
  let audio := selectAudioStreams media policy.audioRules policy.languages
  let subtitles := selectSubtitleStreams media policy.subtitleRules policy.languages
  let video := buildVideoPlan media policy.videoRules
  let container := buildContainerPlan media policy.videoRules.outputContainer
  let warnings := audio.warnings ++ subtitles.warnings
  let protectedFile := media.is4k || media.isHdrCandidate || media.hasAtmosCapableAudio
  let cleanup := !audio.intent.droppedStreamIndices.isEmpty ||
    !subtitles.intent.droppedStreamIndices.isEmpty
  let compliant := !video.plan.transcodeRequired && !cleanup && !container.changeRequired &&
    warnings.isEmpty && !audio.intent.missingRequiredAudio &&
    subtitles.intent.ambiguousForcedStreamIndices.isEmpty
  let review := video.requiresManualReview || audio.requiresManualReview ||
    subtitles.requiresManualReview
  let action := determineAction media policy.videoRules video.plan compliant cleanup
    container.changeRequired review
  let confidence := determineConfidence action warnings
  { action := action
    summary := ⟨action, confidence, decide (action = .skip), protectedFile⟩
    policyContext := policy.context
    selectedStreams := {
      videoStreamIndices := video.plan.primaryStreamIndex.toList
      audioStreamIndices := audio.intent.selectedStreamIndices
      subtitleStreamIndices := subtitles.intent.selectedStreamIndices
      attachmentStreamIndices := media.attachmentStreams.map (·.index)
      dataStreamIndices := media.dataStreams.map (·.index)
      unknownStreamIndices := [] }
    audio := audio.intent
    subtitles := subtitles.intent
    video := video.plan
    container := container
    rename := rename
    replace := buildReplacePlan policy.replacementRules
    reasons := audio.reasons ++ subtitles.reasons ++ video.reasons ++
      reasonIf (decide (action = .skip)) "already_compliant"
        "The file already appears to comply with the effective policy."
    warnings := warnings
    confidence := confidence
    isAlreadyCompliant := decide (action = .skip)
    shouldTreatAsProtected := protectedFile }

/-! ## Derived plans -/

/-- `INFORMATIONAL_REVIEW_CODES`. -/
def informationalReviewCodes : List String :=
  ["video_reduction_limit_applies", "output_larger_than_input_guard_applies"]

/-- `plan` with another action, no longer protected or compliant. -/
def ProcessingPlan.withAction (plan : ProcessingPlan) (action : PlanAction) : ProcessingPlan :=
  { plan with
    action := action
    summary := { plan.summary with
      action := action
      shouldTreatAsProtected := false
      isAlreadyCompliant := false }
    shouldTreatAsProtected := false
    isAlreadyCompliant := false }

/-- `_approved_execution_plan`. -/
def approvedExecutionPlan (plan : ProcessingPlan) : ProcessingPlan :=
  { plan.withAction (if plan.video.transcodeRequired then .transcode else .remux) with
    reasons := plan.reasons.filter (·.code ∉ informationalReviewCodes) ++
      [⟨"operator_approved_manual_review", "Operator approved processing after manual review."⟩] }

/-- A remux that copies the video, for one reason. -/
def stripOnly (reason : PlanReason) (plan : ProcessingPlan) : ProcessingPlan :=
  { plan.withAction .remux with
    video := { plan.video with
      transcodeRequired := false
      preserveOriginal := true
      handling := .preserve
      maxAllowedVideoReductionPercent := none }
    reasons := [reason] }

/-- `_strip_only_plan` of a review. -/
def stripOnlyPlan (plan : ProcessingPlan) : ProcessingPlan :=
  { stripOnly ⟨"operator_rejected_video_transcode", "Operator rejected video transcoding; video " ++
      "will be copied while stream cleanup is applied."⟩ plan with
    warnings := plan.warnings.filter (·.code ∉ informationalReviewCodes) }

/-- `_strip_only_recovery_plan`. -/
def stripOnlyRecoveryPlan (plan : ProcessingPlan) : ProcessingPlan :=
  stripOnly ⟨"operator_skipped_video_transcode_after_guard", "Video transcode skipped after " ++
    "failed size/quality guard; audio/subtitle cleanup only."⟩ plan

/-- `_strip_only_reprocess_plan`. -/
def stripOnlyReprocessPlan (plan : ProcessingPlan) : ProcessingPlan :=
  stripOnly ⟨"operator_requested_strip_only_cleanup", "Operator requested strip-only cleanup; " ++
    "video will be copied while audio/subtitle cleanup is applied."⟩ plan

/-- `plan.replace.existing_backup_strategy = strategy`. -/
def ProcessingPlan.withBackupStrategy (plan : ProcessingPlan) (strategy : String) : ProcessingPlan :=
  { plan with replace := { plan.replace with existingBackupStrategy := strategy } }

/-! ## What a built plan selects -/

section Built

variable {media : MediaFile} {policy : ResolvedPlanningPolicy} {rename : RenamePlan}

theorem determineAction_review (rules : VideoRules) (video : VideoPlan) (c s k : Bool) :
    determineAction media rules video c s k true = .manualReview := rfl

/-- A video stream is planned for exactly when the file has one video stream. -/
theorem buildVideoPlan_primary (media : MediaFile) (rules : VideoRules) :
    (buildVideoPlan media rules).plan.primaryStreamIndex = none ↔ media.videoStreams.length ≠ 1 := by
  unfold buildVideoPlan
  split
  · next stream h =>
    simp only [h, List.length_singleton, ne_eq, not_true_eq_false, iff_false]
    split
    · unfold build4kVideoPlan
      dsimp only
      split
      · simp
      · split <;> simp
    · simp [buildNon4kVideoPlan]
  · next h =>
    simp only [true_iff]
    intro hl
    obtain ⟨stream, hs⟩ := List.length_eq_one_iff.mp hl
    exact h stream hs

theorem buildVideoPlan_review {rules : VideoRules} (h : media.videoStreams.length ≠ 1) :
    (buildVideoPlan media rules).requiresManualReview = true := by
  unfold buildVideoPlan
  split
  · next stream hs => simp [hs] at h
  · rfl

variable (media policy rename) in
theorem buildProcessingPlan_video :
    (buildProcessingPlan media policy rename).selectedStreams.videoStreamIndices ≠ [] ↔
      media.videoStreams.length = 1 := by
  have h := buildVideoPlan_primary media policy.videoRules
  show (buildVideoPlan media policy.videoRules).plan.primaryStreamIndex.toList ≠ [] ↔ _
  cases hp : (buildVideoPlan media policy.videoRules).plan.primaryStreamIndex with
  | none => simpa [hp] using h
  | some i => simpa [hp] using h

variable (media policy rename) in
theorem buildProcessingPlan_audio :
    (buildProcessingPlan media policy rename).selectedStreams.audioStreamIndices ≠ [] ↔
      selectableAudio media policy.audioRules ≠ [] :=
  selectAudioStreams_ne_nil_iff

/-- A plan that selects no video stream or no audio stream asks for a manual review. -/
theorem buildProcessingPlan_review
    (h : (buildProcessingPlan media policy rename).selectedStreams.videoStreamIndices = [] ∨
      (buildProcessingPlan media policy rename).selectedStreams.audioStreamIndices = []) :
    (buildProcessingPlan media policy rename).action = .manualReview := by
  have hreview : ((buildVideoPlan media policy.videoRules).requiresManualReview ||
      (selectAudioStreams media policy.audioRules policy.languages).requiresManualReview ||
      (selectSubtitleStreams media policy.subtitleRules policy.languages).requiresManualReview) =
      true := by
    rcases h with h | h
    · have hl : media.videoStreams.length ≠ 1 := fun hl => (buildProcessingPlan_video media policy rename).mpr hl h
      simp [buildVideoPlan_review hl]
    · have hreview : (selectAudioStreams media policy.audioRules
          policy.languages).requiresManualReview = true := selectAudioStreams_review_iff.mpr h
      simp [hreview]
  show determineAction media policy.videoRules _ _ _ _ _ = .manualReview
  rw [hreview]
  exact determineAction_review _ _ _ _ _

end Built

end Encodr
