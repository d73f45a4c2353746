import Encodr.Planning.Planner

/-!
# Verification of an output

`OutputVerifier.verify_output`: the checks of a staged output against the plan it was made under.
What the file system and the probe say about the output is an argument (`Probe`).

* `verifyOutput_passed_iff`: an output passes exactly when every check does.
* `accepted_shape`: an accepted output has as many streams of each kind as its plan selects.
-/

namespace Encodr

open Python

/-! ## Rules -/

/-- `output_container_matches`. -/
def outputContainerMatches (media : MediaFile) (target : OutputContainer) : Bool :=
  media.extension = some target.value ||
    decide (target.value ∈ split ',' (media.container.formatName.getD ""))

/-- `has_required_audio`. -/
def hasRequiredAudio (plan : ProcessingPlan) (media : MediaFile) : Bool :=
  if plan.audio.selectedStreamIndices.isEmpty then true
  else if plan.audio.requiredLanguageCodes.isEmpty then media.hasEnglishAudio
  else
    let outputLanguages := media.audioStreams.map fun s => languageCode s.language
    plan.audio.requiredLanguageCodes.all (· ∈ outputLanguages)

/-- `has_required_subtitles`. -/
def hasRequiredSubtitles (plan : ProcessingPlan) (media : MediaFile) : Bool :=
  if plan.subtitles.selectedStreamIndices.isEmpty then true
  else if media.subtitleStreams.isEmpty then false
  else
    let outputLanguages := media.subtitleStreams.map fun s => languageCode s.language
    if !plan.subtitles.requiredLanguageCodes.all (· ∈ outputLanguages) then false
    else if !plan.subtitles.forcedStreamIndices.isEmpty then
      if !plan.subtitles.requiredForcedLanguageCodes.isEmpty then
        let forcedLanguages := (media.subtitleStreams.filter fun s =>
          s.disposition.forced || s.isForced).map fun s => languageCode s.language
        plan.subtitles.requiredForcedLanguageCodes.all (· ∈ forcedLanguages)
      else media.hasForcedEnglishSubtitle
    else if !plan.subtitles.requiredLanguageCodes.isEmpty then true
    else decide ("eng" ∈ outputLanguages)

/-- `has_required_video`. -/
def hasRequiredVideo (plan : ProcessingPlan) (output : MediaFile) : Bool :=
  match plan.video.primaryStreamIndex, output.videoStreams, plan.video.targetCodec with
  | none, _, _ => true
  | some _, [], _ => false
  | some _, _ :: _, none => true
  | some _, stream :: _, some codec =>
    !plan.video.transcodeRequired || stream.codecName = some codec

/-- `has_expected_selected_stream_shape`. -/
def hasExpectedSelectedStreamShape (plan : ProcessingPlan) (output : MediaFile) : Bool :=
  output.videoStreams.length = plan.selectedStreams.videoStreamIndices.length &&
  output.audioStreams.length = plan.selectedStreams.audioStreamIndices.length &&
  output.subtitleStreams.length = plan.selectedStreams.subtitleStreamIndices.length &&
  output.attachmentStreams.length = plan.selectedStreams.attachmentStreamIndices.length &&
  output.dataStreams.length = plan.selectedStreams.dataStreamIndices.length &&
  output.unknownStreams.length = plan.selectedStreams.unknownStreamIndices.length

/-- `normalised_codec`. -/
def normalisedCodec (value : Option String) : String :=
  lower (value.getD "")

/-- `audio_stream_matches`. -/
def audioStreamMatches (output planned : AudioStream) : Bool :=
  languageCode output.language = languageCode planned.language &&
  normalisedCodec output.codecName = normalisedCodec planned.codecName &&
  output.channels = planned.channels

/-- `subtitle_stream_matches`. -/
def subtitleStreamMatches (output planned : SubtitleStream) : Bool :=
  languageCode output.language = languageCode planned.language &&
  normalisedCodec output.codecName = normalisedCodec planned.codecName &&
  (output.disposition.forced || output.isForced) = (planned.disposition.forced || planned.isForced)

/-- The streams at the planned indices. Of two streams with one index, the last is taken. -/
def plannedStreams {α : Type} (index : α → Int) (streams : List α) (indices : List Int) : List α :=
  indices.filterMap fun i => streams.reverse.find? (fun s => index s = i)

/-- The output streams are the planned ones, in order. -/
def selectionMatches {α : Type} (index : α → Int) (same : α → α → Bool) (source output : List α)
    (indices : List Int) : Bool :=
  let planned := plannedStreams index source indices
  if planned.length ≠ indices.length then false
  else if output.length ≠ planned.length then false
  else (output.zip planned).all fun p => same p.1 p.2

/-- `audio_stream_selection_matches_plan`. -/
def audioStreamSelectionMatchesPlan (source : MediaFile) (plan : ProcessingPlan)
    (output : MediaFile) : Bool :=
  selectionMatches (·.index) audioStreamMatches source.audioStreams output.audioStreams
    plan.selectedStreams.audioStreamIndices

/-- `subtitle_stream_selection_matches_plan`. -/
def subtitleStreamSelectionMatchesPlan (source : MediaFile) (plan : ProcessingPlan)
    (output : MediaFile) : Bool :=
  selectionMatches (·.index) subtitleStreamMatches source.subtitleStreams output.subtitleStreams
    plan.selectedStreams.subtitleStreamIndices

/-- Exactly the output stream at the position of `main` among `indices` is the default one. -/
def defaultIsAt {α : Type} (isDefault : α → Bool) (streams : List α) (indices : List Int)
    (main : Int) : Bool :=
  if main ∈ indices then
    streams.zipIdx.all fun p => isDefault p.1 == decide (p.2 = indices.idxOf main)
  else false

/-- `audio_default_disposition_matches_plan`. -/
def audioDefaultDispositionMatchesPlan (plan : ProcessingPlan) (output : MediaFile) : Bool :=
  match plan.selectedStreams.audioStreamIndices with
  | [] => !output.audioStreams.any (·.disposition.default)
  | first :: rest => defaultIsAt (·.disposition.default) output.audioStreams (first :: rest)
      (plan.audio.primaryStreamIndex.getD first)

/-- `subtitle_default_disposition_matches_plan`. -/
def subtitleDefaultDispositionMatchesPlan (plan : ProcessingPlan) (output : MediaFile) : Bool :=
  match plan.selectedStreams.subtitleStreamIndices, plan.subtitles.mainStreamIndex with
  | [], _ => !output.subtitleStreams.any (·.disposition.default)
  | _ :: _, none => !output.subtitleStreams.any (·.disposition.default)
  | indices, some main =>
    defaultIsAt (·.disposition.default) output.subtitleStreams indices main

/-- `retains_required_4k`. -/
def retainsRequired4k (source : MediaFile) (plan : ProcessingPlan) (output : MediaFile) : Bool :=
  !source.is4k || !plan.video.preserveOriginal || output.is4k

/-- `retains_required_surround`. -/
def retainsRequiredSurround (plan : ProcessingPlan) (output : MediaFile) : Bool :=
  plan.audio.preservedSurroundStreamIndices.isEmpty || output.hasSurroundAudio

/-- `retains_required_atmos`. -/
def retainsRequiredAtmos (plan : ProcessingPlan) (output : MediaFile) : Bool :=
  plan.audio.preservedAtmosStreamIndices.isEmpty || output.hasAtmosCapableAudio

/-! ## The verifier -/

inductive VerificationStatus where
  | passed
  | failed
  | notRequired
deriving DecidableEq, Repr

structure VerificationCheck where
  code : String
  message : String
  passed : Bool
deriving DecidableEq, Repr

structure VerificationIssue where
  code : String
  message : String
deriving DecidableEq, Repr

structure VerificationResult where
  status : VerificationStatus
  passed : Bool
  checks : List VerificationCheck := []
  warnings : List VerificationIssue := []
  failures : List VerificationIssue := []
deriving DecidableEq, Repr

/-- `VerificationResult.not_required`. -/
def VerificationResult.notRequired : VerificationResult where
  status := .notRequired
  passed := true

/-- What a staged output turns out to be: missing or empty, not probeable, or a media file. -/
inductive Probe where
  | missingOrEmpty
  | unreadable (message : String)
  | media (output : MediaFile)
deriving DecidableEq

/-- The checks of a probed output, in order. -/
def outputChecks (plan : ProcessingPlan) (source output : MediaFile) : List VerificationCheck := [
  ⟨"container_matches_plan", "Output container matches the plan.",
    outputContainerMatches output plan.container.targetContainer⟩,
  ⟨"required_audio_present", "Required audio language intent is present in the output.",
    hasRequiredAudio plan output⟩,
  ⟨"subtitle_intent_satisfied", "Required subtitle intent is present in the output.",
    hasRequiredSubtitles plan output⟩,
  ⟨"selected_stream_shape_satisfied", "Output contains only the streams selected by the plan.",
    hasExpectedSelectedStreamShape plan output⟩,
  ⟨"audio_stream_selection_satisfied",
    "Output audio streams match the selected plan order and metadata.",
    audioStreamSelectionMatchesPlan source plan output⟩,
  ⟨"subtitle_stream_selection_satisfied",
    "Output subtitle streams match the selected plan order and metadata.",
    subtitleStreamSelectionMatchesPlan source plan output⟩,
  ⟨"audio_default_disposition_satisfied",
    "Output audio default disposition matches the primary selected track.",
    audioDefaultDispositionMatchesPlan plan output⟩,
  ⟨"subtitle_default_disposition_satisfied",
    "Output subtitle default disposition matches the selected primary subtitle.",
    subtitleDefaultDispositionMatchesPlan plan output⟩,
  ⟨"video_intent_satisfied", "Output contains the expected video stream shape.",
    hasRequiredVideo plan output⟩,
  ⟨"four_k_preserved_when_required",
    "4K content remains 4K where the plan requires preservation.",
    retainsRequired4k source plan output⟩,
  ⟨"surround_preserved_when_required", "Required surround capability remains present.",
    retainsRequiredSurround plan output⟩,
  ⟨"atmos_preserved_when_required", "Required Atmos-capable audio remains present.",
    retainsRequiredAtmos plan output⟩]

/-- The check that the output is there. -/
def existsCheck (passed : Bool) : VerificationCheck :=
  ⟨"output_exists_and_non_empty", "Staged output exists and is not empty.", passed⟩

/-- The check that the output can be probed. -/
def probeCheck (passed : Bool) : VerificationCheck :=
  ⟨"output_probe", "Staged output could be probed successfully.", passed⟩

/-- `verify_output`. -/
def verifyOutput (plan : ProcessingPlan) (source : MediaFile) : Probe → VerificationResult
  | .missingOrEmpty =>
    { status := .failed
      passed := false
      checks := [existsCheck false]
      failures := [⟨"output_missing_or_empty", "The staged output file is missing or empty."⟩] }
  | .unreadable message =>
    { status := .failed
      passed := false
      checks := [existsCheck true, probeCheck false]
      failures := [⟨"probe_failed", message⟩] }
  | .media output =>
    let checks := outputChecks plan source output
    let failures := (checks.filter (!·.passed)).map fun c => ⟨c.code, c.message⟩
    { status := if failures.isEmpty then .passed else .failed
      passed := failures.isEmpty
      checks := [existsCheck true, probeCheck true] ++ checks
      warnings := if plan.subtitles.ambiguousForcedStreamIndices.isEmpty then [] else
        [⟨"ambiguous_forced_subtitle_metadata",
          "Forced subtitle metadata was ambiguous in the source plan."⟩]
      failures := failures }

/-! ## What an accepted output is like -/

section Accepted

variable {plan : ProcessingPlan} {source output : MediaFile} {probe : Probe}

/-- An output passes exactly when it was probed and every check of it passes. -/
theorem verifyOutput_passed_iff : (verifyOutput plan source probe).passed = true ↔
    ∃ output, probe = .media output ∧ ∀ c ∈ outputChecks plan source output, c.passed = true := by
  cases probe with
  | missingOrEmpty => simp [verifyOutput]
  | unreadable message => simp [verifyOutput]
  | media output => simp [verifyOutput, List.filter_eq_nil_iff]

/-- The verdict and its status agree. -/
theorem verifyOutput_passed_of_status (h : (verifyOutput plan source probe).status = .passed) :
    (verifyOutput plan source probe).passed = true := by
  cases probe with
  | missingOrEmpty => cases h
  | unreadable message => cases h
  | media output =>
    by_contra hfailed
    simp only [verifyOutput] at h hfailed
    rw [if_neg hfailed] at h
    cases h

/-- An accepted output has as many video and audio streams as its plan selects. -/
theorem accepted_shape (h : (verifyOutput plan source (.media output)).passed = true) :
    output.videoStreams.length = plan.selectedStreams.videoStreamIndices.length ∧
      output.audioStreams.length = plan.selectedStreams.audioStreamIndices.length := by
  obtain ⟨out, hout, hall⟩ := verifyOutput_passed_iff.mp h
  obtain rfl := Probe.media.inj hout
  have hshape : hasExpectedSelectedStreamShape plan output = true :=
    hall ⟨"selected_stream_shape_satisfied",
      "Output contains only the streams selected by the plan.",
      hasExpectedSelectedStreamShape plan output⟩ (by simp [outputChecks])
  simp only [hasExpectedSelectedStreamShape, Bool.and_eq_true, decide_eq_true_eq] at hshape
  exact ⟨hshape.1.1.1.1.1, hshape.1.1.1.1.2⟩

end Accepted

end Encodr
