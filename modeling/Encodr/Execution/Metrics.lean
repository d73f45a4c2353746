import Mathlib.Data.Rat.Floor
import Encodr.Media.Models

/-!
# What an execution saves

`calculate_media_savings`: the sizes and bitrates of a source and its output, from what their probes say.
Where the bitrate of no stream of a class is known, the size of the class is what the other class leaves of
the file. The packets of a file are not probed. The numbers are exact, where the source computes with
floating point.

* `estimateStreamClassSizes`, `measureVideoBitrate`: the sizes and the bitrate of one file.
* `calculateMediaSavings`: the metrics.
* `compressionReductionPercent_eq`: the reduction is that of the estimated video sizes.
-/

namespace Encodr

open Python

/-! ## Sizes -/

/-- `int` of a number: it is rounded towards zero. -/
def intOf (q : Rat) : Int :=
  if 0 ≤ q then ⌊q⌋ else ⌈q⌉

/-- `estimate_stream_size_from_bitrate`. -/
def estimateStreamSizeFromBitrate (bitRates : List (Option Int)) (duration : Option Rat) : Option Int :=
  match duration with
  | none => none
  | some duration =>
    if duration ≤ 0 then none
    else bitRates.foldl (fun total bitRate =>
      match bitRate with
      | none => total
      | some bitRate => some (total.getD 0 + intOf (bitRate * duration / 8))) none

structure StreamClassSizes where
  video : Option Int
  nonVideo : Option Int

/-- A size, or what the other size leaves of the total. -/
def sizeOrRest (size total other : Option Int) : Option Int :=
  match size, total, other with
  | none, some total, some other => some (max (total - other) 0)
  | size, _, _ => size

/-- `estimate_stream_class_sizes`, without a probe of the packets. A subtitle stream has no bitrate. -/
def estimateStreamClassSizes (media : MediaFile) : StreamClassSizes :=
  let videoSize := estimateStreamSizeFromBitrate (media.videoStreams.map (·.bitRate))
    media.container.durationSeconds
  let nonVideoSize := estimateStreamSizeFromBitrate
    (media.audioStreams.map (·.bitRate) ++ media.subtitleStreams.map fun _ => none)
    media.container.durationSeconds
  let videoSize := sizeOrRest videoSize media.container.sizeBytes nonVideoSize
  { video := videoSize
    nonVideo := sizeOrRest nonVideoSize media.container.sizeBytes videoSize }

/-! ## Bitrates -/

structure BitrateMeasurement where
  value : Option Int := none
  source : Option String := none
  unavailableReason : Option String := none
deriving DecidableEq, Repr

/-- `_format_missing_values`. -/
def formatMissingValues : List String → String
  | [] => ""
  | [a] => a
  | [a, b] => a ++ " or " ++ b
  | values => ", ".intercalate values.dropLast ++ ", or " ++ values.getLast?.getD ""

/-- `first_video_bitrate`. -/
def firstVideoBitrate (media : MediaFile) : Option Int :=
  media.videoStreams.head?.bind (·.bitRate)

/-- `measure_video_bitrate`. -/
def measureVideoBitrate (media : MediaFile) (videoSizeBytes : Option Int) (label : String) :
    BitrateMeasurement :=
  match firstVideoBitrate media with
  | some bitRate => { value := some bitRate, source := some "stream_bit_rate" }
  | none =>
    let duration := media.container.durationSeconds.filter (0 < ·)
    match videoSizeBytes, duration with
    | some videoSizeBytes, some duration => {
        value := some (roundHalfEven (videoSizeBytes * 8 / duration))
        source := some "derived_video_size_duration" }
    | _, _ =>
      let missing := ["video stream bit_rate"] ++ (if videoSizeBytes = none then ["video size"] else []) ++
        (if duration = none then ["duration"] else [])
      { unavailableReason := some (label ++ "_video_bitrate_bps is unavailable because ffprobe did not report " ++
          formatMissingValues missing ++ ".") }

/-! ## Metrics -/

/-- `compression_reduction_unavailable_reason`. -/
def compressionReductionUnavailableReason (sourceVideoSize outputVideoSize : Option Int) : Option String :=
  let missing := (if sourceVideoSize = none then ["source video size"] else []) ++
    (if outputVideoSize = none then ["output video size"] else [])
  if missing = [] then none
  else some ("compression_reduction_percent is unavailable because " ++ formatMissingValues missing ++
    " could not be derived.")

/-- The dictionary of metrics; a key that is missing is `none`. -/
structure ExecutionMetrics where
  inputSizeBytes : Option Int := none
  outputSizeBytes : Option Int := none
  spaceSavedBytes : Option Int := none
  videoInputSizeBytes : Option Int := none
  videoOutputSizeBytes : Option Int := none
  videoSpaceSavedBytes : Option Int := none
  sourceVideoBitrateBps : Option Int := none
  outputVideoBitrateBps : Option Int := none
  sourceVideoBitrateSource : Option String := none
  outputVideoBitrateSource : Option String := none
  sourceVideoBitrateUnavailableReason : Option String := none
  outputVideoBitrateUnavailableReason : Option String := none
  sourceDurationSeconds : Option Rat := none
  outputDurationSeconds : Option Rat := none
  compressionReductionUnavailableReason : Option String := none
  nonVideoSpaceSavedBytes : Option Int := none
  compressionReductionPercent : Option Rat := none
deriving DecidableEq

/-- `compression_reduction_percent`. -/
def compressionReduction (sourceVideoSize videoSaved : Option Int) : Option Rat :=
  match sourceVideoSize, videoSaved with
  | some sourceVideoSize, some videoSaved =>
    if 0 < sourceVideoSize then some (videoSaved / sourceVideoSize * 100) else none
  | _, _ => none

/-- `calculate_media_savings`. -/
def calculateMediaSavings (sourceMedia outputMedia : MediaFile) : ExecutionMetrics :=
  let sourceTotalSize := sourceMedia.container.sizeBytes
  let outputTotalSize := outputMedia.container.sizeBytes
  let totalSaved := do return max ((← sourceTotalSize) - (← outputTotalSize)) 0
  let sourceSizes := estimateStreamClassSizes sourceMedia
  let outputSizes := estimateStreamClassSizes outputMedia
  let videoSaved := do return (← sourceSizes.video) - (← outputSizes.video)
  let nonVideoSaved := do return (← sourceSizes.nonVideo) - (← outputSizes.nonVideo)
  let videoSaved := sizeOrRest videoSaved totalSaved nonVideoSaved
  let nonVideoSaved := sizeOrRest nonVideoSaved totalSaved videoSaved
  let sourceBitrate := measureVideoBitrate sourceMedia sourceSizes.video "source"
  let outputBitrate := measureVideoBitrate outputMedia outputSizes.video "output"
  { inputSizeBytes := sourceTotalSize
    outputSizeBytes := outputTotalSize
    spaceSavedBytes := totalSaved
    videoInputSizeBytes := sourceSizes.video
    videoOutputSizeBytes := outputSizes.video
    videoSpaceSavedBytes := videoSaved
    sourceVideoBitrateBps := sourceBitrate.value
    outputVideoBitrateBps := outputBitrate.value
    sourceVideoBitrateSource := sourceBitrate.source
    outputVideoBitrateSource := outputBitrate.source
    sourceVideoBitrateUnavailableReason := sourceBitrate.unavailableReason
    outputVideoBitrateUnavailableReason := outputBitrate.unavailableReason
    sourceDurationSeconds := sourceMedia.container.durationSeconds
    outputDurationSeconds := outputMedia.container.durationSeconds
    compressionReductionUnavailableReason :=
      Encodr.compressionReductionUnavailableReason sourceSizes.video outputSizes.video
    nonVideoSpaceSavedBytes := nonVideoSaved
    compressionReductionPercent := compressionReduction sourceSizes.video videoSaved }

/-! ## The reduction -/

@[simp] theorem sizeOrRest_none_right (size total : Option Int) : sizeOrRest size total none = size := by
  unfold sizeOrRest
  split <;> simp_all

@[simp] theorem sizeOrRest_none_total (size other : Option Int) : sizeOrRest size none other = size := by
  unfold sizeOrRest
  split <;> simp_all

@[simp] theorem sizeOrRest_some (size : Int) (total other : Option Int) :
    sizeOrRest (some size) total other = some size := rfl

/-- Where the file size and the size of the other streams are known, so is the size of the video. -/
theorem estimateStreamClassSizes_video {media : MediaFile} {total nonVideo : Int}
    (htotal : media.container.sizeBytes = some total)
    (h : (estimateStreamClassSizes media).nonVideo = some nonVideo) :
    ∃ video, (estimateStreamClassSizes media).video = some video := by
  rw [← Option.isSome_iff_exists]
  by_contra hnone
  have hvideo : (estimateStreamClassSizes media).video = none := by simpa using hnone
  simp only [estimateStreamClassSizes, htotal] at h hvideo
  rw [hvideo, sizeOrRest_none_right] at h
  rw [h] at hvideo
  cases hfirst : estimateStreamSizeFromBitrate (media.videoStreams.map (·.bitRate))
    media.container.durationSeconds with
  | none =>
    rw [hfirst] at hvideo
    cases hvideo
  | some video =>
    rw [hfirst] at hvideo
    cases hvideo

/-- Where a size is known for both files, the other size is not used. -/
theorem sizeOrRest_difference {sourceVideo outputVideo sourceTotal outputTotal sourceRest outputRest : Option Int}
    (hsource : sourceTotal.isSome → sourceRest.isSome → sourceVideo.isSome)
    (houtput : outputTotal.isSome → outputRest.isSome → outputVideo.isSome) :
    sizeOrRest (do return (← sourceVideo) - (← outputVideo))
        (do return max ((← sourceTotal) - (← outputTotal)) 0) (do return (← sourceRest) - (← outputRest)) =
      (do return (← sourceVideo) - (← outputVideo)) := by
  cases sourceTotal with
  | none => exact sizeOrRest_none_total _ _
  | some sourceTotal =>
    cases outputTotal with
    | none => exact sizeOrRest_none_total _ _
    | some outputTotal =>
      cases sourceRest with
      | none => exact sizeOrRest_none_right _ _
      | some sourceRest =>
        cases outputRest with
        | none => exact sizeOrRest_none_right _ _
        | some outputRest =>
          -- both sizes of both files are known, so the video sizes are known as well
          obtain ⟨source, rfl⟩ := Option.isSome_iff_exists.mp (hsource rfl rfl)
          obtain ⟨output, rfl⟩ := Option.isSome_iff_exists.mp (houtput rfl rfl)
          rfl

/-- The video size that is saved is the difference of the estimated sizes: what is left of the file size
is not used for it. -/
theorem videoSpaceSavedBytes_eq (sourceMedia outputMedia : MediaFile) :
    (calculateMediaSavings sourceMedia outputMedia).videoSpaceSavedBytes =
      (do return (← (estimateStreamClassSizes sourceMedia).video) -
        (← (estimateStreamClassSizes outputMedia).video)) := by
  have known (media : MediaFile) (htotal : media.container.sizeBytes.isSome)
      (hrest : (estimateStreamClassSizes media).nonVideo.isSome) :
      (estimateStreamClassSizes media).video.isSome := by
    obtain ⟨total, htotal⟩ := Option.isSome_iff_exists.mp htotal
    obtain ⟨nonVideo, hrest⟩ := Option.isSome_iff_exists.mp hrest
    exact Option.isSome_iff_exists.mpr (estimateStreamClassSizes_video htotal hrest)
  exact sizeOrRest_difference (known sourceMedia) (known outputMedia)

/-- A reduction that is known is that of the estimated video sizes, of which the first is positive. -/
theorem compressionReductionPercent_eq {sourceMedia outputMedia : MediaFile} {reduction : Rat}
    (h : (calculateMediaSavings sourceMedia outputMedia).compressionReductionPercent = some reduction) :
    ∃ source output, (estimateStreamClassSizes sourceMedia).video = some source ∧
      (estimateStreamClassSizes outputMedia).video = some output ∧ 0 < source ∧
      reduction = (source - output) / source * 100 := by
  have hpercent : (calculateMediaSavings sourceMedia outputMedia).compressionReductionPercent =
      compressionReduction (estimateStreamClassSizes sourceMedia).video
        (calculateMediaSavings sourceMedia outputMedia).videoSpaceSavedBytes := rfl
  rw [hpercent, videoSpaceSavedBytes_eq] at h
  cases hsource : (estimateStreamClassSizes sourceMedia).video with
  | none =>
    rw [hsource] at h
    cases h
  | some source =>
    cases houtput : (estimateStreamClassSizes outputMedia).video with
    | none =>
      rw [hsource, houtput] at h
      cases h
    | some output =>
      rw [hsource, houtput] at h
      simp only [compressionReduction, bind, pure, Option.bind_some] at h
      split at h
      · rename_i hpos
        refine ⟨source, output, rfl, rfl, hpos, ?_⟩
        rw [← Option.some.inj h]
        push_cast
        rfl
      · cases h

end Encodr
