import Encodr.Python.Path

/-!
# Processing plans

The plan of a media file (`ProcessingPlan`): what happens to its streams, its container and its
original. A plan is stored as the payload of a plan snapshot and handed to the worker that
executes it.

The metadata of reasons and warnings is left out: nothing reads it.
-/

namespace Encodr

open Python

/-! ## Enumerations -/

inductive OutputContainer where
  | mkv
  | mp4
deriving DecidableEq, Repr

/-- The text of a container, which is also its file extension. -/
def OutputContainer.value : OutputContainer → String
  | .mkv => "mkv"
  | .mp4 => "mp4"

inductive PlanAction where
  | skip
  | remux
  | transcode
  | manualReview
deriving DecidableEq, Repr

inductive ConfidenceLevel where
  | high
  | medium
  | low
deriving DecidableEq, Repr

inductive VideoHandling where
  | preserve
  | transcodeToPolicy
deriving DecidableEq, Repr

inductive ContainerHandling where
  | preserve
  | remuxToTarget
deriving DecidableEq, Repr

inductive RenameTemplateKind where
  | movie
  | episode
  | generic
deriving DecidableEq, Repr

inductive RenameTemplateSource where
  | policy
  | profile
  | disabled
deriving DecidableEq, Repr

/-! ## The sections of a plan -/

structure PlanReason where
  code : String
  message : String
deriving DecidableEq, Repr

structure PlanWarning where
  code : String
  message : String
deriving DecidableEq, Repr

/-- The source streams of an output, by index. -/
structure SelectedStreamSet where
  videoStreamIndices : List Int := []
  audioStreamIndices : List Int := []
  subtitleStreamIndices : List Int := []
  attachmentStreamIndices : List Int := []
  dataStreamIndices : List Int := []
  unknownStreamIndices : List Int := []
deriving DecidableEq, Repr

structure AudioSelectionIntent where
  selectedStreamIndices : List Int := []
  droppedStreamIndices : List Int := []
  requiredLanguageCodes : List String := []
  primaryStreamIndex : Option Int := none
  preservedAtmosStreamIndices : List Int := []
  preservedSurroundStreamIndices : List Int := []
  commentaryRemovedStreamIndices : List Int := []
  availablePreferredLanguageStreamIndices : List Int := []
  missingRequiredAudio : Bool := false
deriving DecidableEq, Repr

structure SubtitleSelectionIntent where
  selectedStreamIndices : List Int := []
  droppedStreamIndices : List Int := []
  requiredLanguageCodes : List String := []
  requiredForcedLanguageCodes : List String := []
  forcedStreamIndices : List Int := []
  mainStreamIndex : Option Int := none
  hearingImpairedStreamIndices : List Int := []
  ambiguousForcedStreamIndices : List Int := []
deriving DecidableEq, Repr

structure VideoPlan where
  primaryStreamIndex : Option Int := none
  handling : VideoHandling
  preserveOriginal : Bool
  targetCodec : Option String := none
  transcodeRequired : Bool := false
  qualityMode : Option String := none
  qualityCrf : Option Int := none
  sourceBitrateBps : Option Int := none
  lowBitrateSkipThresholdBps : Option Int := none
  minimumOutputBitrateBps : Option Int := none
  maxAllowedVideoReductionPercent : Option Int := none
  outputLargerThanInputReviewPercent : Option Int := none
deriving DecidableEq, Repr

structure ContainerPlan where
  sourceExtension : Option String := none
  targetContainer : OutputContainer
  handling : ContainerHandling
  changeRequired : Bool := false
deriving DecidableEq, Repr

structure RenamePlan where
  enabled : Bool
  templateKind : Option RenameTemplateKind := none
  templateSource : RenameTemplateSource := .disabled
  templateValue : Option String := none
deriving DecidableEq, Repr

/-- How an output replaces its source. The backup strategy is free text; the source compares it
with `fail`, `replace_backup` and `keep_existing_backup`. -/
structure ReplacePlan where
  inPlace : Bool
  requireVerification : Bool
  keepOriginalUntilVerified : Bool
  deleteReplacedSource : Bool
  existingBackupStrategy : String := "fail"
deriving DecidableEq, Repr

structure PolicyContext where
  policyName : String
  policyVersion : Int
  selectedProfileName : Option String := none
  selectedProfileDescription : Option String := none
  matchedPathPrefix : Option String := none
  sourcePath : PosixPath
deriving DecidableEq

structure PlanSummary where
  action : PlanAction
  confidence : ConfidenceLevel
  isAlreadyCompliant : Bool
  shouldTreatAsProtected : Bool
deriving DecidableEq, Repr

/-- The plan of a media file. -/
structure ProcessingPlan where
  action : PlanAction
  summary : PlanSummary
  policyContext : PolicyContext
  selectedStreams : SelectedStreamSet
  audio : AudioSelectionIntent
  subtitles : SubtitleSelectionIntent
  video : VideoPlan
  container : ContainerPlan
  rename : RenamePlan
  replace : ReplacePlan
  reasons : List PlanReason := []
  warnings : List PlanWarning := []
  confidence : ConfidenceLevel
  isAlreadyCompliant : Bool
  shouldTreatAsProtected : Bool
deriving DecidableEq

end Encodr
