import Encodr.Media.Models
import Encodr.Planning.Models

/-!
# Policy rules

The rules a plan is built from, as the policy and its profile resolve them
(`ResolvedPlanningPolicy`). The bounds that the configuration models validate are fields.
-/

namespace Encodr

inductive PolicyDecision where
  | skip
  | remux
  | transcode
deriving DecidableEq, Repr

inductive FourKMode where
  | stripOnly
  | policyControlled
deriving DecidableEq, Repr

structure LanguagePreferences where
  preserveForcedSubtitles : Bool := true
  dropUndeterminedAudio : Bool := false
deriving DecidableEq, Repr

structure SubtitleRules where
  keepLanguages : List String
  keepForcedLanguages : List String
  keepHearingImpaired : Bool := true
  keepOneFullPreferredSubtitle : Bool := true
  dropOtherSubtitles : Bool := true
deriving DecidableEq, Repr

structure AudioRules where
  keepLanguages : List String
  keepOnlyPreferredLanguages : Bool := true
  preserveBestSurround : Bool := true
  preserveSevenOne : Bool := true
  preserveAtmosCapable : Bool := true
  preferredCodecs : List String
  allowCommentary : Bool := false
  maxTracksToKeep : Nat := 2
  maxTracksToKeep_pos : 0 < maxTracksToKeep := by first | exact Nat.two_pos | decide
deriving DecidableEq

structure NonFourKVideoRules where
  decisionOrder : List PolicyDecision
  preferredCodec : String := "hevc"
  allowTranscode : Bool := true
  qualityMode : String := "high_quality"
  qualityCrf : Option Int := none
  maxVideoReductionPercent : Int := 35
  maxVideoBitrateMbps : Int
  maxWidth : Int
  lowBitrateSkipThreshold1080pMbps : Rat := 3
  lowBitrateSkipThreshold720pMbps : Rat := 3 / 2
  minimumOutputBitrate1080pMbps : Rat := 7 / 4
  minimumOutputBitrate720pMbps : Rat := 1
  outputLargerThanInputReviewPercent : Option Int := some 5
deriving DecidableEq

structure FourKVideoRules where
  mode : FourKMode := .stripOnly
  preferredCodec : String := "hevc"
  allowTranscode : Bool := false
  qualityMode : String := "high_quality"
  qualityCrf : Option Int := none
  maxVideoReductionPercent : Int := 20
  minimumOutputBitrate1080pMbps : Rat := 7 / 4
  minimumOutputBitrate720pMbps : Rat := 1
  outputLargerThanInputReviewPercent : Option Int := some 5
deriving DecidableEq

structure VideoRules where
  outputContainer : OutputContainer := .mkv
  non4k : NonFourKVideoRules
  fourK : FourKVideoRules := {}
deriving DecidableEq

structure ReplacementRules where
  inPlace : Bool := true
  requireVerification : Bool := true
  keepOriginalUntilVerified : Bool := true
  deleteReplacedSource : Bool := false
deriving DecidableEq, Repr

/-- What `resolve_planning_policy` resolves for a file: the policy with its profile merged in. -/
structure ResolvedPlanningPolicy where
  context : PolicyContext
  audioRules : AudioRules
  subtitleRules : SubtitleRules
  videoRules : VideoRules
  replacementRules : ReplacementRules := {}
  languages : LanguagePreferences := {}
deriving DecidableEq

end Encodr
