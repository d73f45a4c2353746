import Encodr.Api.PathSafety
import Encodr.Config.Policy

/-!
# The operator's processing rules

`SetupStateService`: the roots of the film and series libraries, and for each of them a rule set for
4K files and one for the others. The validator checks a rule set before it is stored.

The stored state is the value of type `SetupState`; how it is written to its file is left out.

* `validateProcessingRules`, `validateProcessingRules_ok`: an accepted rule set.
* `resolveRulesetForPath`, `profileNameForRuleset`: the rule set of a file, and the profile it stands
  for.
-/

namespace Encodr

open Python Lib

/-! ## Rule sets -/

inductive RuleHandlingMode where
  | transcode
  | stripOnly
  | preserveVideo
deriving DecidableEq, Repr

/-- `RuleHandlingMode(text)`. -/
def RuleHandlingMode.parse (text : String) : Option RuleHandlingMode :=
  if text = "transcode" then some .transcode
  else if text = "strip_only" then some .stripOnly
  else if text = "preserve_video" then some .preserveVideo
  else none

/-- `OutputContainer(text)`. -/
def OutputContainer.parse (text : String) : Option OutputContainer :=
  if text = "mkv" then some .mkv else if text = "mp4" then some .mp4 else none

/-- The names of the rule sets. -/
inductive Ruleset where
  | movies
  | movies4k
  | tv
  | tv4k
deriving DecidableEq, Repr

/-- A rule set as the operator sends it; an absent entry is `none`. -/
structure RuleSetPayload where
  targetVideoCodec : String
  outputContainer : String
  preferredAudioLanguages : Option (List String) := none
  keepOnlyPreferredAudioLanguages : Option Bool := none
  preserveSurround : Option Bool := none
  preserveSevenOne : Option Bool := none
  preserveAtmos : Option Bool := none
  preferredSubtitleLanguages : Option (List String) := none
  keepForcedSubtitles : Option Bool := none
  keepOneFullPreferredSubtitle : Option Bool := none
  dropOtherSubtitles : Option Bool := none
  handlingMode : String
  qualityPreset : Option String := none
  targetQualityMode : String
  targetCrf : Option Int := none
  maxAllowedVideoReductionPercent : Option Int := none
  lowBitrateSkipThreshold1080pMbps : Option Rat := none
  lowBitrateSkipThreshold720pMbps : Option Rat := none
  minimumOutputBitrate1080pMbps : Option Rat := none
  minimumOutputBitrate720pMbps : Option Rat := none
  /-- The entry may be there without a value. -/
  outputLargerThanInputReviewPercent : Option (Option Int) := none

/-- `ProcessingRuleValues`, as the validator returns them. -/
structure ProcessingRules where
  targetVideoCodec : String
  outputContainer : OutputContainer
  preferredAudioLanguages : List String
  keepOnlyPreferredAudioLanguages : Bool := true
  preserveSurround : Bool := true
  preserveSevenOne : Bool := true
  preserveAtmos : Bool := true
  preferredSubtitleLanguages : List String
  keepForcedSubtitles : Bool := true
  keepOneFullPreferredSubtitle : Bool := true
  dropOtherSubtitles : Bool := true
  handlingMode : RuleHandlingMode
  qualityPreset : String
  targetQualityMode : String
  targetCrf : Option Int := none
  maxAllowedVideoReductionPercent : Int := 0
  lowBitrateSkipThreshold1080pMbps : Rat := 3
  lowBitrateSkipThreshold720pMbps : Rat := 3 / 2
  minimumOutputBitrate1080pMbps : Rat := 7 / 4
  minimumOutputBitrate720pMbps : Rat := 1
  outputLargerThanInputReviewPercent : Option Int := some 5
deriving DecidableEq

/-! ## The validator -/

/-- `_validate_language_list`. -/
def validateLanguageList (value : Option (List String)) : Except ApiError (List String) := do
  let codes ← found (.validation "Language preferences must be provided as a list.") value
  let cleaned := codes.map fun code => lower (strip code)
  require (cleaned.all isLanguageCode = true)
    (.validation "Language preferences must use three-letter language codes.")
  let deduplicated := deduplicatePreservingOrder cleaned
  require (deduplicated ≠ []) (.validation "At least one preferred language is required.")
  return deduplicated

/-- `_validate_optional_int`. -/
def validateOptionalInt (value : Option Int) (minimum maximum : Int) (fieldName : String) :
    Except ApiError (Option Int) := do
  require (∀ v ∈ value, minimum ≤ v ∧ v ≤ maximum) (.validation (fieldName ++ " must be between " ++
    toString minimum ++ " and " ++ toString maximum ++ "."))
  return value

/-- `_validate_mbps`: two decimals are kept. -/
def validateMbps (value : Rat) (fieldName : String) : Except ApiError Rat := do
  require (0 ≤ value) (.validation (fieldName ++ " must not be negative."))
  return roundHalfEven (value * 100) / 100

/-- `_validate_processing_rules`. -/
def validateProcessingRules (payload : RuleSetPayload) : Except ApiError ProcessingRules := do
  let unsupported : ApiError := .validation "Processing rules contain an unsupported value."
  let codec := lower (strip payload.targetVideoCodec)
  require (codec ∈ videoCodecs) unsupported
  let container ← found unsupported (OutputContainer.parse (lower (strip payload.outputContainer)))
  let handlingMode ← found unsupported (RuleHandlingMode.parse (lower (strip payload.handlingMode)))
  let qualityMode := lower (strip payload.targetQualityMode)
  require (qualityMode ∈ videoQualityModes) unsupported
  let qualityPreset := lower (strip (textOr payload.qualityPreset qualityMode))
  require (qualityPreset ∈ ["high_quality", "balanced", "efficient", "custom"])
    (.validation "Processing rules contain an unsupported quality preset.")
  let audioLanguages ← validateLanguageList payload.preferredAudioLanguages
  let subtitleLanguages ← validateLanguageList payload.preferredSubtitleLanguages
  let maxReduction := payload.maxAllowedVideoReductionPercent.getD 0
  require (0 ≤ maxReduction ∧ maxReduction ≤ 95)
    (.validation "Maximum allowed video reduction must be between 0 and 95.")
  let targetCrf ← validateOptionalInt payload.targetCrf 0 51 "CRF"
  let low1080p ← validateMbps (payload.lowBitrateSkipThreshold1080pMbps.getD 3)
    "1080p low-bitrate skip threshold"
  let low720p ← validateMbps (payload.lowBitrateSkipThreshold720pMbps.getD (3 / 2))
    "720p low-bitrate skip threshold"
  let min1080p ← validateMbps (payload.minimumOutputBitrate1080pMbps.getD (7 / 4))
    "1080p minimum output bitrate"
  let min720p ← validateMbps (payload.minimumOutputBitrate720pMbps.getD 1)
    "720p minimum output bitrate"
  let outputGrowthGuard ← validateOptionalInt
    (payload.outputLargerThanInputReviewPercent.getD (some 5)) 0 100
    "Output larger than input review guard"
  return {
    targetVideoCodec := codec
    outputContainer := container
    preferredAudioLanguages := audioLanguages
    keepOnlyPreferredAudioLanguages := payload.keepOnlyPreferredAudioLanguages.getD true
    preserveSurround := payload.preserveSurround.getD true
    preserveSevenOne := payload.preserveSevenOne.getD true
    preserveAtmos := payload.preserveAtmos.getD true
    preferredSubtitleLanguages := subtitleLanguages
    keepForcedSubtitles := payload.keepForcedSubtitles.getD true
    keepOneFullPreferredSubtitle := payload.keepOneFullPreferredSubtitle.getD true
    dropOtherSubtitles := payload.dropOtherSubtitles.getD true
    handlingMode := handlingMode
    qualityPreset := qualityPreset
    targetQualityMode := qualityMode
    targetCrf := targetCrf
    maxAllowedVideoReductionPercent := maxReduction
    lowBitrateSkipThreshold1080pMbps := low1080p
    lowBitrateSkipThreshold720pMbps := low720p
    minimumOutputBitrate1080pMbps := min1080p
    minimumOutputBitrate720pMbps := min720p
    outputLargerThanInputReviewPercent := outputGrowthGuard }

/-! ## The state -/

/-- The stored state: the roots of the libraries, and the rule sets that were set. -/
structure SetupState where
  moviesRoot : Option String := none
  tvRoot : Option String := none
  processingRules : Ruleset → Option ProcessingRules := fun _ => none

/-- `_resolve_ruleset_for_path`: the longer root; of two that are the same, the one of the series. -/
def resolveRulesetForPath (os : PathOs) (source : PosixPath) (moviesRoot tvRoot : Option String)
    (is4k : Bool) : Option Ruleset :=
  let matchedRoot (root : Option String) : Option Nat := do
    let text ← root
    guard (text ≠ "")
    let root := os.resolve (PosixPath.parse text)
    guard (isRelativeTo source root)
    return root.asPosix.length
  let film := if is4k then .movies4k else .movies
  let series := if is4k then .tv4k else .tv
  match matchedRoot moviesRoot, matchedRoot tvRoot with
  | none, none => none
  | some _, none => some film
  | none, some _ => some series
  | some m, some t => some (if t < m then film else series)

namespace SetupState

variable (setup : SetupState)

/-- `ruleset_for_source`. -/
def rulesetForSource (os : PathOs) (sourcePath : PosixPath) (is4k : Bool) : Option Ruleset :=
  resolveRulesetForPath os (os.resolve sourcePath) setup.moviesRoot setup.tvRoot is4k

/-- `rules_for_ruleset`. -/
def rulesForRuleset (ruleset : Ruleset) : Option ProcessingRules :=
  setup.processingRules ruleset

/-- `rules_for_source`. -/
def rulesForSource (os : PathOs) (sourcePath : PosixPath) (is4k : Bool) : Option ProcessingRules :=
  (setup.rulesetForSource os sourcePath is4k).bind setup.processingRules

end SetupState

/-- The words that a path prefix or a profile of the rule set has. -/
def Ruleset.keywords : Ruleset → List String
  | .movies | .movies4k => ["movie", "movies"]
  | .tv | .tv4k => ["tv"]

/-- `_profile_name_for_ruleset`: the profile of the first override with such a prefix, or else the
first profile with such a name. -/
def profileNameForRuleset (bundle : ConfigBundle) (ruleset : Ruleset) : Option String :=
  let named (text : String) : Bool := ruleset.keywords.any fun keyword => inText keyword (lower text)
  match bundle.policy.pathOverrides.find? fun o => named o.pathPrefix with
  | some o => some o.profile
  | none => (bundle.profiles.map Prod.fst).find? named

/-! ## What the validator accepts -/

/-- An accepted language list is one that the policy could have. -/
theorem validateLanguageList_ok {value : Option (List String)} {codes : List String}
    (h : validateLanguageList value = .ok codes) : LanguageList codes := by
  simp only [validateLanguageList, bind_ok, found_ok, require_ok, return_ok, exists_const] at h
  obtain ⟨given, -, hall, hne, rfl⟩ := h
  refine ⟨hne, fun c hc => ?_, deduplicatePreservingOrder_nodup _⟩
  exact List.all_eq_true.mp hall c (mem_deduplicatePreservingOrder.mp hc)

/-- What the rest of the program may take for granted about accepted rules. -/
structure ProcessingRules.Valid (rules : ProcessingRules) : Prop where
  targetVideoCodec : rules.targetVideoCodec ∈ videoCodecs
  targetQualityMode : rules.targetQualityMode ∈ videoQualityModes
  audioLanguages : LanguageList rules.preferredAudioLanguages
  subtitleLanguages : LanguageList rules.preferredSubtitleLanguages
  maxReduction : 0 ≤ rules.maxAllowedVideoReductionPercent
  targetCrf : Within 0 51 rules.targetCrf
  outputLarger : Within 0 100 rules.outputLargerThanInputReviewPercent

theorem validateOptionalInt_ok {value value' : Option Int} {minimum maximum : Int} {fieldName : String}
    (h : validateOptionalInt value minimum maximum fieldName = .ok value') :
    Within minimum maximum value' := by
  simp only [validateOptionalInt, bind_ok, require_ok, return_ok, exists_const] at h
  obtain ⟨hwithin, rfl⟩ := h
  exact hwithin

theorem validateProcessingRules_ok {payload : RuleSetPayload} {rules : ProcessingRules}
    (h : validateProcessingRules payload = .ok rules) : rules.Valid := by
  simp only [validateProcessingRules, bind_ok, found_ok, require_ok, return_ok, exists_const] at h
  obtain ⟨hcodec, container, -, mode, -, hquality, -, audio, haudio, subtitles, hsubtitles, hmax, crf,
    hcrf, low1, -, low2, -, min1, -, min2, -, larger, hlarger, rfl⟩ := h
  exact ⟨hcodec, hquality, validateLanguageList_ok haudio, validateLanguageList_ok hsubtitles, hmax.1,
    validateOptionalInt_ok hcrf, validateOptionalInt_ok hlarger⟩

end Encodr
