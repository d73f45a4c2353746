import Mathlib.Algebra.Ring.Int.Defs
import Mathlib.Algebra.Ring.Rat
import Mathlib.Data.List.Nodup
import Encodr.Config.Rules

/-!
# Policies and profiles

The configuration that plans are made from: one policy, and profiles that replace some of its rules
under some paths. What the validators of the configuration models accept is a `Valid` of each model;
a profile is checked on its own, not against the policy.

* `PolicyConfig.Valid`, `ProfileConfig.Valid`: what is accepted.
* `ConfigBundle`, `ConfigBundle.Valid`: a policy with its profiles, as they are loaded.
-/

namespace Encodr

/-! ## Values -/

/-- `LanguageCode`. -/
def isLanguageCode (code : String) : Bool :=
  code.toList.length = 3 && code.toList.all fun c => 'a' ≤ c && c ≤ 'z'

/-- The values of `VideoCodec`. -/
def videoCodecs : List String := ["h264", "hevc", "av1", "mpeg2", "vp9"]

/-- The values of `VideoQualityMode`. -/
def videoQualityModes : List String := ["high_quality", "balanced", "efficient"]

/-- `deduplicate_preserving_order`. -/
def deduplicatePreservingOrder (values : List String) : List String :=
  values.foldl (fun result value => if value ∈ result then result else result ++ [value]) []

/-- The loop adds what is new, once. -/
theorem deduplicate_loop (values : List String) {result : List String} (h : result.Nodup) :
    (values.foldl (fun result value => if value ∈ result then result else result ++ [value])
        result).Nodup ∧
      ∀ v, v ∈ values.foldl (fun result value => if value ∈ result then result else result ++ [value])
        result ↔ v ∈ result ∨ v ∈ values := by
  induction values generalizing result with
  | nil => exact ⟨h, fun v => by simp⟩
  | cons value values ih =>
    rw [List.foldl_cons]
    by_cases hmem : value ∈ result
    · rw [if_pos hmem]
      refine ⟨(ih h).1, fun v => ?_⟩
      rw [(ih h).2, List.mem_cons]
      constructor
      · exact Or.imp_right .inr
      · rintro (hv | rfl | hv)
        · exact .inl hv
        · exact .inl hmem
        · exact .inr hv
    · rw [if_neg hmem]
      have hnew : (result ++ [value]).Nodup :=
        List.nodup_append.mpr ⟨h, List.nodup_singleton value, fun a ha b hb hab =>
          hmem (List.mem_singleton.mp hb ▸ hab ▸ ha)⟩
      refine ⟨(ih hnew).1, fun v => ?_⟩
      rw [(ih hnew).2, List.mem_append, List.mem_singleton, List.mem_cons, or_assoc]

theorem deduplicatePreservingOrder_nodup (values : List String) :
    (deduplicatePreservingOrder values).Nodup :=
  (deduplicate_loop values List.nodup_nil).1

theorem mem_deduplicatePreservingOrder {values : List String} {v : String} :
    v ∈ deduplicatePreservingOrder values ↔ v ∈ values :=
  ((deduplicate_loop values List.nodup_nil).2 v).trans (by simp)

/-- A language list of the policy; its validator also drops the duplicates. -/
structure LanguageList (codes : List String) : Prop where
  nonempty : codes ≠ []
  languageCode : ∀ c ∈ codes, isLanguageCode c = true
  nodup : codes.Nodup

/-- An optional number between two bounds. -/
def Within (low high : Int) (value : Option Int) : Prop :=
  ∀ v, value = some v → low ≤ v ∧ v ≤ high

/-! ## Policies -/

/-- What the validators of `SubtitleRules` accept. -/
structure SubtitleRules.Valid (rules : SubtitleRules) : Prop where
  keepLanguages : LanguageList rules.keepLanguages
  keepForcedLanguages : LanguageList rules.keepForcedLanguages

/-- What the validators of `AudioRules` accept. -/
structure AudioRules.Valid (rules : AudioRules) : Prop where
  keepLanguages : LanguageList rules.keepLanguages
  preferredCodecs : rules.preferredCodecs ≠ [] ∧ "" ∉ rules.preferredCodecs ∧
    rules.preferredCodecs.Nodup

/-- What the validators of `NonFourKVideoRules` accept. -/
structure NonFourKVideoRules.Valid (rules : NonFourKVideoRules) : Prop where
  decisionOrder : rules.decisionOrder ≠ []
  uniqueDecisions : rules.decisionOrder.Nodup
  transcodeSetting : rules.allowTranscode = false → .transcode ∉ rules.decisionOrder
  preferredCodec : rules.preferredCodec ∈ videoCodecs
  qualityMode : rules.qualityMode ∈ videoQualityModes
  qualityCrf : Within 0 51 rules.qualityCrf
  maxVideoReductionPercent : 0 ≤ rules.maxVideoReductionPercent
  maxVideoBitrateMbps : 0 < rules.maxVideoBitrateMbps
  maxWidth : 0 < rules.maxWidth
  thresholds : 0 ≤ rules.lowBitrateSkipThreshold1080pMbps ∧ 0 ≤ rules.lowBitrateSkipThreshold720pMbps
  minima : 0 ≤ rules.minimumOutputBitrate1080pMbps ∧ 0 ≤ rules.minimumOutputBitrate720pMbps
  outputLarger : Within 0 100 rules.outputLargerThanInputReviewPercent

/-- What the validators of `FourKVideoRules` accept. -/
structure FourKVideoRules.Valid (rules : FourKVideoRules) : Prop where
  mode : rules.mode = .stripOnly → rules.allowTranscode = false
  preferredCodec : rules.preferredCodec ∈ videoCodecs
  qualityMode : rules.qualityMode ∈ videoQualityModes
  qualityCrf : Within 0 51 rules.qualityCrf
  maxVideoReductionPercent : 0 ≤ rules.maxVideoReductionPercent
  minima : 0 ≤ rules.minimumOutputBitrate1080pMbps ∧ 0 ≤ rules.minimumOutputBitrate720pMbps
  outputLarger : Within 0 100 rules.outputLargerThanInputReviewPercent

/-- What the validators of `VideoRules` accept. -/
structure VideoRules.Valid (rules : VideoRules) : Prop where
  non4k : rules.non4k.Valid
  fourK : rules.fourK.Valid

/-- `PathProfileOverride`: the profile of the files under a path. -/
structure PathProfileOverride where
  pathPrefix : String
  profile : String
deriving DecidableEq, Repr

/-- `PolicyConfig`; `pathOverrides` is its `profiles.path_overrides`. -/
structure PolicyConfig where
  version : Int
  name : String
  languages : LanguagePreferences := {}
  subtitles : SubtitleRules
  audio : AudioRules
  video : VideoRules
  replacement : ReplacementRules := {}
  pathOverrides : List PathProfileOverride := []
deriving DecidableEq

/-- What the validators of `PolicyConfig` accept. -/
structure PolicyConfig.Valid (policy : PolicyConfig) : Prop where
  version : 0 < policy.version
  name : policy.name ≠ ""
  subtitles : policy.subtitles.Valid
  audio : policy.audio.Valid
  video : policy.video.Valid
  replacement : policy.replacement.deleteReplacedSource = true →
    policy.replacement.requireVerification = true
  overrides : ∀ o ∈ policy.pathOverrides, o.pathPrefix ≠ "" ∧ o.profile ≠ ""
  uniquePathPrefixes : (policy.pathOverrides.map (·.pathPrefix)).Nodup

/-! ## Profiles -/

structure ProfileSubtitleRules where
  keepLanguages : Option (List String) := none
  keepForcedLanguages : Option (List String) := none
  keepHearingImpaired : Option Bool := none
  keepOneFullPreferredSubtitle : Option Bool := none
  dropOtherSubtitles : Option Bool := none
deriving DecidableEq, Repr

structure ProfileAudioRules where
  keepLanguages : Option (List String) := none
  keepOnlyPreferredLanguages : Option Bool := none
  preserveBestSurround : Option Bool := none
  preserveSevenOne : Option Bool := none
  preserveAtmosCapable : Option Bool := none
  preferredCodecs : Option (List String) := none
  allowCommentary : Option Bool := none
  maxTracksToKeep : Option { n : Nat // 0 < n } := none
deriving DecidableEq

structure ProfileNonFourKVideoRules where
  decisionOrder : Option (List PolicyDecision) := none
  preferredCodec : Option String := none
  allowTranscode : Option Bool := none
  qualityMode : Option String := none
  qualityCrf : Option Int := none
  maxVideoReductionPercent : Option Int := none
  maxVideoBitrateMbps : Option Int := none
  maxWidth : Option Int := none
  lowBitrateSkipThreshold1080pMbps : Option Rat := none
  lowBitrateSkipThreshold720pMbps : Option Rat := none
  minimumOutputBitrate1080pMbps : Option Rat := none
  minimumOutputBitrate720pMbps : Option Rat := none
  outputLargerThanInputReviewPercent : Option Int := none
deriving DecidableEq

structure ProfileFourKVideoRules where
  mode : Option FourKMode := none
  preferredCodec : Option String := none
  allowTranscode : Option Bool := none
  qualityMode : Option String := none
  qualityCrf : Option Int := none
  maxVideoReductionPercent : Option Int := none
  minimumOutputBitrate1080pMbps : Option Rat := none
  minimumOutputBitrate720pMbps : Option Rat := none
  outputLargerThanInputReviewPercent : Option Int := none
deriving DecidableEq

structure ProfileVideoRules where
  outputContainer : Option OutputContainer := none
  non4k : Option ProfileNonFourKVideoRules := none
  fourK : Option ProfileFourKVideoRules := none
deriving DecidableEq

structure ProfileConfig where
  name : String
  description : String
  subtitles : Option ProfileSubtitleRules := none
  audio : Option ProfileAudioRules := none
  video : Option ProfileVideoRules := none
deriving DecidableEq

/-- An optional list of language codes; it may be empty. -/
def OptionalLanguages (codes : Option (List String)) : Prop :=
  ∀ cs, codes = some cs → ∀ c ∈ cs, isLanguageCode c = true

/-- An optional value that is not negative. -/
def OptionalNonneg {α : Type} [Zero α] [LE α] (value : Option α) : Prop :=
  ∀ v, value = some v → 0 ≤ v

/-- What the validators of `ProfileNonFourKVideoRules` accept. -/
structure ProfileNonFourKVideoRules.Valid (rules : ProfileNonFourKVideoRules) : Prop where
  preferredCodec : ∀ c, rules.preferredCodec = some c → c ∈ videoCodecs
  qualityMode : ∀ m, rules.qualityMode = some m → m ∈ videoQualityModes
  qualityCrf : Within 0 51 rules.qualityCrf
  maxVideoReductionPercent : OptionalNonneg rules.maxVideoReductionPercent
  maxVideoBitrateMbps : ∀ v, rules.maxVideoBitrateMbps = some v → 0 < v
  maxWidth : ∀ v, rules.maxWidth = some v → 0 < v
  thresholds : OptionalNonneg rules.lowBitrateSkipThreshold1080pMbps ∧
    OptionalNonneg rules.lowBitrateSkipThreshold720pMbps
  minima : OptionalNonneg rules.minimumOutputBitrate1080pMbps ∧
    OptionalNonneg rules.minimumOutputBitrate720pMbps
  outputLarger : Within 0 100 rules.outputLargerThanInputReviewPercent

/-- What the validators of `ProfileFourKVideoRules` accept. -/
structure ProfileFourKVideoRules.Valid (rules : ProfileFourKVideoRules) : Prop where
  preferredCodec : ∀ c, rules.preferredCodec = some c → c ∈ videoCodecs
  qualityMode : ∀ m, rules.qualityMode = some m → m ∈ videoQualityModes
  qualityCrf : Within 0 51 rules.qualityCrf
  maxVideoReductionPercent : OptionalNonneg rules.maxVideoReductionPercent
  minima : OptionalNonneg rules.minimumOutputBitrate1080pMbps ∧
    OptionalNonneg rules.minimumOutputBitrate720pMbps
  outputLarger : Within 0 100 rules.outputLargerThanInputReviewPercent

/-- What the validators of `ProfileConfig` accept. Its lists may be empty and have duplicates, and no
validator compares its fields with each other. -/
structure ProfileConfig.Valid (profile : ProfileConfig) : Prop where
  name : profile.name ≠ ""
  description : profile.description ≠ ""
  subtitles : ∀ s, profile.subtitles = some s →
    OptionalLanguages s.keepLanguages ∧ OptionalLanguages s.keepForcedLanguages
  audio : ∀ a, profile.audio = some a →
    OptionalLanguages a.keepLanguages ∧ ∀ cs, a.preferredCodecs = some cs → "" ∉ cs
  non4k : ∀ v r, profile.video = some v → v.non4k = some r → r.Valid
  fourK : ∀ v r, profile.video = some v → v.fourK = some r → r.Valid

/-! ## Bundles -/

/-- `ConfigBundle`: the policy and the profiles by name. -/
structure ConfigBundle where
  policy : PolicyConfig
  profiles : List (String × ProfileConfig) := []
deriving DecidableEq

/-- `profiles[name]`. -/
def ConfigBundle.profile (bundle : ConfigBundle) (name : String) : Option ProfileConfig :=
  bundle.profiles.lookup name

/-- A bundle as `load_config_bundle` returns it: valid models, profiles under their names, and no
reference to a profile that does not exist. -/
structure ConfigBundle.Valid (bundle : ConfigBundle) : Prop where
  policy : bundle.policy.Valid
  profiles : ∀ name p, bundle.profile name = some p → p.name = name ∧ p.Valid
  references : ∀ o ∈ bundle.policy.pathOverrides, (bundle.profile o.profile).isSome = true

end Encodr
