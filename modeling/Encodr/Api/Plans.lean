import Encodr.Api.Setup
import Encodr.Planning.Rules

/-!
# The plans service

`_config_bundle_for_source`: the rules of the operator are written into the policy and into one
profile, and the result is the configuration that a file is planned with.

* `policyWithRules`, `profileWithRules`, `configBundleForSource`: the effective configuration.
* `operator_wins_iff`: when the rules that a file is planned with are those of the operator.
-/

namespace Encodr

open Python

/-! ## The rules of the operator in a policy -/

namespace ProcessingRules

variable (rules : ProcessingRules)

/-- The operator wants the video to be transcoded. -/
def transcodes : Bool :=
  rules.handlingMode = .transcode

/-- The languages of forced subtitles. -/
def forcedLanguages : List String :=
  if rules.keepForcedSubtitles then rules.preferredSubtitleLanguages else ["und"]

/-- The mode for 4K files. -/
def fourKMode : FourKMode :=
  if rules.transcodes then .policyControlled else .stripOnly

/-- The decision order for other files. -/
def decisionOrder : List PolicyDecision :=
  if rules.transcodes then [.skip, .remux, .transcode] else [.skip, .remux]

end ProcessingRules

/-- The policy in `_config_bundle_for_source`: only the section of the file gets the handling mode. -/
def policyWithRules (policy : PolicyConfig) (rules : ProcessingRules) (is4k : Bool) : PolicyConfig :=
  let fourK : FourKVideoRules := { policy.video.fourK with
    preferredCodec := rules.targetVideoCodec
    qualityMode := rules.targetQualityMode
    qualityCrf := rules.targetCrf
    maxVideoReductionPercent := rules.maxAllowedVideoReductionPercent
    minimumOutputBitrate1080pMbps := rules.minimumOutputBitrate1080pMbps
    minimumOutputBitrate720pMbps := rules.minimumOutputBitrate720pMbps
    outputLargerThanInputReviewPercent := rules.outputLargerThanInputReviewPercent }
  let non4k : NonFourKVideoRules := { policy.video.non4k with
    preferredCodec := rules.targetVideoCodec
    qualityMode := rules.targetQualityMode
    qualityCrf := rules.targetCrf
    maxVideoReductionPercent := rules.maxAllowedVideoReductionPercent
    lowBitrateSkipThreshold1080pMbps := rules.lowBitrateSkipThreshold1080pMbps
    lowBitrateSkipThreshold720pMbps := rules.lowBitrateSkipThreshold720pMbps
    minimumOutputBitrate1080pMbps := rules.minimumOutputBitrate1080pMbps
    minimumOutputBitrate720pMbps := rules.minimumOutputBitrate720pMbps
    outputLargerThanInputReviewPercent := rules.outputLargerThanInputReviewPercent }
  { policy with
    audio := { policy.audio with
      keepLanguages := rules.preferredAudioLanguages
      keepOnlyPreferredLanguages := rules.keepOnlyPreferredAudioLanguages
      preserveBestSurround := rules.preserveSurround
      preserveSevenOne := rules.preserveSevenOne
      preserveAtmosCapable := rules.preserveAtmos }
    subtitles := { policy.subtitles with
      keepLanguages := rules.preferredSubtitleLanguages
      keepForcedLanguages := rules.forcedLanguages
      keepOneFullPreferredSubtitle := rules.keepOneFullPreferredSubtitle
      dropOtherSubtitles := rules.dropOtherSubtitles }
    languages := { policy.languages with preserveForcedSubtitles := rules.keepForcedSubtitles }
    video := {
      outputContainer := rules.outputContainer
      non4k := if is4k then non4k else
        { non4k with allowTranscode := rules.transcodes, decisionOrder := rules.decisionOrder }
      fourK := if is4k then
        { fourK with mode := rules.fourKMode, allowTranscode := rules.transcodes } else fourK } }

/-! ## The rules of the operator in a profile -/

/-- The audio section in `_profile_with_rules`. -/
def profileAudioWithRules (rules : ProcessingRules) (audio : ProfileAudioRules) : ProfileAudioRules :=
  { audio with
    keepLanguages := some rules.preferredAudioLanguages
    keepOnlyPreferredLanguages := some rules.keepOnlyPreferredAudioLanguages
    preserveBestSurround := some rules.preserveSurround
    preserveSevenOne := some rules.preserveSevenOne
    preserveAtmosCapable := some rules.preserveAtmos }

/-- The subtitle section in `_profile_with_rules`. -/
def profileSubtitlesWithRules (rules : ProcessingRules) (subtitles : ProfileSubtitleRules) :
    ProfileSubtitleRules :=
  { subtitles with
    keepLanguages := some rules.preferredSubtitleLanguages
    keepForcedLanguages := some rules.forcedLanguages
    keepOneFullPreferredSubtitle := some rules.keepOneFullPreferredSubtitle
    dropOtherSubtitles := some rules.dropOtherSubtitles }

/-- The `non_4k` section in `_profile_with_rules`: whether transcoding is allowed, and the decision
order, stay as they are. -/
def profileNon4kWithRules (rules : ProcessingRules) (section_ : Option ProfileNonFourKVideoRules) :
    ProfileNonFourKVideoRules :=
  { section_.getD {} with
    preferredCodec := some rules.targetVideoCodec
    qualityMode := some rules.targetQualityMode
    qualityCrf := rules.targetCrf
    maxVideoReductionPercent := some rules.maxAllowedVideoReductionPercent
    lowBitrateSkipThreshold1080pMbps := some rules.lowBitrateSkipThreshold1080pMbps
    lowBitrateSkipThreshold720pMbps := some rules.lowBitrateSkipThreshold720pMbps
    minimumOutputBitrate1080pMbps := some rules.minimumOutputBitrate1080pMbps
    minimumOutputBitrate720pMbps := some rules.minimumOutputBitrate720pMbps
    outputLargerThanInputReviewPercent := rules.outputLargerThanInputReviewPercent }

/-- The `four_k` section in `_profile_with_rules`. -/
def profileFourKWithRules (rules : ProcessingRules) (section_ : Option ProfileFourKVideoRules) :
    ProfileFourKVideoRules :=
  { section_.getD {} with
    preferredCodec := some rules.targetVideoCodec
    mode := some rules.fourKMode
    allowTranscode := some rules.transcodes
    qualityMode := some rules.targetQualityMode
    qualityCrf := rules.targetCrf
    maxVideoReductionPercent := some rules.maxAllowedVideoReductionPercent
    minimumOutputBitrate1080pMbps := some rules.minimumOutputBitrate1080pMbps
    minimumOutputBitrate720pMbps := some rules.minimumOutputBitrate720pMbps
    outputLargerThanInputReviewPercent := rules.outputLargerThanInputReviewPercent }

/-- `_profile_with_rules`: the sections that the profile has. -/
def profileWithRules (profile : ProfileConfig) (rules : ProcessingRules) : ProfileConfig :=
  { profile with
    audio := profile.audio.map (profileAudioWithRules rules)
    subtitles := profile.subtitles.map (profileSubtitlesWithRules rules)
    video := profile.video.map fun video => {
      outputContainer := some rules.outputContainer
      non4k := some (profileNon4kWithRules rules video.non4k)
      fourK := some (profileFourKWithRules rules video.fourK) } }

/-! ## The effective configuration -/

/-- The rule set and the rules in `_config_bundle_for_source`. -/
def rulesetAndRules (os : PathOs) (setup : SetupState) (sourcePath : PosixPath) (media : MediaFile)
    (rulesetOverride : Option Ruleset) : Option Ruleset × Option ProcessingRules :=
  match rulesetOverride with
  | some ruleset => (some ruleset, setup.rulesForRuleset ruleset)
  | none => (setup.rulesetForSource os sourcePath media.is4k,
      setup.rulesForSource os sourcePath media.is4k)

/-- `{**profiles, name: profile}`, for a name that is there. -/
def ConfigBundle.setProfile (profiles : List (String × ProfileConfig)) (name : String)
    (f : ProfileConfig → ProfileConfig) : List (String × ProfileConfig) :=
  profiles.map fun (n, p) => (n, if n = name then f p else p)

/-- The bundle with the rules of the operator. -/
def bundleWithRules (bundle : ConfigBundle) (ruleset : Ruleset) (rules : ProcessingRules)
    (is4k : Bool) : ConfigBundle where
  policy := policyWithRules bundle.policy rules is4k
  profiles := match profileNameForRuleset bundle ruleset with
    | some name => ConfigBundle.setProfile bundle.profiles name (profileWithRules · rules)
    | none => bundle.profiles

/-- `_config_bundle_for_source`. -/
def configBundleForSource (os : PathOs) (setup : SetupState) (bundle : ConfigBundle)
    (sourcePath : PosixPath) (media : MediaFile) (rulesetOverride : Option Ruleset) : ConfigBundle :=
  match rulesetAndRules os setup sourcePath media rulesetOverride with
  | (some ruleset, some rules) => bundleWithRules bundle ruleset rules media.is4k
  | _ => bundle

/-! ## Who wins -/

/-- The planner may transcode a file. -/
def ResolvedPlanningPolicy.allowsTranscode (rules : ResolvedPlanningPolicy) (is4k : Bool) : Bool :=
  if is4k then rules.videoRules.fourK.allowTranscode
  else rules.videoRules.non4k.allowTranscode &&
    decide (.transcode ∈ rules.videoRules.non4k.decisionOrder)

/-- The codec that the rules ask for. -/
def ResolvedPlanningPolicy.targetCodec (rules : ResolvedPlanningPolicy) (is4k : Bool) : String :=
  if is4k then rules.videoRules.fourK.preferredCodec else rules.videoRules.non4k.preferredCodec

/-- A file is planned with the choices of the operator. -/
structure ProcessingRules.Win (operator : ProcessingRules) (is4k : Bool)
    (rules : ResolvedPlanningPolicy) : Prop where
  audioLanguages : rules.audioRules.keepLanguages = operator.preferredAudioLanguages
  subtitleLanguages : rules.subtitleRules.keepLanguages = operator.preferredSubtitleLanguages
  outputContainer : rules.videoRules.outputContainer = operator.outputContainer
  targetCodec : rules.targetCodec is4k = operator.targetVideoCodec
  transcoding : rules.allowsTranscode is4k = true ↔ operator.handlingMode = .transcode

namespace ProfileConfig

variable (profile : ProfileConfig) (operator : ProcessingRules)

/-- The `non_4k` section leaves the handling mode to the operator, or goes with it: it does not stop
what the operator wants, and does not both allow to transcode and list it against the operator. -/
structure LeavesNon4k : Prop where
  allowed : operator.handlingMode = .transcode →
    profile.non4kAllow ≠ some false ∧ ∀ order, profile.decisionOrder = some order → .transcode ∈ order
  forbidden : operator.handlingMode ≠ .transcode →
    profile.non4kAllow = some true → ∀ order, profile.decisionOrder = some order → .transcode ∉ order

/-- The profile sets nothing else than the operator does. -/
structure Agrees (is4k : Bool) : Prop where
  audioLanguages : ∀ codes, profile.audioLanguages = some codes → codes = operator.preferredAudioLanguages
  subtitleLanguages : ∀ codes, profile.subtitleLanguages = some codes →
    codes = operator.preferredSubtitleLanguages
  outputContainer : ∀ c, profile.outputContainer = some c → c = operator.outputContainer
  non4kCodec : is4k = false → ∀ c, profile.non4kCodec = some c → c = operator.targetVideoCodec
  fourKCodec : is4k = true → ∀ c, profile.fourKCodec = some c → c = operator.targetVideoCodec
  leavesNon4k : is4k = false → profile.LeavesNon4k operator
  fourKAllow : is4k = true → ∀ allow, profile.fourKAllow = some allow →
    (allow = true ↔ operator.handlingMode = .transcode)

end ProfileConfig

section Wins

variable {policy : PolicyConfig} {profile : ProfileConfig} {operator : ProcessingRules} {is4k : Bool}
  {matchedPrefix : Option String} {sourcePath : PosixPath}

theorem getD_eq_base {α : Type} {set : Option α} {base : α} :
    set.getD base = base ↔ ∀ value, set = some value → value = base := by
  cases set <;> simp

theorem ProcessingRules.transcodes_iff : operator.transcodes = true ↔ operator.handlingMode = .transcode :=
  decide_eq_true_iff

theorem ProcessingRules.mem_decisionOrder :
    .transcode ∈ operator.decisionOrder ↔ operator.transcodes = true := by
  unfold ProcessingRules.decisionOrder
  split <;> simp_all

/-- The policy itself has the choices of the operator. -/
theorem policyWithRules_win :
    operator.Win is4k ((policyWithRules policy operator is4k).resolved none none sourcePath) where
  audioLanguages := rfl
  subtitleLanguages := rfl
  outputContainer := rfl
  targetCodec := by cases is4k <;> rfl
  transcoding := by
    rw [← ProcessingRules.transcodes_iff]
    cases is4k with
    | true => rfl
    | false =>
      show (operator.transcodes && decide (.transcode ∈ operator.decisionOrder)) = true ↔ _
      simp [ProcessingRules.mem_decisionOrder]

/-- The transcoding of files that are not 4K, with a profile over the policy of the operator. -/
theorem leavesNon4k_iff :
    (profile.non4kAllow.getD operator.transcodes = true ∧
        .transcode ∈ profile.decisionOrder.getD operator.decisionOrder ↔
      operator.handlingMode = .transcode) ↔ profile.LeavesNon4k operator := by
  by_cases hmode : operator.handlingMode = .transcode
  · have htranscodes := ProcessingRules.transcodes_iff.mpr hmode
    have horder := ProcessingRules.mem_decisionOrder.mpr htranscodes
    have hleaves : profile.LeavesNon4k operator ↔ profile.non4kAllow ≠ some false ∧
        ∀ order, profile.decisionOrder = some order → .transcode ∈ order :=
      ⟨fun h => h.allowed hmode, fun h => ⟨fun _ => h, fun hne => absurd hmode hne⟩⟩
    rw [hleaves]
    cases hallow : profile.non4kAllow <;> cases hset : profile.decisionOrder <;>
      simp [hmode, htranscodes, horder]
  · have htranscodes : operator.transcodes = false :=
      Bool.eq_false_iff.mpr (mt ProcessingRules.transcodes_iff.mp hmode)
    have horder : .transcode ∉ operator.decisionOrder := by
      rw [ProcessingRules.mem_decisionOrder, htranscodes]
      exact Bool.false_ne_true
    have hleaves : profile.LeavesNon4k operator ↔ (profile.non4kAllow = some true →
        ∀ order, profile.decisionOrder = some order → .transcode ∉ order) :=
      ⟨fun h => h.forbidden hmode, fun h => ⟨fun heq => absurd heq hmode, fun _ => h⟩⟩
    rw [hleaves]
    cases hallow : profile.non4kAllow <;> cases hset : profile.decisionOrder <;>
      simp [hmode, htranscodes, horder]

/-- With a profile over the policy of the operator, the operator wins where the profile agrees. -/
theorem policyWithRules_win_iff :
    operator.Win is4k ((policyWithRules policy operator is4k).resolved (some profile) matchedPrefix
      sourcePath) ↔ profile.Agrees operator is4k := by
  have haudio : (policyWithRules policy operator is4k).audio.keepLanguages =
      operator.preferredAudioLanguages := rfl
  have hsubtitles : (policyWithRules policy operator is4k).subtitles.keepLanguages =
      operator.preferredSubtitleLanguages := rfl
  have hcontainer : (policyWithRules policy operator is4k).video.outputContainer =
      operator.outputContainer := rfl
  have htargets : ((policyWithRules policy operator is4k).resolved (some profile) matchedPrefix
      sourcePath).targetCodec is4k = operator.targetVideoCodec ↔
      (is4k = false → ∀ c, profile.non4kCodec = some c → c = operator.targetVideoCodec) ∧
        (is4k = true → ∀ c, profile.fourKCodec = some c → c = operator.targetVideoCodec) := by
    cases is4k with
    | true =>
      have hcodec : (policyWithRules policy operator true).video.fourK.preferredCodec =
        operator.targetVideoCodec := rfl
      simp [ResolvedPlanningPolicy.targetCodec, hcodec, getD_eq_base]
    | false =>
      have hcodec : (policyWithRules policy operator false).video.non4k.preferredCodec =
        operator.targetVideoCodec := rfl
      simp [ResolvedPlanningPolicy.targetCodec, hcodec, getD_eq_base]
  have htranscoding : (((policyWithRules policy operator is4k).resolved (some profile) matchedPrefix
      sourcePath).allowsTranscode is4k = true ↔ operator.handlingMode = .transcode) ↔
      (is4k = false → profile.LeavesNon4k operator) ∧
        (is4k = true → ∀ allow, profile.fourKAllow = some allow →
          (allow = true ↔ operator.handlingMode = .transcode)) := by
    cases is4k with
    | true =>
      have hallow : (policyWithRules policy operator true).video.fourK.allowTranscode =
        operator.transcodes := rfl
      simp only [ResolvedPlanningPolicy.allowsTranscode, if_true, resolved_fourKAllow, hallow]
      cases hset : profile.fourKAllow with
      | none => simp [ProcessingRules.transcodes_iff]
      | some allow => simp
    | false =>
      have hallow : (policyWithRules policy operator false).video.non4k.allowTranscode =
        operator.transcodes := rfl
      have horder : (policyWithRules policy operator false).video.non4k.decisionOrder =
        operator.decisionOrder := rfl
      simp only [ResolvedPlanningPolicy.allowsTranscode, Bool.false_eq_true, if_false, resolved_non4kAllow,
        hallow, resolved_decisionOrder, horder, Bool.and_eq_true, decide_eq_true_eq, leavesNon4k_iff,
        forall_true_left, false_implies, and_true]
  constructor
  · intro h
    have haudio' := h.audioLanguages
    have hsubtitles' := h.subtitleLanguages
    have hcontainer' := h.outputContainer
    rw [resolved_audioLanguages, haudio, getD_eq_base] at haudio'
    rw [resolved_subtitleLanguages, hsubtitles, getD_eq_base] at hsubtitles'
    rw [resolved_outputContainer, hcontainer, getD_eq_base] at hcontainer'
    obtain ⟨hnon4k, hfourK⟩ := htargets.mp h.targetCodec
    obtain ⟨hleaves, hallow⟩ := htranscoding.mp h.transcoding
    exact ⟨haudio', hsubtitles', hcontainer', hnon4k, hfourK, hleaves, hallow⟩
  · intro h
    refine ⟨?_, ?_, ?_, htargets.mpr ⟨h.non4kCodec, h.fourKCodec⟩,
      htranscoding.mpr ⟨h.leavesNon4k, h.fourKAllow⟩⟩
    · rw [resolved_audioLanguages, haudio, getD_eq_base]
      exact h.audioLanguages
    · rw [resolved_subtitleLanguages, hsubtitles, getD_eq_base]
      exact h.subtitleLanguages
    · rw [resolved_outputContainer, hcontainer, getD_eq_base]
      exact h.outputContainer

/-- The rewritten profile agrees, but for what its `non_4k` section says about transcoding. -/
theorem profileWithRules_agrees_iff :
    (profileWithRules profile operator).Agrees operator is4k ↔
      (is4k = false → profile.LeavesNon4k operator) := by
  have hallow : (profileWithRules profile operator).non4kAllow = profile.non4kAllow := by
    simp only [ProfileConfig.non4kAllow, ProfileConfig.non4k, profileWithRules]
    cases profile.video with
    | none => rfl
    | some video => cases hsection : video.non4k <;> simp [profileNon4kWithRules, hsection]
  have horder : (profileWithRules profile operator).decisionOrder = profile.decisionOrder := by
    simp only [ProfileConfig.decisionOrder, ProfileConfig.non4k, profileWithRules]
    cases profile.video with
    | none => rfl
    | some video => cases hsection : video.non4k <;> simp [profileNon4kWithRules, hsection]
  have hleaves : (profileWithRules profile operator).LeavesNon4k operator ↔
      profile.LeavesNon4k operator := by
    constructor
    · intro h
      exact ⟨hallow ▸ horder ▸ h.allowed, hallow ▸ horder ▸ h.forbidden⟩
    · intro h
      exact ⟨hallow.symm ▸ horder.symm ▸ h.allowed, hallow.symm ▸ horder.symm ▸ h.forbidden⟩
  refine ⟨fun h hfile => hleaves.mp (h.leavesNon4k hfile), fun h => ⟨?_, ?_, ?_, ?_, ?_,
    fun hfile => hleaves.mpr (h hfile), ?_⟩⟩
  · simp only [ProfileConfig.audioLanguages, profileWithRules]
    cases profile.audio <;> simp [profileAudioWithRules]
  · simp only [ProfileConfig.subtitleLanguages, profileWithRules]
    cases profile.subtitles <;> simp [profileSubtitlesWithRules]
  · simp only [ProfileConfig.outputContainer, profileWithRules]
    cases profile.video <;> simp
  · simp only [ProfileConfig.non4kCodec, ProfileConfig.non4k, profileWithRules]
    cases profile.video <;> simp [profileNon4kWithRules]
  · simp only [ProfileConfig.fourKCodec, ProfileConfig.fourK, profileWithRules]
    cases profile.video <;> simp [profileFourKWithRules]
  · simp only [ProfileConfig.fourKAllow, ProfileConfig.fourK, profileWithRules]
    cases profile.video <;> simp [profileFourKWithRules, ProcessingRules.transcodes_iff]

end Wins

theorem lookup_setProfile (profiles : List (String × ProfileConfig)) (name : String)
    (f : ProfileConfig → ProfileConfig) (n : String) :
    (ConfigBundle.setProfile profiles name f).lookup n =
      (profiles.lookup n).map fun p => if n = name then f p else p := by
  induction profiles with
  | nil => rfl
  | cons entry profiles ih =>
    obtain ⟨m, p⟩ := entry
    simp only [ConfigBundle.setProfile, List.map_cons, List.lookup_cons] at ih ⊢
    by_cases hm : n = m
    · subst hm
      simp
    · have hbeq : (n == m) = false := by simpa using hm
      simp only [hbeq, ih]

/-- The profiles of the effective bundle: one of them may be rewritten. -/
theorem bundleWithRules_profile (bundle : ConfigBundle) (ruleset : Ruleset)
    (operator : ProcessingRules) (is4k : Bool) (name : String) :
    (bundleWithRules bundle ruleset operator is4k).profile name =
      (bundle.profile name).map fun p =>
        if profileNameForRuleset bundle ruleset = some name then profileWithRules p operator else p := by
  simp only [ConfigBundle.profile, bundleWithRules]
  cases hname : profileNameForRuleset bundle ruleset with
  | none => simp
  | some rewritten =>
    simp only [lookup_setProfile, Option.some.injEq, eq_comm (a := rewritten)]

/-- A file that a rule set governs is planned with the choices of the operator exactly where no path
override matches the file, or the profile of the longest one is the one that the rule set rewrites, and
for a file that is not 4K leaves the handling mode to the operator, or it agrees with the operator. -/
theorem operator_wins_iff (os : PathOs) (setup : SetupState) {bundle : ConfigBundle} (h : bundle.Valid)
    (sourcePath plannedPath : PosixPath) (media : MediaFile) (rulesetOverride : Option Ruleset)
    {ruleset : Ruleset} {operator : ProcessingRules}
    (hgoverns : rulesetAndRules os setup sourcePath media rulesetOverride =
      (some ruleset, some operator)) :
    ∃ rules, resolvePlanningPolicy .posix
        (configBundleForSource os setup bundle sourcePath media rulesetOverride) media
        (some plannedPath) = some rules ∧
      (operator.Win media.is4k rules ↔
        ∀ o profile, matchedOverride .posix bundle.policy.pathOverrides plannedPath.asPosix = some o →
          bundle.profile o.profile = some profile →
          if profileNameForRuleset bundle ruleset = some o.profile then
            media.is4k = false → profile.LeavesNon4k operator
          else profile.Agrees operator media.is4k) := by
  have hbundle : configBundleForSource os setup bundle sourcePath media rulesetOverride =
      bundleWithRules bundle ruleset operator media.is4k := by
    simp only [configBundleForSource, hgoverns]
  rw [hbundle]
  have hoverrides : (bundleWithRules bundle ruleset operator media.is4k).policy.pathOverrides =
      bundle.policy.pathOverrides := rfl
  cases hmatched : matchedOverride .posix bundle.policy.pathOverrides plannedPath.asPosix with
  | none =>
    refine ⟨_, resolvePlanningPolicy_of_none (hoverrides ▸ hmatched), ?_⟩
    constructor
    · exact fun _ _ _ ho => nomatch ho
    · exact fun _ => policyWithRules_win
  | some o =>
    obtain ⟨profile, hprofile⟩ := h.exists_profile hmatched
    have heffective := bundleWithRules_profile bundle ruleset operator media.is4k o.profile
    rw [hprofile, Option.map_some] at heffective
    refine ⟨_, resolvePlanningPolicy_of_some (hoverrides ▸ hmatched) heffective, ?_⟩
    have hagrees : (if profileNameForRuleset bundle ruleset = some o.profile then
        profileWithRules profile operator else profile).Agrees operator media.is4k ↔
        if profileNameForRuleset bundle ruleset = some o.profile then
          media.is4k = false → profile.LeavesNon4k operator
        else profile.Agrees operator media.is4k := by
      by_cases hname : profileNameForRuleset bundle ruleset = some o.profile
      · rw [if_pos hname, if_pos hname]
        exact profileWithRules_agrees_iff
      · rw [if_neg hname, if_neg hname]
    constructor
    · intro hwin o' p ho hp
      obtain rfl := Option.some.inj ho
      obtain rfl := Option.some.inj (hprofile.symm.trans hp)
      exact hagrees.mp (policyWithRules_win_iff.mp hwin)
    · exact fun hcondition => policyWithRules_win_iff.mpr (hagrees.mpr (hcondition o profile rfl hprofile))

/-! ## A film library -/

/-- Films are transcoded, with English and French audio tracks. -/
def filmRules : RuleSetPayload where
  targetVideoCodec := "HEVC"
  outputContainer := "mkv"
  preferredAudioLanguages := some ["eng", " FRA"]
  preferredSubtitleLanguages := some ["eng"]
  handlingMode := "transcode"
  targetQualityMode := "balanced"

/-- What the validator makes of these rules. -/
def acceptedFilmRules : ProcessingRules where
  targetVideoCodec := "hevc"
  outputContainer := .mkv
  preferredAudioLanguages := ["eng", "fra"]
  preferredSubtitleLanguages := ["eng"]
  handlingMode := .transcode
  qualityPreset := "balanced"
  targetQualityMode := "balanced"

/-- The library of films under `/media/movies`, with these rules. -/
def filmSetup : SetupState where
  moviesRoot := some "/media/movies"
  processingRules := fun ruleset => if ruleset = .movies then some acceptedFilmRules else none

/-- Films have the profile `movies`. -/
def moviesOverride : PathProfileOverride := ⟨"/media/movies", "movies"⟩

/-- A film of the library. -/
def libraryFilm : MediaFile where
  container := { filePath := PosixPath.parse "/media/movies/film.mkv", fileName := "film.mkv",
                 extension := some "mkv" }
  videoStreams := [{ index := 0, codecName := some "h264", width := some 1920, height := some 1080 }]
  audioStreams := [{ index := 1, codecName := some "aac", tags := { language := some "eng" } }]

/-- A profile that only sets the container. -/
def containerOnly : ProfileVideoRules where
  outputContainer := some .mp4

/-- A profile that forbids to transcode files that are not 4K. -/
def forbidding : ProfileVideoRules where
  non4k := some { allowTranscode := some false, decisionOrder := some [.skip, .remux] }

theorem moviesBundle_valid {video : ProfileVideoRules} (hnon4k : ∀ r, video.non4k = some r → r.Valid)
    (hfourK : video.fourK = none) : (transcodingBundle moviesOverride video).Valid :=
  transcodingBundle_valid (by decide) hnon4k fun _ hr => by simp [hfourK] at hr

theorem libraryFilm_matched :
    matchedOverride .posix [moviesOverride] libraryFilm.container.filePath.asPosix =
      some moviesOverride := by
  decide +kernel

theorem libraryFilm_governed :
    rulesetAndRules ⟨id, id⟩ filmSetup libraryFilm.container.filePath libraryFilm none =
      (some .movies, some acceptedFilmRules) := by
  decide +kernel

/-- A profile that only sets the container is rewritten, and the operator wins. -/
theorem operator_wins_iff_container :
    ∃ rules, resolvePlanningPolicy .posix
        (configBundleForSource ⟨id, id⟩ filmSetup (transcodingBundle moviesOverride containerOnly)
          libraryFilm.container.filePath libraryFilm none) libraryFilm
        (some libraryFilm.container.filePath) = some rules ∧ acceptedFilmRules.Win false rules := by
  have hbundle : (transcodingBundle moviesOverride containerOnly).Valid :=
    moviesBundle_valid (fun _ hr => by cases hr) rfl
  obtain ⟨rules, hrules, hiff⟩ := operator_wins_iff ⟨id, id⟩ filmSetup hbundle
    libraryFilm.container.filePath libraryFilm.container.filePath libraryFilm none libraryFilm_governed
  refine ⟨rules, hrules, hiff.mpr fun o profile ho hp => ?_⟩
  obtain rfl := Option.some.inj (libraryFilm_matched.symm.trans ho)
  obtain rfl := Option.some.inj hp
  rw [if_pos (by decide +kernel)]
  exact fun _ => ⟨fun _ => ⟨nofun, nofun⟩, fun h => absurd rfl h⟩

/-- The rewritten profile still forbids to transcode the film, against the operator. -/
theorem forbiddingProfile_wins :
    validateProcessingRules filmRules = .ok acceptedFilmRules ∧
      (transcodingBundle moviesOverride forbidding).Valid ∧
      ∃ rules, resolvePlanningPolicy .posix
          (configBundleForSource ⟨id, id⟩ filmSetup (transcodingBundle moviesOverride forbidding)
            libraryFilm.container.filePath libraryFilm none) libraryFilm
          (some libraryFilm.container.filePath) = some rules ∧
        acceptedFilmRules.handlingMode = .transcode ∧ rules.allowsTranscode libraryFilm.is4k = false := by
  refine ⟨by decide +kernel, moviesBundle_valid (fun r hr => ?_) rfl, ?_⟩
  · obtain rfl := Option.some.inj hr
    exact ⟨nofun, nofun, nofun, nofun, nofun, nofun, ⟨nofun, nofun⟩, ⟨nofun, nofun⟩, nofun⟩
  · simp only [configBundleForSource, libraryFilm_governed]
    refine ⟨_, resolvePlanningPolicy_of_some libraryFilm_matched
      (bundleWithRules_profile _ _ _ _ _), rfl, ?_⟩
    rfl

end Encodr
