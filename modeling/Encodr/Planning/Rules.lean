import Encodr.Config.Policy
import Encodr.Planning.Choice
import Encodr.Planning.Planner

/-!
# Resolving the rules of a file

`resolve_planning_policy`: the profile of the longest path override that a file matches is merged
into the policy, field by field. The merged rules are not validated again.

`as_posix` of a path depends on the platform; it is the parameter `PathFlavour`.

* `matchedOverride`, `resolveProfileForPath`: the profile of a path.
* `AudioRules.merge`, `SubtitleRules.merge`, `mergeVideoRules`: a profile over the policy.
* `resolvePlanningPolicy`, `resolvePlanningPolicy_isSome`: the rules of a file; in a loaded bundle they
  can be resolved for every path.
* `resolvePlanningPolicy_valid_iff`: when the resolved rules keep what the policy validators ask for.
-/

namespace Encodr

open Python

/-! ## The profile of a path -/

/-- `Path(text).as_posix()` on a platform. -/
structure PathFlavour where
  asPosix : String → String

def PathFlavour.posix : PathFlavour := ⟨fun text => (PosixPath.parse text).asPosix⟩

/-- `Path(text).as_posix().rstrip("/") or "/"`. -/
def PathFlavour.trimmed (flavour : PathFlavour) (text : String) : String :=
  let trimmed := String.ofList (rstripSlash (flavour.asPosix text).toList)
  if trimmed = "" then "/" else trimmed

/-- `path_matches_prefix`. -/
def pathMatchesPrefix (flavour : PathFlavour) (sourcePath pathPrefix : String) : Bool :=
  let source := flavour.trimmed sourcePath
  let pathPrefix := flavour.trimmed pathPrefix
  if pathPrefix = "/" then startsWith source "/"
  else source = pathPrefix || startsWith source (pathPrefix ++ "/")

/-- The override of the longest prefix that the path matches; the first of several. -/
def matchedOverride (flavour : PathFlavour) (overrides : List PathProfileOverride)
    (sourceText : String) : Option PathProfileOverride :=
  maxBy (fun o => [((flavour.asPosix o.pathPrefix).length : Int)])
    (overrides.filter fun o => pathMatchesPrefix flavour sourceText (flavour.asPosix o.pathPrefix))

/-- `resolve_profile_for_path`; `none` is the `KeyError` of a profile that does not exist. -/
def resolveProfileForPath (flavour : PathFlavour) (bundle : ConfigBundle) (sourceText : String) :
    Option (Option ProfileConfig × Option String) :=
  match matchedOverride flavour bundle.policy.pathOverrides sourceText with
  | none => some (none, none)
  | some o => (bundle.profile o.profile).map fun p => (some p, some o.pathPrefix)

/-! ## A profile over the policy -/

/-- `merge_optional_model` of audio rules. -/
def AudioRules.merge (base : AudioRules) : Option ProfileAudioRules → AudioRules
  | none => base
  | some o => {
    keepLanguages := o.keepLanguages.getD base.keepLanguages
    keepOnlyPreferredLanguages := o.keepOnlyPreferredLanguages.getD base.keepOnlyPreferredLanguages
    preserveBestSurround := o.preserveBestSurround.getD base.preserveBestSurround
    preserveSevenOne := o.preserveSevenOne.getD base.preserveSevenOne
    preserveAtmosCapable := o.preserveAtmosCapable.getD base.preserveAtmosCapable
    preferredCodecs := o.preferredCodecs.getD base.preferredCodecs
    allowCommentary := o.allowCommentary.getD base.allowCommentary
    maxTracksToKeep := (o.maxTracksToKeep.getD ⟨base.maxTracksToKeep, base.maxTracksToKeep_pos⟩).1
    maxTracksToKeep_pos := (o.maxTracksToKeep.getD ⟨base.maxTracksToKeep, base.maxTracksToKeep_pos⟩).2 }

/-- `merge_optional_model` of subtitle rules. -/
def SubtitleRules.merge (base : SubtitleRules) : Option ProfileSubtitleRules → SubtitleRules
  | none => base
  | some o => {
    keepLanguages := o.keepLanguages.getD base.keepLanguages
    keepForcedLanguages := o.keepForcedLanguages.getD base.keepForcedLanguages
    keepHearingImpaired := o.keepHearingImpaired.getD base.keepHearingImpaired
    keepOneFullPreferredSubtitle :=
      o.keepOneFullPreferredSubtitle.getD base.keepOneFullPreferredSubtitle
    dropOtherSubtitles := o.dropOtherSubtitles.getD base.dropOtherSubtitles }

/-- The `non_4k` section in `merge_video_rules`. -/
def NonFourKVideoRules.merge (base : NonFourKVideoRules) :
    Option ProfileNonFourKVideoRules → NonFourKVideoRules
  | none => base
  | some o => {
    decisionOrder := o.decisionOrder.getD base.decisionOrder
    preferredCodec := o.preferredCodec.getD base.preferredCodec
    allowTranscode := o.allowTranscode.getD base.allowTranscode
    qualityMode := o.qualityMode.getD base.qualityMode
    qualityCrf := o.qualityCrf <|> base.qualityCrf
    maxVideoReductionPercent := o.maxVideoReductionPercent.getD base.maxVideoReductionPercent
    maxVideoBitrateMbps := o.maxVideoBitrateMbps.getD base.maxVideoBitrateMbps
    maxWidth := o.maxWidth.getD base.maxWidth
    lowBitrateSkipThreshold1080pMbps :=
      o.lowBitrateSkipThreshold1080pMbps.getD base.lowBitrateSkipThreshold1080pMbps
    lowBitrateSkipThreshold720pMbps :=
      o.lowBitrateSkipThreshold720pMbps.getD base.lowBitrateSkipThreshold720pMbps
    minimumOutputBitrate1080pMbps :=
      o.minimumOutputBitrate1080pMbps.getD base.minimumOutputBitrate1080pMbps
    minimumOutputBitrate720pMbps :=
      o.minimumOutputBitrate720pMbps.getD base.minimumOutputBitrate720pMbps
    outputLargerThanInputReviewPercent :=
      o.outputLargerThanInputReviewPercent <|> base.outputLargerThanInputReviewPercent }

/-- The `four_k` section in `merge_video_rules`. -/
def FourKVideoRules.merge (base : FourKVideoRules) : Option ProfileFourKVideoRules → FourKVideoRules
  | none => base
  | some o => {
    mode := o.mode.getD base.mode
    preferredCodec := o.preferredCodec.getD base.preferredCodec
    allowTranscode := o.allowTranscode.getD base.allowTranscode
    qualityMode := o.qualityMode.getD base.qualityMode
    qualityCrf := o.qualityCrf <|> base.qualityCrf
    maxVideoReductionPercent := o.maxVideoReductionPercent.getD base.maxVideoReductionPercent
    minimumOutputBitrate1080pMbps :=
      o.minimumOutputBitrate1080pMbps.getD base.minimumOutputBitrate1080pMbps
    minimumOutputBitrate720pMbps :=
      o.minimumOutputBitrate720pMbps.getD base.minimumOutputBitrate720pMbps
    outputLargerThanInputReviewPercent :=
      o.outputLargerThanInputReviewPercent <|> base.outputLargerThanInputReviewPercent }

/-- `merge_video_rules`. -/
def mergeVideoRules (base : VideoRules) : Option ProfileVideoRules → VideoRules
  | none => base
  | some o => {
    outputContainer := o.outputContainer.getD base.outputContainer
    non4k := base.non4k.merge o.non4k
    fourK := base.fourK.merge o.fourK }

/-- The policy with a profile merged in, for a file at `sourcePath`. -/
def PolicyConfig.resolved (policy : PolicyConfig) (profile : Option ProfileConfig)
    (matchedPrefix : Option String) (sourcePath : PosixPath) : ResolvedPlanningPolicy where
  context := {
    policyName := policy.name
    policyVersion := policy.version
    selectedProfileName := profile.map (·.name)
    selectedProfileDescription := profile.map (·.description)
    matchedPathPrefix := matchedPrefix
    sourcePath := sourcePath }
  audioRules := policy.audio.merge (profile.bind (·.audio))
  subtitleRules := policy.subtitles.merge (profile.bind (·.subtitles))
  videoRules := mergeVideoRules policy.video (profile.bind (·.video))
  replacementRules := policy.replacement
  languages := policy.languages

/-- `resolve_planning_policy`. -/
def resolvePlanningPolicy (flavour : PathFlavour) (bundle : ConfigBundle) (media : MediaFile)
    (sourcePath : Option PosixPath) : Option ResolvedPlanningPolicy :=
  let effectiveSourcePath := sourcePath.getD media.container.filePath
  (resolveProfileForPath flavour bundle effectiveSourcePath.asPosix).map fun (profile, matchedPrefix) =>
    bundle.policy.resolved profile matchedPrefix effectiveSourcePath

/-! ## What a profile sets -/

namespace ProfileConfig

variable (profile : ProfileConfig)

def audioLanguages : Option (List String) := profile.audio.bind (·.keepLanguages)

def subtitleLanguages : Option (List String) := profile.subtitles.bind (·.keepLanguages)

def forcedLanguages : Option (List String) := profile.subtitles.bind (·.keepForcedLanguages)

def outputContainer : Option OutputContainer := profile.video.bind (·.outputContainer)

def non4k : Option ProfileNonFourKVideoRules := profile.video.bind (·.non4k)

def fourK : Option ProfileFourKVideoRules := profile.video.bind (·.fourK)

/-- The decision order that the profile sets for files that are not 4K. -/
def decisionOrder : Option (List PolicyDecision) := profile.non4k.bind (·.decisionOrder)

/-- Whether the profile allows to transcode files that are not 4K, where it says so. -/
def non4kAllow : Option Bool := profile.non4k.bind (·.allowTranscode)

def fourKMode : Option FourKMode := profile.fourK.bind (·.mode)

def non4kCodec : Option String := profile.non4k.bind (·.preferredCodec)

def fourKCodec : Option String := profile.fourK.bind (·.preferredCodec)

/-- Whether the profile allows to transcode 4K files, where it says so. -/
def fourKAllow : Option Bool := profile.fourK.bind (·.allowTranscode)

end ProfileConfig

section Merged

variable {policy : PolicyConfig} {profile : ProfileConfig} {matchedPrefix : Option String}
  {sourcePath : PosixPath}

@[simp] theorem resolved_audioLanguages :
    (policy.resolved (some profile) matchedPrefix sourcePath).audioRules.keepLanguages =
      profile.audioLanguages.getD policy.audio.keepLanguages := by
  simp only [PolicyConfig.resolved, ProfileConfig.audioLanguages, Option.bind_some]
  cases profile.audio <;> rfl

@[simp] theorem resolved_subtitleLanguages :
    (policy.resolved (some profile) matchedPrefix sourcePath).subtitleRules.keepLanguages =
      profile.subtitleLanguages.getD policy.subtitles.keepLanguages := by
  simp only [PolicyConfig.resolved, ProfileConfig.subtitleLanguages, Option.bind_some]
  cases profile.subtitles <;> rfl

@[simp] theorem resolved_forcedLanguages :
    (policy.resolved (some profile) matchedPrefix sourcePath).subtitleRules.keepForcedLanguages =
      profile.forcedLanguages.getD policy.subtitles.keepForcedLanguages := by
  simp only [PolicyConfig.resolved, ProfileConfig.forcedLanguages, Option.bind_some]
  cases profile.subtitles <;> rfl

@[simp] theorem resolved_outputContainer :
    (policy.resolved (some profile) matchedPrefix sourcePath).videoRules.outputContainer =
      profile.outputContainer.getD policy.video.outputContainer := by
  simp only [PolicyConfig.resolved, ProfileConfig.outputContainer, Option.bind_some]
  cases profile.video <;> rfl

theorem resolved_non4k :
    (policy.resolved (some profile) matchedPrefix sourcePath).videoRules.non4k =
      policy.video.non4k.merge profile.non4k := by
  simp only [PolicyConfig.resolved, ProfileConfig.non4k, Option.bind_some]
  cases profile.video <;> rfl

theorem resolved_fourK :
    (policy.resolved (some profile) matchedPrefix sourcePath).videoRules.fourK =
      policy.video.fourK.merge profile.fourK := by
  simp only [PolicyConfig.resolved, ProfileConfig.fourK, Option.bind_some]
  cases profile.video <;> rfl

@[simp] theorem resolved_decisionOrder :
    (policy.resolved (some profile) matchedPrefix sourcePath).videoRules.non4k.decisionOrder =
      profile.decisionOrder.getD policy.video.non4k.decisionOrder := by
  rw [resolved_non4k, ProfileConfig.decisionOrder]
  cases profile.non4k <;> rfl

@[simp] theorem resolved_non4kAllow :
    (policy.resolved (some profile) matchedPrefix sourcePath).videoRules.non4k.allowTranscode =
      profile.non4kAllow.getD policy.video.non4k.allowTranscode := by
  rw [resolved_non4k, ProfileConfig.non4kAllow]
  cases profile.non4k <;> rfl

@[simp] theorem resolved_non4kCodec :
    (policy.resolved (some profile) matchedPrefix sourcePath).videoRules.non4k.preferredCodec =
      profile.non4kCodec.getD policy.video.non4k.preferredCodec := by
  rw [resolved_non4k, ProfileConfig.non4kCodec]
  cases profile.non4k <;> rfl

@[simp] theorem resolved_fourKCodec :
    (policy.resolved (some profile) matchedPrefix sourcePath).videoRules.fourK.preferredCodec =
      profile.fourKCodec.getD policy.video.fourK.preferredCodec := by
  rw [resolved_fourK, ProfileConfig.fourKCodec]
  cases profile.fourK <;> rfl

@[simp] theorem resolved_fourKMode :
    (policy.resolved (some profile) matchedPrefix sourcePath).videoRules.fourK.mode =
      profile.fourKMode.getD policy.video.fourK.mode := by
  rw [resolved_fourK, ProfileConfig.fourKMode]
  cases profile.fourK <;> rfl

@[simp] theorem resolved_fourKAllow :
    (policy.resolved (some profile) matchedPrefix sourcePath).videoRules.fourK.allowTranscode =
      profile.fourKAllow.getD policy.video.fourK.allowTranscode := by
  rw [resolved_fourK, ProfileConfig.fourKAllow]
  cases profile.fourK <;> rfl

end Merged

/-! ## What the validators ask for -/

namespace ResolvedPlanningPolicy

/-- The resolved rules keep what the validators of the policy ask for. -/
structure Valid (rules : ResolvedPlanningPolicy) : Prop where
  mode : rules.videoRules.fourK.mode = .stripOnly → rules.videoRules.fourK.allowTranscode = false
  transcodeSetting : rules.videoRules.non4k.allowTranscode = false →
    .transcode ∉ rules.videoRules.non4k.decisionOrder
  decisionOrder : rules.videoRules.non4k.decisionOrder ≠ []
  uniqueDecisions : rules.videoRules.non4k.decisionOrder.Nodup
  audioLanguages : rules.audioRules.keepLanguages ≠ []
  subtitleLanguages : rules.subtitleRules.keepLanguages ≠ []
  forcedLanguages : rules.subtitleRules.keepForcedLanguages ≠ []

/-- No 4K file is transcoded under strip-only rules. -/
def StripsOnly (rules : ResolvedPlanningPolicy) : Prop :=
  ∀ media rename, media.is4k = true → rules.videoRules.fourK.mode = .stripOnly →
    (buildProcessingPlan media rules rename).action ≠ .transcode

/-- The planner transcodes a 4K file only where the rules allow it. -/
theorem Valid.stripsOnly {rules : ResolvedPlanningPolicy} (h : rules.Valid) : rules.StripsOnly := by
  intro media rename h4k hmode
  show determineAction media rules.videoRules _ _ _ _ _ ≠ .transcode
  simp only [determineAction, h4k, h.mode hmode]
  split_ifs <;> simp_all

end ResolvedPlanningPolicy

/-- The sections of a profile fit the policy: a list that it sets is not empty, and what it says about
transcoding goes with what the policy says in the fields that it leaves out. -/
structure ProfileConfig.Fits (profile : ProfileConfig) (policy : PolicyConfig) : Prop where
  audioLanguages : profile.audioLanguages ≠ some []
  subtitleLanguages : profile.subtitleLanguages ≠ some []
  forcedLanguages : profile.forcedLanguages ≠ some []
  decisionOrder : ∀ order, profile.decisionOrder = some order → order ≠ [] ∧ order.Nodup
  /-- A profile that forbids to transcode has an order without it, or finds one in the policy. -/
  forbids : profile.non4kAllow = some false → ∀ order,
    profile.decisionOrder = some order ∨
      profile.decisionOrder = none ∧ policy.video.non4k.decisionOrder = order → .transcode ∉ order
  /-- Where the policy forbids to transcode and the profile does not say, its order is without it. -/
  forbidden : profile.non4kAllow = none → policy.video.non4k.allowTranscode = false →
    ∀ order, profile.decisionOrder = some order → .transcode ∉ order
  /-- A profile that allows to transcode 4K files leaves the strip-only mode, or finds it left. -/
  allows : profile.fourKAllow = some true → profile.fourKMode = some .policyControlled ∨
    profile.fourKMode = none ∧ policy.video.fourK.mode = .policyControlled
  /-- A profile only enters the strip-only mode where 4K files are not to be transcoded. -/
  strips : profile.fourKAllow = none → profile.fourKMode = some .stripOnly →
    policy.video.fourK.allowTranscode = false

section Fits

variable {policy : PolicyConfig} {profile : ProfileConfig} {matchedPrefix : Option String}
  {sourcePath : PosixPath}

theorem getD_ne_nil {α : Type} {set : Option (List α)} {base : List α} (hbase : base ≠ []) :
    set.getD base ≠ [] ↔ set ≠ some [] := by
  cases set with
  | none => simpa using hbase
  | some xs => simp

theorem FourKMode.ne_stripOnly {mode : FourKMode} : mode ≠ .stripOnly ↔ mode = .policyControlled := by
  cases mode <;> simp

/-- Without a profile the policy stays as it was validated. -/
theorem PolicyConfig.Valid.resolved_none (h : policy.Valid) :
    (policy.resolved none matchedPrefix sourcePath).Valid where
  mode := h.video.fourK.mode
  transcodeSetting := h.video.non4k.transcodeSetting
  decisionOrder := h.video.non4k.decisionOrder
  uniqueDecisions := h.video.non4k.uniqueDecisions
  audioLanguages := h.audio.keepLanguages.nonempty
  subtitleLanguages := h.subtitles.keepLanguages.nonempty
  forcedLanguages := h.subtitles.keepForcedLanguages.nonempty

/-- A profile that fits keeps what the validators ask for. -/
theorem ProfileConfig.Fits.valid (hfits : profile.Fits policy) (h : policy.Valid) :
    (policy.resolved (some profile) matchedPrefix sourcePath).Valid where
  mode := by
    simp only [resolved_fourKMode, resolved_fourKAllow]
    intro hmode
    cases hallow : profile.fourKAllow with
    | none =>
      cases hset : profile.fourKMode with
      | none => exact h.video.fourK.mode (by simpa [hset] using hmode)
      | some mode => exact hfits.strips hallow (by simpa [hset] using hmode)
    | some allow =>
      cases allow with
      | false => rfl
      | true =>
        rcases hfits.allows hallow with hset | ⟨hset, hpolicy⟩
        · simp [hset] at hmode
        · simp [hset, hpolicy] at hmode
  transcodeSetting := by
    simp only [resolved_non4kAllow, resolved_decisionOrder]
    intro hforbid
    cases hallow : profile.non4kAllow with
    | none =>
      have hpolicy : policy.video.non4k.allowTranscode = false := by simpa [hallow] using hforbid
      cases hset : profile.decisionOrder with
      | none => exact h.video.non4k.transcodeSetting hpolicy
      | some order => exact hfits.forbidden hallow hpolicy order hset
    | some allow =>
      obtain rfl : allow = false := by simpa [hallow] using hforbid
      cases hset : profile.decisionOrder with
      | none => exact hfits.forbids hallow _ (.inr ⟨hset, rfl⟩)
      | some order => exact hfits.forbids hallow _ (.inl hset)
  decisionOrder := by
    rw [resolved_decisionOrder, getD_ne_nil h.video.non4k.decisionOrder]
    exact fun hset => (hfits.decisionOrder _ hset).1 rfl
  uniqueDecisions := by
    rw [resolved_decisionOrder]
    cases hset : profile.decisionOrder with
    | none => exact h.video.non4k.uniqueDecisions
    | some order => exact (hfits.decisionOrder order hset).2
  audioLanguages := by
    rw [resolved_audioLanguages, getD_ne_nil h.audio.keepLanguages.nonempty]
    exact hfits.audioLanguages
  subtitleLanguages := by
    rw [resolved_subtitleLanguages, getD_ne_nil h.subtitles.keepLanguages.nonempty]
    exact hfits.subtitleLanguages
  forcedLanguages := by
    rw [resolved_forcedLanguages, getD_ne_nil h.subtitles.keepForcedLanguages.nonempty]
    exact hfits.forcedLanguages

/-- Only a profile that fits does. -/
theorem ProfileConfig.Fits.of_valid (h : policy.Valid)
    (hvalid : (policy.resolved (some profile) matchedPrefix sourcePath).Valid) :
    profile.Fits policy where
  audioLanguages := (getD_ne_nil h.audio.keepLanguages.nonempty).mp
    (resolved_audioLanguages ▸ hvalid.audioLanguages)
  subtitleLanguages := (getD_ne_nil h.subtitles.keepLanguages.nonempty).mp
    (resolved_subtitleLanguages ▸ hvalid.subtitleLanguages)
  forcedLanguages := (getD_ne_nil h.subtitles.keepForcedLanguages.nonempty).mp
    (resolved_forcedLanguages ▸ hvalid.forcedLanguages)
  decisionOrder order hset := by
    have hne := hvalid.decisionOrder
    have hunique := hvalid.uniqueDecisions
    simp only [resolved_decisionOrder, hset, Option.getD_some] at hne hunique
    exact ⟨hne, hunique⟩
  forbids hallow order horder := by
    have hsetting := hvalid.transcodeSetting
    simp only [resolved_non4kAllow, hallow, Option.getD_some, resolved_decisionOrder,
      forall_true_left] at hsetting
    rcases horder with hset | ⟨hset, rfl⟩
    · simpa [hset] using hsetting
    · simpa [hset] using hsetting
  forbidden hallow hpolicy order hset := by
    have hsetting := hvalid.transcodeSetting
    simpa [hallow, hpolicy, hset] using hsetting
  allows hallow := by
    have hmode := hvalid.mode
    simp only [resolved_fourKMode, resolved_fourKAllow, hallow, Option.getD_some, Bool.true_eq_false,
      imp_false] at hmode
    cases hset : profile.fourKMode with
    | none => exact .inr ⟨rfl, FourKMode.ne_stripOnly.mp (by simpa [hset] using hmode)⟩
    | some mode =>
      rw [hset, Option.getD_some] at hmode
      exact .inl (congrArg some (FourKMode.ne_stripOnly.mp hmode))
  strips hallow hset := by
    have hmode := hvalid.mode
    simpa [hallow, hset] using hmode

end Fits

section Resolve

variable {flavour : PathFlavour} {bundle : ConfigBundle} {media : MediaFile}
  {sourcePath : Option PosixPath} {o : PathProfileOverride} {profile : ProfileConfig}

theorem resolvePlanningPolicy_of_none
    (hmatched : matchedOverride flavour bundle.policy.pathOverrides
      (sourcePath.getD media.container.filePath).asPosix = none) :
    resolvePlanningPolicy flavour bundle media sourcePath =
      some (bundle.policy.resolved none none (sourcePath.getD media.container.filePath)) := by
  simp only [resolvePlanningPolicy, resolveProfileForPath, hmatched, Option.map_some]

theorem resolvePlanningPolicy_of_some
    (hmatched : matchedOverride flavour bundle.policy.pathOverrides
      (sourcePath.getD media.container.filePath).asPosix = some o)
    (hprofile : bundle.profile o.profile = some profile) :
    resolvePlanningPolicy flavour bundle media sourcePath =
      some (bundle.policy.resolved (some profile) (some o.pathPrefix)
        (sourcePath.getD media.container.filePath)) := by
  simp only [resolvePlanningPolicy, resolveProfileForPath, hmatched, hprofile, Option.map_some]

theorem matchedOverride_mem {overrides : List PathProfileOverride} {text : String}
    (h : matchedOverride flavour overrides text = some o) : o ∈ overrides :=
  List.mem_of_mem_filter (maxBy_mem h)

/-- The profile that a path of a loaded bundle matches exists. -/
theorem ConfigBundle.Valid.exists_profile (h : bundle.Valid) {text : String}
    (hmatched : matchedOverride flavour bundle.policy.pathOverrides text = some o) :
    ∃ profile, bundle.profile o.profile = some profile :=
  Option.isSome_iff_exists.mp (h.references o (matchedOverride_mem hmatched))

end Resolve

/-- In a loaded bundle the rules of every file can be resolved. They keep what the validators of the
policy ask for, and never transcode a 4K file under strip-only rules, exactly when the profile of the
longest override that the file matches fits the policy. -/
theorem resolvePlanningPolicy_valid_iff (flavour : PathFlavour) {bundle : ConfigBundle}
    (h : bundle.Valid) (media : MediaFile) (sourcePath : Option PosixPath) :
    ∃ rules, resolvePlanningPolicy flavour bundle media sourcePath = some rules ∧
      (rules.Valid ∧ rules.StripsOnly ↔
        ∀ o profile, matchedOverride flavour bundle.policy.pathOverrides
            (sourcePath.getD media.container.filePath).asPosix = some o →
          bundle.profile o.profile = some profile → profile.Fits bundle.policy) := by
  cases hmatched : matchedOverride flavour bundle.policy.pathOverrides
      (sourcePath.getD media.container.filePath).asPosix with
  | none =>
    refine ⟨_, resolvePlanningPolicy_of_none hmatched, ?_⟩
    constructor
    · exact fun _ _ _ ho => by cases ho
    · exact fun _ => ⟨h.policy.resolved_none, h.policy.resolved_none.stripsOnly⟩
  | some o =>
    obtain ⟨profile, hprofile⟩ := h.exists_profile hmatched
    refine ⟨_, resolvePlanningPolicy_of_some hmatched hprofile, ?_⟩
    constructor
    · rintro ⟨hvalid, -⟩ _ _ ho hp
      obtain rfl := Option.some.inj ho
      obtain rfl := Option.some.inj (hprofile.symm.trans hp)
      exact .of_valid h.policy hvalid
    · intro hfits
      have hprofileFits := hfits o profile rfl hprofile
      exact ⟨hprofileFits.valid h.policy, (hprofileFits.valid h.policy).stripsOnly⟩

/-! ## A policy that transcodes 4K files -/

/-- A policy that allows to transcode. -/
def transcodingPolicy : PolicyConfig where
  version := 1
  name := "default"
  subtitles := { keepLanguages := ["eng"], keepForcedLanguages := ["eng"] }
  audio := { keepLanguages := ["eng"], preferredCodecs := ["aac"] }
  video := {
    non4k := {
      decisionOrder := [.skip, .remux, .transcode]
      maxVideoBitrateMbps := 12
      maxWidth := 1920 }
    fourK := { mode := .policyControlled, allowTranscode := true } }

theorem transcodingPolicy_valid : transcodingPolicy.Valid where
  version := by decide
  name := by decide
  subtitles := ⟨⟨by decide, by decide, by decide⟩, ⟨by decide, by decide, by decide⟩⟩
  audio := ⟨⟨by decide, by decide, by decide⟩, by decide⟩
  video := {
    non4k := ⟨by decide, by decide, by decide, by decide, by decide, nofun, by decide, by decide,
      by decide, by decide +kernel, by decide +kernel,
      fun v hv => Option.some.inj hv ▸ by decide⟩
    fourK := ⟨by decide, by decide, by decide, nofun, by decide, by decide +kernel,
      fun v hv => Option.some.inj hv ▸ by decide⟩ }
  replacement := by decide
  overrides := by decide
  uniquePathPrefixes := by decide

/-- The bundle of this policy with one override and its profile. -/
def transcodingBundle (o : PathProfileOverride) (video : ProfileVideoRules) : ConfigBundle where
  policy := { transcodingPolicy with pathOverrides := [o] }
  profiles := [(o.profile, { name := o.profile, description := "An override.", video := some video })]

theorem transcodingBundle_valid {o : PathProfileOverride} {video : ProfileVideoRules}
    (ho : o.pathPrefix ≠ "" ∧ o.profile ≠ "") (hnon4k : ∀ r, video.non4k = some r → r.Valid)
    (hfourK : ∀ r, video.fourK = some r → r.Valid) : (transcodingBundle o video).Valid where
  policy := {
    version := transcodingPolicy_valid.version
    name := transcodingPolicy_valid.name
    subtitles := transcodingPolicy_valid.subtitles
    audio := transcodingPolicy_valid.audio
    video := transcodingPolicy_valid.video
    replacement := transcodingPolicy_valid.replacement
    overrides := fun _ hmem => List.mem_singleton.mp hmem ▸ ho
    uniquePathPrefixes := List.nodup_singleton _ }
  profiles name p hp := by
    simp only [ConfigBundle.profile, transcodingBundle, List.lookup_cons, List.lookup_nil] at hp
    split at hp
    · next hname =>
      obtain rfl := Option.some.inj hp
      refine ⟨(beq_iff_eq.mp hname).symm, ho.2, of_decide_eq_true rfl, ?_, ?_, ?_, ?_⟩
      · intro _ hs
        cases hs
      · intro _ ha
        cases ha
      · rintro _ r ⟨⟩ hr
        exact hnon4k r hr
      · rintro _ r ⟨⟩ hr
        exact hfourK r hr
    · cases hp
  references o' ho' := by
    obtain rfl := List.mem_singleton.mp ho'
    simp [ConfigBundle.profile, transcodingBundle]

/-- Files under `/media/remux` have the profile `remux`. -/
def remuxOverride : PathProfileOverride := ⟨"/media/remux", "remux"⟩

/-- A 4K film whose codec is not the one of the policy. -/
def film4k : MediaFile where
  container := { filePath := PosixPath.parse "/media/remux/film.mkv", fileName := "film.mkv",
                 extension := some "mkv" }
  videoStreams := [{ index := 0, codecName := some "h264", width := some 3840, height := some 2160 }]
  audioStreams := [{ index := 1, codecName := some "aac", tags := { language := some "eng" } }]
  is4k := true

/-- A profile that enters the strip-only mode for 4K files. -/
def stripOnlyVideo (allowTranscode : Option Bool) : ProfileVideoRules where
  fourK := some { mode := some .stripOnly, allowTranscode := allowTranscode }

theorem stripOnlyBundle_valid (allow : Option Bool) :
    (transcodingBundle remuxOverride (stripOnlyVideo allow)).Valid := by
  refine transcodingBundle_valid (by decide) (fun r hr => ?_) fun r hr => ?_
  · cases hr
  · cases hr
    exact ⟨nofun, nofun, nofun, nofun, ⟨nofun, nofun⟩, nofun⟩

/-- The film has the profile. -/
theorem film4k_matched :
    matchedOverride .posix [remuxOverride] film4k.container.filePath.asPosix = some remuxOverride := by
  decide +kernel

/-- A profile that also forbids to transcode 4K files keeps the rules valid. -/
theorem resolvePlanningPolicy_valid_iff_forbidding :
    ∃ rules, resolvePlanningPolicy .posix (transcodingBundle remuxOverride (stripOnlyVideo (some false)))
      film4k none = some rules ∧ rules.Valid ∧ rules.StripsOnly := by
  obtain ⟨rules, hrules, hiff⟩ := resolvePlanningPolicy_valid_iff .posix
    (stripOnlyBundle_valid (some false)) film4k none
  refine ⟨rules, hrules, hiff.mpr fun o profile ho hp => ?_⟩
  obtain rfl := Option.some.inj (film4k_matched.symm.trans ho)
  obtain rfl := Option.some.inj hp
  exact ⟨nofun, nofun, nofun, nofun, nofun, nofun, nofun, nofun⟩

/-- A profile that only enters the strip-only mode leaves transcoding allowed: the film is planned to be
transcoded. -/
theorem stripOnlyProfile_transcodes :
    ∃ rules, (transcodingBundle remuxOverride (stripOnlyVideo none)).Valid ∧
      resolvePlanningPolicy .posix (transcodingBundle remuxOverride (stripOnlyVideo none)) film4k none =
        some rules ∧
      film4k.is4k = true ∧ rules.videoRules.fourK.mode = .stripOnly ∧
      rules.videoRules.fourK.allowTranscode = true ∧
      (buildProcessingPlan film4k rules { enabled := false }).action = .transcode :=
  ⟨_, stripOnlyBundle_valid none,
    resolvePlanningPolicy_of_some film4k_matched rfl, rfl, rfl, rfl, by decide +kernel⟩

end Encodr
