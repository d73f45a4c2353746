import Encodr.Planning.AudioPartition
import Encodr.Planning.Rules

/-!
# Compliant files

A file that leaves a plan nothing to do should be skipped. A warning of the selection takes part in the
decision: it is given where a track declares no language, also when that track is selected.

* `NothingToDo`: there is nothing to transcode, to remux or to review.
* `buildProcessingPlan_skip_iff`: when such a file is skipped.
-/

namespace Encodr

/-- Nothing about the file is to be changed or reviewed under the rules. -/
structure NothingToDo (media : MediaFile) (policy : ResolvedPlanningPolicy) : Prop where
  oneVideo : media.videoStreams.length = 1
  noTranscode : (buildVideoPlan media policy.videoRules).plan.transcodeRequired = false
  noVideoReview : (buildVideoPlan media policy.videoRules).requiresManualReview = false
  container : (buildContainerPlan media policy.videoRules.outputContainer).changeRequired = false
  audioPresent : (selectAudioStreams media policy.audioRules
    policy.languages).intent.missingRequiredAudio = false
  noAmbiguity : (selectSubtitleStreams media policy.subtitleRules
    policy.languages).intent.ambiguousForcedStreamIndices = []
  audioKept : (selectAudioStreams media policy.audioRules
    policy.languages).intent.droppedStreamIndices = []
  subtitlesKept : (selectSubtitleStreams media policy.subtitleRules
    policy.languages).intent.droppedStreamIndices = []

section Compliant

variable {media : MediaFile} {policy : ResolvedPlanningPolicy} {rename : RenamePlan}

theorem NothingToDo.selectable (h : NothingToDo media policy) :
    selectableAudio media policy.audioRules ≠ [] := by
  intro hnone
  have hmissing := (selectAudioStreams_none policy.languages hnone).2.2.2.1
  rw [h.audioPresent] at hmissing
  cases hmissing

theorem NothingToDo.ambiguous (h : NothingToDo media policy) :
    ambiguousSubtitles media policy.subtitleRules policy.languages = [] := by
  have hambiguous := h.noAmbiguity
  rwa [(selectSubtitleStreams_selects _ _ _).ambiguous, List.map_eq_nil_iff] at hambiguous

/-- Nothing asks for a review. -/
theorem NothingToDo.plannable (h : NothingToDo media policy) : Plannable media policy :=
  ⟨h.noVideoReview, h.selectable, h.ambiguous⟩

/-- Where no subtitle is dropped, the selection has none to warn about. -/
theorem NothingToDo.subtitleWarnings (h : NothingToDo media policy) :
    (selectSubtitleStreams media policy.subtitleRules policy.languages).warnings = [] := by
  have hselects := selectSubtitleStreams_selects media policy.subtitleRules policy.languages
  have hkept := h.subtitlesKept
  rw [hselects.dropped] at hkept
  rw [hselects.warnings, h.ambiguous]
  cases hsource : media.subtitleStreams with
  | nil => simp [warningIf]
  | cons s rest =>
    have hne : selectedSubtitles media policy.subtitleRules policy.languages ≠ [] := by
      intro hnil
      rw [hnil, hsource] at hkept
      simp at hkept
    simp [warningIf, hne]

/-- The only warning is that of a track without a language. -/
theorem NothingToDo.audioWarnings (h : NothingToDo media policy) :
    (selectAudioStreams media policy.audioRules policy.languages).warnings.isEmpty =
      !(policy.audioRules.keepOnlyPreferredLanguages && undeterminedAudio media) := by
  have hselects : (selectAudioStreams media policy.audioRules policy.languages).Selects media
      policy.audioRules (selectedAudio media policy.audioRules) := selectAudioStreams_selects h.selectable
  rw [hselects.warnings, warningIf]
  split
  · next hwarns =>
    rw [hwarns]
    rfl
  · next hwarns =>
    rw [Bool.not_eq_true] at hwarns
    rw [hwarns]
    rfl

/-- A file with nothing to do is planned by its warnings alone. -/
theorem NothingToDo.action_eq (h : NothingToDo media policy) :
    (buildProcessingPlan media policy rename).action =
      determineAction media policy.videoRules (buildVideoPlan media policy.videoRules).plan
        (!(policy.audioRules.keepOnlyPreferredLanguages && undeterminedAudio media))
        false false false := by
  show determineAction media policy.videoRules _ _ _ _ _ = _
  rw [(review_eq_false_iff media policy).mpr h.plannable, h.container, h.noTranscode, h.audioKept,
    h.subtitlesKept, h.subtitleWarnings, List.append_nil, h.audioWarnings, h.audioPresent, h.noAmbiguity]
  simp

end Compliant

/-- Where the rules may skip, a file with nothing to do is skipped exactly when every track declares a
language, or the rules do not keep preferred languages only. -/
theorem buildProcessingPlan_skip_iff {media : MediaFile} {policy : ResolvedPlanningPolicy}
    (h : NothingToDo media policy) (hskip : .skip ∈ policy.videoRules.non4k.decisionOrder)
    (rename : RenamePlan) :
    (buildProcessingPlan media policy rename).action = .skip ↔
      (policy.audioRules.keepOnlyPreferredLanguages = true → undeterminedAudio media = false) := by
  rw [h.action_eq, determineAction, h.noTranscode]
  cases hkeep : policy.audioRules.keepOnlyPreferredLanguages <;>
    cases hund : undeterminedAudio media <;> cases h4k : media.is4k <;> simp [hskip]

/-! ### A film whose only track declares no language -/

/-- A policy that keeps English tracks and tracks without a language. -/
def undeterminedPolicy : PolicyConfig :=
  { transcodingPolicy with audio := { keepLanguages := ["eng", "und"], preferredCodecs := ["aac"] } }

theorem undeterminedPolicy_valid : undeterminedPolicy.Valid where
  version := transcodingPolicy_valid.version
  name := transcodingPolicy_valid.name
  subtitles := transcodingPolicy_valid.subtitles
  audio := ⟨⟨by decide, by decide, by decide⟩, by decide⟩
  video := transcodingPolicy_valid.video
  replacement := transcodingPolicy_valid.replacement
  overrides := transcodingPolicy_valid.overrides
  uniquePathPrefixes := transcodingPolicy_valid.uniquePathPrefixes

def undeterminedRules : ResolvedPlanningPolicy :=
  undeterminedPolicy.resolved none none (Python.PosixPath.parse "/media/film.mkv")

/-- A film in the container and the codec of the policy. -/
def compliantFilm (is4k : Bool) (language : Option String) : MediaFile where
  container := { filePath := Python.PosixPath.parse "/media/film.mkv", fileName := "film.mkv",
                 extension := some "mkv" }
  videoStreams := [{ index := 0, codecName := some "hevc", width := some 1920, height := some 1080 }]
  audioStreams := [{ index := 1, codecName := some "aac", tags := { language := language } }]
  is4k := is4k

theorem compliantFilm_nothingToDo :
    NothingToDo (compliantFilm false (some "eng")) undeterminedRules ∧
      NothingToDo (compliantFilm false none) undeterminedRules ∧
      NothingToDo (compliantFilm true none) undeterminedRules :=
  ⟨⟨by decide, by decide +kernel, by decide +kernel, by decide +kernel, by decide +kernel,
      by decide +kernel, by decide +kernel, by decide +kernel⟩,
    ⟨by decide, by decide +kernel, by decide +kernel, by decide +kernel, by decide +kernel,
      by decide +kernel, by decide +kernel, by decide +kernel⟩,
    ⟨by decide, by decide +kernel, by decide +kernel, by decide +kernel, by decide +kernel,
      by decide +kernel, by decide +kernel, by decide +kernel⟩⟩

/-- With an English track the film is skipped. -/
theorem buildProcessingPlan_skip_iff_english :
    (buildProcessingPlan (compliantFilm false (some "eng")) undeterminedRules { enabled := false }).action =
      .skip :=
  (buildProcessingPlan_skip_iff compliantFilm_nothingToDo.1 (by decide) { enabled := false }).mpr
    fun _ => by decide +kernel

/-- With a track without a language, which is kept, the film goes to a review, or is remuxed when it is
4K. -/
theorem undetermined_not_skipped :
    undeterminedRules.Valid ∧ .skip ∈ undeterminedRules.videoRules.non4k.decisionOrder ∧
      NothingToDo (compliantFilm false none) undeterminedRules ∧
      NothingToDo (compliantFilm true none) undeterminedRules ∧
      (buildProcessingPlan (compliantFilm false none) undeterminedRules { enabled := false }).action =
        .manualReview ∧
      (buildProcessingPlan (compliantFilm true none) undeterminedRules { enabled := false }).action =
        .remux :=
  ⟨undeterminedPolicy_valid.resolved_none, by decide, compliantFilm_nothingToDo.2.1,
    compliantFilm_nothingToDo.2.2, by decide +kernel, by decide +kernel⟩

end Encodr
