import Encodr.Verification.Rules

/-!
# Essential streams

Whether the plans an execution job can get keep video and audio. A plan comes from
`buildProcessingPlan`, or is derived from such a plan: approved in a review, or reduced to a
stream clean-up (`DerivedPlan`).

* `DerivedPlan.selectedStreams`: a derived plan selects what the built plan selects.
* `essential_streams_iff`: no executable plan drops all video or all audio exactly when the file
  has one video stream and an audio stream the rules accept.
-/

namespace Encodr

open Python

section Essential

variable {media : MediaFile} {policy : ResolvedPlanningPolicy} {rename : RenamePlan}
  {plan : ProcessingPlan}

/-- The plans made for a file under a policy: built, approved by an operator, reduced to a stream
clean-up by a review, a recovery or a reprocess request, or given another backup strategy. -/
inductive DerivedPlan (media : MediaFile) (policy : ResolvedPlanningPolicy) (rename : RenamePlan) :
    ProcessingPlan → Prop
  | built : DerivedPlan media policy rename (buildProcessingPlan media policy rename)
  | approved {plan : ProcessingPlan} (h : DerivedPlan media policy rename plan) :
      DerivedPlan media policy rename (approvedExecutionPlan plan)
  | stripOnly {plan : ProcessingPlan} (h : DerivedPlan media policy rename plan) :
      DerivedPlan media policy rename (stripOnlyPlan plan)
  | recovery {plan : ProcessingPlan} (h : DerivedPlan media policy rename plan) :
      DerivedPlan media policy rename (stripOnlyRecoveryPlan plan)
  | reprocess {plan : ProcessingPlan} (h : DerivedPlan media policy rename plan) :
      DerivedPlan media policy rename (stripOnlyReprocessPlan plan)
  | backupStrategy {plan : ProcessingPlan} (strategy : String)
      (h : DerivedPlan media policy rename plan) :
      DerivedPlan media policy rename (plan.withBackupStrategy strategy)

/-- A plan that an execution job runs. -/
def Executable (plan : ProcessingPlan) : Prop :=
  plan.action = .remux ∨ plan.action = .transcode

/-- The plan selects video and audio, and so does every output accepted under it. -/
structure KeepsEssential (media : MediaFile) (plan : ProcessingPlan) : Prop where
  video : plan.selectedStreams.videoStreamIndices ≠ []
  audio : plan.selectedStreams.audioStreamIndices ≠ []
  accepted : ∀ output, (verifyOutput plan media (.media output)).passed = true →
    output.videoStreams ≠ [] ∧ output.audioStreams ≠ []

/-- An audio stream the rules accept: in a preferred language where only those are kept, and no
commentary unless it is allowed. -/
def AcceptableAudio (rules : AudioRules) (s : AudioStream) : Prop :=
  (rules.keepOnlyPreferredLanguages = true →
    languageCode s.language ∈ orderedLanguageCodes rules.keepLanguages) ∧
  (rules.allowCommentary = true ∨ s.isCommentaryCandidate = false)

theorem selectableAudio_ne_nil_iff {rules : AudioRules} :
    selectableAudio media rules ≠ [] ↔ ∃ s ∈ media.audioStreams, AcceptableAudio rules s := by
  have hex : selectableAudio media rules ≠ [] ↔ ∃ s, s ∈ selectableAudio media rules :=
    ⟨List.exists_mem_of_ne_nil _, fun ⟨_, hs⟩ => List.ne_nil_of_mem hs⟩
  rw [hex]
  refine exists_congr fun s => ?_
  unfold selectableAudio candidateAudio preferredAudio AcceptableAudio
  by_cases hk : rules.keepOnlyPreferredLanguages = true
  · simp only [hk, if_true, List.mem_filter, decide_eq_true_eq, Bool.or_eq_true, Bool.not_eq_true']
    tauto
  · simp only [hk, List.mem_filter, Bool.or_eq_true, Bool.not_eq_true']
    tauto

/-- A derived plan selects what the built plan selects. -/
theorem DerivedPlan.selectedStreams (h : DerivedPlan media policy rename plan) :
    plan.selectedStreams = (buildProcessingPlan media policy rename).selectedStreams := by
  induction h with
  | built => rfl
  | approved _ ih => exact ih
  | stripOnly _ ih => exact ih
  | recovery _ ih => exact ih
  | reprocess _ ih => exact ih
  | backupStrategy _ _ ih => exact ih

theorem KeepsEssential.of_selected (hv : plan.selectedStreams.videoStreamIndices ≠ [])
    (ha : plan.selectedStreams.audioStreamIndices ≠ []) : KeepsEssential media plan := by
  refine ⟨hv, ha, fun output h => ?_⟩
  obtain ⟨hvideo, haudio⟩ := accepted_shape h
  constructor
  · intro h0
    rw [h0] at hvideo
    exact hv (List.length_eq_zero_iff.mp hvideo.symm)
  · intro h0
    rw [h0] at haudio
    exact ha (List.length_eq_zero_iff.mp haudio.symm)

/-- **Essential streams.** Every executable plan for a file keeps video and audio if and only if
the file has exactly one video stream and an audio stream the rules accept. -/
theorem essential_streams_iff (media : MediaFile) (policy : ResolvedPlanningPolicy)
    (rename : RenamePlan) :
    (∀ plan, DerivedPlan media policy rename plan → Executable plan → KeepsEssential media plan) ↔
      media.videoStreams.length = 1 ∧ ∃ s ∈ media.audioStreams, AcceptableAudio policy.audioRules s := by
  rw [← selectableAudio_ne_nil_iff, ← buildProcessingPlan_video media policy rename,
    ← buildProcessingPlan_audio media policy rename]
  constructor
  · intro h
    -- The approved plan is executable whatever the built plan selects.
    have hk := h _ (.approved .built) (by
      unfold Executable approvedExecutionPlan ProcessingPlan.withAction
      dsimp only
      split
      · exact .inr rfl
      · exact .inl rfl)
    exact ⟨hk.video, hk.audio⟩
  · rintro ⟨hv, ha⟩ plan hplan -
    refine .of_selected ?_ ?_
    · rw [hplan.selectedStreams]
      exact hv
    · rw [hplan.selectedStreams]
      exact ha

theorem filmParts_valid : ∀ s ∈ ["media", "film.mkv"], ValidPart s := by decide

/-- A film with two video streams and an English audio track. -/
def twoVideoFilm : MediaFile where
  container := {
    filePath := ⟨.slash, ["media", "film.mkv"], filmParts_valid⟩
    fileName := "film.mkv"
    extension := some "mkv" }
  videoStreams := [{ index := 0, codecName := some "hevc" }, { index := 1, codecName := some "mjpeg" }]
  audioStreams := [{ index := 2, tags := { language := some "eng" } }]
  hasEnglishAudio := true

/-- The film without its video. -/
def audioOnlyFilm : MediaFile :=
  { twoVideoFilm with
    videoStreams := []
    audioStreams := [{
      index := 0
      tags := { language := some "eng" }
      disposition := { default := true } }] }

/-- A policy that keeps English streams. -/
def englishPolicy : ResolvedPlanningPolicy where
  context := {
    policyName := "default"
    policyVersion := 1
    sourcePath := ⟨.slash, ["media", "film.mkv"], filmParts_valid⟩ }
  audioRules := { keepLanguages := ["eng"], preferredCodecs := ["aac"] }
  subtitleRules := { keepLanguages := ["eng"], keepForcedLanguages := ["eng"] }
  videoRules := {
    non4k := {
      decisionOrder := [.skip, .remux, .transcode]
      maxVideoBitrateMbps := 20
      maxWidth := 1920 } }

/-- The approved plan of the film is a remux without video, and an output without video is
accepted under it. -/
theorem twoVideoFilm_drops_video :
    twoVideoFilm.videoStreams ≠ [] ∧ twoVideoFilm.audioStreams ≠ [] ∧
    ∃ plan, DerivedPlan twoVideoFilm englishPolicy { enabled := false } plan ∧ Executable plan ∧
      ¬ KeepsEssential twoVideoFilm plan ∧
      (verifyOutput plan twoVideoFilm (.media audioOnlyFilm)).passed = true :=
  ⟨by decide, by decide, _, .approved .built, .inl (by decide), fun h => h.video (by decide),
    by decide⟩

/-- A plan that `buildProcessingPlan` itself makes executable keeps video and audio. -/
theorem buildProcessingPlan_keepsEssential
    (h : Executable (buildProcessingPlan media policy rename)) :
    KeepsEssential media (buildProcessingPlan media policy rename) := by
  have hnot : ¬ (buildProcessingPlan media policy rename).action = .manualReview := fun hr => by
    rcases h with h | h <;> simp [hr] at h
  have hsel := mt buildProcessingPlan_review hnot
  rw [not_or] at hsel
  exact .of_selected hsel.1 hsel.2

end Essential

end Encodr
