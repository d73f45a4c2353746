import Encodr.Planning.Choice
import Encodr.Planning.Planner

/-!
# What a plan selects

The streams that a selection keeps, as streams of the media file, and what the intents say of them.

* `selectAudioStreams_selects`: the audio selection where there is a track to choose from.
* `mem_selectedSubtitles`: the subtitles that are kept.
* `buildProcessingPlan_selects`: what an executable plan selects.
-/

namespace Encodr

open Python

/-! ## Dropped streams -/

section Dropped

variable {α : Type} {index : α → Int} {xs ys : List α}

/-- No stream is dropped where all of them are selected. -/
theorem dropped_eq_nil_iff (hsub : ys ⊆ xs) (hinj : (xs.map index).Nodup) :
    (xs.map index).filter (· ∉ ys.map index) = [] ↔ ∀ x ∈ xs, x ∈ ys := by
  rw [List.filter_eq_nil_iff]
  constructor
  · intro h x hx
    have hmem := h (index x) (List.mem_map_of_mem hx)
    obtain ⟨y, hy, heq⟩ : ∃ y ∈ ys, index y = index x := by simpa using hmem
    obtain rfl := List.inj_on_of_nodup_map hinj (hsub hy) hx heq
    exact hy
  · intro h i hi
    obtain ⟨x, hx, rfl⟩ := List.mem_map.mp hi
    simpa using ⟨x, h x hx, rfl⟩

end Dropped

/-! ## Audio -/

section Audio

variable {media : MediaFile} {rules : AudioRules} {languages : LanguagePreferences}

/-- What the audio selection says when it keeps `selected`. -/
structure AudioSelectionResult.Selects (r : AudioSelectionResult) (media : MediaFile)
    (rules : AudioRules) (selected : List AudioStream) : Prop where
  selectedIndices : r.intent.selectedStreamIndices = selected.map (·.index)
  dropped : r.intent.droppedStreamIndices =
    (media.audioStreams.map (·.index)).filter (· ∉ selected.map (·.index))
  requiredLanguages : r.intent.requiredLanguageCodes = uniqueLanguages (selected.map (·.language))
  primary : r.intent.primaryStreamIndex = selected.head?.map (·.index)
  atmos : r.intent.preservedAtmosStreamIndices = (selected.filter (·.isAtmosCapable)).map (·.index)
  surround : r.intent.preservedSurroundStreamIndices =
    (selected.filter (·.isSurroundCandidate)).map (·.index)
  missing : r.intent.missingRequiredAudio = false
  warnings : r.warnings = warningIf (rules.keepOnlyPreferredLanguages && undeterminedAudio media)
    "undetermined_audio_not_selected"
    "Some audio tracks do not declare a language and are not selected automatically."
  review : r.requiresManualReview = false

/-- Where there is a track to choose from, the kept tracks are selected. -/
theorem selectAudioStreams_selects (h : selectableAudio media rules ≠ []) :
    (selectAudioStreams media rules languages).Selects media rules (selectedAudio media rules) := by
  have hpreferred : (rules.keepOnlyPreferredLanguages && (preferredAudio media rules).isEmpty) = false := by
    by_contra hno
    simp only [Bool.not_eq_false, Bool.and_eq_true, List.isEmpty_iff] at hno
    exact h (by simp [selectableAudio, candidateAudio, hno.1, hno.2])
  have hselectable : (selectableAudio media rules).isEmpty = false := by
    simpa using h
  unfold selectAudioStreams
  dsimp only
  rw [if_neg (by simp [hpreferred]), if_neg (by simp [hselectable])]
  exact ⟨rfl, rfl, rfl, rfl, rfl, rfl, rfl, rfl, rfl⟩

theorem mem_selectableAudio {s : AudioStream} : s ∈ selectableAudio media rules ↔
    s ∈ candidateAudio media rules ∧
      (rules.allowCommentary = true ∨ s.isCommentaryCandidate = false) := by
  simp [selectableAudio]

theorem candidateAudio_subset : candidateAudio media rules ⊆ media.audioStreams := by
  intro s hs
  unfold candidateAudio at hs
  split at hs
  · exact List.mem_of_mem_filter hs
  · exact hs

theorem selectedAudio_subset_selectable : selectedAudio media rules ⊆ selectableAudio media rules := by
  intro s hs
  unfold selectedAudio at hs
  dsimp only at hs
  have hmem := List.mem_of_mem_take hs
  split at hmem
  · exact mem_of_mem_bestByLanguage hmem
  · rcases mem_of_mem_fillTracks hmem with hmem | hmem
    · exact mem_of_mem_bestByLanguage hmem
    · exact (List.mem_insertionSort _).mp hmem

theorem selectedAudio_subset : selectedAudio media rules ⊆ media.audioStreams := fun _ hs =>
  candidateAudio_subset (mem_selectableAudio.mp (selectedAudio_subset_selectable hs)).1

theorem selectedAudio_nodup : (selectedAudio media rules).Nodup := by
  unfold selectedAudio
  dsimp only
  refine List.Nodup.sublist (List.take_sublist _ _) ?_
  have hbest : (selectBestAudioByLanguage (selectableAudio media rules) rules
      (orderedLanguageCodes rules.keepLanguages)).Nodup :=
    bestByLanguage_nodup (orderedLanguageCodes_nodup rules.keepLanguages)
  split
  · exact hbest
  · exact fillTracks_nodup hbest

end Audio

/-! ## Subtitles -/

section Subtitles

variable (media : MediaFile) (rules : SubtitleRules) (languages : LanguagePreferences)

/-- The forced subtitles that are kept. -/
def forcedSubtitles : List SubtitleStream :=
  if languages.preserveForcedSubtitles then
    media.subtitleStreams.filter fun s =>
      decide (languageCode s.language ∈ orderedLanguageCodes rules.keepForcedLanguages) &&
        s.disposition.forced
  else []

/-- The subtitles that only a text calls forced. -/
def ambiguousSubtitles : List SubtitleStream :=
  if languages.preserveForcedSubtitles then
    media.subtitleStreams.filter fun s =>
      decide (languageCode s.language ∈ orderedLanguageCodes rules.keepForcedLanguages) &&
        !s.disposition.forced && containsForcedMarker s
  else []

/-- The subtitles that are full ones in a preferred language. -/
def mainCandidates : List SubtitleStream :=
  media.subtitleStreams.filter fun s =>
    decide (languageCode s.language ∈ orderedLanguageCodes rules.keepLanguages) &&
      !s.disposition.forced && !containsForcedMarker s && !s.isHearingImpairedCandidate

/-- The subtitles for the hearing impaired in a preferred language. -/
def hearingImpairedCandidates : List SubtitleStream :=
  media.subtitleStreams.filter fun s =>
    decide (languageCode s.language ∈ orderedLanguageCodes rules.keepLanguages) &&
      s.isHearingImpairedCandidate

/-- The full subtitles that are kept, the best one of each language. -/
def mainSubtitles : List SubtitleStream :=
  if rules.keepOneFullPreferredSubtitle then
    selectBestSubtitleByLanguage (mainCandidates media rules) (orderedLanguageCodes rules.keepLanguages)
  else []

/-- The subtitles for the hearing impaired that are kept, the best one of each language. -/
def hearingImpairedSubtitles : List SubtitleStream :=
  if rules.keepHearingImpaired then
    selectBestSubtitleByLanguage (hearingImpairedCandidates media rules)
      (orderedLanguageCodes rules.keepLanguages)
  else []

/-- The subtitles that are kept. -/
def selectedSubtitles : List SubtitleStream :=
  if rules.dropOtherSubtitles then
    (hearingImpairedSubtitles media rules).foldl addNew
      ((mainSubtitles media rules).foldl addNew
        (sortedByScore (subtitleStreamScore (orderedLanguageCodes rules.keepForcedLanguages))
          (forcedSubtitles media rules languages)))
  else media.subtitleStreams

/-- What the subtitle selection says when it keeps `selected`. -/
structure SubtitleSelectionResult.Selects (r : SubtitleSelectionResult) (media : MediaFile)
    (rules : SubtitleRules) (languages : LanguagePreferences) (selected : List SubtitleStream) :
    Prop where
  selectedIndices : r.intent.selectedStreamIndices = selected.map (·.index)
  dropped : r.intent.droppedStreamIndices =
    (media.subtitleStreams.map (·.index)).filter (· ∉ selected.map (·.index))
  requiredLanguages : r.intent.requiredLanguageCodes = uniqueLanguages (selected.map (·.language))
  forcedLanguages : r.intent.requiredForcedLanguageCodes =
    uniqueLanguages ((forcedSubtitles media rules languages).map (·.language))
  forced : r.intent.forcedStreamIndices = (forcedSubtitles media rules languages).map (·.index)
  main : r.intent.mainStreamIndex = (mainSubtitles media rules).head?.map (·.index)
  ambiguous : r.intent.ambiguousForcedStreamIndices =
    (ambiguousSubtitles media rules languages).map (·.index)
  warnings : r.warnings =
    warningIf (!(ambiguousSubtitles media rules languages).isEmpty)
      "manual_review_low_confidence_subtitle_metadata"
      "Forced subtitle intent looks ambiguous in metadata." ++
    warningIf (selected.isEmpty && !media.subtitleStreams.isEmpty) "english_subtitle_not_found"
      "No preferred-language subtitle tracks were selected."
  review : r.requiresManualReview = !(ambiguousSubtitles media rules languages).isEmpty

theorem selectSubtitleStreams_selects :
    (selectSubtitleStreams media rules languages).Selects media rules languages
      (selectedSubtitles media rules languages) :=
  ⟨rfl, rfl, rfl, rfl, rfl, rfl, rfl, rfl, rfl⟩

variable {media rules languages} {s : SubtitleStream}

theorem mem_forcedSubtitles : s ∈ forcedSubtitles media rules languages ↔
    languages.preserveForcedSubtitles = true ∧ s ∈ media.subtitleStreams ∧
      languageCode s.language ∈ orderedLanguageCodes rules.keepForcedLanguages ∧
      s.disposition.forced = true := by
  unfold forcedSubtitles
  split
  · next h => simp [h]
  · next h => simp [h]

theorem mem_ambiguousSubtitles : s ∈ ambiguousSubtitles media rules languages ↔
    languages.preserveForcedSubtitles = true ∧ s ∈ media.subtitleStreams ∧
      languageCode s.language ∈ orderedLanguageCodes rules.keepForcedLanguages ∧
      s.disposition.forced = false ∧ containsForcedMarker s = true := by
  unfold ambiguousSubtitles
  split
  · next h => simp [h, and_assoc]
  · next h => simp [h]

theorem mem_mainCandidates : s ∈ mainCandidates media rules ↔
    s ∈ media.subtitleStreams ∧ languageCode s.language ∈ orderedLanguageCodes rules.keepLanguages ∧
      s.disposition.forced = false ∧ containsForcedMarker s = false ∧
      s.isHearingImpairedCandidate = false := by
  simp [mainCandidates, and_assoc]

theorem mem_hearingImpairedCandidates : s ∈ hearingImpairedCandidates media rules ↔
    s ∈ media.subtitleStreams ∧ languageCode s.language ∈ orderedLanguageCodes rules.keepLanguages ∧
      s.isHearingImpairedCandidate = true := by
  simp [hearingImpairedCandidates]

theorem mem_mainSubtitles : s ∈ mainSubtitles media rules ↔
    rules.keepOneFullPreferredSubtitle = true ∧ s ∈ selectBestSubtitleByLanguage
      (mainCandidates media rules) (orderedLanguageCodes rules.keepLanguages) := by
  unfold mainSubtitles
  split
  · next h => simp [h]
  · next h => simp [h]

theorem mem_hearingImpairedSubtitles : s ∈ hearingImpairedSubtitles media rules ↔
    rules.keepHearingImpaired = true ∧ s ∈ selectBestSubtitleByLanguage
      (hearingImpairedCandidates media rules) (orderedLanguageCodes rules.keepLanguages) := by
  unfold hearingImpairedSubtitles
  split
  · next h => simp [h]
  · next h => simp [h]

theorem mainSubtitles_candidate (h : s ∈ mainSubtitles media rules) :
    s ∈ mainCandidates media rules :=
  mem_of_mem_bestByLanguage (mem_mainSubtitles.mp h).2

theorem hearingImpairedSubtitles_candidate (h : s ∈ hearingImpairedSubtitles media rules) :
    s ∈ hearingImpairedCandidates media rules :=
  mem_of_mem_bestByLanguage (mem_hearingImpairedSubtitles.mp h).2

/-- One full subtitle is kept for each language. -/
theorem mainSubtitles_inj {t : SubtitleStream} (hs : s ∈ mainSubtitles media rules)
    (ht : t ∈ mainSubtitles media rules) (h : languageCode s.language = languageCode t.language) :
    s = t :=
  bestByLanguage_inj (mem_mainSubtitles.mp hs).2 (mem_mainSubtitles.mp ht).2 h

theorem hearingImpairedSubtitles_inj {t : SubtitleStream}
    (hs : s ∈ hearingImpairedSubtitles media rules) (ht : t ∈ hearingImpairedSubtitles media rules)
    (h : languageCode s.language = languageCode t.language) : s = t :=
  bestByLanguage_inj (mem_hearingImpairedSubtitles.mp hs).2 (mem_hearingImpairedSubtitles.mp ht).2 h

/-- A subtitle for the hearing impaired that the planner scores above the others of its language. -/
structure BestHearingImpaired (media : MediaFile) (s : SubtitleStream) : Prop where
  candidate : s.isHearingImpairedCandidate = true
  best : ∀ t ∈ media.subtitleStreams, t.isHearingImpairedCandidate = true →
    languageCode t.language = languageCode s.language → t ≠ s →
      subtitleStreamScore [] t < subtitleStreamScore [] s

/-- The subtitles for the hearing impaired that are kept, by the scores of the others. -/
theorem hearingImpairedSubtitles_iff (hnodup : (media.subtitleStreams.map (·.index)).Nodup) :
    s ∈ hearingImpairedSubtitles media rules ↔ rules.keepHearingImpaired = true ∧
      s ∈ media.subtitleStreams ∧
      languageCode s.language ∈ orderedLanguageCodes rules.keepLanguages ∧
      BestHearingImpaired media s := by
  unfold hearingImpairedSubtitles
  split
  · next hkeep =>
    have hscore : ∀ t, subtitleStreamScore [] t = subtitleStreamScore [] s → t.index = s.index := by
      intro t h
      simpa [subtitleStreamScore] using (List.cons.inj (List.cons.inj (List.cons.inj
        (List.cons.inj h).2).2).2).1
    have hmem : ∀ t, t ∈ (hearingImpairedCandidates media rules).filter
        (fun t => languageCode t.language = languageCode s.language) ↔ t ∈ media.subtitleStreams ∧
          languageCode t.language ∈ orderedLanguageCodes rules.keepLanguages ∧
          t.isHearingImpairedCandidate = true ∧
          languageCode t.language = languageCode s.language := by
      intro t
      rw [List.mem_filter, mem_hearingImpairedCandidates, decide_eq_true_eq, and_assoc, and_assoc]
    rw [selectBestSubtitleByLanguage, mem_bestByLanguage]
    constructor
    · rintro ⟨hlanguage, hbest⟩
      have hs := (hmem s).mp (maxBy_mem hbest)
      refine ⟨hkeep, hs.1, hlanguage, hs.2.2.1, fun t ht hcandidate hsame hne => ?_⟩
      have hle := maxBy_le hbest ((hmem t).mpr ⟨ht, hsame ▸ hlanguage, hcandidate, hsame⟩)
      by_contra hnot
      exact hne (List.inj_on_of_nodup_map hnodup ht hs.1
        (hscore t (le_antisymm hle (not_lt.mp hnot))))
    · rintro ⟨-, hs, hlanguage, hbest⟩
      refine ⟨hlanguage, maxBy_eq ((hmem s).mpr ⟨hs, hlanguage, hbest.candidate, rfl⟩) fun t ht hne => ?_⟩
      have ht' := (hmem t).mp ht
      exact hbest.best t ht'.1 ht'.2.2.1 ht'.2.2.2 hne
  · next hkeep => simp [hkeep]

/-- Where other subtitles are dropped, the forced ones, the full ones and those for the hearing
impaired are kept. -/
theorem mem_selectedSubtitles (h : rules.dropOtherSubtitles = true) :
    s ∈ selectedSubtitles media rules languages ↔ s ∈ forcedSubtitles media rules languages ∨
      s ∈ mainSubtitles media rules ∨ s ∈ hearingImpairedSubtitles media rules := by
  rw [selectedSubtitles, if_pos h, mem_foldl_addNew, mem_foldl_addNew, sortedByScore,
    List.mem_insertionSort, or_assoc]

theorem forcedSubtitles_selected (h : s ∈ forcedSubtitles media rules languages) :
    s ∈ selectedSubtitles media rules languages := by
  by_cases hdrop : rules.dropOtherSubtitles = true
  · exact (mem_selectedSubtitles hdrop).mpr (.inl h)
  · rw [selectedSubtitles, if_neg hdrop]
    exact (mem_forcedSubtitles.mp h).2.1

theorem mainSubtitles_selected (h : s ∈ mainSubtitles media rules) :
    s ∈ selectedSubtitles media rules languages := by
  by_cases hdrop : rules.dropOtherSubtitles = true
  · exact (mem_selectedSubtitles hdrop).mpr (.inr (.inl h))
  · rw [selectedSubtitles, if_neg hdrop]
    exact (mem_mainCandidates.mp (mainSubtitles_candidate h)).1

theorem selectedSubtitles_subset :
    selectedSubtitles media rules languages ⊆ media.subtitleStreams := by
  intro s hs
  by_cases hdrop : rules.dropOtherSubtitles = true
  · rcases (mem_selectedSubtitles hdrop).mp hs with h | h | h
    · exact (mem_forcedSubtitles.mp h).2.1
    · exact (mem_mainCandidates.mp (mainSubtitles_candidate h)).1
    · exact (mem_hearingImpairedCandidates.mp (hearingImpairedSubtitles_candidate h)).1
  · rwa [selectedSubtitles, if_neg hdrop] at hs

variable (rules languages) in
theorem selectedSubtitles_nodup (h : media.subtitleStreams.Nodup) :
    (selectedSubtitles media rules languages).Nodup := by
  unfold selectedSubtitles
  split
  · refine foldl_addNew_nodup (foldl_addNew_nodup ?_)
    refine (List.perm_insertionSort _ _).nodup_iff.mpr ?_
    unfold forcedSubtitles
    split
    · exact h.filter _
    · exact List.nodup_nil
  · exact h

end Subtitles

/-! ## Plans -/

section Plans

variable {media : MediaFile} {policy : ResolvedPlanningPolicy} {rename : RenamePlan}

/-- Nothing about the file asks for a manual review. -/
structure Plannable (media : MediaFile) (policy : ResolvedPlanningPolicy) : Prop where
  video : (buildVideoPlan media policy.videoRules).requiresManualReview = false
  audio : selectableAudio media policy.audioRules ≠ []
  subtitles : ambiguousSubtitles media policy.subtitleRules policy.languages = []

theorem selectAudioStreams_review_false_iff {rules : AudioRules} {languages : LanguagePreferences} :
    (selectAudioStreams media rules languages).requiresManualReview = false ↔
      selectableAudio media rules ≠ [] := by
  rw [← selectAudioStreams_ne_nil_iff, ne_eq,
    ← selectAudioStreams_review_iff, Bool.not_eq_true]

variable (media policy) in
/-- What the planner checks before it determines an action. -/
theorem review_eq_false_iff : ((buildVideoPlan media policy.videoRules).requiresManualReview ||
    (selectAudioStreams media policy.audioRules policy.languages).requiresManualReview ||
    (selectSubtitleStreams media policy.subtitleRules policy.languages).requiresManualReview) = false ↔
      Plannable media policy := by
  have hsubtitles := (selectSubtitleStreams_selects media policy.subtitleRules policy.languages).review
  rw [Bool.or_eq_false_iff, Bool.or_eq_false_iff, selectAudioStreams_review_false_iff, hsubtitles,
    Bool.not_eq_false', List.isEmpty_iff]
  exact ⟨fun ⟨⟨hvideo, haudio⟩, hsubtitles⟩ => ⟨hvideo, haudio, hsubtitles⟩,
    fun h => ⟨⟨h.video, h.audio⟩, h.subtitles⟩⟩

variable (rename) in
/-- A plan that does not ask for a manual review is one of a plannable file. -/
theorem plannable_of_action (h : (buildProcessingPlan media policy rename).action ≠ .manualReview) :
    Plannable media policy := by
  rw [← review_eq_false_iff]
  refine Bool.eq_false_iff.mpr fun hreview => h ?_
  show determineAction media policy.videoRules _ _ _ _ _ = .manualReview
  rw [hreview]
  exact determineAction_review _ _ _ _ _

/-- The file has one video stream, which is planned for. -/
theorem Plannable.exists_video (h : Plannable media policy) : ∃ v, media.videoStreams = [v] ∧
    (buildVideoPlan media policy.videoRules).plan.primaryStreamIndex = some v.index := by
  have hlength : media.videoStreams.length = 1 := by
    by_contra hne
    have hreview : (buildVideoPlan media policy.videoRules).requiresManualReview = true :=
      buildVideoPlan_review hne
    rw [h.video] at hreview
    cases hreview
  obtain ⟨v, hv⟩ := List.length_eq_one_iff.mp hlength
  refine ⟨v, hv, ?_⟩
  unfold buildVideoPlan
  rw [hv]
  dsimp only
  split
  · unfold build4kVideoPlan
    dsimp only
    split
    · rfl
    · split <;> rfl
  · rfl

variable {rules : VideoRules} {video : VideoPlan} {compliant cleanup change review : Bool}

/-- Exactly a video that has to be transcoded is transcoded. -/
theorem determineAction_executable
    (h : determineAction media rules video compliant cleanup change review = .transcode ∨
      determineAction media rules video compliant cleanup change review = .remux) :
    determineAction media rules video compliant cleanup change review = .transcode ↔
      video.transcodeRequired = true := by
  unfold determineAction at h ⊢
  by_cases ht : video.transcodeRequired = true
  · simp only [ht, if_true, iff_true] at h ⊢
    split at h
    · simp at h
    · split at h
      · split at h <;> simp_all
      · split at h <;> simp_all
  · simp only [ht, Bool.false_eq_true, if_false, iff_false]
    split
    · simp
    · split
      · split <;> simp
      · split
        · split <;> simp
        · split <;> simp

theorem buildProcessingPlan_transcodes_iff
    (h : (buildProcessingPlan media policy rename).action = .remux ∨
      (buildProcessingPlan media policy rename).action = .transcode) :
    (buildProcessingPlan media policy rename).action = .transcode ↔
      (buildProcessingPlan media policy rename).video.transcodeRequired = true :=
  determineAction_executable h.symm

/-- An original is preserved exactly when it is not transcoded. -/
theorem buildVideoPlan_preserveOriginal (media : MediaFile) (rules : VideoRules) :
    (buildVideoPlan media rules).plan.preserveOriginal =
      !(buildVideoPlan media rules).plan.transcodeRequired := by
  unfold buildVideoPlan
  split
  · split
    · unfold build4kVideoPlan
      dsimp only
      split
      · rfl
      · split <;> rfl
    · rfl
  · rfl

end Plans

end Encodr
