import Encodr.Planning.Reselection
import Encodr.Verification.Completeness

/-!
# Convergence

What the planner makes of the ideal output of its own plan. After a remux no audio track is dropped
again, and a subtitle is dropped again only where it was kept as one for the hearing impaired by a flag
that the command clears, or beside a forced one. After a transcode the width limit is not discharged:
the command does not scale.

* `remux_converges`: what the plan of a remuxed file is.
* `transcode_converges_iff`: when a transcoded file is not transcoded again.
-/

namespace Encodr

open Python Lib

section Convergence

variable {source : ProbeFile} {policy : ResolvedPlanningPolicy} {plan : ProcessingPlan}
  {encoded : ProbeStream} {audioTracks : List AudioStream} {subtitleTracks : List SubtitleStream}
  {output : MediaFile} {v : VideoStream} {rules : AudioRules} {subtitleRules : SubtitleRules}
  {languages : LanguagePreferences}

/-! ## The audio of the output -/

section Audio

variable (hplan : PlanSelects source plan v audioTracks subtitleTracks)
  (houtput : IdealOutput source plan encoded audioTracks subtitleTracks output)

include hplan houtput

/-- An audio track of the output is the copy of a selected one. -/
theorem output_audio_copy {s' : AudioStream} (hs : s' ∈ output.audioStreams) :
    ∃ s ∈ audioTracks, AudioCopy s s' := by
  rw [houtput.audio] at hs
  obtain ⟨i, hi, rfl⟩ := List.mem_mapIdx.mp hs
  exact ⟨_, List.getElem_mem hi, copiedAudio_copy _ _ (hplan.audio_subset (List.getElem_mem hi))⟩

/-- The rules choose from all tracks of the output. -/
theorem output_selectableAudio
    (hsub : audioTracks ⊆ selectableAudio (normaliseFfprobePayload source) rules) :
    selectableAudio output rules = output.audioStreams := by
  have hcandidate : candidateAudio output rules = output.audioStreams := by
    unfold candidateAudio
    split
    · next hkeep =>
      refine List.filter_eq_self.mpr fun s' hs' => ?_
      obtain ⟨s, hs, hcopy⟩ := output_audio_copy hplan houtput hs'
      have hmem := (mem_selectableAudio.mp (hsub hs)).1
      rw [candidateAudio, if_pos hkeep] at hmem
      have hpreferred := (List.mem_filter.mp hmem).2
      rwa [← hcopy.language] at hpreferred
    · rfl
  rw [selectableAudio, hcandidate]
  refine List.filter_eq_self.mpr fun s' hs' => ?_
  obtain ⟨s, hs, hcopy⟩ := output_audio_copy hplan houtput hs'
  rcases (mem_selectableAudio.mp (hsub hs)).2 with hallow | hcommentary
  · simp [hallow]
  · have hnot : s'.isCommentaryCandidate = false := by
      refine Bool.eq_false_iff.mpr fun h => ?_
      rw [hcopy.commentary h] at hcommentary
      cases hcommentary
    simp [hnot]

/-- The tracks of the output are settled where the selected ones are. -/
theorem output_settled (hnodup : audioTracks.Nodup) (h : Settled rules audioTracks) :
    Settled rules output.audioStreams := by
  rcases h with ⟨hlanguage, hdistinct⟩ | ⟨hkeep, hlength⟩
  · refine .inl ⟨fun s' hs' => ?_, fun s' hs' t' ht' hsame => ?_⟩
    · obtain ⟨s, hs, hcopy⟩ := output_audio_copy hplan houtput hs'
      rw [hcopy.language]
      exact hlanguage s hs
    · rw [houtput.audio] at hs' ht'
      obtain ⟨i, hi, rfl⟩ := List.mem_mapIdx.mp hs'
      obtain ⟨j, hj, rfl⟩ := List.mem_mapIdx.mp ht'
      have hi' := List.getElem_mem hi
      have hj' := List.getElem_mem hj
      rw [(copiedAudio_copy _ _ (hplan.audio_subset hi')).language,
        (copiedAudio_copy _ _ (hplan.audio_subset hj')).language] at hsame
      obtain rfl := (hnodup.getElem_inj_iff).mp (hdistinct _ hi' _ hj' hsame)
      rfl
  · refine .inr ⟨hkeep, ?_⟩
    rw [houtput.audio, List.length_mapIdx]
    exact hlength

end Audio

/-! ## The subtitles of the output -/

/-- A subtitle for the hearing impaired that is kept, and is dropped, or has another one dropped, when
its copy is planned: the flag that says what it is for is cleared, and a forced subtitle that is named
one for the hearing impaired comes before it. -/
structure LosesHearingImpaired (media : MediaFile) (named : SubtitleStream → Bool)
    (rules : SubtitleRules) (languages : LanguagePreferences) (s : SubtitleStream) : Prop where
  dropOther : rules.dropOtherSubtitles = true
  kept : s ∈ hearingImpairedSubtitles media rules
  notForced : s ∉ forcedSubtitles media rules languages
  lost : (named s = true ∧ ∃ f ∈ forcedSubtitles media rules languages, named f = true ∧
      languageCode f.language = languageCode s.language) ∨
    (named s = false ∧ (rules.keepOneFullPreferredSubtitle = true → containsForcedMarker s = false →
      ∃ m ∈ mainCandidates media rules, languageCode m.language = languageCode s.language))

section Subtitles

variable (hplan : PlanSelects source plan v audioTracks subtitleTracks)
  (houtput : IdealOutput source plan encoded audioTracks subtitleTracks output)
  (hintent : ∃ r : SubtitleSelectionResult, plan.subtitles = r.intent ∧
    r.Selects (normaliseFfprobePayload source) subtitleRules languages subtitleTracks)

theorem output_hearingImpairedCandidate {s s' : SubtitleStream}
    (hs' : s' ∈ output.subtitleStreams) (h : SubtitleCopy source plan s s') :
    s' ∈ hearingImpairedCandidates output subtitleRules ↔
      languageCode s.language ∈ orderedLanguageCodes subtitleRules.keepLanguages ∧
        (source.raw s.index).namesHearingImpaired = true := by
  rw [mem_hearingImpairedCandidates, h.language, h.hearingImpaired]
  exact and_iff_right hs'

include hplan

include hintent in
/-- The copy of a forced subtitle is flagged as forced, and no other copy is. -/
theorem copy_forced {s s' : SubtitleStream} (hs : s ∈ subtitleTracks) (h : SubtitleCopy source plan s s') :
    s'.disposition.forced =
      decide (s ∈ forcedSubtitles (normaliseFfprobePayload source) subtitleRules languages) := by
  obtain ⟨r, hr, hselects⟩ := hintent
  rw [h.forced, hr, hselects.forced, decide_eq_decide]
  exact mem_forcedIndices (hplan.subtitles_subset hs)

include hintent in
/-- The candidates for a full subtitle of the output are copies of tracks that are neither forced nor named
for the hearing impaired. -/
theorem output_mainCandidate {s s' : SubtitleStream} (hs : s ∈ subtitleTracks)
    (hs' : s' ∈ output.subtitleStreams) (h : SubtitleCopy source plan s s') :
    s' ∈ mainCandidates output subtitleRules ↔
      languageCode s.language ∈ orderedLanguageCodes subtitleRules.keepLanguages ∧
        s ∉ forcedSubtitles (normaliseFfprobePayload source) subtitleRules languages ∧
        containsForcedMarker s = false ∧ (source.raw s.index).namesHearingImpaired = false := by
  rw [mem_mainCandidates, h.language, h.containsForcedMarker, h.hearingImpaired,
    copy_forced hplan hintent hs h, decide_eq_false_iff_not]
  exact and_iff_right hs'

include houtput

/-- A subtitle of the output is the copy of a selected one. -/
theorem output_subtitle_copy {s' : SubtitleStream} (hs : s' ∈ output.subtitleStreams) :
    ∃ s ∈ subtitleTracks, SubtitleCopy source plan s s' := by
  rw [houtput.subtitles] at hs
  obtain ⟨i, hi, rfl⟩ := List.mem_mapIdx.mp hs
  exact ⟨_, List.getElem_mem hi, copiedSubtitle_copy _ _ (hplan.subtitles_subset (List.getElem_mem hi))⟩

/-- A subtitle of the output that can only be the copy of one track is that copy. -/
theorem output_subtitle_eq (hnodup : subtitleTracks.Nodup) {i : Nat} (hi : i < subtitleTracks.length)
    {t' : SubtitleStream} (ht' : t' ∈ output.subtitleStreams)
    (h : ∀ t ∈ subtitleTracks, SubtitleCopy source plan t t' → t = subtitleTracks[i]) :
    t' = copiedSubtitle source plan i subtitleTracks[i] := by
  rw [houtput.subtitles] at ht'
  obtain ⟨j, hj, rfl⟩ := List.mem_mapIdx.mp ht'
  have hj' := List.getElem_mem hj
  obtain rfl := (hnodup.getElem_inj_iff).mp (h _ hj' (copiedSubtitle_copy _ _ (hplan.subtitles_subset hj')))
  rfl

include hintent

/-- No subtitle of the output is ambiguous where none of the source is. -/
theorem output_ambiguous
    (h : ambiguousSubtitles (normaliseFfprobePayload source) subtitleRules languages = []) :
    ambiguousSubtitles output subtitleRules languages = [] := by
  refine List.eq_nil_iff_forall_not_mem.mpr fun s' hs' => ?_
  obtain ⟨hpreserve, hmem, hlanguage, hforced, hmarker⟩ := mem_ambiguousSubtitles.mp hs'
  obtain ⟨s, hs, hcopy⟩ := output_subtitle_copy hplan houtput hmem
  rw [hcopy.language] at hlanguage
  rw [hcopy.containsForcedMarker] at hmarker
  rw [copy_forced hplan hintent hs hcopy, decide_eq_false_iff_not, mem_forcedSubtitles] at hforced
  have hnotForced : s.disposition.forced = false := Bool.eq_false_iff.mpr fun hflag =>
    hforced ⟨hpreserve, hplan.subtitles_subset hs, hlanguage, hflag⟩
  have hambiguous : s ∈ ambiguousSubtitles (normaliseFfprobePayload source) subtitleRules languages :=
    mem_ambiguousSubtitles.mpr ⟨hpreserve, hplan.subtitles_subset hs, hlanguage, hnotForced, hmarker⟩
  rw [h] at hambiguous
  cases hambiguous

variable {i : Nat} (hi : i < subtitleTracks.length)

/-- The copy of a track is kept as a full subtitle where no other copy of its language is a candidate. -/
theorem output_mainSubtitles (hnodup : subtitleTracks.Nodup)
    (hkeep : subtitleRules.keepOneFullPreferredSubtitle = true)
    (hcandidate : copiedSubtitle source plan i subtitleTracks[i] ∈ mainCandidates output subtitleRules)
    (honly : ∀ t ∈ subtitleTracks, languageCode t.language = languageCode subtitleTracks[i].language →
      t ∉ forcedSubtitles (normaliseFfprobePayload source) subtitleRules languages →
      containsForcedMarker t = false → (source.raw t.index).namesHearingImpaired = false →
      t = subtitleTracks[i]) :
    copiedSubtitle source plan i subtitleTracks[i] ∈ mainSubtitles output subtitleRules := by
  have hcopy := copiedSubtitle_copy plan i (hplan.subtitles_subset (List.getElem_mem hi))
  rw [mainSubtitles, if_pos hkeep]
  refine mem_bestByLanguage.mpr ⟨(mem_mainCandidates.mp hcandidate).2.1, maxBy_eq_of_only
    (List.mem_filter.mpr ⟨hcandidate, by simp⟩) fun t' ht' => ?_⟩
  obtain ⟨ht', hsame⟩ := List.mem_filter.mp ht'
  rw [decide_eq_true_eq, hcopy.language] at hsame
  have hmem := (mem_mainCandidates.mp ht').1
  refine output_subtitle_eq hplan houtput hnodup hi hmem fun t ht htcopy => ?_
  obtain ⟨-, hforced, hmarker, hnamed⟩ :=
    (output_mainCandidate hplan hintent ht hmem htcopy).mp ht'
  exact honly t ht (htcopy.language ▸ hsame) hforced hmarker hnamed

variable (subtitleRules) in
omit hintent in
/-- The copy of a track is kept as one for the hearing impaired where no other copy of its language is
named so. -/
theorem output_hearingImpairedSubtitles (hnodup : subtitleTracks.Nodup)
    (hkeep : subtitleRules.keepHearingImpaired = true)
    (hcandidate : copiedSubtitle source plan i subtitleTracks[i] ∈
      hearingImpairedCandidates output subtitleRules)
    (honly : ∀ t ∈ subtitleTracks, languageCode t.language = languageCode subtitleTracks[i].language →
      (source.raw t.index).namesHearingImpaired = true → t = subtitleTracks[i]) :
    copiedSubtitle source plan i subtitleTracks[i] ∈ hearingImpairedSubtitles output subtitleRules := by
  have hcopy := copiedSubtitle_copy plan i (hplan.subtitles_subset (List.getElem_mem hi))
  rw [hearingImpairedSubtitles, if_pos hkeep]
  refine mem_bestByLanguage.mpr ⟨(mem_hearingImpairedCandidates.mp hcandidate).2.1, maxBy_eq_of_only
    (List.mem_filter.mpr ⟨hcandidate, by simp⟩) fun t' ht' => ?_⟩
  obtain ⟨ht', hsame⟩ := List.mem_filter.mp ht'
  rw [decide_eq_true_eq, hcopy.language] at hsame
  have hmem := (mem_hearingImpairedCandidates.mp ht').1
  refine output_subtitle_eq hplan houtput hnodup hi hmem fun t ht htcopy => ?_
  obtain ⟨-, hnamed⟩ := (output_hearingImpairedCandidate hmem htcopy).mp ht'
  exact honly t ht (htcopy.language ▸ hsame) hnamed

/-- The subtitles of the output are kept, unless one for the hearing impaired is lost. -/
theorem output_selectedSubtitles (hnodup : subtitleTracks.Nodup)
    (hselected : subtitleTracks =
      selectedSubtitles (normaliseFfprobePayload source) subtitleRules languages)
    (hkeeps : ∀ s, ¬ LosesHearingImpaired (normaliseFfprobePayload source)
      (fun s => (source.raw s.index).namesHearingImpaired) subtitleRules languages s) :
    ∀ s' ∈ output.subtitleStreams, s' ∈ selectedSubtitles output subtitleRules languages := by
  intro s' hs'
  by_cases hdrop : subtitleRules.dropOtherSubtitles = true
  · have htracks : ∀ t ∈ subtitleTracks,
        t ∈ forcedSubtitles (normaliseFfprobePayload source) subtitleRules languages ∨
          t ∈ mainSubtitles (normaliseFfprobePayload source) subtitleRules ∨
          t ∈ hearingImpairedSubtitles (normaliseFfprobePayload source) subtitleRules := by
      intro t ht
      rw [hselected] at ht
      exact (mem_selectedSubtitles hdrop).mp ht
    have hmem := hs'
    rw [houtput.subtitles] at hmem
    obtain ⟨i, hi, rfl⟩ := List.mem_mapIdx.mp hmem
    have hs := List.getElem_mem hi
    have hcopy := copiedSubtitle_copy plan i (hplan.subtitles_subset hs)
    have hmain := output_mainSubtitles hplan houtput hintent hi hnodup
    have hhearing := output_hearingImpairedSubtitles subtitleRules hplan houtput hi hnodup
    rw [output_mainCandidate hplan hintent hs hs' hcopy] at hmain
    rw [output_hearingImpairedCandidate hs' hcopy] at hhearing
    rw [mem_selectedSubtitles hdrop]
    generalize subtitleTracks[i] = s at *
    by_cases hforced : s ∈ forcedSubtitles (normaliseFfprobePayload source) subtitleRules languages
    · -- Its copy is forced again.
      obtain ⟨hpreserve, -, hlanguage, -⟩ := mem_forcedSubtitles.mp hforced
      refine .inl (mem_forcedSubtitles.mpr ⟨hpreserve, hs', hcopy.language ▸ hlanguage, ?_⟩)
      rw [copy_forced hplan hintent hs hcopy, decide_eq_true hforced]
    · have hunnamed : ∀ t ∈ subtitleTracks, t.isHearingImpairedCandidate = false →
          (source.raw t.index).namesHearingImpaired = false := by
        intro t ht hcandidate
        refine Bool.eq_false_iff.mpr fun hnamed => ?_
        rw [subtitle_hearingImpaired (hplan.subtitles_subset ht) hnamed] at hcandidate
        cases hcandidate
      rcases htracks s hs with hkept | hkept | hkept
      · exact absurd hkept hforced
      · -- A full subtitle, with no other candidate in its language.
        have hcandidate := mem_mainCandidates.mp (mainSubtitles_candidate hkept)
        refine .inr (.inl (hmain (mem_mainSubtitles.mp hkept).1 ⟨hcandidate.2.1, hforced,
          hcandidate.2.2.2.1, hunnamed s hs hcandidate.2.2.2.2⟩ fun t ht hsame htforced htmarker
          htnamed => ?_))
        rcases htracks t ht with htkept | htkept | htkept
        · exact absurd htkept htforced
        · exact mainSubtitles_inj htkept hkept hsame
        · exact absurd ⟨hdrop, htkept, htforced, .inr ⟨htnamed, fun _ _ =>
            ⟨s, mainSubtitles_candidate hkept, hsame.symm⟩⟩⟩ (hkeeps t)
      · have hlanguage := (mem_hearingImpairedCandidates.mp
          (hearingImpairedSubtitles_candidate hkept)).2.1
        by_cases hnamed : (source.raw s.index).namesHearingImpaired = true
        · -- Its text names it, and no forced subtitle of its language is named so.
          refine .inr (.inr (hhearing (mem_hearingImpairedSubtitles.mp hkept).1 ⟨hlanguage, hnamed⟩
            fun t ht hsame htnamed => ?_))
          rcases htracks t ht with htkept | htkept | htkept
          · exact absurd ⟨hdrop, hkept, hforced, .inl ⟨hnamed, t, htkept, htnamed, hsame⟩⟩ (hkeeps s)
          · have hcandidate := (mem_mainCandidates.mp (mainSubtitles_candidate htkept)).2.2.2.2
            rw [hunnamed t ht hcandidate] at htnamed
            cases htnamed
          · exact hearingImpairedSubtitles_inj htkept hkept hsame
        · -- Its flag alone said what it is for; it is kept as a full subtitle.
          rw [Bool.not_eq_true] at hnamed
          obtain ⟨hkeep, hmarker, hnone⟩ : subtitleRules.keepOneFullPreferredSubtitle = true ∧
              containsForcedMarker s = false ∧
              ∀ m ∈ mainCandidates (normaliseFfprobePayload source) subtitleRules,
                languageCode m.language ≠ languageCode s.language := by
            by_contra hnot
            refine hkeeps s ⟨hdrop, hkept, hforced, .inr ⟨hnamed, fun hkeep hmarker => ?_⟩⟩
            by_contra hno
            exact hnot ⟨hkeep, hmarker, fun m hm hsame => hno ⟨m, hm, hsame⟩⟩
          refine .inr (.inl (hmain hkeep ⟨hlanguage, hforced, hmarker, hnamed⟩ fun t ht hsame htforced
            htmarker htnamed => ?_))
          rcases htracks t ht with htkept | htkept | htkept
          · exact absurd htkept htforced
          · exact absurd hsame (hnone t (mainSubtitles_candidate htkept))
          · exact hearingImpairedSubtitles_inj htkept hkept hsame
  · rw [selectedSubtitles, if_neg hdrop]
    exact hs'

end Subtitles

/-! ## Planning the output -/

/-- The place of the video among the streams does not matter. -/
theorem buildVideoPlan_place {m m' : MediaFile} {r : ProbeStream} {n : Nat} (rules : VideoRules)
    (h : m.videoStreams = [normaliseVideoStream r n]) (h' : m'.videoStreams = [normaliseVideoStream r 0])
    (h4k : m'.is4k = m.is4k) :
    (buildVideoPlan m' rules).requiresManualReview = (buildVideoPlan m rules).requiresManualReview ∧
      (buildVideoPlan m' rules).plan.transcodeRequired =
        (buildVideoPlan m rules).plan.transcodeRequired := by
  unfold buildVideoPlan
  rw [h, h']
  dsimp only
  rw [h4k]
  split
  · unfold build4kVideoPlan
    dsimp only
    split
    · exact ⟨rfl, rfl⟩
    · split <;> exact ⟨rfl, rfl⟩
  · exact ⟨rfl, rfl⟩

/-- The video of a file comes from its probed stream. -/
theorem video_eq (h : (normaliseFfprobePayload source).videoStreams = [v]) :
    normaliseVideoStream (source.raw v.index) v.index.toNat = v :=
  (ProbeFile.eq_of_mem_streamsOf VideoStream.index
    (t := .video) (fun _ _ => rfl)
    (show v ∈ (normaliseFfprobePayload source).videoStreams from h ▸ List.mem_singleton_self v)).1

/-- A kept audio track without a language, where only preferred languages are kept: its copy is kept
with a warning. -/
def KeepsUndetermined (media : MediaFile) (rules : AudioRules) : Prop :=
  rules.keepOnlyPreferredLanguages = true ∧
    ∃ s ∈ selectableAudio media rules, languageCode s.language = "und"

section Replanned

variable (hplannable : Plannable (normaliseFfprobePayload source) policy)
  (hplan : PlanSelects source plan v
    (selectedAudio (normaliseFfprobePayload source) policy.audioRules)
    (selectedSubtitles (normaliseFfprobePayload source) policy.subtitleRules policy.languages))
  (houtput : IdealOutput source plan encoded
    (selectedAudio (normaliseFfprobePayload source) policy.audioRules)
    (selectedSubtitles (normaliseFfprobePayload source) policy.subtitleRules policy.languages) output)
  (hintent : plan.subtitles = (selectSubtitleStreams (normaliseFfprobePayload source)
    policy.subtitleRules policy.languages).intent)

include hplannable hplan houtput

/-- There is audio to choose from again. -/
theorem output_audio_ne_nil : selectableAudio output policy.audioRules ≠ [] := by
  rw [output_selectableAudio hplan houtput selectedAudio_subset_selectable, houtput.audio]
  have hne := selectedAudio_ne_nil hplannable.audio
  simpa using hne

/-- No audio track is dropped again. -/
theorem output_audio_kept (hnodup : (output.audioStreams.map (·.index)).Nodup) :
    (selectAudioStreams output policy.audioRules policy.languages).intent.droppedStreamIndices = [] := by
  have hselects : (selectAudioStreams output policy.audioRules policy.languages).Selects output
      policy.audioRules (selectedAudio output policy.audioRules) :=
    selectAudioStreams_selects (output_audio_ne_nil hplannable hplan houtput)
  have hselectable : selectableAudio output policy.audioRules = output.audioStreams :=
    output_selectableAudio hplan houtput selectedAudio_subset_selectable
  have hsettled : Settled policy.audioRules output.audioStreams :=
    output_settled hplan houtput selectedAudio_nodup (selectedAudio_settled (audioStreams_nodup source))
  rw [hselects.dropped, dropped_eq_nil_iff selectedAudio_subset hnodup]
  intro s' hs'
  rw [← hselectable] at hsettled hs'
  exact hsettled.selectedAudio hs'

/-- There is no warning about the audio where no track without a language is kept. -/
theorem output_audio_warnings
    (hnone : ¬ KeepsUndetermined (normaliseFfprobePayload source) policy.audioRules) :
    (selectAudioStreams output policy.audioRules policy.languages).warnings = [] := by
  have hselects : (selectAudioStreams output policy.audioRules policy.languages).Selects output
      policy.audioRules (selectedAudio output policy.audioRules) :=
    selectAudioStreams_selects (output_audio_ne_nil hplannable hplan houtput)
  rw [hselects.warnings, warningIf, if_neg]
  rw [Bool.and_eq_true, not_and]
  intro hkeep hundetermined
  obtain ⟨s', hs', hcode⟩ := List.any_eq_true.mp hundetermined
  obtain ⟨s, hs, hcopy⟩ := output_audio_copy hplan houtput hs'
  rw [decide_eq_true_eq, hcopy.language] at hcode
  exact hnone ⟨hkeep, s, selectedAudio_subset_selectable hs, hcode⟩

include hintent

/-- Nothing about the output asks for a manual review but, perhaps, its video. -/
theorem output_plannable
    (hvideo : (buildVideoPlan output policy.videoRules).requiresManualReview = false) :
    Plannable output policy :=
  ⟨hvideo, output_audio_ne_nil hplannable hplan houtput,
    output_ambiguous hplan houtput ⟨_, hintent, selectSubtitleStreams_selects _ _ _⟩
      hplannable.subtitles⟩

end Replanned

/-! ## After a remux -/

section Commands

variable {rename rename' : RenamePlan} {inputPath scratchDir ffmpegPath : PosixPath}
  {jobId : Option String} {host : ExecutionHost} {built : ExecutionCommandPlan}
  {command : FfmpegCommand} {format : ContainerFormat} {encode : ProbeStream → ProbeStream}

/-- **Convergence of a remux.** The plan of a remuxed file drops no audio track. Where no subtitle for
the hearing impaired is lost it drops no subtitle, and where moreover no audio track without a language
is kept it skips the file, if the rules let it. -/
theorem remux_converges
    (hbuilt : buildExecutionCommandPlan
      (buildProcessingPlan (normaliseFfprobePayload source) policy rename) inputPath scratchDir ffmpegPath
      jobId host = .ok built)
    (hcommand : built.command = some command)
    (haction : (buildProcessingPlan (normaliseFfprobePayload source) policy rename).action = .remux) :
    let again := buildProcessingPlan
      (idealOutput (buildProcessingPlan (normaliseFfprobePayload source) policy rename) command id format
        source) policy rename'
    again.audio.droppedStreamIndices = [] ∧
      ((∀ s, ¬ LosesHearingImpaired (normaliseFfprobePayload source)
          (fun s => (source.raw s.index).namesHearingImpaired) policy.subtitleRules policy.languages s) →
        again.subtitles.droppedStreamIndices = [] ∧
          (¬ KeepsUndetermined (normaliseFfprobePayload source) policy.audioRules →
            again.action =
              if (normaliseFfprobePayload source).is4k = true ∨
                  .skip ∈ policy.videoRules.non4k.decisionOrder then .skip else .manualReview)) := by
  generalize hplan : buildProcessingPlan (normaliseFfprobePayload source) policy rename = plan at *
  have hexec := buildExecutionCommandPlan_executes hbuilt hcommand
  have hplannable : Plannable (normaliseFfprobePayload source) policy := by
    refine plannable_of_action rename fun h => ?_
    rw [hplan, haction] at h
    cases h
  obtain ⟨v, hselects⟩ := buildProcessingPlan_selects rename hplannable
  rw [hplan] at hselects
  have houtput : IdealOutput source plan (command.outputVideo id (source.raw v.index)) _ _
      (idealOutput plan command id format source) := hselects.output format hexec fun _ hs => hs
  have hcopied : command.outputVideo id (source.raw v.index) = source.raw v.index := ite_self _
  rw [hcopied] at houtput
  have haudioNodup := audioStreams_nodup (command.output id plan.container.targetContainer format source)
  have hsubtitleNodup :=
    subtitleStreams_nodup (command.output id plan.container.targetContainer format source)
  change ((idealOutput plan command id format source).audioStreams.map (·.index)).Nodup at haudioNodup
  change ((idealOutput plan command id format source).subtitleStreams.map (·.index)).Nodup
    at hsubtitleNodup
  generalize idealOutput plan command id format source = output at *
  have hintent : plan.subtitles = (selectSubtitleStreams (normaliseFfprobePayload source)
      policy.subtitleRules policy.languages).intent := hplan ▸ rfl
  -- The video is copied, so it is planned as before.
  have h4k : output.is4k = (normaliseFfprobePayload source).is4k := by
    rw [houtput.is4k, is4k_of_video hselects.videoStreams]
  obtain ⟨hreview, htranscode⟩ := buildVideoPlan_place policy.videoRules
    (hselects.videoStreams.trans (by rw [video_eq hselects.videoStreams])) houtput.video h4k
  have hsourceTranscode :
      (buildVideoPlan (normaliseFfprobePayload source) policy.videoRules).plan.transcodeRequired = false := by
    have hremux : (buildProcessingPlan (normaliseFfprobePayload source) policy rename).action = .remux := by
      rw [hplan, haction]
    have hiff := buildProcessingPlan_transcodes_iff (.inl hremux)
    rw [hplan, haction] at hiff
    have hvideo : plan.video =
        (buildVideoPlan (normaliseFfprobePayload source) policy.videoRules).plan := hplan ▸ rfl
    rw [hvideo] at hiff
    exact Bool.eq_false_iff.mpr fun h => PlanAction.noConfusion (hiff.mpr h)
  have hagain := output_plannable hplannable hselects houtput hintent (hreview.trans hplannable.video)
  have haudio := output_audio_kept hplannable hselects houtput haudioNodup
  refine ⟨haudio, fun hkeeps => ?_⟩
  have htracksNodup := selectedSubtitles_nodup policy.subtitleRules policy.languages
    (List.Nodup.of_map _ (subtitleStreams_nodup source))
  have hkept := output_selectedSubtitles hselects houtput
    ⟨_, hintent, selectSubtitleStreams_selects _ _ _⟩ htracksNodup rfl hkeeps
  have hsubtitleSelects := selectSubtitleStreams_selects output policy.subtitleRules policy.languages
  have hsubtitles : (selectSubtitleStreams output policy.subtitleRules
      policy.languages).intent.droppedStreamIndices = [] := by
    rw [hsubtitleSelects.dropped, dropped_eq_nil_iff selectedSubtitles_subset hsubtitleNodup]
    exact hkept
  refine ⟨hsubtitles, fun hundetermined => ?_⟩
  have hwarnings : (selectSubtitleStreams output policy.subtitleRules policy.languages).warnings = [] := by
    rw [hsubtitleSelects.warnings, hagain.subtitles]
    cases hstreams : output.subtitleStreams with
    | nil => simp [warningIf]
    | cons s' rest =>
      have hne := List.ne_nil_of_mem (hkept s' (hstreams ▸ List.mem_cons_self))
      simp [warningIf, hne]
  have hchange : (buildContainerPlan output policy.videoRules.outputContainer).changeRequired = false := by
    have htarget : plan.container.targetContainer = policy.videoRules.outputContainer := hplan ▸ rfl
    simp [buildContainerPlan, houtput.extension, htarget]
  have hmissing : (selectAudioStreams output policy.audioRules
      policy.languages).intent.missingRequiredAudio = false :=
    (selectAudioStreams_selects hagain.audio).missing
  have hambiguous : (selectSubtitleStreams output policy.subtitleRules
      policy.languages).intent.ambiguousForcedStreamIndices = [] := by
    rw [hsubtitleSelects.ambiguous, hagain.subtitles, List.map_nil]
  have hactionEq : (buildProcessingPlan output policy rename').action =
      determineAction output policy.videoRules (buildVideoPlan output policy.videoRules).plan true false
        false false := by
    show determineAction output policy.videoRules _ _ _ _ _ = _
    rw [(review_eq_false_iff output policy).mpr hagain, hchange, htranscode, hsourceTranscode, haudio,
      hsubtitles, hwarnings, output_audio_warnings hplannable hselects houtput hundetermined, hmissing,
      hambiguous]
    rfl
  rw [hactionEq, determineAction, h4k, htranscode, hsourceTranscode]
  cases (normaliseFfprobePayload source).is4k <;> simp

theorem convertedParts_valid : ∀ s ∈ ["media", "film.mp4"], ValidPart s := by decide

/-- A film in English, with full subtitles and subtitles that a flag marks for the hearing impaired. -/
def hearingImpairedFilm : ProbeFile where
  container := {
    filePath := ⟨.slash, ["media", "film.mp4"], convertedParts_valid⟩
    fileName := "film.mp4"
    extension := some "mp4" }
  streams := [
    { codecType := some "video", codecName := some "hevc", width := some 1920, height := some 1080 },
    { codecType := some "audio", codecName := some "aac", tags := [("language", "eng")] },
    { codecType := some "subtitle", codecName := some "subrip", tags := [("language", "eng")] },
    { codecType := some "subtitle", codecName := some "subrip", tags := [("language", "eng")],
      flags := ["hearing_impaired"] }]

/-- The film without subtitles. -/
def plainFilm : ProbeFile where
  container := hearingImpairedFilm.container
  streams := hearingImpairedFilm.streams.take 2

/-- The film without subtitles, with an audio track that has no language. -/
def undeterminedFilm : ProbeFile where
  container := hearingImpairedFilm.container
  streams := [
    { codecType := some "video", codecName := some "hevc", width := some 1920, height := some 1080 },
    { codecType := some "audio", codecName := some "aac" }]

/-- A policy that keeps streams in some languages, with an order of decisions. -/
def languagePolicy (keepLanguages : List String) (decisionOrder : List PolicyDecision) :
    ResolvedPlanningPolicy where
  context := {
    policyName := "default"
    policyVersion := 1
    sourcePath := ⟨.slash, ["media", "film.mp4"], convertedParts_valid⟩ }
  audioRules := { keepLanguages := keepLanguages, preferredCodecs := ["aac"] }
  subtitleRules := { keepLanguages := ["eng"], keepForcedLanguages := ["eng"] }
  videoRules := {
    non4k := {
      decisionOrder := decisionOrder
      maxVideoBitrateMbps := 20
      maxWidth := 1920 } }

/-- The plan of a film, and the plan of its ideal output. -/
def plannedTwice (film : ProbeFile) (policy : ResolvedPlanningPolicy) :
    Option (ProcessingPlan × ProcessingPlan) := do
  let plan := buildProcessingPlan (normaliseFfprobePayload film) policy { enabled := false }
  let built ← (buildExecutionCommandPlan plan ⟨.slash, ["media", "film.mp4"], convertedParts_valid⟩
    ⟨.slash, ["scratch"], by decide⟩ ⟨.slash, ["usr", "bin", "ffmpeg"], by decide⟩ none {}).toOption
  let command ← built.command
  return (plan, buildProcessingPlan (idealOutput plan command id film.container film) policy
    { enabled := false })

theorem plainFilm_converges :
    ∃ built command, buildExecutionCommandPlan
        (buildProcessingPlan (normaliseFfprobePayload plainFilm)
          (languagePolicy ["eng"] [.skip, .remux]) { enabled := false })
        ⟨.slash, ["media", "film.mp4"], by decide⟩ ⟨.slash, ["scratch"], by decide⟩
        ⟨.slash, ["usr", "bin", "ffmpeg"], by decide⟩ none {} = .ok built ∧
      built.command = some command ∧
      (buildProcessingPlan
        (idealOutput
          (buildProcessingPlan (normaliseFfprobePayload plainFilm)
            (languagePolicy ["eng"] [.skip, .remux]) { enabled := false })
          command id plainFilm.container plainFilm)
        (languagePolicy ["eng"] [.skip, .remux])
        { enabled := false }).audio.droppedStreamIndices = [] :=
  ⟨_, _, rfl, rfl, (@remux_converges plainFilm (languagePolicy ["eng"] [.skip, .remux])
    { enabled := false } { enabled := false } _ _ _ none {} _ _ plainFilm.container rfl rfl
    (by decide)).1⟩

/-- A subtitle is dropped from the output of a remux, which is remuxed again; an output that has nothing
left to do is not skipped where the order of decisions has no skip, or where a kept audio track has no
language. -/
theorem remux_diverges :
    (∃ plan again, plannedTwice hearingImpairedFilm (languagePolicy ["eng"] [.skip, .remux]) =
        some (plan, again) ∧ plan.action = .remux ∧ again.action = .remux ∧
        again.subtitles.droppedStreamIndices ≠ []) ∧
    (∃ plan again, plannedTwice plainFilm (languagePolicy ["eng"] [.remux]) = some (plan, again) ∧
        plan.action = .remux ∧ again.action = .manualReview) ∧
    ∃ plan again, plannedTwice undeterminedFilm (languagePolicy ["und"] [.skip, .remux]) =
        some (plan, again) ∧ plan.action = .remux ∧ again.action = .manualReview :=
  ⟨⟨_, _, rfl, by decide, by decide, by decide⟩, ⟨_, _, rfl, by decide, by decide⟩,
    ⟨_, _, rfl, by decide, by decide⟩⟩

/-! ## After a transcode -/

/-- A video in the target codec, within the bitrate limit: only its width can ask for a transcode. -/
theorem buildNon4kVideoPlan_transcode {stream : VideoStream} {rules : NonFourKVideoRules}
    (hcodec : stream.codecName = some rules.preferredCodec)
    (hrate : ∀ b ∈ stream.bitRate, b ≤ rules.maxVideoBitrateMbps * 1000000) :
    (buildNon4kVideoPlan stream rules).plan.transcodeRequired = false ↔
      (∀ w ∈ stream.width, w ≤ rules.maxWidth) ∨
        isLowBitrateSource stream (bucketBps stream rules.lowBitrateSkipThreshold1080pMbps
          rules.lowBitrateSkipThreshold720pMbps) = true := by
  unfold buildNon4kVideoPlan
  dsimp only
  generalize isLowBitrateSource stream _ = low
  rw [decide_eq_false (not_not.mpr hcodec)]
  cases hbitRate : stream.bitRate with
  | none => cases stream.width <;> cases low <;> simp
  | some b =>
    have hb := not_lt.mpr (hrate b hbitRate)
    cases stream.width <;> cases low <;> simp [hb]

/-- A 4K video in the target codec of a transcode is not transcoded again. -/
theorem build4kVideoPlan_transcode {stream stream' : VideoStream} {rules : FourKVideoRules}
    (h : (build4kVideoPlan stream rules).plan.transcodeRequired = true)
    (hcodec : stream'.codecName = (build4kVideoPlan stream rules).plan.targetCodec) :
    (build4kVideoPlan stream' rules).plan.transcodeRequired = false := by
  unfold build4kVideoPlan at h hcodec ⊢
  dsimp only at h hcodec ⊢
  split at h
  · cases h
  · split at h
    · cases h
    · next hmode hallow =>
      rw [if_neg hmode, if_neg hallow] at hcodec ⊢
      simpa using hcodec

/-- A transcode is allowed by the rules of its resolution. -/
theorem determineAction_allowed {media : MediaFile} {rules : VideoRules} {video : VideoPlan}
    {compliant cleanup change review : Bool}
    (h : determineAction media rules video compliant cleanup change review = .transcode) :
    media.is4k = false → rules.non4k.allowTranscode = true ∧ .transcode ∈ rules.non4k.decisionOrder := by
  intro h4k
  unfold determineAction at h
  rw [h4k] at h
  simp only [Bool.false_eq_true, if_false] at h
  split at h
  · cases h
  · split at h
    · split at h
      · next hallow => simpa using hallow
      · cases h
    · split at h
      · split at h <;> cases h
      · split at h <;> cases h

/-- **Convergence of a transcode.** A transcoded file is not transcoded again if and only if it is in
4K, its width is within the limit, or its new bitrate is a low one: the command does not scale. -/
theorem transcode_converges_iff
    (hbuilt : buildExecutionCommandPlan
      (buildProcessingPlan (normaliseFfprobePayload source) policy rename) inputPath scratchDir ffmpegPath
      jobId host = .ok built)
    (hcommand : built.command = some command)
    (haction : (buildProcessingPlan (normaliseFfprobePayload source) policy rename).action = .transcode)
    (hvideo : (normaliseFfprobePayload source).videoStreams = [v])
    (hencode : ∀ s : ProbeStream, s.type = .video → command.Encodes
      (buildProcessingPlan (normaliseFfprobePayload source) policy rename).video.targetCodec s (encode s))
    (hrate : (normaliseFfprobePayload source).is4k = false → ∀ s : ProbeStream, s.type = .video →
      ∀ b ∈ (encode s).bitRate, b ≤ policy.videoRules.non4k.maxVideoBitrateMbps * 1000000) :
    (buildProcessingPlan
        (idealOutput (buildProcessingPlan (normaliseFfprobePayload source) policy rename) command encode
          format source) policy rename').action ≠ .transcode ↔
      (normaliseFfprobePayload source).is4k = true ∨
        (∀ w ∈ v.width, w ≤ policy.videoRules.non4k.maxWidth) ∨
        isLowBitrateSource (normaliseVideoStream (encode (source.raw v.index)) 0)
          (bucketBps (normaliseVideoStream (encode (source.raw v.index)) 0)
            policy.videoRules.non4k.lowBitrateSkipThreshold1080pMbps
            policy.videoRules.non4k.lowBitrateSkipThreshold720pMbps) = true := by
  generalize hplan : buildProcessingPlan (normaliseFfprobePayload source) policy rename = plan at *
  have hexec := buildExecutionCommandPlan_executes hbuilt hcommand
  have hplannable : Plannable (normaliseFfprobePayload source) policy := by
    refine plannable_of_action rename fun h => ?_
    rw [hplan, haction] at h
    cases h
  obtain ⟨v', hselects⟩ := buildProcessingPlan_selects rename hplannable
  rw [hplan] at hselects
  obtain rfl : v' = v := by
    have h := hselects.videoStreams.symm.trans hvideo
    exact (List.cons.inj h).1
  have houtput := hselects.output format hexec fun s hs => (hencode s hs).type
  have htype : (source.raw v'.index).type = .video :=
    (video_raw hselects.videoStreams).1
  have hencoded : command.outputVideo encode (source.raw v'.index) = encode (source.raw v'.index) := by
    rw [FfmpegCommand.outputVideo, if_pos]
    rw [hexec.copies, haction]
    rfl
  rw [hencoded] at houtput
  generalize idealOutput plan command encode format source = output at *
  have hencodes := hencode _ htype
  have hsource := video_eq hvideo
  have h4k : output.is4k = (normaliseFfprobePayload source).is4k := by
    rw [houtput.is4k, is4k_of_video hvideo, ProbeStream.is4kResolution, ProbeStream.is4kResolution,
      hencodes.width hexec.scales, hencodes.height hexec.scales]
  have hintent : plan.subtitles = (selectSubtitleStreams (normaliseFfprobePayload source)
      policy.subtitleRules policy.languages).intent := hplan ▸ rfl
  have hvideoPlan : plan.video = (buildVideoPlan (normaliseFfprobePayload source) policy.videoRules).plan :=
    hplan ▸ rfl
  have htranscode : plan.video.transcodeRequired = true := by
    rw [← hplan] at haction ⊢
    exact (buildProcessingPlan_transcodes_iff (.inr haction)).mp haction
  -- Only a video that has to be transcoded is transcoded again.
  have hagain : (buildProcessingPlan output policy rename').action = .transcode →
      (buildVideoPlan output policy.videoRules).plan.transcodeRequired = true := fun h =>
    (buildProcessingPlan_transcodes_iff (.inr h)).mp h
  by_cases hfourK : (normaliseFfprobePayload source).is4k = true
  · refine iff_of_true (fun h => ?_) (.inl hfourK)
    have hnot : (buildVideoPlan output policy.videoRules).plan.transcodeRequired = false := by
      have hsourcePlan : plan.video = (build4kVideoPlan v' policy.videoRules.fourK).plan := by
        rw [hvideoPlan, buildVideoPlan, hvideo]
        simp only [hfourK, if_true]
      rw [buildVideoPlan, houtput.video]
      simp only [h4k, hfourK, if_true]
      rw [hsourcePlan] at htranscode hencodes
      exact build4kVideoPlan_transcode htranscode hencodes.codecName
    rw [hagain h] at hnot
    cases hnot
  · rw [Bool.not_eq_true] at hfourK
    have hsourcePlan : plan.video = (buildNon4kVideoPlan v' policy.videoRules.non4k).plan := by
      rw [hvideoPlan, buildVideoPlan, hvideo]
      simp only [hfourK, Bool.false_eq_true, if_false]
    have houtputPlan : buildVideoPlan output policy.videoRules = buildNon4kVideoPlan
        (normaliseVideoStream (encode (source.raw v'.index)) 0) policy.videoRules.non4k := by
      rw [buildVideoPlan, houtput.video]
      simp only [h4k, hfourK, Bool.false_eq_true, if_false]
    have hcodec : (normaliseVideoStream (encode (source.raw v'.index)) 0).codecName =
        some policy.videoRules.non4k.preferredCodec := by
      have htarget := hencodes.codecName
      rw [hsourcePlan] at htarget
      exact htarget
    have hwidth : (normaliseVideoStream (encode (source.raw v'.index)) 0).width = v'.width := by
      rw [← hsource]
      exact hencodes.width hexec.scales
    have hiff := buildNon4kVideoPlan_transcode hcodec (hrate hfourK _ htype)
    rw [hwidth] at hiff
    rw [hfourK, ← hiff, ← houtputPlan]
    simp only [Bool.false_eq_true, false_or]
    constructor
    · intro hnot
      by_contra hrequired
      rw [Bool.not_eq_false] at hrequired
      have hreview : (buildVideoPlan output policy.videoRules).requiresManualReview = false := by
        rw [houtputPlan]
        rfl
      have hplannable' := output_plannable hplannable hselects houtput hintent hreview
      have hallowed : policy.videoRules.non4k.allowTranscode = true ∧
          .transcode ∈ policy.videoRules.non4k.decisionOrder := by
        rw [← hplan] at haction
        exact determineAction_allowed haction hfourK
      refine hnot ?_
      show determineAction output policy.videoRules _ _ _ _ _ = .transcode
      rw [(review_eq_false_iff output policy).mpr hplannable', determineAction, h4k, hfourK, hrequired]
      simp [hallowed]
    · intro hrequired h
      rw [hagain h] at hrequired
      cases hrequired

/-- A film in H.264 that is wider than 1920 pixels, but not in 4K. -/
def wideFilm : ProbeFile where
  container := hearingImpairedFilm.container
  streams := [
    { codecType := some "video", codecName := some "h264", width := some 2560, height := some 1440 },
    { codecType := some "audio", codecName := some "aac", tags := [("language", "eng")] }]

/-- An encoder for HEVC at 8 Mbps. -/
def boundedEncoder (s : ProbeStream) : ProbeStream :=
  { s with codecName := some "hevc", bitRate := some 8000000 }

/-- The film is encoded as the plan asks, within the bitrate limit, and is to be encoded again. -/
theorem wideFilm_transcodes_again :
    ∃ built command, buildExecutionCommandPlan
        (buildProcessingPlan (normaliseFfprobePayload wideFilm)
          (languagePolicy ["eng"] [.skip, .remux, .transcode]) { enabled := false })
        ⟨.slash, ["media", "film.mp4"], by decide⟩ ⟨.slash, ["scratch"], by decide⟩
        ⟨.slash, ["usr", "bin", "ffmpeg"], by decide⟩ none {} = .ok built ∧
      built.command = some command ∧ command.scales = false ∧
      (buildProcessingPlan (normaliseFfprobePayload wideFilm)
        (languagePolicy ["eng"] [.skip, .remux, .transcode]) { enabled := false }).action = .transcode ∧
      (buildProcessingPlan
        (idealOutput
          (buildProcessingPlan (normaliseFfprobePayload wideFilm)
            (languagePolicy ["eng"] [.skip, .remux, .transcode]) { enabled := false })
          command boundedEncoder wideFilm.container wideFilm)
        (languagePolicy ["eng"] [.skip, .remux, .transcode]) { enabled := false }).action = .transcode :=
  ⟨_, _, rfl, rfl, by decide, by decide, by decide +kernel⟩

theorem wideFilm_converges_iff :
    ∃ built command, buildExecutionCommandPlan
        (buildProcessingPlan (normaliseFfprobePayload wideFilm)
          (languagePolicy ["eng"] [.skip, .remux, .transcode]) { enabled := false })
        ⟨.slash, ["media", "film.mp4"], by decide⟩ ⟨.slash, ["scratch"], by decide⟩
        ⟨.slash, ["usr", "bin", "ffmpeg"], by decide⟩ none {} = .ok built ∧
      built.command = some command ∧
      ((buildProcessingPlan
        (idealOutput
          (buildProcessingPlan (normaliseFfprobePayload wideFilm)
            (languagePolicy ["eng"] [.skip, .remux, .transcode]) { enabled := false })
          command boundedEncoder wideFilm.container wideFilm)
        (languagePolicy ["eng"] [.skip, .remux, .transcode]) { enabled := false }).action ≠ .transcode ↔
        (normaliseFfprobePayload wideFilm).is4k = true ∨ (∀ w ∈ some (2560 : Int), w ≤ 1920) ∨
          isLowBitrateSource (normaliseVideoStream (boundedEncoder (wideFilm.raw 0)) 0)
            (bucketBps (normaliseVideoStream (boundedEncoder (wideFilm.raw 0)) 0) 3 (3 / 2)) = true) :=
  ⟨_, _, rfl, rfl, @transcode_converges_iff wideFilm
    (languagePolicy ["eng"] [.skip, .remux, .transcode])
    { index := 0, codecName := some "h264", width := some 2560, height := some 1440 }
    { enabled := false } { enabled := false } _ _ _ none {} _ _ wideFilm.container boundedEncoder rfl rfl
    (by decide) (by decide) (fun _ hs => ⟨hs, rfl, fun _ => rfl, fun _ => rfl⟩)
    fun _ _ _ b hb => by
      obtain rfl := Option.some.inj hb
      decide⟩

end Commands

end Convergence

end Encodr
