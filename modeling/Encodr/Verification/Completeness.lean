import Encodr.Execution.IdealOutput
import Encodr.Verification.Rules

/-!
# Completeness of the verification

Whether the ideal output of a plan passes its verification. Every check passes but one: the builder
clears the forced flag of a subtitle that is kept as another one, and the verifier compares it.

* `selectionMatches_mapIdx`, `defaultIsAt_mapIdx`: the checks of tracks that are copied in order.
* `LosesForcedFlag`: a kept subtitle that is forced by its flag only.
* `ideal_output_passes_iff`: the ideal output passes exactly when no subtitle loses its flag.
-/

namespace Encodr

open Python Lib

/-! ## Tracks that are copied in order -/

section Tracks

variable {α : Type} {index : α → Int} {same : α → α → Bool} {isDefault : α → Bool}
  {copy : Nat → α → α} {streams selected : List α} {s : α}

/-- A track has a copy. -/
theorem exists_mem_mapIdx (copy : Nat → α → α) (hs : s ∈ selected) :
    ∃ i, copy i s ∈ selected.mapIdx copy := by
  obtain ⟨i, hi, rfl⟩ := List.getElem_of_mem hs
  exact ⟨i, List.mem_mapIdx.mpr ⟨i, hi, rfl⟩⟩

/-- The planned streams are the selected ones. -/
theorem plannedStreams_eq (hsub : selected ⊆ streams) (hnodup : (streams.map index).Nodup) :
    plannedStreams index streams (selected.map index) = selected := by
  rw [plannedStreams, List.filterMap_map]
  refine (List.filterMap_congr fun s hs => ?_).trans List.filterMap_some
  rw [Function.comp_apply]
  cases hfind : streams.reverse.find? fun t => index t = index s with
  | none =>
    have hnone := List.find?_eq_none.mp hfind s (List.mem_reverse.mpr (hsub hs))
    simp at hnone
  | some t =>
    have hindex : index t = index s := by simpa using List.find?_some hfind
    have ht := List.mem_reverse.mp (List.mem_of_find?_eq_some hfind)
    rw [List.inj_on_of_nodup_map hnodup ht (hsub hs) hindex]

/-- Copies match the plan when each copy matches its stream. -/
theorem selectionMatches_mapIdx (hsub : selected ⊆ streams) (hnodup : (streams.map index).Nodup) :
    selectionMatches index same streams (selected.mapIdx copy) (selected.map index) = true ↔
      ∀ i, ∀ h : i < selected.length, same (copy i selected[i]) selected[i] = true := by
  rw [selectionMatches, plannedStreams_eq hsub hnodup, if_neg (by simp), if_neg (by simp), List.all_eq_true]
  constructor
  · intro h i hi
    refine h (copy i selected[i], selected[i]) (List.mem_iff_getElem.mpr ⟨i, by simpa using hi, ?_⟩)
    simp
  · intro h p hp
    obtain ⟨i, hi, rfl⟩ := List.getElem_of_mem hp
    have hlt : i < selected.length := by simpa using hi
    simpa using h i hlt

/-- Where the main track alone is the default one, it is so at its place. -/
theorem defaultIsAt_mapIdx {main : Int} (hmain : main ∈ selected.map index)
    (hnodup : (selected.map index).Nodup)
    (hdefault : ∀ i, ∀ s ∈ selected, isDefault (copy i s) = decide (index s = main)) :
    defaultIsAt isDefault (selected.mapIdx copy) (selected.map index) main = true := by
  rw [defaultIsAt, if_pos hmain, List.all_eq_true]
  intro p hp
  have hget := List.mem_zipIdx_iff_getElem?.mp hp
  obtain ⟨hlt, hp1⟩ := List.getElem?_eq_some_iff.mp hget
  have hlen : p.2 < selected.length := by simpa using hlt
  have hcopy : p.1 = copy p.2 selected[p.2] := by
    rw [← hp1, List.getElem_mapIdx]
  have hplace : p.2 = (selected.map index).idxOf main ↔ index selected[p.2] = main := by
    have hlenMap : p.2 < (selected.map index).length := by simpa using hlen
    have hidx := hnodup.idxOf_getElem p.2 hlenMap
    rw [List.getElem_map] at hidx
    constructor
    · intro h
      have hget := List.getElem_idxOf (List.idxOf_lt_length_iff.mpr hmain)
      rw [List.getElem_map] at hget
      simpa [h] using hget
    · rintro rfl
      exact hidx.symm
  rw [hcopy, hdefault _ _ (List.getElem_mem hlen), beq_iff_eq, decide_eq_decide]
  exact hplace.symm

end Tracks

/-! ## The checks of the ideal output -/

section Checks

variable {source : ProbeFile} {policy : ResolvedPlanningPolicy} {plan : ProcessingPlan}
  {encoded : ProbeStream} {audioTracks : List AudioStream} {subtitleTracks : List SubtitleStream}
  {output media : MediaFile} {rules : AudioRules} {subtitleRules : SubtitleRules}
  {languages : LanguagePreferences} {v : VideoStream}

/-- The probed streams of a media file have different indices. -/
theorem audioStreams_nodup (source : ProbeFile) :
    ((normaliseFfprobePayload source).audioStreams.map (·.index)).Nodup :=
  ProbeFile.nodup_streamsOf AudioStream.index fun _ _ => rfl

theorem subtitleStreams_nodup (source : ProbeFile) :
    ((normaliseFfprobePayload source).subtitleStreams.map (·.index)).Nodup :=
  ProbeFile.nodup_streamsOf SubtitleStream.index fun _ _ => rfl

/-- The tracks of a plan, each selected once. -/
theorem PlanSelects.audio_nodup (h : PlanSelects source plan v audioTracks subtitleTracks)
    (hnodup : audioTracks.Nodup) : (audioTracks.map (·.index)).Nodup :=
  hnodup.map_on fun _ hs _ ht heq =>
    List.inj_on_of_nodup_map (audioStreams_nodup source) (h.audio_subset hs) (h.audio_subset ht) heq

theorem PlanSelects.subtitles_nodup (h : PlanSelects source plan v audioTracks subtitleTracks)
    (hnodup : subtitleTracks.Nodup) : (subtitleTracks.map (·.index)).Nodup :=
  hnodup.map_on fun _ hs _ ht heq =>
    List.inj_on_of_nodup_map (subtitleStreams_nodup source) (h.subtitles_subset hs)
      (h.subtitles_subset ht) heq

section Audio

variable (hplan : PlanSelects source plan v audioTracks subtitleTracks)
  (houtput : IdealOutput source plan encoded audioTracks subtitleTracks output)
  (hintent : ∃ r : AudioSelectionResult, plan.audio = r.intent ∧
    r.Selects (normaliseFfprobePayload source) rules audioTracks)

include hplan houtput

theorem audioSelection_passes :
    audioStreamSelectionMatchesPlan (normaliseFfprobePayload source) plan output = true := by
  rw [audioStreamSelectionMatchesPlan, houtput.audio, hplan.audio,
    selectionMatches_mapIdx hplan.audio_subset (audioStreams_nodup source)]
  intro i hi
  have hcopy := copiedAudio_copy plan i (hplan.audio_subset (List.getElem_mem hi))
  simp [audioStreamMatches, AudioStream.language, hcopy.tags, hcopy.codecName, hcopy.channels]

include hintent

theorem requiredAudio_passes (hne : audioTracks ≠ []) : hasRequiredAudio plan output = true := by
  obtain ⟨r, hr, hselects⟩ := hintent
  obtain ⟨s, hs⟩ := List.exists_mem_of_ne_nil _ hne
  have hrequired : plan.audio.requiredLanguageCodes = uniqueLanguages (audioTracks.map (·.language)) := by
    rw [hr, hselects.requiredLanguages]
  have hmem : languageCode s.language ∈ plan.audio.requiredLanguageCodes := by
    rw [hrequired]
    exact mem_uniqueLanguages.mpr ⟨s.language, List.mem_map_of_mem hs, rfl⟩
  have hsome : plan.audio.requiredLanguageCodes.isEmpty = false := by
    simpa using List.ne_nil_of_mem hmem
  unfold hasRequiredAudio
  split
  · rfl
  · rw [if_neg (by simp [hsome]), List.all_eq_true]
    intro language hlanguage
    rw [hrequired] at hlanguage
    obtain ⟨value, hvalue, rfl⟩ := mem_uniqueLanguages.mp hlanguage
    obtain ⟨t, ht, rfl⟩ := List.mem_map.mp hvalue
    obtain ⟨i, hi⟩ := exists_mem_mapIdx (copiedAudio source plan) ht
    have hcopy := copiedAudio_copy plan i (hplan.audio_subset ht)
    rw [decide_eq_true_eq, houtput.audio]
    exact List.mem_map.mpr ⟨_, hi, hcopy.language⟩

theorem audioDefault_passes (hnodup : audioTracks.Nodup) :
    audioDefaultDispositionMatchesPlan plan output = true := by
  obtain ⟨r, hr, hselects⟩ := hintent
  unfold audioDefaultDispositionMatchesPlan
  split
  · next hnil =>
    have htracks : audioTracks = [] := by simpa [hplan.audio] using hnil
    simp [houtput.audio, htracks]
  · next first rest hcons =>
    have hprimary : plan.audio.primaryStreamIndex = some first := by
      rw [hr, hselects.primary, ← List.head?_map, ← hplan.audio, hcons, List.head?_cons]
    rw [hprimary, Option.getD_some, ← hcons, hplan.audio, houtput.audio]
    refine defaultIsAt_mapIdx ?_ (hplan.audio_nodup hnodup) fun i s hs => ?_
    · rw [← hplan.audio, hcons]
      exact List.mem_cons_self
    · rw [copiedAudio_default, decide_eq_decide, audioDisposition, hprimary]
      by_cases hsame : first = s.index
      · simp [hsame]
      · simp [hsame, Ne.symm hsame]

theorem surround_passes : retainsRequiredSurround plan output = true := by
  obtain ⟨r, hr, hselects⟩ := hintent
  rw [retainsRequiredSurround, hr, hselects.surround, houtput.surround, houtput.audio, Bool.or_eq_true,
    List.isEmpty_iff, List.map_eq_nil_iff, List.filter_eq_nil_iff]
  by_cases hall : ∀ s ∈ audioTracks, ¬s.isSurroundCandidate = true
  · exact .inl hall
  · obtain ⟨s, hs, hsurround⟩ : ∃ s ∈ audioTracks, s.isSurroundCandidate = true := by
      simpa using hall
    obtain ⟨i, hi⟩ := exists_mem_mapIdx (copiedAudio source plan) hs
    refine .inr (List.any_eq_true.mpr ⟨_, hi, ?_⟩)
    rw [(copiedAudio_copy _ _ (hplan.audio_subset hs)).surround, hsurround]

theorem atmos_passes : retainsRequiredAtmos plan output = true := by
  obtain ⟨r, hr, hselects⟩ := hintent
  rw [retainsRequiredAtmos, hr, hselects.atmos, houtput.atmos, houtput.audio, Bool.or_eq_true,
    List.isEmpty_iff, List.map_eq_nil_iff, List.filter_eq_nil_iff]
  by_cases hall : ∀ s ∈ audioTracks, ¬s.isAtmosCapable = true
  · exact .inl hall
  · obtain ⟨s, hs, hatmos⟩ : ∃ s ∈ audioTracks, s.isAtmosCapable = true := by
      simpa using hall
    obtain ⟨i, hi⟩ := exists_mem_mapIdx (copiedAudio source plan) hs
    refine .inr (List.any_eq_true.mpr ⟨_, hi, ?_⟩)
    rw [(copiedAudio_copy _ _ (hplan.audio_subset hs)).atmos, hatmos]

end Audio

section Subtitles

/-- The flag of a subtitle is forced exactly where it is kept as a forced one. -/
theorem mem_forcedIndices {s : SubtitleStream}
    (hs : s ∈ (normaliseFfprobePayload source).subtitleStreams) :
    s.index ∈ (forcedSubtitles (normaliseFfprobePayload source) subtitleRules languages).map (·.index) ↔
      s ∈ forcedSubtitles (normaliseFfprobePayload source) subtitleRules languages := by
  constructor
  · intro h
    obtain ⟨t, ht, heq⟩ := List.mem_map.mp h
    rwa [← List.inj_on_of_nodup_map (subtitleStreams_nodup source) (mem_forcedSubtitles.mp ht).2.1 hs heq]
  · exact fun h => List.mem_map_of_mem h

variable (hplan : PlanSelects source plan v audioTracks subtitleTracks)
  (houtput : IdealOutput source plan encoded audioTracks subtitleTracks output)
  (hintent : ∃ r : SubtitleSelectionResult, plan.subtitles = r.intent ∧
    r.Selects (normaliseFfprobePayload source) subtitleRules languages subtitleTracks)

include hplan houtput hintent

/-- The copies of the subtitles match the plan unless one of them loses its forced flag. -/
theorem subtitleSelection_passes_iff :
    subtitleStreamSelectionMatchesPlan (normaliseFfprobePayload source) plan output = true ↔
      ∀ s ∈ subtitleTracks, s.disposition.forced = true →
        s ∉ forcedSubtitles (normaliseFfprobePayload source) subtitleRules languages →
        (source.raw s.index).namesForced = true := by
  obtain ⟨r, hr, hselects⟩ := hintent
  rw [subtitleStreamSelectionMatchesPlan, houtput.subtitles, hplan.subtitles,
    selectionMatches_mapIdx hplan.subtitles_subset (subtitleStreams_nodup source), List.forall_mem_iff_getElem]
  refine forall_congr' fun i => forall_congr' fun hi => ?_
  have hmem := hplan.subtitles_subset (List.getElem_mem hi)
  generalize subtitleTracks[i] = s at hmem
  have hcopy := copiedSubtitle_copy plan i hmem
  have hforced : (copiedSubtitle source plan i s).disposition.forced =
      decide (s ∈ forcedSubtitles (normaliseFfprobePayload source) subtitleRules languages) := by
    rw [hcopy.forced, hr, hselects.forced, decide_eq_decide]
    exact mem_forcedIndices hmem
  have hsource : s ∈ forcedSubtitles (normaliseFfprobePayload source) subtitleRules languages →
      s.disposition.forced = true := fun h => (mem_forcedSubtitles.mp h).2.2.2
  rw [subtitleStreamMatches, SubtitleStream.language, hcopy.tags, hcopy.codecName, hcopy.isForced, hforced,
    subtitle_isForced hmem]
  by_cases hkept : s ∈ forcedSubtitles (normaliseFfprobePayload source) subtitleRules languages
  · simp [SubtitleStream.language, hkept, hsource hkept]
  · cases s.disposition.forced <;> cases (source.raw s.index).namesForced <;>
      simp [SubtitleStream.language, hkept]

theorem requiredSubtitles_passes
    (hforced : forcedSubtitles (normaliseFfprobePayload source) subtitleRules languages ⊆ subtitleTracks) :
    hasRequiredSubtitles plan output = true := by
  obtain ⟨r, hr, hselects⟩ := hintent
  have hrequired : plan.subtitles.requiredLanguageCodes =
      uniqueLanguages (subtitleTracks.map (·.language)) := by
    rw [hr, hselects.requiredLanguages]
  have hrequiredForced : plan.subtitles.requiredForcedLanguageCodes = uniqueLanguages
      ((forcedSubtitles (normaliseFfprobePayload source) subtitleRules languages).map (·.language)) := by
    rw [hr, hselects.forcedLanguages]
  have hindices : plan.subtitles.selectedStreamIndices = subtitleTracks.map (·.index) := by
    rw [hr, hselects.selectedIndices]
  have hforcedIndices : plan.subtitles.forcedStreamIndices =
      (forcedSubtitles (normaliseFfprobePayload source) subtitleRules languages).map (·.index) := by
    rw [hr, hselects.forced]
  -- Each selected track has a copy in its language.
  have hcopies : ∀ s ∈ subtitleTracks, ∃ s' ∈ output.subtitleStreams, SubtitleCopy source plan s s' := by
    intro s hs
    obtain ⟨i, hi⟩ := exists_mem_mapIdx (copiedSubtitle source plan) hs
    exact ⟨_, houtput.subtitles ▸ hi, copiedSubtitle_copy _ _ (hplan.subtitles_subset hs)⟩
  unfold hasRequiredSubtitles
  split
  · rfl
  · next hselected =>
    obtain ⟨s, hs⟩ : ∃ s, s ∈ subtitleTracks := by
      refine List.exists_mem_of_ne_nil _ fun hnil => hselected ?_
      rw [hindices, hnil]
      rfl
    obtain ⟨s', hs', hcopy⟩ := hcopies s hs
    have hlanguages : (plan.subtitles.requiredLanguageCodes.all
        (· ∈ output.subtitleStreams.map fun s => languageCode s.language)) = true := by
      rw [List.all_eq_true]
      intro language hlanguage
      rw [hrequired] at hlanguage
      obtain ⟨value, hvalue, rfl⟩ := mem_uniqueLanguages.mp hlanguage
      obtain ⟨t, ht, rfl⟩ := List.mem_map.mp hvalue
      obtain ⟨t', ht', hcopy⟩ := hcopies t ht
      rw [decide_eq_true_eq]
      exact List.mem_map.mpr ⟨t', ht', hcopy.language⟩
    rw [if_neg (by simpa using List.ne_nil_of_mem hs')]
    dsimp only
    rw [hlanguages, if_neg (by simp)]
    split
    · next hsome =>
      obtain ⟨f, hf⟩ : ∃ f, f ∈ forcedSubtitles (normaliseFfprobePayload source) subtitleRules
          languages := by
        refine List.exists_mem_of_ne_nil _ fun hnil => ?_
        simp [hforcedIndices, hnil] at hsome
      have hsomeLanguage : languageCode f.language ∈ plan.subtitles.requiredForcedLanguageCodes := by
        rw [hrequiredForced]
        exact mem_uniqueLanguages.mpr ⟨f.language, List.mem_map_of_mem hf, rfl⟩
      rw [if_pos (by simpa using List.ne_nil_of_mem hsomeLanguage), List.all_eq_true]
      intro language hlanguage
      rw [hrequiredForced] at hlanguage
      obtain ⟨value, hvalue, rfl⟩ := mem_uniqueLanguages.mp hlanguage
      obtain ⟨t, ht, rfl⟩ := List.mem_map.mp hvalue
      obtain ⟨t', ht', hcopy⟩ := hcopies t (hforced ht)
      have hflag : t'.disposition.forced = true := by
        rw [hcopy.forced, hforcedIndices, decide_eq_true_eq]
        exact List.mem_map_of_mem ht
      rw [decide_eq_true_eq]
      exact List.mem_map.mpr ⟨t', List.mem_filter.mpr ⟨ht', by simp [hflag]⟩, hcopy.language⟩
    · have hsomeLanguage : languageCode s.language ∈ plan.subtitles.requiredLanguageCodes := by
        rw [hrequired]
        exact mem_uniqueLanguages.mpr ⟨s.language, List.mem_map_of_mem hs, rfl⟩
      rw [if_pos (by simpa using List.ne_nil_of_mem hsomeLanguage)]

theorem subtitleDefault_passes (hnodup : subtitleTracks.Nodup)
    (hmain : mainSubtitles (normaliseFfprobePayload source) subtitleRules ⊆ subtitleTracks) :
    subtitleDefaultDispositionMatchesPlan plan output = true := by
  obtain ⟨r, hr, hselects⟩ := hintent
  have hmainIndex : plan.subtitles.mainStreamIndex =
      (mainSubtitles (normaliseFfprobePayload source) subtitleRules).head?.map (·.index) := by
    rw [hr, hselects.main]
  -- Without a main subtitle no copy is the default one.
  have hnone : plan.subtitles.mainStreamIndex = none ∨ subtitleTracks = [] →
      output.subtitleStreams.any (·.disposition.default) = false := by
    intro h
    rw [houtput.subtitles, List.any_eq_false]
    intro s' hs'
    obtain ⟨i, hi, rfl⟩ := List.mem_mapIdx.mp hs'
    rw [(copiedSubtitle_copy _ _ (hplan.subtitles_subset (List.getElem_mem hi))).default]
    rcases h with h | h
    · simp [h]
    · simp [h] at hi
  unfold subtitleDefaultDispositionMatchesPlan
  split
  · next hnil =>
    rw [hnone (.inr (by simpa [hplan.subtitles] using hnil)), Bool.not_false]
  · next hcons hmainNone => rw [hnone (.inl hmainNone), Bool.not_false]
  · next main hmainSome hcons =>
    obtain ⟨m, hm, hindex⟩ : ∃ m ∈ mainSubtitles (normaliseFfprobePayload source) subtitleRules,
        m.index = main := by
      rw [hmainIndex] at hmainSome
      obtain ⟨m, hhead, hindex⟩ := Option.map_eq_some_iff.mp hmainSome
      exact ⟨m, List.mem_of_mem_head? hhead, hindex⟩
    rw [hplan.subtitles, houtput.subtitles]
    refine defaultIsAt_mapIdx ?_ (hplan.subtitles_nodup hnodup) fun i s hs => ?_
    · rw [← hindex]
      exact List.mem_map_of_mem (hmain hm)
    · have hmem := hplan.subtitles_subset hs
      rw [(copiedSubtitle_copy _ _ hmem).default, decide_eq_decide, hmainSome, hr, hselects.forced,
        mem_forcedIndices hmem]
      constructor
      · exact fun h => (Option.some.inj h.2).symm
      · rintro rfl
        refine ⟨fun hforced => ?_, rfl⟩
        -- The main subtitle is not flagged as forced.
        have hmainMem := (mem_mainCandidates.mp (mainSubtitles_candidate hm))
        have hsame := List.inj_on_of_nodup_map (subtitleStreams_nodup source) hmainMem.1 hmem hindex
        have hflag := (mem_forcedSubtitles.mp hforced).2.2.2
        rw [← hsame, hmainMem.2.2.1] at hflag
        cases hflag

end Subtitles

/-- The resolution of a file with one video stream is that of the stream. -/
theorem is4k_of_video (h : (normaliseFfprobePayload source).videoStreams = [v]) :
    (normaliseFfprobePayload source).is4k = (source.raw v.index).is4kResolution := by
  obtain ⟨⟨r, n⟩, hof, hv⟩ : ∃ p, source.ofType .video = [p] ∧ normaliseVideoStream p.1 p.2 = v := by
    have hmap : (source.ofType .video).map (fun p => normaliseVideoStream p.1 p.2) = [v] := h
    obtain ⟨p, hp, hpv⟩ := List.map_eq_singleton_iff.mp hmap
    exact ⟨p, hp, hpv⟩
  have hr : source.raw v.index = r := by
    have hmem := (ProbeFile.mem_ofType.mp (hof ▸ List.mem_singleton_self (r, n))).1
    have hindex : v.index = n := by rw [← hv, normaliseVideoStream]
    rw [hindex, ProbeFile.raw, Int.toNat_natCast, hmem, Option.getD_some]
  have hany : (normaliseFfprobePayload source).is4k =
      (source.ofType .video).any fun p => p.1.is4kResolution := rfl
  rw [hany, hof, hr]
  simp

theorem shape_passes (hplan : PlanSelects source plan v audioTracks subtitleTracks)
    (houtput : IdealOutput source plan encoded audioTracks subtitleTracks output)
    (hunknown : plan.selectedStreams.unknownStreamIndices = []) :
    hasExpectedSelectedStreamShape plan output = true := by
  simp [hasExpectedSelectedStreamShape, houtput.video, houtput.audio, houtput.subtitles,
    houtput.attachments, houtput.data, houtput.unknown, hplan.video, hplan.audio, hplan.subtitles,
    hunknown]

theorem video_passes (houtput : IdealOutput source plan encoded audioTracks subtitleTracks output)
    (hcodec : plan.video.transcodeRequired = true → encoded.codecName = plan.video.targetCodec) :
    hasRequiredVideo plan output = true := by
  have hname : (normaliseVideoStream encoded 0).codecName = encoded.codecName := rfl
  unfold hasRequiredVideo
  split
  · rfl
  · next hnil =>
    rw [houtput.video] at hnil
    cases hnil
  · rfl
  · next stream rest codec _ hcons htarget =>
    rw [houtput.video] at hcons
    obtain ⟨rfl, -⟩ := List.cons.inj hcons
    by_cases ht : plan.video.transcodeRequired = true
    · simp [hname, hcodec ht, htarget]
    · simp [ht]

theorem fourK_passes (houtput : IdealOutput source plan encoded audioTracks subtitleTracks output)
    (h : plan.video.preserveOriginal = true →
      encoded.is4kResolution = (normaliseFfprobePayload source).is4k) :
    retainsRequired4k (normaliseFfprobePayload source) plan output = true := by
  rw [retainsRequired4k, houtput.is4k]
  by_cases hpreserve : plan.video.preserveOriginal = true
  · rw [h hpreserve]
    cases (normaliseFfprobePayload source).is4k <;> simp
  · simp [hpreserve]

end Checks

/-! ## The ideal output -/

section Ideal

variable {source : ProbeFile} {policy : ResolvedPlanningPolicy} {rename : RenamePlan}
  {inputPath scratchDir ffmpegPath : PosixPath} {jobId : Option String} {host : ExecutionHost}
  {built : ExecutionCommandPlan} {command : FfmpegCommand} {encode : ProbeStream → ProbeStream}

/-- A subtitle that is forced by its flag only, and is kept for another reason. -/
structure LosesForcedFlag (source : ProbeFile) (policy : ResolvedPlanningPolicy) (s : SubtitleStream) :
    Prop where
  mem : s ∈ (normaliseFfprobePayload source).subtitleStreams
  flag : s.disposition.forced = true
  unnamed : (source.raw s.index).namesForced = false
  notForced : policy.languages.preserveForcedSubtitles = true →
    languageCode s.language ∉ orderedLanguageCodes policy.subtitleRules.keepForcedLanguages
  kept : policy.subtitleRules.dropOtherSubtitles = false ∨
    policy.subtitleRules.keepHearingImpaired = true ∧
      languageCode s.language ∈ orderedLanguageCodes policy.subtitleRules.keepLanguages ∧
      BestHearingImpaired (normaliseFfprobePayload source) s

/-- The subtitles that lose their forced flag are kept ones. -/
theorem losesForcedFlag_iff {s : SubtitleStream}
    (hs : s ∈ (normaliseFfprobePayload source).subtitleStreams) : LosesForcedFlag source policy s ↔
      s ∈ selectedSubtitles (normaliseFfprobePayload source) policy.subtitleRules policy.languages ∧
        s.disposition.forced = true ∧
        s ∉ forcedSubtitles (normaliseFfprobePayload source) policy.subtitleRules policy.languages ∧
        (source.raw s.index).namesForced = false := by
  have hforced : s.disposition.forced = true →
      (s ∉ forcedSubtitles (normaliseFfprobePayload source) policy.subtitleRules policy.languages ↔
        (policy.languages.preserveForcedSubtitles = true →
          languageCode s.language ∉ orderedLanguageCodes policy.subtitleRules.keepForcedLanguages)) := by
    intro hflag
    rw [mem_forcedSubtitles]
    tauto
  by_cases hdrop : policy.subtitleRules.dropOtherSubtitles = true
  · rw [mem_selectedSubtitles hdrop, hearingImpairedSubtitles_iff (subtitleStreams_nodup source)]
    constructor
    · intro h
      rcases h.kept with hkept | ⟨hkeep, hlanguage, hbest⟩
      · rw [hdrop] at hkept
        cases hkept
      · exact ⟨.inr (.inr ⟨hkeep, hs, hlanguage, hbest⟩), h.flag, (hforced h.flag).mpr h.notForced,
          h.unnamed⟩
    · rintro ⟨hkept, hflag, hnot, hunnamed⟩
      refine ⟨hs, hflag, hunnamed, (hforced hflag).mp hnot, .inr ?_⟩
      rcases hkept with hkept | hkept | ⟨hkeep, -, hlanguage, hbest⟩
      · exact absurd hkept hnot
      · -- A full subtitle is not flagged as forced.
        have hmain := (mem_mainCandidates.mp (mainSubtitles_candidate hkept)).2.2.1
        rw [hflag] at hmain
        cases hmain
      · exact ⟨hkeep, hlanguage, hbest⟩
  · rw [Bool.not_eq_true] at hdrop
    rw [selectedSubtitles, if_neg (by simp [hdrop])]
    constructor
    · exact fun h => ⟨hs, h.flag, (hforced h.flag).mpr h.notForced, h.unnamed⟩
    · rintro ⟨-, hflag, hnot, hunnamed⟩
      exact ⟨hs, hflag, hunnamed, (hforced hflag).mp hnot, .inl hdrop⟩

/-- **Completeness.** The ideal output of a plan passes its verification if and only if no kept
subtitle is forced by its flag only, other than as a forced one. -/
theorem ideal_output_passes_iff {format : ContainerFormat}
    (hbuilt : buildExecutionCommandPlan
      (buildProcessingPlan (normaliseFfprobePayload source) policy rename) inputPath scratchDir ffmpegPath
      jobId host = .ok built)
    (hcommand : built.command = some command)
    (hencode : ∀ s : ProbeStream, s.type = .video → command.Encodes
      (buildProcessingPlan (normaliseFfprobePayload source) policy rename).video.targetCodec s (encode s)) :
    (verifyOutput (buildProcessingPlan (normaliseFfprobePayload source) policy rename)
        (normaliseFfprobePayload source)
        (.media (idealOutput (buildProcessingPlan (normaliseFfprobePayload source) policy rename) command
          encode format source))).passed = true ↔
      ∀ s, ¬ LosesForcedFlag source policy s := by
  generalize hplan : buildProcessingPlan (normaliseFfprobePayload source) policy rename = plan at *
  have haction := buildExecutionCommandPlan_action hbuilt hcommand
  have hexec := buildExecutionCommandPlan_executes hbuilt hcommand
  have hplannable : Plannable (normaliseFfprobePayload source) policy := by
    refine plannable_of_action rename fun h => ?_
    rw [hplan] at h
    rcases haction with h' | h' <;> rw [h] at h' <;> cases h'
  obtain ⟨v, hselects⟩ := buildProcessingPlan_selects rename hplannable
  rw [hplan] at hselects
  have houtput := hselects.output format hexec fun s hs => (hencode s hs).type
  generalize idealOutput plan command encode format source = output at *
  have haudio : ∃ r : AudioSelectionResult, plan.audio = r.intent ∧
      r.Selects (normaliseFfprobePayload source) policy.audioRules
        (selectedAudio (normaliseFfprobePayload source) policy.audioRules) := by
    refine ⟨selectAudioStreams (normaliseFfprobePayload source) policy.audioRules policy.languages, ?_,
      selectAudioStreams_selects hplannable.audio⟩
    rw [← hplan]
    rfl
  have hsubtitles : ∃ r : SubtitleSelectionResult, plan.subtitles = r.intent ∧
      r.Selects (normaliseFfprobePayload source) policy.subtitleRules policy.languages
        (selectedSubtitles (normaliseFfprobePayload source) policy.subtitleRules policy.languages) :=
    ⟨_, hplan ▸ rfl, selectSubtitleStreams_selects _ _ _⟩
  have hsubtitlesNodup := selectedSubtitles_nodup policy.subtitleRules policy.languages
    (List.Nodup.of_map _ (subtitleStreams_nodup source))
  have htranscode : plan.action = .transcode ↔ plan.video.transcodeRequired = true := by
    rw [← hplan] at haction ⊢
    exact buildProcessingPlan_transcodes_iff haction
  have hpreserve : plan.video.preserveOriginal = !plan.video.transcodeRequired := by
    rw [← hplan]
    exact buildVideoPlan_preserveOriginal _ _
  have hvideo : (source.raw v.index).type = .video :=
    (video_raw hselects.videoStreams).1
  rw [verifyOutput_passed_iff]
  constructor
  · rintro ⟨_, hmedia, hchecks⟩ s hloses
    obtain rfl := Probe.media.inj hmedia
    have hcheck : subtitleStreamSelectionMatchesPlan (normaliseFfprobePayload source) plan output = true :=
      hchecks ⟨"subtitle_stream_selection_satisfied",
        "Output subtitle streams match the selected plan order and metadata.",
        subtitleStreamSelectionMatchesPlan (normaliseFfprobePayload source) plan output⟩
        (by simp [outputChecks])
    obtain ⟨hkept, hflag, hnot, hunnamed⟩ := (losesForcedFlag_iff hloses.mem).mp hloses
    have hnamed := (subtitleSelection_passes_iff hselects houtput hsubtitles).mp hcheck s hkept hflag hnot
    rw [hunnamed] at hnamed
    cases hnamed
  · intro hkeeps
    refine ⟨output, rfl, ?_⟩
    have hsubtitleCheck := (subtitleSelection_passes_iff hselects houtput hsubtitles).mpr
      fun s hs hflag hnot => by
        by_contra hunnamed
        exact hkeeps s ((losesForcedFlag_iff (hselects.subtitles_subset hs)).mpr
          ⟨hs, hflag, hnot, Bool.eq_false_iff.mpr hunnamed⟩)
    have hvideoCheck : hasRequiredVideo plan output = true := by
      refine video_passes houtput fun ht => ?_
      have hnotCopied : command.copiesVideo = false := by
        rw [hexec.copies, htranscode.mpr ht]
        rfl
      rw [FfmpegCommand.outputVideo, if_pos hnotCopied]
      exact (hencode _ hvideo).codecName
    have hfourK : retainsRequired4k (normaliseFfprobePayload source) plan output = true := by
      refine fourK_passes houtput fun hkept => ?_
      rw [hpreserve, Bool.not_eq_true'] at hkept
      have hremux : plan.action = .remux := by
        rcases haction with h | h
        · exact h
        · rw [htranscode.mp h] at hkept
          cases hkept
      have hcopied : command.copiesVideo = true := by
        rw [hexec.copies, hremux]
        rfl
      rw [FfmpegCommand.outputVideo, if_neg (by simp [hcopied]), is4k_of_video hselects.videoStreams]
    intro c hc
    simp only [outputChecks, List.mem_cons, List.not_mem_nil, or_false] at hc
    rcases hc with rfl | rfl | rfl | rfl | rfl | rfl | rfl | rfl | rfl | rfl | rfl | rfl
    · simp [outputContainerMatches, houtput.extension]
    · exact requiredAudio_passes hselects houtput haudio (selectedAudio_ne_nil hplannable.audio)
    · exact requiredSubtitles_passes hselects houtput hsubtitles fun s hs => forcedSubtitles_selected hs
    · exact shape_passes hselects houtput (hplan ▸ rfl)
    · exact audioSelection_passes hselects houtput
    · exact hsubtitleCheck
    · exact audioDefault_passes hselects houtput haudio selectedAudio_nodup
    · exact subtitleDefault_passes hselects houtput hsubtitles hsubtitlesNodup
        fun s hs => mainSubtitles_selected hs
    · exact hvideoCheck
    · exact hfourK
    · exact surround_passes hselects houtput haudio
    · exact atmos_passes hselects houtput haudio

/-- A film in English, with French subtitles that are forced by their flag only. -/
def frenchSubtitleFilm : ProbeFile where
  container := {
    filePath := ⟨.slash, ["media", "film.mp4"], by decide⟩
    fileName := "film.mp4"
    extension := some "mp4" }
  streams := [
    { codecType := some "video", codecName := some "hevc", width := some 1920, height := some 1080 },
    { codecType := some "audio", codecName := some "aac", tags := [("language", "eng")] },
    { codecType := some "subtitle", codecName := some "subrip", tags := [("language", "fre")],
      flags := ["forced"] }]

/-- A policy that keeps all subtitles, and English ones as forced. -/
def keepSubtitlesPolicy : ResolvedPlanningPolicy where
  context := {
    policyName := "default"
    policyVersion := 1
    sourcePath := ⟨.slash, ["media", "film.mp4"], by decide⟩ }
  audioRules := { keepLanguages := ["eng"], preferredCodecs := ["aac"] }
  subtitleRules := {
    keepLanguages := ["eng"]
    keepForcedLanguages := ["eng"]
    dropOtherSubtitles := false }
  videoRules := {
    non4k := {
      decisionOrder := [.skip, .remux, .transcode]
      maxVideoBitrateMbps := 20
      maxWidth := 1920 } }

/-- An encoder for HEVC, which keeps the dimensions. -/
def hevcEncoder (s : ProbeStream) : ProbeStream :=
  { s with codecName := some "hevc" }

theorem frenchSubtitleFilm_passes_iff :
    ∃ built command, buildExecutionCommandPlan
        (buildProcessingPlan (normaliseFfprobePayload frenchSubtitleFilm) keepSubtitlesPolicy
          { enabled := false })
        ⟨.slash, ["media", "film.mp4"], by decide⟩ ⟨.slash, ["scratch"], by decide⟩
        ⟨.slash, ["usr", "bin", "ffmpeg"], by decide⟩ none {} = .ok built ∧
      built.command = some command ∧
      ((verifyOutput
        (buildProcessingPlan (normaliseFfprobePayload frenchSubtitleFilm) keepSubtitlesPolicy
          { enabled := false }) (normaliseFfprobePayload frenchSubtitleFilm)
        (.media (idealOutput
          (buildProcessingPlan (normaliseFfprobePayload frenchSubtitleFilm) keepSubtitlesPolicy
            { enabled := false }) command hevcEncoder frenchSubtitleFilm.container
          frenchSubtitleFilm))).passed = true ↔
        ∀ s, ¬ LosesForcedFlag frenchSubtitleFilm keepSubtitlesPolicy s) :=
  ⟨_, _, rfl, rfl, @ideal_output_passes_iff _ _ _ _ _ _ none {} _ _ _ _ rfl rfl
    fun _ hs => ⟨hs, rfl, fun _ => rfl, fun _ => rfl⟩⟩

/-- The film is remuxed into the target container; the copies are as the command says, and the
verification fails. -/
theorem frenchSubtitleFilm_fails :
    ∃ built command, buildExecutionCommandPlan
        (buildProcessingPlan (normaliseFfprobePayload frenchSubtitleFilm) keepSubtitlesPolicy
          { enabled := false })
        ⟨.slash, ["media", "film.mp4"], by decide⟩ ⟨.slash, ["scratch"], by decide⟩
        ⟨.slash, ["usr", "bin", "ffmpeg"], by decide⟩ none {} = .ok built ∧
      built.command = some command ∧
      (verifyOutput
        (buildProcessingPlan (normaliseFfprobePayload frenchSubtitleFilm) keepSubtitlesPolicy
          { enabled := false }) (normaliseFfprobePayload frenchSubtitleFilm)
        (.media (idealOutput
          (buildProcessingPlan (normaliseFfprobePayload frenchSubtitleFilm) keepSubtitlesPolicy
            { enabled := false }) command hevcEncoder frenchSubtitleFilm.container
          frenchSubtitleFilm))).passed = false :=
  ⟨_, _, rfl, rfl, by decide⟩

end Ideal

end Encodr
