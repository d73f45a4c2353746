import Mathlib.Data.Prod.Lex
import Encodr.Config.Policy
import Encodr.Planning.Selected

/-!
# The audio selection as an optimal partition

What `select_audio_streams` is for, in terms of the tracks of the file and the rules only, and that the
selection does it.

* `trackRank`, `IsBestTrack`: the order of the tracks, and the best track in a language.
* `AudioSelectionResult.Optimal`, `selectAudioStreams_optimal`: the selection.
-/

namespace Encodr

/-! ## The best track -/

/-- What ranks a track, the first difference deciding. A feature counts where the rules preserve it. -/
def trackRank (rules : AudioRules) (s : AudioStream) :
    Bool ×ₗ Bool ×ₗ Bool ×ₗ Int ×ₗ Int ×ₗ Bool ×ₗ ℤᵒᵈ :=
  toLex (s.isAtmosCapable && rules.preserveAtmosCapable,
    toLex (isSevenOneCandidate s && rules.preserveSevenOne,
      toLex (s.isSurroundCandidate && rules.preserveBestSurround,
        toLex (s.channels.getD 0,
          toLex (scoreCodecPreference s.codecName rules.preferredCodecs,
            toLex (s.disposition.default, OrderDual.toDual s.index))))))

/-- The rules allow to select the track. -/
def SelectableTrack (rules : AudioRules) (s : AudioStream) : Prop :=
  s.isCommentaryCandidate = true → rules.allowCommentary = true

/-- `s` is the best of the selectable tracks in a language. -/
structure IsBestTrack (media : MediaFile) (rules : AudioRules) (language : String) (s : AudioStream) :
    Prop where
  mem : s ∈ media.audioStreams
  language_eq : languageCode s.language = language
  selectable : SelectableTrack rules s
  best : ∀ t ∈ media.audioStreams, languageCode t.language = language → SelectableTrack rules t →
    t ≠ s → trackRank rules t < trackRank rules s

/-- What an audio selection should be. -/
structure AudioSelectionResult.Optimal (r : AudioSelectionResult) (media : MediaFile)
    (rules : AudioRules) : Prop where
  partition : (r.intent.selectedStreamIndices ++ r.intent.droppedStreamIndices).Perm
    (media.audioStreams.map (·.index))
  commentary : ∀ s ∈ media.audioStreams, s.index ∈ r.intent.selectedStreamIndices →
    SelectableTrack rules s
  preferred : rules.keepOnlyPreferredLanguages = true → ∀ s ∈ media.audioStreams,
    s.index ∈ r.intent.selectedStreamIndices → languageCode s.language ∈ rules.keepLanguages
  best : ∀ s ∈ media.audioStreams, SelectableTrack rules s →
    languageCode s.language ∈ rules.keepLanguages →
    ∃ b, IsBestTrack media rules (languageCode s.language) b ∧
      b.index ∈ r.intent.selectedStreamIndices
  limit : r.intent.selectedStreamIndices.length ≤ max rules.maxTracksToKeep rules.keepLanguages.length
  primary : r.intent.primaryStreamIndex = r.intent.selectedStreamIndices.head?
  missing_iff : r.intent.missingRequiredAudio = true ↔ r.intent.selectedStreamIndices = []
  review_iff : r.requiresManualReview = true ↔ r.intent.missingRequiredAudio = true

section Ranks

variable {rules : AudioRules} {s t : AudioStream} {a b : Bool}

theorem point_lt_iff : point a < point b ↔ a < b := by
  cases a <;> cases b <;> decide

theorem point_inj : point a = point b ↔ a = b := by
  cases a <;> cases b <;> decide

/-- The score of the planner orders the tracks by their ranks. -/
theorem audioQualityScore_lt_iff :
    audioQualityScore rules s < audioQualityScore rules t ↔ trackRank rules s < trackRank rules t := by
  simp only [audioQualityScore, trackRank, List.cons_lt_cons_iff, Prod.Lex.toLex_lt_toLex, point_lt_iff,
    point_inj, Int.neg_lt_neg_iff, OrderDual.toDual_lt_toDual, List.not_lt_nil,
    and_false, or_false]

/-- Tracks with different indices have different scores. -/
theorem index_eq_of_score_eq (h : audioQualityScore rules s = audioQualityScore rules t) :
    s.index = t.index := by
  simp only [audioQualityScore, List.cons.injEq, Int.neg_inj, and_true] at h
  exact h.2.2.2.2.2.2

end Ranks

/-! ## The selected tracks -/

section Selected

variable {media : MediaFile} {rules : AudioRules} {selected xs : List AudioStream} {s : AudioStream}
  {max : Nat}

/-- The codes of valid rules are taken as they are. -/
theorem orderedLanguageCodes_eq {codes : List String} (hnodup : codes.Nodup) (hne : "" ∉ codes) :
    orderedLanguageCodes codes = codes := by
  suffices ∀ ordered rest : List String, (ordered ++ rest).Nodup → "" ∉ rest →
      rest.foldl (fun ordered value =>
        let language := languageCode (some value)
        if language ∈ ordered then ordered else ordered ++ [language]) ordered = ordered ++ rest from
    this [] codes hnodup hne
  intro ordered rest
  induction rest generalizing ordered with
  | nil => exact fun _ _ => (List.append_nil _).symm
  | cons code rest ih =>
    intro hnodup hne
    rw [List.mem_cons, not_or] at hne
    have hcode : languageCode (some code) = code := if_neg (Ne.symm hne.1)
    have hnew : code ∉ ordered := fun hmem =>
      (List.nodup_append.mp hnodup).2.2 code hmem code List.mem_cons_self rfl
    rw [List.foldl_cons, hcode]
    dsimp only
    rw [if_neg hnew, ih _ (by simpa using hnodup) hne.2, List.append_assoc]
    rfl

theorem AudioRules.Valid.orderedLanguageCodes_eq (h : rules.Valid) :
    orderedLanguageCodes rules.keepLanguages = rules.keepLanguages :=
  Encodr.orderedLanguageCodes_eq h.keepLanguages.nodup fun hmem => by
    have hcode := h.keepLanguages.languageCode "" hmem
    revert hcode
    decide

theorem addNew_prefix : selected <+: addNew selected s := by
  unfold addNew
  split
  · exact List.prefix_rfl
  · exact List.prefix_append _ _

/-- Filling up appends to what is selected. -/
theorem fillTracks_prefix : selected <+: fillTracks max selected xs := by
  induction xs generalizing selected with
  | nil => exact List.prefix_rfl
  | cons x xs ih =>
    unfold fillTracks
    split
    · exact addNew_prefix
    · exact addNew_prefix.trans ih

/-- The best tracks of the languages are never cut off. -/
theorem best_subset_selectedAudio :
    selectBestAudioByLanguage (selectableAudio media rules) rules
        (orderedLanguageCodes rules.keepLanguages) ⊆ selectedAudio media rules := by
  refine List.Sublist.subset (List.IsPrefix.sublist ?_)
  unfold selectedAudio
  dsimp only
  refine List.prefix_take_iff.mpr ⟨?_, bestByLanguage_length.trans (Nat.le_max_right _ _)⟩
  split
  · exact List.prefix_rfl
  · exact fillTracks_prefix

theorem mem_selectableAudio_of_preferred (hs : s ∈ media.audioStreams) (hselectable : SelectableTrack rules s)
    (hlanguage : languageCode s.language ∈ orderedLanguageCodes rules.keepLanguages) :
    s ∈ selectableAudio media rules := by
  refine mem_selectableAudio.mpr ⟨?_, ?_⟩
  · unfold candidateAudio
    split
    · exact List.mem_filter.mpr ⟨hs, decide_eq_true hlanguage⟩
    · exact hs
  · cases hcommentary : s.isCommentaryCandidate with
    | true => exact .inl (hselectable hcommentary)
    | false => exact .inr rfl

theorem selectableTrack_of_mem (h : s ∈ selectableAudio media rules) : SelectableTrack rules s := by
  intro hcommentary
  have hor := (mem_selectableAudio.mp h).2
  rw [hcommentary] at hor
  exact hor.resolve_right (by decide)

/-- A language of the rules that has a selectable track has a best one, which is selected. -/
theorem exists_best_selected (hinj : (media.audioStreams.map (·.index)).Nodup)
    (hs : s ∈ media.audioStreams) (hselectable : SelectableTrack rules s)
    (hlanguage : languageCode s.language ∈ orderedLanguageCodes rules.keepLanguages) :
    ∃ b ∈ selectedAudio media rules, IsBestTrack media rules (languageCode s.language) b := by
  have hmem := mem_selectableAudio_of_preferred hs hselectable hlanguage
  obtain ⟨b, hb, hcode⟩ : ∃ b ∈ selectBestAudioByLanguage (selectableAudio media rules) rules
      (orderedLanguageCodes rules.keepLanguages), languageCode b.language = languageCode s.language :=
    exists_bestByLanguage hmem hlanguage
  have hbselectable := mem_of_mem_bestByLanguage hb
  have hbmem := candidateAudio_subset (mem_selectableAudio.mp hbselectable).1
  refine ⟨b, best_subset_selectedAudio hb, hbmem, hcode, selectableTrack_of_mem hbselectable, ?_⟩
  intro t ht htcode htselectable hne
  have htmem : t ∈ (selectableAudio media rules).filter
      fun t => languageCode t.language = languageCode b.language :=
    List.mem_filter.mpr ⟨mem_selectableAudio_of_preferred ht htselectable (htcode ▸ hlanguage), by
      simpa [hcode] using htcode⟩
  have hle := maxBy_le (mem_bestByLanguage.mp hb).2 htmem
  rw [← audioQualityScore_lt_iff]
  by_contra hnot
  exact hne (List.inj_on_of_nodup_map hinj ht hbmem
    (index_eq_of_score_eq (le_antisymm hle (not_lt.mp hnot))))

/-- What is selected and what is left are the whole. -/
theorem append_filter_perm {xs ys : List Int} (hxs : xs.Nodup) (hys : ys.Nodup) (hsub : ys ⊆ xs) :
    (ys ++ xs.filter (· ∉ ys)).Perm xs := by
  have hperm : ys.Perm (xs.filter (· ∈ ys)) := by
    refine (List.perm_ext_iff_of_nodup hys (hxs.filter _)).mpr fun a => ?_
    rw [List.mem_filter, decide_eq_true_eq]
    exact ⟨fun h => ⟨hsub h, h⟩, And.right⟩
  refine (hperm.append_right _).trans ?_
  have hsplit := List.filter_append_perm (· ∈ ys) xs
  simpa using hsplit

theorem selectedAudio_length (h : rules.Valid) :
    (selectedAudio media rules).length ≤ Nat.max rules.maxTracksToKeep rules.keepLanguages.length := by
  unfold selectedAudio
  dsimp only
  rw [h.orderedLanguageCodes_eq]
  exact (List.length_take_le _ _)

/-- Where there is no track to choose from, nothing is selected. -/
theorem selectAudioStreams_none (languages : LanguagePreferences) (h : selectableAudio media rules = []) :
    (selectAudioStreams media rules languages).intent.selectedStreamIndices = [] ∧
      (selectAudioStreams media rules languages).intent.droppedStreamIndices =
        media.audioStreams.map (·.index) ∧
      (selectAudioStreams media rules languages).intent.primaryStreamIndex = none ∧
      (selectAudioStreams media rules languages).intent.missingRequiredAudio = true ∧
      (selectAudioStreams media rules languages).requiresManualReview = true := by
  unfold selectAudioStreams
  dsimp only
  split
  · exact ⟨rfl, rfl, rfl, rfl, rfl⟩
  · rw [if_pos (by simp [h])]
    exact ⟨rfl, rfl, rfl, rfl, rfl⟩

end Selected

/-- The audio selection is an optimal partition of the tracks of the file. -/
theorem selectAudioStreams_optimal {media : MediaFile} (hinj : (media.audioStreams.map (·.index)).Nodup)
    {rules : AudioRules} (hrules : rules.Valid) (languages : LanguagePreferences) :
    (selectAudioStreams media rules languages).Optimal media rules := by
  by_cases hselectable : selectableAudio media rules = []
  · -- nothing is selected
    obtain ⟨hselected, hdropped, hprimary, hmissing, hreview⟩ :=
      selectAudioStreams_none languages hselectable
    refine {
      partition := by rw [hselected, hdropped]; exact .refl _
      commentary := fun s _ h => by rw [hselected] at h; cases h
      preferred := fun _ s _ h => by rw [hselected] at h; cases h
      best := fun s hs hs' hlanguage => ?_
      limit := by rw [hselected]; exact Nat.zero_le _
      primary := by rw [hselected, hprimary]; rfl
      missing_iff := iff_of_true hmissing hselected
      review_iff := iff_of_true hreview hmissing }
    rw [← hrules.orderedLanguageCodes_eq] at hlanguage
    have hmem := mem_selectableAudio_of_preferred hs hs' hlanguage
    rw [hselectable] at hmem
    cases hmem
  · have hselects : (selectAudioStreams media rules languages).Selects media rules
        (selectedAudio media rules) := selectAudioStreams_selects hselectable
    have hsub : selectedAudio media rules ⊆ media.audioStreams := selectedAudio_subset
    have hmem : ∀ s ∈ media.audioStreams,
        s.index ∈ (selectAudioStreams media rules languages).intent.selectedStreamIndices →
          s ∈ selectedAudio media rules := by
      intro s hs h
      rw [hselects.selectedIndices] at h
      obtain ⟨t, ht, heq⟩ := List.mem_map.mp h
      exact List.inj_on_of_nodup_map hinj (hsub ht) hs heq ▸ ht
    refine {
      partition := ?_
      commentary := fun s hs h => selectableTrack_of_mem (selectedAudio_subset_selectable (hmem s hs h))
      preferred := fun hkeep s hs h => ?_
      best := fun s hs hs' hlanguage => ?_
      limit := ?_
      primary := by rw [hselects.primary, hselects.selectedIndices, List.head?_map]
      missing_iff := ?_
      review_iff := iff_of_false (by rw [hselects.review]; decide) (by rw [hselects.missing]; decide) }
    · rw [hselects.selectedIndices, hselects.dropped]
      refine append_filter_perm hinj ?_ (List.map_subset _ hsub)
      exact List.Nodup.map_on (fun s hs t ht heq =>
        List.inj_on_of_nodup_map hinj (hsub hs) (hsub ht) heq) selectedAudio_nodup
    · have hcandidate := (mem_selectableAudio.mp (selectedAudio_subset_selectable (hmem s hs h))).1
      rw [candidateAudio, if_pos hkeep] at hcandidate
      have hlanguage := of_decide_eq_true (List.mem_filter.mp hcandidate).2
      rwa [hrules.orderedLanguageCodes_eq] at hlanguage
    · rw [← hrules.orderedLanguageCodes_eq] at hlanguage
      obtain ⟨b, hb, hbest⟩ := exists_best_selected hinj hs hs' hlanguage
      refine ⟨b, hbest, ?_⟩
      rw [hselects.selectedIndices]
      exact List.mem_map_of_mem hb
    · rw [hselects.selectedIndices, List.length_map]
      exact selectedAudio_length hrules
    · rw [hselects.missing, hselects.selectedIndices, List.map_eq_nil_iff]
      exact iff_of_false (by decide) (selectedAudio_ne_nil hselectable)

/-- A film with two English tracks, an English commentary and a German track. -/
def commentaryFilm : MediaFile where
  container := { filePath := Python.PosixPath.parse "/media/film.mkv", fileName := "film.mkv",
                 extension := some "mkv" }
  audioStreams := [
    { index := 1, codecName := some "aac", channels := some 2, tags := { language := some "eng" } },
    { index := 2, codecName := some "eac3", channels := some 6, isSurroundCandidate := true,
      tags := { language := some "eng" } },
    { index := 3, codecName := some "aac", channels := some 2, isCommentaryCandidate := true,
      tags := { language := some "eng" } },
    { index := 4, codecName := some "aac", channels := some 2, tags := { language := some "ger" } }]

/-- Its English surround track is selected. -/
theorem selectAudioStreams_optimal_commentary :
    (selectAudioStreams commentaryFilm { keepLanguages := ["eng"], preferredCodecs := ["eac3", "aac"] }
        {}).intent.selectedStreamIndices = [2] ∧
      (selectAudioStreams commentaryFilm { keepLanguages := ["eng"], preferredCodecs := ["eac3", "aac"] }
        {}).Optimal commentaryFilm { keepLanguages := ["eng"], preferredCodecs := ["eac3", "aac"] } :=
  ⟨by decide +kernel, selectAudioStreams_optimal (by decide)
    ⟨⟨by decide, by decide, by decide⟩, ⟨by decide, by decide, by decide⟩⟩ {}⟩

end Encodr
