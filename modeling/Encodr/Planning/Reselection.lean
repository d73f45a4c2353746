import Encodr.Planning.Selected

/-!
# Selecting again

What the audio selection makes of its own result. Either there is one kept track for each language, or
there are no more of them than the rules allow; in both cases every one of them is kept again.

* `selectedAudio_settled`: the result of a selection is settled.
* `Settled.selectedAudio`: every track of a settled file is selected.
-/

namespace Encodr

open Python

section Audio

variable {media : MediaFile} {rules : AudioRules}

/-- The tracks that the rules keep all: one for each preferred language, or no more than they allow. -/
def Settled (rules : AudioRules) (tracks : List AudioStream) : Prop :=
  ((∀ s ∈ tracks, languageCode s.language ∈ orderedLanguageCodes rules.keepLanguages) ∧
    ∀ s ∈ tracks, ∀ t ∈ tracks, languageCode s.language = languageCode t.language → s = t) ∨
  (rules.keepOnlyPreferredLanguages = false ∧ tracks.length ≤ rules.maxTracksToKeep)

/-! ## The best tracks -/

/-- A preferred language ranks above all others. -/
theorem languageRank_pos {ordered : List String} {language : String} (h : language ∈ ordered) :
    0 < languageRank ordered language := by
  have hidx := List.idxOf_lt_length_iff.mpr h
  rw [languageRank, if_pos h]
  omega

theorem audioQualityScore_index {s t : AudioStream}
    (h : audioQualityScore rules s = audioQualityScore rules t) : s.index = t.index := by
  simp only [audioQualityScore, List.cons.injEq, and_true] at h
  omega

/-- The track with the highest score is the best one of its language. -/
theorem head_mem_best {streams rest : List AudioStream} {s₀ b : AudioStream}
    (hnodup : (streams.map (·.index)).Nodup)
    (hsorted : sortedByScore (audioStreamScore rules (orderedLanguageCodes rules.keepLanguages)) streams =
      s₀ :: rest)
    (hb : b ∈ selectBestAudioByLanguage streams rules (orderedLanguageCodes rules.keepLanguages)) :
    s₀ ∈ selectBestAudioByLanguage streams rules (orderedLanguageCodes rules.keepLanguages) := by
  have hs₀ : s₀ ∈ streams := by
    have hmem : s₀ ∈ sortedByScore (audioStreamScore rules (orderedLanguageCodes rules.keepLanguages))
        streams := hsorted ▸ List.mem_cons_self
    exact (List.mem_insertionSort _).mp hmem
  have hmax : ∀ s ∈ streams, audioStreamScore rules (orderedLanguageCodes rules.keepLanguages) s ≤
      audioStreamScore rules (orderedLanguageCodes rules.keepLanguages) s₀ := by
    intro s hs
    have hmem : s ∈ s₀ :: rest := by
      rw [← hsorted]
      exact (List.mem_insertionSort _).mpr hs
    have hpairwise : (s₀ :: rest).Pairwise fun a b =>
        audioStreamScore rules (orderedLanguageCodes rules.keepLanguages) b ≤
          audioStreamScore rules (orderedLanguageCodes rules.keepLanguages) a := by
      rw [← hsorted]
      exact List.pairwise_insertionSort _ _
    rcases List.mem_cons.mp hmem with rfl | hrest
    · exact le_refl _
    · exact (List.pairwise_cons.mp hpairwise).1 s hrest
  have hlanguage : languageCode s₀.language ∈ orderedLanguageCodes rules.keepLanguages := by
    have hbmem := mem_bestByLanguage.mp hb
    have hle := hmax b (mem_of_mem_bestByLanguage hb)
    have hrank : 0 < languageRank (orderedLanguageCodes rules.keepLanguages) (languageCode b.language) :=
      languageRank_pos hbmem.1
    by_contra hnot
    have hzero : languageRank (orderedLanguageCodes rules.keepLanguages) (languageCode s₀.language) = 0 :=
      if_neg hnot
    rw [audioStreamScore, audioStreamScore, ← not_lt, List.cons_lt_cons_iff, hzero] at hle
    exact hle (.inl hrank)
  refine mem_bestByLanguage.mpr ⟨hlanguage, maxBy_eq (List.mem_filter.mpr ⟨hs₀, by simp⟩) ?_⟩
  intro s hs hne
  obtain ⟨hs, hsame⟩ := List.mem_filter.mp hs
  rw [decide_eq_true_eq] at hsame
  have hle := hmax s hs
  rw [audioStreamScore, audioStreamScore, hsame, ← not_lt, List.cons_lt_cons_iff] at hle
  by_contra hnot
  have hle : audioQualityScore rules s ≤ audioQualityScore rules s₀ :=
    not_lt.mp fun hlt => hle (.inr ⟨rfl, hlt⟩)
  have hscore := le_antisymm hle (not_lt.mp hnot)
  exact hne (List.inj_on_of_nodup_map hnodup hs hs₀ (audioQualityScore_index hscore))

/-! ## The result of a selection -/

theorem best_settled (streams : List AudioStream) :
    Settled rules (selectBestAudioByLanguage streams rules (orderedLanguageCodes rules.keepLanguages)) :=
  .inl ⟨fun _ hs => (mem_bestByLanguage.mp hs).1, fun _ hs _ ht => bestByLanguage_inj hs ht⟩

theorem Settled.sublist {tracks tracks' : List AudioStream} (h : Settled rules tracks)
    (hsub : tracks'.Sublist tracks) : Settled rules tracks' := by
  rcases h with ⟨hlanguage, hdistinct⟩ | ⟨hkeep, hlength⟩
  · exact .inl ⟨fun s hs => hlanguage s (hsub.subset hs),
      fun s hs t ht => hdistinct s (hsub.subset hs) t (hsub.subset ht)⟩
  · exact .inr ⟨hkeep, hsub.length_le.trans hlength⟩

/-- What a selection keeps is settled. -/
theorem selectedAudio_settled (hnodup : (media.audioStreams.map (·.index)).Nodup) :
    Settled rules (selectedAudio media rules) := by
  have hselectable : ((selectableAudio media rules).map (·.index)).Nodup := by
    refine hnodup.sublist (List.Sublist.map _ ?_)
    unfold selectableAudio candidateAudio preferredAudio
    split
    · exact List.filter_sublist.trans List.filter_sublist
    · exact List.filter_sublist
  unfold selectedAudio
  dsimp only
  refine Settled.sublist ?_ (List.take_sublist _ _)
  split
  · exact best_settled _
  · next hkeep =>
    rw [Bool.not_eq_true] at hkeep
    generalize hbest : selectBestAudioByLanguage (selectableAudio media rules) rules
      (orderedLanguageCodes rules.keepLanguages) = best
    by_cases hfull : best.length < rules.maxTracksToKeep
    · exact .inr ⟨hkeep, fillTracks_length hfull⟩
    · -- There is no room beside the best tracks, and the first track is one of them.
      have hsettled : Settled rules best := hbest ▸ best_settled _
      cases hsorted : sortedByScore (audioStreamScore rules (orderedLanguageCodes rules.keepLanguages))
          (selectableAudio media rules) with
      | nil => exact hsettled
      | cons s₀ rest =>
        have hpos := rules.maxTracksToKeep_pos
        obtain ⟨b, hb⟩ : ∃ b, b ∈ best := List.exists_mem_of_length_pos (by omega)
        have hhead : s₀ ∈ best := hbest ▸ head_mem_best hselectable hsorted (hbest ▸ hb)
        have hadd : addNew best s₀ = best := if_pos hhead
        rw [fillTracks, hadd, if_pos (by omega)]
        exact hsettled

/-! ## Selecting again -/

/-- There is nothing to add where every track is there. -/
theorem fillTracks_eq_self {max : Nat} {selected xs : List AudioStream} (h : xs ⊆ selected) :
    fillTracks max selected xs = selected := by
  induction xs with
  | nil => rfl
  | cons x xs ih =>
    have hadd : addNew selected x = selected := if_pos (h List.mem_cons_self)
    rw [fillTracks, hadd]
    split
    · rfl
    · exact ih fun y hy => h (List.mem_cons_of_mem _ hy)

/-- Every track of a settled file is selected. -/
theorem Settled.selectedAudio (h : Settled rules (selectableAudio media rules)) {s : AudioStream}
    (hs : s ∈ selectableAudio media rules) : s ∈ Encodr.selectedAudio media rules := by
  have hnodup : (selectBestAudioByLanguage (selectableAudio media rules) rules
      (orderedLanguageCodes rules.keepLanguages)).Nodup :=
    bestByLanguage_nodup (orderedLanguageCodes_nodup rules.keepLanguages)
  have hsorted : ∀ t, t ∈ sortedByScore
      (audioStreamScore rules (orderedLanguageCodes rules.keepLanguages)) (selectableAudio media rules) ↔
        t ∈ selectableAudio media rules := fun t => List.mem_insertionSort _
  unfold Encodr.selectedAudio
  dsimp only
  rcases h with ⟨hlanguage, hdistinct⟩ | ⟨hkeep, hlength⟩
  · -- Each track is the only one of its language.
    have hbest : ∀ t ∈ selectableAudio media rules, t ∈ selectBestAudioByLanguage
        (selectableAudio media rules) rules (orderedLanguageCodes rules.keepLanguages) := by
      intro t ht
      refine mem_bestByLanguage.mpr ⟨hlanguage t ht, maxBy_eq_of_only
        (List.mem_filter.mpr ⟨ht, by simp⟩) fun u hu => ?_⟩
      obtain ⟨hu, hsame⟩ := List.mem_filter.mp hu
      exact hdistinct u hu t ht (by simpa using hsame)
    have hfill : fillTracks rules.maxTracksToKeep
        (selectBestAudioByLanguage (selectableAudio media rules) rules
          (orderedLanguageCodes rules.keepLanguages))
        (sortedByScore (audioStreamScore rules (orderedLanguageCodes rules.keepLanguages))
          (selectableAudio media rules)) =
        selectBestAudioByLanguage (selectableAudio media rules) rules
          (orderedLanguageCodes rules.keepLanguages) :=
      fillTracks_eq_self fun t ht => hbest t ((hsorted t).mp ht)
    rw [hfill, ite_self, List.take_of_length_le]
    · exact hbest s hs
    · exact bestByLanguage_length.trans (le_max_right _ _)
  · rw [if_neg (by simp [hkeep]), List.take_of_length_le]
    · exact fillTracks_all hnodup (fun t ht => mem_of_mem_bestByLanguage ht)
        (fun t ht => (hsorted t).mp ht)
        (fun t ht => List.mem_append_right _ ((hsorted t).mpr ht)) hlength hs
    · have hsub : fillTracks rules.maxTracksToKeep
          (selectBestAudioByLanguage (selectableAudio media rules) rules
            (orderedLanguageCodes rules.keepLanguages))
          (sortedByScore (audioStreamScore rules (orderedLanguageCodes rules.keepLanguages))
            (selectableAudio media rules)) ⊆ selectableAudio media rules := by
        intro t ht
        rcases mem_of_mem_fillTracks ht with ht | ht
        · exact mem_of_mem_bestByLanguage ht
        · exact (hsorted t).mp ht
      have hle := ((fillTracks_nodup hnodup).subperm hsub).length_le
      exact (hle.trans hlength).trans (le_max_left _ _)

end Audio

end Encodr
