import Mathlib.Data.List.Perm.Subperm
import Encodr.Planning.Selection

/-!
# What the planner chooses

The choices of the stream selection: the best stream by a score, the best one of each language, and
the loop that fills up the tracks.

* `maxBy_mem`, `maxBy_le`, `maxBy_eq`: the best stream.
* `mem_bestByLanguage`, `bestByLanguage_nodup`: the best streams of the languages.
* `fillTracks_all`: where there is room for every track, the loop adds every track.
-/

namespace Encodr

open Python

/-! ## Languages -/

/-- Each language is listed once. -/
theorem orderedLanguageCodes_nodup (languages : List String) :
    (orderedLanguageCodes languages).Nodup := by
  suffices ∀ ordered : List String, ordered.Nodup → (languages.foldl (fun ordered value =>
      let language := languageCode (some value)
      if language ∈ ordered then ordered else ordered ++ [language]) ordered).Nodup from
    this [] List.nodup_nil
  induction languages with
  | nil => exact fun _ h => h
  | cons value languages ih =>
    intro ordered h
    refine ih _ ?_
    dsimp only
    split
    · exact h
    · next hnew => exact List.nodup_append_comm.mp (List.nodup_cons.mpr ⟨hnew, h⟩)

theorem mem_uniqueLanguages {values : List (Option String)} {language : String} :
    language ∈ uniqueLanguages values ↔ ∃ value ∈ values, languageCode value = language := by
  suffices ∀ languages : List String, language ∈ values.foldl (fun languages value =>
      let language := languageCode value
      if language ∈ languages then languages else languages ++ [language]) languages ↔
        language ∈ languages ∨ ∃ value ∈ values, languageCode value = language from
    (this []).trans (or_iff_right List.not_mem_nil)
  induction values with
  | nil => simp
  | cons value values ih =>
    intro languages
    rw [List.foldl_cons, ih]
    dsimp only
    split
    · next hmem =>
      constructor
      · rintro (h | ⟨v, hv, rfl⟩)
        · exact .inl h
        · exact .inr ⟨v, List.mem_cons_of_mem _ hv, rfl⟩
      · rintro (h | ⟨v, hv, rfl⟩)
        · exact .inl h
        · rcases List.mem_cons.mp hv with rfl | hv
          · exact .inl hmem
          · exact .inr ⟨v, hv, rfl⟩
    · rw [List.mem_append, List.mem_singleton]
      constructor
      · rintro ((h | rfl) | ⟨v, hv, rfl⟩)
        · exact .inl h
        · exact .inr ⟨value, List.mem_cons_self, rfl⟩
        · exact .inr ⟨v, List.mem_cons_of_mem _ hv, rfl⟩
      · rintro (h | ⟨v, hv, rfl⟩)
        · exact .inl (.inl h)
        · rcases List.mem_cons.mp hv with rfl | hv
          · exact .inl (.inr rfl)
          · exact .inr ⟨v, hv, rfl⟩

/-! ## The best stream -/

section Best

variable {α : Type} {score : α → List Int} {code : α → String} {xs streams : List α} {x y : α}
  {order : List String}

/-- `x` is the first of the best: those before it have a lower score, those after it none that is higher. -/
def IsFirstBest (score : α → List Int) (xs : List α) (x : α) : Prop :=
  ∃ before after, xs = before ++ x :: after ∧ (∀ y ∈ before, score y < score x) ∧
    ∀ y ∈ after, score y ≤ score x

theorem IsFirstBest.mem (h : IsFirstBest score xs x) : x ∈ xs := by
  obtain ⟨before, after, rfl, -, -⟩ := h
  simp

theorem IsFirstBest.le (h : IsFirstBest score xs x) (hy : y ∈ xs) : score y ≤ score x := by
  obtain ⟨before, after, rfl, hbefore, hafter⟩ := h
  rcases List.mem_append.mp hy with hy | hy
  · exact le_of_lt (hbefore y hy)
  · rcases List.mem_cons.mp hy with rfl | hy
    · exact le_refl _
    · exact hafter y hy

theorem IsFirstBest.cons_lt (h : IsFirstBest score xs x) (hy : score y < score x) :
    IsFirstBest score (y :: xs) x := by
  obtain ⟨before, after, rfl, hbefore, hafter⟩ := h
  refine ⟨y :: before, after, rfl, fun z hz => ?_, hafter⟩
  rcases List.mem_cons.mp hz with rfl | hz
  · exact hy
  · exact hbefore z hz

/-- One that is not above the first changes nothing. -/
theorem IsFirstBest.insert {best : α} (h : IsFirstBest score (x :: xs) best) (hy : score y ≤ score x) :
    IsFirstBest score (x :: y :: xs) best := by
  have hx := h.le List.mem_cons_self
  obtain ⟨before, after, hsplit, hbefore, hafter⟩ := h
  cases before with
  | nil =>
    obtain ⟨rfl, rfl⟩ := List.cons.inj hsplit
    refine ⟨[], y :: xs, rfl, by simp, fun z hz => ?_⟩
    rcases List.mem_cons.mp hz with rfl | hz
    · exact le_trans hy hx
    · exact hafter z hz
  | cons b before =>
    obtain ⟨rfl, rfl⟩ := List.cons.inj hsplit
    refine ⟨x :: y :: before, after, rfl, fun z hz => ?_, hafter⟩
    have hlt := hbefore x List.mem_cons_self
    rcases List.mem_cons.mp hz with rfl | hz
    · exact hlt
    · rcases List.mem_cons.mp hz with rfl | hz
      · exact lt_of_le_of_lt hy hlt
      · exact hbefore z (List.mem_cons_of_mem _ hz)

/-- The loop of `maxBy` keeps the first of the best of what it has seen. -/
theorem foldl_isFirstBest (score : α → List Int) (x : α) (xs : List α) :
    IsFirstBest score (x :: xs) (xs.foldl (fun best y => if score best < score y then y else best) x) := by
  induction xs generalizing x with
  | nil => exact ⟨[], [], rfl, by simp, by simp⟩
  | cons z xs ih =>
    rw [List.foldl_cons]
    split
    · next hlt =>
      have hz := (ih z).le List.mem_cons_self
      refine (ih z).cons_lt ?_
      by_contra hnot
      have hle := lt_of_le_of_lt (not_lt.mp hnot) hlt
      exact not_lt.mpr hz hle
    · next hnot => exact (ih x).insert (not_lt.mp hnot)

theorem maxBy_isFirstBest (h : maxBy score xs = some x) : IsFirstBest score xs x := by
  cases xs with
  | nil => cases h
  | cons z xs =>
    obtain rfl := Option.some.inj h
    exact foldl_isFirstBest score z xs

/-- There is one first of the best. -/
theorem IsFirstBest.unique (hx : IsFirstBest score xs x) (hy : IsFirstBest score xs y) : x = y := by
  obtain ⟨before, after, rfl, hbefore, hafter⟩ := hx
  obtain ⟨before', after', hsplit, hbefore', hafter'⟩ := hy
  rcases List.append_eq_append_iff.mp hsplit with ⟨ys, hys, htail⟩ | ⟨ys, hys, htail⟩
  · cases ys with
    | nil => exact (List.cons.inj htail).1
    | cons z zs =>
      obtain ⟨rfl, rfl⟩ := List.cons.inj htail
      have hlt := hbefore' x (by rw [hys]; simp)
      exact absurd hlt (not_lt.mpr (hafter y (by simp)))
  · cases ys with
    | nil => exact (List.cons.inj htail).1.symm
    | cons z zs =>
      obtain ⟨rfl, rfl⟩ := List.cons.inj htail
      have hlt := hbefore y (by rw [hys]; simp)
      exact absurd hlt (not_lt.mpr (hafter' x (by simp)))

theorem maxBy_eq_some_iff_isFirstBest : maxBy score xs = some x ↔ IsFirstBest score xs x := by
  refine ⟨maxBy_isFirstBest, fun h => ?_⟩
  have hne : xs ≠ [] := by
    obtain ⟨before, after, rfl, -, -⟩ := h
    simp
  obtain ⟨best, hbest⟩ := maxBy_isSome score hne
  rw [hbest, (maxBy_isFirstBest hbest).unique h]

theorem maxBy_spec (h : maxBy score xs = some x) : x ∈ xs ∧ ∀ y ∈ xs, score y ≤ score x :=
  ⟨(maxBy_isFirstBest h).mem, fun _ hy => (maxBy_isFirstBest h).le hy⟩

theorem maxBy_mem (h : maxBy score xs = some x) : x ∈ xs := (maxBy_spec h).1

theorem maxBy_le (h : maxBy score xs = some x) (hy : y ∈ xs) : score y ≤ score x :=
  (maxBy_spec h).2 y hy

/-- A stream above all others is the best one. -/
theorem maxBy_eq (hx : x ∈ xs) (h : ∀ y ∈ xs, y ≠ x → score y < score x) : maxBy score xs = some x := by
  obtain ⟨best, hbest⟩ := maxBy_isSome score (List.ne_nil_of_mem hx)
  by_cases heq : best = x
  · rw [hbest, heq]
  · have hlt := h best (maxBy_mem hbest) heq
    exact absurd (maxBy_le hbest hx) (not_le.mpr hlt)

/-- The only stream is the best one. -/
theorem maxBy_eq_of_only (hx : x ∈ xs) (h : ∀ y ∈ xs, y = x) : maxBy score xs = some x :=
  maxBy_eq hx fun y hy hne => absurd (h y hy) hne

/-- A stream is chosen for its language where it is the best one of the language. -/
theorem mem_bestByLanguage : x ∈ bestByLanguage code score streams order ↔
    code x ∈ order ∧ maxBy score (streams.filter fun s => code s = code x) = some x := by
  rw [bestByLanguage, List.mem_filterMap]
  constructor
  · rintro ⟨language, hlanguage, hx⟩
    obtain rfl : code x = language := by simpa using (List.mem_filter.mp (maxBy_mem hx)).2
    exact ⟨hlanguage, hx⟩
  · exact fun ⟨hcode, hx⟩ => ⟨code x, hcode, hx⟩

theorem mem_of_mem_bestByLanguage (h : x ∈ bestByLanguage code score streams order) : x ∈ streams :=
  (List.mem_filter.mp (maxBy_mem (mem_bestByLanguage.mp h).2)).1

/-- Two streams that are chosen for one language are one. -/
theorem bestByLanguage_inj (hx : x ∈ bestByLanguage code score streams order)
    (hy : y ∈ bestByLanguage code score streams order) (h : code x = code y) : x = y := by
  have hbest := (mem_bestByLanguage.mp hx).2
  rw [h] at hbest
  exact Option.some.inj (hbest.symm.trans (mem_bestByLanguage.mp hy).2)

/-- There is at most one stream for each language. -/
theorem bestByLanguage_length : (bestByLanguage code score streams order).length ≤ order.length :=
  List.length_filterMap_le _ _

theorem bestByLanguage_nodup (h : order.Nodup) : (bestByLanguage code score streams order).Nodup := by
  refine List.Nodup.filterMap ?_ h
  intro language language' x hx hx'
  have hcode : ∀ {l : String}, maxBy score (streams.filter fun s => code s = l) = some x → code x = l :=
    fun hx => by simpa using (List.mem_filter.mp (maxBy_mem hx)).2
  exact (hcode hx).symm.trans (hcode hx')

/-- A language with a stream has a best one. -/
theorem exists_bestByLanguage (hx : x ∈ streams) (hcode : code x ∈ order) :
    ∃ best ∈ bestByLanguage code score streams order, code best = code x := by
  have hmem : x ∈ streams.filter fun s => code s = code x :=
    List.mem_filter.mpr ⟨hx, by simp⟩
  obtain ⟨best, hbest⟩ := maxBy_isSome score (List.ne_nil_of_mem hmem)
  have hsame : code best = code x := by simpa using (List.mem_filter.mp (maxBy_mem hbest)).2
  exact ⟨best, mem_bestByLanguage.mpr ⟨hsame ▸ hcode, hsame ▸ hbest⟩, hsame⟩

end Best

/-! ## Adding streams -/

section Adding

variable {α : Type} [DecidableEq α] {selected xs : List α} {x s : α}

theorem mem_addNew : x ∈ addNew selected s ↔ x ∈ selected ∨ x = s := by
  unfold addNew
  split
  · next hs => exact ⟨.inl, fun h => h.elim id fun heq => heq ▸ hs⟩
  · rw [List.mem_append, List.mem_singleton]

theorem addNew_nodup (h : selected.Nodup) : (addNew selected s).Nodup := by
  unfold addNew
  split
  · exact h
  · next hs => exact List.nodup_append_comm.mp (List.nodup_cons.mpr ⟨hs, h⟩)

theorem mem_foldl_addNew : x ∈ xs.foldl addNew selected ↔ x ∈ selected ∨ x ∈ xs := by
  induction xs generalizing selected with
  | nil => simp
  | cons y xs ih => rw [List.foldl_cons, ih, mem_addNew, List.mem_cons, or_assoc]

theorem foldl_addNew_nodup (h : selected.Nodup) : (xs.foldl addNew selected).Nodup := by
  induction xs generalizing selected with
  | nil => exact h
  | cons y xs ih => exact ih (addNew_nodup h)

end Adding

section Filling

variable {max : Nat} {selected xs all : List AudioStream} {s : AudioStream}

theorem subset_fillTracks (hs : s ∈ selected) : s ∈ fillTracks max selected xs := by
  induction xs generalizing selected with
  | nil => exact hs
  | cons x xs ih =>
    have hadded : s ∈ addNew selected x := mem_addNew.mpr (.inl hs)
    unfold fillTracks
    split
    · exact hadded
    · exact ih hadded

theorem mem_of_mem_fillTracks (h : s ∈ fillTracks max selected xs) : s ∈ selected ∨ s ∈ xs := by
  induction xs generalizing selected with
  | nil => exact .inl h
  | cons x xs ih =>
    unfold fillTracks at h
    split at h
    · rcases mem_addNew.mp h with h | rfl
      · exact .inl h
      · exact .inr List.mem_cons_self
    · rcases ih h with h | h
      · rcases mem_addNew.mp h with h | rfl
        · exact .inl h
        · exact .inr List.mem_cons_self
      · exact .inr (List.mem_cons_of_mem _ h)

theorem fillTracks_nodup (h : selected.Nodup) : (fillTracks max selected xs).Nodup := by
  induction xs generalizing selected with
  | nil => exact h
  | cons x xs ih =>
    unfold fillTracks
    split
    · exact addNew_nodup h
    · exact ih (addNew_nodup h)

/-- The loop ends with every track added, or with as many as there may be. -/
theorem fillTracks_full : (∀ s ∈ xs, s ∈ fillTracks max selected xs) ∨
    max ≤ (fillTracks max selected xs).length := by
  induction xs generalizing selected with
  | nil => exact .inl fun s hs => absurd hs List.not_mem_nil
  | cons x xs ih =>
    unfold fillTracks
    split
    · next hmax => exact .inr hmax
    · refine ih.imp_left fun h s hs => ?_
      rcases List.mem_cons.mp hs with rfl | hs
      · exact subset_fillTracks (mem_addNew.mpr (.inr rfl))
      · exact h s hs

/-- Where there is room for every track, the loop adds every track. -/
theorem fillTracks_all (hnodup : selected.Nodup) (hselected : selected ⊆ all) (hxs : xs ⊆ all)
    (hall : all ⊆ selected ++ xs) (hlen : all.length ≤ max) (hs : s ∈ all) :
    s ∈ fillTracks max selected xs := by
  rcases fillTracks_full with h | h
  · rcases List.mem_append.mp (hall hs) with hs | hs
    · exact subset_fillTracks hs
    · exact h s hs
  · have hsub : fillTracks max selected xs ⊆ all := fun t ht =>
      (mem_of_mem_fillTracks ht).elim (fun h => hselected h) fun h => hxs h
    have hperm := (fillTracks_nodup hnodup).subperm hsub |>.perm_of_length_le (hlen.trans h)
    exact hperm.mem_iff.mpr hs

/-- The loop stays within the bound, unless there were as many tracks before it. -/
theorem fillTracks_length (h : selected.length < max) : (fillTracks max selected xs).length ≤ max := by
  induction xs generalizing selected with
  | nil => exact h.le
  | cons x xs ih =>
    have hlen : (addNew selected x).length ≤ selected.length + 1 := by
      unfold addNew
      split <;> simp
    unfold fillTracks
    split
    · omega
    · next hmax => exact ih (not_le.mp hmax)

end Filling

end Encodr
