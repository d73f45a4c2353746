import Encodr.Replacement.Failure

/-!
# A successful replacement

What the files hold after an in-place placement that reports success.

* `Finished.of_ne`, `outputMove_of_ne`: the last steps change their own paths only.
* `Placed.reallyReplaced`: the output is in place of its source.
* `succeeded_replaced_iff`: so it is, unless the run keeps an existing backup while the output has
  another path than its source (`LeavesOldSource`).
-/

namespace Encodr

open Python Lib

section Successes

variable {C : Type} {F : Faults Site C} {fs₀ fs fs₁ fs₂ : Files PosixPath C} {p : InPlacePaths}
  {source staged : PosixPath} {plan : ProcessingPlan} {draws : List String} {orig out : C}

/-- The output is in place of its source: the final path has the staged bytes, the source path is
free unless it is the final path, a reported backup has the bytes it should have, and no other
file has changed. -/
structure ReallyReplaced (fs₀ : Files PosixPath C) (source staged : PosixPath)
    (plan : ProcessingPlan) (draws : List String) (res : ReplacementResult)
    (fs : Files PosixPath C) : Prop where
  final_eq : ∀ f, inPlaceFinalPath source plan.container.targetContainer = .ok f →
    fs.has f = true ∧ fs f = fs₀ staged
  source_free : ∀ f, inPlaceFinalPath source plan.container.targetContainer = .ok f →
    f ≠ source → fs source = none
  backup_eq : ∀ b, res.originalBackupPath = some b → fs.has b = true ∧
    fs b = if plan.replace.existingBackupStrategy = "keep_existing_backup" then fs₀ b
      else fs₀ source
  others : ∀ p q, PathsOf source staged plan p → q ≠ source → q ≠ staged →
    q ≠ p.finalOutputPath → q ≠ p.backupPath →
    setAsidePath fs₀ p plan.replace.existingBackupStrategy draws ≠ some q → fs q = fs₀ q

/-- The output moves to another path than its source, and the source stays because an existing
backup is kept in its place. -/
def LeavesOldSource (F : Faults Site C) (fs₀ : Files PosixPath C) (source staged : PosixPath)
    (plan : ProcessingPlan) : Prop :=
  ∃ p, PathsOf source staged plan p ∧
    plan.replace.existingBackupStrategy = "keep_existing_backup" ∧ p.finalOutputPath ≠ source ∧
    fs₀.has staged = true ∧ fs₀.has source = true ∧ fs₀.has p.backupPath = true ∧
    fs₀ p.finalOutputPath = none ∧ OutputMoves F

/-- The end of a replacement changes the backup path and the set-aside path only. -/
theorem Finished.of_ne {replaced : Option PosixPath} {create delete : Bool}
    {res : ReplacementResult} (h : Finished F p replaced create delete fs₂ res fs) {q : PosixPath}
    (hb : q ≠ p.backupPath) (ht : replaced ≠ some q) : fs q = fs₂ q := by
  rw [h.files, afterDeleteTemp_of_ne ht]
  split
  · exact Function.update_of_ne hb _ _
  · rfl

/-- The output move changes the staged path and the final path only. -/
theorem outputMove_of_ne {s f q : PosixPath}
    (h : fs₂ = fs₁.move s f out ∨ fs₂ = Function.update fs₁ f (some out)) (hs : q ≠ s)
    (hf : q ≠ f) : fs₂ q = fs₁ q := by
  rcases h with rfl | rfl
  · exact Files.move_of_ne hs hf out
  · exact Function.update_of_ne hf _ _

/-- A kept backup leaves the source where it was, unless the output is written over it. -/
theorem Placed.keep {res : ReplacementResult}
    (h : Placed F fs₀ p plan.replace draws out res fs)
    (hk : plan.replace.existingBackupStrategy = "keep_existing_backup") {q : PosixPath}
    (hst : q ≠ p.stagedOutputPath) (hf : q ≠ p.finalOutputPath) : fs q = fs₀ q := by
  obtain ⟨-, -, replaced, fs₁, fs₂, hr, rfl, hfs₂, hfin⟩ := h
  rw [hk] at hr hfs₂ hfin
  have hd : res.deletedOriginalSource = false := by
    by_contra hd
    have := (hfin.deleted.mp (by simpa using hd)).1
    simp at this
  have hfiles : fs = fs₂ := by
    rw [hfin.files, hd, hr.trans setAsidePath_keep]
    rfl
  rw [hfiles, outputMove_of_ne hfs₂ hst hf, beforeMove_keep hr]

/-- A successful replacement deletes the backup it made exactly when its plan says so and the
unlink works. -/
theorem Placed.deleted_iff {replace : ReplacePlan} {res : ReplacementResult}
    (hs : InPlaceStart fs₀ p orig out) (h : Placed F fs₀ p replace draws out res fs) :
    res.deletedOriginalSource = true ↔ replace.existingBackupStrategy ≠ "keep_existing_backup" ∧
      replace.deleteReplacedSource = true ∧ F .unlinkBackup = none := by
  obtain ⟨-, -, replaced, fs₁, fs₂, hr, rfl, hfs₂, hfin⟩ := h
  rw [hfin.deleted]
  by_cases hk : replace.existingBackupStrategy = "keep_existing_backup"
  · simp [hk]
  · have hb : fs₂ p.backupPath = some orig := by
      rw [outputMove_of_ne hfs₂ hs.staged_ne_backup.symm hs.final_ne_backup.symm,
        beforeMove_create hs hr hk, Files.move_dst]
    simp [hk, Files.has_eq_true.mpr ⟨orig, hb⟩]

/-- A successful replacement reports its backup path unless it deleted the backup. -/
theorem Placed.backupPath {replace : ReplacePlan} {res : ReplacementResult}
    (h : Placed F fs₀ p replace draws out res fs) :
    res.originalBackupPath = if res.deletedOriginalSource then none else some p.backupPath := by
  obtain ⟨-, -, _, _, _, -, -, -, hfin⟩ := h
  exact hfin.backupPath

/-- Only a replacement that placed its output succeeds. -/
theorem InPlaceOutcome.placed_of_succeeded {res : ReplacementResult}
    (h : InPlaceOutcome F fs₀ source staged plan draws (.ok res) fs) (hst : res.status = .succeeded) :
    ∃ p orig out, PathsOf source staged plan p ∧ InPlaceStart fs₀ p orig out ∧
      Placed F fs₀ p plan.replace draws out res fs := by
  generalize hr : (Except.ok res : Except Raised ReplacementResult) = r at h
  cases h with
  | absent hf =>
    cases hr
    simp [hf] at hst
  | noPath => cases hr
  | @failed _ _ _ e _ hp hs h =>
    obtain ⟨error, he⟩ : ∃ error : ReplacementError, error.result = res := by
      cases e <;> simp [Raised.outcome] at hr
      exact ⟨_, hr.symm⟩
    rw [← he] at hst
    cases hst
  | placed hp hs h =>
    cases hr
    exact ⟨_, _, _, hp, hs, h⟩

theorem Placed.reallyReplaced {res : ReplacementResult} (hp : PathsOf source staged plan p)
    (hs : InPlaceStart fs₀ p orig out) (h : Placed F fs₀ p plan.replace draws out res fs)
    (hl : ¬ LeavesOldSource F fs₀ source staged plan) :
    ReallyReplaced fs₀ source staged plan draws res fs := by
  have horig : fs₀ source = some orig := hp.source_eq ▸ hs.source
  have hout : fs₀ staged = some out := hp.staged_eq ▸ hs.staged
  obtain ⟨hreach, hmoves, replaced, fs₁, fs₂, hr, rfl, hfs₂, hfin⟩ := id h
  have hapart : ∀ t, replaced = some t → t ≠ p.sourcePath ∧ t ≠ p.stagedOutputPath ∧
      t ≠ p.backupPath ∧ t ≠ p.finalOutputPath :=
    fun t ht => setAsidePath_apart hp hs (hr.symm.trans ht)
  have hfinal : fs p.finalOutputPath = some out := by
    rw [hfin.of_ne hs.final_ne_backup fun ht => (hapart _ ht).2.2.2 rfl]
    rcases hfs₂ with rfl | rfl <;> simp
  constructor
  · intro f hf
    obtain rfl := Except.ok.inj (hp.final_eq.symm.trans hf)
    exact ⟨Files.has_eq_true.mpr ⟨out, hfinal⟩, hfinal.trans hout.symm⟩
  · intro f hf hne
    obtain rfl := Except.ok.inj (hp.final_eq.symm.trans hf)
    have hk : plan.replace.existingBackupStrategy ≠ "keep_existing_backup" := fun hk =>
      hl ⟨p, hp, hk, hne, Files.has_eq_true.mpr ⟨out, hout⟩, Files.has_eq_true.mpr ⟨orig, horig⟩,
        hreach.backup_kept hk, hreach.final_free (hp.source_eq ▸ hne), hmoves⟩
    rw [← hp.source_eq] at hne ⊢
    rw [hfin.of_ne hs.source_ne_backup fun ht => (hapart _ ht).1 rfl,
      outputMove_of_ne hfs₂ hs.staged_ne_source.symm hne.symm, beforeMove_create hs hr hk,
      Files.move_src hs.source_ne_backup]
  · intro b hb
    have hd : res.deletedOriginalSource = false := by
      by_contra hd
      simp [hfin.backupPath, hd] at hb
    obtain rfl : p.backupPath = b := by simpa [hfin.backupPath, hd] using hb
    by_cases hk : plan.replace.existingBackupStrategy = "keep_existing_backup"
    · have heq := h.keep hk hs.staged_ne_backup.symm hs.final_ne_backup.symm
      have hhas := hreach.backup_kept hk
      exact ⟨by rwa [Files.has, heq], by rw [if_pos hk, heq]⟩
    · have heq := h.original hp hs hk hd
      exact ⟨Files.has_eq_true.mpr ⟨orig, heq⟩, by rw [if_neg hk, heq, horig]⟩
  · intro p' q hp' hqs hqt hqf hqb hqr
    obtain rfl := hp.unique hp'
    have hqr' : replaced ≠ some q := hr ▸ hqr
    rw [← hp.source_eq] at hqs
    rw [← hp.staged_eq] at hqt
    rw [hfin.of_ne hqb hqr', outputMove_of_ne hfs₂ hqt hqf, beforeMove, afterBackup_of_ne hqs hqb,
      afterAside_of_ne hqb hqr']

/-- **A successful replacement.** An in-place placement that reports success really replaced its
source if and only if it did not keep an existing backup while it moved the output to another
path. -/
theorem succeeded_replaced_iff (F : Faults Site C) (fs₀ : Files PosixPath C)
    (source staged : PosixPath) (plan : ProcessingPlan) (draws : List String)
    (hin : plan.replace.inPlace = true) (hapart : StagedApart source staged plan) :
    (∀ res, (placeVerifiedOutput source staged plan draws F fs₀).1 = .ok res →
      res.status = .succeeded → ReallyReplaced fs₀ source staged plan draws res
        (placeVerifiedOutput source staged plan draws F fs₀).2) ↔
    ¬ LeavesOldSource F fs₀ source staged plan := by
  have houtcome := placeVerifiedOutput_inPlace F fs₀ draws hin hapart
  generalize (placeVerifiedOutput source staged plan draws F fs₀).1 = r at houtcome ⊢
  generalize (placeVerifiedOutput source staged plan draws F fs₀).2 = fs at houtcome ⊢
  constructor
  · rintro hrep ⟨p, hp, hk, hne, hst, hsr, hb, hfree, hmoves⟩
    have hreach : ReachesMove F fs₀ p plan.replace.existingBackupStrategy draws :=
      ⟨by simp [hk], fun _ => hb, fun _ => hfree, by simp [SetsAside, hk], fun h => absurd hk h⟩
    cases houtcome with
    | absent _ h => rcases h with h | h <;> simp [Files.has, h] at hst hsr
    | noPath h => exact h ⟨p, hp⟩
    | @placed q orig out res fs hq hs h =>
      obtain rfl := hp.unique hq
      have hfree := (hrep res rfl h.status).source_free _ hp.final_eq hne
      rw [← hp.source_eq] at hfree hne
      rw [h.keep hk hs.staged_ne_source.symm hne.symm, hs.source] at hfree
      cases hfree
    | failed hq hs h =>
      obtain rfl := hp.unique hq
      cases h with
      | refused hn => exact hn hreach
      | sourceNotMoved replaced hr hn => exact hn hreach
      | outputNotMoved replaced hr _ hn => exact hn hmoves
  · intro hl res hres hst
    cases houtcome with
    | absent hf =>
      cases hres
      simp [hf] at hst
    | noPath => cases hres
    | placed hp hs h =>
      cases hres
      exact h.reallyReplaced hp hs hl
    | @failed p orig out e fs hp hs h =>
      cases e with
      | replacement error =>
        cases hres
        cases hst
      | value e => cases hres
      | drawing => cases hres

/-- `/media/film.encodr-backup.mkv`. -/
def filmBackup : PosixPath := ⟨.slash, ["media", "film.encodr-backup.mkv"], by decide⟩

/-- The film with an earlier backup. -/
def filmFilesWithBackup : Files PosixPath String :=
  Function.update filmFiles filmBackup (some "earlier")

/-- No operation fails. -/
def noFaults : Faults Site String := fun _ => none

/-- The output becomes `/media/film.mp4`, and `/media/film.mkv` stays beside it. -/
theorem keptBackup_leaves_source :
    ∃ res, (placeVerifiedOutput film stagedFilm (filmPlan .mp4 (inPlaceWith "keep_existing_backup"))
        [] noFaults filmFilesWithBackup).1 = .ok res ∧ res.status = .succeeded ∧
      ¬ ReallyReplaced filmFilesWithBackup film stagedFilm
        (filmPlan .mp4 (inPlaceWith "keep_existing_backup")) [] res
        (placeVerifiedOutput film stagedFilm (filmPlan .mp4 (inPlaceWith "keep_existing_backup"))
          [] noFaults filmFilesWithBackup).2 := by
  refine ⟨_, rfl, rfl, fun h => ?_⟩
  have hfinal : inPlaceFinalPath film .mp4 =
      .ok ⟨.slash, ["media", "film.mp4"], by decide⟩ := by decide
  have hfree := h.source_free _ hfinal (by decide)
  have hthere : (placeVerifiedOutput film stagedFilm
      (filmPlan .mp4 (inPlaceWith "keep_existing_backup")) [] noFaults filmFilesWithBackup).2 film =
      some "original" := by decide
  exact absurd (hthere.symm.trans hfree) (by decide)

theorem succeeded_replaced_iff_film :
    (∀ res, (placeVerifiedOutput film stagedFilm (filmPlan .mkv (inPlaceWith "replace_backup"))
        ["0a"] noFaults filmFilesWithBackup).1 = .ok res → res.status = .succeeded →
      ReallyReplaced filmFilesWithBackup film stagedFilm
        (filmPlan .mkv (inPlaceWith "replace_backup")) ["0a"] res
        (placeVerifiedOutput film stagedFilm (filmPlan .mkv (inPlaceWith "replace_backup")) ["0a"]
          noFaults filmFilesWithBackup).2) ↔
    ¬ LeavesOldSource noFaults filmFilesWithBackup film stagedFilm
      (filmPlan .mkv (inPlaceWith "replace_backup")) :=
  succeeded_replaced_iff noFaults filmFilesWithBackup film stagedFilm _ ["0a"] rfl
    (.of_directory (by decide))

/-- A replacement that succeeds reports its final path. -/
def ReplacementResult.ReportsFinal (r : ReplacementResult) : Prop :=
  r.status = .succeeded → r.finalOutputPath.isSome = true

theorem finishReplacement_reportsFinal {A : Files PosixPath C → Prop} {replaced : Option PosixPath}
    {create delete : Bool} {details : Dict} {ε : Type} :
    Triple F A (finishReplacement p replaced create delete details : PlaceM C ε ReplacementResult)
      (fun r _ => r.ReportsFinal) fun _ _ => True := by
  refine .andThen fun _ => .ite (fun _ => .andThen fun r => ?_) fun _ => .andThen fun _ => .pure fun _ _ _ => rfl
  cases r with
  | ok _ => exact .andThen fun _ => .pure fun _ _ _ => rfl
  | error _ => exact .andThen fun _ => .andThen fun _ => .pure fun _ _ _ => rfl

theorem replaceInPlace_reportsFinal {A : Files PosixPath C → Prop} :
    Triple F A (replaceInPlace source staged plan draws) (fun r _ => r.ReportsFinal)
      fun _ _ => True := by
  refine .andThen fun _ => .ite (fun _ => ?_) fun _ => .throw fun _ _ => trivial
  split
  · exact .throw fun _ _ => trivial
  · exact .throw fun _ _ => trivial
  · exact .andThen fun _ => .andThen fun _ => .andThen fun _ => .andThen fun _ => .andThen fun _ =>
      finishReplacement_reportsFinal

theorem placeAlongsideOriginal_reportsFinal {A : Files PosixPath C → Prop} :
    Triple F A (placeAlongsideOriginal source staged plan) (fun r _ => r.ReportsFinal)
      fun _ _ => True := by
  unfold placeAlongsideOriginal
  split
  · exact .throw fun _ _ => trivial
  · refine .andThen fun _ => .ite (fun _ => .throw fun _ _ => trivial) fun _ => .andThen fun r => ?_
    cases r with
    | error _ => exact .andThen fun _ => .throw fun _ _ => trivial
    | ok _ => exact .pure fun _ _ _ => rfl

theorem placeVerifiedOutput_reportsFinal {r : ReplacementResult}
    (h : (placeVerifiedOutput source staged plan draws F fs₀).1 = .ok r) : r.ReportsFinal := by
  have hrun : Triple F (fun _ => True) (placeVerifiedOutput source staged plan draws)
      (fun r _ => r.ReportsFinal) fun _ _ => True := by
    refine .andThen fun _ => .ite (fun _ => ?_) fun _ => .pure fun _ _ => nofun
    refine .bind (Q := fun out _ => ∀ r, out = .ok r → r.ReportsFinal) (.attempt ?_) fun out => ?_
    · have hbranch : Triple F (fun _ => True) (if plan.replace.inPlace
            then replaceInPlace source staged plan draws
            else placeAlongsideOriginal source staged plan)
          (fun r _ => r.ReportsFinal) fun _ _ => True :=
        .ite (fun _ => replaceInPlace_reportsFinal) fun _ => placeAlongsideOriginal_reportsFinal
      exact hbranch.conseq (fun _ h => h) (fun _ _ h _ heq => Except.ok.inj heq ▸ h) fun _ _ _ => nofun
    · cases out with
      | ok result => exact .pure fun _ h => h result rfl
      | error e =>
        cases e with
        | replacement error => exact .pure fun _ _ => nofun
        | value e => exact .throw fun _ _ => trivial
        | drawing => exact .throw fun _ _ => trivial
  have hresult : Triple F (fun _ => True) (placeVerifiedOutput source staged plan draws)
      (fun a _ => ∀ r, Except.ok a = Except.ok (ε := Raised) r → r.ReportsFinal)
      fun e _ => ∀ r, Except.error e = Except.ok r → ReplacementResult.ReportsFinal r :=
    hrun.conseq (fun _ h => h) (fun _ _ h _ heq => Except.ok.inj heq ▸ h) fun _ _ _ => nofun
  have hout : ∀ r, (placeVerifiedOutput source staged plan draws F fs₀).1 = .ok r → r.ReportsFinal :=
    hresult.run (R := fun out _ => ∀ r, out = .ok r → ReplacementResult.ReportsFinal r) trivial
  exact hout r h

end Successes

end Encodr
