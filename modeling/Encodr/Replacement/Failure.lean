import Encodr.Replacement.Survival

/-!
# A failed placement

What the files hold after a placement that reports a failure, when the rollback steps it tries
work.

* `Failed.unchanged`: a replacement that raised without a half-way copy left the files as they were.
* `Failed.partial_final`, `Failed.partial_source`: the files after a half-way copy.
* `failed_intact_iff`: the files are as before unless the run reaches a copy across devices that
  fails half-way (`LeavesPartialOutput`).
-/

namespace Encodr

open Python Lib

section Failures

variable {C : Type} {F : Faults Site C} {fs₀ fs : Files PosixPath C} {p : InPlacePaths}
  {source staged : PosixPath} {plan : ProcessingPlan} {strategy : String} {draws : List String}
  {replaced : Option PosixPath} {orig out c : C}

theorem PathsOf.unique {q : InPlacePaths} (hp : PathsOf source staged plan p)
    (hq : PathsOf source staged plan q) : p = q := by
  obtain ⟨rfl, rfl, hpf, hpb⟩ := hp
  obtain ⟨hs, ht, hqf, hqb⟩ := hq
  cases p
  cases q
  cases hs
  cases ht
  cases Except.ok.inj (hpf.symm.trans hqf)
  cases Except.ok.inj (hpb.symm.trans hqb)
  rfl

/-- A copy that fails half-way does not move the output. -/
theorem not_outputMoves_of_copyLeaves (h : copyLeaves F = some c) : ¬ OutputMoves F := by
  intro hm
  unfold copyLeaves at h
  cases hr : F .replaceFinal with
  | none => simp [hr] at h
  | some fault => simp [hr, hm fault hr] at h

/-- The backup path is free once an earlier backup is set aside. -/
theorem afterAside_backup_free (hs : InPlaceStart fs₀ p orig out)
    (hr : replaced = setAsidePath fs₀ p strategy draws)
    (hreach : ReachesMove F fs₀ p strategy draws)
    (hk : strategy = "fail" ∨ strategy = "replace_backup")
    (hp : PathsOf source staged plan p) : afterAside p replaced fs₀ p.backupPath = none := by
  cases hold : fs₀ p.backupPath with
  | none =>
    unfold afterAside
    rw [hold]
    cases replaced <;> exact hold
  | some old =>
    obtain ⟨t, ht⟩ := hreach.setsAside hk hold
    rw [hr, ht, afterAside_some hold]
    exact Files.move_src (setAsidePath_apart hp hs ht).2.2.1.symm old

/-- Restoring a backup that was set aside undoes it. -/
theorem afterRestore_afterAside (hr : replaced = setAsidePath fs₀ p strategy draws)
    (hF : F .restoreBackup = none) :
    afterRestore F replaced p.backupPath (afterAside p replaced fs₀) = fs₀ := by
  cases replaced with
  | none => rfl
  | some t =>
    obtain ⟨-, ⟨old, hold⟩, hfree, -⟩ := setAsidePath_some hr.symm
    have hne : p.backupPath ≠ t := fun h => by simp [h, hfree] at hold
    rw [afterAside_some hold]
    simp only [afterRestore, Files.move_dst, Files.move_src hne, hF]
    exact Files.move_move_back hold hfree

/-- A failure without a half-way copy leaves the files as they were, when the rollback works. -/
theorem Failed.unchanged {e : Raised} (hp : PathsOf source staged plan p)
    (hs : InPlaceStart fs₀ p orig out) (h : Failed F fs₀ p strategy draws e fs)
    (hstrategy : strategy = "fail" ∨ strategy = "replace_backup" ∨ strategy = "keep_existing_backup")
    (hroll : F .rollbackSource = none) (hrestore : F .restoreBackup = none)
    (hcopy : ReachesMove F fs₀ p strategy draws → copyLeaves F = none) : fs = fs₀ := by
  cases h with
  | refused => rfl
  | sourceNotMoved replaced hr => exact afterRestore_afterAside hr hrestore
  | outputNotMoved replaced hr hreach =>
    have hmove : afterFailedMove F p.finalOutputPath (beforeMove p strategy replaced fs₀) =
        beforeMove p strategy replaced fs₀ := by
      simp [afterFailedMove, hcopy hreach]
    rw [hmove]
    by_cases hk : strategy = "keep_existing_backup"
    · subst hk
      rw [beforeMove_keep hr]
      simp [afterRollback, afterRestore, hr.trans setAsidePath_keep]
    · have hk' : strategy = "fail" ∨ strategy = "replace_backup" := by
        rcases hstrategy with h | h | h
        · exact .inl h
        · exact .inr h
        · exact absurd h hk
      have hfree := afterAside_backup_free hs hr hreach hk' hp
      have hsource : afterAside p replaced fs₀ p.sourcePath = some orig := by
        rw [afterAside_of_ne hs.source_ne_backup (hr ▸ setAsidePath_ne hs.source), hs.source]
      have hcreate : (strategy != "keep_existing_backup") = true := by simpa using hk
      rw [beforeMove_create hs hr hk]
      simp only [afterRollback, hcreate, Files.move_dst, Files.move_src hs.source_ne_backup, hroll]
      rw [Files.move_move_back hsource hfree]
      exact afterRestore_afterAside hr hrestore

/-- A half-way copy leaves what it wrote at the final path. -/
theorem Failed.partial_final {e : Raised} (hp : PathsOf source staged plan p)
    (hs : InPlaceStart fs₀ p orig out) (h : Failed F fs₀ p strategy draws e fs)
    (hreach : ReachesMove F fs₀ p strategy draws) (hcopy : copyLeaves F = some c) :
    fs p.finalOutputPath = some c := by
  cases h with
  | refused h => exact absurd hreach h
  | sourceNotMoved replaced hr h => exact absurd hreach h
  | outputNotMoved replaced hr _ hm =>
    have hfinal : afterFailedMove F p.finalOutputPath (beforeMove p strategy replaced fs₀)
        p.finalOutputPath = some c := by
      simp [afterFailedMove, hcopy]
    have ht : replaced ≠ some p.finalOutputPath := fun ht =>
      (setAsidePath_apart hp hs (hr.symm.trans ht)).2.2.2 rfl
    rw [afterRestore_of_ne hs.final_ne_backup ht]
    -- The rollback writes to the source path only when that is free, so not over the partial
    -- output.
    rcases afterRollback_cases F p (strategy != "keep_existing_backup") (afterFailedMove F
      p.finalOutputPath (beforeMove p strategy replaced fs₀)) with heq | ⟨b, -, hfree, heq⟩
    · rw [heq, hfinal]
    · have hne : p.finalOutputPath ≠ p.sourcePath := fun h => by
        rw [← h, hfinal] at hfree
        cases hfree
      rw [heq, Files.move_of_ne hs.final_ne_backup hne, hfinal]

/-- A half-way copy over the source path leaves the original at the backup path alone. -/
theorem Failed.partial_source {e : Raised} (hs : InPlaceStart fs₀ p orig out)
    (h : Failed F fs₀ p strategy draws e fs) (hreach : ReachesMove F fs₀ p strategy draws)
    (hcopy : copyLeaves F = some c) (hsame : p.finalOutputPath = p.sourcePath) :
    ∃ replaced, replaced = setAsidePath fs₀ p strategy draws ∧
      fs = Function.update (beforeMove p strategy replaced fs₀) p.sourcePath (some c) := by
  cases h with
  | refused h => exact absurd hreach h
  | sourceNotMoved replaced hr h => exact absurd hreach h
  | outputNotMoved replaced hr _ hm =>
    refine ⟨replaced, hr, ?_⟩
    have hmove : afterFailedMove F p.finalOutputPath (beforeMove p strategy replaced fs₀) =
        Function.update (beforeMove p strategy replaced fs₀) p.sourcePath (some c) := by
      simp [afterFailedMove, hcopy, hsame]
    rw [hmove]
    have hrolled : afterRollback F p (strategy != "keep_existing_backup")
        (Function.update (beforeMove p strategy replaced fs₀) p.sourcePath (some c)) =
        Function.update (beforeMove p strategy replaced fs₀) p.sourcePath (some c) := by
      rcases afterRollback_cases F p (strategy != "keep_existing_backup")
        (Function.update (beforeMove p strategy replaced fs₀) p.sourcePath (some c))
        with heq | ⟨b, -, hfree, -⟩
      · exact heq
      · simp at hfree
    rw [hrolled]
    by_cases hk : strategy = "keep_existing_backup"
    · subst hk
      simp [afterRestore, hr.trans setAsidePath_keep]
    · refine afterRestore_blocked (c := orig) ?_
      rw [Function.update_of_ne hs.source_ne_backup.symm, beforeMove_create hs hr hk,
        Files.move_dst]

/-- The run reported a failed placement. -/
def ReportedFailed (r : Except Raised ReplacementResult) : Prop :=
  ∃ res, r = .ok res ∧ res.status = .failed

/-- The source, staged, final and backup paths hold what they held before. -/
structure Intact (fs₀ : Files PosixPath C) (source staged : PosixPath) (plan : ProcessingPlan)
    (fs : Files PosixPath C) : Prop where
  source_eq : fs source = fs₀ source
  staged_eq : fs staged = fs₀ staged
  final_eq : ∀ f, finalOutputPath source plan = .ok f → fs f = fs₀ f
  backup_eq : ∀ b, buildBackupPath source = .ok b → fs b = fs₀ b

/-- The run reaches a copy across devices that breaks off after it wrote to the final path. Over
the source path, the bytes it left can be those that were there before, at the backup path too
when a new backup was made; nothing is to be seen then. -/
inductive LeavesPartialOutput (F : Faults Site C) (fs₀ : Files PosixPath C)
    (source staged : PosixPath) (plan : ProcessingPlan) (draws : List String) : Prop
  | inPlace {p : InPlacePaths} {c : C} (hin : plan.replace.inPlace = true)
      (hp : PathsOf source staged plan p) (hstaged : fs₀.has staged = true)
      (hsource : fs₀.has source = true)
      (hreach : ReachesMove F fs₀ p plan.replace.existingBackupStrategy draws)
      (hcopy : copyLeaves F = some c)
      (hseen : ¬ (p.finalOutputPath = source ∧ fs₀ source = some c ∧
        (plan.replace.existingBackupStrategy ≠ "keep_existing_backup" →
          fs₀ p.backupPath = some c))) : LeavesPartialOutput F fs₀ source staged plan draws
  | alongside {f : PosixPath} {c : C} (hin : plan.replace.inPlace = false)
      (hf : alongsideFinalPath source plan.container.targetContainer = .ok f)
      (hstaged : fs₀.has staged = true) (hfree : fs₀ f = none) (hcopy : copyLeaves F = some c) :
      LeavesPartialOutput F fs₀ source staged plan draws

theorem Intact.refl : Intact fs₀ source staged plan fs₀ :=
  ⟨rfl, rfl, fun _ _ => rfl, fun _ _ => rfl⟩

/-- After a half-way copy the files are as before exactly when the copy wrote what was there. -/
theorem Failed.intact_iff {e : Raised} (hin : plan.replace.inPlace = true)
    (hp : PathsOf source staged plan p) (hs : InPlaceStart fs₀ p orig out)
    (h : Failed F fs₀ p plan.replace.existingBackupStrategy draws e fs)
    (hreach : ReachesMove F fs₀ p plan.replace.existingBackupStrategy draws)
    (hcopy : copyLeaves F = some c) :
    Intact fs₀ source staged plan fs ↔ p.finalOutputPath = source ∧ fs₀ source = some c ∧
      (plan.replace.existingBackupStrategy ≠ "keep_existing_backup" →
        fs₀ p.backupPath = some c) := by
  have hfinal := h.partial_final hp hs hreach hcopy
  have hsrc := hp.source_eq
  have hpath : finalOutputPath source plan = .ok p.finalOutputPath := by
    simp [finalOutputPath, hin, hp.final_eq]
  by_cases hsame : p.finalOutputPath = source
  · obtain ⟨replaced, hr, rfl⟩ := h.partial_source hs hreach hcopy (hsame.trans hsrc.symm)
    have horig : fs₀ source = some orig := hsrc ▸ hs.source
    by_cases hk : plan.replace.existingBackupStrategy = "keep_existing_backup"
    · rw [hk] at hr ⊢
      rw [beforeMove_keep hr]
      constructor
      · intro hi
        exact ⟨hsame, by simpa [hsrc] using hi.source_eq.symm, fun h => absurd rfl h⟩
      · rintro ⟨-, hc, -⟩
        rw [hsrc, ← hc, Function.update_eq_self]
        exact .refl
    · rw [beforeMove_create hs hr hk]
      have hne : p.backupPath ≠ source := hsrc ▸ hs.source_ne_backup.symm
      constructor
      · intro hi
        have hc : fs₀ source = some c := by simpa [hsrc] using hi.source_eq.symm
        have hb := hi.backup_eq _ hp.backup_eq
        rw [hsrc, Function.update_of_ne hne, Files.move_dst] at hb
        exact ⟨hsame, hc, fun _ => by rw [← hb, ← horig, hc]⟩
      · rintro ⟨-, hc, hb⟩
        have hat : ∀ r, r = source ∨ r = p.backupPath → Function.update ((afterAside p replaced
            fs₀).move p.sourcePath p.backupPath orig) p.sourcePath (some c) r = fs₀ r := by
          rintro r (rfl | rfl)
          · simp [hsrc, hc]
          · rw [hsrc, Function.update_of_ne hne, Files.move_dst, hb hk, ← hc, horig]
        refine ⟨hat _ (.inl rfl), ?_, ?_, ?_⟩
        · have hst := hp.staged_eq
          have ht : replaced ≠ some staged := hr ▸ setAsidePath_ne (hst ▸ hs.staged)
          rw [Function.update_of_ne (hst ▸ hs.staged_ne_source),
            Files.move_of_ne (hst ▸ hs.staged_ne_source) (hst ▸ hs.staged_ne_backup),
            afterAside_of_ne (hst ▸ hs.staged_ne_backup) ht]
        · rintro f hf
          obtain rfl := Except.ok.inj (hpath.symm.trans hf)
          exact hat _ (.inl hsame)
        · rintro b hb'
          obtain rfl := Except.ok.inj (hp.backup_eq.symm.trans hb')
          exact hat _ (.inr rfl)
  · refine ⟨fun hi => ?_, fun h => absurd h.1 hsame⟩
    have := hi.final_eq _ hpath
    rw [hfinal, hreach.final_free (hsrc ▸ hsame)] at this
    cases this

theorem InPlaceOutcome.intact_iff {r : Except Raised ReplacementResult}
    (hin : plan.replace.inPlace = true)
    (hstrategy : plan.replace.existingBackupStrategy = "fail" ∨
      plan.replace.existingBackupStrategy = "replace_backup" ∨
      plan.replace.existingBackupStrategy = "keep_existing_backup")
    (hroll : F .rollbackSource = none) (hrestore : F .restoreBackup = none)
    (h : InPlaceOutcome F fs₀ source staged plan draws r fs) :
    (ReportedFailed r → Intact fs₀ source staged plan fs) ↔
      ¬ LeavesPartialOutput F fs₀ source staged plan draws := by
  cases h with
  | absent hr h =>
    refine ⟨fun _ hl => ?_, fun _ _ => .refl⟩
    cases hl with
    | inPlace _ _ hst hsr => rcases h with h | h <;> simp [Files.has, h] at hst hsr
    | alongside hin' => simp [hin] at hin'
  | noPath h =>
    constructor
    · intro _ hl
      cases hl with
      | inPlace _ hp => exact h ⟨_, hp⟩
      | alongside hin' => simp [hin] at hin'
    · rintro _ ⟨_, hr, _⟩
      cases hr
  | placed hp hs h =>
    constructor
    · intro _ hl
      cases hl with
      | inPlace _ _ _ _ _ hcopy => exact not_outputMoves_of_copyLeaves hcopy h.moves
      | alongside hin' => simp [hin] at hin'
    · rintro _ ⟨_, hr, hf⟩
      cases hr
      simp [h.status] at hf
  | @failed p orig out e fs hp hs h =>
    constructor
    · intro hi hl
      cases hl with
      | @inPlace q c _ hq _ _ hreach hcopy hseen =>
        obtain rfl := hp.unique hq
        have hf : ReportedFailed e.outcome := by
          cases h with
          | refused hn => exact absurd hreach hn
          | sourceNotMoved replaced hr hn => exact absurd hreach hn
          | outputNotMoved => exact ⟨_, rfl, rfl⟩
        exact hseen ((h.intact_iff hin hp hs hreach hcopy).mp (hi hf))
      | alongside hin' => simp [hin] at hin'
    · intro hl _
      by_cases hreach : ReachesMove F fs₀ p plan.replace.existingBackupStrategy draws
      · cases hcopy : copyLeaves F with
        | none => exact h.unchanged hp hs hstrategy hroll hrestore (fun _ => hcopy) ▸ .refl
        | some c =>
          by_contra hni
          refine hl (.inPlace hin hp ?_ ?_ hreach hcopy fun hsame =>
            hni ((h.intact_iff hin hp hs hreach hcopy).mpr hsame))
          · exact Files.has_eq_true.mpr ⟨out, hp.staged_eq ▸ hs.staged⟩
          · exact Files.has_eq_true.mpr ⟨orig, hp.source_eq ▸ hs.source⟩
      · exact h.unchanged hp hs hstrategy hroll hrestore (fun h => absurd h hreach) ▸ .refl

theorem AlongsideOutcome.intact_iff {r : Except Raised ReplacementResult}
    (hin : plan.replace.inPlace = false)
    (h : AlongsideOutcome F fs₀ source staged plan r fs) :
    (ReportedFailed r → Intact fs₀ source staged plan fs) ↔
      ¬ LeavesPartialOutput F fs₀ source staged plan draws := by
  cases h with
  | refused hr h =>
    refine ⟨fun _ hl => ?_, fun _ _ => .refl⟩
    cases hl with
    | inPlace hin' => simp [hin] at hin'
    | alongside _ hf hst hfree =>
      rcases h _ hf with h | h
      · simp [Files.has, h] at hst
      · exact h hfree
  | placed hf hout hfree hm hfs hr =>
    constructor
    · intro _ hl
      cases hl with
      | inPlace hin' => simp [hin] at hin'
      | alongside _ _ _ _ hcopy => exact not_outputMoves_of_copyLeaves hcopy hm
    · rintro _ ⟨_, hr', hf'⟩
      cases hr'
      simp [hr] at hf'
  | @failed f out res hf hout hfree hm hr =>
    have hpath : finalOutputPath source plan = .ok f := by simp [finalOutputPath, hin, hf]
    constructor
    · intro hi hl
      cases hl with
      | inPlace hin' => simp [hin] at hin'
      | alongside _ _ _ _ hcopy =>
        have := (hi ⟨res, rfl, hr⟩).final_eq f hpath
        simp [afterFailedMove, hcopy, hfree] at this
    · intro hl _
      cases hcopy : copyLeaves F with
      | none => simpa [afterFailedMove, hcopy] using Intact.refl
      | some c =>
        exact absurd (.alongside hin hf (Files.has_eq_true.mpr ⟨out, hout⟩) hfree hcopy) hl

/-- **A failed placement.** When the rollback steps work, a placement that reports a failure
leaves the source, staged, final and backup paths as they were if and only if the run does not
reach a copy across devices that breaks off half-way. -/
theorem failed_intact_iff (F : Faults Site C) (fs₀ : Files PosixPath C) (source staged : PosixPath)
    (plan : ProcessingPlan) (draws : List String)
    (hstrategy : plan.replace.existingBackupStrategy = "fail" ∨
      plan.replace.existingBackupStrategy = "replace_backup" ∨
      plan.replace.existingBackupStrategy = "keep_existing_backup")
    (hapart : StagedApart source staged plan)
    (hroll : F .rollbackSource = none) (hrestore : F .restoreBackup = none) :
    (ReportedFailed (placeVerifiedOutput source staged plan draws F fs₀).1 →
      Intact fs₀ source staged plan (placeVerifiedOutput source staged plan draws F fs₀).2) ↔
    ¬ LeavesPartialOutput F fs₀ source staged plan draws := by
  cases hin : plan.replace.inPlace with
  | true => exact (placeVerifiedOutput_inPlace F fs₀ draws hin hapart).intact_iff hin hstrategy hroll hrestore
  | false => exact (placeVerifiedOutput_alongside F fs₀ draws hin hapart).intact_iff hin

/-- The broken copy is reported as a failure, and the source holds what the copy left. -/
theorem brokenCopy_not_intact :
    StagedApart film stagedFilm (filmPlan .mkv (inPlaceWith "fail")) ∧
    brokenCopy .rollbackSource = none ∧ brokenCopy .restoreBackup = none ∧
    ReportedFailed (placeVerifiedOutput film stagedFilm (filmPlan .mkv (inPlaceWith "fail")) []
      brokenCopy filmFiles).1 ∧
    ¬ Intact filmFiles film stagedFilm (filmPlan .mkv (inPlaceWith "fail"))
      (placeVerifiedOutput film stagedFilm (filmPlan .mkv (inPlaceWith "fail")) [] brokenCopy
        filmFiles).2 := by
  refine ⟨.of_directory (by decide), rfl, rfl, ⟨_, rfl, rfl⟩, fun h => ?_⟩
  have hsource : (placeVerifiedOutput film stagedFilm (filmPlan .mkv (inPlaceWith "fail")) []
      brokenCopy filmFiles).2 film = some "out" := by decide
  have horig : filmFiles film = some "original" := by decide
  exact absurd (hsource.symm.trans (h.source_eq.trans horig)) (by decide)

theorem failed_intact_iff_film :
    (ReportedFailed (placeVerifiedOutput film stagedFilm (filmPlan .mkv (inPlaceWith "fail")) []
        brokenCopy filmFiles).1 →
      Intact filmFiles film stagedFilm (filmPlan .mkv (inPlaceWith "fail"))
        (placeVerifiedOutput film stagedFilm (filmPlan .mkv (inPlaceWith "fail")) [] brokenCopy
          filmFiles).2) ↔
    ¬ LeavesPartialOutput brokenCopy filmFiles film stagedFilm
      (filmPlan .mkv (inPlaceWith "fail")) [] :=
  failed_intact_iff brokenCopy filmFiles film stagedFilm _ [] (.inl rfl)
    (.of_directory (by decide)) rfl rfl

end Failures

end Encodr
