import Encodr.Replacement.Outcome

/-!
# The original survives

A placement that makes a new backup never loses the bytes of the original, nor those of an
earlier backup, whatever file operations fail.

* `Failed.original`, `Failed.oldBackup`: where the bytes are after a replacement that raised.
* `Placed.original`: where they are after one that succeeded.
* `original_survives`: the outcome of `placeVerifiedOutput`, in place or alongside.
-/

namespace Encodr

open Python Lib

section Keeps

variable {C : Type} {F : Faults Site C} {fs₀ fs : Files PosixPath C} {p : InPlacePaths}
  {strategy : String} {draws : List String} {replaced : Option PosixPath} {orig out old : C}

/-! ## The files between the steps -/

theorem afterRestore_cases (F : Faults Site C) (replaced : Option PosixPath) (b : PosixPath)
    (fs : Files PosixPath C) :
    afterRestore F replaced b fs = fs ∨ ∃ t c, replaced = some t ∧ fs t = some c ∧ fs b = none ∧
      afterRestore F replaced b fs = fs.move t b c := by
  unfold afterRestore
  split
  · exact .inl rfl
  · split
    · exact .inr ⟨_, _, rfl, ‹_›, ‹_›, rfl⟩
    · exact .inl rfl

theorem afterRollback_cases (F : Faults Site C) (p : InPlacePaths) (create : Bool)
    (fs : Files PosixPath C) :
    afterRollback F p create fs = fs ∨ ∃ c, fs p.backupPath = some c ∧ fs p.sourcePath = none ∧
      afterRollback F p create fs = fs.move p.backupPath p.sourcePath c := by
  unfold afterRollback
  split
  · exact .inr ⟨_, ‹_›, ‹_›, rfl⟩
  · exact .inl rfl

/-- A restored backup, or the set-aside one, still has its bytes. -/
theorem afterRestore_old (F : Faults Site C) (b : PosixPath) {t : PosixPath} (h : fs t = some old) :
    afterRestore F (some t) b fs b = some old ∨ afterRestore F (some t) b fs t = some old := by
  rcases afterRestore_cases F (some t) b fs with heq | ⟨t', c, ht', hc, -, heq⟩
  · exact .inr (by rw [heq, h])
  · obtain rfl := Option.some.inj ht'
    obtain rfl : c = old := Option.some.inj (hc.symm.trans h)
    exact .inl (by rw [heq, Files.move_dst])

theorem afterRestore_of_ne {b r : PosixPath} (hb : r ≠ b) (ht : replaced ≠ some r) :
    afterRestore F replaced b fs r = fs r := by
  rcases afterRestore_cases F replaced b fs with heq | ⟨t, c, rfl, -, -, heq⟩
  · rw [heq]
  · rw [heq, Files.move_of_ne (fun h => ht (by rw [h])) hb]

/-- A backup path in use blocks the restore. -/
theorem afterRestore_blocked {b : PosixPath} {c : C} (h : fs b = some c) :
    afterRestore F replaced b fs = fs := by
  rcases afterRestore_cases F replaced b fs with heq | ⟨t, c', -, -, hb, -⟩
  · exact heq
  · simp [h] at hb

theorem afterFailedMove_of_ne {f r : PosixPath} (h : r ≠ f) :
    afterFailedMove F f fs r = fs r := by
  unfold afterFailedMove
  cases copyLeaves F with
  | none => rfl
  | some c => exact Function.update_of_ne h _ _

theorem afterDeleteTemp_of_ne {r : PosixPath} (h : replaced ≠ some r) :
    afterDeleteTemp F replaced fs r = fs r := by
  cases replaced with
  | none => rfl
  | some t =>
    unfold afterDeleteTemp
    split
    · exact Function.update_of_ne (fun hr => h (by rw [hr])) _ _
    · rfl

/-- The set-aside path is apart from the paths of the replacement. -/
theorem setAsidePath_apart {source staged : PosixPath} {plan : ProcessingPlan} {t : PosixPath}
    (hp : PathsOf source staged plan p) (hs : InPlaceStart fs₀ p orig out)
    (ht : setAsidePath fs₀ p strategy draws = some t) :
    t ≠ p.sourcePath ∧ t ≠ p.stagedOutputPath ∧ t ≠ p.backupPath ∧ t ≠ p.finalOutputPath := by
  obtain ⟨-, ⟨old, hold⟩, -, hex, -, hpath⟩ := setAsidePath_some ht
  refine ⟨?_, ?_, ?_, replacingPath_ne_final hp.final_eq hp.backup_eq hpath⟩
  · exact fun h => setAsidePath_ne hs.source (h ▸ ht)
  · exact fun h => setAsidePath_ne hs.staged (h ▸ ht)
  · exact fun h => setAsidePath_ne hold (h ▸ ht)

/-- The source moves to its backup path before the output moves. -/
theorem beforeMove_create (hs : InPlaceStart fs₀ p orig out)
    (hr : replaced = setAsidePath fs₀ p strategy draws) (hk : strategy ≠ "keep_existing_backup") :
    beforeMove p strategy replaced fs₀ =
      (afterAside p replaced fs₀).move p.sourcePath p.backupPath orig := by
  have hsource : afterAside p replaced fs₀ p.sourcePath = some orig := by
    rw [afterAside_of_ne hs.source_ne_backup (hr ▸ setAsidePath_ne hs.source), hs.source]
  have hc : (strategy != "keep_existing_backup") = true := by simpa using hk
  simp [beforeMove, afterBackup, hc, hsource]

/-- An earlier backup is set aside by every run that reaches the output move and makes a new
backup. -/
theorem ReachesMove.setsAside (h : ReachesMove F fs₀ p strategy draws)
    (hk : strategy = "fail" ∨ strategy = "replace_backup") (hold : fs₀ p.backupPath = some old) :
    ∃ t, setAsidePath fs₀ p strategy draws = some t := by
  have hb := Files.has_eq_true.mpr ⟨old, hold⟩
  rcases hk with rfl | rfl
  · simp [h.backup_free rfl] at hold
  · rw [setAsidePath, hb]
    exact Option.isSome_iff_exists.mp (by simpa using (h.aside rfl hb).1)

theorem setAsidePath_keep : setAsidePath fs₀ p "keep_existing_backup" draws = none := by
  simp [setAsidePath]

theorem beforeMove_keep (hr : replaced = setAsidePath fs₀ p "keep_existing_backup" draws) :
    beforeMove p "keep_existing_backup" replaced fs₀ = fs₀ := by
  simp [beforeMove, afterBackup, afterAside, hr.trans setAsidePath_keep]

theorem afterAside_some {t : PosixPath} (h : fs₀ p.backupPath = some old) :
    afterAside p (some t) fs₀ = fs₀.move p.backupPath t old := by
  simp [afterAside, h]

/-! ## Nothing is lost -/

/-- The original's bytes are at the source path or at the backup path. -/
theorem Failed.original {e : Raised} (hs : InPlaceStart fs₀ p orig out)
    (h : Failed F fs₀ p strategy draws e fs)
    (hk : strategy ≠ "keep_existing_backup") :
    fs p.sourcePath = some orig ∨ fs p.backupPath = some orig := by
  cases h with
  | refused => exact .inl hs.source
  | sourceNotMoved replaced hr =>
    refine .inl ?_
    have ht : replaced ≠ some p.sourcePath := hr ▸ setAsidePath_ne hs.source
    rw [afterRestore_of_ne hs.source_ne_backup ht, afterAside_of_ne hs.source_ne_backup ht,
      hs.source]
  | outputNotMoved replaced hr =>
    have ht : replaced ≠ some p.sourcePath := hr ▸ setAsidePath_ne hs.source
    rw [beforeMove_create hs hr hk]
    have hb : afterFailedMove F p.finalOutputPath
        ((afterAside p replaced fs₀).move p.sourcePath p.backupPath orig) p.backupPath = some orig := by
      rw [afterFailedMove_of_ne hs.final_ne_backup.symm, Files.move_dst]
    -- Either the rollback moves the backup to the source path, or the backup stays and blocks
    -- the restore of the earlier one.
    rcases afterRollback_cases F p (strategy != "keep_existing_backup") (afterFailedMove F
      p.finalOutputPath ((afterAside p replaced fs₀).move p.sourcePath p.backupPath orig))
      with heq | ⟨c, hc, -, heq⟩
    · rw [heq, afterRestore_blocked hb]
      exact .inr hb
    · obtain rfl : c = orig := Option.some.inj (hc.symm.trans hb)
      rw [heq, afterRestore_of_ne hs.source_ne_backup ht, Files.move_dst]
      exact .inl rfl

/-- The bytes of an earlier backup are at the backup path or at the set-aside path. -/
theorem Failed.oldBackup {e : Raised} {source staged : PosixPath} {plan : ProcessingPlan}
    (hp : PathsOf source staged plan p) (hs : InPlaceStart fs₀ p orig out)
    (h : Failed F fs₀ p strategy draws e fs)
    (hk : strategy = "fail" ∨ strategy = "replace_backup") (hold : fs₀ p.backupPath = some old) :
    fs p.backupPath = some old ∨
      ∃ t, setAsidePath fs₀ p strategy draws = some t ∧ fs t = some old := by
  cases h with
  | refused => exact .inl hold
  | sourceNotMoved replaced hr =>
    cases replaced with
    | none => exact .inl hold
    | some t =>
      obtain ⟨-, -, htb, -⟩ := setAsidePath_apart hp hs hr.symm
      have hmoved : afterAside p (some t) fs₀ t = some old := by
        rw [afterAside_some hold, Files.move_dst]
      rcases afterRestore_old F p.backupPath hmoved with h | h
      · exact .inl h
      · exact .inr ⟨t, hr.symm, h⟩
  | outputNotMoved replaced hr hreach =>
    obtain ⟨t, ht⟩ := hreach.setsAside hk hold
    obtain rfl : replaced = some t := hr.trans ht
    obtain ⟨hts, -, htb, htf⟩ := setAsidePath_apart hp hs ht
    have hmoved : afterFailedMove F p.finalOutputPath (beforeMove p strategy (some t) fs₀) t =
        some old := by
      have hk : strategy ≠ "keep_existing_backup" := by rcases hk with rfl | rfl <;> decide
      rw [afterFailedMove_of_ne htf, beforeMove_create hs hr hk, Files.move_of_ne hts htb,
        afterAside_some hold, Files.move_dst]
    have hrolled : afterRollback F p (strategy != "keep_existing_backup")
        (afterFailedMove F p.finalOutputPath (beforeMove p strategy (some t) fs₀)) t = some old := by
      rcases afterRollback_cases F p (strategy != "keep_existing_backup") (afterFailedMove F
        p.finalOutputPath (beforeMove p strategy (some t) fs₀)) with heq | ⟨c, -, -, heq⟩
      · rw [heq, hmoved]
      · rw [heq, Files.move_of_ne htb hts, hmoved]
    rcases afterRestore_old F p.backupPath hrolled with h | h
    · exact .inl h
    · exact .inr ⟨t, ht, h⟩

theorem Placed.status {replace : ReplacePlan} {r : ReplacementResult}
    (h : Placed F fs₀ p replace draws out r fs) : r.status = .succeeded := by
  obtain ⟨-, -, _, _, _, -, -, -, hfin⟩ := h
  exact hfin.status

/-- A successful replacement that keeps its new backup has the original's bytes there. -/
theorem Placed.original {source staged : PosixPath} {plan : ProcessingPlan}
    {replace : ReplacePlan} {r : ReplacementResult} (hp : PathsOf source staged plan p)
    (hs : InPlaceStart fs₀ p orig out) (h : Placed F fs₀ p replace draws out r fs)
    (hk : replace.existingBackupStrategy ≠ "keep_existing_backup")
    (hd : r.deletedOriginalSource = false) : fs p.backupPath = some orig := by
  obtain ⟨-, -, replaced, fs₁, fs₂, hr, rfl, hfs₂, hfin⟩ := h
  have ht : replaced ≠ some p.backupPath := fun ht =>
    (setAsidePath_apart hp hs (hr.symm.trans ht)).2.2.1 rfl
  have hb : fs₂ p.backupPath = some orig := by
    have h₁ := Files.move_dst (afterAside p replaced fs₀) p.sourcePath p.backupPath orig
    rw [← beforeMove_create hs hr hk] at h₁
    rcases hfs₂ with rfl | rfl
    · rw [Files.move_of_ne hs.staged_ne_backup.symm hs.final_ne_backup.symm, h₁]
    · rw [Function.update_of_ne hs.final_ne_backup.symm, h₁]
  rw [hfin.files, hd, afterDeleteTemp_of_ne ht]
  exact hb

end Keeps

/-! ## A film -/

/-- `/media/film.mkv`. -/
def film : PosixPath := ⟨.slash, ["media", "film.mkv"], by decide⟩

/-- `/scratch/film.mkv`. -/
def stagedFilm : PosixPath := ⟨.slash, ["scratch", "film.mkv"], by decide⟩

/-- A remux of the film that is placed as `replace` says. -/
def filmPlan (container : OutputContainer) (replace : ReplacePlan) : ProcessingPlan where
  action := .remux
  summary := ⟨.remux, .high, false, false⟩
  policyContext := { policyName := "default", policyVersion := 1, sourcePath := film }
  selectedStreams := { videoStreamIndices := [0], audioStreamIndices := [1] }
  audio := { selectedStreamIndices := [1], primaryStreamIndex := some 1 }
  subtitles := {}
  video := { primaryStreamIndex := some 0, handling := .preserve, preserveOriginal := true }
  container := { targetContainer := container, handling := .preserve }
  rename := { enabled := false }
  replace := replace
  confidence := .high
  isAlreadyCompliant := false
  shouldTreatAsProtected := false

/-- An in-place replacement with a backup strategy. -/
def inPlaceWith (strategy : String) : ReplacePlan where
  inPlace := true
  requireVerification := true
  keepOriginalUntilVerified := true
  deleteReplacedSource := false
  existingBackupStrategy := strategy

/-- The film and its staged output. -/
def filmFiles : Files PosixPath String :=
  Function.update (Function.update (fun _ => none) film (some "original")) stagedFilm (some "output")

/-- The rename to the final path crosses devices, and the copy breaks off. -/
def brokenCopy : Faults Site String
  | .replaceFinal => some { error := ⟨some EXDEV, some "Invalid cross-device link", "OSError", "EXDEV"⟩ }
  | .copyToFinal => some {
      error := ⟨some 28, some "No space left on device", "OSError", "ENOSPC"⟩
      leaves := some "out" }
  | _ => none

/-! ## The original survives -/

section Claims

variable {C : Type}

/-- The run reported a successful placement. -/
def Succeeded (r : Except Raised ReplacementResult) : Prop :=
  ∃ res, r = .ok res ∧ res.status = .succeeded

/-- The original's bytes are at the source path or at the backup path, unless the run reported
that it deleted them. -/
def OriginalSurvives (fs₀ : Files PosixPath C) (source : PosixPath)
    (r : Except Raised ReplacementResult) (fs : Files PosixPath C) : Prop :=
  ∀ orig, fs₀ source = some orig →
    (∃ res, r = .ok res ∧ res.status = .succeeded ∧ res.deletedOriginalSource = true) ∨
    fs source = some orig ∨ ∃ b, buildBackupPath source = .ok b ∧ fs b = some orig

/-- The bytes of an earlier backup are at the backup path or at a set-aside path, unless the run
succeeded. -/
def BackupSurvives (fs₀ : Files PosixPath C) (source : PosixPath) (draws : List String)
    (r : Except Raised ReplacementResult) (fs : Files PosixPath C) : Prop :=
  ∀ b old, buildBackupPath source = .ok b → fs₀ b = some old →
    Succeeded r ∨ fs b = some old ∨
    ∃ hex ∈ draws, ∃ t, replacingPath b hex = .ok t ∧ fs t = some old

theorem InPlaceOutcome.survives {F : Faults Site C} {fs₀ fs : Files PosixPath C}
    {source staged : PosixPath} {plan : ProcessingPlan} {draws : List String}
    {r : Except Raised ReplacementResult}
    (hstrategy : plan.replace.existingBackupStrategy = "fail" ∨
      plan.replace.existingBackupStrategy = "replace_backup")
    (h : InPlaceOutcome F fs₀ source staged plan draws r fs) :
    OriginalSurvives fs₀ source r fs ∧ BackupSurvives fs₀ source draws r fs := by
  have hk : plan.replace.existingBackupStrategy ≠ "keep_existing_backup" := by
    rcases hstrategy with h | h <;> simp [h]
  cases h with
  | absent => exact ⟨fun _ ho => .inr (.inl ho), fun _ _ _ ho => .inr (.inl ho)⟩
  | noPath => exact ⟨fun _ ho => .inr (.inl ho), fun _ _ _ ho => .inr (.inl ho)⟩
  | @placed p orig' out res fs hp hs h =>
    refine ⟨fun orig ho => ?_, fun _ _ _ _ => .inl ⟨res, rfl, h.status⟩⟩
    obtain rfl : orig' = orig := Option.some.inj ((hp.source_eq ▸ hs.source).symm.trans ho)
    cases hd : res.deletedOriginalSource with
    | true => exact .inl ⟨res, rfl, h.status, hd⟩
    | false => exact .inr (.inr ⟨p.backupPath, hp.backup_eq, h.original hp hs hk hd⟩)
  | failed hp hs h =>
    constructor
    · intro orig ho
      obtain rfl : _ = orig := Option.some.inj ((hp.source_eq ▸ hs.source).symm.trans ho)
      rcases h.original hs hk with h | h
      · exact .inr (.inl (hp.source_eq ▸ h))
      · exact .inr (.inr ⟨_, hp.backup_eq, h⟩)
    · intro b old hb ho
      obtain rfl := Except.ok.inj (hp.backup_eq.symm.trans hb)
      rcases h.oldBackup hp hs hstrategy ho with h | ⟨t, ht, h⟩
      · exact .inr (.inl h)
      · obtain ⟨-, -, -, hex, hmem, hpath⟩ := setAsidePath_some ht
        exact .inr (.inr ⟨hex, hmem, t, hpath, h⟩)

theorem AlongsideOutcome.survives {F : Faults Site C} {fs₀ fs : Files PosixPath C}
    {source staged : PosixPath} {plan : ProcessingPlan} {draws : List String}
    {r : Except Raised ReplacementResult} (hne : staged ≠ source)
    (h : AlongsideOutcome F fs₀ source staged plan r fs) :
    OriginalSurvives fs₀ source r fs ∧ BackupSurvives fs₀ source draws r fs := by
  cases h with
  | refused => exact ⟨fun _ ho => .inr (.inl ho), fun _ _ _ ho => .inr (.inl ho)⟩
  | placed hf hout hfree hm hfs hr =>
    refine ⟨fun orig ho => .inr (.inl ?_), fun _ _ _ _ => .inl ⟨_, rfl, hr⟩⟩
    have hsf : source ≠ _ := fun h => by
      rw [h, hfree] at ho
      cases ho
    rcases hfs with rfl | rfl
    · rw [Files.move_of_ne hne.symm hsf, ho]
    · rw [Function.update_of_ne hsf, ho]
  | failed hf hout hfree =>
    constructor
    · intro orig ho
      refine .inr (.inl ?_)
      rw [afterFailedMove_of_ne (fun h => by simp [h, hfree] at ho), ho]
    · intro b old _ ho
      refine .inr (.inl ?_)
      rw [afterFailedMove_of_ne (fun h => by simp [h, hfree] at ho), ho]

/-- **The original survives.** Whatever operations fail, rollback steps included, a placement that
makes a new backup does not lose the bytes of the original or of an earlier backup. -/
theorem original_survives (F : Faults Site C) (fs₀ : Files PosixPath C) (source staged : PosixPath)
    (plan : ProcessingPlan) (draws : List String)
    (hstrategy : plan.replace.existingBackupStrategy = "fail" ∨
      plan.replace.existingBackupStrategy = "replace_backup")
    (hapart : StagedApart source staged plan) :
    OriginalSurvives fs₀ source (placeVerifiedOutput source staged plan draws F fs₀).1
      (placeVerifiedOutput source staged plan draws F fs₀).2 ∧
    BackupSurvives fs₀ source draws (placeVerifiedOutput source staged plan draws F fs₀).1
      (placeVerifiedOutput source staged plan draws F fs₀).2 := by
  cases hin : plan.replace.inPlace with
  | true => exact (placeVerifiedOutput_inPlace F fs₀ draws hin hapart).survives hstrategy
  | false => exact (placeVerifiedOutput_alongside F fs₀ draws hin hapart).survives hapart.ne_source

theorem original_survives_film :
    OriginalSurvives filmFiles film
      (placeVerifiedOutput film stagedFilm (filmPlan .mkv (inPlaceWith "fail")) [] brokenCopy filmFiles).1
      (placeVerifiedOutput film stagedFilm (filmPlan .mkv (inPlaceWith "fail")) [] brokenCopy filmFiles).2 ∧
    BackupSurvives filmFiles film []
      (placeVerifiedOutput film stagedFilm (filmPlan .mkv (inPlaceWith "fail")) [] brokenCopy filmFiles).1
      (placeVerifiedOutput film stagedFilm (filmPlan .mkv (inPlaceWith "fail")) [] brokenCopy filmFiles).2 :=
  original_survives brokenCopy filmFiles film stagedFilm _ [] (.inl rfl) (.of_directory (by decide))

end Claims

end Encodr
