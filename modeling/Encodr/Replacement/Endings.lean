import Encodr.Replacement.Service

/-!
# How a placement ends

What each step of `replaceInPlace` does to the files, and every way the whole replacement can
end.

* `moveGeneratedOutput_spec`, `restoreReplacedBackup_spec`, `rollbackSource_spec`,
  `deleteReplacedBackupTemp_spec`: one step each, from known files to known files.
* `ReachesMove`: the run passes its checks and its first two moves.
* `Ending`, `replaceAtPaths_ending`: the four endings of a replacement, with the files of each.
* `placeAlongsideOriginal_ending`: the endings of a placement alongside the source.
-/

namespace Encodr

open Python Lib

section Steps

variable {C ε : Type} (F : Faults Site C)

/-! ## Moving the output -/

/-- The output reaches its final path: by a rename, or by a copy where the rename crosses
devices. -/
def OutputMoves : Prop :=
  ∀ fault, F .replaceFinal = some fault → fault.error.errno = some EXDEV ∧ F .copyToFinal = none

/-- What a failing copy across devices leaves at the final path. -/
def copyLeaves : Option C :=
  match F .replaceFinal with
  | none => none
  | some fault =>
    if fault.error.errno = some EXDEV then (F .copyToFinal).bind (·.leaves) else none

/-- The files after the output could not be moved. -/
def afterFailedMove (finalOutputPath : PosixPath) (fs : Files PosixPath C) : Files PosixPath C :=
  match copyLeaves F with
  | none => fs
  | some c => Function.update fs finalOutputPath (some c)

variable {F}

theorem failureDetails_spec {operation : String} {error : OSError} {source staged : PosixPath}
    {final backup : Option PosixPath} {fs₀ : Files PosixPath C} {E : ε → Files PosixPath C → Prop} :
    Triple F (· = fs₀) (replacementFailureDetails operation error source staged final backup)
      (fun _ fs => fs = fs₀) E := by
  unfold replacementFailureDetails
  exact Triple.has_bind (Triple.has_bind (Triple.has?_bind fun _ => Triple.pure fun _ h => h))

/-- The output moves, with or without its staged copy left behind; or it does not, and the final
path holds what a failing copy left. -/
theorem moveGeneratedOutput_spec {staged final : PosixPath} {fs₀ : Files PosixPath C} {out : C}
    (hne : staged ≠ final) (hout : fs₀ staged = some out) :
    Triple F (· = fs₀) (moveGeneratedOutput staged final)
      (fun _ fs => OutputMoves F ∧
        (fs = fs₀.move staged final out ∨ fs = Function.update fs₀ final (some out)))
      (fun _ fs => ¬ OutputMoves F ∧ fs = afterFailedMove F final fs₀) := by
  unfold moveGeneratedOutput
  refine Triple.attempt_rename_bind ?_ ?_ ?_
  · intro c hr hc
    obtain rfl : c = out := by simpa [hout] using hc.symm
    exact Triple.pure fun _ h => ⟨fun fault hf => by simp [hr] at hf, .inl h⟩
  · intro _ hp
    simp [hout] at hp
  intro fault hr
  refine Triple.ite (fun hx => Triple.throw ?_) (fun hx => ?_)
  · rintro _ rfl
    refine ⟨fun h => hx (h fault hr).1, ?_⟩
    simp [afterFailedMove, copyLeaves, hr, hx]
  have hx' : fault.error.errno = some EXDEV := by simpa using hx
  refine Triple.copyfile_bind ?_ ?_ ?_ ?_
  · intro c hF hc
    obtain rfl : c = out := by simpa [hout] using hc.symm
    have hmoves : OutputMoves F := by
      intro f hf
      rw [hr] at hf
      exact ⟨Option.some.inj hf ▸ hx', hF⟩
    refine Triple.attempt_unlink_bind (fun _ => Triple.pure ?_) (fun _ _ => Triple.pure ?_)
      (fun _ _ => Triple.pure ?_)
    · rintro _ rfl
      exact ⟨hmoves, .inl (Function.update_comm hne.symm _ _ _)⟩
    · rintro _ rfl
      exact ⟨hmoves, .inr rfl⟩
    · rintro _ rfl
      exact ⟨hmoves, .inr rfl⟩
  · intro _ hp
    simp [hout] at hp
  · intro copy hF hl
    refine ⟨fun h => by simp [(h fault hr).2] at hF, ?_⟩
    simp [afterFailedMove, copyLeaves, hr, hx', hF, hl]
  · intro copy c hF hl
    refine ⟨fun h => by simp [(h fault hr).2] at hF, ?_⟩
    simp [afterFailedMove, copyLeaves, hr, hx', hF, hl]

/-! ## Restoring and deleting the replaced backup -/

variable (F) in
/-- The files after `_restore_replaced_backup`: the set-aside backup returns to a free backup
path. -/
def afterRestore (replaced : Option PosixPath) (backup : PosixPath) (fs : Files PosixPath C) :
    Files PosixPath C :=
  match replaced with
  | none => fs
  | some t =>
    match fs t, fs backup, F .restoreBackup with
    | some c, none, none => fs.move t backup c
    | _, _, _ => fs

variable (F) in
/-- The files after `_delete_replaced_backup_temp`. -/
def afterDeleteTemp (replaced : Option PosixPath) (fs : Files PosixPath C) : Files PosixPath C :=
  match replaced with
  | none => fs
  | some t => if (F .unlinkReplacedBackup).isNone then Function.update fs t none else fs

theorem restoreReplacedBackup_spec {replaced : Option PosixPath} {backup : PosixPath}
    {details : Dict} {fs₀ : Files PosixPath C} {E : ε → Files PosixPath C → Prop} :
    Triple F (· = fs₀) (restoreReplacedBackup replaced backup details)
      (fun _ fs => fs = afterRestore F replaced backup fs₀) E := by
  unfold restoreReplacedBackup
  cases replaced with
  | none => exact Triple.pure fun _ h => h
  | some t =>
    refine Triple.has_bind (Triple.ite (fun ht => ?_) fun ht => ?_)
    · obtain ⟨c, hc⟩ := Files.has_eq_true.mp ht
      refine Triple.has_bind (Triple.ite (fun hb => ?_) fun hb => ?_)
      · obtain ⟨b, hb⟩ := Files.has_eq_true.mp hb
        exact Triple.pure fun fs h => by simp [h, afterRestore, hc, hb]
      have hb' : fs₀ backup = none := by simpa [Files.has] using hb
      refine Triple.attempt_rename_bind ?_ ?_ ?_
      · intro c' hF hc'
        obtain rfl : c' = c := Option.some.inj (hc'.symm.trans hc)
        refine Triple.has_bind (Triple.has_bind (Triple.pure fun fs h => ?_))
        simp [h, afterRestore, hc, hb', hF]
      · intro _ h
        simp [hc] at h
      · intro fault hF
        refine Triple.has_bind (Triple.has_bind (Triple.pure fun fs h => ?_))
        simp [h, afterRestore, hc, hb', hF]
    · have hc : fs₀ t = none := by simpa [Files.has] using ht
      exact Triple.pure fun fs h => by simp [h, afterRestore, hc]

theorem deleteReplacedBackupTemp_spec {replaced : Option PosixPath}
    {source staged final backup : PosixPath} {details : Dict} {fs₀ : Files PosixPath C}
    {E : ε → Files PosixPath C → Prop} :
    Triple F (· = fs₀) (deleteReplacedBackupTemp replaced source staged final backup details)
      (fun _ fs => fs = afterDeleteTemp F replaced fs₀) E := by
  unfold deleteReplacedBackupTemp
  cases replaced with
  | none => exact Triple.pure fun _ h => h
  | some t =>
    refine Triple.has_bind (Triple.ite (fun ht => ?_) fun ht => ?_)
    · obtain ⟨c, hc⟩ := Files.has_eq_true.mp ht
      refine Triple.attempt_unlink_bind (fun hF => Triple.pure fun fs h => ?_)
        (fun _ h => by simp [hc] at h) fun fault hF => ?_
      · simp [h, afterDeleteTemp, hF]
      · refine Triple.effect_bind (fun _ => failureDetails_spec) fun _ => Triple.pure fun fs h => ?_
        simp [h, afterDeleteTemp, hF]
    · have hc : fs₀ t = none := by simpa [Files.has] using ht
      refine Triple.pure fun fs h => ?_
      have : Function.update fs₀ t none = fs₀ := by
        rw [← hc, Function.update_eq_self]
      simp [h, afterDeleteTemp, this]

/-! ## Rolling back and finishing -/

variable (F) in
/-- The files after the rollback: a new backup returns to a free source path. -/
def afterRollback (p : InPlacePaths) (createNewBackup : Bool) (fs : Files PosixPath C) :
    Files PosixPath C :=
  match createNewBackup, fs p.backupPath, fs p.sourcePath, F .rollbackSource with
  | true, some c, none, none => fs.move p.backupPath p.sourcePath c
  | _, _, _, _ => fs

theorem rollbackSource_spec {p : InPlacePaths} {createNewBackup : Bool} {details : Dict}
    {fs₀ : Files PosixPath C} {E : ε → Files PosixPath C → Prop} :
    Triple F (· = fs₀) (rollbackSource p createNewBackup details)
      (fun _ fs => fs = afterRollback F p createNewBackup fs₀) E := by
  unfold rollbackSource
  refine Triple.has_bind (Triple.has_bind (Triple.ite (fun h => ?_) fun h => ?_))
  · simp only [Bool.and_eq_true, Bool.not_eq_true', Files.has_eq_false] at h
    obtain ⟨⟨rfl, hb⟩, hs⟩ := h
    obtain ⟨c, hc⟩ := Files.has_eq_true.mp hb
    refine Triple.attempt_rename_bind ?_ ?_ ?_
    · intro c' hF hc'
      obtain rfl : c' = c := Option.some.inj (hc'.symm.trans hc)
      refine Triple.has_bind (Triple.has_bind (Triple.has_bind (Triple.pure fun fs h => ?_)))
      simp [h, afterRollback, hc, hs, hF]
    · intro _ h
      simp [hc] at h
    · intro fault hF
      refine Triple.has_bind (Triple.has_bind (Triple.has_bind (Triple.pure fun fs h => ?_)))
      simp [h, afterRollback, hc, hs, hF]
  · refine Triple.pure fun fs hfs => ?_
    rw [hfs, afterRollback]
    intro c hc hb hs hF
    exact h (by simp [Files.has, hc, hb, hs])

/-- What a finished replacement reports and leaves. The backup is deleted where it is new, the
plan asks for it and the unlink succeeds. -/
structure Finished (F : Faults Site C) (p : InPlacePaths) (replaced : Option PosixPath)
    (createNewBackup delete : Bool) (fs₀ : Files PosixPath C) (r : ReplacementResult)
    (fs : Files PosixPath C) : Prop where
  status : r.status = .succeeded
  finalOutputPath : r.finalOutputPath = some p.finalOutputPath
  backupPath : r.originalBackupPath = if r.deletedOriginalSource then none else some p.backupPath
  deleted : r.deletedOriginalSource = true ↔
    createNewBackup = true ∧ delete = true ∧ fs₀.has p.backupPath = true ∧ F .unlinkBackup = none
  files : fs = afterDeleteTemp F replaced
    (if r.deletedOriginalSource then Function.update fs₀ p.backupPath none else fs₀)

theorem finishReplacement_spec {p : InPlacePaths} {replaced : Option PosixPath}
    {createNewBackup delete : Bool} {details : Dict} {fs₀ : Files PosixPath C}
    {E : ε → Files PosixPath C → Prop} :
    Triple F (· = fs₀) (finishReplacement p replaced createNewBackup delete details)
      (Finished F p replaced createNewBackup delete fs₀) E := by
  unfold finishReplacement
  refine Triple.has_bind (Triple.ite (fun h => ?_) fun h => ?_)
  · simp only [Bool.and_eq_true] at h
    obtain ⟨⟨rfl, rfl⟩, hb⟩ := h
    obtain ⟨c, hc⟩ := Files.has_eq_true.mp hb
    refine Triple.attempt_unlink_bind (fun hF => ?_) (fun _ h => by simp [hc] at h) fun fault hF => ?_
    · refine Triple.effect_bind (fun _ => deleteReplacedBackupTemp_spec) fun _ =>
        Triple.pure fun fs h => ?_
      exact ⟨rfl, rfl, rfl, by simp [hb, hF], by simpa using h⟩
    · refine Triple.effect_bind (fun _ => deleteReplacedBackupTemp_spec) fun _ => ?_
      refine Triple.effect_bind (fun _ => failureDetails_spec) fun _ => Triple.pure fun fs h => ?_
      exact ⟨rfl, rfl, rfl, by simp [hF], by simpa using h⟩
  · refine Triple.effect_bind (fun _ => deleteReplacedBackupTemp_spec) fun _ =>
      Triple.pure fun fs hfs => ?_
    refine ⟨rfl, rfl, rfl, ?_, by simpa using hfs⟩
    simp only [Bool.and_eq_true] at h
    simp only [Bool.false_eq_true, false_iff]
    rintro ⟨hc, hd, hb, -⟩
    exact h ⟨⟨hc, hd⟩, hb⟩

/-! ## The moves before the output -/

/-- The first free set-aside path of the draws. -/
def freeReplacingPath (fs : Files PosixPath C) (backup : PosixPath) : List String → Option PosixPath
  | [] => none
  | hex :: draws =>
    match replacingPath backup hex with
    | .error _ => none
    | .ok candidate => if fs.has candidate then freeReplacingPath fs backup draws else some candidate

theorem freeReplacingPath_free {fs : Files PosixPath C} {backup t : PosixPath} {draws : List String}
    (h : freeReplacingPath fs backup draws = some t) :
    fs t = none ∧ ∃ hex ∈ draws, replacingPath backup hex = .ok t := by
  induction draws with
  | nil => simp [freeReplacingPath] at h
  | cons hex draws ih =>
    unfold freeReplacingPath at h
    cases hr : replacingPath backup hex with
    | error e => simp [hr] at h
    | ok candidate =>
      by_cases hb : fs.has candidate = true
      · simp only [hr, hb, if_true] at h
        obtain ⟨ht, hex', hmem, hpath⟩ := ih h
        exact ⟨ht, hex', List.mem_cons_of_mem _ hmem, hpath⟩
      · simp only [hr, hb] at h
        obtain rfl := Option.some.inj h
        exact ⟨by simpa [Files.has] using hb, hex, List.mem_cons_self, hr⟩

theorem temporaryReplacedBackupPath_spec {backup : PosixPath} {draws : List String}
    {fs₀ : Files PosixPath C} :
    Triple F (· = fs₀) (temporaryReplacedBackupPath backup draws)
      (fun t fs => freeReplacingPath fs₀ backup draws = some t ∧ fs = fs₀)
      (fun _ fs => freeReplacingPath fs₀ backup draws = none ∧ fs = fs₀) := by
  induction draws with
  | nil => exact Triple.throw fun _ h => ⟨rfl, h⟩
  | cons hex draws ih =>
    unfold temporaryReplacedBackupPath freeReplacingPath
    cases hr : replacingPath backup hex with
    | error e => exact Triple.throw fun _ h => ⟨rfl, h⟩
    | ok candidate =>
      refine Triple.has_bind (Triple.ite (fun hb => ?_) fun hb => ?_)
      · simpa only [hb, if_true] using ih
      · simp only [hb]
        exact Triple.pure fun _ h => ⟨rfl, h⟩

/-- The set-aside path of a run: only an existing backup that is to be replaced is set aside. -/
def setAsidePath (fs : Files PosixPath C) (p : InPlacePaths) (strategy : String)
    (draws : List String) : Option PosixPath :=
  if fs.has p.backupPath && strategy == "replace_backup" then
    freeReplacingPath fs p.backupPath draws
  else none

/-- The files with the existing backup set aside. -/
def afterAside (p : InPlacePaths) (replaced : Option PosixPath) (fs : Files PosixPath C) :
    Files PosixPath C :=
  match replaced, fs p.backupPath with
  | some t, some old => fs.move p.backupPath t old
  | _, _ => fs

/-- The files with the source moved to its backup path. -/
def afterBackup (p : InPlacePaths) (createNewBackup : Bool) (fs : Files PosixPath C) :
    Files PosixPath C :=
  match createNewBackup, fs p.sourcePath with
  | true, some orig => fs.move p.sourcePath p.backupPath orig
  | _, _ => fs

variable (F) in
/-- An existing backup that is to be replaced can be set aside. -/
def SetsAside (fs : Files PosixPath C) (p : InPlacePaths) (strategy : String) (draws : List String) :
    Prop :=
  strategy = "replace_backup" → fs.has p.backupPath = true →
    (freeReplacingPath fs p.backupPath draws).isSome ∧ F .moveBackupAside = none

theorem moveExistingBackupAside_spec {p : InPlacePaths} {strategy : String} {draws : List String}
    {fs₀ : Files PosixPath C} :
    Triple F (· = fs₀) (moveExistingBackupAside p (fs₀.has p.backupPath) strategy draws)
      (fun replaced fs => replaced = setAsidePath fs₀ p strategy draws ∧
        SetsAside F fs₀ p strategy draws ∧ fs = afterAside p replaced fs₀)
      (fun _ fs => ¬ SetsAside F fs₀ p strategy draws ∧ fs = fs₀) := by
  unfold moveExistingBackupAside
  refine Triple.ite (fun h => ?_) fun h => ?_
  · simp only [Bool.and_eq_true, beq_iff_eq] at h
    obtain ⟨hb, rfl⟩ := h
    obtain ⟨old, hold⟩ := Files.has_eq_true.mp hb
    refine Triple.bind (Triple.conseq temporaryReplacedBackupPath_spec (fun _ h => h)
      (fun _ _ h => h) fun e fs h => ⟨fun hs => by simpa [h.1] using (hs rfl hb).1, h.2⟩) ?_
    refine fun t => Triple.lift fun ht => ?_
    refine Triple.attempt_rename_bind (fun c hF hc => Triple.pure ?_)
      (fun _ h => by simp [hold] at h) (fun fault hF => ?_)
    · rintro _ rfl
      refine ⟨by simp [setAsidePath, hb, ht], fun _ _ => ⟨by simp [ht], hF⟩, ?_⟩
      simp [afterAside, hc]
    · refine Triple.effect_bind (fun _ => failureDetails_spec) fun _ => Triple.throw fun _ h => ?_
      exact ⟨fun hs => by simp [(hs rfl hb).2] at hF, h⟩
  · refine Triple.pure ?_
    rintro _ rfl
    refine ⟨by simp [setAsidePath, h], fun hs hb => ?_, rfl⟩
    simp [hs, hb] at h

theorem moveSourceToBackup_spec {p : InPlacePaths} {replaced : Option PosixPath}
    {createNewBackup : Bool} {fs₀ : Files PosixPath C} {orig : C}
    (horig : fs₀ p.sourcePath = some orig) :
    Triple F (· = fs₀) (moveSourceToBackup p replaced createNewBackup)
      (fun _ fs => (createNewBackup = true → F .moveSourceToBackup = none) ∧
        fs = afterBackup p createNewBackup fs₀)
      (fun e fs => ¬ (createNewBackup = true → F .moveSourceToBackup = none) ∧
        (∃ error, e = .replacement error) ∧ fs = afterRestore F replaced p.backupPath fs₀) := by
  unfold moveSourceToBackup
  refine Triple.ite (fun h => ?_) fun h => ?_
  · subst h
    refine Triple.attempt_rename_bind (fun c hF hc => Triple.pure ?_)
      (fun _ h => by simp [horig] at h) (fun fault hF => ?_)
    · rintro _ rfl
      exact ⟨fun _ => hF, by simp [afterBackup, hc]⟩
    · refine Triple.effect_bind (fun _ => failureDetails_spec) fun _ => ?_
      refine Triple.effect_bind (fun _ => restoreReplacedBackup_spec) fun _ => Triple.throw ?_
      rintro _ rfl
      exact ⟨fun h => by simp [h rfl] at hF, ⟨_, rfl⟩, rfl⟩
  · refine Triple.pure ?_
    rintro _ rfl
    exact ⟨fun hc => absurd hc h, by simp [afterBackup, h]⟩

theorem moveVerifiedOutputIntoPlace_spec {p : InPlacePaths} {replaced : Option PosixPath}
    {createNewBackup : Bool} {fs₀ : Files PosixPath C} {out : C}
    (hne : p.stagedOutputPath ≠ p.finalOutputPath) (hout : fs₀ p.stagedOutputPath = some out) :
    Triple F (· = fs₀) (moveVerifiedOutputIntoPlace p replaced createNewBackup)
      (fun _ fs => OutputMoves F ∧ (fs = fs₀.move p.stagedOutputPath p.finalOutputPath out ∨
        fs = Function.update fs₀ p.finalOutputPath (some out)))
      (fun e fs => ¬ OutputMoves F ∧ (∃ error, e = .replacement error) ∧
        fs = afterRestore F replaced p.backupPath
          (afterRollback F p createNewBackup (afterFailedMove F p.finalOutputPath fs₀))) := by
  unfold moveVerifiedOutputIntoPlace
  refine Triple.attempt_bind (moveGeneratedOutput_spec hne hout) (fun _ => Triple.pure fun _ h => h) ?_
  intro error
  refine Triple.lift fun hm => ?_
  refine Triple.effect_bind (fun _ => failureDetails_spec) fun _ => ?_
  refine Triple.effect_bind (fun _ => rollbackSource_spec) fun _ => ?_
  refine Triple.effect_bind (fun _ => restoreReplacedBackup_spec) fun _ => Triple.throw ?_
  rintro _ rfl
  exact ⟨hm, ⟨_, rfl⟩, rfl⟩

/-! ## The whole replacement -/

variable (F) in
/-- The run passes its checks and its first two moves, so that it tries to move the output. -/
structure ReachesMove (fs : Files PosixPath C) (p : InPlacePaths) (strategy : String)
    (draws : List String) : Prop where
  backup_free : strategy = "fail" → fs p.backupPath = none
  backup_kept : strategy = "keep_existing_backup" → fs.has p.backupPath = true
  final_free : p.finalOutputPath ≠ p.sourcePath → fs p.finalOutputPath = none
  aside : SetsAside F fs p strategy draws
  moved : strategy ≠ "keep_existing_backup" → F .moveSourceToBackup = none

/-- The files when the output is about to move. -/
def beforeMove (p : InPlacePaths) (strategy : String) (replaced : Option PosixPath)
    (fs : Files PosixPath C) : Files PosixPath C :=
  afterBackup p (strategy != "keep_existing_backup") (afterAside p replaced fs)

variable (F) in
/-- A replacement that succeeds: the output moved, then the end of the replacement. -/
structure Placed (fs₀ : Files PosixPath C) (p : InPlacePaths) (replace : ReplacePlan)
    (draws : List String) (out : C) (r : ReplacementResult) (fs : Files PosixPath C) : Prop where
  reaches : ReachesMove F fs₀ p replace.existingBackupStrategy draws
  moves : OutputMoves F
  finished : ∃ replaced fs₁ fs₂,
    replaced = setAsidePath fs₀ p replace.existingBackupStrategy draws ∧
    fs₁ = beforeMove p replace.existingBackupStrategy replaced fs₀ ∧
    (fs₂ = fs₁.move p.stagedOutputPath p.finalOutputPath out ∨
      fs₂ = Function.update fs₁ p.finalOutputPath (some out)) ∧
    Finished F p replaced (replace.existingBackupStrategy != "keep_existing_backup")
      replace.deleteReplacedSource fs₂ r fs

variable (F) in
/-- A replacement that raises: before it changes a file, when the source does not move to its
backup path, or when the output does not move. -/
inductive Failed (fs₀ : Files PosixPath C) (p : InPlacePaths) (strategy : String)
    (draws : List String) : Raised → Files PosixPath C → Prop
  | refused {e : Raised} (h : ¬ ReachesMove F fs₀ p strategy draws) : Failed fs₀ p strategy draws e fs₀
  | sourceNotMoved {error : ReplacementError} (replaced : Option PosixPath)
      (hr : replaced = setAsidePath fs₀ p strategy draws)
      (h : ¬ ReachesMove F fs₀ p strategy draws) :
      Failed fs₀ p strategy draws (.replacement error)
        (afterRestore F replaced p.backupPath (afterAside p replaced fs₀))
  | outputNotMoved {error : ReplacementError} (replaced : Option PosixPath)
      (hr : replaced = setAsidePath fs₀ p strategy draws)
      (h : ReachesMove F fs₀ p strategy draws) (hm : ¬ OutputMoves F) :
      Failed fs₀ p strategy draws (.replacement error)
        (afterRestore F replaced p.backupPath
          (afterRollback F p (strategy != "keep_existing_backup")
            (afterFailedMove F p.finalOutputPath (beforeMove p strategy replaced fs₀))))

variable (F) in
/-- The conditions that `checkInPlace` tests. -/
def PassesChecks (fs : Files PosixPath C) (p : InPlacePaths) (strategy : String) : Prop :=
  (strategy = "fail" → fs p.backupPath = none) ∧
    (strategy = "keep_existing_backup" → fs.has p.backupPath = true) ∧
    (p.finalOutputPath ≠ p.sourcePath → fs p.finalOutputPath = none)

theorem checkInPlace_spec {p : InPlacePaths} {strategy : String} {fs₀ : Files PosixPath C} :
    Triple F (· = fs₀) (checkInPlace p (fs₀.has p.backupPath) strategy)
      (fun _ fs => PassesChecks fs₀ p strategy ∧ fs = fs₀)
      (fun _ fs => ¬ PassesChecks fs₀ p strategy ∧ fs = fs₀) := by
  unfold checkInPlace
  refine Triple.raiseIf_bind (fun h => ?_) fun h₁ => Triple.raiseIf_bind (fun h => ?_) fun h₂ => ?_
  · simp only [Bool.and_eq_true, beq_iff_eq] at h
    obtain ⟨hb, rfl⟩ := h
    exact ⟨fun hp => by simp [Files.has, hp.1 rfl] at hb, rfl⟩
  · simp only [Bool.and_eq_true, beq_iff_eq, Bool.not_eq_true'] at h
    obtain ⟨hb, rfl⟩ := h
    exact ⟨fun hp => by simp [hp.2.1 rfl] at hb, rfl⟩
  refine Triple.has_bind (Triple.raiseIf ?_ ?_)
  · rintro _ rfl ⟨hne, hf⟩
    exact ⟨fun hp => by simp [Files.has, hp.2.2 hne] at hf, rfl⟩
  · rintro fs rfl h₃
    refine ⟨⟨fun hs => ?_, fun hs => ?_, fun hne => ?_⟩, rfl⟩
    · simpa [hs, Files.has] using h₁
    · simpa [hs] using h₂
    · simpa [hne, Files.has] using h₃

/-- The files and paths an in-place replacement starts from. -/
structure InPlaceStart (fs : Files PosixPath C) (p : InPlacePaths) (orig out : C) : Prop where
  source : fs p.sourcePath = some orig
  staged : fs p.stagedOutputPath = some out
  source_ne_backup : p.sourcePath ≠ p.backupPath
  final_ne_backup : p.finalOutputPath ≠ p.backupPath
  staged_ne_source : p.stagedOutputPath ≠ p.sourcePath
  staged_ne_final : p.stagedOutputPath ≠ p.finalOutputPath
  staged_ne_backup : p.stagedOutputPath ≠ p.backupPath

theorem setAsidePath_some {fs : Files PosixPath C} {p : InPlacePaths} {strategy : String}
    {draws : List String} {t : PosixPath} (h : setAsidePath fs p strategy draws = some t) :
    strategy = "replace_backup" ∧ (∃ old, fs p.backupPath = some old) ∧ fs t = none ∧
      ∃ hex ∈ draws, replacingPath p.backupPath hex = .ok t := by
  unfold setAsidePath at h
  split at h
  · next hc =>
    simp only [Bool.and_eq_true, beq_iff_eq] at hc
    obtain ⟨ht, hd⟩ := freeReplacingPath_free h
    exact ⟨hc.2, Files.has_eq_true.mp hc.1, ht, hd⟩
  · cases h

/-- Setting the backup aside changes its path and the set-aside path only. -/
theorem afterAside_of_ne {fs : Files PosixPath C} {p : InPlacePaths} {replaced : Option PosixPath}
    {r : PosixPath} (hb : r ≠ p.backupPath) (ht : replaced ≠ some r) :
    afterAside p replaced fs r = fs r := by
  unfold afterAside
  cases replaced with
  | none => rfl
  | some t =>
    cases fs p.backupPath with
    | none => rfl
    | some old => exact Files.move_of_ne hb (fun h => ht (by rw [h])) old

/-- A file that is there before the backup is set aside is not at the set-aside path. -/
theorem setAsidePath_ne {fs : Files PosixPath C} {p : InPlacePaths} {strategy : String}
    {draws : List String} {r : PosixPath} {c : C} (h : fs r = some c) :
    setAsidePath fs p strategy draws ≠ some r := by
  intro ht
  obtain ⟨-, -, hfree, -⟩ := setAsidePath_some ht
  simp [hfree] at h

theorem afterBackup_of_ne {fs : Files PosixPath C} {p : InPlacePaths} {create : Bool}
    {r : PosixPath} (hs : r ≠ p.sourcePath) (hb : r ≠ p.backupPath) :
    afterBackup p create fs r = fs r := by
  unfold afterBackup
  cases create with
  | false => rfl
  | true =>
    cases fs p.sourcePath with
    | none => rfl
    | some orig => exact Files.move_of_ne hs hb orig

/-- Every way a replacement ends. -/
theorem replaceAtPaths_ending {p : InPlacePaths} {replace : ReplacePlan} {draws : List String}
    {fs₀ : Files PosixPath C} {orig out : C} (hs : InPlaceStart fs₀ p orig out) :
    Triple F (· = fs₀) (replaceAtPaths p replace draws)
      (Placed F fs₀ p replace draws out)
      (Failed F fs₀ p replace.existingBackupStrategy draws) := by
  unfold replaceAtPaths
  refine Triple.has_bind ?_
  refine Triple.bind (Triple.conseq checkInPlace_spec (fun _ h => h) (fun _ _ h => h) ?_) fun _ =>
    Triple.lift fun hchecks => ?_
  · rintro e _ ⟨hc, rfl⟩
    exact .refused fun h => hc ⟨h.backup_free, h.backup_kept, h.final_free⟩
  refine Triple.bind (Triple.conseq moveExistingBackupAside_spec (fun _ h => h) (fun _ _ h => h) ?_)
    fun replaced => Triple.lift fun hreplaced => Triple.lift fun haside => ?_
  · rintro e _ ⟨hc, rfl⟩
    exact .refused fun h => hc h.aside
  have hsource : afterAside p replaced fs₀ p.sourcePath = some orig := by
    rw [afterAside_of_ne hs.source_ne_backup (hreplaced ▸ setAsidePath_ne hs.source), hs.source]
  refine Triple.bind (Triple.conseq (moveSourceToBackup_spec hsource) (fun _ h => h)
    (fun _ _ h => h) ?_) fun _ => Triple.lift fun hmoved => ?_
  · rintro e _ ⟨hc, ⟨error, rfl⟩, rfl⟩
    exact .sourceNotMoved replaced hreplaced fun h => hc fun hk => h.moved (by simpa using hk)
  have hreach : ReachesMove F fs₀ p replace.existingBackupStrategy draws :=
    ⟨hchecks.1, hchecks.2.1, hchecks.2.2, haside, fun hk => hmoved (by simpa using hk)⟩
  have hstaged : beforeMove p replace.existingBackupStrategy replaced fs₀ p.stagedOutputPath =
      some out := by
    rw [beforeMove, afterBackup_of_ne hs.staged_ne_source hs.staged_ne_backup,
      afterAside_of_ne hs.staged_ne_backup (hreplaced ▸ setAsidePath_ne hs.staged), hs.staged]
  refine Triple.bind (Triple.conseq (moveVerifiedOutputIntoPlace_spec hs.staged_ne_final hstaged)
    (fun _ h => h) (fun _ _ h => h) ?_) fun _ => Triple.lift fun hmoves => ?_
  · rintro e _ ⟨hm, ⟨error, rfl⟩, rfl⟩
    exact .outputNotMoved replaced hreplaced hreach hm
  intro fs₂ hfs₂
  refine Triple.conseq finishReplacement_spec (fun _ h => h) (fun r fs hfin => ?_)
    (fun _ _ h => h) fs₂ rfl
  exact ⟨hreach, hmoves, replaced, _, fs₂, hreplaced, rfl, hfs₂, hfin⟩

end Steps

end Encodr
