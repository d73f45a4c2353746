import Encodr.Api.PathSafety
import Encodr.Db.JobRows
import Encodr.Lib.Table

/-!
# Backups of a file

The operations on the backups of one tracked file: replacements that are recorded in job rows,
`restore_backup`, `delete_backup` and `cleanup_expired_backups`. Each works on the files and on
the rows; where an operation raises, its row changes are rolled back and its file changes stay.

* `recordReplacement`: a successful placement and its `mark_result`.
* `restoreBackup`, `deleteBackup`: the operations of an operator.
* `backupsDue`, `cleanupExpiredBackups`: the expired backups, in their order, and their deletion.
-/

namespace Encodr

open Python Lib

/-- The rows and the files of one tracked file. -/
structure BackupStore (C : Type) where
  file : TrackedFile
  jobs : List Job
  decisions : List ManualReviewDecision
  files : Files PosixPath C

/-- What an operation on backups raises. -/
inductive BackupError where
  | api (error : ApiError)
  | os (error : OSError)
deriving DecidableEq

/-- The file operations on a backup. -/
inductive BackupSite where
  | unlinkBackup
  | replaceSource
  | renameToSource
  | unlinkReplacement
deriving DecidableEq, Repr

section Model

variable {C : Type} (os : PathOs) (roots : Option PathRoots)

/-- An `OSError` of an operation is raised as it is. -/
def raising {S α : Type} (m : FsM S PosixPath C OSError α) : FsM S PosixPath C BackupError α := do
  match ← FsM.attempt m with
  | .ok a => return a
  | .error e => FsM.throw (.os e)

/-! ## Paths -/

/-- `JobsService._backup_path_for_job`. -/
def backupPathForJob (job : Job) : Except ApiError PosixPath :=
  match job.originalBackupPath with
  | none => .error (.notFound "No backup is recorded for this job.")
  | some backupPath =>
    match roots with
    | none => .ok backupPath
    | some roots =>
      match validateBackupPath os (some backupPath) roots "original_backup_path" with
      | .ok (some safePath) => .ok safePath
      | .ok none => .error (.notFound "No backup is recorded for this job.")
      | .error e => .error e

/-- `JobsService._media_path`. -/
def mediaPath (path : PosixPath) (label : String) : Except ApiError PosixPath :=
  match roots with
  | none => .ok path
  | some roots =>
    match validateFinalOutputPath os (some path) roots label with
    | .ok (some safePath) => .ok safePath
    | .ok none => .error (.validation (label ++ " is required."))
    | .error e => .error e

/-- `JobsService._validate_cleanup_backup_path`. -/
def validateCleanupBackupPath (path : PosixPath) : Option PosixPath :=
  match roots with
  | none => some path
  | some roots =>
    match validateBackupPath os (some path) roots "original_backup_path" with
    | .ok safePath => safePath
    | .error _ => none

/-! ## A replacement -/

/-- The result of an execution whose replacement succeeded. -/
def replacedResult (staged : PosixPath) (replacement : ReplacementResult)
    (verification : VerificationResult) (startedAt completedAt : Time) : ExecutionResult where
  status := .completed
  outputPath := some staged
  finalOutputPath := replacement.finalOutputPath
  originalBackupPath := replacement.originalBackupPath
  verification := some verification
  replacement := some replacement
  startedAt := startedAt
  completedAt := completedAt

/-- A replacement of the file: its job, its plan, and its staged output with its contents. -/
structure Replacement (C : Type) where
  job : Job
  plan : ProcessingPlan
  staged : PosixPath
  output : C
  verification : VerificationResult
  draws : List String
  faults : Faults Site C
  startedAt : Time
  completedAt : Time

/-- No result has been recorded in the row of the job, and the staged output is not beside its
source. -/
def Replacement.ready (r : Replacement C) (store : BackupStore C) : Bool :=
  r.job.backupRetentionUntil.isNone && r.job.backupDeletedAt.isNone &&
    r.job.backupRestoredAt.isNone && r.staged.directory != store.file.sourcePath.directory &&
    !(store.jobs.map (·.id)).contains r.job.id

/-- A successful replacement: the output is staged and placed, and the result is recorded. -/
def recordReplacement (r : Replacement C) (store : BackupStore C) : Option (BackupStore C) :=
  if r.ready store then
    match placeVerifiedOutput store.file.sourcePath r.staged r.plan r.draws r.faults
        (Function.update store.files r.staged (some r.output)) with
    | (.ok replacement, files) =>
      if replacement.status = .succeeded then
        let result := replacedResult r.staged replacement r.verification r.startedAt r.completedAt
        some { store with
          jobs := store.jobs ++ [{ r.job.markResult result with updatedAt := r.completedAt }]
          files := files }
      else none
    | (.error _, _) => none
  else none

/-! ## Restoring and deleting -/

/-- The file operations of `restore_backup`. -/
def restoreBackupFiles (backupPath sourcePath replacementPath : PosixPath) :
    FsM BackupSite PosixPath C BackupError Unit := do
  if ← FsM.has sourcePath then
    FsM.raiseIf (sourcePath ≠ replacementPath) (.api (.conflict
      "The original path is occupied and cannot be restored safely."))
  let missing := fileNotFound (quoted backupPath ++ " -> " ++ quoted sourcePath)
  if sourcePath = replacementPath then
    raising (FsM.rename missing .replaceSource backupPath sourcePath)
  else
    raising (FsM.rename missing .renameToSource backupPath sourcePath)
    if ← FsM.has replacementPath then
      -- a failing unlink is only logged
      let _ ← FsM.attempt (FsM.unlink (fileNotFound (quoted replacementPath)) .unlinkReplacement
        replacementPath)

/-- The checks and the file operations of `restore_backup`. -/
def restoreBackupOf (store : BackupStore C) (job : Job) :
    FsM BackupSite PosixPath C BackupError Unit := do
  FsM.raiseIf (store.jobs.any fun j => j.trackedFileId == job.trackedFileId && j.isActive)
    (.api (.conflict
      "An active job exists for this tracked file; restore the backup after it finishes."))
  match backupPathForJob os roots job with
  | .error e => FsM.throw (.api e)
  | .ok backupPath =>
    if ← FsM.has backupPath then
      match mediaPath os roots store.file.sourcePath "source_path",
          mediaPath os roots (job.finalOutputPath.getD store.file.sourcePath)
            "final_output_path" with
      | .error e, _ => FsM.throw (.api e)
      | .ok _, .error e => FsM.throw (.api e)
      | .ok sourcePath, .ok replacementPath =>
        restoreBackupFiles backupPath sourcePath replacementPath
    else FsM.throw (.api (.notFound "Backup file could not be found."))

/-- `restore_backup`; `restoredBy` is the id of the decision that notes a user's restoration. -/
def restoreBackup (jobId : JobId) (restoredBy : Option String) (now : Time)
    (F : Faults BackupSite C) (store : BackupStore C) : Except BackupError Unit × BackupStore C :=
  match Table.find Job.id jobId store.jobs with
  | none => (.error (.api (.notFound "Job could not be found.")), store)
  | some job =>
    match restoreBackupOf os roots store job F store.files with
    | (.error e, files) => (.error e, { store with files := files })
    | (.ok (), files) => (.ok (), {
        file := { store.file with
          lifecycleState := .manualReview
          complianceState := .manualReview
          lastProcessedPolicyVersion := none
          lastProcessedProfileName := none
          updatedAt := now }
        jobs := Table.modify Job.id jobId
          (fun job => { job with backupRestoredAt := some now, updatedAt := now }) store.jobs
        decisions := store.decisions ++ (restoredBy.map fun id => {
          id := id
          trackedFileId := job.trackedFileId
          planSnapshotId := some job.planSnapshotId
          jobId := some job.id
          decisionType := .held
          createdAt := now }).toList
        files := files })

/-- The checks and the file operation of `delete_backup`. -/
def deleteBackupOf (job : Job) : FsM BackupSite PosixPath C BackupError Unit := do
  match backupPathForJob os roots job with
  | .error e => FsM.throw (.api e)
  | .ok backupPath =>
    if ← FsM.has backupPath then
      raising (FsM.unlink (fileNotFound (quoted backupPath)) .unlinkBackup backupPath)
    else FsM.throw (.api (.notFound "Backup file could not be found."))

/-- `delete_backup`. -/
def deleteBackup (jobId : JobId) (now : Time) (F : Faults BackupSite C) (store : BackupStore C) :
    Except BackupError Unit × BackupStore C :=
  match Table.find Job.id jobId store.jobs with
  | none => (.error (.api (.notFound "Job could not be found.")), store)
  | some job =>
    match deleteBackupOf os roots job F store.files with
    | (.error e, files) => (.error e, { store with files := files })
    | (.ok (), files) => (.ok (), { store with
        jobs := Table.modify Job.id jobId
          (fun job => { job with backupDeletedAt := some now, updatedAt := now }) store.jobs
        files := files })

/-! ## Cleaning up -/

/-- The row counts on a backup: its replacement succeeded, and its backup is neither deleted nor
restored. -/
def Job.holdsBackup (job : Job) : Bool :=
  job.status == .completed && job.replacementStatus == .succeeded &&
    job.originalBackupPath.isSome && job.backupDeletedAt.isNone && job.backupRestoredAt.isNone

/-- The conditions of the query in `cleanup_expired_backups`. -/
def Job.backupExpired (job : Job) (now : Time) : Bool :=
  job.holdsBackup && job.backupPolicy == "keep_for_1_day" &&
    job.backupRetentionUntil.any (· ≤ now)

/-- The order of the query in `cleanup_expired_backups`. -/
def Job.retentionOrder (a b : Job) : Bool :=
  ((compare (a.backupRetentionUntil.getD 0) (b.backupRetentionUntil.getD 0)).then
    ((compare a.updatedAt b.updatedAt).then
      ((compare a.createdAt b.createdAt).then (compare a.id b.id)))).isLE

/-- The rows of the query in `cleanup_expired_backups`. -/
def backupsDue (jobs : List Job) (now : Time) : List Job :=
  (jobs.filter (·.backupExpired now)).mergeSort Job.retentionOrder

/-- The loop of `cleanup_expired_backups`: the jobs whose backup it unlinked, and the error that
ended it. -/
def unlinkDue : List Job → FsM JobId PosixPath C OSError (List Job × Option OSError)
  | [] => return ([], none)
  | job :: due => do
    match job.originalBackupPath.bind (validateCleanupBackupPath os roots) with
    | none => unlinkDue due
    | some backupPath =>
      if ← FsM.has backupPath then
        match ← FsM.attempt (FsM.unlink (fileNotFound (quoted backupPath)) job.id backupPath) with
        | .error error => return ([], some error)
        | .ok () =>
          let (deleted, error) ← unlinkDue due
          return (job :: deleted, error)
      else unlinkDue due

/-- `cleanup_expired_backups`: the jobs whose backup was unlinked, and the store. -/
def cleanupExpiredBackups (now : Time) (F : Faults JobId C) (store : BackupStore C) :
    List Job × BackupStore C :=
  match unlinkDue os roots (backupsDue store.jobs now) F store.files with
  | (.error _, files) => ([], { store with files := files })
  | (.ok (deleted, some _), files) => (deleted, { store with files := files })
  | (.ok (deleted, none), files) => (deleted, { store with
      jobs := store.jobs.map fun job =>
        if (deleted.map (·.id)).contains job.id then
          { job with backupDeletedAt := some now, updatedAt := now }
        else job
      files := files })

end Model

end Encodr
