import Encodr.Api.PathSafety
import Encodr.Backups.Service
import Encodr.Db.Evolution
import Encodr.Planning.Planner

/-!
# The library

How files, probes and plans come into the tables: a scan, a plan of a file, and a backup that a scan
discovers (`FilesService`, `PlansService`, `persist_scan`, `reconcile_discovered_backup`). The
operations on backups work on the rows of one file (`BackupStore`); here they are part of the
database.

* `Database.planFile`: a file is probed and planned.
* `Database.reconcileDiscoveredBackup`: a backup that no row records gets one.
* `Database.withBackupStore`: the database after an operation on the backups of a file.
* `planFile_extends`, `reconcileDiscoveredBackup_evolves`, `withBackupStore_evolves`: the tables
  after them.
-/

namespace Encodr

open Python Lib

/-! ## Files and plans -/

/-- `encodr_exclusion_reason`. -/
def exclusionReason (os : PathOs) (scratchDir path : PosixPath) : Option String :=
  if isRelativeTo (os.resolve (os.expanduser path)) (os.resolve (os.expanduser scratchDir)) then
    some "Encodr scratch workspace files cannot be processed."
  else encodrExclusionReason path

namespace Database

variable (db : Database)

/-- `upsert_by_path`: the row of a path, added where it is missing. -/
def upsertByPath (id : FileId) (path : PosixPath) (now : Time) : Database × TrackedFile :=
  match db.trackedFileByPath path with
  | some file => (db, file)
  | none =>
    let file : TrackedFile := { id := id, sourcePath := path, createdAt := now, updatedAt := now }
    ({ db with trackedFiles := db.trackedFiles ++ [file] }, file)

/-- `add_probe_snapshot`. -/
def addProbeSnapshot (id : String) (fileId : FileId) (media : MediaFile) (now : Time) : Database :=
  let probe : ProbeSnapshot :=
    { id := id, trackedFileId := fileId, payload := some media, createdAt := now }
  { db with probeSnapshots := db.probeSnapshots ++ [probe] }.updateFile fileId
    ({ · with lifecycleState := .probed, is4k := media.is4k }) now

/-- `plan_file`: `media` is what the probe of the file finds, `policy` the rules for it. `id` is the
id of the new rows. -/
def planFile (os : PathOs) (scratchDir : PosixPath) (id : String) (path : PosixPath)
    (media : MediaFile) (policy : ResolvedPlanningPolicy) (rename : RenamePlan) (now : Time) :
    Except ApiError (Database × PlanSnapshot) := do
  match exclusionReason os scratchDir path with
  | some reason => .error (.validation reason)
  | none =>
    let (db, file) := db.upsertByPath id path now
    let db := db.addProbeSnapshot id file.id media now
    let plan := buildProcessingPlan media policy rename
    let (db, snapshot) := db.addPlanSnapshot id file.id id plan now
    return (db.updateFile file.id (·.afterPlan plan) now, snapshot)

/-! ## Discovered backups -/

end Database

/-- `_discovered_backup_plan_payload`. -/
def discoveredBackupPlan (sourcePath : PosixPath) : ProcessingPlan :=
  let suffix := String.ofList ((lower sourcePath.suffix).toList.dropWhile (· = '.'))
  { action := .skip
    summary := ⟨.skip, .low, true, false⟩
    policyContext := {
      policyName := "discovered_backup"
      policyVersion := 0
      sourcePath := sourcePath }
    selectedStreams := {}
    audio := {}
    subtitles := {}
    video := { handling := .preserve, preserveOriginal := true }
    container := {
      sourceExtension := if suffix = "" then none else some suffix
      targetContainer := if suffix = "mp4" then .mp4 else .mkv
      handling := .preserve }
    rename := { enabled := false }
    replace := {
      inPlace := true
      requireVerification := false
      keepOriginalUntilVerified := false
      deleteReplacedSource := false }
    reasons := [⟨"discovered_historic_backup", "Historic backup discovered during library scan."⟩]
    confidence := .low
    isAlreadyCompliant := true
    shouldTreatAsProtected := false }

/-- The job row that stands for a discovered backup. -/
def discoveredBackupJob (id : JobId) (fileId : FileId) (planId : PlanId)
    (backupPath outputPath : PosixPath) (now : Time) : Job where
  id := id
  trackedFileId := fileId
  planSnapshotId := planId
  status := .completed
  completedAt := some now
  progressStage := some "discovered_backup"
  progressPercent := some 100
  progressUpdatedAt := some now
  verificationStatus := .notRequired
  replacementStatus := .succeeded
  replacementPayload := some {
    status := .succeeded
    finalOutputPath := some outputPath
    originalBackupPath := some backupPath }
  finalOutputPath := some outputPath
  originalBackupPath := some backupPath
  requireVerification := false
  keepOriginalUntilVerified := false
  backupPolicy := "discovered"
  createdAt := now
  updatedAt := now

namespace Database

variable (db : Database)

/-- The row that a scan finds for the source of a backup, or the row it adds. -/
def discoveredFile (id : FileId) (path : PosixPath) (now : Time) : Database × TrackedFile :=
  match db.trackedFileByPath path with
  | some file => (db, file)
  | none =>
    let file : TrackedFile := {
      id := id
      sourcePath := path
      lifecycleState := .completed
      complianceState := .compliant
      createdAt := now
      updatedAt := now }
    ({ db with trackedFiles := db.trackedFiles ++ [file] }, file)

/-- A row records the backup. -/
def recordsBackup (backupPath : PosixPath) : Bool :=
  db.jobs.any fun job => job.originalBackupPath == some backupPath && job.backupDeletedAt.isNone &&
    job.backupRestoredAt.isNone

/-- The probe and the plan of a discovered backup. -/
def addDiscoveredPlan (id : String) (fileId : FileId) (sourcePath : PosixPath) (now : Time) :
    Database × PlanSnapshot :=
  let probe : ProbeSnapshot := { id := id, trackedFileId := fileId, payload := none, createdAt := now }
  { db with probeSnapshots := db.probeSnapshots ++ [probe] }.addPlanSnapshot id fileId probe.id
    (discoveredBackupPlan sourcePath) now

/-- A job row is added. -/
def addJob (job : Job) : Database :=
  { db with jobs := db.jobs ++ [job] }

/-- `reconcile_discovered_backup`; `id` is the id of the new rows. -/
def reconcileDiscoveredBackup (id : String) (sourcePath backupPath : PosixPath)
    (finalOutputPath : Option PosixPath) (now : Time) : Database :=
  if db.recordsBackup backupPath then db
  else
    let (db, file) := db.discoveredFile id sourcePath now
    let (db, plan) := db.addDiscoveredPlan id file.id sourcePath now
    db.addJob (discoveredBackupJob id file.id plan.id backupPath (finalOutputPath.getD sourcePath) now)

/-! ## Operations on backups -/

variable {C : Type}

/-- The rows of a file and its jobs, with the files. -/
def backupStore (file : TrackedFile) (files : Files PosixPath C) : BackupStore C where
  file := file
  jobs := db.jobs
  decisions := db.decisions
  files := files

/-- The database after an operation on the backups of a file. -/
def withBackupStore (store : BackupStore C) : Database :=
  { db with
    trackedFiles := Table.modify TrackedFile.id store.file.id (fun _ => store.file) db.trackedFiles
    jobs := store.jobs
    decisions := store.decisions }

end Database

/-! ## What the operations do -/

namespace Database

section Specs

variable {db db' : Database} {now : Time} {uid : String} {r : Rights} {workers : List WorkerId}

theorem Extends.trans {db₁ : Database} (h₁ : db.Extends db₁) (h₂ : db₁.Extends db') : db.Extends db' :=
  ⟨h₂.jobs.trans h₁.jobs, h₁.plans.trans h₂.plans, fun _ hf => h₂.files (h₁.files hf),
    h₂.kinds.trans h₁.kinds⟩

theorem Extends.evolves (h : db.Extends db') : db.Evolves Eq uid none db' :=
  (Evolves.refl db').after h

theorem updateFile_extends {id : FileId} {f : TrackedFile → TrackedFile}
    (hf : ∀ file, (f file).id = file.id) : db.Extends (db.updateFile id f now) :=
  ⟨rfl, List.prefix_rfl, fun _ h => (updateFile_fileIds db hf).symm ▸ h, rfl⟩

/-- A file is added. -/
theorem addFile_extends (file : TrackedFile) :
    db.Extends { db with trackedFiles := db.trackedFiles ++ [file] } := by
  refine ⟨rfl, List.prefix_rfl, fun id h => ?_, rfl⟩
  simp only [fileIds, List.map_append]
  exact List.mem_append_left _ h

theorem upsertByPath_extends (id : FileId) (path : PosixPath) :
    db.Extends (db.upsertByPath id path now).1 := by
  unfold upsertByPath
  split
  · exact .refl db
  · exact addFile_extends _

/-- A probe is added. -/
theorem addProbe_extends (probe : ProbeSnapshot) :
    db.Extends { db with probeSnapshots := db.probeSnapshots ++ [probe] } :=
  ⟨rfl, List.prefix_rfl, fun _ h => h, rfl⟩

theorem addProbeSnapshot_extends (id : String) (fileId : FileId) (media : MediaFile) :
    db.Extends (db.addProbeSnapshot id fileId media now) := by
  unfold addProbeSnapshot
  exact (addProbe_extends _).trans (updateFile_extends (f := fun file : TrackedFile =>
    { file with lifecycleState := .probed, is4k := media.is4k }) fun _ => rfl)

theorem planFile_extends {os : PathOs} {scratchDir path : PosixPath} {id : String}
    {media : MediaFile} {policy : ResolvedPlanningPolicy} {rename : RenamePlan} {plan : PlanSnapshot}
    (h : db.planFile os scratchDir id path media policy rename now = .ok (db', plan)) :
    db.Extends db' := by
  unfold planFile at h
  split at h
  · cases h
  · obtain ⟨rfl, -⟩ := Prod.mk.inj (return_ok.mp h)
    refine (upsertByPath_extends id path).trans ((addProbeSnapshot_extends id _ media).trans
      (Extends.trans (addPlanSnapshot_extends ..) (updateFile_extends fun file => ?_)))
    exact file.afterPlan_id _

theorem discoveredFile_extends (db : Database) (id : FileId) (path : PosixPath) (now : Time) :
    db.Extends (db.discoveredFile id path now).1 ∧
      (db.discoveredFile id path now).2.id ∈ (db.discoveredFile id path now).1.fileIds := by
  unfold discoveredFile
  split
  · next file hfile =>
    exact ⟨.refl db, List.mem_map_of_mem (Table.mem_of_find hfile)⟩
  · exact ⟨addFile_extends _, by simp [fileIds]⟩

/-- The record of a completed job is added. -/
theorem addRecord_evolves {job : Job} (hid : job.id = uid) (hplan : job.planSnapshotId ∈ db.planIds)
    (hfile : job.trackedFileId ∈ db.fileIds) (hcompleted : job.status = .completed)
    (hunverified : job.verificationStatus ≠ .passed) (hattempts : 1 ≤ job.attemptCount) :
    db.Evolves Eq uid (some job) (db.addJob job) where
  rows := ⟨id, by simp [addJob], fun _ _ => rfl⟩
  added row hrow := by
    obtain rfl := Option.some.inj hrow
    exact ⟨hid, hplan, hfile, hunverified, hattempts, .inr hcompleted⟩
  plans := List.prefix_rfl
  files _ h := h
  kinds := ⟨.local, fun _ h => .inl h⟩

theorem addDiscoveredPlan_extends (db : Database) (id : String) (fileId : FileId)
    (sourcePath : PosixPath) (now : Time) :
    db.Extends (db.addDiscoveredPlan id fileId sourcePath now).1 ∧
      (db.addDiscoveredPlan id fileId sourcePath now).2.id ∈
        (db.addDiscoveredPlan id fileId sourcePath now).1.planIds := by
  unfold addDiscoveredPlan
  exact ⟨(addProbe_extends _).trans (addPlanSnapshot_extends ..), addPlanSnapshot_mem ..⟩

/-- A discovered backup is the record of a completed job. -/
theorem reconcileDiscoveredBackup_evolves (sourcePath backupPath : PosixPath)
    (finalOutputPath : Option PosixPath) :
    ∃ new, db.Evolves Eq uid new
        (db.reconcileDiscoveredBackup uid sourcePath backupPath finalOutputPath now) ∧
      ∀ job ∈ new, job.status = .completed := by
  unfold reconcileDiscoveredBackup
  by_cases hrecorded : db.recordsBackup backupPath = true
  · rw [if_pos hrecorded]
    exact ⟨none, .refl db, fun job hj => absurd hj (Option.not_mem_none job)⟩
  · rw [if_neg hrecorded]
    obtain ⟨hfound, hfile⟩ := db.discoveredFile_extends uid sourcePath now
    generalize db.discoveredFile uid sourcePath now = found at hfound hfile ⊢
    obtain ⟨db₁, file⟩ := found
    obtain ⟨hplanned, hplan⟩ := db₁.addDiscoveredPlan_extends uid file.id sourcePath now
    dsimp only at hfile ⊢
    generalize db₁.addDiscoveredPlan uid file.id sourcePath now = planned at hplanned hplan ⊢
    obtain ⟨db₂, plan⟩ := planned
    let row := discoveredBackupJob uid file.id plan.id backupPath (finalOutputPath.getD sourcePath) now
    have hunverified : row.verificationStatus ≠ .passed := nofun
    have hadded : db₂.Evolves Eq uid (some row) (db₂.addJob row) :=
      addRecord_evolves rfl hplan (hplanned.files hfile) rfl hunverified le_rfl
    refine ⟨some row, hadded.after (hfound.trans hplanned), ?_⟩
    rintro job hjob
    obtain rfl := Option.some.inj hjob
    rfl

/-- The rows of a store differ from `jobs` in what they say of backups. -/
def KeepsCores {C : Type} (jobs : List Job) (store : BackupStore C) : Prop :=
  ∃ g : Job → Job, store.jobs = jobs.map g ∧ ∀ job, (g job).core = job.core

theorem keepsCores_modify (jobs : List Job) (jobId : JobId) {f : Job → Job}
    (hf : ∀ job, (f job).core = job.core) :
    ∃ g : Job → Job, Table.modify Job.id jobId f jobs = jobs.map g ∧ ∀ job, (g job).core = job.core := by
  refine ⟨_, rfl, fun job => ?_⟩
  split
  · exact hf job
  · rfl

section Backups

variable {C : Type} {os : PathOs} {roots : Option PathRoots} {jobId : JobId} {store : BackupStore C}

theorem KeepsCores.self (store : BackupStore C) : KeepsCores store.jobs store :=
  ⟨id, by simp, fun _ => rfl⟩

theorem restoreBackup_keepsCores (restoredBy : Option String) (F : Faults BackupSite C) :
    KeepsCores store.jobs (restoreBackup os roots jobId restoredBy now F store).2 := by
  unfold restoreBackup
  split
  · exact .self store
  · split
    · exact .self store
    · exact keepsCores_modify _ _ fun _ => rfl

theorem deleteBackup_keepsCores (F : Faults BackupSite C) :
    KeepsCores store.jobs (deleteBackup os roots jobId now F store).2 := by
  unfold deleteBackup
  split
  · exact .self store
  · split
    · exact .self store
    · exact keepsCores_modify _ _ fun _ => rfl

theorem cleanupExpiredBackups_keepsCores (F : Faults JobId C) :
    KeepsCores store.jobs (cleanupExpiredBackups os roots now F store).2 := by
  unfold cleanupExpiredBackups
  split
  · exact .self store
  · exact .self store
  · refine ⟨_, rfl, fun job => ?_⟩
    split <;> rfl

/-- The tables after an operation on backups. -/
theorem keepsCores_evolves (h : KeepsCores db.jobs store) :
    db.Evolves (Job.Managed r workers) uid none { db with jobs := store.jobs } := by
  obtain ⟨g, hjobs, hg⟩ := h
  have hrows : db.Evolves (Job.Managed r workers) uid none { db with jobs := db.jobs.map g } :=
    .of_map fun job _ => .of_core (hg job)
  exact hrows.frame hjobs rfl rfl rfl

theorem withBackupStore_evolves (h : KeepsCores db.jobs store) :
    db.Evolves (Job.Managed r workers) uid none (db.withBackupStore store) :=
  (keepsCores_evolves h).frame rfl rfl (Table.keys_modify fun _ _ _ => rfl) rfl

end Backups

end Specs

end Database

end Encodr
