import Encodr.Db.Telemetry
import Encodr.Lib.Transition
import Encodr.System.Invariant

/-!
# Telemetry over runs

The operations of the job repository, with the columns that the telemetry reads, and the aggregation
row that a recorded result brings up to date. The operations take a job in any status, as the
repository does.

* `TelemetryState`, `TelemetryOp`, `telemetrySystem`: the tables with the aggregation row, and the
  operations.
* `drifts`: the operations that change what is counted and leave the row as it is, or count a job
  twice.
* `telemetry_recounted`: in a run without them, the row is what a rebuild would make it.
-/

namespace Encodr

open Python Lib

/-! ## State -/

/-- The tables, with the columns of a job and of a file that only the telemetry reads. -/
structure TelemetryState where
  db : Database := {}
  sizes : JobId → JobSizes := fun _ => {}
  /-- `last_observed_size`. -/
  observedSize : FileId → Option Int := fun _ => none
  aggregation : Option TelemetryAggregation := none

/-- A result with the fields that the telemetry reads. -/
structure MeasuredResult extends ExecutionResult where
  outputSizeBytes : Option Int := none
  analysisPayload : Option Dict := none

/-- `TERMINAL_JOB_STATUSES`. -/
def JobStatus.isTerminal : JobStatus → Bool
  | .completed | .failed | .interrupted | .cancelled | .skipped | .manualReview => true
  | .pending | .scheduled | .running => false

namespace TelemetryState

variable (s : TelemetryState)

/-- A job row as the aggregation reads it. -/
def countedJob (job : Job) : CountedJob where
  sizes := s.sizes job.id
  processedAt := job.processedAt
  action := (s.db.planSnapshot job.planSnapshotId).map (·.action)

/-- The aggregation row after `rebuild_global`. -/
def rebuilt : TelemetryAggregation :=
  (s.db.jobs.map s.countedJob).foldl addJob {}

/-- `rebuild_global`. -/
def rebuildGlobal : TelemetryState :=
  { s with aggregation := some s.rebuilt }

/-- `get_or_rebuild_global`. -/
def getOrRebuildGlobal : TelemetryState :=
  if s.aggregation.isSome then s else s.rebuildGlobal

/-- `record_job_result`. -/
def recordJobResult (job : Job) (previousStatus : JobStatus) : TelemetryState :=
  match s.aggregation with
  | none => s.rebuildGlobal
  | some aggregation =>
    if previousStatus.isTerminal then s.rebuildGlobal
    else { s with aggregation := some (addJob aggregation (s.countedJob job)) }

/-- The size columns that `mark_result` writes. -/
def resultSizes (jobId : JobId) (result : MeasuredResult) : JobSizes where
  inputSizeBytes := (s.sizes jobId).inputSizeBytes
  outputSizeBytes := result.outputSizeBytes
  spaceSavedBytes := calculateSpaceSaved (s.sizes jobId).inputSizeBytes result.outputSizeBytes
  analysisPayload := result.analysisPayload

/-- `mark_result`. -/
def markResult (job : Job) (result : MeasuredResult) (now : Time) : TelemetryState :=
  let written : TelemetryState := { s with
    db := s.db.updateJob job.id (·.markResult result.toExecutionResult) now
    sizes := Function.update s.sizes job.id (s.resultSizes job.id result) }
  written.recordJobResult (job.markResult result.toExecutionResult) job.status

/-- The size columns of a new job of a file. -/
def newSizes (fileId : FileId) (analysisPayload : Option Dict) : JobSizes where
  inputSizeBytes := s.observedSize fileId
  analysisPayload := analysisPayload

end TelemetryState

/-! ## Operations -/

/-- An operation of the repository that gives a job another status, but for a recorded result. -/
inductive StatusChange where
  | markRunning (workerName : String)
  | markRunningForWorker (worker : Worker)
  | markScheduled (scheduledForAt : Option Time)
  | promoteScheduled
  | routeToManualReview (reviewedAt : Time) (reason category : String)
  | markInterrupted (interruptedAt : Time) (reason : String) (retryable : Bool)
  | markCancelled (cancelledAt : Time) (reason : String)

/-- The row after a change of its status. -/
def StatusChange.apply (now : Time) (job : Job) : StatusChange → Job
  | .markRunning workerName => job.markRunning workerName now
  | .markRunningForWorker worker => job.claimedBy worker now
  | .markScheduled scheduledForAt => job.markScheduled scheduledForAt
  | .promoteScheduled => job.promoteScheduled
  | .routeToManualReview reviewedAt reason category =>
    job.routeToManualReview reviewedAt reason category
  | .markInterrupted interruptedAt reason retryable =>
    job.markInterrupted interruptedAt reason retryable
  | .markCancelled cancelledAt reason => job.markCancelled cancelledAt reason

/-- The file after a change of the status of its job. -/
def StatusChange.applyToFile (file : TrackedFile) : StatusChange → TrackedFile
  | .markRunning _ | .markRunningForWorker _ => { file with lifecycleState := .processing }
  | .routeToManualReview _ _ _ =>
    { file with lifecycleState := .manualReview, complianceState := .manualReview }
  | _ => file

/-- An operation of the repository that keeps the status of a job. -/
inductive RowChange where
  | assignWorker (worker : Worker)
  | markCancelling (requestedAt : Time)
  | markCancellationRequested (requestedAt : Time) (reason : String)
  | recordProgress (stage : String) (percent : Option Rat) (updatedAt : Time)
  | markCleared (clearedAt : Time) (reason : String)
  /-- What a deleted backup leaves in the row. -/
  | backupDeleted (deletedAt : Time)
  /-- What a restored backup leaves in the row. -/
  | backupRestored (restoredAt : Time)

def RowChange.apply (job : Job) : RowChange → Job
  | .assignWorker worker => job.assignWorker worker
  | .markCancelling requestedAt => job.markCancelling requestedAt
  | .markCancellationRequested requestedAt reason => job.markCancellationRequested requestedAt reason
  | .recordProgress stage percent updatedAt => job.recordProgress stage percent updatedAt
  | .markCleared clearedAt reason => job.markCleared clearedAt reason
  | .backupDeleted deletedAt => { job with backupDeletedAt := some deletedAt }
  | .backupRestored restoredAt => { job with backupRestoredAt := some restoredAt }

inductive TelemetryOp where
  | scanFile (path : PosixPath) (size : Option Int)
  | planFile (path : PosixPath) (media : MediaFile) (size : Int) (policy : ResolvedPlanningPolicy)
      (rename : RenamePlan)
  | createJob (fileId : FileId) (planId : PlanId) (o : JobOptions) (analysisPayload : Option Dict)
  | claim (jobId : JobId) (worker : Worker)
  | changeStatus (jobId : JobId) (change : StatusChange)
  | changeRow (jobId : JobId) (change : RowChange)
  | markResult (jobId : JobId) (result : MeasuredResult)
  | applyAutomaticRetryPolicy (jobId : JobId) (result : MeasuredResult)
  | clearQueue
  | clearFailedHistory (jobIds : Option (List JobId))
  | reconcileDiscoveredBackup (sourcePath backupPath : PosixPath)
      (finalOutputPath : Option PosixPath) (observedSize : Option Int)
  | getOrRebuildGlobal
  | rebuildGlobal

structure TelemetryAction where
  /-- The id of the new rows, which no row has. -/
  uid : String
  now : Time
  op : TelemetryOp

/-- The size of a file that was observed, where one was. -/
def observe (observedSize : FileId → Option Int) (fileId : FileId) :
    Option Int → FileId → Option Int
  | none => observedSize
  | some size => Function.update observedSize fileId (some size)

namespace TelemetryState

variable (c : Settings) (s : TelemetryState) (uid : String) (now : Time)

/-- A change of the status of a job. A second active job of the file is refused. -/
def changeStatus (job : Job) (change : StatusChange) : Option TelemetryState := do
  guard ((change.apply now job).isActive = true →
    ∀ row ∈ s.db.jobs, row.isActive = true → row.trackedFileId = job.trackedFileId → row.id = job.id)
  return { s with
    db := (s.db.updateJob job.id (fun job => change.apply now job) now).updateFile job.trackedFileId
      (fun file => change.applyToFile file) now }

/-- `apply_automatic_retry_policy`. -/
def applyAutomaticRetryPolicy (job : Job) (result : MeasuredResult) : Option TelemetryState := do
  let file ← s.db.trackedFile job.trackedFileId
  let plan ← s.db.planSnapshot job.planSnapshotId
  return { s with
    db := s.db.applyAutomaticRetryPolicy c.calendar job file plan result.toExecutionResult uid now
    -- the columns of the retry, where there is one
    sizes := Function.update s.sizes uid
      (s.newSizes job.trackedFileId (s.sizes job.id).analysisPayload) }

/-- `reconcile_discovered_backup`. -/
def reconcileDiscoveredBackup (sourcePath backupPath : PosixPath)
    (finalOutputPath : Option PosixPath) (observedSize : Option Int) : TelemetryState :=
  if s.db.recordsBackup backupPath then s
  else { s with
    db := s.db.reconcileDiscoveredBackup uid sourcePath backupPath finalOutputPath now
    sizes := Function.update s.sizes uid {
      inputSizeBytes := observedSize
      analysisPayload := some [("source", .str "discovered_backup")] }
    observedSize := observe s.observedSize
      (s.db.discoveredFile uid sourcePath now).2.id observedSize }

/-- The state after an operation. -/
def apply : TelemetryOp → Option TelemetryState
  | .scanFile path size =>
    let (db, file) := s.db.upsertByPath uid path now
    some { s with db := db, observedSize := observe s.observedSize file.id size }
  | .planFile path media size policy rename => do
    let (db, plan) ← (s.db.planFile c.os c.scratchDir uid path media policy rename now).toOption
    return { s with db := db, observedSize := observe s.observedSize plan.trackedFileId (some size) }
  | .createJob fileId planId o analysisPayload => do
    let file ← s.db.trackedFile fileId
    let plan ← s.db.planSnapshot planId
    let (db, _) ← s.db.createJobFromPlan c.calendar uid file.id plan o now
    return { s with
      db := db
      sizes := Function.update s.sizes uid (s.newSizes file.id analysisPayload) }
  | .claim jobId worker => do
    let (db, _) ← s.db.claimPendingForWorker jobId worker now
    return { s with db := db }
  | .changeStatus jobId change => do s.changeStatus now (← s.db.job jobId) change
  | .changeRow jobId change => do
    let job ← s.db.job jobId
    return { s with db := s.db.updateJob job.id (fun job => change.apply job) now }
  | .markResult jobId result => do
    let job ← s.db.job jobId
    return s.markResult job result now
  | .applyAutomaticRetryPolicy jobId result => do
    s.applyAutomaticRetryPolicy c uid now (← s.db.job jobId) result
  | .clearQueue => some { s with db := s.db.clearQueue now }
  | .clearFailedHistory jobIds => some { s with db := s.db.clearFailedHistory jobIds now }
  | .reconcileDiscoveredBackup sourcePath backupPath finalOutputPath observedSize =>
    some (s.reconcileDiscoveredBackup uid now sourcePath backupPath finalOutputPath observedSize)
  | .getOrRebuildGlobal => some s.getOrRebuildGlobal
  | .rebuildGlobal => some s.rebuildGlobal

end TelemetryState

/-- The operations of the repository, from empty tables. -/
def telemetrySystem (c : Settings) : Sys TelemetryState TelemetryAction where
  init s := s = {}
  step s a := if a.uid ∈ s.db.jobIds then none else s.apply c a.uid a.now a.op

/-! ## Drift -/

/-- The policy routes the job of a failed result to a review. -/
def routesToReview (db : Database) (job : Job) (result : ExecutionResult) : Bool :=
  result.status == .failed && job.jobKind == .execution &&
    ((match db.trackedFile job.trackedFileId, db.planSnapshot job.planSnapshotId with
      | some file, some plan => Database.jobRequiresManualReview file plan
      | _, _ => false) || maxAutomatedRetries < job.attemptCount)

/-- There is an aggregation row, and the operation takes a counted job out of the count, adds one to
the tables, or counts a measured job again. -/
def drifts (s : TelemetryState) (a : TelemetryAction) : Bool :=
  s.aggregation.isSome && match a.op with
  | .changeStatus jobId _ => (s.db.job jobId).any (·.processedAt.isSome)
  | .markResult jobId _ => (s.db.job jobId).any fun job =>
    !job.status.isTerminal && (s.sizes jobId).isMeasurable
  | .applyAutomaticRetryPolicy jobId result => (s.db.job jobId).any fun job =>
    job.processedAt.isSome && routesToReview s.db job result.toExecutionResult
  | .reconcileDiscoveredBackup _ backupPath _ _ => !s.db.recordsBackup backupPath
  | _ => false

/-! ## What the operations keep -/

/-- A row keeps its id and its plan. -/
def Job.SameRow (job job' : Job) : Prop :=
  job'.id = job.id ∧ job'.planSnapshotId = job.planSnapshotId

/-- A change of a row that leaves what is counted of it. -/
def Job.CountsAlike (job job' : Job) : Prop :=
  job.SameRow job' ∧ job'.processedAt = job.processedAt

theorem Job.CountsAlike.refl (job : Job) : job.CountsAlike job := ⟨⟨rfl, rfl⟩, rfl⟩

/-- The tables after an operation that changes job rows by `change`, adds plans, and adds the job `new`
with the id `uid`. -/
structure Database.Grows (change : Job → Job → Prop) (uid : String) (new : Option Job)
    (db db' : Database) : Prop where
  rows : ∃ g, db'.jobs = db.jobs.map g ++ new.toList ∧ ∀ job ∈ db.jobs, change job (g job)
  added : ∀ job ∈ new, job.id = uid ∧ job.planSnapshotId ∈ db'.planIds
  plans : db.planSnapshots <+: db'.planSnapshots

/-- The ids of jobs are unique, and their plans are in the tables. -/
structure Database.Rows (db : Database) : Prop where
  nodup : db.jobIds.Nodup
  plans : ∀ job ∈ db.jobs, job.planSnapshotId ∈ db.planIds

namespace Database

variable {db db₁ db' : Database} {change change' : Job → Job → Prop} {uid : String} {new : Option Job}
  {now : Time} {job : Job}

theorem Evolves.grows (h : db.Evolves change uid new db') : db.Grows change uid new db' :=
  ⟨h.rows, fun job hj => ⟨(h.added job hj).id, (h.added job hj).plan⟩, h.plans⟩

theorem Grows.mono (h : db.Grows change uid new db')
    (hc : ∀ job ∈ db.jobs, ∀ job', change job job' → change' job job') :
    db.Grows change' uid new db' := by
  obtain ⟨g, hg, hchange⟩ := h.rows
  exact ⟨⟨g, hg, fun job hj => hc job hj (g job) (hchange job hj)⟩, h.added, h.plans⟩

theorem Extends.grows (h : db.Extends db') (hrefl : ∀ job, change job job) :
    db.Grows change uid none db' :=
  ⟨⟨id, by simp [h.jobs], fun job _ => hrefl job⟩, by simp, h.plans⟩

theorem createJobFromPlan_grows {calendar : Calendar} {fileId : FileId} {plan : PlanSnapshot}
    {o : JobOptions} (h : db.createJobFromPlan calendar uid fileId plan o now = some (db', job))
    (hplan : plan.id ∈ db.planIds) (hrefl : ∀ job, change job job) :
    db.Grows change uid (some job) db' := by
  obtain ⟨-, hjob, rfl⟩ := createJobFromPlan_eq_some h
  have hterms : job.id = uid ∧ job.planSnapshotId = plan.id := by
    rw [hjob]
    exact ⟨rfl, rfl⟩
  refine ⟨⟨id, by simp, fun job _ => hrefl job⟩, fun row hrow => ?_, List.prefix_rfl⟩
  rw [← Option.some.inj hrow]
  exact ⟨hterms.1, hterms.2 ▸ hplan⟩

/-- A plan stays in the tables. -/
theorem Grows.planSnapshot (h : db.Grows change uid new db') {id : PlanId} {plan : PlanSnapshot}
    (hp : db.planSnapshot id = some plan) : db'.planSnapshot id = some plan := by
  obtain ⟨added, hadded⟩ := h.plans
  rw [Database.planSnapshot, ← hadded]
  exact Table.find_append hp

theorem Rows.grows (h : db.Rows) (hg : db.Grows change uid new db')
    (hchange : ∀ job job', change job job' → job.SameRow job') (hfresh : uid ∉ db.jobIds) :
    db'.Rows := by
  obtain ⟨g, hrows, hsame⟩ := hg.rows
  have hids : db'.jobIds = db.jobIds ++ new.toList.map (·.id) := by
    rw [Database.jobIds, hrows, List.map_append, List.map_map]
    congr 1
    exact List.map_congr_left fun job hj => (hchange job (g job) (hsame job hj)).1
  refine ⟨?_, fun job hj => ?_⟩
  · rw [hids]
    refine List.nodup_append.mpr ⟨h.nodup, by cases new <;> simp, fun id hid id' hid' heq => ?_⟩
    obtain ⟨job, hj, rfl⟩ := List.mem_map.mp hid'
    exact hfresh ((hg.added job (Option.mem_toList.mp hj)).1 ▸ heq ▸ hid)
  · rw [hrows, List.mem_append, List.mem_map] at hj
    rcases hj with ⟨row, hrow, rfl⟩ | hnew
    · obtain ⟨plan, hplan⟩ := mem_planIds.mp (h.plans row hrow)
      rw [(hchange row (g row) (hsame row hrow)).2]
      exact mem_planIds.mpr ⟨plan, hg.planSnapshot hplan⟩
    · exact (hg.added job (Option.mem_toList.mp hnew)).2

theorem Rows.job_of_mem (h : db.Rows) {row : Job} (hj : job ∈ db.jobs) (hrow : row ∈ db.jobs)
    (hid : row.id = job.id) : row = job :=
  List.inj_on_of_nodup_map h.nodup hrow hj hid

/-- The row of one job is changed. -/
theorem updateJob_grows {id : JobId} {f : Job → Job} (hrefl : ∀ job, change job job)
    (hf : ∀ job ∈ db.jobs, job.id = id → change job { f job with updatedAt := now }) :
    db.Grows change uid none (db.updateJob id f now) :=
  (Evolves.only hf).grows.mono fun job _ _ h => h.imp (hrefl job) fun _ hc => hc

/-- The state of a file does not matter. -/
theorem Grows.updateFile {id : FileId} {f : TrackedFile → TrackedFile}
    (h : db.Grows change uid new db₁) : db.Grows change uid new (db₁.updateFile id f now) :=
  ⟨h.rows, h.added, h.plans⟩

end Database

namespace TelemetryState

variable {c : Settings} {s s' : TelemetryState} {change : Job → Job → Prop} {uid : String}
  {new : Option Job} {now : Time} {job : Job}

theorem rebuilt_eq (s : TelemetryState) :
    s.rebuilt = telemetry.count (s.db.jobs.map s.countedJob) := rfl

/-- A row counts as before where its plan, its sizes and its time are as before. -/
theorem countedJob_eq (hplans : job.planSnapshotId ∈ s.db.planIds)
    (hg : s.db.Grows change uid new s'.db) {job' : Job} (h : job.CountsAlike job')
    (hsizes : s'.sizes job.id = s.sizes job.id) : s'.countedJob job' = s.countedJob job := by
  obtain ⟨plan, hplan⟩ := Database.mem_planIds.mp hplans
  simp only [countedJob, h.1.1, h.1.2, h.2, hsizes, hplan, hg.planSnapshot hplan]

/-- The rows are as the repository keeps them, and the aggregation row is the recount. -/
structure Recounted (s : TelemetryState) : Prop where
  rows : s.db.Rows
  row : ∀ aggregation, s.aggregation = some aggregation → aggregation = s.rebuilt

/-- Operations that change nothing counted, and add a job that does not count. -/
theorem Recounted.grows (h : s.Recounted) (hg : s.db.Grows Job.CountsAlike uid new s'.db)
    (hfresh : uid ∉ s.db.jobIds) (haggregation : s'.aggregation = s.aggregation)
    (hsizes : ∀ job ∈ s.db.jobs, s'.sizes job.id = s.sizes job.id)
    (hnew : ∀ job ∈ new, telemetry.Silent (s'.countedJob job)) : s'.Recounted where
  rows := h.rows.grows hg (fun _ _ hc => hc.1) hfresh
  row aggregation hrow := by
    rw [h.row aggregation (haggregation ▸ hrow), rebuilt_eq, rebuilt_eq]
    obtain ⟨g, hrows, hchange⟩ := hg.rows
    have hold : (s.db.jobs.map g).map s'.countedJob = s.db.jobs.map s.countedJob := by
      rw [List.map_map]
      exact List.map_congr_left fun job hj =>
        countedJob_eq (h.rows.plans job hj) hg (hchange job hj) (hsizes job hj)
    rw [hrows, List.map_append, hold]
    cases new with
    | none => simp
    | some job => exact (telemetry.count_append_silent _ (hnew job rfl)).symm

/-- Without an aggregation row nothing is kept but the rows. -/
theorem Recounted.of_none (h : s.Recounted) (hg : s.db.Grows change uid new s'.db)
    (hchange : ∀ job job', change job job' → job.SameRow job') (hfresh : uid ∉ s.db.jobIds)
    (hnone : s'.aggregation = none) : s'.Recounted where
  rows := h.rows.grows hg hchange hfresh
  row aggregation hrow := by
    rw [hnone] at hrow
    cases hrow

theorem Recounted.rebuildGlobal (h : s.db.Rows) : s.rebuildGlobal.Recounted :=
  ⟨h, fun _ hrow => (Option.some.inj hrow).symm⟩

/-! ### A recorded result -/

/-- A job that has not ended has not been processed. -/
theorem processedAt_of_not_isTerminal (h : job.status.isTerminal = false) :
    job.processedAt = none := by
  refine Job.processedAt_of_not_successful ?_
  cases hst : job.status <;> first | rfl | (rw [hst] at h; cases h)

section MarkResult

variable {result : MeasuredResult}

/-- The rows after a recorded result. -/
theorem markResult_grows (uid : String) : s.db.Grows Job.SameRow uid none
    (s.db.updateJob job.id (·.markResult result.toExecutionResult) now) := by
  refine Database.updateJob_grows (fun _ => ⟨rfl, rfl⟩) fun row _ _ => ⟨row.markResult_id _, ?_⟩
  exact congrArg JobTerms.planSnapshotId (row.markResult_terms result.toExecutionResult)

/-- The recount after a recorded result of a job that did not count before. -/
theorem markResult_rebuilt (hrows : s.db.Rows) (hj : job ∈ s.db.jobs)
    (hsilent : telemetry.Silent (s.countedJob job)) {written : TelemetryState}
    (hdb : written.db = s.db.updateJob job.id (·.markResult result.toExecutionResult) now)
    (hsizes : written.sizes = Function.update s.sizes job.id (s.resultSizes job.id result)) :
    written.rebuilt =
      addJob s.rebuilt (written.countedJob (job.markResult result.toExecutionResult)) := by
  rw [rebuilt_eq, rebuilt_eq, hdb, Database.updateJob_jobs, List.map_map]
  refine (Tally.count_replace (T := telemetry) hrows.nodup hj hsilent fun row hrow hne => ?_).trans ?_
  · simp only [Function.comp_apply, if_neg hne, countedJob, hsizes, hdb, Function.update_of_ne hne,
      Database.planSnapshot, Database.updateJob_planSnapshots]
  · simp only [Function.comp_apply, if_true]
    rfl

/-- A result is recorded where the aggregation row is rebuilt, or the job was not measured before. -/
theorem Recounted.markResult (h : s.Recounted) (hj : job ∈ s.db.jobs) (hfresh : uid ∉ s.db.jobIds)
    (hcounted : s.aggregation = none ∨ job.status.isTerminal = true ∨
      (s.sizes job.id).isMeasurable = false) : (s.markResult job result now).Recounted := by
  have hrows : (s.db.updateJob job.id (·.markResult result.toExecutionResult) now).Rows :=
    h.rows.grows (markResult_grows uid) (fun _ _ hc => hc) hfresh
  unfold TelemetryState.markResult
  dsimp only
  unfold recordJobResult
  split
  · exact .rebuildGlobal hrows
  · next aggregation hrow =>
    split
    · exact .rebuildGlobal hrows
    · next hactive =>
      have hactive := Bool.eq_false_iff.mpr hactive
      rcases hcounted with hnone | hterminal | hmeasured
      · exact absurd (hnone.symm.trans hrow) nofun
      · rw [hterminal] at hactive
        cases hactive
      · have hsilent : telemetry.Silent (s.countedJob job) :=
          CountedJob.silent hmeasured (processedAt_of_not_isTerminal hactive)
        refine ⟨hrows, fun aggregation' hrow' => ?_⟩
        rw [← Option.some.inj hrow', h.row aggregation hrow]
        exact (markResult_rebuilt h.rows hj hsilent rfl rfl).symm

end MarkResult

/-! ### Changes of a status -/

theorem statusChange_spec (change : StatusChange) (now : Time) (job : Job) :
    job.SameRow (change.apply now job) ∧ (change.apply now job).processedAt = none := by
  cases change <;> exact ⟨⟨rfl, rfl⟩, rfl⟩

theorem rowChange_countsAlike (change : RowChange) (job : Job) :
    job.CountsAlike { change.apply job with updatedAt := now } := by
  cases change <;> exact ⟨⟨rfl, rfl⟩, rfl⟩

/-- A job whose row changes without a change of what is counted. -/
theorem Recounted.updateJob {f : Job → Job} (h : s.Recounted) (hj : job ∈ s.db.jobs)
    (hfresh : uid ∉ s.db.jobIds) (hf : job.CountsAlike { f job with updatedAt := now }) :
    ({ s with db := s.db.updateJob job.id f now } : TelemetryState).Recounted := by
  have hgrows : s.db.Grows Job.CountsAlike uid none (s.db.updateJob job.id f now) :=
    Database.updateJob_grows .refl fun row hrow hid => h.rows.job_of_mem hj hrow hid ▸ hf
  exact h.grows hgrows hfresh rfl (fun _ _ => rfl) (by simp)

/-- The row of a file does not matter. -/
theorem Recounted.updateFile {id : FileId} {f : TrackedFile → TrackedFile} (h : s.Recounted) :
    ({ s with db := s.db.updateFile id f now } : TelemetryState).Recounted :=
  ⟨⟨h.rows.nodup, h.rows.plans⟩, h.row⟩

/-- A status changes where there is no aggregation row, or the job was not processed. -/
theorem Recounted.changeStatus {change : StatusChange} (h : s.Recounted) (hj : job ∈ s.db.jobs)
    (hfresh : uid ∉ s.db.jobIds) (hcounted : s.aggregation = none ∨ job.processedAt = none)
    (hs : s.changeStatus now job change = some s') : s'.Recounted := by
  simp only [TelemetryState.changeStatus, bind, Option.bind_eq_some_iff, Option.guard_eq_some', pure,
    Option.some.injEq] at hs
  obtain ⟨-, -, rfl⟩ := hs
  obtain ⟨hsame, hunprocessed⟩ := statusChange_spec change now job
  rcases hcounted with hnone | hprocessed
  · have hgrows : s.db.Grows Job.SameRow uid none
        (s.db.updateJob job.id (fun job => change.apply now job) now) :=
      Database.updateJob_grows (fun _ => ⟨rfl, rfl⟩) fun row _ _ => (statusChange_spec change now row).1
    exact h.of_none hgrows.updateFile (fun _ _ hc => hc) hfresh hnone
  · exact (h.updateJob hj hfresh ⟨hsame, hunprocessed.trans hprocessed.symm⟩).updateFile

/-! ### New jobs -/

theorem id_ne_of_fresh (hfresh : uid ∉ s.db.jobIds) (hj : job ∈ s.db.jobs) : job.id ≠ uid :=
  fun heq => hfresh (heq ▸ List.mem_map_of_mem hj)

/-- The columns of an id that no job has do not matter. -/
theorem Recounted.freshSizes {sizes : JobSizes} (h : s.Recounted) (hfresh : uid ∉ s.db.jobIds) :
    ({ s with sizes := Function.update s.sizes uid sizes } : TelemetryState).Recounted := by
  refine h.grows (Database.Extends.grows (.refl s.db) .refl) hfresh rfl (fun row hrow => ?_) (by simp)
  exact Function.update_of_ne (id_ne_of_fresh hfresh hrow) _ _

/-- A new job has neither been processed nor measured. -/
theorem Recounted.create {calendar : Calendar} {fileId : FileId} {plan : PlanSnapshot}
    {o : JobOptions} {db' : Database} {payload : Option Dict} (h : s.Recounted)
    (hcreated : s.db.createJobFromPlan calendar uid fileId plan o now = some (db', job))
    (hplan : plan.id ∈ s.db.planIds) (hfresh : uid ∉ s.db.jobIds) :
    ({ s with
      db := db'
      sizes := Function.update s.sizes uid (s.newSizes fileId payload) } : TelemetryState).Recounted := by
  have hgrows := Database.createJobFromPlan_grows hcreated hplan Job.CountsAlike.refl
  obtain ⟨-, hjob, -⟩ := Database.createJobFromPlan_eq_some hcreated
  have hactive : job.isActive = true := by
    rw [hjob]
    exact Job.isActive_of_isQueued (Job.createFromPlan_isQueued ..)
  have hunprocessed : job.processedAt = none :=
    Job.processedAt_of_not_successful (JobStatus.not_successful_of_isActive
      (Bool.and_eq_true_iff.mp hactive).1)
  refine h.grows hgrows hfresh rfl (fun row hrow => ?_) fun row hrow => ?_
  · exact Function.update_of_ne (id_ne_of_fresh hfresh hrow) _ _
  · rw [← Option.some.inj hrow]
    refine CountedJob.silent ?_ hunprocessed
    simp only [countedJob, (hgrows.added job rfl).1, Function.update_self, newSizes]
    simp [JobSizes.isMeasurable]

/-- A claimed job was pending. -/
theorem Recounted.claim {jobId : JobId} {worker : Worker} {db' : Database} (h : s.Recounted)
    (hfresh : uid ∉ s.db.jobIds)
    (hclaimed : s.db.claimPendingForWorker jobId worker now = some (db', job)) :
    ({ s with db := db' } : TelemetryState).Recounted := by
  obtain ⟨hj, hpending, -, rfl⟩ := Database.claimPendingForWorker_eq_some hclaimed
  have hunprocessed : job.processedAt = none :=
    Job.processedAt_of_not_successful (by rw [hpending]; rfl)
  rw [← Table.key_of_find hj]
  refine (h.updateJob (Table.mem_of_find hj) hfresh ⟨⟨rfl, rfl⟩, ?_⟩).updateFile
  exact (Job.processedAt_of_not_successful rfl).trans hunprocessed.symm

/-- A failed job is routed to a review where there is no aggregation row, or it was not processed. -/
theorem Recounted.routeToManualReview {reviewedAt : Time} {reason category : String} (h : s.Recounted)
    (hj : job ∈ s.db.jobs) (hfresh : uid ∉ s.db.jobIds)
    (hcounted : s.aggregation = none ∨ job.processedAt = none) :
    ({ s with db := s.db.routeToManualReview job reviewedAt reason category now } :
      TelemetryState).Recounted := by
  rcases hcounted with hnone | hprocessed
  · have hgrows : s.db.Grows Job.SameRow uid none
        (s.db.updateJob job.id (·.routeToManualReview reviewedAt reason category) now) :=
      Database.updateJob_grows (fun _ => ⟨rfl, rfl⟩) fun _ _ _ => ⟨rfl, rfl⟩
    exact h.of_none hgrows.updateFile (fun _ _ hc => hc) hfresh hnone
  · refine (h.updateJob hj hfresh ⟨⟨rfl, rfl⟩, ?_⟩).updateFile
    exact (Job.processedAt_of_not_successful rfl).trans hprocessed.symm

/-- What follows a failed result. -/
theorem Recounted.applyAutomaticRetryPolicy {result : MeasuredResult} (h : s.Recounted)
    (hj : job ∈ s.db.jobs) (hfresh : uid ∉ s.db.jobIds)
    (hcounted : s.aggregation = none ∨ job.processedAt = none ∨
      routesToReview s.db job result.toExecutionResult = false)
    (hs : s.applyAutomaticRetryPolicy c uid now job result = some s') : s'.Recounted := by
  simp only [TelemetryState.applyAutomaticRetryPolicy, bind, Option.bind_eq_some_iff, pure,
    Option.some.injEq] at hs
  obtain ⟨file, hfile, plan, hplan, rfl⟩ := hs
  obtain ⟨new, hpolicy⟩ := Database.applyAutomaticRetryPolicy_cases s.db c.calendar job file plan
    result.toExecutionResult uid now
  generalize s.db.applyAutomaticRetryPolicy c.calendar job file plan result.toExecutionResult uid
    now = db' at hpolicy ⊢
  cases hpolicy with
  | other => exact h.freshSizes hfresh
  | standIn => exact h.freshSizes hfresh
  | review failed kind hreview reason category =>
    have hroutes : routesToReview s.db job result.toExecutionResult = true := by
      simp [routesToReview, failed, kind, hfile, hplan, hreview]
    have hcounted : s.aggregation = none ∨ job.processedAt = none := by
      rcases hcounted with hnone | hprocessed | hnot
      · exact .inl hnone
      · exact .inr hprocessed
      · rw [hroutes] at hnot
        cases hnot
    exact (h.freshSizes hfresh).routeToManualReview hj hfresh hcounted
  | retry _ _ _ _ hcreated =>
    exact h.create hcreated (Database.planSnapshot_id hplan ▸ Database.mem_planIds.mpr ⟨plan,
      (Database.planSnapshot_id hplan).symm ▸ hplan⟩) hfresh

/-! ### Operations on many rows -/

/-- A job that leaves the queue was not processed, and is not processed then. -/
theorem clearQueue_grows (uid : String) :
    s.db.Grows Job.CountsAlike uid none (s.db.clearQueue now) := by
  refine (Database.refreshFiles_evolves _ (.of_map fun job _ => ?_)).grows
  split
  · next hqueue =>
    have hunprocessed : job.processedAt = none := by
      refine Job.processedAt_of_not_successful ?_
      simp only [Database.inClearedQueue, List.mem_cons, List.not_mem_nil, or_false,
        Bool.and_eq_true, Bool.or_eq_true, decide_eq_true_eq, beq_iff_eq] at hqueue
      rcases hqueue.2 with (h | h) | h
      · rw [h]; rfl
      · rw [h]; rfl
      · rw [h.1.1]; rfl
    exact ⟨⟨rfl, rfl⟩, (Job.processedAt_of_not_successful rfl).trans hunprocessed.symm⟩
  · exact .refl job

/-- Cleared rows count as before. -/
theorem clearFailedHistory_grows (uid : String) (jobIds : Option (List JobId)) :
    s.db.Grows Job.CountsAlike uid none (s.db.clearFailedHistory jobIds now) := by
  refine (Database.Evolves.of_map fun job _ => ?_).grows
  split
  · exact ⟨⟨rfl, rfl⟩, rfl⟩
  · exact .refl job

/-- A backup is reconciled where a row records it, or there is no aggregation row. -/
theorem Recounted.reconcileDiscoveredBackup {sourcePath backupPath : PosixPath}
    {finalOutputPath : Option PosixPath} {observedSize : Option Int} (h : s.Recounted)
    (hfresh : uid ∉ s.db.jobIds)
    (hcounted : s.aggregation = none ∨ s.db.recordsBackup backupPath = true) :
    (s.reconcileDiscoveredBackup uid now sourcePath backupPath finalOutputPath
      observedSize).Recounted := by
  unfold TelemetryState.reconcileDiscoveredBackup
  split
  · exact h
  · next hrecorded =>
    have hnone := hcounted.resolve_right hrecorded
    obtain ⟨new, hevolves, -⟩ := Database.reconcileDiscoveredBackup_evolves
      sourcePath backupPath finalOutputPath
    exact h.of_none hevolves.grows (fun _ _ heq => heq ▸ ⟨rfl, rfl⟩) hfresh hnone

/-- Files and plans are added. -/
theorem Recounted.extends {db' : Database} {observed : FileId → Option Int} (h : s.Recounted)
    (hfresh : uid ∉ s.db.jobIds) (hextends : s.db.Extends db') :
    ({ s with db := db', observedSize := observed } : TelemetryState).Recounted :=
  h.grows (hextends.grows .refl) hfresh rfl (fun _ _ => rfl) (by simp)

/-! ### Every operation -/

theorem none_of_isSome {α : Type} {o : Option α} (h : o.isSome = false) : o = none :=
  Option.isNone_iff_eq_none.mp (Option.isSome_eq_false_iff.mp h)

/-- A lookup of a job that fails a test, as a fact about its row. -/
theorem any_job_eq_false {jobId : JobId} {p : Job → Bool} (hj : s.db.job jobId = some job)
    (h : (s.db.job jobId).any p = false) : p job = false := by
  simpa [hj] using h

theorem Recounted.step {a : TelemetryAction} (h : s.Recounted) (hquiet : drifts s a = false)
    (hstep : (telemetrySystem c).step s a = some s') : s'.Recounted := by
  simp only [telemetrySystem] at hstep
  split at hstep
  · cases hstep
  · next hfresh =>
    have hnone : ∀ {b : Bool}, (s.aggregation.isSome && b) = false → s.aggregation = none ∨ b = false :=
      fun hb => (Bool.and_eq_false_iff.mp hb).imp_left none_of_isSome
    unfold drifts at hquiet
    cases hop : a.op with
    | scanFile path size =>
      rw [hop, apply] at hstep
      obtain rfl := Option.some.inj hstep
      exact h.extends hfresh (Database.upsertByPath_extends ..)
    | planFile path media size policy rename =>
      rw [hop, apply] at hstep
      simp only [bind, Option.bind_eq_some_iff, pure, Option.some.injEq] at hstep
      obtain ⟨planned, hplanned, rfl⟩ := hstep
      exact h.extends hfresh (Database.planFile_extends (toOption_eq_some.mp hplanned))
    | createJob fileId planId o payload =>
      rw [hop, apply] at hstep
      simp only [bind, Option.bind_eq_some_iff, pure, Option.some.injEq] at hstep
      obtain ⟨file, -, plan, hplan, created, hcreated, rfl⟩ := hstep
      exact h.create hcreated (Database.planSnapshot_id hplan ▸ Database.mem_planIds.mpr ⟨plan,
        (Database.planSnapshot_id hplan).symm ▸ hplan⟩) hfresh
    | claim jobId worker =>
      rw [hop, apply] at hstep
      simp only [bind, Option.bind_eq_some_iff, pure, Option.some.injEq] at hstep
      obtain ⟨claimed, hclaimed, rfl⟩ := hstep
      exact h.claim hfresh hclaimed
    | changeStatus jobId change =>
      rw [hop] at hquiet
      rw [hop, apply] at hstep
      simp only [bind, Option.bind_eq_some_iff] at hstep
      obtain ⟨job, hj, hchanged⟩ := hstep
      refine h.changeStatus (Table.mem_of_find hj) hfresh ((hnone hquiet).imp_right fun hany => ?_)
        hchanged
      exact none_of_isSome (any_job_eq_false hj hany)
    | changeRow jobId change =>
      rw [hop, apply] at hstep
      simp only [bind, Option.bind_eq_some_iff, pure, Option.some.injEq] at hstep
      obtain ⟨job, hj, rfl⟩ := hstep
      exact h.updateJob (Table.mem_of_find hj) hfresh (rowChange_countsAlike change job)
    | markResult jobId result =>
      rw [hop] at hquiet
      rw [hop, apply] at hstep
      simp only [bind, Option.bind_eq_some_iff, pure, Option.some.injEq] at hstep
      obtain ⟨job, hj, rfl⟩ := hstep
      refine h.markResult (Table.mem_of_find hj) hfresh ((hnone hquiet).imp_right fun hany => ?_)
      have hcounted := Bool.and_eq_false_iff.mp (any_job_eq_false hj hany)
      rw [Table.key_of_find hj]
      simpa using hcounted
    | applyAutomaticRetryPolicy jobId result =>
      rw [hop] at hquiet
      rw [hop, apply] at hstep
      simp only [bind, Option.bind_eq_some_iff] at hstep
      obtain ⟨job, hj, happlied⟩ := hstep
      refine h.applyAutomaticRetryPolicy (Table.mem_of_find hj) hfresh
        ((hnone hquiet).imp_right fun hany => ?_) happlied
      exact (Bool.and_eq_false_iff.mp (any_job_eq_false hj hany)).imp_left
        none_of_isSome
    | clearQueue =>
      rw [hop, apply] at hstep
      obtain rfl := Option.some.inj hstep
      exact h.grows (clearQueue_grows a.uid) hfresh rfl (fun _ _ => rfl) (by simp)
    | clearFailedHistory jobIds =>
      rw [hop, apply] at hstep
      obtain rfl := Option.some.inj hstep
      exact h.grows (clearFailedHistory_grows a.uid jobIds) hfresh rfl (fun _ _ => rfl) (by simp)
    | reconcileDiscoveredBackup sourcePath backupPath finalOutputPath observedSize =>
      rw [hop] at hquiet
      rw [hop, apply] at hstep
      obtain rfl := Option.some.inj hstep
      exact h.reconcileDiscoveredBackup hfresh ((hnone hquiet).imp_right (by simpa using ·))
    | getOrRebuildGlobal =>
      rw [hop, apply] at hstep
      obtain rfl := Option.some.inj hstep
      unfold getOrRebuildGlobal
      split
      · exact h
      · exact .rebuildGlobal h.rows
    | rebuildGlobal =>
      rw [hop, apply] at hstep
      obtain rfl := Option.some.inj hstep
      exact .rebuildGlobal h.rows

end TelemetryState

/-! ## Runs -/

/-- The recount is an invariant of the runs in which no operation drifts. -/
theorem recounted_inductive (c : Settings) :
    (telemetrySystem c).Inductive (fun s a => drifts s a = false) TelemetryState.Recounted where
  init s hs := by
    obtain rfl : s = {} := hs
    exact ⟨⟨List.nodup_nil, fun _ h => absurd h List.not_mem_nil⟩, fun _ h => nomatch h⟩
  step _ _ _ h hquiet hstep := h.step hquiet hstep

/-- In every run in which no operation drifts, the aggregation row is, once it exists, what
`rebuild_global` would make it. -/
theorem telemetry_recounted (c : Settings) {s : TelemetryState}
    (h : (telemetrySystem c).Reach (fun s a => drifts s a = false) s)
    (hrow : s.aggregation.isSome = true) : s.aggregation = s.rebuildGlobal.aggregation := by
  obtain ⟨aggregation, haggregation⟩ := Option.isSome_iff_exists.mp hrow
  have hrecounted := (recounted_inductive c).reach h
  rw [haggregation, hrecounted.row aggregation haggregation]
  rfl

/-- An operation at an hour. -/
def telemetryAct (hour : Int) (uid : String) (op : TelemetryOp) : TelemetryAction :=
  ⟨uid, seconds (hour * 3600), op⟩

/-- The state after a run of operations. -/
def telemetryAfter (actions : List TelemetryAction) : TelemetryState :=
  ((telemetrySystem home).run (fun _ _ => true) {} actions).getD {}

theorem backupParts_valid : ∀ s ∈ ["media", "film.encodr-backup.mkv"], ValidPart s := by decide

/-- A scan finds the backup of the film. -/
def reconcilesFilm : TelemetryOp :=
  .reconcileDiscoveredBackup film ⟨.slash, ["media", "film.encodr-backup.mkv"], backupParts_valid⟩ none
    (some 900)

/-- The film is remuxed, and the operator has opened the dashboard before. -/
def remuxesFilm : List TelemetryAction := [
  telemetryAct 0 "film" (.planFile film dualAudioFilm 900 englishPolicy { enabled := false }),
  telemetryAct 0 "job1" (.createJob "film" "film" {} none),
  telemetryAct 1 "open" .getOrRebuildGlobal,
  telemetryAct 1 "run" (.changeStatus "job1" (.markRunning "local")),
  telemetryAct 2 "finish" (.markResult "job1" {
    status := .completed
    startedAt := seconds 3600
    completedAt := seconds 7200
    outputSizeBytes := some 700 })]

theorem telemetry_recounted_film :
    (telemetryAfter remuxesFilm).aggregation.map (fun row =>
      (row.processedFileCount, row.savingsByAction "remux")) = some (1, some ⟨1, 200⟩) ∧
    (telemetryAfter remuxesFilm).aggregation =
      (telemetryAfter remuxesFilm).rebuildGlobal.aggregation :=
  ⟨by decide +kernel, telemetry_recounted home (.after drifts remuxesFilm rfl (by decide +kernel))
    (by decide +kernel)⟩

/-- A backup that is found after the dashboard was opened is missing from the row. -/
theorem discovered_backup_not_counted :
    (telemetrySystem home).Reachable
      (telemetryAfter [telemetryAct 0 "open" .getOrRebuildGlobal, telemetryAct 1 "backup" reconcilesFilm]) ∧
    (telemetryAfter [telemetryAct 0 "open" .getOrRebuildGlobal,
      telemetryAct 1 "backup" reconcilesFilm]).aggregation.map (·.processedFileCount) = some 0 ∧
    (telemetryAfter [telemetryAct 0 "open" .getOrRebuildGlobal,
      telemetryAct 1 "backup" reconcilesFilm]).rebuilt.processedFileCount = 1 := by
  refine ⟨?_, by decide +kernel, by decide +kernel⟩
  exact (Sys.Reach.after (fun _ _ => false) _ rfl (by decide +kernel)).mono fun _ _ _ => trivial

end Encodr
