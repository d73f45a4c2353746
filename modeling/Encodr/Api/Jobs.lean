import Encodr.Api.PathSafety
import Encodr.Db.Evolution
import Encodr.Planning.Planner

/-!
# The jobs service

The operations of `JobsService` on jobs: they create, retry, recover, cancel and clear them. Each
is one transaction: an operation that raises changes nothing.

A file that needs a review gets a job from these operations only through the review gate
(`validateReviewGate`). Whether a path exists is asked of the file system (`exists_`). The ids of
new rows are drawn by the caller.

* `validateReviewGate_ok`: when the gate is open.
* `createJob_ok`, `retryJob_ok`, `recoverWithStripOnly_ok`: the checks that a created job has
  passed, and the tables after it.
-/

namespace Encodr

open Python Lib

/-! ## The review gate -/

/-- The file is protected, or the plan asks for a review or marks the file protected. -/
def protectedOrPlannerReview (file : TrackedFile) (plan : PlanSnapshot) : Bool :=
  file.operatorProtected || file.isProtected || plan.action == .manualReview ||
    plan.shouldTreatAsProtected

namespace Database

variable (db : Database)

/-- The latest job of the file is in manual review. -/
def latestJobRequiresReview (fileId : FileId) : Bool :=
  (db.latestJob fileId).any (·.status == .manualReview)

/-- `issue_at`: since when the file needs a review. -/
def issueAt (file : TrackedFile) (plan : PlanSnapshot) : Time :=
  let candidates := file.operatorProtectedUpdatedAt.toList ++
    ((db.latestJob file.id).filter (·.status == .manualReview)).toList.map (·.updatedAt)
  candidates.foldl max plan.createdAt

/-- `decision_is_current`: the latest decision approves this plan, and is no older than the issue. -/
def decisionIsCurrent (file : TrackedFile) (plan : PlanSnapshot) : Bool :=
  (db.latestDecision file.id).any fun decision =>
    decision.decisionType == .approved && db.issueAt file plan ≤ decision.createdAt &&
      decision.planSnapshotId == some plan.id

/-- The latest job of the file is the job of an operational retry, and only it needs a review. -/
def operationalRetry (file : TrackedFile) (plan : PlanSnapshot) (jobId : Option JobId) : Bool :=
  jobId.isSome && (db.latestJob file.id).map (·.id) == jobId &&
    db.latestJobRequiresReview file.id && !protectedOrPlannerReview file plan

/-- `_validate_review_gate`. -/
def validateReviewGate (file : TrackedFile) (plan : PlanSnapshot) (allowReviewApproved : Bool)
    (operationalRetryJobId : Option JobId) : Except ApiError Unit :=
  require (db.operationalRetry file plan operationalRetryJobId = true ∨
      (protectedOrPlannerReview file plan || db.latestJobRequiresReview file.id) = false ∨
      (allowReviewApproved && db.decisionIsCurrent file plan) = true)
    (.conflict ("This file requires manual review or protected-file approval before a job can be " ++
      "created."))

end Database

/-- `_validate_processable_target`. -/
def validateProcessableTarget (file : TrackedFile) : Except ApiError Unit :=
  match encodrExclusionReason file.sourcePath with
  | some reason => .error (.conflict reason)
  | none => .ok ()

/-! ## Plans of new jobs -/

/-- `STRIP_ONLY_RECOVERY_REASON`. -/
def stripOnlyRecoveryReason : String :=
  "Video transcode skipped after failed size/quality guard; audio/subtitle cleanup only."

variable (exists_ : PosixPath → Bool)

/-- `_existing_backup_strategy_for_current_file`. -/
def existingBackupStrategyForCurrentFile (file : TrackedFile) : String :=
  match buildBackupPath file.sourcePath with
  | .ok backupPath => if exists_ backupPath then "keep_existing_backup" else "fail"
  | .error _ => "fail"

/-- `_existing_backup_strategy_for_safe_recovery`. -/
def existingBackupStrategyForSafeRecovery (job : Job) (file : TrackedFile) : String :=
  match job.originalBackupPath with
  | none => "fail"
  | some backupPath =>
    if buildBackupPath file.sourcePath = .ok backupPath ∧ exists_ backupPath then
      "keep_existing_backup"
    else "fail"

/-- The backup strategy that the create options ask for. -/
def effectiveBackupStrategy (file : TrackedFile) (existingBackupStrategy : String) :
    Except ApiError String :=
  if existingBackupStrategy = "fail" then .ok "fail"
  else if existingBackupStrategy = "keep_existing_backup_if_present" then
    .ok (existingBackupStrategyForCurrentFile exists_ file)
  else if existingBackupStrategy ∈ ["replace_backup", "keep_existing_backup"] then
    .ok existingBackupStrategy
  else .error (.validation "Unsupported backup handling option.")

/-- `_plan_snapshot_with_create_options`. -/
def Database.planSnapshotWithCreateOptions (db : Database) (planId : PlanId) (file : TrackedFile)
    (plan : PlanSnapshot) (existingBackupStrategy reprocessMode : String) (now : Time) :
    Except ApiError (Database × PlanSnapshot) := do
  require (reprocessMode ∈ ["normal", "strip_only"]) (.validation "Unsupported reprocess mode.")
  let strategy ← effectiveBackupStrategy exists_ file existingBackupStrategy
  if strategy = "fail" ∧ reprocessMode = "normal" then
    return (db, plan)
  let payload := if reprocessMode = "strip_only" then stripOnlyReprocessPlan plan.payload
    else plan.payload
  return db.addPlanSnapshot planId file.id plan.probeSnapshotId
    (payload.withBackupStrategy strategy) now

/-! ## Creating jobs -/

/-- The conflict of a second active job. -/
def activeJobConflict : ApiError :=
  .conflict "An active job already exists for this tracked file."

/-- The arguments of `create_job`. -/
structure CreateJobRequest where
  trackedFileId : Option FileId := none
  planSnapshotId : Option PlanId := none
  options : RequestedOptions := {}
  existingBackupStrategy : String := "fail"
  reprocessMode : String := "normal"

namespace Database

variable (db : Database) (calendar : Calendar)

/-- `_resolve_target`. -/
def resolveTarget (trackedFileId : Option FileId) (planSnapshotId : Option PlanId) :
    Except ApiError (TrackedFile × PlanSnapshot) :=
  match planSnapshotId with
  | some planId => do
    let plan ← found (.notFound "Plan snapshot could not be found.") (db.planSnapshot planId)
    let file ← found (.notFound "Tracked file for the plan snapshot could not be found.")
      (db.trackedFile plan.trackedFileId)
    return (file, plan)
  | none => do
    let file ← found (.notFound "Tracked file could not be found.")
      (db.trackedFile (trackedFileId.getD ""))
    let plan ← found (.conflict "No plan snapshot exists for the tracked file.")
      (db.latestPlanSnapshot file.id)
    return (file, plan)

/-- `create_job`; no caller sets `allow_review_approved`. -/
def createJob (jobId : JobId) (planId : PlanId) (r : CreateJobRequest) (now : Time) :
    Except ApiError (Database × Job) := do
  let (file, plan) ← db.resolveTarget r.trackedFileId r.planSnapshotId
  validateProcessableTarget file
  require (db.hasActiveJob file.id = false) activeJobConflict
  db.validateReviewGate file plan false none
  let (db, plan) ← db.planSnapshotWithCreateOptions exists_ planId file plan
    r.existingBackupStrategy r.reprocessMode now
  found activeJobConflict
    (db.createJobFromPlan calendar jobId file.id plan { toRequestedOptions := r.options } now)

/-- What a watched folder chooses for its jobs. -/
structure WatchedOptions where
  preferredWorkerId : Option WorkerId := none
  pinnedWorkerId : Option WorkerId := none
  scheduleWindows : List ScheduleWindow := []
  watchedJobId : String

/-- `create_watched_job_if_needed`; its `None` is an error here. -/
def createWatchedJobIfNeeded (jobId : JobId) (file : TrackedFile) (plan : PlanSnapshot)
    (o : WatchedOptions) (now : Time) : Except ApiError (Database × Job) := do
  validateProcessableTarget file
  require (db.hasActiveJob file.id = false) activeJobConflict
  db.validateReviewGate file plan false none
  let options : JobOptions := {
    preferredWorkerId := o.preferredWorkerId
    pinnedWorkerId := o.pinnedWorkerId
    scheduleWindows := o.scheduleWindows
    watchedJobId := some o.watchedJobId }
  found activeJobConflict (db.createJobFromPlan calendar jobId file.id plan options now)

end Database

/-! ## Retries and recoveries -/

/-- `_can_retry_operational_manual_review`. -/
def canRetryOperationalManualReview (job : Job) : Bool :=
  job.status == .manualReview && job.failureCategory == some "replacement_failed"

/-- The text of an entry in the details of the replacement. -/
def Job.replacementDetail (job : Job) (key : String) : Option String :=
  match (job.replacementPayload.bind fun r => Dict.get? r.details key) with
  | some (.str s) => if s = "" then none else some s
  | _ => none

/-- `_job_failed_because_backup_already_exists`. -/
def jobFailedBecauseBackupAlreadyExists (job : Job) : Bool :=
  job.replacementDetail "failure_code" == some "backup_already_exists" ||
    (job.failureCategory == some "replacement_failed" &&
      inText "backup file already exists" (lower (job.failureMessage.getD "")))

/-- `_validate_existing_backup_retry`. -/
def validateExistingBackupRetry (job : Job) (file : TrackedFile) (existingBackupStrategy : String) :
    Except ApiError Unit := do
  require (existingBackupStrategy ∈ ["replace_backup", "keep_existing_backup"])
    (.validation "Unsupported backup handling option for retry.")
  require (jobFailedBecauseBackupAlreadyExists job) (.conflict ("Backup handling options are only " ++
    "available for jobs that failed because a backup already exists."))
  let backupPath ← found (.conflict "The existing backup file is no longer recorded for this job.")
    job.originalBackupPath
  require (buildBackupPath file.sourcePath = .ok backupPath)
    (.conflict "The recorded backup path does not match the expected source backup.")
  require (exists_ backupPath) (.conflict "The existing backup file is no longer available.")

/-- `STRIP_ONLY_RECOVERY_FAILURE_CATEGORIES`. -/
def stripOnlyRecoveryFailureCategories : List String :=
  ["output_larger_than_input", "compression_safety_bitrate_floor", "compression_safety_exceeded",
    "compression_safety_unmeasurable"]

/-- The failure texts of a job, joined. -/
def Job.failureText (job : Job) : String :=
  lower (" ".intercalate ([job.failureMessage, job.replacementFailureMessage,
    job.interruptionReason].filterMap fun value => value.filter (· ≠ "")))

/-- `_job_can_recover_with_strip_only`. -/
def jobCanRecoverWithStripOnly (job : Job) : Bool :=
  let candidates := (job.failureCategory.toList ++
    ["failure_code", "failure_category", "reason", "guard"].filterMap job.replacementDetail).map
      fun value => lower (strip value)
  candidates.any (stripOnlyRecoveryFailureCategories.contains ·) ||
    ["larger than the source", "larger than source", "output is larger", "output grew", "too small",
      "bitrate is below", "bitrate below", "compression safety"].any
      fun phrase => inText phrase job.failureText

namespace Database

variable (db : Database) (calendar : Calendar)

/-- The job, its file and its plan. -/
def jobTarget (jobId : JobId) : Except ApiError (Job × TrackedFile × PlanSnapshot) := do
  let job ← found (.notFound "Job could not be found.") (db.job jobId)
  let file ← found (.notFound "Tracked file could not be found.") (db.trackedFile job.trackedFileId)
  let plan ← found (.notFound "Plan snapshot could not be found.")
    (db.planSnapshot job.planSnapshotId)
  return (job, file, plan)

/-- `retry_job`. -/
def retryJob (jobId newJobId : JobId) (planId : PlanId) (existingBackupStrategy : String)
    (now : Time) : Except ApiError (Database × Job) := do
  let (original, file, plan) ← db.jobTarget jobId
  require (original.status.isRetryable = true) (.conflict
    "Only failed, interrupted, cancelled, manual-review, or skipped jobs can be retried.")
  validateProcessableTarget file
  db.validateReviewGate file plan false
    (if canRetryOperationalManualReview original then some original.id else none)
  if existingBackupStrategy ≠ "fail" then
    validateExistingBackupRetry exists_ original file existingBackupStrategy
  require (db.hasActiveJob file.id = false) activeJobConflict
  let (db, plan) ← db.planSnapshotWithCreateOptions exists_ planId file plan existingBackupStrategy
    "normal" now
  let (db, retry) ← found activeJobConflict
    (db.createJobFromPlan calendar newJobId file.id plan original.retryOptions now)
  return (db.updateJob original.id (·.markCleared now "Retry job created by operator.") now, retry)

/-- `recover_with_strip_only`. -/
def recoverWithStripOnly (jobId newJobId : JobId) (planId : PlanId) (now : Time) :
    Except ApiError (Database × Job) := do
  let (original, file, plan) ← db.jobTarget jobId
  require (original.status ∈ [.failed, .cancelled, .manualReview]) (.conflict
    "Strip-only recovery is only available for failed, cancelled, or manual-review jobs.")
  require (jobCanRecoverWithStripOnly original) (.conflict ("Strip-only recovery is only available " ++
    "for output size or compression safety guard failures."))
  validateProcessableTarget file
  db.validateReviewGate file plan true none
  require (db.hasActiveJob file.id = false) activeJobConflict
  let recoveryPlan := (stripOnlyRecoveryPlan plan.payload).withBackupStrategy
    (existingBackupStrategyForSafeRecovery exists_ original file)
  let (db, plan) := db.addPlanSnapshot planId file.id plan.probeSnapshotId recoveryPlan now
  let (db, recovery) ← found activeJobConflict (db.createJobFromPlan calendar newJobId file.id plan
    { original.retryOptions with backupPolicy := "keep" } now)
  return (db.updateJob original.id (·.markCleared now stripOnlyRecoveryReason) now, recovery)

/-! ## Cancelling, skipping and clearing -/

/-- The worker that the job is assigned to is not the local one. -/
def assignedToRemote (job : Job) : Bool :=
  (job.assignedWorkerId.bind db.worker).any (·.workerType ≠ .local)

/-- `cancel_job`; `localCancel` is the answer of the local worker to `request_cancel`. -/
def cancelJob (jobId : JobId) (localCancel : Bool) (now : Time) : Except ApiError Database := do
  let (job, _, plan) ← db.jobTarget jobId
  require (job.status ∉ [.completed, .failed, .cancelled, .skipped, .manualReview])
    (.conflict "This job can no longer be cancelled.")
  if job.status ∈ [.pending, .scheduled] then
    return (db.updateJob jobId (·.markCancelled now "Cancelled by operator.") now).updateFile
      job.trackedFileId (·.afterPlan plan.payload) now
  if db.assignedToRemote job then
    -- a second request changes nothing
    if job.cancellationRequestedAt.isSome then
      return db
    return db.updateJob jobId (·.markCancellationRequested now
      "Cancellation requested for the remote worker.") now
  require (job.jobKind ≠ .dryRun)
    (.conflict "Running dry run analysis cannot yet be cancelled safely.")
  require (localCancel = true)
    (.conflict "The local worker is not actively processing this job.")
  return db.updateJob jobId (·.markCancelling now) now

/-- `cancel_job` asks the local worker: the job runs there, or ran there when it was interrupted. -/
def asksLocalWorker (jobId : JobId) : Bool :=
  match db.jobTarget jobId with
  | .ok (job, _, _) => job.status ∈ [.running, .interrupted] && job.jobKind ≠ .dryRun &&
      !db.assignedToRemote job
  | .error _ => false

/-- The result of `_mark_problem_jobs_skipped`. -/
def skippedResult (job : Job) (now : Time) : ExecutionResult where
  status := .skipped
  originalBackupPath := job.originalBackupPath
  failureMessage := some "Skipped by operator."
  failureCategory := some "operator_skipped"
  startedAt := now
  completedAt := now

/-- The problem jobs of an operator are retryable. -/
def problemJobConflict : ApiError := .conflict
  "Only failed, interrupted, cancelled, manual-review, or skipped jobs can be resolved."

/-- `_mark_problem_jobs_skipped`, for one job. -/
def markProblemJobSkipped (jobId : JobId) (now : Time) : Except ApiError Database := do
  let (job, _, plan) ← db.jobTarget jobId
  require (job.status.isRetryable = true) problemJobConflict
  let result := skippedResult job now
  return (db.updateJob jobId (·.markResult result) now).updateFile job.trackedFileId
    (·.afterExecution plan.payload result exists_) now

/-- The end of `_retry_problem_jobs`, for one job: it is cleared. -/
def clearProblemJob (jobId : JobId) (now : Time) : Except ApiError Database := do
  let (job, _, _) ← db.jobTarget jobId
  require (job.status.isRetryable = true) problemJobConflict
  return db.updateJob jobId (·.markCleared now "Requeued by operator.") now

/-- The jobs of the query in `clear_queue`. -/
def inClearedQueue (job : Job) : Bool :=
  job.clearedAt.isNone && (job.status ∈ [.pending, .scheduled] ||
    (job.status == .interrupted && job.interruptionRetryable && job.assignedWorkerId.isNone))

/-- The state of the file of a job that was taken out of the queue. -/
def refreshFile (job : Job) (now : Time) : Database :=
  match db.planSnapshot job.planSnapshotId with
  | some plan => db.updateFile job.trackedFileId (·.afterPlan plan.payload) now
  | none => db

/-- `clear_queue`. -/
def clearQueue (now : Time) : Database :=
  let cancelled := (db.jobs.filter inClearedQueue).insertionSort fun a b => jobOrder a b
  let jobs := db.jobs.map fun job => if inClearedQueue job then
    { job.markCancelled now "Cleared from queue by operator." with updatedAt := now } else job
  cancelled.foldl (fun db job => db.refreshFile job now) { db with jobs := jobs }

/-- `clear_failed_history`. -/
def clearFailedHistory (jobIds : Option (List JobId)) (now : Time) : Database :=
  { db with jobs := db.jobs.map fun job =>
      if job.clearedAt.isNone && job.status ∈ [.failed, .interrupted, .cancelled, .skipped] &&
          jobIds.all (·.contains job.id) then
        { job.markCleared now "Cleared historical problem jobs by operator." with updatedAt := now }
      else job }

end Database

/-! ## What the operations do -/

namespace Database

/-- The file, its plan or its latest job needs a review. -/
def needsReview (db : Database) (file : TrackedFile) (plan : PlanSnapshot) : Bool :=
  protectedOrPlannerReview file plan || db.latestJobRequiresReview file.id

section Specs

variable {exists_ : PosixPath → Bool} {calendar : Calendar} {db db' : Database} {file : TrackedFile}
  {plan : PlanSnapshot} {job : Job} {now : Time} {issued : List String} {uid : String}
  {workers : List WorkerId} {r : Rights}

/-- Without an approval and without a job to retry, the gate is open where nothing needs a review. -/
theorem validateReviewGate_ok {u : Unit} :
    db.validateReviewGate file plan false none = .ok u ↔ db.needsReview file plan = false := by
  simp [validateReviewGate, operationalRetry, needsReview]

theorem resolveTarget_ok {fileId : Option FileId} {planId : Option PlanId}
    (h : db.resolveTarget fileId planId = .ok (file, plan)) :
    file.id ∈ db.fileIds ∧ plan.id ∈ db.planIds ∧ db.trackedFile file.id = some file := by
  unfold resolveTarget at h
  split at h
  · simp only [found_bind_ok, return_ok, Prod.mk.injEq] at h
    obtain ⟨_, hp, _, hf, rfl, rfl⟩ := h
    have ht := Target.of_find hf hp
    exact ⟨ht.fileIds, ht.planIds, ht.file⟩
  · simp only [found_bind_ok, return_ok, Prod.mk.injEq] at h
    obtain ⟨_, hf, plan, hp, rfl, rfl⟩ := h
    rw [← trackedFile_id hf] at hf
    refine ⟨mem_fileIds.mpr ⟨_, hf⟩, ?_, hf⟩
    exact List.mem_map_of_mem (List.mem_of_mem_filter (Table.latestBy_mem hp))

theorem planSnapshotWithCreateOptions_ok {planId : PlanId} {strategy mode : String}
    {db₁ : Database} {plan₁ : PlanSnapshot} (hplan : plan.id ∈ db.planIds)
    (h : db.planSnapshotWithCreateOptions exists_ planId file plan strategy mode now =
      .ok (db₁, plan₁)) : db.Extends db₁ ∧ plan₁.id ∈ db₁.planIds := by
  simp only [planSnapshotWithCreateOptions, bind_ok, require_ok, exists_const] at h
  obtain ⟨-, effective, -, h⟩ := h
  split at h
  · simp only [return_ok, Prod.mk.injEq] at h
    obtain ⟨rfl, rfl⟩ := h
    exact ⟨.refl db, hplan⟩
  · simp only [return_ok] at h
    have h₁ := congrArg Prod.fst h
    have h₂ := congrArg Prod.snd h
    dsimp only at h₁ h₂
    subst h₁ h₂
    exact ⟨addPlanSnapshot_extends .., addPlanSnapshot_mem ..⟩

/-- A created job: its file and plan needed no review. -/
theorem createJob_ok {planId : PlanId} {r : CreateJobRequest}
    (h : db.createJob exists_ calendar uid planId r now = .ok (db', job)) :
    ∃ file plan, db.resolveTarget r.trackedFileId r.planSnapshotId = .ok (file, plan) ∧
      db.trackedFile job.trackedFileId = some file ∧ db.needsReview file plan = false ∧
      db.Evolves Eq uid (some job) db' := by
  simp only [createJob, bind_ok, require_ok, found_ok, exists_const] at h
  obtain ⟨⟨file, plan⟩, htarget, _, -, -, _, hgate, ⟨db₁, plan₁⟩, hplan, hjob⟩ := h
  obtain ⟨hf, hp, hfile⟩ := resolveTarget_ok htarget
  obtain ⟨hext, hmem⟩ := planSnapshotWithCreateOptions_ok hp hplan
  obtain ⟨hid, hevolves⟩ := createJobFromPlan_evolves hjob hmem (hext.files hf) le_rfl
  exact ⟨file, plan, htarget, hid ▸ hfile, validateReviewGate_ok.mp hgate, hevolves.after hext⟩

theorem createWatchedJobIfNeeded_ok {o : WatchedOptions} (ht : db.Target file plan)
    (h : db.createWatchedJobIfNeeded calendar uid file plan o now = .ok (db', job)) :
    db.trackedFile job.trackedFileId = some file ∧ db.needsReview file plan = false ∧
      db.Evolves Eq uid (some job) db' := by
  simp only [createWatchedJobIfNeeded, bind_ok, require_ok, found_ok, exists_const] at h
  obtain ⟨_, -, -, _, hgate, hjob⟩ := h
  obtain ⟨hid, hevolves⟩ := createJobFromPlan_evolves hjob ht.planIds ht.fileIds le_rfl
  exact ⟨hid ▸ ht.file, validateReviewGate_ok.mp hgate, hevolves⟩

theorem jobTarget_ok {jobId : JobId} (h : db.jobTarget jobId = .ok (job, file, plan)) :
    db.job jobId = some job ∧ db.trackedFile job.trackedFileId = some file ∧
      db.planSnapshot job.planSnapshotId = some plan ∧ db.Target file plan := by
  simp only [jobTarget, found_bind_ok, return_ok, Prod.mk.injEq] at h
  obtain ⟨_, hj, _, hf, _, hp, rfl, rfl, rfl⟩ := h
  exact ⟨hj, hf, hp, .of_find hf hp⟩

/-- A retryable job that is cleared. -/
theorem markCleared_managed {reason : String} (hst : job.status.isRetryable = true) :
    job.Managed r workers { job.markCleared now reason with updatedAt := now } := by
  refine Job.markCleared_managed ?_ ?_
  · intro h
    simp [h, JobStatus.isRetryable] at hst
  · intro h
    simp [h, JobStatus.isRetryable] at hst

/-- A new job of a plan, after which the job it stands for is cleared. -/
theorem replacesJob_evolves {db₁ db₂ : Database} {original : Job} {plan₁ : PlanSnapshot}
    {fileId : FileId} {o : JobOptions} {reason : String} (hs : db.Sound issued)
    (hfresh : uid ∉ issued) (horiginal : original ∈ db.jobs)
    (hst : original.status.isRetryable = true) (hext : db.Extends db₁) (hplan : plan₁.id ∈ db₁.planIds)
    (hfile : fileId ∈ db.fileIds)
    (hattempts : 1 ≤ o.attemptCount)
    (hjob : db₁.createJobFromPlan calendar uid fileId plan₁ o now = some (db₂, job)) :
    job.trackedFileId = fileId ∧ db.Evolves (Job.Managed r workers) uid (some job)
      (db₂.updateJob original.id (·.markCleared now reason) now) := by
  obtain ⟨hid, hevolves⟩ := createJobFromPlan_evolves hjob hplan (hext.files hfile) hattempts
  refine ⟨hid, (hevolves.after hext).updateJob ?_ .refl (fun _ _ h => h.kept) ?_⟩
  · rintro rfl
    exact hfresh (hs.jobIds _ horiginal)
  · intro row hrow heq
    rw [hs.eq_of_id hrow horiginal heq]
    exact markCleared_managed hst

/-- A retried job: nothing needed a review, or the gate was open for this job only. -/
theorem retryJob_ok {jobId : JobId} {planId : PlanId} {strategy : String} (hs : db.Sound issued)
    (hfresh : uid ∉ issued)
    (h : db.retryJob exists_ calendar jobId uid planId strategy now = .ok (db', job)) :
    ∃ original file plan, db.jobTarget jobId = .ok (original, file, plan) ∧
      job.trackedFileId = file.id ∧
      db.validateReviewGate file plan false
        (if canRetryOperationalManualReview original then some original.id else none) = .ok () ∧
      db.Evolves (Job.Managed r workers) uid (some job) db' := by
  simp only [retryJob, bind_ok, require_ok, exists_const] at h
  obtain ⟨⟨original, file, plan⟩, htarget, hst, _, -, _, hgate, h⟩ := h
  have h := optional_bind_ok h
  simp only [bind_ok, require_ok, found_ok, return_ok, exists_const] at h
  obtain ⟨-, ⟨db₁, plan₁⟩, hplan, ⟨db₂, new⟩, hjob, h⟩ := h
  obtain ⟨rfl, rfl⟩ := Prod.mk.inj h
  obtain ⟨hj, -, -, ht⟩ := jobTarget_ok htarget
  obtain ⟨hext, hmem⟩ := planSnapshotWithCreateOptions_ok ht.planIds hplan
  obtain ⟨hid, hevolves⟩ := replacesJob_evolves hs hfresh (Table.mem_of_find hj) hst hext hmem
    ht.fileIds (Nat.le_add_left ..) hjob
  exact ⟨original, file, plan, htarget, hid, hgate, hevolves⟩

/-- A strip-only recovery: nothing needed a review, or the plan is approved. -/
theorem recoverWithStripOnly_ok {jobId : JobId} {planId : PlanId} (hs : db.Sound issued)
    (hfresh : uid ∉ issued)
    (h : db.recoverWithStripOnly exists_ calendar jobId uid planId now = .ok (db', job)) :
    ∃ original file plan, db.jobTarget jobId = .ok (original, file, plan) ∧
      job.trackedFileId = file.id ∧ db.validateReviewGate file plan true none = .ok () ∧
      db.Evolves (Job.Managed r workers) uid (some job) db' := by
  simp only [recoverWithStripOnly, bind_ok, require_ok, found_ok, return_ok, exists_const] at h
  obtain ⟨⟨original, file, plan⟩, htarget, hst, -, _, -, _, hgate, -, ⟨db₂, new⟩, hjob, h⟩ := h
  obtain ⟨rfl, rfl⟩ := Prod.mk.inj h
  obtain ⟨hj, -, -, ht⟩ := jobTarget_ok htarget
  have hst : original.status.isRetryable = true := by
    dsimp only at hst
    simp only [List.mem_cons, List.not_mem_nil, or_false] at hst
    rcases hst with hst | hst | hst <;> rw [hst] <;> rfl
  obtain ⟨hid, hevolves⟩ := replacesJob_evolves hs hfresh (Table.mem_of_find hj) hst
    (addPlanSnapshot_extends ..) (addPlanSnapshot_mem ..) ht.fileIds (Nat.le_add_left ..) hjob
  exact ⟨original, file, plan, htarget, hid, hgate, hevolves⟩

theorem cancelJob_evolves {jobId : JobId} {localCancel : Bool} (hs : db.Sound issued)
    (hfresh : uid ∉ issued) (h : db.cancelJob jobId localCancel now = .ok db') :
    db.Evolves (Job.Managed r workers) uid none db' := by
  simp only [cancelJob, bind_ok, require_ok, exists_const] at h
  obtain ⟨⟨job, file, plan⟩, htarget, hst, h⟩ := h
  obtain ⟨hj, -⟩ := jobTarget_ok htarget
  have hidle : job.status ∈ [JobStatus.pending, .scheduled] →
      job.Managed r workers { job.markCancelled now "Cancelled by operator." with updatedAt := now } := by
    intro hst
    simp only [List.mem_cons, List.not_mem_nil, or_false] at hst
    refine .of_idle ?_ ?_ rfl ?_ (fun h => h) (fun _ => rfl) (fun h => h) ?_ (fun _ h => by cases h)
      (fun h => h) (fun h => by cases h) <;>
      rcases hst with hst | hst <;> rw [hst] <;> first | rfl | simp [JobStatus.isActive]
  split at h
  · next hst =>
    obtain rfl := return_ok.mp h
    exact (updateJob_evolves hs hfresh hj (hidle hst)).updateFile fun file => file.afterPlan_id _
  · split at h
    · split at h
      · obtain rfl := return_ok.mp h
        exact (Evolves.refl db).of_eq .refl
      · obtain rfl := return_ok.mp h
        have hrefl : job.Managed r workers job := .refl job
        exact updateJob_evolves hs hfresh hj { hrefl with cancellation := fun _ => rfl }
    · simp only [bind_ok, require_ok, return_ok, exists_const] at h
      obtain ⟨-, -, rfl⟩ := h
      exact updateJob_evolves hs hfresh hj (.of_core rfl)

/-- A job that the local worker is asked about was taken, and runs no analysis. -/
theorem asksLocalWorker_job {jobId : JobId} (h : db.asksLocalWorker jobId = true) :
    ∃ job ∈ db.jobs, job.id = jobId ∧ job.status ∈ [.running, .interrupted] ∧ job.jobKind ≠ .dryRun := by
  unfold asksLocalWorker at h
  split at h
  · next job file plan htarget =>
    simp only [Bool.and_eq_true, decide_eq_true_eq] at h
    obtain ⟨hj, -⟩ := jobTarget_ok htarget
    exact ⟨job, Table.mem_of_find hj, Table.key_of_find hj, h.1.1, by simpa using h.1.2⟩
  · cases h

/-- A request that the local worker is asked about is refused only where the worker declines. -/
theorem cancelJob_accepted {jobId : JobId} (hasks : db.asksLocalWorker jobId = true) (now : Time) :
    ∃ db', db.cancelJob jobId true now = .ok db' := by
  unfold asksLocalWorker at hasks
  split at hasks
  · next job file plan htarget =>
    simp only [Bool.and_eq_true, decide_eq_true_eq, Bool.not_eq_true'] at hasks
    obtain ⟨⟨hst, hkind⟩, hremote⟩ := hasks
    have hopen : job.status ∉ [.completed, .failed, .cancelled, .skipped, .manualReview] ∧
        job.status ∉ [JobStatus.pending, .scheduled] := by
      simp only [List.mem_cons, List.not_mem_nil, or_false] at hst
      rcases hst with hst | hst <;> rw [hst] <;> decide
    refine ⟨db.updateJob jobId (·.markCancelling now) now, ?_⟩
    simp only [cancelJob, bind_ok, require_ok]
    refine ⟨_, htarget, (), hopen.1, ?_⟩
    simp only [hopen.2, hremote, Bool.false_eq_true, if_false, bind_ok, require_ok, return_ok]
    exact ⟨(), by simpa using hkind, (), trivial, trivial⟩
  · cases hasks

theorem assignedToRemote_iff : db.assignedToRemote job = true ↔
    ∃ worker, job.assignedWorkerId.bind db.worker = some worker ∧ worker.workerType = .remote := by
  unfold assignedToRemote
  cases job.assignedWorkerId.bind db.worker with
  | none => simp
  | some worker => cases hw : worker.workerType <;> simp [hw]

/-- An accepted cancellation of a running job: its row notes it for a remote worker, or the local
worker has accepted it. -/
theorem cancelJob_running {jobId : JobId} {localCancel : Bool} (hs : db.Sound issued)
    (hj : db.job jobId = some job) (hst : job.status = .running)
    (h : db.cancelJob jobId localCancel now = .ok db') :
    (db.asksLocalWorker jobId = false ∧
      (∃ worker, job.assignedWorkerId.bind db.worker = some worker ∧ worker.workerType = .remote) ∧
      ∀ row ∈ db'.jobs, row.id = jobId → row.cancellationRequestedAt.isSome = true) ∨
    (db.asksLocalWorker jobId = true ∧ localCancel = true) := by
  simp only [cancelJob, bind_ok, require_ok, exists_const] at h
  obtain ⟨⟨job₁, file, plan⟩, htarget, -, h⟩ := h
  obtain rfl := Option.some.inj ((jobTarget_ok htarget).1.symm.trans hj)
  have hasks : db.asksLocalWorker jobId =
      (decide (job₁.jobKind ≠ .dryRun) && !db.assignedToRemote job₁) := by
    simp [asksLocalWorker, htarget, hst]
  dsimp only at h
  rw [if_neg (by rw [hst]; decide)] at h
  split at h
  · next hremote =>
    refine .inl ⟨by simp [hasks, hremote], assignedToRemote_iff.mp hremote, ?_⟩
    split at h
    · next hrequested =>
      obtain rfl := return_ok.mp h
      intro row hrow hid
      rw [hs.of_job hj row hrow hid]
      exact hrequested
    · obtain rfl := return_ok.mp h
      intro row hrow hid
      rw [updateJob_jobs, List.mem_map] at hrow
      obtain ⟨row, -, rfl⟩ := hrow
      by_cases hid' : row.id = jobId
      · rw [if_pos hid']
        rfl
      · rw [if_neg hid'] at hid
        exact absurd hid hid'
  · next hlocal =>
    simp only [bind_ok, require_ok, return_ok, exists_const] at h
    exact .inr ⟨by simp [hasks, hlocal, h.1], h.2.1⟩

/-- A retryable job that an operator skips. -/
theorem skipped_managed (hst : job.status.isRetryable = true) (hr : r.resolves job) :
    job.Managed r workers { job.markResult (skippedResult job now) with updatedAt := now } := by
  refine .of_idle ?_ ?_ (job.markResult_terms _) ?_ ?_ ?_ ?_ (fun _ => .inr hr) ?_ ?_
    (by simp [skippedResult, ExecutionStatus.jobStatus])
  · intro h
    simp [h, JobStatus.isRetryable] at hst
  · intro h
    simp [h, JobStatus.isRetryable] at hst
  · have hskips : ∀ s : JobStatus, s.isRetryable = true → s.mayBecome .skipped = true := by
      intro s
      cases s <;> decide
    exact (job.markResult_status _).symm ▸ hskips _ hst
  · intro hc
    dsimp only
    rwa [Job.markResult_clearedAt]
  · intro hc
    dsimp only
    rwa [Job.markResult_cancellationRequestedAt]
  · intro ho
    dsimp only at ho
    rw [Job.markResult_outputPath] at ho
    cases ho
  · intro _ hp
    dsimp only at hp
    rw [Job.markResult_status] at hp
    cases hp
  · intro hp
    dsimp only at hp
    rw [Job.markResult_verificationStatus] at hp
    cases hp

theorem markProblemJobSkipped_evolves {jobId : JobId} (hs : db.Sound issued) (hfresh : uid ∉ issued)
    (hr : ∀ job, db.job jobId = some job → r.resolves job)
    (h : db.markProblemJobSkipped exists_ jobId now = .ok db') :
    db.Evolves (Job.Managed r workers) uid none db' := by
  simp only [markProblemJobSkipped, bind_ok, require_ok, return_ok, exists_const] at h
  obtain ⟨⟨job, file, plan⟩, htarget, hst, rfl⟩ := h
  obtain ⟨hj, -⟩ := jobTarget_ok htarget
  exact (updateJob_evolves hs hfresh hj (skipped_managed hst (hr job hj))).updateFile
    fun file => file.afterExecution_id _ _ _

theorem clearProblemJob_evolves {jobId : JobId} (hs : db.Sound issued) (hfresh : uid ∉ issued)
    (h : db.clearProblemJob jobId now = .ok db') :
    db.Evolves (Job.Managed r workers) uid none db' := by
  simp only [clearProblemJob, bind_ok, require_ok, return_ok, exists_const] at h
  obtain ⟨⟨job, file, plan⟩, htarget, hst, rfl⟩ := h
  obtain ⟨hj, -⟩ := jobTarget_ok htarget
  exact updateJob_evolves hs hfresh hj (markCleared_managed hst)

theorem refreshFile_frame (db : Database) (row : Job) (now : Time) :
    (db.refreshFile row now).jobs = db.jobs ∧ (db.refreshFile row now).planSnapshots = db.planSnapshots ∧
      (db.refreshFile row now).fileIds = db.fileIds ∧
      (db.refreshFile row now).workerKinds = db.workerKinds := by
  unfold refreshFile
  split
  · exact ⟨rfl, rfl, updateFile_fileIds db fun file => file.afterPlan_id _, rfl⟩
  · exact ⟨rfl, rfl, rfl, rfl⟩

/-- The files of the cancelled jobs are refreshed after the jobs. -/
theorem refreshFiles_evolves {change : Job → Job → Prop} {new : Option Job} (rows : List Job)
    {db₁ : Database} (h : db.Evolves change uid new db₁) :
    db.Evolves change uid new (rows.foldl (fun db row => db.refreshFile row now) db₁) := by
  induction rows generalizing db₁ with
  | nil => exact h
  | cons row rows ih =>
    obtain ⟨hjobs, hplans, hfiles, hworkers⟩ := db₁.refreshFile_frame row now
    exact ih (h.frame hjobs hplans hfiles hworkers)

theorem clearQueue_evolves (hr : ∀ job, inClearedQueue job = true → r.resolves job) :
    db.Evolves (Job.Managed r workers) uid none (db.clearQueue now) := by
  refine refreshFiles_evolves _ (.of_map fun job _ => ?_)
  split
  · next hqueue =>
    have hright := hr job hqueue
    simp only [inClearedQueue, List.mem_cons, List.not_mem_nil, or_false, Bool.and_eq_true,
      Bool.or_eq_true, decide_eq_true_eq, beq_iff_eq] at hqueue
    have hst : job.status = .pending ∨ job.status = .scheduled ∨ job.status = .interrupted := by
      rcases hqueue.2 with (h | h) | h
      · exact .inl h
      · exact .inr (.inl h)
      · exact .inr (.inr h.1.1)
    refine .of_idle ?_ ?_ rfl ?_ (fun h => h) (fun _ => rfl) (fun h => h) (fun _ => .inr hright) nofun
      (fun h => h) nofun <;>
      rcases hst with hst | hst | hst <;> rw [hst] <;> first | rfl | exact nofun
  · exact .refl job

theorem clearFailedHistory_evolves {jobIds : Option (List JobId)} :
    db.Evolves (Job.Managed r workers) uid none (db.clearFailedHistory jobIds now) := by
  refine .of_map fun job _ => ?_
  split
  · next hcleared =>
    simp only [Bool.and_eq_true, List.mem_cons, List.not_mem_nil, or_false, decide_eq_true_eq] at hcleared
    refine Job.markCleared_managed ?_ ?_ <;>
      rcases hcleared.1.2 with hst | hst | hst | hst <;> rw [hst] <;> exact nofun
  · exact .refl job

end Specs

end Database

end Encodr
