import Encodr.Db.Database
import Encodr.Db.Scheduling

/-!
# The job repository

The operations of `JobRepository` on the tables: a job is created from a plan, claimed, retried
automatically, or routed to manual review.

A job takes the one active place of its file (the partial unique index of the table): a job is
created only where the file has no active job.

* `Database.createJobFromPlan`, `createJobFromPlan_eq_some`: a new job.
* `Database.claimPendingForWorker`, `claimPendingForWorker_eq_some`: a worker takes a pending job.
* `Database.applyAutomaticRetryPolicy`, `applyAutomaticRetryPolicy_cases`: what follows a failed
  execution.
-/

namespace Encodr

open Python Lib

/-! ## New jobs -/

/-- What a request chooses for a new job, with the defaults of `create_job_from_plan`. -/
structure RequestedOptions where
  preferredWorkerId : Option WorkerId := none
  pinnedWorkerId : Option WorkerId := none
  scheduleWindows : List ScheduleWindow := []
  watchedJobId : Option String := none
  jobKind : JobKind := .execution
  ignoreWorkerSchedule : Bool := false
  backupPolicy : String := "keep"

/-- The arguments of `create_job_from_plan` with their defaults. -/
structure JobOptions extends RequestedOptions where
  attemptCount : Nat := 1
  scheduledForAt : Option Time := none

/-- The options of a job that repeats `job`. -/
def Job.retryOptions (job : Job) : JobOptions where
  attemptCount := job.attemptCount + 1
  preferredWorkerId := job.preferredWorkerId
  pinnedWorkerId := job.pinnedWorkerId
  scheduleWindows := job.scheduleWindows
  watchedJobId := job.watchedJobId
  jobKind := job.jobKind
  ignoreWorkerSchedule := job.ignoreWorkerSchedule
  backupPolicy := job.backupPolicy

/-- The options of the automatic retry of `job`. -/
def Job.automaticRetryOptions (job : Job) (result : ExecutionResult) : JobOptions :=
  { job.retryOptions with
    scheduledForAt := some (result.completedAt + automaticRetryDelay (job.attemptCount + 1)) }

/-- The row that `create_job_from_plan` adds. -/
def Job.createFromPlan (calendar : Calendar) (id : JobId) (fileId : FileId) (plan : PlanSnapshot)
    (o : JobOptions) (now : Time) : Job :=
  let replace := plan.payload.replace
  let effectiveBackupPolicy := normaliseBackupPolicy o.backupPolicy
  let startsScheduled := o.scheduledForAt.isSome ||
    (!o.scheduleWindows.isEmpty && !calendar.allowNow o.scheduleWindows now)
  { id := id
    trackedFileId := fileId
    planSnapshotId := plan.id
    preferredWorkerId := o.preferredWorkerId
    pinnedWorkerId := o.pinnedWorkerId
    watchedJobId := o.watchedJobId
    jobKind := o.jobKind
    scheduleWindows := o.scheduleWindows
    ignoreWorkerSchedule := o.ignoreWorkerSchedule
    status := if startsScheduled then .scheduled else .pending
    attemptCount := o.attemptCount
    scheduledForAt := if startsScheduled then
      o.scheduledForAt <|> calendar.nextOpening o.scheduleWindows now else none
    replaceInPlace := replace.inPlace
    requireVerification := replace.requireVerification
    keepOriginalUntilVerified := replace.keepOriginalUntilVerified
    deleteReplacedSource := deleteReplacedSourceForBackupPolicy effectiveBackupPolicy
      replace.deleteReplacedSource
    backupPolicy := effectiveBackupPolicy
    createdAt := now
    updatedAt := now }

/-- The job waits for a worker. -/
def Job.isQueued (job : Job) : Bool :=
  (job.status == .pending || job.status == .scheduled) && job.clearedAt.isNone

theorem Job.isActive_of_isQueued {job : Job} (h : job.isQueued = true) : job.isActive = true := by
  simp only [Job.isQueued, Bool.and_eq_true, Bool.or_eq_true, beq_iff_eq] at h
  rcases h with ⟨h | h, hc⟩ <;> simp [Job.isActive, JobStatus.isActive, h, hc]

/-- A new job waits for a worker. -/
theorem Job.createFromPlan_isQueued (calendar : Calendar) (id : JobId) (fileId : FileId)
    (plan : PlanSnapshot) (o : JobOptions) (now : Time) :
    (Job.createFromPlan calendar id fileId plan o now).isQueued = true := by
  simp only [Job.isQueued, Job.createFromPlan]
  split_ifs <;> rfl

namespace Database

variable (db : Database) (calendar : Calendar)

/-- `create_job_from_plan`; `none` is the `IntegrityError` of a second active job. -/
def createJobFromPlan (id : JobId) (fileId : FileId) (plan : PlanSnapshot) (o : JobOptions)
    (now : Time) : Option (Database × Job) := do
  guard (db.hasActiveJob fileId = false)
  let job := Job.createFromPlan calendar id fileId plan o now
  let db := { db with jobs := db.jobs ++ [job] }
  return (db.updateFile fileId ({ · with lifecycleState := .queued }) now, job)

/-! ## Claims -/

/-- `claim_pending_for_worker`. -/
def claimPendingForWorker (jobId : JobId) (worker : Worker) (now : Time) :
    Option (Database × Job) := do
  guard (db.countActiveAssignments worker.id < max 1 worker.maxConcurrentJobs)
  let job ← db.job jobId
  guard (job.status = .pending ∧ job.clearedAt = none ∧
    (job.assignedWorkerId = none ∨ job.assignedWorkerId = some worker.id))
  let db := db.updateJob jobId (·.claimedBy worker now) now
  return (db.updateFile job.trackedFileId ({ · with lifecycleState := .processing }) now, job)

/-! ## After a failed execution -/

/-- `job_requires_manual_review`. -/
def jobRequiresManualReview (file : TrackedFile) (plan : PlanSnapshot) : Bool :=
  file.operatorProtected || file.isProtected || plan.action == .manualReview ||
    plan.shouldTreatAsProtected

/-- `route_to_manual_review`. -/
def routeToManualReview (job : Job) (reviewedAt : Time) (reason category : String) (now : Time) :
    Database :=
  (db.updateJob job.id (·.routeToManualReview reviewedAt reason category) now).updateFile
    job.trackedFileId ({ · with lifecycleState := .manualReview, complianceState := .manualReview })
    now

/-- `apply_automatic_retry_policy`; `id` is the id of a retry. -/
def applyAutomaticRetryPolicy (job : Job) (file : TrackedFile) (plan : PlanSnapshot)
    (result : ExecutionResult) (id : JobId) (now : Time) : Database :=
  if result.status ≠ .failed ∨ job.jobKind ≠ .execution then db
  else if jobRequiresManualReview file plan then
    db.routeToManualReview job result.completedAt
      (textOr result.failureMessage
        "The failed job matches a manual-review rule and will not be retried automatically.")
      (textOr result.failureCategory "manual_review_required") now
  else if job.attemptCount ≤ maxAutomatedRetries then
    -- an active job of the file stands for the retry
    ((db.createJobFromPlan calendar id job.trackedFileId plan (job.automaticRetryOptions result)
      now).map Prod.fst).getD db
  else
    db.routeToManualReview job result.completedAt
      (textOr result.failureMessage "The job failed after its automated retry budget was exhausted.")
      (textOr result.failureCategory "retry_limit_exceeded") now

/-! ## What the operations do -/

section Specs

variable {db calendar} {db' : Database} {job job' : Job} {now : Time}

/-- A job is created where the file has no active job: its row is added. -/
theorem createJobFromPlan_eq_some {id : JobId} {fileId : FileId} {plan : PlanSnapshot}
    {o : JobOptions} (h : db.createJobFromPlan calendar id fileId plan o now = some (db', job)) :
    db.hasActiveJob fileId = false ∧ job = Job.createFromPlan calendar id fileId plan o now ∧
      db' = { db with jobs := db.jobs ++ [job] }.updateFile fileId
        ({ · with lifecycleState := .queued }) now := by
  simp only [createJobFromPlan, bind, Option.bind_eq_some_iff, Option.guard_eq_some', pure,
    Option.some.injEq, Prod.mk.injEq] at h
  obtain ⟨-, hfree, rfl, rfl⟩ := h
  exact ⟨hfree, rfl, rfl⟩

/-- A claimed job was pending, not cleared, and assigned to no other worker. -/
theorem claimPendingForWorker_eq_some {jobId : JobId} {worker : Worker}
    (h : db.claimPendingForWorker jobId worker now = some (db', job)) :
    db.job jobId = some job ∧ job.status = .pending ∧ job.clearedAt = none ∧
      db' = (db.updateJob jobId (·.claimedBy worker now) now).updateFile job.trackedFileId
        ({ · with lifecycleState := .processing }) now := by
  simp only [claimPendingForWorker, bind, Option.bind_eq_some_iff, Option.guard_eq_some', pure,
    Option.some.injEq, Prod.mk.injEq] at h
  obtain ⟨-, -, row, hrow, -, ⟨hp, hc, -⟩, rfl, rfl⟩ := h
  exact ⟨hrow, hp, hc, rfl⟩

/-- A job is not created where the file has an active job. -/
theorem createJobFromPlan_eq_none {id : JobId} {fileId : FileId} {plan : PlanSnapshot}
    {o : JobOptions} (h : db.createJobFromPlan calendar id fileId plan o now = none) :
    db.hasActiveJob fileId = true := by
  by_contra hfree
  simp [createJobFromPlan, hfree] at h

/-- What `apply_automatic_retry_policy` does with a result: the tables after it, and the new job. -/
inductive RetryPolicy (db : Database) (calendar : Calendar) (job : Job) (file : TrackedFile)
    (plan : PlanSnapshot) (result : ExecutionResult) (id : JobId) (now : Time) :
    Database → Option Job → Prop
  /-- No execution failed. -/
  | other (h : result.status ≠ .failed ∨ job.jobKind ≠ .execution) :
      RetryPolicy db calendar job file plan result id now db none
  /-- A rule asks for a review, or the budget is spent. -/
  | review (failed : result.status = .failed) (kind : job.jobKind = .execution)
      (h : jobRequiresManualReview file plan = true ∨ maxAutomatedRetries < job.attemptCount)
      (reason category : String) :
      RetryPolicy db calendar job file plan result id now
        (db.routeToManualReview job result.completedAt reason category now) none
  /-- A new job repeats the failed one. -/
  | retry (failed : result.status = .failed) (kind : job.jobKind = .execution)
      (unreviewed : jobRequiresManualReview file plan = false)
      (budget : job.attemptCount ≤ maxAutomatedRetries) {db' : Database} {new : Job}
      (created : db.createJobFromPlan calendar id job.trackedFileId plan
        (job.automaticRetryOptions result) now = some (db', new)) :
      RetryPolicy db calendar job file plan result id now db' (some new)
  /-- An active job of the file stands for the retry. -/
  | standIn (failed : result.status = .failed) (kind : job.jobKind = .execution)
      (unreviewed : jobRequiresManualReview file plan = false)
      (budget : job.attemptCount ≤ maxAutomatedRetries)
      (active : db.hasActiveJob job.trackedFileId = true) :
      RetryPolicy db calendar job file plan result id now db none

theorem applyAutomaticRetryPolicy_cases (db : Database) (calendar : Calendar) (job : Job)
    (file : TrackedFile) (plan : PlanSnapshot) (result : ExecutionResult) (id : JobId) (now : Time) :
    ∃ new, RetryPolicy db calendar job file plan result id now
      (db.applyAutomaticRetryPolicy calendar job file plan result id now) new := by
  unfold applyAutomaticRetryPolicy
  split_ifs with hskip hreview hbudget
  · exact ⟨none, .other hskip⟩
  all_goals
    simp only [ne_eq, not_or, not_not] at hskip
  · exact ⟨none, .review hskip.1 hskip.2 (.inl hreview) _ _⟩
  · have hunreviewed := Bool.eq_false_iff.mpr hreview
    cases hnew : db.createJobFromPlan calendar id job.trackedFileId plan
        (job.automaticRetryOptions result) now with
    | none => exact ⟨none, .standIn hskip.1 hskip.2 hunreviewed hbudget (createJobFromPlan_eq_none hnew)⟩
    | some created => exact ⟨created.2, .retry hskip.1 hskip.2 hunreviewed hbudget hnew⟩
  · exact ⟨none, .review hskip.1 hskip.2 (.inr (by omega)) _ _⟩

end Specs

end Database

end Encodr
