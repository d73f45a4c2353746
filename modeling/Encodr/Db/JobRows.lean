import Mathlib.Data.Rat.Floor
import Encodr.Db.BackupPolicy

/-!
# Changes of a job row

What the operations of `JobRepository` write into the row of one job. The repository sets
`updated_at` when it saves a row; that is left to the tables.

* `Job.markResult`: the result of an execution is recorded.
* `Job.markRunning`, `Job.markInterrupted`, `Job.markCancelled`, ...: the other changes of a status.
* `Job.markResult_status` and the lemmas around it: what a recorded result leaves in the row.
-/

namespace Encodr

open Python

/-! ## What a result means -/

/-- The text of a result status. -/
def ExecutionStatus.value : ExecutionStatus → String
  | .completed => "completed"
  | .failed => "failed"
  | .skipped => "skipped"
  | .manualReview => "manual_review"
  | .cancelled => "cancelled"

/-- `status_map` of `mark_result`. -/
def ExecutionStatus.jobStatus : ExecutionStatus → JobStatus
  | .completed => .completed
  | .failed => .failed
  | .skipped => .skipped
  | .manualReview => .manualReview
  | .cancelled => .cancelled

theorem ExecutionStatus.completed_of_jobStatus {status : ExecutionStatus}
    (h : status.jobStatus = .completed) : status = .completed := by
  cases status <;> first | rfl | cases h

/-- `verification_status_for_result`. -/
def verificationStatusForResult (result : ExecutionResult) : JobVerificationStatus :=
  match result.verification with
  | none => .notRequired
  | some v =>
    match v.status with
    | .passed => .passed
    | .failed => .failed
    | .notRequired => .notRequired

/-- A result is verified where its verification says so. -/
theorem verificationStatusForResult_passed {result : ExecutionResult} :
    verificationStatusForResult result = .passed ↔
      ∃ v, result.verification = some v ∧ v.status = .passed := by
  unfold verificationStatusForResult
  cases result.verification with
  | none => simp
  | some v => cases hv : v.status <;> simp [hv]

/-- `replacement_status_for_result`. -/
def replacementStatusForResult (result : ExecutionResult) : JobReplacementStatus :=
  match result.replacement with
  | none => .notRequired
  | some r =>
    match r.status with
    | .succeeded => .succeeded
    | .failed => .failed
    | .notRequired => .notRequired

/-- `MAX_AUTOMATED_RETRIES`. -/
def maxAutomatedRetries : Nat := 3

/-- `automatic_retry_delay`. -/
def automaticRetryDelay (attemptCount : Nat) : Int :=
  seconds (min (60 * 2 ^ (attemptCount - 2)) (15 * 60))

/-! ## Changes of a status -/

namespace Job

/-- `mark_running`. -/
def markRunning (job : Job) (workerName : String) (now : Time) : Job :=
  { job with
    status := .running
    workerName := some workerName
    startedAt := some now
    interruptedAt := none
    interruptionReason := none
    progressStage := some "starting"
    progressPercent := some 0
    progressUpdatedAt := some now }

/-- The values that `claim_pending_for_worker` writes. -/
def claimedBy (job : Job) (worker : Worker) (now : Time) : Job :=
  { job.markRunning worker.displayName now with
    assignedWorkerId := some worker.id
    lastWorkerId := some worker.id }

/-- `mark_scheduled`. -/
def markScheduled (job : Job) (scheduledForAt : Option Time) : Job :=
  { job with status := .scheduled, scheduledForAt := scheduledForAt }

/-- `promote_scheduled`. -/
def promoteScheduled (job : Job) : Job :=
  { job with status := .pending, scheduledForAt := none }

/-- `assign_worker`. -/
def assignWorker (job : Job) (worker : Worker) : Job :=
  { job with assignedWorkerId := some worker.id, workerName := some worker.displayName }

/-- `mark_cancelling`. -/
def markCancelling (job : Job) (requestedAt : Time) : Job :=
  { job with progressStage := some "cancelling", progressUpdatedAt := some requestedAt }

/-- `mark_cancellation_requested`. -/
def markCancellationRequested (job : Job) (requestedAt : Time) (reason : String) : Job :=
  { job with
    cancellationRequestedAt := some requestedAt
    cancellationReason := some reason
    interruptionReason := some reason
    progressStage := some "cancellation_requested"
    progressUpdatedAt := some requestedAt }

/-- `record_progress`. -/
def recordProgress (job : Job) (stage : String) (percent : Option Rat) (updatedAt : Time) : Job :=
  { job with
    progressStage := some stage
    progressPercent := percent.map Rat.floor
    progressUpdatedAt := some updatedAt }

/-- `mark_result`. -/
def markResult (job : Job) (result : ExecutionResult) : Job :=
  let job := { job with
    status := result.status.jobStatus
    startedAt := some result.startedAt
    completedAt := some result.completedAt
    failureMessage := result.failureMessage
    failureCategory := result.failureCategory
    outputPath := result.outputPath
    finalOutputPath := result.finalOutputPath
    originalBackupPath := result.originalBackupPath
    verificationStatus := verificationStatusForResult result
    verificationPayload := result.verification
    replacementStatus := replacementStatusForResult result
    replacementPayload := result.replacement
    replacementFailureMessage := result.replacement.bind (·.failureMessage) }
  let job := if result.status = .completed ∧ job.backupPolicy = "keep_for_1_day" ∧
      job.originalBackupPath.isSome then
    { job with backupRetentionUntil := some (result.completedAt + days 1) }
  else job
  let job := if (result.replacement.map (·.deletedOriginalSource)).getD false then
    { job with backupDeletedAt := some result.completedAt }
  else job
  let job := if result.status = .cancelled then
    { job with
      interruptedAt := some result.completedAt
      interruptionReason := result.failureMessage
      interruptionRetryable := true
      progressStage := some "cancelled"
      progressPercent := none }
  else { job with progressStage := some result.status.value }
  let job := if result.status = .completed ∨ result.status = .skipped then
    { job with progressPercent := some 100 }
  else job
  { job with
    progressUpdatedAt := some result.completedAt
    assignedWorkerId := none
    scheduledForAt := none }

/-- What `route_to_manual_review` writes into the job. -/
def routeToManualReview (job : Job) (reviewedAt : Time) (reason category : String) : Job :=
  { job with
    status := .manualReview
    completedAt := some reviewedAt
    failureMessage := some reason
    failureCategory := some category
    progressStage := some "manual_review"
    progressUpdatedAt := some reviewedAt
    assignedWorkerId := none
    scheduledForAt := none }

/-- `mark_interrupted`. -/
def markInterrupted (job : Job) (interruptedAt : Time) (reason : String) (retryable : Bool) : Job :=
  { job with
    status := .interrupted
    interruptedAt := some interruptedAt
    interruptionReason := some reason
    interruptionRetryable := retryable
    failureMessage := some reason
    failureCategory := some "worker_interrupted"
    progressStage := some "interrupted"
    progressUpdatedAt := some interruptedAt
    assignedWorkerId := none }

/-- `mark_cancelled`. -/
def markCancelled (job : Job) (cancelledAt : Time) (reason : String) : Job :=
  { job with
    status := .cancelled
    completedAt := some cancelledAt
    interruptedAt := some cancelledAt
    interruptionReason := some reason
    interruptionRetryable := true
    failureMessage := some reason
    failureCategory := some "cancelled_by_operator"
    progressStage := some "cancelled"
    progressPercent := none
    progressUpdatedAt := some cancelledAt
    assignedWorkerId := none
    scheduledForAt := none
    cancellationRequestedAt := some cancelledAt
    cancellationReason := some reason }

/-- `mark_cleared`. -/
def markCleared (job : Job) (clearedAt : Time) (reason : String) : Job :=
  { job with clearedAt := some clearedAt, clearedReason := some reason }

/-! ## What a change keeps -/

section Lemmas

variable (job : Job) (result : ExecutionResult)

@[simp] theorem markResult_id : (job.markResult result).id = job.id := by
  unfold markResult; dsimp only; split_ifs <;> rfl

@[simp] theorem markResult_status : (job.markResult result).status = result.status.jobStatus := by
  unfold markResult; dsimp only; split_ifs <;> rfl

@[simp] theorem markResult_backupPolicy :
    (job.markResult result).backupPolicy = job.backupPolicy := by
  unfold markResult; dsimp only; split_ifs <;> rfl

@[simp] theorem markResult_originalBackupPath :
    (job.markResult result).originalBackupPath = result.originalBackupPath := by
  unfold markResult; dsimp only; split_ifs <;> rfl

@[simp] theorem markResult_backupRetentionUntil :
    (job.markResult result).backupRetentionUntil =
      if result.status = .completed ∧ job.backupPolicy = "keep_for_1_day" ∧
          result.originalBackupPath.isSome then
        some (result.completedAt + days 1)
      else job.backupRetentionUntil := by
  unfold markResult; dsimp only; split_ifs <;> rfl

end Lemmas

end Job

end Encodr
