import Encodr.Replacement.Service
import Encodr.Verification.Rules

/-!
# Database rows

The rows of the database that the job system reads and writes, and the result of an execution
that is recorded in a job row.

Ids are texts, times are integers on one clock. Paths are stored as text in the source; the rows
here keep them parsed. Columns that only the user interface shows are left out.
-/

namespace Encodr

open Python

/-! ## Enumerations -/

/-- A point in time, in microseconds. -/
abbrev Time := Int

/-- `timedelta(seconds=n)`. -/
def seconds (n : Int) : Int := n * 1000000

/-- `timedelta(days=n)`. -/
def days (n : Int) : Int := seconds (n * 86400)

abbrev JobId := String
abbrev FileId := String
abbrev PlanId := String
abbrev WorkerId := String

inductive FileLifecycleState where
  | discovered
  | probed
  | planned
  | manualReview
  | queued
  | processing
  | completed
  | failed
deriving DecidableEq, Repr

inductive ComplianceState where
  | unknown
  | compliant
  | nonCompliant
  | manualReview
deriving DecidableEq, Repr

inductive JobStatus where
  | pending
  | scheduled
  | running
  | completed
  | failed
  | interrupted
  | cancelled
  | skipped
  | manualReview
deriving DecidableEq, Repr

/-- `ACTIVE_JOB_STATUSES`. -/
def JobStatus.isActive : JobStatus → Bool
  | .pending | .scheduled | .running => true
  | _ => false

/-- `RETRYABLE_JOB_STATUSES`. -/
def JobStatus.isRetryable : JobStatus → Bool
  | .failed | .manualReview | .skipped | .interrupted | .cancelled => true
  | _ => false

inductive JobKind where
  | execution
  | dryRun
deriving DecidableEq, Repr

inductive WorkerType where
  | local
  | remote
deriving DecidableEq, Repr

inductive WorkerRegistrationStatus where
  | registered
  | disabled
  | unknown
deriving DecidableEq, Repr

inductive WorkerHealthStatus where
  | healthy
  | degraded
  | failed
  | unknown
deriving DecidableEq, Repr

/-- The verification column of a job. -/
inductive JobVerificationStatus where
  | pending
  | passed
  | failed
  | notRequired
deriving DecidableEq, Repr

/-- The replacement column of a job. -/
inductive JobReplacementStatus where
  | pending
  | succeeded
  | failed
  | notRequired
deriving DecidableEq, Repr

inductive ManualReviewDecisionType where
  | approved
  | rejected
  | held
  | markProtected
  | clearProtected
  | replanRequested
  | jobCreated
deriving DecidableEq, Repr

/-! ## Execution results -/

inductive ExecutionStatus where
  | completed
  | failed
  | skipped
  | manualReview
  | cancelled
deriving DecidableEq, Repr

/-- `ExecutionResult`, with the fields that are recorded in a job row. -/
structure ExecutionResult where
  status : ExecutionStatus
  outputPath : Option PosixPath := none
  finalOutputPath : Option PosixPath := none
  originalBackupPath : Option PosixPath := none
  failureMessage : Option String := none
  failureCategory : Option String := none
  verification : Option VerificationResult := none
  replacement : Option ReplacementResult := none
  startedAt : Time
  completedAt : Time
deriving DecidableEq

/-! ## Rows -/

/-- A weekly schedule window: days, start and end of the day in minutes. -/
structure ScheduleWindow where
  days : List Nat
  startMinute : Nat
  endMinute : Nat
deriving DecidableEq, Repr

structure Job where
  id : JobId
  trackedFileId : FileId
  planSnapshotId : PlanId
  assignedWorkerId : Option WorkerId := none
  preferredWorkerId : Option WorkerId := none
  pinnedWorkerId : Option WorkerId := none
  lastWorkerId : Option WorkerId := none
  watchedJobId : Option String := none
  requestedWorkerType : Option WorkerType := none
  jobKind : JobKind := .execution
  scheduleWindows : List ScheduleWindow := []
  ignoreWorkerSchedule : Bool := false
  workerName : Option String := none
  status : JobStatus := .pending
  attemptCount : Nat := 1
  startedAt : Option Time := none
  completedAt : Option Time := none
  progressStage : Option String := none
  progressPercent : Option Int := none
  progressUpdatedAt : Option Time := none
  scheduledForAt : Option Time := none
  interruptedAt : Option Time := none
  interruptionReason : Option String := none
  interruptionRetryable : Bool := true
  clearedAt : Option Time := none
  clearedReason : Option String := none
  cancellationRequestedAt : Option Time := none
  cancellationReason : Option String := none
  failureMessage : Option String := none
  failureCategory : Option String := none
  outputPath : Option PosixPath := none
  verificationStatus : JobVerificationStatus := .pending
  verificationPayload : Option VerificationResult := none
  replacementStatus : JobReplacementStatus := .pending
  replacementPayload : Option ReplacementResult := none
  finalOutputPath : Option PosixPath := none
  originalBackupPath : Option PosixPath := none
  replacementFailureMessage : Option String := none
  replaceInPlace : Bool := true
  requireVerification : Bool := true
  keepOriginalUntilVerified : Bool := true
  deleteReplacedSource : Bool := false
  backupPolicy : String := "keep"
  backupRetentionUntil : Option Time := none
  backupDeletedAt : Option Time := none
  backupRestoredAt : Option Time := none
  createdAt : Time
  updatedAt : Time
deriving DecidableEq

structure TrackedFile where
  id : FileId
  sourcePath : PosixPath
  is4k : Bool := false
  lifecycleState : FileLifecycleState := .discovered
  complianceState : ComplianceState := .unknown
  isProtected : Bool := false
  operatorProtected : Bool := false
  operatorProtectedUpdatedAt : Option Time := none
  lastProcessedPolicyVersion : Option Int := none
  lastProcessedProfileName : Option String := none
  createdAt : Time
  updatedAt : Time
deriving DecidableEq

/-- A probe of a file. The payload is `none` where it describes a discovered backup. -/
structure ProbeSnapshot where
  id : String
  trackedFileId : FileId
  payload : Option MediaFile
  createdAt : Time
deriving DecidableEq

structure PlanSnapshot where
  id : PlanId
  trackedFileId : FileId
  probeSnapshotId : String
  action : PlanAction
  shouldTreatAsProtected : Bool := false
  payload : ProcessingPlan
  createdAt : Time
deriving DecidableEq

structure ManualReviewDecision where
  id : String
  trackedFileId : FileId
  planSnapshotId : Option PlanId := none
  jobId : Option JobId := none
  decisionType : ManualReviewDecisionType
  createdAt : Time
deriving DecidableEq

/-- A directory of the server and the directory of a worker that is the same. -/
structure PathMapping where
  serverPath : PosixPath
  workerPath : PosixPath
deriving DecidableEq

/-- A worker. A remote worker authenticates with the token whose hash is stored. -/
structure Worker where
  id : WorkerId
  workerKey : String
  displayName : String := ""
  workerType : WorkerType
  enabled : Bool := true
  registrationStatus : WorkerRegistrationStatus := .unknown
  authTokenHash : Option String := none
  pairingTokenHash : Option String := none
  pairingExpiresAt : Option Time := none
  maxConcurrentJobs : Nat := 1
  scheduleWindows : List ScheduleWindow := []
  pathMappings : List PathMapping := []
  scratchPath : Option PosixPath := none
  lastHeartbeatAt : Option Time := none
  lastHealthStatus : WorkerHealthStatus := .unknown
  createdAt : Time
  updatedAt : Time
deriving DecidableEq

/-- A job is active: it takes the one active place of its file. -/
def Job.isActive (job : Job) : Bool :=
  job.status.isActive && job.clearedAt.isNone

end Encodr
