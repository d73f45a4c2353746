import Encodr.Api.Library
import Encodr.Api.Orchestration
import Encodr.Api.Review
import Encodr.Lib.Transition
import Encodr.Worker.Execution

/-!
# The system

The tables, the executions under way, and what happens to them: requests of operators and
administrators, requests of workers, the passes of the orchestrator, and the steps of an execution.

A request is one transaction: where it is refused, it changes nothing. A transaction over several
files (a batch, a bulk retry, a watch round, a bulk queue) is the sequence of its parts. Each action
draws one id that no earlier action drew; its new rows and tokens take it. The clock, the answers of
the file system and the files of a placement are inputs.

* `State`, `Action`, `step`: the system; `machine` is the transition system.
* `Event`: what the log of the state notes, the last event first.
-/

namespace Encodr

open Python Lib

/-- The configuration of an installation. -/
structure Settings where
  os : PathOs
  roots : PathRoots
  scratchDir : PosixPath
  calendar : Calendar
  /-- The secret that remote workers register with. -/
  secret : String
  /-- The key of the local worker. -/
  localKey : String

/-- What the log notes of a job. -/
inductive Event where
  /-- A cancellation of the running job was accepted. -/
  | cancelled (jobId : JobId)
  | verified (jobId : JobId) (output : PosixPath) (plan : ProcessingPlan) (passed : Bool)
  /-- The worker has made its last report before the placement. -/
  | replacing (jobId : JobId)
  /-- An execution has placed its output. -/
  | placed (jobId : JobId) (output : PosixPath) (plan : ProcessingPlan)
  /-- An approval has placed the staged output of the job. -/
  | approved (jobId : JobId) (output : PosixPath) (plan : ProcessingPlan)
  /-- An automatic retry of the job was created. -/
  | retried (jobId newJobId : JobId)
deriving DecidableEq

structure State where
  db : Database := {}
  live : List Execution := []
  log : List Event := []
  /-- The ids drawn so far. -/
  issued : List String := []

/-! ## Actions -/

/-- The files and the faults that a placement meets. -/
structure Placing (C : Type) where
  files : Files PosixPath C
  faults : Faults Site C
  draws : List String

/-- A placement. -/
def Placing.run {C : Type} (w : Placing C) (sourcePath stagedOutput : PosixPath)
    (plan : ProcessingPlan) : Except Raised ReplacementResult :=
  (placeVerifiedOutput sourcePath stagedOutput plan w.draws w.faults w.files).1

/-- A request that works on the tables only. -/
inductive Request where
  | planFile (path : PosixPath) (media : MediaFile) (policy : ResolvedPlanningPolicy)
      (rename : RenamePlan)
  | scanFile (path : PosixPath)
  | scanBackup (sourcePath backupPath : PosixPath) (finalOutputPath : Option PosixPath)
  | createJob (r : CreateJobRequest)
  | createWatchedJob (fileId : FileId) (planId : PlanId) (o : Database.WatchedOptions)
  | retryJob (jobId : JobId) (existingBackupStrategy : String)
  | recoverWithStripOnly (jobId : JobId)
  | markProblemJobSkipped (jobId : JobId)
  | clearProblemJob (jobId : JobId)
  | clearQueue
  | clearFailedHistory (jobIds : Option (List JobId))
  | rejectItem (itemId : FileId)
  | holdItem (itemId : FileId)
  | markProtected (itemId : FileId)
  | clearProtected (itemId : FileId)
  | registerWorker (r : Database.RegisterRequest)
  | onboardWorker (workerKey : String) (p : Database.WorkerPreferences)
  | setupLocalWorker (p : Database.WorkerPreferences)
  | heartbeat (tokenHash : String) (health : WorkerHealthStatus)
  | localHeartbeat (health : WorkerHealthStatus)
  | setWorkerEnabled (workerId : WorkerId) (enabled : Bool)
  | updateWorkerPreferences (workerId : WorkerId) (p : Database.WorkerPreferences)
  | deleteWorker (workerId : WorkerId)
  | refreshScheduledJobs

/-- An operation on the backups of a job. -/
inductive BackupRequest (C : Type) where
  | restore (jobId : JobId) (byUser : Bool) (faults : Faults BackupSite C)
  | delete (jobId : JobId) (faults : Faults BackupSite C)
  | cleanup (faults : Faults JobId C)

/-- A step of an execution, or a message of its worker. -/
inductive Work (C : Type) where
  | begin
  /-- A progress report during the run. -/
  | progress (stage : String) (percent : Option Rat)
  | run (outcome : RunOutcome) (startedAt : Time)
  /-- The report of the next stage. -/
  | proceed
  | verify (probe : Probe) (safety : Option SafetyFailure)
  | place (w : Placing C)
  | submit
  /-- The submission does not reach the server. -/
  | loseSubmission (message : String)
  /-- The agent fails outside of a run. -/
  | fail (message : String)
  | reportFailure
  /-- The local worker records its result; `analysed` is the plan of a dry run. -/
  | finishLocal (analysed : Option ProcessingPlan)
  /-- The worker process ends. -/
  | stop

inductive Op (C : Type) where
  | request (r : Request)
  | backup (r : BackupRequest C) (files : Files PosixPath C)
  | approveItem (itemId : FileId) (w : Placing C)
  /-- `active` is whether the local worker takes the job for its active one. -/
  | cancelJob (jobId : JobId) (active : Bool)
  | sweep
  | claim (tokenHash : String) (jobId : JobId) (capable : Bool) (sourcePath : PosixPath)
  | claimLocal (jobId : JobId) (capable inApi : Bool)
  | work (jobId : JobId) (w : Work C)

structure Action (C : Type) where
  /-- The id drawn for new rows and tokens. -/
  uid : String
  now : Time
  /-- Which paths exist. -/
  exists_ : PosixPath → Bool := fun _ => false
  op : Op C

/-! ## Requests -/

section Step

variable (c : Settings)

/-- The tables after a request. A failed registration leaves its mark. -/
def Request.apply (exists_ : PosixPath → Bool) (uid : String) (now : Time) (db : Database) :
    Request → Except ApiError Database
  | .planFile path media policy rename =>
    Prod.fst <$> db.planFile c.os c.scratchDir uid path media policy rename now
  | .scanFile path => .ok (db.upsertByPath uid path now).1
  | .scanBackup sourcePath backupPath finalOutputPath =>
    .ok (db.reconcileDiscoveredBackup uid sourcePath backupPath finalOutputPath now)
  | .createJob r => Prod.fst <$> db.createJob exists_ c.calendar uid uid r now
  | .createWatchedJob fileId planId o => do
    let file ← found (.notFound "Tracked file could not be found.") (db.trackedFile fileId)
    let plan ← found (.notFound "Plan snapshot could not be found.")
      ((db.planSnapshot planId).filter (·.trackedFileId = fileId))
    Prod.fst <$> db.createWatchedJobIfNeeded c.calendar uid file plan o now
  | .retryJob jobId strategy =>
    Prod.fst <$> db.retryJob exists_ c.calendar jobId uid uid strategy now
  | .recoverWithStripOnly jobId =>
    Prod.fst <$> db.recoverWithStripOnly exists_ c.calendar jobId uid uid now
  | .markProblemJobSkipped jobId => db.markProblemJobSkipped exists_ jobId now
  | .clearProblemJob jobId => db.clearProblemJob jobId now
  | .clearQueue => .ok (db.clearQueue now)
  | .clearFailedHistory jobIds => .ok (db.clearFailedHistory jobIds now)
  | .rejectItem itemId => Prod.fst <$> db.rejectItem c.calendar itemId uid uid uid now
  | .holdItem itemId => db.holdItem itemId uid now
  | .markProtected itemId => db.markProtected itemId uid now
  | .clearProtected itemId => db.clearProtected itemId uid now
  | .registerWorker r => .ok (db.registerWorker c.secret r uid uid now).2
  | .onboardWorker workerKey p => db.createRemoteOnboarding workerKey p uid uid now
  | .setupLocalWorker p => .ok (db.setupLocalWorker c.localKey p uid now)
  | .heartbeat tokenHash health => do
    let worker ← db.requireAuthenticatedWorker tokenHash
    return db.recordHeartbeat worker.id health now
  | .localHeartbeat health => do
    let worker ← found (.notFound "Worker could not be found.") (db.workerByKey c.localKey)
    return db.recordHeartbeat worker.id health now
  | .setWorkerEnabled workerId enabled => db.setWorkerEnabled workerId enabled now
  | .updateWorkerPreferences workerId p => db.updateWorkerPreferences workerId p now
  | .deleteWorker workerId => db.deleteWorker workerId
  | .refreshScheduledJobs => .ok (db.refreshScheduledJobs c.calendar now)

variable {C : Type}

/-- The rows and files of the file of a job. -/
def Database.backupStoreOf (db : Database) (jobId : JobId) (files : Files PosixPath C) :
    Option (BackupStore C) :=
  ((db.job jobId).bind fun job => db.trackedFile job.trackedFileId).map (db.backupStore · files)

/-- The tables after an operation on backups. -/
def BackupRequest.apply (uid : String) (now : Time) (db : Database) (files : Files PosixPath C) :
    BackupRequest C → Option Database
  | .restore jobId byUser faults => (db.backupStoreOf jobId files).map fun store =>
    db.withBackupStore (restoreBackup c.os (some c.roots) jobId
      (if byUser then some uid else none) now faults store).2
  | .delete jobId faults => (db.backupStoreOf jobId files).map fun store =>
    db.withBackupStore (deleteBackup c.os (some c.roots) jobId now faults store).2
  | .cleanup faults => db.trackedFiles.head?.map fun file => { db with
      jobs := (cleanupExpiredBackups c.os (some c.roots) now faults (db.backupStore file files)).2.jobs }

/-! ## Approvals -/

namespace State

variable (s : State) (exists_ : PosixPath → Bool) (uid : String) (now : Time)

/-- `approve_item`. A placement stays where the approval is refused afterwards. -/
def approveItem (itemId : FileId) (w : Placing C) : Option State := do
  let item ← (s.db.reviewItem itemId
    "This item does not currently require review approval.").toOption
  match ← (postEncodeApproval c.os c.roots exists_ item).toOption with
  | .absent =>
    let (db, _) ← (s.db.approveItem c.calendar itemId uid uid uid now).toOption
    return { s with db := db }
  | .placed job =>
    return { s with db := s.db.recordDecision item uid .approved none (some job.id) now }
  | .staged job plan sourcePath stagedOutput =>
    let placement := w.run sourcePath stagedOutput plan.payload
    let s := { s with log := .approved job.id stagedOutput plan.payload :: s.log }
    match s.db.completePostEncodeApproval c.os c.roots exists_ job plan stagedOutput placement
        now with
    | .ok db => return { s with db := db.recordDecision item uid .approved none (some job.id) now }
    | .error _ => return s

/-! ## Executions -/

/-- The execution of a job. -/
def execution (jobId : JobId) : Option Execution :=
  Table.find (·.jobId) jobId s.live

/-- An execution has changed to `x`. -/
def set (x : Execution) : State :=
  { s with live := Table.modify (·.jobId) x.jobId (fun _ => x) s.live }

/-- The execution of a job is over. -/
def without (jobId : JobId) : State :=
  { s with live := s.live.filter fun x => x.jobId ≠ jobId }

/-- The execution that starts with the claim of a job. -/
def startExecution (job : Job) (worker : Worker) (tokenHash : String) (plan : PlanSnapshot)
    (media : Option MediaFile) (sourcePath : PosixPath) (inApi : Bool) : Execution where
  jobId := job.id
  trackedFileId := job.trackedFileId
  jobKind := job.jobKind
  workerId := worker.id
  workerType := worker.workerType
  tokenHash := tokenHash
  plan := planPayloadForJob job plan.payload
  media := media
  sourcePath := sourcePath
  inApi := inApi

/-- `claim_job` of a remote worker. -/
def claim (tokenHash : String) (jobId : JobId) (capable : Bool) (sourcePath : PosixPath) :
    Option State := do
  let worker ← (s.db.requireAuthenticatedWorker tokenHash).toOption
  let (db, job) ← (s.db.claimJob c.calendar worker jobId capable now).toOption
  let plan ← s.db.planSnapshot job.planSnapshotId
  let probe ← s.db.probeSnapshot plan.probeSnapshotId
  return { s with
    db := db
    live := s.live ++ [startExecution job worker tokenHash plan probe.payload sourcePath false] }

/-- The claim of the local worker. It reads the probe first. -/
def claimLocal (jobId : JobId) (capable inApi : Bool) : Option State := do
  let worker ← (s.db.workerByKey c.localKey).filter (·.workerType = .local)
  let (db, job) ← s.db.claimLocalJob c.calendar worker jobId capable now
  let plan ← s.db.planSnapshot job.planSnapshotId
  let media ← (s.db.probeSnapshot plan.probeSnapshotId).bind (·.payload)
  return { s with
    db := db
    live := s.live ++
      [startExecution job worker "" plan (some media) media.container.filePath inApi] }

/-- The local worker is asked to cancel a job: it remembers the request. -/
def requestCancel (jobId : JobId) : State :=
  { s with live := s.live.map fun x =>
      if x.jobId = jobId ∧ x.workerType = .local ∧ x.inApi then { x with cancelRequested := true }
      else x }

/-- `cancel_job`. A request that the local worker declines is refused, but remembered. -/
def cancelJob (jobId : JobId) (active : Bool) : Option State :=
  let asked := if s.db.asksLocalWorker jobId then s.requestCancel jobId else s
  let accepted := active && (s.execution jobId).any (·.cancellable)
  match s.db.cancelJob jobId accepted now with
  | .ok db => some { asked with
      db := db
      log := if (s.db.job jobId).any (·.status = .running) then .cancelled jobId :: s.log else s.log }
  | .error _ => if s.db.asksLocalWorker jobId then some asked else none

/-- The orchestrator interrupts running jobs. -/
def sweep : State :=
  { s with
    db := s.db.handleWorkerInterruptions now
    live := s.live.map fun x => { x with
      swept := x.swept || s.db.jobs.any fun job => job.id = x.jobId && s.db.sweeps now job } }

/-- A progress report of the execution `x`. Where it is accepted, `noted` is logged, and `x` goes on in
the phase `next`, which depends on whether a cancellation is requested. The local worker writes its
progress itself. -/
def report (x : Execution) (stage : String) (percent : Option Rat) (noted : List Event)
    (next : Bool → Phase) : State :=
  match x.workerType with
  | .local =>
    { s with
      db := s.db.updateJob x.jobId (·.recordProgress stage percent now) now
      log := noted ++ s.log }.set { x with phase := next false }
  | .remote =>
    match s.db.requireAuthenticatedWorker x.tokenHash >>= fun worker =>
        s.db.reportJobProgress worker x.jobId stage percent now with
    | .ok (db, cancel) => { s with db := db, log := noted ++ s.log }.set { x with
        cancelRequested := x.cancelRequested || cancel
        phase := next cancel }
    | .error e => s.set { x with phase := x.afterRefusal e.message now }

/-- What is logged with the next report of an execution. -/
def noted (x : Execution) : List Event :=
  match x.phase with
  | .verified _ _ => [.replacing x.jobId]
  | _ => []

/-- The result of the execution `x` is recorded in the tables `db`. -/
def settle (x : Execution) (db : Database) : State :=
  { s with
    db := db
    log := if (db.job uid).isSome then .retried x.jobId uid :: s.log else s.log }.without x.jobId

/-- A step of the execution `x`. -/
def work (x : Execution) : Work C → Option State
  | .begin =>
    match x.phase, x.workerType with
    | .claimed, .local => some (s.set { x with phase := .running })
    | .claimed, .remote =>
      some (s.report now x "starting" (some 0) [] fun cancel => Execution.afterBegin cancel now)
    | _, _ => none
  | .progress stage percent =>
    if x.phase = .running then some (s.report now x stage percent [] fun _ => .running) else none
  | .run outcome startedAt =>
    (x.afterRun outcome startedAt now).map fun phase => s.set { x with phase := phase }
  | .proceed =>
    match x.nextReport, x.cancelledAt now with
    | none, _ => none
    | some _, some result => some (s.set { x with phase := .finished result })
    | some (stage, percent, phase), none =>
      some (s.report now x stage (some percent) (noted x) fun _ => phase)
  | .verify probe safety =>
    match x.phase, x.media, x.cancelledAt now with
    | .verifying _, some _, some result => some (s.set { x with phase := .finished result })
    | .verifying output, some media, none =>
      let verification := verifyOutput x.plan media probe
      some { s.set { x with phase := Execution.afterVerification output verification safety now } with
        log := .verified x.jobId output.path x.plan verification.passed :: s.log }
    | _, _, _ => none
  | .place w =>
    match x.phase with
    | .replacing output verification =>
      let placement := w.run x.sourcePath output.path x.plan
      some { s.set { x with phase := x.afterPlacement output verification placement now } with
        log := .placed x.jobId output.path x.plan :: s.log }
    | _ => none
  | .submit =>
    match x.phase, x.workerType with
    | .finished result, .remote =>
      match s.db.requireAuthenticatedWorker x.tokenHash >>= fun worker =>
          s.db.submitJobResult c.calendar c.os c.roots exists_ worker x.jobId result uid now with
      | .ok db => some (s.settle uid x db)
      | .error e => some (s.set { x with phase := .failing e.message "worker_agent_error" })
    | _, _ => none
  | .loseSubmission message =>
    match x.phase, x.workerType with
    | .finished _, .remote => some (s.set { x with phase := .failing message "worker_agent_error" })
    | _, _ => none
  | .fail message =>
    match x.phase, x.workerType with
    | .finished _, _ | .failing _ _, _ | _, .local => none
    | _, .remote => some (s.set { x with phase := .failing message "worker_agent_error" })
  | .reportFailure =>
    match x.phase with
    | .failing message category =>
      match s.db.requireAuthenticatedWorker x.tokenHash >>= fun worker =>
          s.db.reportJobFailure c.calendar exists_ worker x.jobId message category uid now with
      | .ok db => some (s.settle uid x db)
      | .error _ => some (s.without x.jobId)
    | _ => none
  | .finishLocal analysed =>
    match x.phase, x.workerType with
    | .finished result, .local => do
      let job ← s.db.job x.jobId
      let plan ← s.db.planSnapshot job.planSnapshotId
      let appliedPlan := if x.jobKind = .dryRun then analysed.getD plan.payload else x.plan
      let db ← s.db.recordResult c.calendar exists_ job plan appliedPlan result id uid now
      return s.settle uid x db
    | _, _ => none
  | .stop => some (s.without x.jobId)

end State

/-! ## Steps -/

/-- The state after an operation, before its id is noted. -/
def Op.apply (s : State) (exists_ : PosixPath → Bool) (uid : String) (now : Time) :
    Op C → Option State
  | .request r => (r.apply c exists_ uid now s.db).toOption.map fun db => { s with db := db }
  | .backup r files => (r.apply c uid now s.db files).map fun db => { s with db := db }
  | .approveItem itemId w => s.approveItem c exists_ uid now itemId w
  | .cancelJob jobId active => s.cancelJob now jobId active
  | .sweep => some (s.sweep now)
  | .claim tokenHash jobId capable sourcePath => s.claim c now tokenHash jobId capable sourcePath
  | .claimLocal jobId capable inApi => s.claimLocal c now jobId capable inApi
  | .work jobId w => (s.execution jobId).bind fun x => s.work c exists_ uid now x w

/-- One action. -/
def step (s : State) (a : Action C) : Option State :=
  if a.uid ∈ s.issued then none
  else (a.op.apply c s a.exists_ a.uid a.now).map fun s' => { s' with issued := a.uid :: s.issued }

variable (C) in
/-- The system, from empty tables. -/
def machine : Sys State (Action C) where
  init s := s = {}
  step := step c

end Step

end Encodr
