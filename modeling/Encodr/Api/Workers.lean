import Encodr.Api.PathSafety
import Encodr.Db.Evolution

/-!
# The worker service

Workers and what they report: registration, heartbeats, claims, progress, results and failures
(`WorkerService`, `require_authenticated_worker`, `LocalWorkerLoop` where it works on the tables).

A remote worker proves who it is with its token; the model has the hash of a token in its place.
Whether a worker can run a job (its reported capabilities) is an input of a claim.

* `Database.claimJob`, `Database.claimLocalJob`: a worker takes a job.
* `Database.recordResult`: what follows a result: the row, the file, an automatic retry.
* `Recording`, `recordResult_cases`: what the recording of a result does to the tables.
* `Database.submitJobResult`, `reportJobFailure`, `reportJobProgress`: the reports of a remote
  worker; `acceptedResult` is the result that is recorded.
-/

namespace Encodr

open Python Lib

/-! ## Dispatch -/

/-- `worker_is_dispatchable`. -/
def workerIsDispatchable (worker : Worker) (now : Time) : Bool :=
  worker.enabled && match worker.workerType with
    | .local => worker.registrationStatus != .disabled
    | .remote => worker.registrationStatus == .registered && worker.lastHealthStatus != .failed &&
      worker.lastHeartbeatAt.any fun heartbeat => now - seconds (5 * 60) ≤ heartbeat

/-- `job_allows_worker`. -/
def jobAllowsWorker (calendar : Calendar) (job : Job) (worker : Worker)
    (preferredWorker : Option Worker) (now : Time) : Bool :=
  (job.pinnedWorkerId = none ∨ job.pinnedWorkerId = some worker.id) &&
  (job.preferredWorkerId = none ∨ job.preferredWorkerId = some worker.id ∨
    ¬ preferredWorker.any (workerIsDispatchable · now)) &&
  (job.requestedWorkerType = none ∨ job.requestedWorkerType = some worker.workerType) &&
  calendar.allowNow job.scheduleWindows now &&
  (job.ignoreWorkerSchedule || calendar.allowNow worker.scheduleWindows now)

namespace Database

variable (db : Database)

/-! ## Worker rows -/

/-- `get_by_key`. -/
def workerByKey (key : String) : Option Worker :=
  Table.find Worker.workerKey key db.workers

/-- `mark_auth_failed`. -/
def markAuthFailed (workerKey : String) (failedAt : Time) : Database :=
  match db.workerByKey workerKey with
  | none => db
  | some worker =>
    if worker.workerType = .remote then
      db.updateWorker worker.id
        ({ · with registrationStatus := .unknown, lastHealthStatus := .failed }) failedAt
    else db

/-- The arguments of `register_worker`. The pairing token is hashed. -/
structure RegisterRequest where
  workerKey : String
  displayName : String
  registrationSecret : Option String
  pairingTokenHash : Option String
  maxConcurrentJobs : Nat
  pathMappings : List PathMapping
  scratchPath : Option PosixPath
  healthStatus : WorkerHealthStatus

/-- `register_remote_worker`; `base` is the row of the key, or a new one. -/
def registeredRow (base : Worker) (r : RegisterRequest) (paired : Option Worker) (tokenHash : String)
    (now : Time) : Worker :=
  { base with
    displayName := (paired.map (·.displayName)).getD r.displayName
    registrationStatus := if base.enabled then .registered else .disabled
    maxConcurrentJobs := ((paired.map (·.maxConcurrentJobs)).filter (· ≠ 0)).getD
      (max r.maxConcurrentJobs 1)
    pathMappings := (paired.map (·.pathMappings)).getD r.pathMappings
    scratchPath := (paired.bind (·.scratchPath)) <|> r.scratchPath
    authTokenHash := some tokenHash
    pairingTokenHash := none
    pairingExpiresAt := none
    lastHeartbeatAt := some now
    lastHealthStatus := r.healthStatus }

/-- The registration of a worker that has proved itself. -/
def registerRemoteWorker (r : RegisterRequest) (paired : Option Worker) (newId : WorkerId)
    (tokenHash : String) (now : Time) : Database :=
  let key := (paired.map (·.workerKey)).getD r.workerKey
  match db.workerByKey key with
  | some worker => db.updateWorker worker.id (registeredRow · r paired tokenHash now) now
  | none =>
    let worker : Worker := {
      id := newId
      workerKey := key
      workerType := .remote
      createdAt := now
      updatedAt := now }
    { db with workers := db.workers ++ [registeredRow worker r paired tokenHash now] }

/-- `register_worker`. A failed registration is written to the row of the worker. -/
def registerWorker (secret : String) (r : RegisterRequest) (newId : WorkerId) (tokenHash : String)
    (now : Time) : Except ApiError Unit × Database :=
  match r.pairingTokenHash with
  | some hash =>
    match (Table.find Worker.pairingTokenHash (some hash) db.workers).filter
        (·.workerType = .remote) with
    | none => (.error (.authentication "The worker pairing token is invalid."),
        db.markAuthFailed r.workerKey now)
    | some paired =>
      if paired.pairingExpiresAt.any (· < now) then
        (.error (.authentication "The worker pairing token has expired."),
          db.markAuthFailed paired.workerKey now)
      else (.ok (), db.registerRemoteWorker r (some paired) newId tokenHash now)
  | none =>
    if r.registrationSecret = some secret then
      (.ok (), db.registerRemoteWorker r none newId tokenHash now)
    else (.error (.authentication "The worker registration secret is invalid."),
      db.markAuthFailed r.workerKey now)

/-- The settings of a worker that an administrator chooses. -/
structure WorkerPreferences where
  displayName : Option String := none
  maxConcurrentJobs : Nat
  scheduleWindows : Option (List ScheduleWindow) := none
  scratchPath : Option PosixPath := none
  pathMappings : List PathMapping := []

/-- `create_remote_onboarding`: the row of a worker that is to pair with the token. -/
def createRemoteOnboarding (workerKey : String) (p : WorkerPreferences) (newId : WorkerId)
    (pairingTokenHash : String) (now : Time) : Except ApiError Database := do
  require (db.workerByKey workerKey = none) (.conflict "The worker key is taken.")
  let worker : Worker := {
    id := newId
    workerKey := workerKey
    displayName := p.displayName.getD ""
    workerType := .remote
    maxConcurrentJobs := p.maxConcurrentJobs
    scheduleWindows := p.scheduleWindows.getD []
    pathMappings := p.pathMappings
    scratchPath := p.scratchPath
    pairingTokenHash := some pairingTokenHash
    pairingExpiresAt := some (now + seconds (24 * 3600))
    createdAt := now
    updatedAt := now }
  return { db with workers := db.workers ++ [worker] }

/-- `setup_local_worker`: the row of the local worker, added where it is missing. -/
def setupLocalWorker (workerKey : String) (p : WorkerPreferences) (newId : WorkerId) (now : Time) :
    Database :=
  let row := fun worker : Worker => { worker with
    displayName := p.displayName.getD "worker-local"
    enabled := true
    registrationStatus := .registered
    maxConcurrentJobs := p.maxConcurrentJobs
    scheduleWindows := p.scheduleWindows.getD []
    pathMappings := p.pathMappings
    scratchPath := p.scratchPath }
  match (db.workerByKey workerKey).filter (·.workerType = .local) with
  | some worker => db.updateWorker worker.id row now
  | none =>
    let worker : Worker := {
      id := newId
      workerKey := workerKey
      workerType := .local
      createdAt := now
      updatedAt := now }
    { db with workers := db.workers ++ [row worker] }

/-- `record_heartbeat`. -/
def recordHeartbeat (workerId : WorkerId) (health : WorkerHealthStatus) (now : Time) : Database :=
  db.updateWorker workerId
    ({ · with lastHeartbeatAt := some now, lastHealthStatus := health }) now

/-- `set_enabled`. -/
def setWorkerEnabled (workerId : WorkerId) (enabled : Bool) (now : Time) :
    Except ApiError Database := do
  let _ ← found (.notFound "Worker could not be found.") (db.worker workerId)
  return db.updateWorker workerId (fun worker => { worker with
    enabled := enabled
    registrationStatus := if enabled then
        if worker.workerType = .local ∨ worker.authTokenHash.isSome then .registered else .unknown
      else .disabled
    lastHealthStatus := if enabled then worker.lastHealthStatus else .unknown }) now

/-- `update_worker_preferences`. -/
def updateWorkerPreferences (workerId : WorkerId) (p : WorkerPreferences) (now : Time) :
    Except ApiError Database := do
  let _ ← found (.notFound "Worker could not be found.") (db.worker workerId)
  return db.updateWorker workerId (fun worker => { worker with
    displayName := p.displayName.getD worker.displayName
    maxConcurrentJobs := p.maxConcurrentJobs
    scheduleWindows := p.scheduleWindows.getD worker.scheduleWindows
    scratchPath := p.scratchPath <|> worker.scratchPath
    pathMappings := p.pathMappings }) now

/-- A job row after its worker was deleted: the references to the worker are gone. -/
def withoutWorker (workerId : WorkerId) (job : Job) : Job :=
  let clear := fun id : Option WorkerId => if id = some workerId then none else id
  { job with
    assignedWorkerId := clear job.assignedWorkerId
    preferredWorkerId := clear job.preferredWorkerId
    pinnedWorkerId := clear job.pinnedWorkerId
    lastWorkerId := clear job.lastWorkerId }

/-- `delete_worker`. -/
def deleteWorker (workerId : WorkerId) : Except ApiError Database := do
  let worker ← found (.notFound "Worker could not be found.") (db.worker workerId)
  require (worker.workerType ≠ .local) (.conflict
    "Local worker records cannot be deleted. Disable the local worker instead.")
  return { db with
    workers := db.workers.filter fun worker => worker.id ≠ workerId
    jobs := db.jobs.map (withoutWorker workerId) }

/-- `require_authenticated_worker`. -/
def requireAuthenticatedWorker (tokenHash : String) : Except ApiError Worker := do
  let worker ← found (.authentication "Invalid worker credentials.")
    ((db.workerByTokenHash tokenHash).filter (·.workerType = .remote))
  require (worker.enabled = true ∧ worker.registrationStatus = .registered)
    (.forbidden "The worker is disabled or not registered.")
  return worker

/-! ## Claims -/

/-- The worker that a job prefers. -/
def preferredWorker (job : Job) : Option Worker :=
  job.preferredWorkerId.bind db.worker

/-- `claim_job`; `capable` is whether the reports of the worker make it fit for this job
(`_ensure_remote_worker_can_execute`, `_remote_worker_can_run_job`). -/
def claimJob (calendar : Calendar) (worker : Worker) (jobId : JobId) (capable : Bool) (now : Time) :
    Except ApiError (Database × Job) := do
  require (worker.lastHealthStatus ≠ .failed)
    (.conflict "The worker last reported a failed health state.")
  let job ← found (.notFound "Job could not be found.") (db.job jobId)
  require (job.status = .pending) (.conflict "Only pending jobs can be claimed.")
  require (job.assignedWorkerId = none ∨ job.assignedWorkerId = some worker.id)
    (.conflict "Job is assigned to another worker.")
  require (jobAllowsWorker calendar job worker (db.preferredWorker job) now)
    (.conflict "Job is not eligible for this worker.")
  require (capable = true) (.conflict "Job is not compatible with this worker.")
  found (.conflict "Job is no longer eligible to be claimed.")
    (db.claimPendingForWorker jobId worker now)

/-- The claim in `run_once_with_summary`: `worker` is the local worker. -/
def claimLocalJob (calendar : Calendar) (worker : Worker) (jobId : JobId) (capable : Bool)
    (now : Time) : Option (Database × Job) := do
  guard (worker.enabled ∧ worker.registrationStatus ≠ .disabled)
  let job ← db.job jobId
  guard (job.assignedWorkerId = none ∧
    (job.requestedWorkerType = none ∨ job.requestedWorkerType = some .local))
  guard (jobAllowsWorker calendar job worker (db.preferredWorker job) now ∧ capable)
  db.claimPendingForWorker jobId worker now

/-! ## Results -/

/-- A result is recorded in the row and in the file. `edit` is what a report adds to the row;
`appliedPlan` is the plan that the state of the file is taken from. -/
def markResult (exists_ : PosixPath → Bool) (job : Job) (appliedPlan : ProcessingPlan)
    (result : ExecutionResult) (edit : Job → Job) (now : Time) : Database :=
  (db.updateJob job.id (fun job => edit (job.markResult result)) now).updateFile job.trackedFileId
    (fun file => if job.jobKind = .dryRun then file.afterPlan appliedPlan
      else file.afterExecution appliedPlan result exists_) now

/-- What follows a result: it is recorded, and a failed execution is retried or routed to manual
review. -/
def recordResult (calendar : Calendar) (exists_ : PosixPath → Bool) (job : Job) (plan : PlanSnapshot)
    (appliedPlan : ProcessingPlan) (result : ExecutionResult) (edit : Job → Job) (retryId : JobId)
    (now : Time) : Option Database := do
  let db := db.markResult exists_ job appliedPlan result edit now
  let file ← db.trackedFile job.trackedFileId
  return db.applyAutomaticRetryPolicy calendar job file plan result retryId now

/-- What a report of `worker` adds to the row. -/
def reportedBy (worker : Worker) (job : Job) : Job :=
  { job with lastWorkerId := some worker.id, workerName := some worker.displayName }

/-- The running job of `worker` that it reports on. -/
def reportedJob (worker : Worker) (jobId : JobId) (message : String) :
    Except ApiError (Job × PlanSnapshot) := do
  let job ← found (.notFound "Job could not be found.") (db.job jobId)
  require (job.assignedWorkerId = some worker.id) (.conflict "Job is not assigned to this worker.")
  require (job.status = .running) (.conflict message)
  let plan ← found (.notFound "Plan snapshot could not be found.")
    (db.planSnapshot job.planSnapshotId)
  return (job, plan)

end Database

/-- `_failed_untrusted_remote_result`. -/
def failedUntrustedRemoteResult (result : ExecutionResult) (message : String) (now : Time) :
    ExecutionResult where
  status := .failed
  failureMessage := some ("Remote worker result rejected: " ++ message)
  failureCategory := some "untrusted_worker_result_path"
  startedAt := result.startedAt
  completedAt := now

/-- `_result_completed_replacement`. -/
def resultCompletedReplacement (result : ExecutionResult) : Bool :=
  result.status == .completed && result.replacement.any (·.status == .succeeded) &&
    result.finalOutputPath.isSome

/-- The result of a cancelled job whose worker had not replaced the original. -/
def cancelledRemoteResult (result : ExecutionResult) : ExecutionResult :=
  { result with
    status := .cancelled
    failureMessage := some ("Remote worker result arrived after cancellation was requested before " ++
      "verified replacement completed. The original file was not marked processed.")
    failureCategory := some "cancelled_by_operator" }

/-- The result that `submit_job_result` records. -/
def acceptedResult (os : PathOs) (roots : PathRoots) (worker : Worker) (job : Job)
    (result : ExecutionResult) (now : Time) : ExecutionResult :=
  let result := match normaliseRemoteResult os roots worker result with
    | .ok result => result
    | .error e => failedUntrustedRemoteResult result e.message now
  if job.cancellationRequestedAt.isSome ∧ result.status ∉ [.cancelled, .failed] ∧
      ¬ resultCompletedReplacement result then
    cancelledRemoteResult result
  else result

/-- The result of `report_job_failure`. -/
def reportedFailure (job : Job) (message category : String) (now : Time) : ExecutionResult where
  status := .failed
  failureMessage := some message
  failureCategory := some category
  startedAt := job.startedAt.getD now
  completedAt := now

namespace Database

variable (db : Database) (calendar : Calendar) (os : PathOs) (roots : PathRoots)
  (exists_ : PosixPath → Bool)

/-- `submit_job_result`. -/
def submitJobResult (worker : Worker) (jobId : JobId) (result : ExecutionResult) (retryId : JobId)
    (now : Time) : Except ApiError Database := do
  let (job, plan) ← db.reportedJob worker jobId "Only running jobs can be completed."
  let result := acceptedResult os roots worker job result now
  found (.notFound "Tracked file could not be found.") (db.recordResult calendar exists_ job plan
    plan.payload result (reportedBy worker) retryId now)

/-- `report_job_failure`. -/
def reportJobFailure (worker : Worker) (jobId : JobId) (message category : String) (retryId : JobId)
    (now : Time) : Except ApiError Database := do
  let (job, plan) ← db.reportedJob worker jobId
    "Only running jobs can be marked failed by a worker."
  found (.notFound "Tracked file could not be found.") (db.recordResult calendar exists_ job plan
    plan.payload (reportedFailure job message category now) (reportedBy worker) retryId now)

/-- `report_job_progress`: the tables, and whether a cancellation is requested. -/
def reportJobProgress (worker : Worker) (jobId : JobId) (stage : String) (percent : Option Rat)
    (now : Time) : Except ApiError (Database × Bool) := do
  let (job, _) ← db.reportedJob worker jobId "Only running jobs can report progress."
  return (db.updateJob jobId (·.recordProgress stage percent now) now,
    job.cancellationRequestedAt.isSome)

end Database

/-! ## What the operations do -/

/-- A row in which `result` is recorded, with the status `status`. -/
structure Job.Recorded (row : Job) (result : ExecutionResult) (status : JobStatus) (row' : Job) :
    Prop where
  terms : row'.terms = row.terms
  status : row'.status = status
  cleared : row'.clearedAt = row.clearedAt
  cancellation : row'.cancellationRequestedAt = row.cancellationRequestedAt
  outputPath : row'.outputPath = result.outputPath
  finalOutputPath : row'.finalOutputPath = result.finalOutputPath
  verificationStatus : row'.verificationStatus = verificationStatusForResult result

/-- A row with a recorded result is not active. -/
theorem Job.Recorded.kept {result : ExecutionResult} {status : JobStatus} {row row' : Job}
    (h : row.Recorded result status row')
    (hstatus : status = result.status.jobStatus ∨ result.status = .failed ∧ status = .manualReview) :
    row.Kept row' := by
  have hterminal : status.isActive = false := by
    rcases hstatus with rfl | ⟨-, rfl⟩
    · cases result.status <;> rfl
    · rfl
  refine ⟨h.terms, fun hactive => ?_, fun hactive _ => ?_⟩
  · simp [Job.isActive, h.status, hterminal] at hactive
  · rw [h.status, hterminal] at hactive
    cases hactive

namespace Database

section Specs

variable {calendar : Calendar} {exists_ : PosixPath → Bool} {db db' : Database} {job : Job}
  {plan : PlanSnapshot} {worker : Worker} {result : ExecutionResult} {now : Time}
  {issued : List String} {uid : String} {r : Rights}

/-! ### Worker rows -/

theorem updateWorker_evolves {id : WorkerId} {f : Worker → Worker}
    (hf : ∀ w, (f w).id = w.id ∧ (f w).workerType = w.workerType) :
    db.Evolves Eq uid none (db.updateWorker id f now) := by
  refine .of_jobs_eq rfl List.prefix_rfl (fun _ h => h) ⟨.local, fun w hw => .inl ?_⟩
  rwa [updateWorker_workerKinds db hf] at hw

/-- A worker with the drawn id. -/
theorem addWorker_evolves (worker : Worker) (hid : worker.id = uid) :
    db.Evolves Eq uid none { db with workers := db.workers ++ [worker] } := by
  refine .of_jobs_eq rfl List.prefix_rfl (fun _ h => h) ⟨worker.workerType, fun w hw => ?_⟩
  simp only [workerKinds, List.map_append, List.map_cons, List.map_nil, List.mem_append,
    List.mem_singleton] at hw
  exact hw.imp_right fun heq => heq.trans (Prod.ext hid rfl)

theorem markAuthFailed_evolves (workerKey : String) :
    db.Evolves Eq uid none (db.markAuthFailed workerKey now) := by
  unfold markAuthFailed
  split
  · exact .refl db
  · split
    · exact updateWorker_evolves fun _ => ⟨rfl, rfl⟩
    · exact .refl db

theorem registerRemoteWorker_evolves (q : RegisterRequest) (paired : Option Worker)
    (tokenHash : String) :
    db.Evolves Eq uid none (db.registerRemoteWorker q paired uid tokenHash now) := by
  unfold registerRemoteWorker
  dsimp only
  split
  · exact updateWorker_evolves fun _ => ⟨rfl, rfl⟩
  · exact addWorker_evolves _ rfl

theorem registerWorker_evolves (secret : String) (q : RegisterRequest) (tokenHash : String) :
    db.Evolves Eq uid none (db.registerWorker secret q uid tokenHash now).2 := by
  unfold registerWorker
  split
  · split
    · exact markAuthFailed_evolves _
    · split
      · exact markAuthFailed_evolves _
      · exact registerRemoteWorker_evolves _ _ _
  · split
    · exact registerRemoteWorker_evolves _ _ _
    · exact markAuthFailed_evolves _

theorem createRemoteOnboarding_evolves {workerKey tokenHash : String} {p : WorkerPreferences}
    (h : db.createRemoteOnboarding workerKey p uid tokenHash now = .ok db') :
    db.Evolves Eq uid none db' := by
  simp only [createRemoteOnboarding, bind_ok, require_ok, return_ok, exists_const] at h
  obtain ⟨-, rfl⟩ := h
  exact addWorker_evolves _ rfl

theorem setupLocalWorker_evolves (workerKey : String) (p : WorkerPreferences) :
    db.Evolves Eq uid none (db.setupLocalWorker workerKey p uid now) := by
  unfold setupLocalWorker
  dsimp only
  split
  · exact updateWorker_evolves fun _ => ⟨rfl, rfl⟩
  · exact addWorker_evolves _ rfl

theorem recordHeartbeat_evolves (workerId : WorkerId) (health : WorkerHealthStatus) :
    db.Evolves Eq uid none (db.recordHeartbeat workerId health now) :=
  updateWorker_evolves fun _ => ⟨rfl, rfl⟩

theorem setWorkerEnabled_evolves {workerId : WorkerId} {enabled : Bool}
    (h : db.setWorkerEnabled workerId enabled now = .ok db') : db.Evolves Eq uid none db' := by
  simp only [setWorkerEnabled, found_bind_ok, return_ok] at h
  obtain ⟨_, -, rfl⟩ := h
  exact updateWorker_evolves fun _ => ⟨rfl, rfl⟩

theorem updateWorkerPreferences_evolves {workerId : WorkerId} {p : WorkerPreferences}
    (h : db.updateWorkerPreferences workerId p now = .ok db') : db.Evolves Eq uid none db' := by
  simp only [updateWorkerPreferences, found_bind_ok, return_ok] at h
  obtain ⟨_, -, rfl⟩ := h
  exact updateWorker_evolves fun _ => ⟨rfl, rfl⟩

/-- A job loses a worker that is gone. -/
theorem withoutWorker_managed {workers : List WorkerId} {workerId : WorkerId}
    (hgone : workerId ∉ workers) (job : Job) : job.Managed r workers (withoutWorker workerId job) := by
  have hrefl : job.Managed r workers job := .refl job
  have hassigned : (withoutWorker workerId job).assignedWorkerId = job.assignedWorkerId ∨
      (withoutWorker workerId job).assignedWorkerId = none ∧
        ∃ w, job.assignedWorkerId = some w ∧ w ∉ workers := by
    by_cases hw : job.assignedWorkerId = some workerId
    · exact .inr ⟨if_pos hw, workerId, hw, hgone⟩
    · exact .inl (if_neg hw)
  exact { hrefl with assigned := fun _ => hassigned }

/-- The jobs of a deleted worker lose their worker. -/
theorem deleteWorker_evolves {workerId : WorkerId} (h : db.deleteWorker workerId = .ok db') :
    db.Evolves (Job.Managed r db'.workerIds) uid none db' := by
  simp only [deleteWorker, bind_ok, found_ok, require_ok, return_ok, exists_const] at h
  obtain ⟨_, -, -, rfl⟩ := h
  have hgone : workerId ∉ (db.workers.filter fun w => w.id ≠ workerId).map (·.id) := by
    simp
  have hkinds : ∀ w ∈ (db.workers.filter fun w => w.id ≠ workerId).map fun w => (w.id, w.workerType),
      w ∈ db.workerKinds := by
    intro w hw
    obtain ⟨row, hrow, rfl⟩ := List.mem_map.mp hw
    exact List.mem_map_of_mem (f := fun w : Worker => (w.id, w.workerType))
      (List.mem_of_mem_filter hrow)
  have hjobs : db.Evolves (Job.Managed r ((db.workers.filter fun w => w.id ≠ workerId).map (·.id)))
      uid none { db with jobs := db.jobs.map (withoutWorker workerId) } :=
    .of_map fun job _ => withoutWorker_managed hgone job
  exact ⟨hjobs.rows, fun job hj => absurd hj (Option.not_mem_none job), hjobs.plans, hjobs.files,
    ⟨.local, fun w hw => .inl (hkinds w hw)⟩⟩

/-! ### Claims -/

/-- A claimed job was pending and not cleared; it runs for its worker. -/
theorem claimPendingForWorker_evolves {jobId : JobId}
    (h : db.claimPendingForWorker jobId worker now = some (db', job)) :
    db.job jobId = some job ∧ job.status = .pending ∧ job.clearedAt = none ∧
      db.Evolves (Job.Only jobId fun row row' =>
        row' = { row.claimedBy worker now with updatedAt := now }) uid none db' := by
  obtain ⟨hj, hpending, hcleared, rfl⟩ := claimPendingForWorker_eq_some h
  exact ⟨hj, hpending, hcleared, Evolves.updateFile (f := ({ · with lifecycleState := .processing }))
    (Evolves.only fun _ _ _ => rfl) fun _ => rfl⟩

theorem claimJob_ok {jobId : JobId} {capable : Bool}
    (h : db.claimJob calendar worker jobId capable now = .ok (db', job)) :
    db.claimPendingForWorker jobId worker now = some (db', job) := by
  simp only [claimJob, bind_ok, require_ok, found_ok, exists_const] at h
  obtain ⟨-, _, -, -, -, -, -, h⟩ := h
  exact h

theorem claimLocalJob_eq_some {jobId : JobId} {capable : Bool}
    (h : db.claimLocalJob calendar worker jobId capable now = some (db', job)) :
    db.claimPendingForWorker jobId worker now = some (db', job) := by
  simp only [claimLocalJob, bind, Option.bind_eq_some_iff, Option.guard_eq_some'] at h
  obtain ⟨-, -, _, -, -, -, -, -, h⟩ := h
  exact h

/-! ### Results -/

/-- A failure of the job needs a review. -/
def failureNeedsReview (db : Database) (job : Job) (plan : PlanSnapshot)
    (appliedPlan : ProcessingPlan) : Bool :=
  (db.trackedFile job.trackedFileId).any (·.operatorProtected) ||
    appliedPlan.shouldTreatAsProtected || plan.action == .manualReview || plan.shouldTreatAsProtected

/-- What the recording of a result does: the row has the result, and the new job. -/
inductive Recording (db : Database) (calendar : Calendar) (job : Job) (plan : PlanSnapshot)
    (appliedPlan : ProcessingPlan) (result : ExecutionResult) (uid : String) (now : Time)
    (db' : Database) : Option Job → Prop
  /-- No execution failed. -/
  | settled (h : result.status ≠ .failed ∨ job.jobKind ≠ .execution)
      (evolves : db.Evolves (Job.Only job.id (Job.Recorded · result result.status.jobStatus)) uid none db') :
      Recording db calendar job plan appliedPlan result uid now db' none
  /-- The failed job is to be reviewed. -/
  | reviewed (failed : result.status = .failed) (kind : job.jobKind = .execution)
      (h : db.failureNeedsReview job plan appliedPlan = true ∨ maxAutomatedRetries < job.attemptCount)
      (evolves : db.Evolves (Job.Only job.id (Job.Recorded · result .manualReview)) uid none db') :
      Recording db calendar job plan appliedPlan result uid now db' none
  /-- A new job repeats the failed one. -/
  | retried (failed : result.status = .failed) (kind : job.jobKind = .execution)
      (unreviewed : db.failureNeedsReview job plan appliedPlan = false)
      (budget : job.attemptCount ≤ maxAutomatedRetries)
      (evolves : db.Evolves (Job.Only job.id (Job.Recorded · result .failed)) uid
        (some (Job.createFromPlan calendar uid job.trackedFileId plan
          (job.automaticRetryOptions result) now)) db') :
      Recording db calendar job plan appliedPlan result uid now db'
        (some (Job.createFromPlan calendar uid job.trackedFileId plan
          (job.automaticRetryOptions result) now))
  /-- Another active job of the file stands for the retry. -/
  | displaced (failed : result.status = .failed) (kind : job.jobKind = .execution)
      (unreviewed : db.failureNeedsReview job plan appliedPlan = false)
      (budget : job.attemptCount ≤ maxAutomatedRetries)
      (active : ∃ row ∈ db.jobs, row.id ≠ job.id ∧ row.isActive = true ∧
        row.trackedFileId = job.trackedFileId)
      (evolves : db.Evolves (Job.Only job.id (Job.Recorded · result .failed)) uid none db') :
      Recording db calendar job plan appliedPlan result uid now db' none

/-- A row with a recorded result, and with what a report adds. -/
theorem recorded_edit {edit : Job → Job} (hedit : ∀ row, (edit row).core = row.core) (row : Job) :
    row.Recorded result result.status.jobStatus
      { edit (row.markResult result) with updatedAt := now } := by
  have hcore : (edit (row.markResult result)).core = (row.markResult result).core := hedit _
  rw [Job.markResult_core] at hcore
  exact {
    terms := congrArg JobCore.terms hcore
    status := congrArg JobCore.status hcore
    cleared := congrArg JobCore.clearedAt hcore
    cancellation := congrArg JobCore.cancellationRequestedAt hcore
    outputPath := congrArg JobCore.outputPath hcore
    finalOutputPath := congrArg JobCore.finalOutputPath hcore
    verificationStatus := congrArg JobCore.verificationStatus hcore }

theorem markResult_evolves {appliedPlan : ProcessingPlan} {edit : Job → Job}
    (hedit : ∀ row, (edit row).core = row.core) :
    db.Evolves (Job.Only job.id (Job.Recorded · result result.status.jobStatus)) uid none
      (db.markResult exists_ job appliedPlan result edit now) := by
  refine (Evolves.only fun row _ _ => recorded_edit hedit row).updateFile fun file => ?_
  split <;> simp

/-- The file of a job after a result needs a review where the failure does. -/
theorem markResult_needsReview {appliedPlan : ProcessingPlan} {edit : Job → Job} {file : TrackedFile}
    (hkind : job.jobKind = .execution)
    (h : (db.markResult exists_ job appliedPlan result edit now).trackedFile job.trackedFileId =
      some file) : jobRequiresManualReview file plan = db.failureNeedsReview job plan appliedPlan := by
  have hfind : (db.markResult exists_ job appliedPlan result edit now).trackedFile job.trackedFileId =
      (db.trackedFile job.trackedFileId).map fun file =>
        if file.id = job.trackedFileId then
          { file.afterExecution appliedPlan result exists_ with updatedAt := now }
        else file := by
    rw [markResult, hkind]
    exact Table.find_modify fun file _ hid => (file.afterExecution_id _ _ _).trans hid
  rw [hfind, Option.map_eq_some_iff] at h
  obtain ⟨old, hold, rfl⟩ := h
  rw [if_pos (trackedFile_id hold), jobRequiresManualReview, failureNeedsReview, hold, Option.any_some]
  dsimp only
  rw [TrackedFile.afterExecution_isProtected, TrackedFile.afterExecution_operatorProtected]
  cases old.operatorProtected <;> cases appliedPlan.shouldTreatAsProtected <;> rfl

/-- The failed job is routed to manual review after its result. -/
theorem routeToManualReview_evolves {db₁ : Database} {reviewedAt : Time} {reason category : String}
    {status : JobStatus}
    (h : db.Evolves (Job.Only job.id (Job.Recorded · result status)) uid none db₁)
    (hkinds : db₁.workerKinds = db.workerKinds) :
    db.Evolves (Job.Only job.id (Job.Recorded · result .manualReview)) uid none
      (db₁.routeToManualReview job reviewedAt reason category now) := by
  have hroute : db₁.Evolves (Job.Only job.id fun row row' =>
      row' = { row.routeToManualReview reviewedAt reason category with updatedAt := now }) uid none
      (db₁.routeToManualReview job reviewedAt reason category now) :=
    Evolves.updateFile (f := ({ · with
      lifecycleState := .manualReview, complianceState := .manualReview }))
      (Evolves.only fun _ _ _ => rfl) fun _ => rfl
  refine h.trans hroute hkinds fun a b c hab hbc => ?_
  by_cases hid : a.id = job.id
  · have hr := hab.of_eq hid
    have hc := hbc.of_eq ((Job.id_of_terms hr.terms).trans hid)
    rw [Job.Only, if_pos hid, hc]
    exact { hr with status := rfl }
  · have hb := hab.of_ne hid
    rw [Job.Only, if_neg hid, hbc.of_ne (hb ▸ hid), hb]

theorem recordResult_cases {appliedPlan : ProcessingPlan} {edit : Job → Job} (hs : db.Sound issued)
    (hj : db.job job.id = some job) (hplan : db.planSnapshot job.planSnapshotId = some plan)
    (hedit : ∀ row, (edit row).core = row.core)
    (h : db.recordResult calendar exists_ job plan appliedPlan result edit uid now = some db') :
    ∃ new, Recording db calendar job plan appliedPlan result uid now db' new := by
  simp only [recordResult, bind, Option.bind_eq_some_iff, pure, Option.some.injEq] at h
  obtain ⟨file, hfile, rfl⟩ := h
  have hrecorded : db.Evolves (Job.Only job.id (Job.Recorded · result result.status.jobStatus)) uid none
      (db.markResult exists_ job appliedPlan result edit now) := markResult_evolves hedit
  have hpolicy := applyAutomaticRetryPolicy_cases
    (db.markResult exists_ job appliedPlan result edit now) calendar job file plan result uid now
  generalize applyAutomaticRetryPolicy _ _ _ _ _ _ _ _ = db' at hpolicy ⊢
  obtain ⟨new, hpolicy⟩ := hpolicy
  refine ⟨new, ?_⟩
  cases hpolicy with
  | other h => exact .settled h hrecorded
  | review failed kind h reason category =>
    rw [markResult_needsReview kind hfile] at h
    exact .reviewed failed kind h (routeToManualReview_evolves hrecorded rfl)
  | retry failed kind unreviewed budget created =>
    rw [markResult_needsReview kind hfile] at unreviewed
    rw [failed] at hrecorded
    obtain ⟨-, rfl, -⟩ := createJobFromPlan_eq_some created
    have hplan' : plan.id ∈ (db.markResult exists_ job appliedPlan result edit now).planIds :=
      mem_planIds.mpr ⟨plan, planSnapshot_id hplan ▸ hplan⟩
    have hfile' := hrecorded.files (hs.files job (Table.mem_of_find hj))
    obtain ⟨-, hcreated⟩ := createJobFromPlan_evolves created hplan' hfile' (Nat.le_add_left ..)
    exact .retried failed kind unreviewed budget (hrecorded.trans hcreated rfl
      fun _ _ _ h heq => heq ▸ h)
  | standIn failed kind unreviewed budget active =>
    rw [markResult_needsReview kind hfile] at unreviewed
    rw [failed] at hrecorded
    refine .displaced failed kind unreviewed budget ?_ hrecorded
    simp only [hasActiveJob, List.any_eq_true, Bool.and_eq_true, decide_eq_true_eq] at active
    obtain ⟨row', hrow', hrowfile, hactive⟩ := active
    obtain ⟨row, hrow, hchange⟩ := (hrecorded.mem hrow').resolve_right (Option.not_mem_none _)
    by_cases hid : row.id = job.id
    · have hstatus := (hchange.of_eq hid).status
      simp [Job.isActive, hstatus, ExecutionStatus.jobStatus, JobStatus.isActive] at hactive
    · obtain rfl := hchange.of_ne hid
      exact ⟨row', hrow, hid, hactive, hrowfile⟩

/-- A result is recorded: the file of a job is there. -/
theorem recordResult_total {appliedPlan : ProcessingPlan} {edit : Job → Job} (hs : db.Sound issued)
    (hj : job ∈ db.jobs) (hedit : ∀ row, (edit row).core = row.core) :
    ∃ db', db.recordResult calendar exists_ job plan appliedPlan result edit uid now = some db' := by
  have hrecorded : db.Evolves (Job.Only job.id (Job.Recorded · result result.status.jobStatus)) uid none
      (db.markResult exists_ job appliedPlan result edit now) := markResult_evolves hedit
  obtain ⟨file, hfile⟩ := mem_fileIds.mp (hrecorded.files (hs.files job hj))
  exact ⟨_, by simp only [recordResult, hfile]; rfl⟩

/-- A recorded result leaves its status, or a failure in manual review. -/
theorem Recording.evolves {appliedPlan : ProcessingPlan} {new : Option Job}
    (h : Recording db calendar job plan appliedPlan result uid now db' new) :
    ∃ status, (status = result.status.jobStatus ∨ result.status = .failed ∧ status = .manualReview) ∧
      db.Evolves (Job.Only job.id (Job.Recorded · result status)) uid new db' := by
  cases h with
  | settled _ evolves => exact ⟨_, .inl rfl, evolves⟩
  | reviewed failed _ _ evolves => exact ⟨_, .inr ⟨failed, rfl⟩, evolves⟩
  | retried failed _ _ _ evolves => exact ⟨_, .inl (by rw [failed]; rfl), evolves⟩
  | displaced failed _ _ _ _ evolves => exact ⟨_, .inl (by rw [failed]; rfl), evolves⟩

/-! ### Reports -/

/-- A remote worker authenticates with its token while it is enabled and registered. -/
theorem requireAuthenticatedWorker_ok {tokenHash : String} :
    db.requireAuthenticatedWorker tokenHash = .ok worker ↔
      db.workerByTokenHash tokenHash = some worker ∧ worker.workerType = .remote ∧
        worker.enabled = true ∧ worker.registrationStatus = .registered := by
  simp only [requireAuthenticatedWorker, bind_ok, found_ok, require_ok, return_ok, exists_const,
    Option.filter_eq_some_iff, decide_eq_true_eq]
  constructor
  · rintro ⟨_, ⟨hfind, htype⟩, ⟨henabled, hregistered⟩, rfl⟩
    exact ⟨hfind, htype, henabled, hregistered⟩
  · rintro ⟨hfind, htype, henabled, hregistered⟩
    exact ⟨worker, ⟨hfind, htype⟩, ⟨henabled, hregistered⟩, rfl⟩

/-- A worker reports on a running job that is assigned to it. -/
structure Reports (db : Database) (worker : Worker) (jobId : JobId) (job : Job) (plan : PlanSnapshot) :
    Prop where
  row : db.job jobId = some job
  assigned : job.assignedWorkerId = some worker.id
  running : job.status = .running
  snapshot : db.planSnapshot job.planSnapshotId = some plan

theorem reportedJob_ok {jobId : JobId} {message : String} :
    db.reportedJob worker jobId message = .ok (job, plan) ↔ db.Reports worker jobId job plan := by
  simp only [reportedJob, bind_ok, found_ok, require_ok, return_ok, exists_const, Prod.mk.injEq]
  constructor
  · rintro ⟨_, hj, hassigned, hrunning, _, hplan, rfl, rfl⟩
    exact ⟨hj, hassigned, hrunning, hplan⟩
  · rintro ⟨hj, hassigned, hrunning, hplan⟩
    exact ⟨job, hj, hassigned, hrunning, plan, hplan, rfl, rfl⟩

theorem Reports.job_self {jobId : JobId} (h : db.Reports worker jobId job plan) :
    db.job job.id = some job ∧ job.id = jobId := by
  have hid : job.id = jobId := Table.key_of_find h.row
  exact ⟨hid ▸ h.row, hid⟩

theorem reportedBy_core (worker : Worker) (row : Job) : (reportedBy worker row).core = row.core := rfl

theorem submitJobResult_ok {os : PathOs} {roots : PathRoots} {jobId : JobId} (hs : db.Sound issued)
    (h : db.submitJobResult calendar os roots exists_ worker jobId result uid now = .ok db') :
    ∃ job plan, db.Reports worker jobId job plan ∧ ∃ new, Recording db calendar job plan plan.payload
      (acceptedResult os roots worker job result now) uid now db' new := by
  simp only [submitJobResult, bind_ok, found_ok] at h
  obtain ⟨⟨job, plan⟩, hreports, h⟩ := h
  have hreports := reportedJob_ok.mp hreports
  exact ⟨job, plan, hreports,
    recordResult_cases hs hreports.job_self.1 hreports.snapshot (reportedBy_core worker) h⟩

theorem reportJobFailure_ok {jobId : JobId} {message category : String} (hs : db.Sound issued)
    (h : db.reportJobFailure calendar exists_ worker jobId message category uid now = .ok db') :
    ∃ job plan, db.Reports worker jobId job plan ∧ ∃ new, Recording db calendar job plan plan.payload
      (reportedFailure job message category now) uid now db' new := by
  simp only [reportJobFailure, bind_ok, found_ok] at h
  obtain ⟨⟨job, plan⟩, hreports, h⟩ := h
  have hreports := reportedJob_ok.mp hreports
  exact ⟨job, plan, hreports,
    recordResult_cases hs hreports.job_self.1 hreports.snapshot (reportedBy_core worker) h⟩

/-- A report on a running job of the worker is accepted. -/
theorem submitJobResult_total {os : PathOs} {roots : PathRoots} {jobId : JobId} (hs : db.Sound issued)
    (h : db.Reports worker jobId job plan) :
    ∃ db', db.submitJobResult calendar os roots exists_ worker jobId result uid now = .ok db' := by
  obtain ⟨db', hrecord⟩ : ∃ db', db.recordResult calendar exists_ job plan plan.payload
      (acceptedResult os roots worker job result now) (reportedBy worker) uid now = some db' :=
    recordResult_total hs (Table.mem_of_find h.row) (reportedBy_core worker)
  refine ⟨db', ?_⟩
  simp only [submitJobResult, bind_ok, found_ok]
  exact ⟨(job, plan), reportedJob_ok.mpr h, hrecord⟩

theorem reportJobFailure_total {jobId : JobId} {message category : String} (hs : db.Sound issued)
    (h : db.Reports worker jobId job plan) :
    ∃ db', db.reportJobFailure calendar exists_ worker jobId message category uid now = .ok db' := by
  obtain ⟨db', hrecord⟩ : ∃ db', db.recordResult calendar exists_ job plan plan.payload
      (reportedFailure job message category now) (reportedBy worker) uid now = some db' :=
    recordResult_total hs (Table.mem_of_find h.row) (reportedBy_core worker)
  refine ⟨db', ?_⟩
  simp only [reportJobFailure, bind_ok, found_ok]
  exact ⟨(job, plan), reportedJob_ok.mpr h, hrecord⟩

theorem recordProgress_evolves {workers : List WorkerId} (jobId : JobId) (stage : String)
    (percent : Option Rat) (now : Time) : db.Evolves (Job.Managed r workers) uid none
      (db.updateJob jobId (·.recordProgress stage percent now) now) :=
  (Evolves.only fun _ _ _ => .of_core rfl).mono fun row _ _ h => h.imp (.refl row) fun _ h => h

/-- A progress report tells whether a cancellation is requested. -/
theorem reportJobProgress_ok {jobId : JobId} {stage : String} {percent : Option Rat} {cancel : Bool}
    (h : db.reportJobProgress worker jobId stage percent now = .ok (db', cancel)) :
    ∃ job plan, db.Reports worker jobId job plan ∧ cancel = job.cancellationRequestedAt.isSome ∧
      db' = db.updateJob jobId (·.recordProgress stage percent now) now := by
  simp only [reportJobProgress, bind_ok, return_ok, Prod.mk.injEq] at h
  obtain ⟨⟨job, plan⟩, hreports, rfl, rfl⟩ := h
  exact ⟨job, plan, reportedJob_ok.mp hreports, rfl, rfl⟩

end Specs

end Database

end Encodr
