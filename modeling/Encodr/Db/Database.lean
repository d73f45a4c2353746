import Encodr.Db.JobRows
import Encodr.Lib.Table
import Encodr.Lib.Result

/-!
# The database

The tables that the job system works on, their queries, and the changes of files, plans, decisions
and workers (`TrackedFileRepository`, `PlanSnapshotRepository`, `ManualReviewDecisionRepository`,
`WorkerRepository`).

A query for the latest row takes the one added last where two rows have the same `created_at`.

* `Database.latestJob`, `latestPlanSnapshot`, `latestDecision`: the latest rows of a file.
* `updateJob_jobs` and the lemmas around it: which tables a change leaves alone.
-/

namespace Encodr

open Python Lib

structure Database where
  trackedFiles : List TrackedFile := []
  probeSnapshots : List ProbeSnapshot := []
  planSnapshots : List PlanSnapshot := []
  jobs : List Job := []
  decisions : List ManualReviewDecision := []
  workers : List Worker := []

namespace Database

variable (db : Database)

/-! ## Queries -/

def trackedFile (id : FileId) : Option TrackedFile :=
  Table.find TrackedFile.id id db.trackedFiles

def probeSnapshot (id : String) : Option ProbeSnapshot :=
  Table.find ProbeSnapshot.id id db.probeSnapshots

def planSnapshot (id : PlanId) : Option PlanSnapshot :=
  Table.find PlanSnapshot.id id db.planSnapshots

def job (id : JobId) : Option Job :=
  Table.find Job.id id db.jobs

def worker (id : WorkerId) : Option Worker :=
  Table.find Worker.id id db.workers

/-- `get_by_path`. -/
def trackedFileByPath (path : PosixPath) : Option TrackedFile :=
  Table.find TrackedFile.sourcePath path db.trackedFiles

/-- `get_by_token_hash`. -/
def workerByTokenHash (hash : String) : Option Worker :=
  Table.find Worker.authTokenHash (some hash) db.workers

/-- The order of `JobRepository.get_latest_for_tracked_file`. -/
def jobOrder (a b : Job) : Bool :=
  ((compare a.createdAt b.createdAt).then (compare a.id b.id)).isLE

/-- `JobRepository.get_latest_for_tracked_file`. -/
def latestJob (fileId : FileId) : Option Job :=
  Table.latestBy jobOrder (db.jobs.filter fun job => job.trackedFileId = fileId)

/-- `get_latest_plan_snapshot`. -/
def latestPlanSnapshot (fileId : FileId) : Option PlanSnapshot :=
  Table.latestBy (fun a b => a.createdAt ≤ b.createdAt)
    (db.planSnapshots.filter fun plan => plan.trackedFileId = fileId)

/-- `get_latest_probe_snapshot`. -/
def latestProbeSnapshot (fileId : FileId) : Option ProbeSnapshot :=
  Table.latestBy (fun a b => a.createdAt ≤ b.createdAt)
    (db.probeSnapshots.filter fun probe => probe.trackedFileId = fileId)

/-- `ManualReviewDecisionRepository.get_latest_for_tracked_file`. -/
def latestDecision (fileId : FileId) : Option ManualReviewDecision :=
  Table.latestBy (fun a b => a.createdAt ≤ b.createdAt)
    (db.decisions.filter fun decision => decision.trackedFileId = fileId)

/-- `has_active_job_for_tracked_file`. -/
def hasActiveJob (fileId : FileId) : Bool :=
  db.jobs.any fun job => job.trackedFileId = fileId && job.isActive

/-- `count_active_assignments_for_worker`. -/
def countActiveAssignments (workerId : WorkerId) : Nat :=
  db.jobs.countP fun job =>
    job.assignedWorkerId = some workerId && job.status = .running && job.clearedAt.isNone

/-- The ids of the jobs. -/
def jobIds : List JobId := db.jobs.map (·.id)

/-- The ids of the plan snapshots. -/
def planIds : List PlanId := db.planSnapshots.map (·.id)

/-- The ids of the tracked files. -/
def fileIds : List FileId := db.trackedFiles.map (·.id)

/-- The ids of the workers. -/
def workerIds : List WorkerId := db.workers.map (·.id)

/-- The ids of the workers with their types. -/
def workerKinds : List (WorkerId × WorkerType) := db.workers.map fun w => (w.id, w.workerType)

/-! ## Changes of a row -/

/-- Write the row of a job. -/
def updateJob (id : JobId) (f : Job → Job) (now : Time) : Database :=
  { db with jobs := Table.modify Job.id id (fun job => { f job with updatedAt := now }) db.jobs }

/-- Write the row of a tracked file. -/
def updateFile (id : FileId) (f : TrackedFile → TrackedFile) (now : Time) : Database :=
  { db with trackedFiles :=
      Table.modify TrackedFile.id id (fun file => { f file with updatedAt := now }) db.trackedFiles }

/-- Write the row of a worker. -/
def updateWorker (id : WorkerId) (f : Worker → Worker) (now : Time) : Database :=
  { db with workers :=
      Table.modify Worker.id id (fun worker => { f worker with updatedAt := now }) db.workers }

/-- `add_plan_snapshot`. -/
def addPlanSnapshot (id : PlanId) (fileId : FileId) (probeSnapshotId : String)
    (plan : ProcessingPlan) (now : Time) : Database × PlanSnapshot :=
  let snapshot : PlanSnapshot := {
    id := id
    trackedFileId := fileId
    probeSnapshotId := probeSnapshotId
    action := plan.action
    shouldTreatAsProtected := plan.shouldTreatAsProtected
    payload := plan
    createdAt := now }
  ({ db with planSnapshots := db.planSnapshots ++ [snapshot] }, snapshot)

/-- `add_decision`. -/
def addDecision (decision : ManualReviewDecision) : Database :=
  { db with decisions := db.decisions ++ [decision] }

end Database

/-! ## The state of a file -/

/-- `lifecycle_state_for_plan`. -/
def lifecycleStateForPlan (plan : ProcessingPlan) : FileLifecycleState :=
  if plan.action = .manualReview then .manualReview else .planned

/-- `compliance_state_for_plan`. -/
def complianceStateForPlan (plan : ProcessingPlan) : ComplianceState :=
  if plan.action = .manualReview then .manualReview
  else if plan.isAlreadyCompliant then .compliant
  else .nonCompliant

/-- `result_marks_file_processed`; `isPresent` says whether the output is there. -/
def resultMarksFileProcessed (result : ExecutionResult) (isPresent : PosixPath → Bool) : Bool :=
  result.status == .completed &&
    match result.replacement with
    | none => false
    | some replacement => replacement.status == .succeeded &&
      ((result.finalOutputPath <|> replacement.finalOutputPath).map isPresent).getD false

namespace TrackedFile

/-- `update_file_state_from_plan_result`. -/
def afterPlan (file : TrackedFile) (plan : ProcessingPlan) : TrackedFile :=
  { file with
    isProtected := plan.shouldTreatAsProtected || file.operatorProtected
    complianceState := complianceStateForPlan plan
    lifecycleState := lifecycleStateForPlan plan }

/-- `update_file_state_from_execution_result`. -/
def afterExecution (file : TrackedFile) (plan : ProcessingPlan) (result : ExecutionResult)
    (isPresent : PosixPath → Bool) : TrackedFile :=
  let file := { file with
    isProtected := plan.shouldTreatAsProtected || file.operatorProtected }
  if resultMarksFileProcessed result isPresent || result.status = .skipped then
    { file with
      lastProcessedPolicyVersion := some plan.policyContext.policyVersion
      lastProcessedProfileName := plan.policyContext.selectedProfileName
      lifecycleState := .completed
      complianceState := .compliant }
  else if result.status = .manualReview then
    { file with lifecycleState := .manualReview, complianceState := .manualReview }
  else if result.status = .cancelled then
    { file with
      lifecycleState := lifecycleStateForPlan plan
      complianceState := complianceStateForPlan plan }
  else
    { file with
      lifecycleState := .failed
      complianceState := if plan.action = .manualReview then .manualReview else .nonCompliant }

/-- `set_operator_protected`; `latestPlan` is the latest plan of the file. -/
def setOperatorProtected (file : TrackedFile) (value : Bool) (latestPlan : Option PlanSnapshot)
    (updatedAt : Time) : TrackedFile :=
  { file with
    operatorProtected := value
    operatorProtectedUpdatedAt := some updatedAt
    isProtected := if value then true else latestPlan.any (·.shouldTreatAsProtected) }

@[simp] theorem afterPlan_id (file : TrackedFile) (plan : ProcessingPlan) :
    (file.afterPlan plan).id = file.id := rfl

@[simp] theorem afterExecution_id (file : TrackedFile) (plan : ProcessingPlan)
    (result : ExecutionResult) (isPresent : PosixPath → Bool) :
    (file.afterExecution plan result isPresent).id = file.id := by
  unfold afterExecution
  dsimp only
  split_ifs <;> rfl

@[simp] theorem afterExecution_isProtected (file : TrackedFile) (plan : ProcessingPlan)
    (result : ExecutionResult) (isPresent : PosixPath → Bool) :
    (file.afterExecution plan result isPresent).isProtected =
      (plan.shouldTreatAsProtected || file.operatorProtected) := by
  unfold afterExecution
  dsimp only
  split_ifs <;> rfl

@[simp] theorem afterExecution_operatorProtected (file : TrackedFile) (plan : ProcessingPlan)
    (result : ExecutionResult) (isPresent : PosixPath → Bool) :
    (file.afterExecution plan result isPresent).operatorProtected = file.operatorProtected := by
  unfold afterExecution
  dsimp only
  split_ifs <;> rfl

end TrackedFile

/-! ## Which tables a change leaves alone -/

namespace Database

section Frame

variable (db : Database) {now : Time}

@[simp] theorem updateFile_jobs {id : FileId} {f : TrackedFile → TrackedFile} :
    (db.updateFile id f now).jobs = db.jobs := rfl

@[simp] theorem updateFile_planSnapshots {id : FileId} {f : TrackedFile → TrackedFile} :
    (db.updateFile id f now).planSnapshots = db.planSnapshots := rfl

@[simp] theorem updateFile_fileIds {id : FileId} {f : TrackedFile → TrackedFile}
    (hf : ∀ file, (f file).id = file.id) : (db.updateFile id f now).fileIds = db.fileIds :=
  Table.keys_modify fun file _ hid => (hf file).trans hid

@[simp] theorem updateFile_workers {id : FileId} {f : TrackedFile → TrackedFile} :
    (db.updateFile id f now).workers = db.workers := rfl

@[simp] theorem updateWorker_jobs {id : WorkerId} {f : Worker → Worker} :
    (db.updateWorker id f now).jobs = db.jobs := rfl

@[simp] theorem updateWorker_trackedFiles {id : WorkerId} {f : Worker → Worker} :
    (db.updateWorker id f now).trackedFiles = db.trackedFiles := rfl

@[simp] theorem updateWorker_workerKinds {id : WorkerId} {f : Worker → Worker}
    (hf : ∀ worker, (f worker).id = worker.id ∧ (f worker).workerType = worker.workerType) :
    (db.updateWorker id f now).workerKinds = db.workerKinds := by
  simp only [workerKinds, updateWorker, Table.modify, List.map_map]
  refine List.map_congr_left fun worker _ => ?_
  simp only [Function.comp_apply]
  split
  · exact Prod.ext (hf worker).1 (hf worker).2
  · rfl

@[simp] theorem updateWorker_planSnapshots {id : WorkerId} {f : Worker → Worker} :
    (db.updateWorker id f now).planSnapshots = db.planSnapshots := rfl

@[simp] theorem updateJob_planSnapshots {id : JobId} {f : Job → Job} :
    (db.updateJob id f now).planSnapshots = db.planSnapshots := rfl

@[simp] theorem updateJob_trackedFiles {id : JobId} {f : Job → Job} :
    (db.updateJob id f now).trackedFiles = db.trackedFiles := rfl

@[simp] theorem updateJob_workers {id : JobId} {f : Job → Job} :
    (db.updateJob id f now).workers = db.workers := rfl

@[simp] theorem addDecision_jobs {d : ManualReviewDecision} : (db.addDecision d).jobs = db.jobs :=
  rfl

@[simp] theorem addDecision_trackedFiles {d : ManualReviewDecision} :
    (db.addDecision d).trackedFiles = db.trackedFiles := rfl

@[simp] theorem addDecision_planSnapshots {d : ManualReviewDecision} :
    (db.addDecision d).planSnapshots = db.planSnapshots := rfl

@[simp] theorem addDecision_workers {d : ManualReviewDecision} :
    (db.addDecision d).workers = db.workers := rfl

end Frame

/-- The rows of a change of one job. -/
theorem updateJob_jobs (db : Database) (id : JobId) (f : Job → Job) (now : Time) :
    (db.updateJob id f now).jobs =
      db.jobs.map fun job => if job.id = id then { f job with updatedAt := now } else job := rfl

theorem trackedFile_id {db : Database} {id : FileId} {file : TrackedFile}
    (h : db.trackedFile id = some file) : file.id = id :=
  Table.key_of_find h

theorem planSnapshot_id {db : Database} {id : PlanId} {plan : PlanSnapshot}
    (h : db.planSnapshot id = some plan) : plan.id = id :=
  Table.key_of_find h

theorem mem_planIds {db : Database} {id : PlanId} :
    id ∈ db.planIds ↔ ∃ plan, db.planSnapshot id = some plan := by
  simp [planIds, planSnapshot, Table.find, ← Option.isSome_iff_exists]

theorem mem_fileIds {db : Database} {id : FileId} :
    id ∈ db.fileIds ↔ ∃ file, db.trackedFile id = some file := by
  simp [fileIds, trackedFile, Table.find, ← Option.isSome_iff_exists]

theorem mem_workerIds {db : Database} {id : WorkerId} :
    id ∈ db.workerIds ↔ ∃ t, (id, t) ∈ db.workerKinds := by
  simp [workerIds, workerKinds]

theorem worker_kind {db : Database} {id : WorkerId} {worker : Worker} (h : db.worker id = some worker) :
    (id, worker.workerType) ∈ db.workerKinds := by
  rw [← Table.key_of_find h]
  exact List.mem_map_of_mem (f := fun w : Worker => (w.id, w.workerType)) (Table.mem_of_find h)

theorem hasActiveJob_eq_false {db : Database} {fileId : FileId} :
    db.hasActiveJob fileId = false ↔
      ∀ job ∈ db.jobs, job.isActive = true → job.trackedFileId ≠ fileId := by
  simp only [hasActiveJob, List.any_eq_false, Bool.and_eq_true, decide_eq_true_eq, not_and]
  exact ⟨fun h job hj ha hf => h job hj hf ha, fun h job hj hf ha => h job hj ha hf⟩

end Database

end Encodr
