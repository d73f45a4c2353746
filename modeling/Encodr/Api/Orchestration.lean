import Encodr.Api.Workers

/-!
# The orchestration service

Two passes of `OrchestrationService.run_once` over the jobs: schedules open and close, and running
jobs whose worker has gone are interrupted.

* `refreshedJob`, `Database.refreshScheduledJobs`: schedules; a job that is due is promoted.
* `interruptionOf`, `Database.handleWorkerInterruptions`: the sweep over the running jobs.
-/

namespace Encodr

open Lib

/-- What `_refresh_scheduled_jobs` makes of a job. -/
def refreshedJob (calendar : Calendar) (now : Time) (job : Job) : Job :=
  if job.status = .scheduled ∧ job.scheduledForAt.any (now < ·) then job
  else if calendar.allowNow job.scheduleWindows now then
    if job.status = .scheduled then { job.promoteScheduled with updatedAt := now } else job
  else if job.scheduleWindows = [] then job
  else if job.status = .scheduled ∨ job.assignedWorkerId = none then
    { job.markScheduled (calendar.nextOpening job.scheduleWindows now) with updatedAt := now }
  else job

namespace Database

variable (db : Database)

/-- `list_jobs_for_scheduling`. -/
def jobsForScheduling : List Job :=
  ((db.jobs.filter Job.isQueued).insertionSort fun a b => jobOrder a b).take 200

/-- `_refresh_scheduled_jobs`. -/
def refreshScheduledJobs (calendar : Calendar) (now : Time) : Database :=
  let ids := db.jobsForScheduling.map (·.id)
  { db with jobs := db.jobs.map fun job =>
      if job.isQueued && ids.contains job.id then refreshedJob calendar now job else job }

/-- The order of `list_running_jobs`. -/
def runningOrder (a b : Job) : Bool :=
  ((compare (a.startedAt.getD 0) (b.startedAt.getD 0)).then
    ((compare a.createdAt b.createdAt).then (compare a.id b.id))).isLE

/-- `list_running_jobs`. -/
def runningJobs : List Job :=
  ((db.jobs.filter (·.status = .running)).insertionSort fun a b => runningOrder a b).take 200

/-- The last sign of life of a running job. -/
def lastContact (job : Job) : Time :=
  (job.progressUpdatedAt <|> job.startedAt).getD job.updatedAt

/-- Why `_handle_worker_interruptions` interrupts a running job, or `none`. -/
def interruptionOf (job : Job) (now : Time) : Option String :=
  if now - seconds 45 ≤ lastContact job then none
  else match job.assignedWorkerId.bind db.worker with
    | none => some "Worker assignment was lost before the job completed."
    | some worker =>
      if worker.workerType = .remote ∧ workerIsDispatchable worker now then none
      else if worker.workerType = .local ∧ worker.enabled then none
      else some ("The assigned worker went offline or stopped responding. Retry the job to restart " ++
        "it from the beginning.")

/-- The sweep interrupts the job. -/
def sweeps (now : Time) (job : Job) : Bool :=
  job.status = .running && (db.runningJobs.map (·.id)).contains job.id &&
    (db.interruptionOf job now).isSome

/-- A job that the sweep interrupts. -/
def sweptJob (now : Time) (job : Job) : Job :=
  { job.markInterrupted now ((db.interruptionOf job now).getD "") true with updatedAt := now }

/-- `_handle_worker_interruptions`. -/
def handleWorkerInterruptions (now : Time) : Database :=
  { db with jobs := db.jobs.map fun job => if db.sweeps now job then db.sweptJob now job else job }

end Database

/-! ## What the passes do -/

/-- The time of a scheduled job has come, and its windows are open. -/
def Job.isDue (calendar : Calendar) (now : Time) (job : Job) : Bool :=
  job.scheduledForAt.all (· ≤ now) && calendar.allowNow job.scheduleWindows now

section Specs

variable {calendar : Calendar} {db : Database} {job : Job} {now : Time} {uid : String} {r : Rights}
  {workers : List WorkerId}

/-- A queued job whose schedule opens or closes. -/
theorem queued_managed {job' : Job} (hq : job.isQueued = true) (hq' : job'.isQueued = true)
    (hcore : job'.core = { job.core with status := job'.status })
    (hpromoted : job.status = .scheduled → job'.status = .pending → r.promotes job) :
    job.Managed r workers job' := by
  have hst : ∀ j : Job, j.isQueued = true → j.status = .pending ∨ j.status = .scheduled := by
    intro j hj
    simp only [Job.isQueued, Bool.and_eq_true, Bool.or_eq_true, beq_iff_eq] at hj
    exact hj.1
  have hcleared : job'.clearedAt = job.clearedAt := congrArg JobCore.clearedAt hcore
  have hcancellation : job'.cancellationRequestedAt = job.cancellationRequestedAt :=
    congrArg JobCore.cancellationRequestedAt hcore
  have houtput : job'.outputPath = job.outputPath := congrArg JobCore.outputPath hcore
  have hverification : job'.verificationStatus = job.verificationStatus :=
    congrArg JobCore.verificationStatus hcore
  refine .of_idle ?_ ?_ (congrArg JobCore.terms hcore) ?_ (hcleared ▸ ·) (hcancellation ▸ ·)
    (houtput ▸ ·) ?_ hpromoted (hverification ▸ ·) ?_
  · rcases hst job hq with h | h <;> rw [h] <;> simp
  · rcases hst job hq with h | h <;> rw [h] <;> simp
  · rcases hst job hq with h | h <;> rcases hst job' hq' with h' | h' <;> rw [h, h'] <;> rfl
  · rcases hst job hq with h | h <;> rw [h] <;> simp [JobStatus.isActive]
  · rcases hst job' hq' with h | h <;> rw [h] <;> simp

theorem refreshedJob_managed (hq : job.isQueued = true)
    (hr : job.isDue calendar now = true → r.promotes job) :
    job.Managed r workers (refreshedJob calendar now job) := by
  have hcleared : job.clearedAt = none := by
    simp only [Job.isQueued, Bool.and_eq_true, Option.isNone_iff_eq_none] at hq
    exact hq.2
  unfold refreshedJob
  split
  · exact .refl job
  · next hwaits =>
    split
    · next hopen =>
      split
      · next hscheduled =>
        refine queued_managed hq (by simp [Job.isQueued, Job.promoteScheduled, hcleared]) rfl
          fun _ _ => hr ?_
        simp only [Job.isDue, Bool.and_eq_true]
        refine ⟨?_, hopen⟩
        cases ht : job.scheduledForAt with
        | none => rfl
        | some time =>
          simp only [hscheduled, ht, Option.any_some, true_and, decide_eq_true_eq] at hwaits
          simpa using hwaits
      · exact .refl job
    · split
      · exact .refl job
      · split
        · exact queued_managed hq (by simp [Job.isQueued, Job.markScheduled, hcleared]) rfl
            fun _ hp => by cases hp
        · exact .refl job

namespace Database

theorem refreshScheduledJobs_evolves (hr : ∀ job, job.isDue calendar now = true → r.promotes job) :
    db.Evolves (Job.Managed r workers) uid none (db.refreshScheduledJobs calendar now) := by
  refine .of_map fun job _ => ?_
  split
  · next hq =>
    exact refreshedJob_managed (Bool.and_eq_true_iff.mp hq).1 (hr job)
  · exact .refl job

theorem running_of_sweeps (h : db.sweeps now job = true) : job.status = .running := by
  simp only [sweeps, Bool.and_eq_true, decide_eq_true_eq] at h
  exact h.1.1

/-- The sweep changes the running jobs that it interrupts. -/
theorem handleWorkerInterruptions_evolves :
    db.Evolves (fun job job' => job' = if db.sweeps now job then db.sweptJob now job else job) uid none
      (db.handleWorkerInterruptions now) :=
  .of_map fun _ _ => rfl

end Database

end Specs

end Encodr
