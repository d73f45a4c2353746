import Encodr.System.Steps

/-!
# Terminal statuses

Outside of what an operator does with a job, a terminal status stays, but for one writer: the local
worker records its result without a look at the status of the row.

* `recordsOver`: a result of the local worker that meets another terminal status.
* `terminal_status_stays`: without such a record, a terminal status stays.
-/

namespace Encodr

open Python Lib

variable {C : Type}

/-- The local worker records a result in a row that has another terminal status. -/
def recordsOver (s : State) (a : Action C) : Bool :=
  match a.op with
  | .work jobId (.finishLocal _) =>
    (s.execution jobId).any fun x => (s.db.job jobId).any fun job =>
      match x.phase with
      | .finished result => job.status != .running && job.status != result.status.jobStatus
      | _ => false
  | _ => false

section Statuses

variable {c : Settings} {s s' : State} {a : Action C} {job job' : Job}

/-- A recorded result leaves the status of a row that was not running, unless it is recorded over
it. -/
theorem Recorded.status_stays (hI : s.Inv) {x : Execution} {plan : PlanSnapshot}
    {appliedPlan : ProcessingPlan} {result : ExecutionResult} {status : JobStatus}
    (h : Recorded c s a x job plan appliedPlan result) (hover : recordsOver s a = false) (hx : x ∈ s.live)
    (hj : job ∈ s.db.jobs) (hid : x.jobId = job.id) (hterminal : job.status.isActive = false)
    (hstatus : status = result.status.jobStatus ∨ result.status = .failed ∧ status = .manualReview) :
    status = job.status := by
  have hrunning : job.status ≠ .running := by
    intro hrunning
    rw [hrunning] at hterminal
    cases hterminal
  cases h with
  | submitted _ _ _ _ hreports => exact absurd hreports.running hrunning
  | failed _ _ hauth =>
    obtain ⟨worker, -, hreports⟩ := hauth
    exact absurd hreports.running hrunning
  | finished _ hop hphase =>
    have hrow : s.db.job x.jobId = some job := hid ▸ hI.sound.job_of_mem hj
    have hsame : job.status = result.status.jobStatus := by
      simpa [recordsOver, hop, hI.execution_of_mem hx, hrow, hphase, hrunning] using hover
    rcases hstatus with hstatus | ⟨hfailed, -⟩
    · rw [hstatus, hsame]
    · have hclaimed := (hI.row_of_mem hx hj hid).claimed
      rw [hsame, hfailed] at hclaimed
      cases hclaimed

/-- A row with a terminal status, after a move in which no result is recorded over it. -/
theorem RowMove.status_stays (hI : s.Inv) (h : RowMove c s a s' job job') (hover : recordsOver s a = false)
    (hj : job ∈ s.db.jobs) (hterminal : job.status.isActive = false)
    (hoperator : ¬ (a.op.rights c s a.now).resolves job) : job'.status = job.status := by
  cases h with
  | managed workers h => exact (h.resolved hterminal).resolve_right hoperator
  | approved workers itemId h => exact (h.resolved hterminal).resolve_right hoperator
  | swept h =>
    rw [Database.running_of_sweeps h] at hterminal
    cases hterminal
  | claimed worker pending uncleared =>
    rw [pending] at hterminal
    cases hterminal
  | recorded hx hid recorded hstatus h =>
    exact h.status.trans (recorded.status_stays hI hover hx hj hid hterminal hstatus)

end Statuses

/-- In a run in which no result is recorded over a terminal status, a terminal status stays, but for
what an operator does with the job. -/
theorem terminal_status_stays (c : Settings) {s s' : State} {a : Action C}
    (h : (machine c C).Reach (fun s a => recordsOver s a = false) s) (hover : recordsOver s a = false)
    (hstep : step c s a = some s') {job job' : Job} (hj : job ∈ s.db.jobs)
    (hterminal : job.status.isActive = false) (hoperator : ¬ (a.op.rights c s a.now).resolves job)
    (hj' : job' ∈ s'.db.jobs) (hid : job'.id = job.id) : job'.status = job.status := by
  have hI : s.Inv := .of_reach h
  obtain ⟨hfresh, s₁, hmove, rfl⟩ := step_move hI.sound hstep
  exact (hmove.row hI hfresh hj hj' hid).status_stays hI hover hj hterminal hoperator

/-- The sweep interrupts the job of the worker `a`, and the process of the worker ends. -/
theorem terminal_status_stays_film :
    ∃ job ∈ (homeAfter (remoteFilmRun ++ [actAt 10 "sweep" .sweep])).db.jobs,
    ∃ job' ∈ (homeAfter (remoteFilmRun ++ [actAt 10 "sweep" .sweep,
      actAt 11 "stop" (.work "job1" .stop)])).db.jobs,
      job'.id = job.id ∧ job.status = .interrupted ∧ job'.status = job.status := by
  have hrows : ∃ job ∈ (homeAfter (remoteFilmRun ++ [actAt 10 "sweep" .sweep])).db.jobs,
      ∃ job' ∈ (homeAfter (remoteFilmRun ++ [actAt 10 "sweep" .sweep,
        actAt 11 "stop" (.work "job1" .stop)])).db.jobs,
        job'.id = job.id ∧ job.status = .interrupted := by decide
  obtain ⟨job, hj, job', hj', hid, hstatus⟩ := hrows
  refine ⟨job, hj, job', hj', hid, hstatus, ?_⟩
  exact terminal_status_stays home (a := actAt 11 "stop" (.work "job1" .stop))
    (home_reach recordsOver (remoteFilmRun ++ [actAt 10 "sweep" .sweep]) (by decide)) rfl rfl hj
    (by rw [hstatus]; rfl) id hj' hid

/-! ## The local worker records over an interruption -/

/-- The local worker is disabled while it verifies the film, the sweep interrupts its job, and the
worker goes on. -/
def overwritingRun : List (Action String) := localFilmRun ++ [
  actAt 1 "disable" (.request (.setWorkerEnabled "local" false)),
  actAt 10 "sweep" .sweep] ++ replacesFilm

/-- The interrupted job becomes completed, without an act of an operator. -/
theorem local_result_overwrites :
    (machine home String).Reachable (homeAfter overwritingRun) ∧
    (homeAfter overwritingRun).db.jobs.map (fun job => (job.id, job.status)) =
      [("job1", .interrupted)] ∧
    (homeAfter (overwritingRun ++ [actAt 11 "finish" (.work "job1" (.finishLocal none))])).db.jobs.map
      (fun job => (job.id, job.status)) = [("job1", .completed)] :=
  ⟨home_reachable overwritingRun (by decide), by decide, by decide⟩

end Encodr
