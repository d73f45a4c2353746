import Encodr.System.Invariant

/-!
# Executions and the sweep

A file has one active job, so two executions of one file need a sweep between their claims: it
interrupts the job of the first, which goes on. The sweep interrupts a silent job where its worker
is gone; a worker that is there keeps its jobs, also those that no process executes any more.

* `one_execution_per_file`: of two executions of one file, the sweep has interrupted the job of one.
* `sweep_interrupts_iff`: which silent jobs the sweep interrupts.
-/

namespace Encodr

open Python Lib

variable {C : Type}

/-! ## One execution for each file -/

/-- The job of an execution that the sweep has not interrupted is active. -/
theorem Row.isActive {db : Database} {issued : List String} {k : Claim} {job : Job}
    (h : Row db issued k false job) : job.isActive = true := by
  have hheld := h.held rfl
  simp [Job.isActive, JobStatus.isActive, hheld.running, hheld.uncleared]

/-- Two executions of one file whose jobs the sweep has not interrupted are one. -/
theorem one_execution_per_file (c : Settings) {s : State} (h : (machine c C).Reachable s)
    {x y : Execution} (hx : x ∈ s.live) (hy : y ∈ s.live)
    (hfile : x.trackedFileId = y.trackedFileId) (hxs : x.swept = false) (hys : y.swept = false) :
    x = y := by
  have hI : s.Inv := .of_reach h
  obtain ⟨job, hjob⟩ := hI.rows x hx
  obtain ⟨job', hjob'⟩ := hI.rows y hy
  rw [hxs] at hjob
  rw [hys] at hjob'
  have hsame : job.trackedFileId = job'.trackedFileId := by
    rw [hjob.file, hjob'.file]
    exact hfile
  have hid := hI.sound.onePer job hjob.mem job' hjob'.mem hjob.isActive hjob'.isActive hsame
  rw [hjob.id, hjob'.id] at hid
  exact List.inj_on_of_nodup_map hI.nodup hx hy hid

/-- The worker `a` falls silent, its job is interrupted and retried, and the worker `b` takes the
retry. -/
def twoWorkersRun : List (Action String) := remoteFilmRun ++ [
  actAt 10 "sweep" .sweep,
  actAt 11 "job2" (.request (.retryJob "job1" "fail")),
  actAt 11 "b" (registers "b"),
  actAt 11 "claim2" (.claim "b" "job2" true film)]

theorem one_execution_per_file_film :
    ∃ x ∈ (homeAfter remoteFilmRun).live, ∃ y ∈ (homeAfter remoteFilmRun).live,
      x.trackedFileId = "film" ∧ y.trackedFileId = "film" ∧ x = y := by
  have hlive : ∃ x ∈ (homeAfter remoteFilmRun).live, x.trackedFileId = "film" ∧ x.swept = false := by decide
  obtain ⟨x, hx, hfile, hswept⟩ := hlive
  exact ⟨x, hx, x, hx, hfile, hfile, one_execution_per_file home
    (home_reachable remoteFilmRun (by decide)) hx hx rfl hswept hswept⟩

/-- Both workers execute a job of the film. -/
theorem two_workers_execute : (machine home String).Reachable (homeAfter twoWorkersRun) ∧
    (homeAfter twoWorkersRun).live.map (fun x => (x.jobId, x.workerId, x.trackedFileId)) =
      [("job1", "a", "film"), ("job2", "b", "film")] :=
  ⟨home_reachable twoWorkersRun (by decide), by decide⟩

/-! ## What the sweep interrupts -/

/-- The assignment of the job is lost, its remote worker is not dispatchable, or its local worker is
disabled. -/
def Database.HasLostWorker (db : Database) (now : Time) (job : Job) : Prop :=
  ∀ worker, job.assignedWorkerId.bind db.worker = some worker →
    (worker.workerType = .remote → workerIsDispatchable worker now = false) ∧
      (worker.workerType = .local → worker.enabled = false)

/-- The job is over: it takes no capacity of a worker, and its file is free. -/
structure Job.Recovered (job : Job) : Prop where
  status : job.status = .interrupted
  inactive : job.isActive = false
  unassigned : job.assignedWorkerId = none

section Sweep

variable {db : Database} {issued : List String} {now : Time} {job : Job}

theorem Database.interruptionOf_isSome (hstale : Database.lastContact job < now - seconds 45) :
    (db.interruptionOf job now).isSome = true ↔ db.HasLostWorker now job := by
  rw [interruptionOf, if_neg (not_le.mpr hstale), HasLostWorker]
  cases job.assignedWorkerId.bind db.worker with
  | none => simp
  | some worker =>
    simp only [Option.some.injEq, forall_eq']
    cases worker.workerType <;> by_cases hd : workerIsDispatchable worker now = true <;>
      by_cases he : worker.enabled = true <;> simp [hd, he]

theorem Database.mem_of_mem_runningJobs (h : job ∈ db.runningJobs) : job ∈ db.jobs :=
  List.mem_of_mem_filter ((List.mem_insertionSort _).mp (List.mem_of_mem_take h))

theorem Database.sweeps_iff (hs : db.Sound issued) (hj : job ∈ db.jobs)
    (hrunning : job.status = .running) (hstale : Database.lastContact job < now - seconds 45) :
    db.sweeps now job = true ↔ job ∈ db.runningJobs ∧ db.HasLostWorker now job := by
  simp only [sweeps, hrunning, decide_true, Bool.true_and, Bool.and_eq_true, List.contains_iff_mem,
    interruptionOf_isSome hstale]
  refine and_congr_left fun _ => ⟨fun hid => ?_, List.mem_map_of_mem⟩
  obtain ⟨row, hrow, hid⟩ := List.mem_map.mp hid
  rwa [← hs.eq_of_id (mem_of_mem_runningJobs hrow) hj hid]

theorem Database.sweptJob_recovered : (db.sweptJob now job).Recovered :=
  ⟨rfl, rfl, rfl⟩

end Sweep

/-- A sweep recovers a running job after 45 s of silence where it is among the first 200 running jobs
and its worker is gone, and only there. -/
theorem sweep_interrupts_iff (c : Settings) {s s' : State} {a : Action C}
    (h : (machine c C).Reachable s) (hop : a.op = .sweep) (hstep : step c s a = some s') {job : Job}
    (hj : job ∈ s.db.jobs) (hrunning : job.status = .running)
    (hstale : Database.lastContact job < a.now - seconds 45) :
    (∃ job' ∈ s'.db.jobs, job'.id = job.id ∧ job'.Recovered) ↔
      job ∈ s.db.runningJobs ∧ s.db.HasLostWorker a.now job := by
  have hI : s.Inv := .of_reach h
  obtain ⟨-, hs'⟩ := Option.ite_none_left_eq_some.mp hstep
  rw [hop] at hs'
  obtain rfl := Option.some.inj hs'
  rw [← Database.sweeps_iff hI.sound hj hrunning hstale]
  constructor
  · rintro ⟨job', hjob', hid, hrecovered⟩
    obtain ⟨row, hrow, rfl⟩ := List.mem_map.mp hjob'
    by_cases hsweeps : s.db.sweeps a.now row = true
    · rw [if_pos hsweeps] at hid
      exact hI.sound.eq_of_id hrow hj hid ▸ hsweeps
    · rw [if_neg hsweeps] at hid hrecovered
      obtain rfl := hI.sound.eq_of_id hrow hj hid
      exact nomatch hrunning.symm.trans hrecovered.status
  · intro hsweeps
    refine ⟨s.db.sweptJob a.now job, ?_, rfl, Database.sweptJob_recovered⟩
    exact List.mem_map.mpr ⟨job, hj, if_pos hsweeps⟩

theorem sweep_interrupts_iff_film :
    ∃ job ∈ (homeAfter remoteFilmRun).db.jobs,
      ((∃ job' ∈ (homeAfter (remoteFilmRun ++ [actAt 10 "sweep" .sweep])).db.jobs,
          job'.id = job.id ∧ job'.Recovered) ↔
        job ∈ (homeAfter remoteFilmRun).db.runningJobs ∧
          (homeAfter remoteFilmRun).db.HasLostWorker (seconds 600) job) := by
  have hstatus : ∀ job ∈ (homeAfter remoteFilmRun).db.jobs, job.status = .running ∧
      Database.lastContact job < seconds 600 - seconds 45 := by decide
  have hne : (homeAfter remoteFilmRun).db.jobs ≠ [] := by decide
  obtain ⟨job, hj⟩ := List.exists_mem_of_ne_nil _ hne
  exact ⟨job, hj, sweep_interrupts_iff home (a := actAt 10 "sweep" .sweep)
    (home_reachable remoteFilmRun (by decide)) rfl rfl hj (hstatus job hj).1 (hstatus job hj).2⟩

/-- The local worker crashes. -/
def crashRun : List (Action String) := localFilmRun ++ [actAt 2 "stop" (.work "job1" .stop)]

/-- A sweep an hour later. -/
def sweptCrashRun : List (Action String) := crashRun ++ [actAt 60 "sweep" .sweep]

/-- No process executes the job, and the sweep leaves it running: it keeps the capacity of its worker
and its file. -/
theorem crashed_job_stays :
    ((machine home String).Reachable (homeAfter crashRun) ∧ (homeAfter crashRun).live = [] ∧
      ∀ job ∈ (homeAfter crashRun).db.jobs, job.status = .running ∧
        Database.lastContact job < seconds 3600 - seconds 45) ∧
    (homeAfter sweptCrashRun).db.jobs.map (fun job => (job.id, job.status)) = [("job1", .running)] ∧
      (homeAfter sweptCrashRun).db.countActiveAssignments "local" = 1 ∧
      (homeAfter sweptCrashRun).db.hasActiveJob "film" = true :=
  ⟨⟨home_reachable crashRun (by decide), by decide, by decide⟩, by decide, by decide, by decide⟩

end Encodr
