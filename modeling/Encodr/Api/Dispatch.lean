import Encodr.Api.Runnability
import Encodr.Api.ScheduleRefresh
import Encodr.Api.Workers

/-!
# Dispatch

The local worker takes a job from the queue (`run_once_with_summary`), a remote worker is offered one
(`request_job`). Both look at the oldest 25 jobs that a query selects for them, and take the first of these
that they may run.

* `JobQueue`: the queue as the query loads it.
* `JobQueue.runOnce`, `JobQueue.requestJob`: the two dispatch steps.
* `dispatch_complete`: when they find a job.
* `preference_iff`: what a preferred worker keeps from the others.
-/

namespace Encodr

open Python Lib

/-! ## The queue -/

/-- The row of a job with what the query loads beside it: its plan, the probe of the plan and the path of the
file. -/
structure QueuedJob extends Job where
  preferredBackendOverride : Option String := none
  plan : ProcessingPlan
  media : MediaFile
  sourcePath : PosixPath

/-- The jobs of the tables, as they are loaded. -/
structure JobQueue where
  db : Database
  rows : List QueuedJob
  jobs_eq : db.jobs = rows.map (·.toJob)

/-- The row of the local worker, with what its machine probes. -/
structure LocalWorker extends Worker where
  preferredBackend : String := "cpu_only"
  allowCpuFallback : Bool := true
  probes : List HardwareProbe := []
  windows : Bool := false

/-- Where an ascending order by `assigned_worker_id == worker.id` is turned around: a database puts rows
without a value first, or last. -/
def assignmentRank (nullsFirst : Bool) (workerId : WorkerId) (job : Job) : Nat :=
  match job.assignedWorkerId with
  | none => if nullsFirst then 0 else 3
  | some id => if id = workerId then 1 else 2

/-- The order of `fetch_next_pending_remote_jobs`. -/
def remoteJobOrder (nullsFirst : Bool) (workerId : WorkerId) (a b : Job) : Bool :=
  ((compare (assignmentRank nullsFirst workerId a) (assignmentRank nullsFirst workerId b)).then
    ((compare a.createdAt b.createdAt).then (compare a.id b.id))).isLE

/-- What `fetch_next_pending_local_jobs` selects. -/
def Job.waitsForLocal (job : Job) : Bool :=
  job.status = .pending ∧ job.clearedAt = none ∧ job.assignedWorkerId = none ∧
    (job.requestedWorkerType = none ∨ job.requestedWorkerType = some .local)

/-- What `fetch_next_pending_remote_jobs` selects. -/
def Job.waitsForRemote (workerId : WorkerId) (job : Job) : Bool :=
  job.status = .pending ∧ job.clearedAt = none ∧
    (job.requestedWorkerType = none ∨ job.requestedWorkerType = some .remote) ∧
    (job.assignedWorkerId = none ∨ job.assignedWorkerId = some workerId)

/-- `_effective_preferred_backend`. -/
def effectivePreferredBackend (job : QueuedJob) (defaultBackend : String) : BackendPreference :=
  normaliseBackendPreferenceKey (some (textOr job.preferredBackendOverride defaultBackend))

/-- `_job_is_locally_compatible`. -/
def jobIsLocallyCompatible (worker : LocalWorker) (job : QueuedJob) : Bool :=
  let preferred := effectivePreferredBackend job (textOr (some worker.preferredBackend) "cpu_only")
  !job.plan.video.transcodeRequired ||
    (selectExecutionBackend {
      preferredBackend := preferred
      allowCpuFallback := worker.allowCpuFallback
      probe := agentProbe worker.probes preferred
      windows := worker.windows } job.plan.video.targetCodec).isOk

/-- `_ensure_remote_worker_can_execute`. -/
def ensureRemoteWorkerCanExecute (worker : RemoteWorker) : Except ApiError Unit := do
  require (worker.workerType = .remote) (.conflict "Only remote workers can poll for remote work.")
  require (worker.enabled = true) (.conflict "The worker is not currently enabled for execution.")
  require (worker.registrationStatus = .registered)
    (.conflict "The worker has not completed pairing yet.")
  require (worker.lastHealthStatus ≠ .failed)
    (.conflict "The worker last reported a failed health state.")
  require (worker.capability.ffmpeg = true ∧ worker.capability.ffprobe = true)
    (.conflict "The worker has not reported usable FFmpeg and FFprobe support.")
  require (worker.capability.executionModes ≠ [])
    (.conflict "The worker has not reported any execution modes.")
  require (worker.runtime.scratchStatus.all fun status =>
      status = none ∨ status = some "healthy" ∨ status = some "unknown")
    (.conflict "The worker scratch path is not ready for execution.")

namespace JobQueue

variable (queue : JobQueue)

/-- The jobs that wait for the local worker, in their order. -/
def localQueue : List QueuedJob :=
  (queue.rows.filter (·.waitsForLocal)).insertionSort fun a b => Database.jobOrder a.toJob b.toJob

/-- `fetch_next_pending_local_jobs`. -/
def fetchNextPendingLocalJobs (limit : Nat := 25) : List QueuedJob :=
  queue.localQueue.take limit

/-- The jobs that wait for a remote worker, in their order. -/
def remoteQueue (nullsFirst : Bool) (workerId : WorkerId) : List QueuedJob :=
  (queue.rows.filter (·.waitsForRemote workerId)).insertionSort
    fun a b => remoteJobOrder nullsFirst workerId a.toJob b.toJob

/-- `fetch_next_pending_remote_jobs`. -/
def fetchNextPendingRemoteJobs (nullsFirst : Bool) (workerId : WorkerId) (limit : Nat := 25) :
    List QueuedJob :=
  (queue.remoteQueue nullsFirst workerId).take limit

/-- What the local worker asks of a candidate. -/
def allowsLocal (calendar : Calendar) (worker : LocalWorker) (now : Time) (job : QueuedJob) : Bool :=
  jobAllowsWorker calendar job.toJob worker.toWorker (queue.db.preferredWorker job.toJob) now &&
    jobIsLocallyCompatible worker job

/-- What the server asks of a candidate for a remote worker. -/
def allowsRemote (os : PathOs) (calendar : Calendar) (worker : RemoteWorker) (now : Time)
    (job : QueuedJob) : Bool :=
  jobAllowsWorker calendar job.toJob worker.toWorker (queue.db.preferredWorker job.toJob) now &&
    remoteWorkerCanRunJob os worker job.plan job.sourcePath job.preferredBackendOverride

/-- `run_once_with_summary` up to the claim: the tables with the claim, and the job. -/
def runOnce (calendar : Calendar) (worker : LocalWorker) (now : Time) : Option (Database × Job) := do
  guard (worker.enabled = true ∧ worker.registrationStatus ≠ .disabled)
  let job ← queue.fetchNextPendingLocalJobs.find? (queue.allowsLocal calendar worker now)
  queue.db.claimPendingForWorker job.id worker.toWorker now

/-- `request_job`: the payload of the job that is offered. -/
def requestJob (os : PathOs) (calendar : Calendar) (nullsFirst : Bool) (worker : RemoteWorker)
    (now : Time) : Except ApiError (Option RemoteJobPayload) := do
  ensureRemoteWorkerCanExecute worker
  let activeAssignments := queue.db.countActiveAssignments worker.id
  let maxConcurrentJobs := max 1 worker.maxConcurrentJobs
  let compatibleJobs := (queue.fetchNextPendingRemoteJobs nullsFirst worker.id).filter
    (queue.allowsRemote os calendar worker now)
  let assigned := compatibleJobs.find? fun job =>
    job.assignedWorkerId = some worker.id ∧ activeAssignments < maxConcurrentJobs
  if assigned = none ∧ activeAssignments ≥ maxConcurrentJobs then return none
  match assigned <|> compatibleJobs.find? fun job => job.assignedWorkerId = none with
  | none => return none
  | some job => return buildRemoteJobPayload os worker job.toJob job.plan job.media job.sourcePath

end JobQueue

/-! ## Completeness -/

section Candidates

variable {queue : JobQueue} {job : QueuedJob}

theorem JobQueue.mem_jobs (h : job ∈ queue.rows) : job.toJob ∈ queue.db.jobs := by
  rw [queue.jobs_eq]
  exact List.mem_map_of_mem h

/-- A row that was loaded is the row of its id. -/
theorem JobQueue.job_eq (hids : queue.db.jobIds.Nodup) (h : job ∈ queue.rows) :
    queue.db.job job.id = some job.toJob :=
  Table.find_of_mem hids (JobQueue.mem_jobs h)

theorem JobQueue.mem_localQueue : job ∈ queue.localQueue ↔
    job ∈ queue.rows ∧ job.waitsForLocal = true := by
  rw [JobQueue.localQueue, List.mem_insertionSort, List.mem_filter]

theorem JobQueue.mem_remoteQueue {nullsFirst : Bool} {workerId : WorkerId} :
    job ∈ queue.remoteQueue nullsFirst workerId ↔
      job ∈ queue.rows ∧ job.waitsForRemote workerId = true := by
  rw [JobQueue.remoteQueue, List.mem_insertionSort, List.mem_filter]

/-- A worker with a free place claims a job that waits for it. -/
theorem claimPendingForWorker_isSome {db : Database} {job : Job} {worker : Worker} (now : Time)
    (hfree : db.countActiveAssignments worker.id < max 1 worker.maxConcurrentJobs)
    (hjob : db.job job.id = some job) (hpending : job.status = .pending) (hcleared : job.clearedAt = none)
    (hassigned : job.assignedWorkerId = none ∨ job.assignedWorkerId = some worker.id) :
    (db.claimPendingForWorker job.id worker now).isSome = true := by
  have hguard : job.status = .pending ∧ job.clearedAt = none ∧
      (job.assignedWorkerId = none ∨ job.assignedWorkerId = some worker.id) :=
    ⟨hpending, hcleared, hassigned⟩
  simp [Database.claimPendingForWorker, hfree, hjob, guard, hguard, bind, pure]

/-- The local worker finds a job when it may run one of the candidates. -/
theorem runOnce_isSome (calendar : Calendar) {worker : LocalWorker} (now : Time)
    (hids : queue.db.jobIds.Nodup)
    (hready : worker.enabled = true ∧ worker.registrationStatus ≠ .disabled)
    (hfree : queue.db.countActiveAssignments worker.id < max 1 worker.maxConcurrentJobs) :
    (queue.runOnce calendar worker now).isSome = true ↔
      ∃ job ∈ queue.fetchNextPendingLocalJobs, queue.allowsLocal calendar worker now job = true := by
  rw [← List.find?_isSome]
  unfold JobQueue.runOnce
  rw [guard, if_pos hready, pure_bind]
  cases hfind : queue.fetchNextPendingLocalJobs.find? (queue.allowsLocal calendar worker now) with
  | none => simp
  | some job =>
    obtain ⟨hrow, hwaits⟩ := JobQueue.mem_localQueue.mp (List.mem_of_mem_take (List.mem_of_find?_eq_some hfind))
    have hwaits := of_decide_eq_true hwaits
    have hclaim := claimPendingForWorker_isSome now hfree (JobQueue.job_eq hids hrow) hwaits.1
      hwaits.2.1 (.inl hwaits.2.2.1)
    exact iff_of_true hclaim rfl

/-- Of jobs that are assigned to a worker or to none, one is chosen. -/
theorem exists_chosen {jobs : List QueuedJob} {workerId : WorkerId}
    (hassigned : ∀ job ∈ jobs, job.assignedWorkerId = none ∨ job.assignedWorkerId = some workerId)
    (hjob : job ∈ jobs) :
    ∃ chosen ∈ jobs, (jobs.find? (·.assignedWorkerId = some workerId) <|>
      jobs.find? (·.assignedWorkerId = none)) = some chosen := by
  cases hmine : jobs.find? (·.assignedWorkerId = some workerId) with
  | some chosen => exact ⟨chosen, List.mem_of_find?_eq_some hmine, rfl⟩
  | none =>
    have hfree : (jobs.find? (·.assignedWorkerId = none)).isSome = true := by
      refine List.find?_isSome.mpr ⟨job, hjob, decide_eq_true ?_⟩
      refine (hassigned job hjob).resolve_right fun h => ?_
      exact List.find?_eq_none.mp hmine job hjob (decide_eq_true h)
    obtain ⟨chosen, hchosen⟩ := Option.isSome_iff_exists.mp hfree
    exact ⟨chosen, List.mem_of_find?_eq_some hchosen, hchosen⟩

/-- A remote worker is offered a job when it may run one of the candidates. -/
theorem requestJob_isSome (os : PathOs) (calendar : Calendar) (nullsFirst : Bool) {worker : RemoteWorker}
    (now : Time) (hready : ensureRemoteWorkerCanExecute worker = .ok ())
    (hfree : queue.db.countActiveAssignments worker.id < max 1 worker.maxConcurrentJobs) :
    (∃ payload, queue.requestJob os calendar nullsFirst worker now = .ok (some payload)) ↔
      ∃ job ∈ queue.fetchNextPendingRemoteJobs nullsFirst worker.id,
        queue.allowsRemote os calendar worker now job = true := by
  have hnotfull : ¬ queue.db.countActiveAssignments worker.id ≥ max 1 worker.maxConcurrentJobs :=
    not_le.mpr hfree
  unfold JobQueue.requestJob
  rw [show ensureRemoteWorkerCanExecute worker = pure () from hready, pure_bind]
  simp only [hnotfull, hfree, and_false, and_true, if_false]
  constructor
  · rintro ⟨payload, h⟩
    by_contra hnone
    have hempty : (queue.fetchNextPendingRemoteJobs nullsFirst worker.id).filter
        (queue.allowsRemote os calendar worker now) = [] :=
      List.filter_eq_nil_iff.mpr fun job hjob hallows => hnone ⟨job, hjob, hallows⟩
    rw [hempty] at h
    cases h
  · rintro ⟨job, hjob, hallows⟩
    have hassigned : ∀ job ∈ (queue.fetchNextPendingRemoteJobs nullsFirst worker.id).filter
        (queue.allowsRemote os calendar worker now),
        job.assignedWorkerId = none ∨ job.assignedWorkerId = some worker.id := by
      intro job hjob
      have hwaits := (JobQueue.mem_remoteQueue.mp (List.mem_of_mem_take (List.mem_filter.mp hjob).1)).2
      exact (of_decide_eq_true hwaits).2.2.2
    obtain ⟨chosen, hmem, hchosen⟩ := exists_chosen hassigned (List.mem_filter.mpr ⟨hjob, hallows⟩)
    obtain ⟨-, hallowed⟩ := List.mem_filter.mp hmem
    obtain ⟨payload, hpayload, -⟩ := buildRemoteJobPayload_of_approved
      (Bool.and_eq_true_iff.mp hallowed).2 chosen.toJob chosen.media
    rw [hchosen]
    exact ⟨payload, congrArg Except.ok hpayload⟩

end Candidates

/-- With a free place, a worker that is ready finds a job exactly when it may run one of the oldest 25 of the
jobs that wait for it. Where no more than 25 do, this is when it may run any job of the queue. -/
theorem dispatch_complete (queue : JobQueue) (hids : queue.db.jobIds.Nodup) (os : PathOs)
    (calendar : Calendar) (nullsFirst : Bool) (now : Time) :
    (∀ worker : LocalWorker, worker.enabled = true ∧ worker.registrationStatus ≠ .disabled →
      queue.db.countActiveAssignments worker.id < max 1 worker.maxConcurrentJobs →
      ((queue.runOnce calendar worker now).isSome = true ↔
        ∃ job ∈ queue.localQueue.take 25, queue.allowsLocal calendar worker now job = true) ∧
      (queue.localQueue.length ≤ 25 → ((queue.runOnce calendar worker now).isSome = true ↔
        ∃ job ∈ queue.rows, job.waitsForLocal = true ∧
          queue.allowsLocal calendar worker now job = true))) ∧
    (∀ worker : RemoteWorker, ensureRemoteWorkerCanExecute worker = .ok () →
      queue.db.countActiveAssignments worker.id < max 1 worker.maxConcurrentJobs →
      ((∃ payload, queue.requestJob os calendar nullsFirst worker now = .ok (some payload)) ↔
        ∃ job ∈ (queue.remoteQueue nullsFirst worker.id).take 25,
          queue.allowsRemote os calendar worker now job = true) ∧
      ((queue.remoteQueue nullsFirst worker.id).length ≤ 25 →
        ((∃ payload, queue.requestJob os calendar nullsFirst worker now = .ok (some payload)) ↔
          ∃ job ∈ queue.rows, job.waitsForRemote worker.id = true ∧
            queue.allowsRemote os calendar worker now job = true))) := by
  constructor
  · intro worker hready hfree
    have hstep := runOnce_isSome calendar now hids hready hfree
    refine ⟨hstep, fun hlength => hstep.trans ?_⟩
    rw [JobQueue.fetchNextPendingLocalJobs, List.take_of_length_le hlength]
    simp only [JobQueue.mem_localQueue, and_assoc]
  · intro worker hready hfree
    have hstep := requestJob_isSome os calendar nullsFirst now hready hfree
    refine ⟨hstep, fun hlength => hstep.trans ?_⟩
    rw [JobQueue.fetchNextPendingRemoteJobs, List.take_of_length_le hlength]
    simp only [JobQueue.mem_remoteQueue, and_assoc]

/-! ### A long queue -/

/-- The row of a job that copies nothing else: `film4k` is to be encoded. -/
def queuedFilm (job : Job) : QueuedJob where
  toJob := job
  plan := encodingPlan "hevc"
  media := film4k
  sourcePath := film4k.container.filePath

/-- A queue of such jobs, with some workers. -/
def filmQueue (jobs : List Job) (workers : List Worker) : JobQueue where
  db := { jobs := jobs, workers := workers }
  rows := jobs.map queuedFilm
  jobs_eq := by rw [List.map_map]; exact (List.map_id jobs).symm

/-- A job that only the worker `attic` may take. -/
def pinnedJob (i : Nat) : Job :=
  { pendingJob i with pinnedWorkerId := some "attic" }

def polledWorker : RemoteWorker :=
  { nvidiaWorker "prefer_nvidia_gpu" with lastHeartbeatAt := some 0, lastHealthStatus := .healthy }

def serverWorker : LocalWorker where
  id := "local"
  workerKey := "local"
  workerType := .local
  registrationStatus := .registered
  createdAt := 0
  updatedAt := 0

/-- A queue of two jobs has one for each worker. -/
theorem dispatch_complete_short :
    ((filmQueue [pinnedJob 0, pendingJob 1] []).runOnce ⟨fun _ => 0⟩ serverWorker 1000).isSome = true ∧
      ∃ payload, (filmQueue [pinnedJob 0, pendingJob 1] []).requestJob (lexicalOs (PosixPath.parse "/") id)
        ⟨fun _ => 0⟩ true polledWorker 1000 = .ok (some payload) :=
  have hcomplete := dispatch_complete (filmQueue [pinnedJob 0, pendingJob 1] []) (by decide)
    (lexicalOs (PosixPath.parse "/") id) ⟨fun _ => 0⟩ true 1000
  have hrow : queuedFilm (pendingJob 1) ∈ (filmQueue [pinnedJob 0, pendingJob 1] []).rows :=
    List.mem_cons_of_mem _ (List.mem_cons_self ..)
  ⟨((hcomplete.1 serverWorker (by decide) (by decide)).2 (by decide +kernel)).mpr
      ⟨_, hrow, by decide, by decide +kernel⟩,
    ((hcomplete.2 polledWorker (by decide) (by decide)).2 (by decide +kernel)).mpr
      ⟨_, hrow, by decide, by decide +kernel⟩⟩

/-- Behind 25 jobs for another worker, a job is not found that every worker may run. -/
theorem dispatch_long_queue :
    let queue := filmQueue ((List.range 25).map pinnedJob ++ [pendingJob 25]) []
    queue.rows.any (fun job => job.waitsForLocal && queue.allowsLocal ⟨fun _ => 0⟩ serverWorker 1000 job) = true ∧
      (queue.runOnce ⟨fun _ => 0⟩ serverWorker 1000).isSome = false ∧
      queue.rows.any (fun job => job.waitsForRemote polledWorker.id && queue.allowsRemote
        (lexicalOs (PosixPath.parse "/") id) ⟨fun _ => 0⟩ polledWorker 1000 job) = true ∧
      (queue.requestJob (lexicalOs (PosixPath.parse "/") id) ⟨fun _ => 0⟩ true polledWorker 1000).toOption.map
        Option.isSome = some false := by
  decide +kernel

/-! ## Preferences -/

/-- A worker counts as one that takes jobs: it is enabled, and it is a local worker that is not disabled, or a
remote worker that is registered, has not failed, and has sent a heartbeat within five minutes. -/
def Worker.Dispatchable (worker : Worker) (now : Time) : Prop :=
  worker.enabled = true ∧ match worker.workerType with
    | .local => worker.registrationStatus ≠ .disabled
    | .remote => worker.registrationStatus = .registered ∧ worker.lastHealthStatus ≠ .failed ∧
      ∃ heartbeat, worker.lastHeartbeatAt = some heartbeat ∧ now - seconds (5 * 60) ≤ heartbeat

/-- A job whose preference is left out. -/
def QueuedJob.withoutPreference (job : QueuedJob) : QueuedJob :=
  { job with preferredWorkerId := none }

theorem workerIsDispatchable_iff {worker : Worker} {now : Time} :
    workerIsDispatchable worker now = true ↔ worker.Dispatchable now := by
  unfold workerIsDispatchable Worker.Dispatchable
  cases worker.workerType with
  | «local» => simp
  | remote =>
    cases worker.lastHeartbeatAt with
    | none => simp
    | some heartbeat => simp [and_assoc]

/-- A worker that a job does not prefer is refused it exactly while the preferred worker counts as one that
takes jobs. -/
theorem jobAllowsWorker_preference {calendar : Calendar} {job : Job} {worker : Worker}
    {preferred : Option Worker} {preferredId : WorkerId} {now : Time}
    (hprefers : job.preferredWorkerId = some preferredId) (hother : worker.id ≠ preferredId) :
    jobAllowsWorker calendar job worker preferred now = true ↔
      jobAllowsWorker calendar { job with preferredWorkerId := none } worker none now = true ∧
        ∀ p, preferred = some p → ¬ p.Dispatchable now := by
  have hany : (∀ p, preferred = some p → ¬ p.Dispatchable now) ↔
      ¬ preferred.any (workerIsDispatchable · now) = true := by
    cases preferred with
    | none => simp
    | some p => simp only [Option.some.injEq, forall_eq', Option.any_some, workerIsDispatchable_iff]
  have hne : ¬ some preferredId = some worker.id := fun h => hother (Option.some.inj h).symm
  rw [hany]
  simp only [jobAllowsWorker, hprefers, Bool.and_eq_true, decide_eq_true_eq, hne, reduceCtorEq, false_or,
    true_or, and_true]
  tauto

theorem allows_preference {queue : JobQueue} {calendar : Calendar} {job : QueuedJob} {worker : Worker}
    {preferredId : WorkerId} {now : Time} {compatible : Bool}
    (hprefers : job.preferredWorkerId = some preferredId) (hother : worker.id ≠ preferredId) :
    (jobAllowsWorker calendar job.toJob worker (queue.db.preferredWorker job.toJob) now &&
        compatible) = true ↔
      (jobAllowsWorker calendar job.withoutPreference.toJob worker
          (queue.db.preferredWorker job.withoutPreference.toJob) now && compatible) = true ∧
        ∀ p, queue.db.worker preferredId = some p → ¬ p.Dispatchable now := by
  have hpreferred : queue.db.preferredWorker job.toJob = queue.db.worker preferredId := by
    rw [Database.preferredWorker, hprefers, Option.bind_some]
  rw [Bool.and_eq_true, Bool.and_eq_true, jobAllowsWorker_preference hprefers hother, hpreferred]
  exact and_right_comm

/-- A job that prefers a worker is kept from the others exactly while that worker counts as one that takes
jobs: where they pass every other check, they may run it otherwise. -/
theorem preference_iff (queue : JobQueue) (os : PathOs) (calendar : Calendar) (now : Time) (job : QueuedJob)
    (preferredId : WorkerId) (hprefers : job.preferredWorkerId = some preferredId) :
    (∀ worker : LocalWorker, worker.id ≠ preferredId →
      (queue.allowsLocal calendar worker now job = true ↔
        queue.allowsLocal calendar worker now job.withoutPreference = true ∧
          ∀ p, queue.db.worker preferredId = some p → ¬ p.Dispatchable now)) ∧
    (∀ worker : RemoteWorker, worker.id ≠ preferredId →
      (queue.allowsRemote os calendar worker now job = true ↔
        queue.allowsRemote os calendar worker now job.withoutPreference = true ∧
          ∀ p, queue.db.worker preferredId = some p → ¬ p.Dispatchable now)) :=
  ⟨fun _ hother => allows_preference hprefers hother, fun _ hother => allows_preference hprefers hother⟩

/-- A job that prefers the worker `attic`. -/
def preferringJob : Job :=
  { pendingJob 0 with preferredWorkerId := some "attic" }

/-- The worker `attic`, which works between one and two at night, and has sent a heartbeat at midnight. -/
def nightWorker : RemoteWorker :=
  { polledWorker with id := "attic", scheduleWindows := [⟨[0, 1, 2, 3, 4, 5, 6], 60, 120⟩] }

/-- A worker that no longer sends heartbeats does not keep a job from the others. -/
theorem preference_iff_silent :
    (filmQueue [preferringJob] [nightWorker.toWorker]).allowsLocal ⟨fun _ => 0⟩ serverWorker (seconds 600)
      (queuedFilm preferringJob) = true :=
  ((preference_iff (filmQueue [preferringJob] [nightWorker.toWorker]) (lexicalOs (PosixPath.parse "/") id)
    ⟨fun _ => 0⟩ (seconds 600) (queuedFilm preferringJob) "attic" rfl).1 serverWorker (by decide)).mpr
    ⟨by decide +kernel, fun p hp h => by
      obtain rfl : nightWorker.toWorker = p := Option.some.inj hp
      exact absurd (workerIsDispatchable_iff.mpr h) (by decide +kernel)⟩

/-- A minute after midnight the preferred worker is refused the job by its own schedule. The other workers,
which may run it but for the preference, are refused it too. -/
theorem preference_closed_schedule :
    let queue := filmQueue [preferringJob] [nightWorker.toWorker, polledWorker.toWorker]
    let os := lexicalOs (PosixPath.parse "/") id
    let requested := fun worker queue => ((JobQueue.requestJob queue os ⟨fun _ => 0⟩ true worker
      (seconds 60)).toOption.map Option.isSome)
    preferringJob.pinnedWorkerId = none ∧
      requested nightWorker queue = some false ∧
      requested polledWorker queue = some false ∧
      (queue.runOnce ⟨fun _ => 0⟩ serverWorker (seconds 60)).isSome = false ∧
      requested polledWorker (filmQueue [pendingJob 0] queue.db.workers) = some true ∧
      ((filmQueue [pendingJob 0] queue.db.workers).runOnce ⟨fun _ => 0⟩ serverWorker (seconds 60)).isSome = true := by
  decide +kernel

end Encodr
