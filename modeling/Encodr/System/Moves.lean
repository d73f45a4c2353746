import Encodr.System.Machine

/-!
# The moves of the system

What one action can do, said once: every action is one of a few moves, and a move says how the
tables evolve and which execution changes. The invariants are derived from the moves.

* `Op.rights`: the rows that an operation may resolve or promote.
* `Op.PassesReview`, `Op.Creates`: how an operation may create a job of a file that needs a review.
* `Execution.Advance`, `Execution.Report`: the steps of an execution, alone and with a report.
* `Recorded`: the result that a worker has recorded.
* `Move`, `apply_move`: the moves, and that every operation is one.
-/

namespace Encodr

open Python Lib

variable {C : Type}

/-! ## Requests -/

/-- The approval of `itemId` completes the job: its latest one, with a staged output. -/
def State.completes (s : State) (itemId : FileId) (job : Job) : Prop :=
  s.db.latestJob itemId = some job ∧ job.status = .manualReview ∧ job.outputPath.isSome = true

/-- What an approval of `itemId` finds. -/
def State.approvalOf (c : Settings) (s : State) (exists_ : PosixPath → Bool) (itemId : FileId) :
    Option PostEncode :=
  (s.db.reviewItem itemId "This item does not currently require review approval.").toOption.bind
    fun item => (postEncodeApproval c.os c.roots exists_ item).toOption

/-- A staged output is that of the latest job, in manual review, and meets the latest plan. -/
theorem State.approvalOf_staged {c : Settings} {s : State} {exists_ : PosixPath → Bool}
    {itemId : FileId} {job : Job} {plan : PlanSnapshot} {sourcePath stagedOutput : PosixPath}
    (h : s.approvalOf c exists_ itemId = some (.staged job plan sourcePath stagedOutput)) :
    s.completes itemId job ∧ s.db.latestPlanSnapshot itemId = some plan := by
  obtain ⟨item, hitem, happroval⟩ := Option.bind_eq_some_iff.mp h
  obtain ⟨file, hfile, rfl⟩ := Database.reviewItem_ok (toOption_eq_some.mp hitem)
  obtain ⟨hjob, hplan, hst, houtput⟩ := postEncodeApproval_staged (toOption_eq_some.mp happroval)
  have hid := Database.trackedFile_id hfile
  exact ⟨⟨hid ▸ hjob, hst, houtput⟩, hid ▸ hplan⟩

/-- What a request may do to rows beyond leaving their status. -/
def Request.rights (c : Settings) (now : Time) : Request → Rights
  | .markProblemJobSkipped jobId => { resolves := fun job => job.id = jobId }
  | .clearQueue => { resolves := fun job => Database.inClearedQueue job = true }
  | .refreshScheduledJobs => { promotes := fun job => job.isDue c.calendar now = true }
  | _ => {}

/-- What an operation may do to rows beyond leaving their status. -/
def Op.rights (c : Settings) (s : State) (now : Time) : Op C → Rights
  | .request r => r.rights c now
  | .approveItem itemId _ => { resolves := s.completes itemId }
  | _ => {}

/-! ## New jobs -/

/-- The plan that an operation creates a job from. -/
def Op.sourcePlan (db : Database) : Op C → Option PlanSnapshot
  | .request (.createJob r) =>
    (db.resolveTarget r.trackedFileId r.planSnapshotId).toOption.map fun target => target.2
  | .request (.createWatchedJob _ planId _) => db.planSnapshot planId
  | .request (.retryJob jobId _) | .request (.recoverWithStripOnly jobId) | .work jobId _ =>
    (db.job jobId).bind fun job => db.planSnapshot job.planSnapshotId
  | .request (.rejectItem itemId) | .approveItem itemId _ => db.latestPlanSnapshot itemId
  | _ => none

/-- How an operator may create a job, from the plan, of a file that needs a review. -/
inductive Op.PassesReview (db : Database) (file : TrackedFile) (plan : PlanSnapshot) : Op C → Prop
  | approved (w : Placing C) : PassesReview db file plan (.approveItem file.id w)
  | rejected : PassesReview db file plan (.request (.rejectItem file.id))
  /-- The latest decision approves the plan, since the file needs the review. -/
  | recovered (jobId : JobId) (h : db.decisionIsCurrent file plan = true) :
      PassesReview db file plan (.request (.recoverWithStripOnly jobId))
  /-- Only the failed replacement of the latest job asks for the review. -/
  | retried {original : Job} (strategy : String) (latest : db.latestJob file.id = some original)
      (status : original.status = .manualReview)
      (failed : original.failureCategory = some "replacement_failed")
      (unprotected : protectedOrPlannerReview file plan = false) :
      PassesReview db file plan (.request (.retryJob original.id strategy))

/-- An operation creates the job: its file and the plan need no review, or an operator may create it
all the same. -/
def Op.Creates (db : Database) (op : Op C) (job : Job) : Prop :=
  ∃ file plan, db.trackedFile job.trackedFileId = some file ∧ op.sourcePlan db = some plan ∧
    (db.needsReview file plan = true → op.PassesReview db file plan)

/-- The gate of a retry is open, though a review is needed: for the latest job of the file. -/
theorem Database.validateReviewGate_retry {db : Database} {issued : List String} {file : TrackedFile}
    {plan : PlanSnapshot} {original : Job} {u : Unit} (hs : db.Sound issued)
    (hj : db.job original.id = some original)
    (h : db.validateReviewGate file plan false
      (if canRetryOperationalManualReview original then some original.id else none) = .ok u)
    (hneeds : db.needsReview file plan = true) :
    db.latestJob file.id = some original ∧ original.status = .manualReview ∧
      original.failureCategory = some "replacement_failed" ∧
        protectedOrPlannerReview file plan = false := by
  by_cases hretry : canRetryOperationalManualReview original = true
  · rw [if_pos hretry, validateReviewGate, require_ok, ← needsReview, hneeds] at h
    simp only [operationalRetry, Bool.and_eq_true, beq_iff_eq, Bool.not_eq_true', Bool.false_and,
      Bool.true_eq_false, Bool.false_eq_true, or_false] at h
    obtain ⟨⟨⟨-, hid⟩, -⟩, hunprotected⟩ := h
    obtain ⟨latest, hlatest, hid⟩ := Option.map_eq_some_iff.mp hid
    have hmem : latest ∈ db.jobs := List.mem_of_mem_filter (Table.latestBy_mem hlatest)
    have hsame : latest = original := hs.of_job hj latest hmem hid
    simp only [canRetryOperationalManualReview, Bool.and_eq_true, beq_iff_eq] at hretry
    exact ⟨hsame ▸ hlatest, hretry.1, hretry.2, hunprotected⟩
  · rw [if_neg hretry, validateReviewGate_ok, hneeds] at h
    cases h

/-- The gate of a recovery is open, though a review is needed: the plan is approved. -/
theorem Database.validateReviewGate_approved {db : Database} {file : TrackedFile} {plan : PlanSnapshot}
    {u : Unit} (h : db.validateReviewGate file plan true none = .ok u)
    (hneeds : db.needsReview file plan = true) : db.decisionIsCurrent file plan = true := by
  rw [validateReviewGate, require_ok, ← needsReview, hneeds] at h
  simpa [operationalRetry] using h

section Requests

variable {c : Settings} {exists_ : PosixPath → Bool} {uid : String} {now : Time}
  {db db' : Database} {issued : List String} {r : Rights}

/-- Unchanged rows are allowed with any rights. -/
theorem managed_of_eq {new : Option Job} {workers : List WorkerId}
    (h : db.Evolves Eq uid new db') : db.Evolves (Job.Managed r workers) uid new db' :=
  h.of_eq .refl

/-- No job is created. -/
theorem none_created {P : Job → Prop} : ∀ job ∈ (none : Option Job), P job :=
  fun job h => absurd h (Option.not_mem_none job)

/-- One job is created. -/
theorem some_created {P : Job → Prop} {job : Job} (h : P job) : ∀ new ∈ some job, P new :=
  fun _ hnew => Option.some.inj hnew ▸ h

theorem Request.apply_evolves (hs : db.Sound issued) (hfresh : uid ∉ issued) (q : Request)
    (h : q.apply c exists_ uid now db = .ok db') :
    ∃ new, db.Evolves (Job.Managed (q.rights c now) db'.workerIds) uid new db' ∧
      ∀ job ∈ new, job.status = .completed ∨ (Op.request q : Op C).Creates db job := by
  cases q with
  | planFile path media policy rename =>
    obtain ⟨⟨_, plan⟩, hq, rfl⟩ := map_ok.mp h
    exact ⟨none, managed_of_eq (Database.planFile_extends hq).evolves, none_created⟩
  | scanFile path =>
    obtain rfl := return_ok.mp h
    exact ⟨none, managed_of_eq (Database.upsertByPath_extends uid path).evolves, none_created⟩
  | scanBackup sourcePath backupPath finalOutputPath =>
    obtain rfl := return_ok.mp h
    obtain ⟨new, hnew, hcompleted⟩ :=
      Database.reconcileDiscoveredBackup_evolves sourcePath backupPath finalOutputPath
    exact ⟨new, managed_of_eq hnew, fun job hj => .inl (hcompleted job hj)⟩
  | createJob r =>
    obtain ⟨⟨_, job⟩, hq, rfl⟩ := map_ok.mp h
    obtain ⟨file, plan, htarget, hfile, hneeds, hevolves⟩ := Database.createJob_ok hq
    refine ⟨some job, managed_of_eq hevolves, some_created (.inr ⟨file, plan, hfile, ?_, ?_⟩)⟩
    · rw [Op.sourcePlan, toOption_eq_some.mpr htarget, Option.map_some]
    · exact fun h => nomatch hneeds.symm.trans h
  | createWatchedJob fileId planId o =>
    simp only [Request.apply, bind_ok, found_ok, map_ok] at h
    obtain ⟨file, hfile, plan, hplan, ⟨_, job⟩, hq, rfl⟩ := h
    have hplan := (Option.filter_eq_some_iff.mp hplan).1
    have htarget := Database.Target.of_find hfile hplan
    obtain ⟨hfile, hneeds, hevolves⟩ := Database.createWatchedJobIfNeeded_ok htarget hq
    exact ⟨some job, managed_of_eq hevolves, some_created (.inr ⟨file, plan, hfile, hplan,
      fun h => nomatch hneeds.symm.trans h⟩)⟩
  | retryJob jobId strategy =>
    obtain ⟨⟨_, job⟩, hq, rfl⟩ := map_ok.mp h
    obtain ⟨original, file, plan, htarget, hid, hgate, hevolves⟩ := Database.retryJob_ok hs hfresh hq
    obtain ⟨hj, -, hplan, hfile⟩ := Database.jobTarget_ok htarget
    obtain rfl : original.id = jobId := Table.key_of_find hj
    refine ⟨some job, hevolves, some_created (.inr ⟨file, plan, hid ▸ hfile.file, ?_, ?_⟩)⟩
    · rw [Op.sourcePlan, hj, Option.bind_some, hplan]
    · intro hneeds
      obtain ⟨hlatest, hst, hfailed, hunprotected⟩ :=
        Database.validateReviewGate_retry hs hj hgate hneeds
      exact .retried strategy hlatest hst hfailed hunprotected
  | recoverWithStripOnly jobId =>
    obtain ⟨⟨_, job⟩, hq, rfl⟩ := map_ok.mp h
    obtain ⟨original, file, plan, htarget, hid, hgate, hevolves⟩ :=
      Database.recoverWithStripOnly_ok hs hfresh hq
    obtain ⟨hj, -, hplan, hfile⟩ := Database.jobTarget_ok htarget
    refine ⟨some job, hevolves, some_created (.inr ⟨file, plan, hid ▸ hfile.file, ?_, ?_⟩)⟩
    · rw [Op.sourcePlan, hj, Option.bind_some, hplan]
    · exact fun hneeds => .recovered jobId (Database.validateReviewGate_approved hgate hneeds)
  | markProblemJobSkipped jobId =>
    exact ⟨none, Database.markProblemJobSkipped_evolves hs hfresh
      (fun job hj => Table.key_of_find hj) h, none_created⟩
  | clearProblemJob jobId => exact ⟨none, Database.clearProblemJob_evolves hs hfresh h, none_created⟩
  | clearQueue =>
    obtain rfl := return_ok.mp h
    exact ⟨none, Database.clearQueue_evolves fun _ hq => hq, none_created⟩
  | clearFailedHistory jobIds =>
    obtain rfl := return_ok.mp h
    exact ⟨none, Database.clearFailedHistory_evolves, none_created⟩
  | rejectItem itemId =>
    obtain ⟨⟨_, job⟩, hq, rfl⟩ := map_ok.mp h
    obtain ⟨⟨file, plan, hfile, rfl, hplan⟩, hevolves⟩ := Database.rejectItem_ok hq
    exact ⟨some job, managed_of_eq hevolves, some_created (.inr ⟨file, plan, hfile, hplan,
      fun _ => .rejected⟩)⟩
  | holdItem itemId => exact ⟨none, managed_of_eq (Database.holdItem_evolves h), none_created⟩
  | markProtected itemId => exact ⟨none, managed_of_eq (Database.markProtected_evolves h), none_created⟩
  | clearProtected itemId => exact ⟨none, managed_of_eq (Database.clearProtected_evolves h), none_created⟩
  | registerWorker r =>
    obtain rfl := return_ok.mp h
    exact ⟨none, managed_of_eq (Database.registerWorker_evolves _ _ _), none_created⟩
  | onboardWorker workerKey p =>
    exact ⟨none, managed_of_eq (Database.createRemoteOnboarding_evolves h), none_created⟩
  | setupLocalWorker p =>
    obtain rfl := return_ok.mp h
    exact ⟨none, managed_of_eq (Database.setupLocalWorker_evolves _ _), none_created⟩
  | heartbeat tokenHash health =>
    simp only [Request.apply, bind_ok, return_ok] at h
    obtain ⟨_, -, rfl⟩ := h
    exact ⟨none, managed_of_eq (Database.recordHeartbeat_evolves _ _), none_created⟩
  | localHeartbeat health =>
    simp only [Request.apply, bind_ok, return_ok] at h
    obtain ⟨_, -, rfl⟩ := h
    exact ⟨none, managed_of_eq (Database.recordHeartbeat_evolves _ _), none_created⟩
  | setWorkerEnabled workerId enabled =>
    exact ⟨none, managed_of_eq (Database.setWorkerEnabled_evolves h), none_created⟩
  | updateWorkerPreferences workerId p =>
    exact ⟨none, managed_of_eq (Database.updateWorkerPreferences_evolves h), none_created⟩
  | deleteWorker workerId => exact ⟨none, Database.deleteWorker_evolves h, none_created⟩
  | refreshScheduledJobs =>
    obtain rfl := return_ok.mp h
    exact ⟨none, Database.refreshScheduledJobs_evolves fun _ hq => hq, none_created⟩

end Requests

/-! ## Executions -/

/-- A step of an execution that changes no table: the phase after it, and what is logged. -/
inductive Execution.Advance (C : Type) (x : Execution) (now : Time) : Phase → List Event → Prop
  | begin (hphase : x.phase = .claimed) (htype : x.workerType = .local) :
      Advance C x now .running []
  | run {outcome : RunOutcome} {startedAt : Time} {phase : Phase}
      (h : x.afterRun outcome startedAt now = some phase) : Advance C x now phase []
  /-- The agent finds a cancellation. -/
  | cancel {result : ExecutionResult} (h : x.cancelledAt now = some result) :
      Advance C x now (.finished result) []
  | verify {output : StagedOutput} {media : MediaFile} (probe : Probe) (safety : Option SafetyFailure)
      (hphase : x.phase = .verifying output) (hmedia : x.media = some media)
      (hcancel : x.cancelledAt now = none) :
      Advance C x now
        (Execution.afterVerification output (verifyOutput x.plan media probe) safety now)
        [.verified x.jobId output.path x.plan (verifyOutput x.plan media probe).passed]
  | place {output : StagedOutput} {verification : VerificationResult} (w : Placing C)
      (hphase : x.phase = .replacing output verification) :
      Advance C x now
        (x.afterPlacement output verification (w.run x.sourcePath output.path x.plan) now)
        [.placed x.jobId output.path x.plan]
  /-- A report of the agent is refused. -/
  | refuse (message : String) (htype : x.workerType = .remote)
      (hphase : x.phase = .claimed ∨ x.phase = .running ∨ x.nextReport.isSome = true) :
      Advance C x now (x.afterRefusal message now) []
  /-- The agent fails, or its submission does. -/
  | fail (message : String) (htype : x.workerType = .remote) :
      Advance C x now (.failing message "worker_agent_error") []

/-- A step of an execution with an accepted report; `cancel` is whether the answer asks for a
cancellation. -/
inductive Execution.Report (x : Execution) (now : Time) (cancel : Bool) : Phase → List Event → Prop
  | begin (hphase : x.phase = .claimed) (htype : x.workerType = .remote) :
      Report x now cancel (Execution.afterBegin cancel now) []
  | progress (hphase : x.phase = .running) : Report x now cancel .running []
  | proceed {stage : String} {percent : Rat} {phase : Phase}
      (hnext : x.nextReport = some (stage, percent, phase)) (hcancel : x.cancelledAt now = none) :
      Report x now cancel phase (State.noted x)

/-- The worker of the execution authenticates and reports on its job. -/
def State.Authenticated (s : State) (x : Execution) (job : Job) (plan : PlanSnapshot) : Prop :=
  ∃ worker, s.db.requireAuthenticatedWorker x.tokenHash = .ok worker ∧
    s.db.Reports worker x.jobId job plan

/-- The result that is recorded for the execution: what the agent submits, a failure that it
reports, or the result of the local worker. -/
inductive Recorded (c : Settings) (s : State) (a : Action C) (x : Execution) (job : Job)
    (plan : PlanSnapshot) : ProcessingPlan → ExecutionResult → Prop
  | submitted {worker : Worker} {result : ExecutionResult} (hop : a.op = .work x.jobId .submit)
      (hphase : x.phase = .finished result) (htype : x.workerType = .remote)
      (hauth : s.db.requireAuthenticatedWorker x.tokenHash = .ok worker)
      (hreports : s.db.Reports worker x.jobId job plan) :
      Recorded c s a x job plan plan.payload (acceptedResult c.os c.roots worker job result a.now)
  | failed {message category : String} (hop : a.op = .work x.jobId .reportFailure)
      (hphase : x.phase = .failing message category) (hauth : s.Authenticated x job plan) :
      Recorded c s a x job plan plan.payload (reportedFailure job message category a.now)
  | finished {result : ExecutionResult} {analysed : Option ProcessingPlan}
      (appliedPlan : ProcessingPlan) (hop : a.op = .work x.jobId (.finishLocal analysed))
      (hphase : x.phase = .finished result) (htype : x.workerType = .local)
      (happlied : x.jobKind = .execution → appliedPlan = x.plan) :
      Recorded c s a x job plan appliedPlan result

/-! ## Moves -/

/-- What one operation does to the state, before its id is noted. -/
inductive Move (c : Settings) (s : State) (a : Action C) : State → Prop
  /-- An operation on the tables. A new job waits for a worker, or is the record of a completed one. -/
  | manage {db : Database} {new : Option Job}
      (evolves : s.db.Evolves (Job.Managed (a.op.rights c s a.now) db.workerIds) a.uid new db)
      (created : ∀ job ∈ new, job.status = .completed ∨ a.op.Creates s.db job) :
      Move c s a { s with db := db }
  /-- A cancellation is noted for a remote worker. -/
  | cancelRemote {db : Database} {job : Job} {worker : Worker} {active : Bool}
      (hop : a.op = .cancelJob job.id active)
      (evolves : s.db.Evolves (Job.Managed {} db.workerIds) a.uid none db)
      (hj : job ∈ s.db.jobs) (running : job.status = .running)
      (assigned : job.assignedWorkerId.bind s.db.worker = some worker)
      (remote : worker.workerType = .remote)
      (requested : ∀ row ∈ db.jobs, row.id = job.id → row.cancellationRequestedAt.isSome = true) :
      Move c s a { s with db := db, log := .cancelled job.id :: s.log }
  /-- The local worker accepts a cancellation. -/
  | cancelLocal {db : Database} {job : Job} {x : Execution} (hop : a.op = .cancelJob job.id true)
      (evolves : s.db.Evolves (Job.Managed {} db.workerIds) a.uid none db)
      (hj : job ∈ s.db.jobs) (running : job.status = .running)
      (hx : s.execution job.id = some x) (cancellable : x.cancellable = true) :
      Move c s a { s.requestCancel job.id with db := db, log := .cancelled job.id :: s.log }
  /-- The local worker remembers a cancellation of a job that is not running, or that it declines. -/
  | ask {db : Database} {jobId : JobId}
      (evolves : s.db.Evolves (Job.Managed {} db.workerIds) a.uid none db) :
      Move c s a { s.requestCancel jobId with db := db }
  /-- An approval places the staged output of the latest job under the latest plan. -/
  | approve {db : Database} {itemId : FileId} {w : Placing C} {job : Job} {plan : PlanSnapshot}
      {sourcePath stagedOutput : PosixPath} (hop : a.op = .approveItem itemId w)
      (happroval : s.approvalOf c a.exists_ itemId = some (.staged job plan sourcePath stagedOutput))
      (evolves : s.db.Evolves (Job.Managed { a.op.rights c s a.now with passes := s.completes itemId }
        db.workerIds) a.uid none db) :
      Move c s a { s with db := db, log := .approved job.id stagedOutput plan.payload :: s.log }
  | sweep : Move c s a (s.sweep a.now)
  | claim {db : Database} {job : Job} {worker : Worker} {tokenHash : String} {plan : PlanSnapshot}
      {media : Option MediaFile} {sourcePath : PosixPath} {inApi : Bool}
      (hworker : worker ∈ s.db.workers) (hj : job ∈ s.db.jobs) (pending : job.status = .pending)
      (uncleared : job.clearedAt = none) (hplan : s.db.planSnapshot job.planSnapshotId = some plan)
      (evolves : s.db.Evolves (Job.Only job.id fun row row' =>
        row' = { row.claimedBy worker a.now with updatedAt := a.now }) a.uid none db) :
      Move c s a { s with
        db := db
        live := s.live ++
          [State.startExecution job worker tokenHash plan media sourcePath inApi] }
  | advance {x : Execution} {phase : Phase} {events : List Event} (hx : x ∈ s.live)
      (h : x.Advance C a.now phase events) :
      Move c s a ({ s with log := events ++ s.log }.set { x with phase := phase })
  | report {x : Execution} {db : Database} {cancel : Bool} {phase : Phase} {events : List Event}
      (hx : x ∈ s.live) (h : x.Report a.now cancel phase events)
      (evolves : s.db.Evolves (Job.Managed {} db.workerIds) a.uid none db)
      (hlocal : x.workerType = .local → cancel = false)
      (hremote : x.workerType = .remote → ∃ job plan, s.Authenticated x job plan ∧
        cancel = job.cancellationRequestedAt.isSome) :
      Move c s a ({ s with db := db, log := events ++ s.log }.set
        { x with cancelRequested := x.cancelRequested || cancel, phase := phase })
  | settle {x : Execution} {db : Database} {job : Job} {plan : PlanSnapshot}
      {appliedPlan : ProcessingPlan} {result : ExecutionResult} {new : Option Job} (hx : x ∈ s.live)
      (hj : s.db.job x.jobId = some job) (hplan : s.db.planSnapshot job.planSnapshotId = some plan)
      (recorded : Recorded c s a x job plan appliedPlan result)
      (recording : Database.Recording s.db c.calendar job plan appliedPlan result a.uid a.now db new) :
      Move c s a (s.settle a.uid x db)
  | drop {x : Execution} (hx : x ∈ s.live) : Move c s a (s.without x.jobId)

section Moves

variable {c : Settings} {s s' : State} {a : Action C}

theorem BackupRequest.apply_evolves {db db' : Database} {files : Files PosixPath C} {uid : String}
    {now : Time} (q : BackupRequest C) (h : q.apply c uid now db files = some db') :
    db.Evolves (Job.Managed {} db'.workerIds) uid none db' := by
  have hstore : ∀ {jobId store}, db.backupStoreOf jobId files = some store → store.jobs = db.jobs := by
    intro jobId store h
    obtain ⟨file, -, rfl⟩ := Option.map_eq_some_iff.mp h
    rfl
  cases q with
  | restore jobId byUser faults =>
    obtain ⟨store, hs, rfl⟩ := Option.map_eq_some_iff.mp h
    exact Database.withBackupStore_evolves (hstore hs ▸ Database.restoreBackup_keepsCores _ _)
  | delete jobId faults =>
    obtain ⟨store, hs, rfl⟩ := Option.map_eq_some_iff.mp h
    exact Database.withBackupStore_evolves (hstore hs ▸ Database.deleteBackup_keepsCores _)
  | cleanup faults =>
    obtain ⟨file, -, rfl⟩ := Option.map_eq_some_iff.mp h
    exact Database.keepsCores_evolves (Database.cleanupExpiredBackups_keepsCores _)

theorem cancelJob_move (hs : s.db.Sound s.issued) (hfresh : a.uid ∉ s.issued) {jobId : JobId}
    {active : Bool} (hop : a.op = .cancelJob jobId active) (h : s.cancelJob a.now jobId active = some s') : Move c s a s' := by
  simp only [State.cancelJob] at h
  split at h
  · next db hcancel =>
    have hevolves : s.db.Evolves (Job.Managed {} db.workerIds) a.uid none db :=
      Database.cancelJob_evolves hs hfresh hcancel
    obtain rfl := Option.some.inj h
    by_cases hrunning : (s.db.job jobId).any (·.status = .running) = true
    · obtain ⟨job, hj, hst⟩ := (Option.any_eq_true _ _).mp hrunning
      have hid : job.id = jobId := Table.key_of_find hj
      have hst : job.status = .running := by simpa using hst
      subst hid
      rw [if_pos hrunning]
      rcases Database.cancelJob_running hs hj hst hcancel with
        ⟨hasks, ⟨worker, hworker, hremote⟩, hrequested⟩ | ⟨hasks, hactive⟩
      · rw [hasks, if_neg Bool.false_ne_true]
        exact .cancelRemote hop hevolves (Table.mem_of_find hj) hst hworker hremote hrequested
      · rw [hasks, if_pos rfl]
        obtain ⟨rfl, hactive⟩ := Bool.and_eq_true_iff.mp hactive
        obtain ⟨x, hx, hcancellable⟩ := (Option.any_eq_true _ _).mp hactive
        exact .cancelLocal hop hevolves (Table.mem_of_find hj) hst hx hcancellable
    · rw [if_neg hrunning]
      split
      · exact .ask hevolves
      · exact .manage (Database.cancelJob_evolves hs hfresh hcancel) none_created
  · split at h
    · obtain rfl := Option.some.inj h
      exact .ask (managed_of_eq (.refl s.db))
    · cases h

theorem approveItem_move (hs : s.db.Sound s.issued) (hfresh : a.uid ∉ s.issued) {itemId : FileId}
    {w : Placing C} (hop : a.op = .approveItem itemId w)
    (h : s.approveItem c a.exists_ a.uid a.now itemId w = some s') : Move c s a s' := by
  simp only [State.approveItem, bind, Option.bind_eq_some_iff] at h
  obtain ⟨item, hitem, approval, happroval, h⟩ := h
  have hfound : s.approvalOf c a.exists_ itemId = some approval :=
    Option.bind_eq_some_iff.mpr ⟨item, hitem, happroval⟩
  cases approval with
  | absent =>
    simp only [Option.bind_eq_some_iff, pure, Option.some.injEq] at h
    obtain ⟨⟨db, job⟩, hdb, rfl⟩ := h
    obtain ⟨⟨file, plan, hfile, rfl, hplan⟩, hevolves⟩ :=
      Database.approveItem_ok (toOption_eq_some.mp hdb)
    refine .manage (managed_of_eq hevolves) (some_created (.inr ⟨file, plan, hfile, ?_, ?_⟩))
    · rw [hop]
      exact hplan
    · rw [hop]
      exact fun _ => .approved w
  | placed job =>
    obtain rfl := Option.some.inj h
    exact .manage (managed_of_eq ((Database.Evolves.refl s.db).frame rfl rfl rfl rfl)) none_created
  | staged job plan sourcePath stagedOutput =>
    have hcompletes := (State.approvalOf_staged hfound).1
    dsimp only at h
    split at h
    · next db hdb =>
      obtain rfl := Option.some.inj h
      have hj : job ∈ s.db.jobs := List.mem_of_mem_filter (Table.latestBy_mem hcompletes.1)
      have hright : (a.op.rights c s a.now).resolves job := by
        rw [hop]
        exact hcompletes
      have hevolves : s.db.Evolves (Job.Managed
          { a.op.rights c s a.now with passes := s.completes itemId } db.workerIds) a.uid none db :=
        Database.completePostEncodeApproval_evolves hs hfresh (hs.job_of_mem hj) hcompletes.2.1
          hcompletes.2.2 hright hcompletes hdb
      exact .approve hop hfound (hevolves.frame rfl rfl rfl rfl)
    · obtain rfl := Option.some.inj h
      exact .approve hop hfound (managed_of_eq (.refl s.db))

theorem claim_move {tokenHash : String} {jobId : JobId} {capable : Bool} {sourcePath : PosixPath}
    (h : s.claim c a.now tokenHash jobId capable sourcePath = some s') : Move c s a s' := by
  simp only [State.claim, bind, Option.bind_eq_some_iff, pure, Option.some.injEq] at h
  obtain ⟨worker, hworker, ⟨db, job⟩, hclaim, plan, hplan, probe, -, rfl⟩ := h
  have hworker := (Database.requireAuthenticatedWorker_ok.mp (toOption_eq_some.mp hworker)).1
  obtain ⟨hj, hpending, hcleared, hevolves⟩ := Database.claimPendingForWorker_evolves
    (Database.claimJob_ok (toOption_eq_some.mp hclaim))
  obtain rfl : job.id = jobId := Table.key_of_find hj
  exact .claim (Table.mem_of_find hworker) (Table.mem_of_find hj) hpending hcleared hplan hevolves

theorem claimLocal_move {jobId : JobId} {capable inApi : Bool}
    (h : s.claimLocal c a.now jobId capable inApi = some s') : Move c s a s' := by
  simp only [State.claimLocal, bind, Option.bind_eq_some_iff, pure, Option.some.injEq] at h
  obtain ⟨worker, hworker, ⟨db, job⟩, hclaim, plan, hplan, media, -, rfl⟩ := h
  obtain ⟨hworker, -⟩ := Option.filter_eq_some_iff.mp hworker
  obtain ⟨hj, hpending, hcleared, hevolves⟩ := Database.claimPendingForWorker_evolves
    (Database.claimLocalJob_eq_some hclaim)
  obtain rfl : job.id = jobId := Table.key_of_find hj
  exact .claim (Table.mem_of_find hworker) (Table.mem_of_find hj) hpending hcleared hplan hevolves

/-- The report of an execution is accepted or refused. -/
theorem report_move {x : Execution} {stage : String} {percent : Option Rat} {noted : List Event}
    {next : Bool → Phase} (hx : x ∈ s.live)
    (hphase : x.phase = .claimed ∨ x.phase = .running ∨ x.nextReport.isSome = true)
    (hnext : ∀ cancel, x.Report a.now cancel (next cancel) noted) :
    Move c s a (s.report a.now x stage percent noted next) := by
  unfold State.report
  split
  · next htype =>
    have hmove : Move c s a _ := .report hx (hnext false)
      (Database.recordProgress_evolves x.jobId stage percent a.now) (fun _ => rfl)
      fun hremote => nomatch htype.symm.trans hremote
    rwa [Bool.or_false] at hmove
  · next htype =>
    split
    · next db cancel hreport =>
      obtain ⟨worker, hauth, hreport⟩ := bind_ok.mp hreport
      obtain ⟨job, plan, hreports, hcancel, rfl⟩ := Database.reportJobProgress_ok hreport
      exact .report hx (hnext cancel) (Database.recordProgress_evolves x.jobId stage percent a.now)
        (fun hlocal => nomatch htype.symm.trans hlocal)
        fun _ => ⟨job, plan, ⟨worker, hauth, hreports⟩, hcancel⟩
    · next e _ => exact .advance hx (.refuse e.message htype hphase)

/-- A step of an execution. -/
theorem work_move (hs : s.db.Sound s.issued) {exists_ : PosixPath → Bool} {x : Execution}
    (hx : x ∈ s.live) {w : Work C} (hop : a.op = .work x.jobId w) (h : s.work c exists_ a.uid a.now x w = some s') :
    Move c s a s' := by
  cases w with
  | begin =>
    simp only [State.work] at h
    split at h
    · next hphase htype =>
      obtain rfl := Option.some.inj h
      exact .advance hx (.begin hphase htype)
    · next hphase htype =>
      obtain rfl := Option.some.inj h
      exact report_move hx (.inl hphase) fun _ => .begin hphase htype
    · cases h
  | progress stage percent =>
    simp only [State.work] at h
    split at h
    · next hphase =>
      obtain rfl := Option.some.inj h
      exact report_move hx (.inr (.inl hphase)) fun _ => .progress hphase
    · cases h
  | run outcome startedAt =>
    obtain ⟨phase, hphase, rfl⟩ := Option.map_eq_some_iff.mp h
    exact .advance hx (.run hphase)
  | proceed =>
    simp only [State.work] at h
    split at h
    · cases h
    · next hcancel =>
      obtain rfl := Option.some.inj h
      exact .advance hx (.cancel hcancel)
    · next stage percent phase hnext hcancel =>
      obtain rfl := Option.some.inj h
      exact report_move hx (.inr (.inr (by rw [hnext]; rfl))) fun _ => .proceed hnext hcancel
  | verify probe safety =>
    simp only [State.work] at h
    split at h
    · next hcancel =>
      obtain rfl := Option.some.inj h
      exact .advance hx (.cancel hcancel)
    · next hphase hmedia hcancel =>
      obtain rfl := Option.some.inj h
      exact .advance hx (.verify probe safety hphase hmedia hcancel)
    · cases h
  | place w =>
    simp only [State.work] at h
    split at h
    · next hphase =>
      obtain rfl := Option.some.inj h
      exact .advance hx (.place w hphase)
    · cases h
  | submit =>
    simp only [State.work] at h
    split at h
    · next result hphase htype =>
      split at h
      · next db hsubmit =>
        obtain rfl := Option.some.inj h
        obtain ⟨worker, hauth, hsubmit⟩ := bind_ok.mp hsubmit
        obtain ⟨job, plan, hreports, new, hrecording⟩ := Database.submitJobResult_ok hs hsubmit
        exact .settle hx hreports.row hreports.snapshot
          (.submitted hop hphase htype hauth hreports) hrecording
      · next e _ =>
        obtain rfl := Option.some.inj h
        exact .advance hx (.fail e.message htype)
    · cases h
  | loseSubmission message =>
    simp only [State.work] at h
    split at h
    · next htype =>
      obtain rfl := Option.some.inj h
      exact .advance hx (.fail message htype)
    · cases h
  | fail message =>
    simp only [State.work] at h
    split at h
    · cases h
    · cases h
    · cases h
    · next htype _ _ _ =>
      obtain rfl := Option.some.inj h
      exact .advance hx (.fail message (by assumption))
  | reportFailure =>
    simp only [State.work] at h
    split at h
    · next message category hphase =>
      split at h
      · next db hfailure =>
        obtain rfl := Option.some.inj h
        obtain ⟨worker, hauth, hfailure⟩ := bind_ok.mp hfailure
        obtain ⟨job, plan, hreports, new, hrecording⟩ := Database.reportJobFailure_ok hs hfailure
        exact .settle hx hreports.row hreports.snapshot
          (.failed hop hphase ⟨worker, hauth, hreports⟩) hrecording
      · obtain rfl := Option.some.inj h
        exact .drop hx
    · cases h
  | finishLocal analysed =>
    simp only [State.work] at h
    split at h
    · next result hphase htype =>
      simp only [bind, Option.bind_eq_some_iff, pure, Option.some.injEq] at h
      obtain ⟨job, hj, plan, hplan, db, hrecord, rfl⟩ := h
      have hid : job.id = x.jobId := Table.key_of_find hj
      obtain ⟨new, hrecording⟩ := Database.recordResult_cases hs (hid ▸ hj) hplan (fun _ => rfl) hrecord
      refine .settle hx hj hplan (.finished _ hop hphase htype fun hkind => ?_) hrecording
      rw [if_neg]
      rw [hkind]
      exact nofun
    · cases h
  | stop =>
    obtain rfl := Option.some.inj h
    exact .drop hx

/-- Every operation is a move. -/
theorem apply_move (hs : s.db.Sound s.issued) (hfresh : a.uid ∉ s.issued)
    (h : a.op.apply c s a.exists_ a.uid a.now = some s') : Move c s a s' := by
  cases hop : a.op with
  | request q =>
    rw [hop] at h
    obtain ⟨db, hdb, rfl⟩ := Option.map_eq_some_iff.mp h
    obtain ⟨new, hevolves, hcreated⟩ := q.apply_evolves hs hfresh (toOption_eq_some.mp hdb)
    refine .manage ?_ (hop ▸ hcreated)
    rw [hop]
    exact hevolves
  | backup q files =>
    rw [hop] at h
    obtain ⟨db, hdb, rfl⟩ := Option.map_eq_some_iff.mp h
    refine .manage ?_ none_created
    rw [hop]
    exact q.apply_evolves hdb
  | approveItem itemId w =>
    rw [hop] at h
    exact approveItem_move hs hfresh hop h
  | cancelJob jobId active =>
    rw [hop] at h
    exact cancelJob_move hs hfresh hop h
  | sweep =>
    rw [hop] at h
    obtain rfl := Option.some.inj h
    exact .sweep
  | claim tokenHash jobId capable sourcePath =>
    rw [hop] at h
    exact claim_move h
  | claimLocal jobId capable inApi =>
    rw [hop] at h
    exact claimLocal_move h
  | work jobId w =>
    rw [hop] at h
    obtain ⟨x, hx, hwork⟩ := Option.bind_eq_some_iff.mp h
    obtain rfl : x.jobId = jobId := by
      have hkey := List.find?_some hx
      exact of_decide_eq_true hkey
    exact work_move hs (Table.mem_of_find hx) hop hwork

/-- A step draws a fresh id and makes a move. -/
theorem step_move (hs : s.db.Sound s.issued) (h : step c s a = some s') :
    a.uid ∉ s.issued ∧ ∃ s₁, Move c s a s₁ ∧ s' = { s₁ with issued := a.uid :: s.issued } := by
  simp only [step] at h
  split at h
  · cases h
  · next hfresh =>
    obtain ⟨s₁, hs₁, rfl⟩ := Option.map_eq_some_iff.mp h
    exact ⟨hfresh, s₁, apply_move hs hfresh hs₁, rfl⟩

end Moves

end Encodr
