import Encodr.Api.Jobs

/-!
# The review service

The operations of `ReviewService`: an operator approves or rejects a file that needs a review, holds
it, or sets its protection.

An approval completes a finished encode where the latest job left a staged output
(`postEncodeApproval`); else it queues a job with the approved plan. A placement changes files also
where the approval is refused afterwards, so its arguments are found first (`postEncodeApproval`)
and its result is recorded last (`completePostEncodeApproval`).

* `approveItem`, `rejectItem`, `holdItem`, `markProtected`, `clearProtected`: the operations.
* `approveItem_ok`, `rejectItem_ok`, `completePostEncodeApproval_evolves`: the tables after them.
-/

namespace Encodr

open Python Lib

/-! ## Items -/

/-- The fields of `ReviewItemContext` that decide. -/
structure ReviewItem where
  trackedFile : TrackedFile
  latestProbe : Option ProbeSnapshot
  latestPlan : Option PlanSnapshot
  latestJob : Option Job
  requiresReview : Bool

namespace Database

variable (db : Database)

/-- `_build_item_context`. -/
def buildItemContext (file : TrackedFile) : ReviewItem :=
  let latestPlan := db.latestPlanSnapshot file.id
  let latestJob := db.latestJob file.id
  let isProtected := latestPlan.any (·.shouldTreatAsProtected) || file.operatorProtected ||
    file.isProtected
  { trackedFile := file
    latestProbe := db.latestProbeSnapshot file.id
    latestPlan := latestPlan
    latestJob := latestJob
    requiresReview := isProtected || latestPlan.any (·.action == .manualReview) ||
      latestJob.any fun job => job.status == .failed || job.status == .manualReview }

/-- `get_item`. -/
def getItem (itemId : FileId) : Except ApiError ReviewItem := do
  let file ← found (.notFound "Review item could not be found.") (db.trackedFile itemId)
  let item := db.buildItemContext file
  require (item.requiresReview ∨ db.decisions.any fun d => d.trackedFileId = itemId)
    (.notFound "Review item could not be found.")
  return item

end Database

/-! ## Jobs of reviewed files -/

/-- How an operator settles a review with a new job. -/
inductive ReviewMode where
  | approve
  | reject
deriving DecidableEq

namespace Database

variable (db : Database) (calendar : Calendar)

/-- `_queue_review_job`. -/
def queueReviewJob (item : ReviewItem) (mode : ReviewMode) (planId : PlanId) (jobId : JobId)
    (now : Time) : Except ApiError (Database × Job × PlanSnapshot) := do
  let plan ← found (.conflict "No complete plan exists for this review item.") item.latestPlan
  let probe ← found (.conflict "No complete plan exists for this review item.") item.latestProbe
  require (db.hasActiveJob item.trackedFile.id = false) activeJobConflict
  let executablePlan := match mode with
    | .approve => approvedExecutionPlan plan.payload
    | .reject => stripOnlyPlan plan.payload
  let (db, snapshot) := db.addPlanSnapshot planId item.trackedFile.id probe.id executablePlan now
  let o : JobOptions := { backupPolicy := (item.latestJob.map (·.backupPolicy)).getD "keep" }
  let (db, job) ← found activeJobConflict
    (db.createJobFromPlan calendar jobId item.trackedFile.id snapshot o now)
  return (db, job, snapshot)

/-- `_record_decision`. -/
def recordDecision (item : ReviewItem) (id : String) (decisionType : ManualReviewDecisionType)
    (plan : Option PlanSnapshot) (jobId : Option JobId) (now : Time) : Database :=
  db.addDecision {
    id := id
    trackedFileId := item.trackedFile.id
    planSnapshotId := (plan <|> item.latestPlan).map (·.id)
    jobId := jobId
    decisionType := decisionType
    createdAt := now }

end Database

/-! ## Completing a finished encode -/

/-- What an approval finds at the latest job. -/
inductive PostEncode where
  /-- The job left no staged output. -/
  | absent
  /-- The output of the job has been placed. -/
  | placed (job : Job)
  /-- The staged output of the job is to be placed under the latest plan. -/
  | staged (job : Job) (plan : PlanSnapshot) (sourcePath stagedOutput : PosixPath)

section PostEncode

variable (os : PathOs) (roots : PathRoots) (exists_ : PosixPath → Bool)

/-- The beginning of `_complete_post_encode_approval`, up to the placement. -/
def postEncodeApproval (item : ReviewItem) : Except ApiError PostEncode :=
  match item.latestJob, item.latestPlan with
  | some job, some plan =>
    if job.status ≠ .manualReview then return .absent
    else match job.outputPath with
      | none => return .absent
      | some outputPath => do
        let stagedOutput ← found (.validation "output_path is required.")
          (← validateOutputPath os (some outputPath) roots "output_path")
        if ¬ exists_ stagedOutput then
          return .absent
        if job.replacementStatus = .succeeded then
          return .placed job
        let sourcePath ← found
          (.conflict "The reviewed file does not have a valid source path.")
          (← validateFinalOutputPath os (some item.trackedFile.sourcePath) roots "source_path")
        return .staged job plan sourcePath stagedOutput
  | _, _ => return .absent

/-- The result that a completed approval records. -/
def postEncodeResult (job : Job) (stagedOutput finalOutputPath : PosixPath)
    (originalBackupPath : Option PosixPath) (replacement : ReplacementResult) (now : Time) :
    ExecutionResult where
  status := .completed
  outputPath := some stagedOutput
  finalOutputPath := some finalOutputPath
  originalBackupPath := originalBackupPath
  verification := job.verificationPayload
  replacement := some { replacement with
    finalOutputPath := some finalOutputPath
    originalBackupPath := originalBackupPath }
  startedAt := job.startedAt.getD now
  completedAt := now

/-- The end of `_complete_post_encode_approval`, from the result of the placement. -/
def Database.completePostEncodeApproval (db : Database) (job : Job) (plan : PlanSnapshot)
    (stagedOutput : PosixPath) (placement : Except Raised ReplacementResult) (now : Time) :
    Except ApiError Database := do
  let replacement ← match placement with
    | .ok replacement => pure replacement
    | .error _ => .error (.conflict "Verified output placement failed.")
  require (replacement.status = .succeeded) (.conflict
    (textOr replacement.failureMessage "Verified output placement failed."))
  let finalOutputPath ← found
    (.conflict "Verified output placement did not report a final output path.")
    (← validateFinalOutputPath os replacement.finalOutputPath roots "replacement.final_output_path")
  let originalBackupPath ← validateBackupPath os replacement.originalBackupPath roots
    "replacement.original_backup_path"
  let result := postEncodeResult job stagedOutput finalOutputPath originalBackupPath replacement now
  return (db.updateJob job.id (·.markResult result) now).updateFile job.trackedFileId
    (·.afterExecution plan.payload result exists_) now

end PostEncode

/-! ## Settling a review -/

namespace Database

variable (db : Database) (calendar : Calendar)

/-- An item that an operator can settle. -/
def reviewItem (itemId : FileId) (message : String) : Except ApiError ReviewItem := do
  let item ← db.getItem itemId
  require (item.requiresReview = true) (.conflict message)
  return item

/-- `approve_item` where the latest job left no staged output. -/
def approveItem (itemId : FileId) (planId : PlanId) (jobId : JobId) (decisionId : String)
    (now : Time) : Except ApiError (Database × Job) := do
  let item ← db.reviewItem itemId "This item does not currently require review approval."
  let (db, job, plan) ← db.queueReviewJob calendar item .approve planId jobId now
  return (db.recordDecision item decisionId .approved (some plan) (some job.id) now, job)

/-- `reject_item`. -/
def rejectItem (itemId : FileId) (planId : PlanId) (jobId : JobId) (decisionId : String)
    (now : Time) : Except ApiError (Database × Job) := do
  let item ← db.reviewItem itemId "This item does not currently require review rejection."
  let (db, job, plan) ← db.queueReviewJob calendar item .reject planId jobId now
  return (db.recordDecision item decisionId .rejected (some plan) (some job.id) now, job)

/-- `hold_item`. -/
def holdItem (itemId : FileId) (decisionId : String) (now : Time) : Except ApiError Database := do
  let item ← db.getItem itemId
  return db.recordDecision item decisionId .held none none now

/-- `mark_protected`. -/
def markProtected (itemId : FileId) (decisionId : String) (now : Time) :
    Except ApiError Database := do
  let item ← db.getItem itemId
  let db := db.updateFile itemId (·.setOperatorProtected true item.latestPlan now) now
  return db.recordDecision item decisionId .markProtected none none now

/-- `clear_protected`. -/
def clearProtected (itemId : FileId) (decisionId : String) (now : Time) :
    Except ApiError Database := do
  let item ← db.getItem itemId
  require (item.trackedFile.operatorProtected = true)
    (.conflict "Only operator-applied protection can be cleared.")
  let db := db.updateFile itemId (·.setOperatorProtected false item.latestPlan now) now
  return db.recordDecision item decisionId .clearProtected none none now

end Database

/-! ## What the operations do -/

section Specs

variable {os : PathOs} {roots : PathRoots} {exists_ : PosixPath → Bool} {calendar : Calendar}
  {db db' : Database} {item : ReviewItem} {job : Job} {plan : PlanSnapshot} {now : Time}
  {issued : List String} {uid : String} {workers : List WorkerId} {r : Rights}

/-- A staged output belongs to the latest job, in manual review, and meets the latest plan. -/
theorem postEncodeApproval_staged {sourcePath stagedOutput : PosixPath}
    (h : postEncodeApproval os roots exists_ item = .ok (.staged job plan sourcePath stagedOutput)) :
    item.latestJob = some job ∧ item.latestPlan = some plan ∧ job.status = .manualReview ∧
      job.outputPath.isSome = true := by
  unfold postEncodeApproval at h
  split at h
  · next job₀ plan₀ hjob hplan =>
    split at h
    · cases h
    · next hst =>
      split at h
      · cases h
      · next output houtput =>
        simp only [bind_ok, found_ok] at h
        obtain ⟨_, -, staged, -, h⟩ := h
        split at h
        · cases h
        · split at h
          · cases h
          · simp only [bind_ok, found_ok, return_ok, PostEncode.staged.injEq] at h
            obtain ⟨_, -, _, -, rfl, rfl, -, -⟩ := h
            exact ⟨hjob, hplan, not_not.mp hst, by rw [houtput]; rfl⟩
  · cases h

namespace Database

theorem getItem_ok {itemId : FileId} (h : db.getItem itemId = .ok item) :
    ∃ file, db.trackedFile itemId = some file ∧ item = db.buildItemContext file := by
  simp only [getItem, bind_ok, require_ok, found_ok, return_ok, exists_const] at h
  obtain ⟨file, hfile, -, rfl⟩ := h
  exact ⟨file, hfile, rfl⟩

theorem reviewItem_ok {itemId : FileId} {message : String}
    (h : db.reviewItem itemId message = .ok item) :
    ∃ file, db.trackedFile itemId = some file ∧ item = db.buildItemContext file := by
  simp only [reviewItem, bind_ok, require_ok, return_ok, exists_const] at h
  obtain ⟨_, hitem, -, rfl⟩ := h
  exact getItem_ok hitem

/-- A job that settles a review, from the latest plan. -/
theorem queueReviewJob_ok {mode : ReviewMode} {planId : PlanId} {snapshot : PlanSnapshot}
    (hfile : item.trackedFile.id ∈ db.fileIds)
    (h : db.queueReviewJob calendar item mode planId uid now = .ok (db', job, snapshot)) :
    job.trackedFileId = item.trackedFile.id ∧ (∃ plan, item.latestPlan = some plan) ∧
      db.Evolves Eq uid (some job) db' := by
  simp only [queueReviewJob, bind_ok, require_ok, found_ok, return_ok, exists_const,
    Prod.mk.injEq] at h
  obtain ⟨plan, hplan, _, -, -, ⟨db₁, new⟩, hjob, rfl, rfl, -⟩ := h
  obtain ⟨hid, hevolves⟩ := createJobFromPlan_evolves hjob (addPlanSnapshot_mem ..)
    ((addPlanSnapshot_extends ..).files hfile) le_rfl
  exact ⟨hid, ⟨plan, hplan⟩, hevolves.after (addPlanSnapshot_extends ..)⟩

/-- A job that settles a review, and the decision after it. -/
theorem settled_ok {itemId : FileId} {message : String} {mode : ReviewMode} {planId : PlanId}
    {db₁ : Database} {snapshot : PlanSnapshot} (d : ManualReviewDecision)
    (hitem : db.reviewItem itemId message = .ok item)
    (h : db.queueReviewJob calendar item mode planId uid now = .ok (db₁, job, snapshot)) :
    (∃ file plan, db.trackedFile job.trackedFileId = some file ∧ file.id = itemId ∧
      db.latestPlanSnapshot itemId = some plan) ∧
      db.Evolves Eq uid (some job) (db₁.addDecision d) := by
  obtain ⟨file, hfile, rfl⟩ := reviewItem_ok hitem
  have hid := trackedFile_id hfile
  obtain ⟨hjob, ⟨plan, hplan⟩, hevolves⟩ := queueReviewJob_ok
    (mem_fileIds.mpr ⟨file, hid.symm ▸ hfile⟩) h
  refine ⟨⟨file, plan, ?_, hid, ?_⟩, hevolves.frame rfl rfl rfl rfl⟩
  · rw [hjob]
    exact hid.symm ▸ hfile
  · exact hid ▸ hplan

theorem approveItem_ok {itemId : FileId} {planId : PlanId} {decisionId : String}
    (h : db.approveItem calendar itemId planId uid decisionId now = .ok (db', job)) :
    (∃ file plan, db.trackedFile job.trackedFileId = some file ∧ file.id = itemId ∧
      db.latestPlanSnapshot itemId = some plan) ∧ db.Evolves Eq uid (some job) db' := by
  simp only [approveItem, bind_ok, return_ok, Prod.mk.injEq] at h
  obtain ⟨_, hitem, ⟨db₁, new, snapshot⟩, hqueue, rfl, rfl⟩ := h
  exact settled_ok _ hitem hqueue

theorem rejectItem_ok {itemId : FileId} {planId : PlanId} {decisionId : String}
    (h : db.rejectItem calendar itemId planId uid decisionId now = .ok (db', job)) :
    (∃ file plan, db.trackedFile job.trackedFileId = some file ∧ file.id = itemId ∧
      db.latestPlanSnapshot itemId = some plan) ∧ db.Evolves Eq uid (some job) db' := by
  simp only [rejectItem, bind_ok, return_ok, Prod.mk.injEq] at h
  obtain ⟨_, hitem, ⟨db₁, new, snapshot⟩, hqueue, rfl, rfl⟩ := h
  exact settled_ok _ hitem hqueue

theorem holdItem_evolves {itemId : FileId} {decisionId : String}
    (h : db.holdItem itemId decisionId now = .ok db') : db.Evolves Eq uid none db' := by
  simp only [holdItem, bind_ok, return_ok] at h
  obtain ⟨_, -, rfl⟩ := h
  exact (Evolves.refl db).frame rfl rfl rfl rfl

/-- The protection of a file is set, and the decision is noted. -/
theorem setOperatorProtected_evolves (fileId : FileId) (value : Bool) (latestPlan : Option PlanSnapshot)
    (d : ManualReviewDecision) :
    db.Evolves Eq uid none
      ((db.updateFile fileId (·.setOperatorProtected value latestPlan now) now).addDecision d) :=
  ((Evolves.refl db).updateFile (f := (·.setOperatorProtected value latestPlan now))
    fun _ => rfl).frame rfl rfl rfl rfl

theorem markProtected_evolves {itemId : FileId} {decisionId : String}
    (h : db.markProtected itemId decisionId now = .ok db') : db.Evolves Eq uid none db' := by
  simp only [markProtected, bind_ok, return_ok] at h
  obtain ⟨_, -, rfl⟩ := h
  exact setOperatorProtected_evolves _ _ _ _

theorem clearProtected_evolves {itemId : FileId} {decisionId : String}
    (h : db.clearProtected itemId decisionId now = .ok db') : db.Evolves Eq uid none db' := by
  simp only [clearProtected, bind_ok, require_ok, return_ok, exists_const] at h
  obtain ⟨_, -, -, rfl⟩ := h
  exact setOperatorProtected_evolves _ _ _ _

/-- A completed approval completes the job in review. -/
theorem completePostEncodeApproval_evolves {stagedOutput : PosixPath}
    {placement : Except Raised ReplacementResult} (hs : db.Sound issued) (hfresh : uid ∉ issued)
    (hj : db.job job.id = some job) (hst : job.status = .manualReview)
    (houtput : job.outputPath.isSome = true) (hresolves : r.resolves job) (hpasses : r.passes job)
    (h : db.completePostEncodeApproval os roots exists_ job plan stagedOutput placement now =
      .ok db') : db.Evolves (Job.Managed r workers) uid none db' := by
  cases placement with
  | error _ => cases h
  | ok replacement =>
  simp only [completePostEncodeApproval, bind_ok, require_ok, found_ok, return_ok,
    exists_const] at h
  obtain ⟨_, rfl, -, _, -, final, -, backup, -, rfl⟩ := h
  refine (updateJob_evolves hs hfresh hj ?_).updateFile fun file => file.afterExecution_id _ _ _
  have hidle : job.status ≠ .running ∧ job.status ≠ .completed ∧ job.status ≠ .scheduled := by
    rw [hst]
    simp
  refine ⟨job.markResult_terms _, ?_, fun hc => ?_, (absurd · hidle.1), (absurd · hidle.1),
    fun hc => ?_, (absurd · hidle.2.1), fun _ => houtput, fun _ => .inr hresolves,
    (absurd · hidle.2.2), fun _ => .inr ⟨by rw [hst]; rfl, hpasses⟩,
    fun _ => .inr hpasses⟩
  · dsimp only
    rw [Job.markResult_status, hst]
    rfl
  · dsimp only
    rwa [Job.markResult_clearedAt]
  · dsimp only
    rwa [Job.markResult_cancellationRequestedAt]

end Database

end Specs

end Encodr
