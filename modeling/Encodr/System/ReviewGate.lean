import Encodr.System.Retries

/-!
# The review gate

A new job of a file that needs a review is created by an operator who has settled the review, or by the
automatic retry of an execution that was allowed to run. The automatic retry looks at the plan that it
repeats and at the protection by an operator only: the result before it has rewritten the flag of the
file, and it does not ask for the latest job.

* `AutomaticRetry`: when the retry of a failed execution creates a job.
* `Move.created`: the moves that create a job.
* `review_gate`: how a job of a file that needs a review is created.
-/

namespace Encodr

open Python Lib

variable {C : Type}

/-- In the step, the failed result of an execution of the file is recorded; its plan needs no review,
and no operator protects the file. -/
structure AutomaticRetry (c : Settings) (s : State) (a : Action C) (file : TrackedFile)
    (plan : PlanSnapshot) : Prop where
  failed : ∃ job result, FailureRecorded c s a job result ∧ job.trackedFileId = file.id ∧
    s.db.planSnapshot job.planSnapshotId = some plan
  action : plan.action ≠ .manualReview
  unprotected : plan.shouldTreatAsProtected = false
  operator : file.operatorProtected = false

section Gate

variable {c : Settings} {s s' : State} {a : Action C} {db' : Database} {uid : String}
  {new : Option Job} {job : Job}

/-- A row with a new id is the one that the transaction has added. -/
theorem Database.Evolves.mem_new {db : Database} {change : Job → Job → Prop}
    (h : db.Evolves change uid new db') (hid : ∀ row row', change row row' → row'.id = row.id)
    (hj : job ∈ db'.jobs) (hnew : job.id ∉ db.jobIds) : job ∈ new := by
  rcases h.mem hj with ⟨row, hrow, hchange⟩ | hmem
  · refine absurd ?_ hnew
    rw [hid row job hchange]
    exact List.mem_map_of_mem hrow
  · exact hmem

/-- A result creates a job only where an execution failed that may be repeated. -/
theorem Database.Recording.created {db : Database} {calendar : Calendar} {row : Job}
    {plan : PlanSnapshot} {appliedPlan : ProcessingPlan} {result : ExecutionResult} {now : Time}
    (h : Database.Recording db calendar row plan appliedPlan result uid now db' new)
    (hj : job ∈ db'.jobs) (hnew : job.id ∉ db.jobIds) :
    result.status = .failed ∧ row.jobKind = .execution ∧ job.trackedFileId = row.trackedFileId ∧
      db.failureNeedsReview row plan appliedPlan = false := by
  obtain ⟨status, hstatus, hevolves⟩ := h.evolves
  have hmem : job ∈ new := hevolves.mem_new
    (fun _ _ hchange => Job.id_of_terms (hchange.imp (.refl _) fun _ h => h.kept hstatus).terms) hj hnew
  cases h with
  | retried failed kind unreviewed =>
    obtain rfl := Option.some.inj hmem
    exact ⟨failed, kind, rfl, unreviewed⟩
  | _ => exact absurd hmem (Option.not_mem_none job)

/-- A move that creates a job. -/
theorem Move.created (h : Move c s a s') (hj : job ∈ s'.db.jobs)
    (hnew : job.id ∉ s.db.jobIds) :
    job.status = .completed ∨ a.op.Creates s.db job ∨
      ∃ x ∈ s.live, ∃ row plan appliedPlan result, s.db.job x.jobId = some row ∧
        s.db.planSnapshot row.planSnapshotId = some plan ∧
        Recorded c s a x row plan appliedPlan result ∧ result.status = .failed ∧
        row.jobKind = .execution ∧ job.trackedFileId = row.trackedFileId ∧
        s.db.failureNeedsReview row plan appliedPlan = false := by
  have hnone : ∀ {change : Job → Job → Prop} {db : Database}, s.db.Evolves change a.uid none db →
      (∀ row row', change row row' → row'.id = row.id) → job ∉ db.jobs :=
    fun he hid hmem => Option.not_mem_none job (he.mem_new hid hmem hnew)
  have hmanaged : ∀ {r : Rights} {workers : List WorkerId} (row row' : Job),
      row.Managed r workers row' → row'.id = row.id := fun _ _ h => Job.id_of_terms h.terms
  have hold : job ∉ s.db.jobs := fun hmem => hnew (List.mem_map_of_mem hmem)
  cases h with
  | manage evolves created =>
    exact (created job (evolves.mem_new hmanaged hj hnew)).imp_right .inl
  | cancelRemote _ evolves => exact absurd hj (hnone evolves hmanaged)
  | cancelLocal _ evolves => exact absurd hj (hnone evolves hmanaged)
  | ask evolves => exact absurd hj (hnone evolves hmanaged)
  | approve _ _ evolves => exact absurd hj (hnone evolves hmanaged)
  | sweep =>
    have he : s.db.Evolves _ a.uid none (s.sweep a.now).db := Database.handleWorkerInterruptions_evolves
    exact absurd hj (hnone he fun _ _ h => Job.id_of_terms (sweptJob_kept h).terms)
  | claim _ _ _ _ _ evolves =>
    exact absurd hj (hnone evolves fun row _ h =>
      h.imp (P := fun row row' => row'.id = row.id) rfl fun _ h => h ▸ rfl)
  | advance => exact absurd hj hold
  | report _ _ evolves => exact absurd hj (hnone evolves hmanaged)
  | @settle x _ row plan appliedPlan result _ hx hrow hplan recorded recording =>
    obtain ⟨failed, kind, hfile, unreviewed⟩ := recording.created hj hnew
    exact .inr (.inr ⟨x, hx, row, plan, appliedPlan, result, hrow, hplan, recorded, failed, kind, hfile,
      unreviewed⟩)
  | drop => exact absurd hj hold

/-- The plan of an automatic retry is the plan of the job whose result is recorded. -/
theorem Recorded.sourcePlan {x : Execution} {plan : PlanSnapshot} {appliedPlan : ProcessingPlan}
    {result : ExecutionResult} (h : Recorded c s a x job plan appliedPlan result)
    (hj : s.db.job x.jobId = some job) (hplan : s.db.planSnapshot job.planSnapshotId = some plan) :
    a.op.sourcePlan s.db = some plan := by
  have hwork : ∀ w : Work C, (Op.work x.jobId w).sourcePlan s.db = some plan := fun w => by
    rw [Op.sourcePlan, hj, Option.bind_some, hplan]
  cases h with
  | submitted hop => exact hop ▸ hwork _
  | failed hop => exact hop ▸ hwork _
  | finished _ hop => exact hop ▸ hwork _

end Gate

/-- The film is protected by its plan. -/
def protectedRun : List (Action String) := [
  actAt 0 "film" (.request (.planFile film { dualAudioFilm with isHdrCandidate := true } englishPolicy
    { enabled := false })),
  actAt 0 "a" (registers "a")]

/-- An operator approves the film. -/
def approvesFilm : Action String :=
  actAt 1 "job1" (.approveItem "film" ⟨stagedFiles, noFaults, []⟩)

/-- The approved job fails on the worker `a`. -/
def approvedFailsRun : List (Action String) := protectedRun ++ [approvesFilm,
  actAt 2 "claim" (.claim "a" "job1" true film),
  actAt 2 "begin" (.work "job1" .begin),
  actAt 3 "failed" (.work "job1" (.run (.failed "ffmpeg failed." "execution_failed") 0))]

/-- The local worker is disabled, and its job is interrupted and retried. The output of the retry is held
for a review; then the first execution fails. -/
def heldRun : List (Action String) := localFilmRun ++ [
  actAt 2 "disable" (.request (.setWorkerEnabled "local" false)),
  actAt 3 "sweep" .sweep,
  actAt 4 "job2" (.request (.retryJob "job1" "fail")),
  actAt 5 "claim2" (.claim "a" "job2" true film),
  actAt 5 "begin2" (.work "job2" .begin),
  actAt 6 "staged" (.work "job2" (.run (.staged home.scratchDir) 0)),
  actAt 6 "verifying" (.work "job2" .proceed),
  actAt 7 "larger" (.work "job2" (.verify (.media englishFilm)
    (some ⟨"output_larger_than_input", "The output is larger than the source."⟩))),
  actAt 7 "review" (.work "job2" .submit),
  actAt 8 "failed" (.work "job1" (.run (.failed "ffmpeg failed." "execution_failed") 0))]

/-- After the run, the worker records the result of `job1`; a queued job of the film is created from
`plan`, and no operator creates it. -/
def RetriesUnreviewed (run : List (Action String)) (w : Work String) (plan : PlanSnapshot) : Prop :=
  let a := actAt 9 "retry" (.work "job1" w)
  (machine home String).Reachable (homeAfter run) ∧
    a.op.sourcePlan (homeAfter run).db = some plan ∧
    (∀ file, ¬ a.op.PassesReview (homeAfter run).db file plan) ∧
    ∃ s', step home (homeAfter run) a = some s' ∧ ∃ job ∈ s'.db.jobs,
      job.id ∉ (homeAfter run).db.jobIds ∧ job.isQueued = true ∧ job.trackedFileId = "film"

theorem retriesUnreviewed {run : List (Action String)} {w : Work String} {plan : PlanSnapshot}
    (hrun : ((machine home String).run (fun _ _ => true) {} run).isSome = true)
    (hplan : (Op.work "job1" w).sourcePlan (homeAfter run).db = some plan) {s' : State}
    (hstep : step home (homeAfter run) (actAt 9 "retry" (.work "job1" w)) = some s')
    (hretry : "retry" ∈ s'.db.jobIds)
    (hjobs : ∀ job ∈ s'.db.jobs, job.id = "retry" →
      job.id ∉ (homeAfter run).db.jobIds ∧ job.isQueued = true ∧ job.trackedFileId = "film") :
    RetriesUnreviewed run w plan := by
  obtain ⟨job, hj, hid⟩ := List.mem_map.mp hretry
  refine ⟨home_reachable run hrun, hplan, fun file h => ?_, s', hstep, job, hj, hjobs job hj hid⟩
  cases h

end Encodr
