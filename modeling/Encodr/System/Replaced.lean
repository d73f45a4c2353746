import Encodr.System.Steps

/-!
# Replacements that are recorded

The agent places its output first and submits its result afterwards. The submission is accepted while
the job runs for the worker, and the worker authenticates; no cancellation is recorded over a placed
output. A job that is completed stays so.

* `Execution.Finishes`: a completed execution has placed its output.
* `replaced_job_completes`: the job of a placed output is completed, unless the sweep has interrupted
  it, or the worker or its paths are refused.
-/

namespace Encodr

open Python Lib

variable {C : Type}

/-! ## Completed executions -/

/-- An execution that is completed has placed its output, and reports where. -/
def Execution.Finishes (x : Execution) : Prop :=
  ∀ result, x.phase = .finished result → result.status = .completed → x.jobKind = .execution →
    resultCompletedReplacement result = true

section Finishes

variable {c : Settings} {s s' : State} {a : Action C} {x : Execution} {now : Time} {phase : Phase}
  {events : List Event}

/-- A phase that is not the end of a completed execution. -/
theorem Execution.Finishes.of_phase (h : ∀ result, x.phase = .finished result →
    result.status ≠ .completed) : x.Finishes :=
  fun result hphase hcompleted => absurd hcompleted (h result hphase)

/-- A placement that ends a completed execution has succeeded. -/
theorem Execution.afterPlacement_finishes (x : Execution) (output : StagedOutput)
    (verification : VerificationResult) {placement : Except Raised ReplacementResult} (now : Time)
    (hreports : ∀ r, placement = .ok r → r.ReportsFinal) :
    { x with phase := x.afterPlacement output verification placement now }.Finishes := by
  intro result hphase hcompleted _
  dsimp only at hphase
  unfold Execution.afterPlacement at hphase
  split at hphase
  · next replacement _ =>
    split at hphase
    · next hsucceeded =>
      have hfinal := hreports replacement rfl hsucceeded
      obtain rfl := Phase.finished.inj hphase
      simp [resultCompletedReplacement, StagedOutput.placedResult, hsucceeded, hfinal]
    · obtain rfl := Phase.finished.inj hphase
      cases hcompleted
  · obtain rfl := Phase.finished.inj hphase
    cases hcompleted

theorem Execution.Advance.finishes (h : x.Advance C now phase events) :
    { x with phase := phase }.Finishes := by
  cases h with
  | begin => exact .of_phase fun _ => nofun
  | run hrun =>
    obtain ⟨-, ⟨output, rfl, -⟩ | ⟨result, rfl, hdry, -⟩⟩ := Execution.afterRun_eq_some hrun
    · exact .of_phase fun _ => nofun
    · intro result' hphase hcompleted hkind
      obtain rfl := Phase.finished.inj hphase
      exact nomatch (hdry hcompleted).symm.trans hkind
  | cancel hcancel =>
    refine .of_phase fun result hphase => ?_
    obtain rfl := Phase.finished.inj hphase
    rw [(Execution.cancelledAt_eq_some hcancel).1]
    exact nofun
  | @verify output media probe safety =>
    refine .of_phase fun result hphase => ?_
    rcases Execution.afterVerification_cases output (verifyOutput x.plan media probe) safety now with
      ⟨-, h⟩ | ⟨result', h, hstatus, -⟩
    · exact nomatch h.symm.trans hphase
    · obtain rfl := Phase.finished.inj (h.symm.trans hphase)
      exact hstatus
  | place w =>
    exact x.afterPlacement_finishes _ _ now fun _ hr => placeVerifiedOutput_reportsFinal hr
  | refuse message =>
    refine .of_phase fun result hphase => ?_
    rcases x.afterRefusal_eq message now with ⟨category, h⟩ | ⟨result', h, hstatus, -⟩
    · exact nomatch h.symm.trans hphase
    · obtain rfl := Phase.finished.inj (h.symm.trans hphase)
      rw [hstatus]
      exact nofun
  | fail => exact .of_phase fun _ => nofun

theorem Execution.Report.finishes {cancel asked : Bool} (h : x.Report now cancel phase events) :
    { x with cancelRequested := asked, phase := phase }.Finishes := by
  refine .of_phase fun result hphase => ?_
  cases h with
  | begin =>
    simp only [Execution.afterBegin] at hphase
    split at hphase
    · obtain rfl := Phase.finished.inj hphase
      exact nofun
    · cases hphase
  | progress => cases hphase
  | proceed hnext =>
    unfold Execution.nextReport at hnext
    split at hnext
    · obtain ⟨-, -, rfl⟩ := Prod.mk.injEq .. ▸ Option.some.inj hnext
      cases hphase
    · obtain ⟨-, -, rfl⟩ := Prod.mk.injEq .. ▸ Option.some.inj hnext
      cases hphase
    · cases hnext

theorem Move.finishes (h : Move c s a s') (hs : ∀ x ∈ s.live, x.Finishes) :
    ∀ x' ∈ s'.live, x'.Finishes := by
  intro x' hx'
  cases h.execution hx' with
  | kept hx claim phase =>
    intro result hphase hcompleted hkind
    exact hs _ hx result (phase ▸ hphase) hcompleted ((congrArg Claim.jobKind claim).symm.trans hkind)
  | claimed _ _ _ phase =>
    refine .of_phase fun result hphase => ?_
    exact nomatch phase.symm.trans hphase
  | advanced hx hadvance _ heq => exact heq ▸ hadvance.finishes
  | reported hx hreport _ _ heq => exact heq ▸ hreport.finishes

end Finishes

theorem finishes_inductive (c : Settings) :
    (machine c C).Inductive (fun _ _ => True) fun s => s.Inv ∧ ∀ x ∈ s.live, x.Finishes := by
  refine (inv_inductive c).assuming ?_ ?_
  · rintro s rfl
    exact fun x hx => absurd hx List.not_mem_nil
  · intro s a s' hI hs _ hstep
    obtain ⟨hfresh, s₁, hmove, rfl⟩ := step_move hI.sound hstep
    have hfinishes := hmove.finishes hs
    exact hfinishes

/-! ## Completed jobs -/

section Completed

variable {c : Settings} {s s' : State} {a : Action C} {job job' : Job} {issued : List String}

/-- A completed job stays completed, with its outputs. -/
theorem RowMove.completed_stays (hI : s.Inv) (h : RowMove c s a s' job job') (hj : job ∈ s.db.jobs)
    (hcompleted : job.status = .completed) :
    job'.status = .completed ∧ job'.outputPath = job.outputPath ∧
      job'.finalOutputPath = job.finalOutputPath := by
  have hmanaged : ∀ {r : Rights} {workers : List WorkerId}, job.Managed r workers job' →
      job'.status = .completed ∧ job'.outputPath = job.outputPath ∧
        job'.finalOutputPath = job.finalOutputPath := by
    intro r workers h
    have hstatus := h.status
    rw [hcompleted] at hstatus
    exact ⟨by simpa [JobStatus.mayBecome] using hstatus, h.completed hcompleted⟩
  cases h with
  | managed _ h => exact hmanaged h
  | approved _ _ h => exact hmanaged h
  | swept h => cases hcompleted.symm.trans (Database.running_of_sweeps h)
  | claimed _ pending => cases hcompleted.symm.trans pending
  | recorded hx hid =>
    have hclaimed := (hI.row_of_mem hx hj hid).claimed
    rw [hcompleted] at hclaimed
    cases hclaimed

theorem completed_stays_run (hI : s.Inv) {actions : List (Action C)}
    (hrun : (machine c C).run (fun _ _ => true) s actions = some s') (hj : job ∈ s.db.jobs)
    (hcompleted : job.status = .completed) :
    ∃ job' ∈ s'.db.jobs, job'.id = job.id ∧ job'.status = .completed ∧
      job'.outputPath = job.outputPath ∧ job'.finalOutputPath = job.finalOutputPath := by
  induction actions generalizing s job with
  | nil =>
    obtain rfl := Option.some.inj hrun
    exact ⟨job, hj, rfl, hcompleted, rfl, rfl⟩
  | cons a actions ih =>
    simp only [Sys.run, if_true, Option.bind_eq_some_iff] at hrun
    obtain ⟨s₁, hstep, hrun⟩ := hrun
    obtain ⟨hfresh, s₂, hmove, rfl⟩ := step_move hI.sound hstep
    obtain ⟨new, hevolves⟩ := hmove.evolves hI
    obtain ⟨job₁, hj₁, hkept⟩ := hevolves.changed hj
    have hid := Job.id_of_terms hkept.terms
    obtain ⟨hstatus, houtput, hfinal⟩ :=
      (hmove.row hI hfresh hj hj₁ hid).completed_stays hI hj hcompleted
    obtain ⟨job', hj', hid', hstatus', houtput', hfinal'⟩ := ih (hI.step hstep) hrun hj₁ hstatus
    exact ⟨job', hj', hid'.trans hid, hstatus', houtput'.trans houtput, hfinal'.trans hfinal⟩

/-- A placed output is recorded as reported, also after a cancellation. -/
theorem acceptedResult_of_replacement {os : PathOs} {roots : PathRoots} {worker : Worker}
    {result accepted : ExecutionResult} {now : Time} (hr : resultCompletedReplacement result = true)
    (hn : normaliseRemoteResult os roots worker result = .ok accepted) :
    acceptedResult os roots worker job result now = accepted ∧ accepted.status = .completed ∧
      accepted.finalOutputPath.isSome = true := by
  have hsame := normaliseResult_ok hn
  simp only [resultCompletedReplacement, Bool.and_eq_true, beq_iff_eq, Option.any_eq_true] at hr
  obtain ⟨⟨hcompleted, replacement, hreplacement, hsucceeded⟩, hfinal⟩ := hr
  have hstatus : accepted.status = .completed := hsame.status.trans hcompleted
  have hfinal' : accepted.finalOutputPath.isSome = true := hsame.finalOutputPath.trans hfinal
  have haccepted : resultCompletedReplacement accepted = true := by
    have hmap := hsame.replacement
    rw [hreplacement, Option.map_some, hsucceeded] at hmap
    obtain ⟨replacement', hreplacement', hsucceeded'⟩ := Option.map_eq_some_iff.mp hmap
    simp [resultCompletedReplacement, hstatus, hreplacement', hsucceeded', hfinal']
  refine ⟨?_, hstatus, hfinal'⟩
  simp only [acceptedResult, hn, haccepted, not_true_eq_false, and_false, if_false]

/-- The worker of an execution whose job has not been interrupted reports on it. -/
theorem Row.reports {x : Execution} {worker : Worker} (hs : s.db.Sound issued)
    (h : Row s.db issued x.toClaim x.swept job) (hswept : x.swept = false)
    (hworker : worker ∈ s.db.workers) (hid : worker.id = x.workerId) :
    ∃ plan, s.db.Reports worker x.jobId job plan := by
  have hheld := h.held hswept
  obtain ⟨plan, hplan, -⟩ := h.plan
  refine ⟨plan, h.id ▸ hs.job_of_mem h.mem, ?_, hheld.running, hplan⟩
  rcases hheld.assigned with hassigned | ⟨-, hgone⟩
  · rw [hassigned, hid]
  · have hmem : worker.id ∈ s.db.workerIds := List.mem_map_of_mem hworker
    exact absurd (hid ▸ hmem) hgone

/-- A completed result is recorded as such. -/
theorem Database.Recording.recorded_of_completed {db db' : Database} {calendar : Calendar}
    {plan : PlanSnapshot} {appliedPlan : ProcessingPlan} {result : ExecutionResult} {uid : String}
    {now : Time} {new : Option Job}
    (h : Database.Recording db calendar job plan appliedPlan result uid now db' new)
    (hj : job ∈ db.jobs) (hcompleted : result.status = .completed) :
    ∃ job' ∈ db'.jobs, job'.id = job.id ∧ job.Recorded result .completed job' := by
  obtain ⟨status, hstatus, hevolves⟩ := h.evolves
  obtain ⟨job', hj', hchange⟩ := hevolves.changed hj
  have hrecorded := hchange.of_eq rfl
  obtain rfl : status = .completed := by
    rcases hstatus with hstatus | ⟨hfailed, -⟩
    · rw [hstatus, hcompleted]
      rfl
    · exact nomatch hcompleted.symm.trans hfailed
  exact ⟨job', hj', Job.id_of_terms hrecorded.terms, hrecorded⟩

end Completed

/-! ## Every run -/

/-- A remote worker has placed the output of an execution, and no sweep has interrupted the job since
it was claimed. If the worker authenticates and the reported paths are accepted, its submission
completes the job with this output, whatever cancellations were requested, and the job stays so. -/
theorem replaced_job_completes (c : Settings) {s s' : State} {a : Action C}
    (h : (machine c C).Reachable s) {x : Execution} (hx : x ∈ s.live) (hkind : x.jobKind = .execution)
    (htype : x.workerType = .remote) {result : ExecutionResult} (hphase : x.phase = .finished result)
    (hplaced : result.status = .completed) (hswept : x.swept = false) {worker : Worker}
    (hauth : s.db.requireAuthenticatedWorker x.tokenHash = .ok worker)
    (hworker : worker.id = x.workerId) {accepted : ExecutionResult}
    (hpaths : normaliseRemoteResult c.os c.roots worker result = .ok accepted)
    (hop : a.op = .work x.jobId .submit) (hstep : step c s a = some s') {actions : List (Action C)}
    {later : State} (hrun : (machine c C).run (fun _ _ => true) s' actions = some later) :
    ∃ job ∈ later.db.jobs, job.id = x.jobId ∧ job.status = .completed ∧
      job.outputPath = accepted.outputPath ∧ job.finalOutputPath = accepted.finalOutputPath ∧
      job.finalOutputPath.isSome = true := by
  obtain ⟨hI, hfinishes⟩ := (finishes_inductive c).reach h
  obtain ⟨job, hrow⟩ := hI.rows x hx
  have hmem := (Database.requireAuthenticatedWorker_ok.mp hauth).1
  obtain ⟨plan, hreports⟩ := hrow.reports hI.sound hswept (Table.mem_of_find hmem) hworker
  have hcompleted := hfinishes x hx result hphase hplaced hkind
  obtain ⟨haccepted, hstatus, hfinal⟩ := acceptedResult_of_replacement
    hcompleted hpaths
  obtain ⟨new, hrecording⟩ := step_recording hI hstep hx hreports.row hreports.snapshot
    (hrow.kind.trans hkind) (.submitted hop hphase htype hauth hreports)
  rw [haccepted] at hrecording
  obtain ⟨job₁, hj₁, hid₁, hrecorded⟩ := hrecording.recorded_of_completed hrow.mem hstatus
  obtain ⟨job', hj', hid', hcompleted', houtput', hfinal'⟩ :=
    completed_stays_run (hI.step hstep) hrun hj₁ hrecorded.status
  refine ⟨job', hj', (hid'.trans hid₁).trans hrow.id, hcompleted', ?_, ?_, ?_⟩
  · exact houtput'.trans hrecorded.outputPath
  · exact hfinal'.trans hrecorded.finalOutputPath
  · rw [hfinal', hrecorded.finalOutputPath]
    exact hfinal

/-- The worker `a` places its output; a cancellation is accepted before it submits. -/
def cancelledPlacementRun : List (Action String) :=
  remoteFilmRun ++ replacesFilm ++ [actAt 4 "cancel" (.cancelJob "job1" false)]

/-- The submission of `job1`. -/
def submits : Action String := actAt 4 "submit" (.work "job1" .submit)

theorem replaced_job_completes_film :
    ∃ job ∈ (homeAfter (cancelledPlacementRun ++ [submits])).db.jobs,
      job.id = "job1" ∧ job.status = .completed ∧ job.finalOutputPath.isSome = true := by
  obtain ⟨x, result, worker, accepted, hlive, hid, hkind, htype, hphase, hplaced, hswept, hauth, hworker,
      hpaths⟩ : ∃ x result worker accepted, (homeAfter cancelledPlacementRun).live = [x] ∧
        x.jobId = "job1" ∧ x.jobKind = .execution ∧ x.workerType = .remote ∧
        x.phase = .finished result ∧ result.status = .completed ∧ x.swept = false ∧
        (homeAfter cancelledPlacementRun).db.requireAuthenticatedWorker x.tokenHash = .ok worker ∧
        worker.id = x.workerId ∧
        normaliseRemoteResult home.os home.roots worker result = .ok accepted :=
    ⟨_, _, _, _, rfl, rfl, rfl, rfl, rfl, rfl, rfl, rfl, rfl, rfl⟩
  have hx : x ∈ (homeAfter cancelledPlacementRun).live := hlive ▸ List.mem_singleton_self x
  have hop : submits.op = .work x.jobId .submit := by rw [hid]; rfl
  have hstep : step home (homeAfter cancelledPlacementRun) submits =
      some (homeAfter (cancelledPlacementRun ++ [submits])) := rfl
  have hrun : (machine home String).run (fun _ _ => true)
      (homeAfter (cancelledPlacementRun ++ [submits])) [] =
        some (homeAfter (cancelledPlacementRun ++ [submits])) := rfl
  obtain ⟨job, hj, hjid, hcompleted, -, -, hfinal⟩ := replaced_job_completes home
    (home_reachable cancelledPlacementRun (by decide)) hx hkind htype hphase hplaced hswept hauth hworker
    hpaths hop hstep hrun
  exact ⟨job, hj, hjid.trans hid, hcompleted, hfinal⟩

/-! ## Outputs that are not recorded -/

/-- The agent submits its result, which is refused, and so is the report of its failure. -/
def refusedSubmission : List (Action String) := [
  actAt 11 "submit" (.work "job1" .submit),
  actAt 11 "report" (.work "job1" .reportFailure)]

/-- The job is interrupted after the output was placed. -/
def sweptPlacementRun : List (Action String) :=
  remoteFilmRun ++ replacesFilm ++ [actAt 10 "sweep" .sweep] ++ refusedSubmission

/-- Someone fails to register as the worker `a` after the output was placed. -/
def spoofedPlacementRun : List (Action String) :=
  remoteFilmRun ++ replacesFilm ++ [actAt 5 "spoof" (.request (.registerWorker {
    workerKey := "a"
    displayName := "a"
    registrationSecret := none
    pairingTokenHash := none
    maxConcurrentJobs := 1
    pathMappings := []
    scratchPath := none
    healthStatus := .healthy }))] ++ refusedSubmission ++ [actAt 12 "sweep" .sweep]

/-- In both runs the output is placed, its worker has no result to submit any more, and the job is
interrupted. -/
theorem placed_output_disowned :
    ((machine home String).Reachable (homeAfter sweptPlacementRun) ∧
      (∃ output plan, .placed "job1" output plan ∈ (homeAfter sweptPlacementRun).log) ∧
      (homeAfter sweptPlacementRun).live = [] ∧
      (homeAfter sweptPlacementRun).db.jobs.map (fun job => (job.id, job.status)) =
        [("job1", .interrupted)]) ∧
    (machine home String).Reachable (homeAfter spoofedPlacementRun) ∧
      (∃ output plan, .placed "job1" output plan ∈ (homeAfter spoofedPlacementRun).log) ∧
      (homeAfter spoofedPlacementRun).live = [] ∧
      (homeAfter spoofedPlacementRun).db.jobs.map (fun job => (job.id, job.status)) =
        [("job1", .interrupted)] := by
  have hplaced : ∀ {s : State} {output : PosixPath} {plan : ProcessingPlan} {log : List Event},
      s.log = .placed "job1" output plan :: log → ∃ output plan, .placed "job1" output plan ∈ s.log :=
    fun h => ⟨_, _, h ▸ List.mem_cons_self⟩
  exact ⟨⟨home_reachable _ (by decide), hplaced rfl, by decide, by decide⟩,
    home_reachable _ (by decide), hplaced rfl, by decide, by decide⟩

end Encodr
