import Encodr.System.Steps

/-!
# Cancellations

An accepted cancellation is a mark: in the row for a remote worker, in the process for the local one.
Whether the execution stops, and whether its failure is retried, depends on who looks at the mark.

* `cancellation_final`: where no failure of a cancelled job is recorded that the retry policy takes,
  no automatic retry is created from it.
* `cancelled_never_places`: where no cancellation is accepted in a stage whose worker does not look
  for one, the execution places nothing and its job does not end completed.
-/

namespace Encodr

open Python Lib

variable {C : Type}

/-! ## Automatic retries of cancelled jobs -/

/-- The step of the worker reports a failure: a failed result, a result with paths that are not
accepted, or an error of the agent. -/
def Execution.reportsFailure (c : Settings) (db : Database) (x : Execution) : Work C → Bool
  | .submit =>
    match x.phase, db.requireAuthenticatedWorker x.tokenHash with
    | .finished result, .ok worker => result.status == .failed ||
      (normaliseRemoteResult c.os c.roots worker result).toOption.isNone
    | _, _ => false
  | .reportFailure =>
    match x.phase with
    | .failing _ _ => true
    | _ => false
  | .finishLocal _ =>
    match x.phase with
    | .finished result => result.status == .failed
    | _ => false
  | _ => false

/-- The retry policy takes a failure of the job: neither the file nor the plan asks for a review, the
budget is not spent, and the file has no other active job. -/
def Database.retriesFailure (db : Database) (job : Job) : Bool :=
  job.jobKind == .execution && job.attemptCount ≤ maxAutomatedRetries &&
    (db.planSnapshot job.planSnapshotId).any
      (fun plan => !db.failureNeedsReview job plan plan.payload) &&
    db.jobs.all fun row => row.id = job.id || !row.isActive || row.trackedFileId ≠ job.trackedFileId

/-- A failure of a cancelled job is recorded that the retry policy takes. -/
def retriesCancelled (c : Settings) (s : State) (a : Action C) : Bool :=
  match a.op with
  | .work jobId w => decide (.cancelled jobId ∈ s.log) &&
    (s.execution jobId).any (·.reportsFailure c s.db w) && (s.db.job jobId).any s.db.retriesFailure
  | _ => false

section Retries

variable {c : Settings} {s s' : State} {a : Action C} {x : Execution} {job : Job} {plan : PlanSnapshot}
  {appliedPlan : ProcessingPlan} {result : ExecutionResult}

/-- A submission that is recorded as a failure was one, or its paths were not accepted. -/
theorem acceptedResult_failed {os : PathOs} {roots : PathRoots} {worker : Worker} {now : Time}
    (h : (acceptedResult os roots worker job result now).status = .failed) :
    result.status = .failed ∨ (normaliseRemoteResult os roots worker result).toOption = none := by
  cases hn : normaliseRemoteResult os roots worker result with
  | error e => exact .inr rfl
  | ok result' =>
    refine .inl ((normaliseResult_ok hn).status ▸ ?_)
    simp only [acceptedResult, hn] at h
    split at h
    · cases h
    · exact h

/-- A recorded failure was reported in the step. -/
theorem Recorded.reportsFailure (h : Recorded c s a x job plan appliedPlan result)
    (hfailed : result.status = .failed) :
    ∃ w, a.op = .work x.jobId w ∧ x.reportsFailure c s.db w = true := by
  cases h with
  | submitted hop hphase _ hauth =>
    refine ⟨_, hop, ?_⟩
    rcases acceptedResult_failed hfailed with h | h
    · simp [Execution.reportsFailure, hphase, hauth, h]
    · simp [Execution.reportsFailure, hphase, hauth, h]
  | failed hop hphase => exact ⟨_, hop, by simp [Execution.reportsFailure, hphase]⟩
  | finished _ hop hphase => exact ⟨_, hop, by simp [Execution.reportsFailure, hphase, hfailed]⟩

/-- A plan that a worker applies to an execution is protected where the plan of the job is. -/
theorem Recorded.shouldTreatAsProtected (hI : s.Inv) (h : Recorded c s a x job plan appliedPlan result)
    (hx : x ∈ s.live) (hj : s.db.job x.jobId = some job)
    (hplan : s.db.planSnapshot job.planSnapshotId = some plan) (hkind : job.jobKind = .execution) :
    appliedPlan.shouldTreatAsProtected = plan.payload.shouldTreatAsProtected := by
  cases h with
  | submitted => rfl
  | failed => rfl
  | finished _ _ _ _ happlied =>
    have hid : job.id = x.jobId := Table.key_of_find hj
    have hmem : job ∈ s.db.jobs := Table.mem_of_find hj
    have hrow := hI.row_of_mem hx hmem hid.symm
    obtain ⟨plan', hplan', hx⟩ := hrow.plan
    have hsame : plan' = plan := Option.some.inj (hplan'.symm.trans hplan)
    rw [happlied (hrow.kind.symm.trans hkind), hx, hsame, planPayloadForJob_shouldTreatAsProtected]

/-- A job that is added for a file leaves no other active job of it. -/
theorem not_active_of_added {db : Database} {new : Job} {status : JobStatus} (hI : s.Inv)
    (hfresh : a.uid ∉ s.issued) (hqueued : new.isQueued = true)
    (hfile : new.trackedFileId = job.trackedFileId)
    (evolves : s.db.Evolves (Job.Only job.id (Job.Recorded · result status)) a.uid (some new) db) :
    ∀ row ∈ s.db.jobs, row.id = job.id ∨ row.isActive = false ∨
      row.trackedFileId ≠ job.trackedFileId := by
  intro row hrow
  by_contra hactive
  push Not at hactive
  obtain ⟨hid, hactive, hrowfile⟩ := hactive
  have hadded := evolves.added new rfl
  obtain ⟨row', hmem, hchange⟩ := evolves.changed hrow
  obtain rfl := hchange.of_ne hid
  rcases hadded.place with ⟨-, honly⟩ | hcompleted
  · have hsame := honly row' hmem (eq_true_of_ne_false hactive) (hrowfile.trans hfile.symm)
    exact hfresh (hadded.id ▸ hsame ▸ hI.sound.jobIds row' hrow)
  · simp [Job.isQueued, hcompleted] at hqueued

/-- A job that is retried automatically is one that the retry policy takes. -/
theorem retriesFailure_of_retried {db : Database} {new : Job} (hI : s.Inv) (hfresh : a.uid ∉ s.issued)
    (hx : x ∈ s.live) (hj : s.db.job x.jobId = some job)
    (hplan : s.db.planSnapshot job.planSnapshotId = some plan)
    (recorded : Recorded c s a x job plan appliedPlan result)
    (h : Database.Recording s.db c.calendar job plan appliedPlan result a.uid a.now db (some new)) :
    result.status = .failed ∧ s.db.retriesFailure job = true := by
  cases h with
  | retried failed kind unreviewed budget evolves =>
    have hreview : s.db.failureNeedsReview job plan plan.payload = false := by
      have hprotected := recorded.shouldTreatAsProtected hI hx hj hplan kind
      rwa [Database.failureNeedsReview, hprotected] at unreviewed
    have hqueued := Job.createFromPlan_isQueued c.calendar a.uid job.trackedFileId plan
      (job.automaticRetryOptions result) a.now
    have hfile : (Job.createFromPlan c.calendar a.uid job.trackedFileId plan
      (job.automaticRetryOptions result) a.now).trackedFileId = job.trackedFileId := rfl
    have hfree := not_active_of_added hI hfresh hqueued hfile evolves
    refine ⟨failed, ?_⟩
    simp only [Database.retriesFailure, kind, budget, hplan, hreview, beq_self_eq_true, decide_true,
      Option.any_some, Bool.not_false, Bool.and_self, Bool.true_and, List.all_eq_true, Bool.or_eq_true,
      decide_eq_true_eq, Bool.not_eq_true', or_assoc]
    exact hfree

/-- No retry of a job is noted after its cancellation. -/
def CancelsFinally (log : List Event) : Prop :=
  log.Pairwise fun later earlier => ∀ jobId newId, later = .retried jobId newId → earlier ≠ .cancelled jobId

/-- The log of a step that retries no cancelled job. -/
theorem Move.cancelsFinally (hI : s.Inv) (hfresh : a.uid ∉ s.issued) (h : Move c s a s')
    (hretries : retriesCancelled c s a = false) (hlog : CancelsFinally s.log) :
    CancelsFinally s'.log := by
  rcases h.log hI hfresh with heq | ⟨e, heq, hcause⟩
  · rwa [heq]
  · rw [heq, CancelsFinally, List.pairwise_cons]
    refine ⟨?_, hlog⟩
    rintro earlier hmem j newId rfl rfl
    cases hcause with
    | @retried x job new plan appliedPlan result hx hj hplan recorded recording =>
      obtain ⟨hfailed, hpolicy⟩ := retriesFailure_of_retried hI hfresh hx hj hplan recorded recording
      obtain ⟨w, hop, hreports⟩ := recorded.reportsFailure hfailed
      simp [retriesCancelled, hop, hmem, hI.execution_of_mem hx, hreports, hj, hpolicy] at hretries

end Retries

theorem cancelsFinally_inductive (c : Settings) :
    (machine c C).Inductive (fun s a => retriesCancelled c s a = false)
      fun s => s.Inv ∧ CancelsFinally s.log := by
  refine ((inv_inductive c).mono fun _ _ _ => trivial).assuming ?_ ?_
  · rintro s rfl
    exact List.Pairwise.nil
  · intro s a s' hI hlog hretries hstep
    obtain ⟨hfresh, s₁, hmove, rfl⟩ := step_move hI.sound hstep
    have hfinal := hmove.cancelsFinally hI hfresh hretries hlog
    exact hfinal

/-- In a run in which no failure of a cancelled job is recorded that the retry policy takes, no
automatic retry of a job is created after its cancellation was accepted. -/
theorem cancellation_final (c : Settings) {s : State}
    (h : (machine c C).Reach (fun s a => retriesCancelled c s a = false) s)
    {later earlier : List Event} {jobId newId : JobId}
    (hlog : s.log = later ++ .cancelled jobId :: earlier) : .retried jobId newId ∉ later := by
  have hfinal := ((cancelsFinally_inductive c).reach h).2
  rw [CancelsFinally, hlog, List.pairwise_append] at hfinal
  intro hmem
  exact hfinal.2.2 _ hmem _ List.mem_cons_self jobId newId rfl rfl

/-- The cancellation of `job1` is accepted while its output is placed. -/
def lateCancelRun : List (Action String) :=
  remoteFilmRun ++ replacesFilm.take 4 ++ [actAt 3 "cancel" (.cancelJob "job1" false)] ++
    replacesFilm.drop 4

theorem cancellation_final_film :
    ∃ placed earlier, (homeAfter lateCancelRun).log = [placed] ++ .cancelled "job1" :: earlier ∧
      .retried "job1" "retry" ∉ [placed] := by
  obtain ⟨placed, earlier, hlog⟩ : ∃ placed earlier,
      (homeAfter lateCancelRun).log = [placed] ++ .cancelled "job1" :: earlier := ⟨_, _, rfl⟩
  exact ⟨placed, earlier, hlog, cancellation_final home
    (home_reach (retriesCancelled home) lateCancelRun (by decide)) hlog⟩

/-- The agent learns of the cancellation, and its encoder fails. -/
def failsCancelledRun : List (Action String) := remoteFilmRun ++ [
  actAt 2 "cancel" (.cancelJob "job1" false),
  actAt 2 "progress" (.work "job1" (.progress "encoding" none)),
  actAt 3 "failed" (.work "job1" (.run (.failed "ffmpeg was stopped." "execution_failed") 0)),
  actAt 3 "retry" (.work "job1" .submit)]

/-- The cancelled job is retried. -/
theorem cancelled_job_retried : (machine home String).Reachable (homeAfter failsCancelledRun) ∧
    (homeAfter failsCancelledRun).log = [.retried "job1" "retry", .cancelled "job1"] ∧
    (homeAfter failsCancelledRun).db.jobs.map (fun job => (job.id, job.status)) =
      [("job1", .failed), ("retry", .scheduled)] :=
  ⟨home_reachable failsCancelledRun (by decide), by decide, by decide⟩

/-! ## Placements of cancelled jobs -/

/-- The worker does not look for a cancellation any more before it places its output. -/
def Execution.overlooksCancel (x : Execution) : Bool :=
  match x.workerType, x.phase with
  | .local, .staged _ | _, .verifying _ | _, .verified _ _ => true
  | _, _ => false

/-- A cancellation is accepted in a stage whose worker does not look for one. -/
def cancelsLate (s : State) (a : Action C) : Bool :=
  match a.op with
  | .cancelJob jobId active => (s.db.job jobId).any fun job => job.status == .running &&
    (s.execution jobId).any fun x => x.overlooksCancel &&
      (s.db.assignedToRemote job || active && x.cancellable)
  | _ => false

/-- The execution knows of its cancellation, or will be told with its next report, and looks for it
before it places its output. -/
inductive Execution.Stopping (x : Execution) : Prop
  | asked (htype : x.workerType = .local) (hphase : x.phase = .running)
      (hasked : x.cancelRequested = true)
  | untold (htype : x.workerType = .remote)
      (hphase : x.phase = .claimed ∨ x.phase = .running ∨ ∃ output, x.phase = .staged output)
  | told {output : StagedOutput} (htype : x.workerType = .remote)
      (hphase : x.phase = .verifying output) (hasked : x.cancelRequested = true)
  | finished {result : ExecutionResult} (hphase : x.phase = .finished result)
      (hstatus : result.status ≠ .completed)
  | failing {message category : String} (hphase : x.phase = .failing message category)

section Stopping

variable {x x' : Execution} {now : Time} {phase : Phase} {events : List Event}

theorem Execution.Stopping.congr (h : x.Stopping) (hclaim : x'.toClaim = x.toClaim)
    (hphase : x'.phase = x.phase) (hasked : x.cancelRequested = true → x'.cancelRequested = true) :
    x'.Stopping := by
  have htype : x'.workerType = x.workerType := congrArg Claim.workerType hclaim
  cases h with
  | asked ht hp ha => exact .asked (htype.trans ht) (hphase.trans hp) (hasked ha)
  | untold ht hp => exact .untold (htype.trans ht) (by rwa [hphase])
  | told ht hp ha => exact .told (htype.trans ht) (hphase.trans hp) (hasked ha)
  | finished hp hs => exact .finished (hphase.trans hp) hs
  | failing hp => exact .failing (hphase.trans hp)

/-- A stopping execution goes on to stop: it does not place its output. -/
theorem Execution.Stopping.advance (h : x.Stopping) (hkind : x.jobKind = .execution)
    (hadvance : x.Advance C now phase events) : { x with phase := phase }.Stopping := by
  cases hadvance with
  | begin hphase htype => cases h <;> simp_all
  | run hrun =>
    obtain ⟨hrunning, ⟨output, rfl, hasked⟩ | ⟨result, rfl, hcompleted, -⟩⟩ :=
      Execution.afterRun_eq_some hrun
    · cases h with
      | untold htype => exact .untold htype (.inr (.inr ⟨output, rfl⟩))
      | _ => simp_all
    · exact .finished rfl fun hc => by simp [hkind] at hcompleted; exact hcompleted hc
  | cancel hcancel =>
    exact .finished rfl (by simp [(Execution.cancelledAt_eq_some hcancel).1])
  | verify probe safety hphase hmedia hcancel =>
    have hcancels := Execution.cancels_of_cancelledAt hphase hcancel
    cases h <;> simp_all [Execution.cancels]
  | place w hphase => cases h <;> simp_all
  | refuse message =>
    rcases x.afterRefusal_eq message now with ⟨category, h⟩ | ⟨result, h, hstatus, -⟩
    · exact .failing h
    · exact .finished h (by simp [hstatus])
  | fail message => exact .failing rfl

/-- A stopping execution after an accepted report, whose answer tells an agent of the cancellation. -/
theorem Execution.Stopping.report {cancel : Bool} (h : x.Stopping)
    (hreport : x.Report now cancel phase events) (hremote : x.workerType = .remote → cancel = true) :
    { x with cancelRequested := x.cancelRequested || cancel, phase := phase }.Stopping := by
  cases hreport with
  | begin hphase htype =>
    rw [hremote htype]
    exact .finished rfl nofun
  | progress hphase =>
    cases h with
    | asked htype _ hasked => exact .asked htype rfl (by simp [hasked])
    | untold htype => exact .untold htype (.inr (.inl rfl))
    | _ => simp_all
  | proceed hnext hcancel =>
    cases h with
    | untold htype hphase =>
      rcases hphase with hphase | hphase | ⟨output, hphase⟩ <;>
        simp only [Execution.nextReport, hphase, Option.some.injEq, Prod.mk.injEq, reduceCtorEq] at hnext
      obtain ⟨-, -, rfl⟩ := hnext
      exact .told htype rfl (by simp [hremote htype])
    | asked _ hphase => simp [Execution.nextReport, hphase] at hnext
    | told _ hphase => simp [Execution.nextReport, hphase] at hnext
    | finished hphase => simp [Execution.nextReport, hphase] at hnext
    | failing hphase => simp [Execution.nextReport, hphase] at hnext

end Stopping

/-! ### The report before a placement -/

/-- The execution places its output, or has placed it. -/
def Execution.announced (x : Execution) : Bool :=
  match x.phase with
  | .replacing _ _ => true
  | .finished result => result.status == .completed && x.jobKind == .execution
  | _ => false

/-- A step of an execution after which it places its output, or has placed it. -/
theorem Execution.Advance.announced {x : Execution} {now : Time} {phase : Phase} {events : List Event}
    (h : x.Advance C now phase events) (hann : { x with phase := phase }.announced = true) :
    x.announced = true := by
  cases h with
  | begin => cases hann
  | run hrun =>
    obtain ⟨-, ⟨output, rfl, -⟩ | ⟨result, rfl, hcompleted, -⟩⟩ := Execution.afterRun_eq_some hrun
    · cases hann
    · simp only [Execution.announced, Bool.and_eq_true, beq_iff_eq] at hann
      exact nomatch (hcompleted hann.1).symm.trans hann.2
  | cancel hcancel =>
    simp [Execution.announced, (Execution.cancelledAt_eq_some hcancel).1] at hann
  | @verify output media probe safety =>
    rcases Execution.afterVerification_cases output (verifyOutput x.plan media probe) safety now with
      ⟨-, h⟩ | ⟨result, h, hstatus, -⟩
    · simp [Execution.announced, h] at hann
    · simp [Execution.announced, h, hstatus] at hann
  | place w hphase => simp [Execution.announced, hphase]
  | refuse message =>
    rcases x.afterRefusal_eq message now with ⟨category, h⟩ | ⟨result, h, hstatus, -⟩
    · simp [Execution.announced, h] at hann
    · simp [Execution.announced, h, hstatus] at hann
  | fail => cases hann

/-- An agent places its output after its report. -/
theorem Execution.Report.announced {x : Execution} {now : Time} {cancel : Bool} {phase : Phase}
    {events : List Event} (h : x.Report now cancel phase events)
    (hann : { x with cancelRequested := x.cancelRequested || cancel, phase := phase }.announced = true) :
    events = [.replacing x.jobId] := by
  cases h with
  | begin =>
    simp only [Execution.announced, Execution.afterBegin] at hann
    split_ifs at hann
    cases hann
  | progress => cases hann
  | proceed hnext =>
    unfold Execution.nextReport at hnext
    split at hnext
    · obtain ⟨-, -, rfl⟩ := Prod.mk.injEq .. ▸ Option.some.inj hnext
      cases hann
    · next hphase => simp [State.noted, hphase]
    · cases hnext

/-- Placements have been announced. -/
def State.Announced (s : State) : Prop :=
  ∀ x ∈ s.live, x.announced = true → .replacing x.jobId ∈ s.log

theorem Move.announced {c : Settings} {s s' : State} {a : Action C} (h : Move c s a s')
    (hlog : ∃ events, s'.log = events ++ s.log) (hs : s.Announced) : s'.Announced := by
  obtain ⟨events, hlog⟩ := hlog
  intro x' hx' hann
  cases h.execution hx' with
  | @kept x hx claim phase =>
    have hbefore : x.announced = true := by
      simpa [Execution.announced, phase, congrArg Claim.jobKind claim] using hann
    rw [congrArg Claim.jobId claim, hlog]
    exact List.mem_append_right _ (hs x hx hbefore)
  | claimed _ _ _ phase => simp [Execution.announced, phase] at hann
  | advanced hx hadvance hlog' heq =>
    obtain rfl := heq
    have hbefore := hs _ hx (hadvance.announced hann)
    rw [hlog']
    exact List.mem_append_right _ hbefore
  | reported hx hreport _ hlog' heq =>
    obtain rfl := heq
    rw [hlog', hreport.announced hann]
    exact List.mem_append_left _ (List.mem_singleton_self _)

/-- An execution that a cancellation has reached in time stops. -/
theorem Execution.Stopping.start {x : Execution} (hlooks : x.overlooksCancel = false)
    (hann : x.announced = false) (hkind : x.jobKind = .execution)
    (hlocal : x.workerType = .local → x.cancelRequested = true ∧ x.phase ≠ .claimed) : x.Stopping := by
  cases hphase : x.phase with
  | claimed =>
    cases htype : x.workerType with
    | «local» => exact absurd hphase (hlocal htype).2
    | remote => exact .untold htype (.inl hphase)
  | running =>
    cases htype : x.workerType with
    | «local» => exact .asked htype hphase (hlocal htype).1
    | remote => exact .untold htype (.inr (.inl hphase))
  | staged output =>
    cases htype : x.workerType with
    | «local» => simp [Execution.overlooksCancel, hphase, htype] at hlooks
    | remote => exact .untold htype (.inr (.inr ⟨output, hphase⟩))
  | verifying output =>
    cases htype : x.workerType <;> simp [Execution.overlooksCancel, hphase, htype] at hlooks
  | verified output verification =>
    cases htype : x.workerType <;> simp [Execution.overlooksCancel, hphase, htype] at hlooks
  | replacing output verification => simp [Execution.announced, hphase] at hann
  | finished result =>
    refine .finished hphase ?_
    simpa [Execution.announced, hphase, hkind] using hann
  | failing message category => exact .failing hphase

/-! ### Halted jobs -/

/-- The execution of a cancelled job stops: its job has begun, an agent is told of the cancellation,
nothing of it has been placed since the cancellation, and only an approval has completed it. `log` is
what was noted since. -/
structure Halted (s : State) (log : List Event) (job : Job) : Prop where
  begun : job.status ≠ .pending ∧ job.status ≠ .scheduled
  stopping : ∀ x ∈ s.live, x.jobId = job.id → x.Stopping
  told : ∀ x ∈ s.live, x.jobId = job.id → x.workerType = .remote →
    job.cancellationRequestedAt.isSome = true
  unplaced : ∀ output plan, .placed job.id output plan ∉ log
  completed : job.status = .completed → ∃ output plan, .approved job.id output plan ∈ log

section Halted

variable {c : Settings} {s s' : State} {a : Action C} {job job' : Job} {log : List Event}

theorem JobStatus.begun_of_mayBecome {s t : JobStatus} (h : s.mayBecome t = true)
    (hs : s ≠ .pending ∧ s ≠ .scheduled) : t ≠ .pending ∧ t ≠ .scheduled := by
  cases s <;> cases t <;> simp_all [JobStatus.mayBecome]

/-- A job that has begun does not wait again. -/
theorem RowMove.begun (h : RowMove c s a s' job job')
    (hb : job.status ≠ .pending ∧ job.status ≠ .scheduled) :
    job'.status ≠ .pending ∧ job'.status ≠ .scheduled := by
  cases h with
  | managed _ h => exact JobStatus.begun_of_mayBecome h.status hb
  | approved _ _ h => exact JobStatus.begun_of_mayBecome h.status hb
  | swept => exact ⟨nofun, nofun⟩
  | claimed => exact ⟨nofun, nofun⟩
  | recorded _ _ _ hstatus h =>
    rw [h.status]
    rcases hstatus with rfl | ⟨-, rfl⟩
    · cases ExecutionResult.status _ <;> exact ⟨nofun, nofun⟩
    · exact ⟨nofun, nofun⟩

/-- The mark of a cancellation stays. -/
theorem RowMove.told (h : RowMove c s a s' job job') (ht : job.cancellationRequestedAt.isSome = true) :
    job'.cancellationRequestedAt.isSome = true := by
  cases h with
  | managed _ h => exact h.cancellation ht
  | approved _ _ h => exact h.cancellation ht
  | swept => exact ht
  | claimed => exact ht
  | recorded _ _ _ _ h => rwa [h.cancellation]

/-- A submission that is recorded as completed was completed. -/
theorem acceptedResult_completed {os : PathOs} {roots : PathRoots} {worker : Worker} {now : Time}
    {result : ExecutionResult}
    (h : (acceptedResult os roots worker job result now).status = .completed) :
    result.status = .completed := by
  cases hn : normaliseRemoteResult os roots worker result with
  | error e =>
    simp only [acceptedResult, hn] at h
    split at h <;> cases h
  | ok result' =>
    simp only [acceptedResult, hn] at h
    split at h
    · cases h
    · rwa [(normaliseResult_ok hn).status] at h

/-- The result that completes a job is the result of its execution. -/
theorem Recorded.completed {x : Execution} {plan : PlanSnapshot} {appliedPlan : ProcessingPlan}
    {result : ExecutionResult} (h : Recorded c s a x job plan appliedPlan result)
    (hcompleted : result.status = .completed) :
    ∃ result, x.phase = .finished result ∧ result.status = .completed := by
  cases h with
  | submitted _ hphase => exact ⟨_, hphase, acceptedResult_completed hcompleted⟩
  | failed => cases hcompleted
  | finished _ _ hphase => exact ⟨_, hphase, hcompleted⟩

/-- Where a job has begun, a move starts no execution of it. -/
theorem ExecutionMove.of_begun {x' : Execution} (hI : s.Inv) (h : ExecutionMove c s a s' x')
    (hj : job ∈ s.db.jobs) (hid : x'.jobId = job.id) (hb : job.status ≠ .pending) :
    ∃ x ∈ s.live, x'.toClaim = x.toClaim := by
  cases h with
  | kept hx claim => exact ⟨_, hx, claim⟩
  | claimed hrow pending hrowid =>
    rw [hI.sound.eq_of_id hrow hj (hrowid.symm.trans hid)] at pending
    exact absurd pending hb
  | advanced hx _ _ heq => exact ⟨_, hx, by rw [heq]⟩
  | reported hx _ _ _ heq => exact ⟨_, hx, by rw [heq]⟩

/-- The executions of a halted job stop. -/
theorem ExecutionMove.stopping {x' : Execution} (hI : s.Inv) (h : ExecutionMove c s a s' x')
    (hh : Halted s log job) (hj : job ∈ s.db.jobs) (hid : x'.jobId = job.id)
    (hkind : job.jobKind = .execution) : x'.Stopping := by
  have hexecution : ∀ x ∈ s.live, x.jobId = job.id → x.jobKind = .execution :=
    fun x hx hid => (hI.row_of_mem hx hj hid).kind.symm.trans hkind
  cases h with
  | kept hx claim phase asked =>
    have hxid := (congrArg Claim.jobId claim).symm.trans hid
    exact (hh.stopping _ hx hxid).congr claim phase asked
  | claimed hrow pending hrowid =>
    rw [hI.sound.eq_of_id hrow hj (hrowid.symm.trans hid)] at pending
    exact absurd pending hh.begun.1
  | advanced hx hadvance _ heq =>
    obtain rfl := heq
    exact (hh.stopping _ hx hid).advance (hexecution _ hx hid) hadvance
  | reported hx hreport hremote _ heq =>
    obtain rfl := heq
    refine (hh.stopping _ hx hid).report hreport fun htype => ?_
    obtain ⟨row, plan, ⟨worker, -, hreports⟩, hcancel⟩ := hremote htype
    have hrow : row = job :=
      hI.sound.eq_of_id (Table.mem_of_find hreports.row) hj ((Table.key_of_find hreports.row).trans hid)
    rw [hcancel, hrow]
    exact hh.told _ hx hid htype

/-- A halted job that a move completes has been approved in it. -/
theorem RowMove.completed (h : RowMove c s a s' job job') (hh : Halted s log job)
    (hcompleted : job'.status = .completed) :
    job.status = .completed ∨ ∃ output plan, s'.log = .approved job.id output plan :: s.log := by
  cases h with
  | managed _ h => exact .inl ((h.ended hcompleted).resolve_right Op.rights_passes)
  | approved _ _ h noted =>
    refine (h.ended hcompleted).imp_right fun hcompletes => ?_
    obtain ⟨plan, _, output, -, hlog⟩ := noted hcompletes
    exact ⟨output, plan.payload, hlog⟩
  | swept => cases hcompleted
  | claimed => cases hcompleted
  | @recorded _ _ _ result _ _ hx hid recorded hstatus h =>
    rw [h.status] at hcompleted
    have hresult : result.status = .completed := by
      rcases hstatus with rfl | ⟨-, rfl⟩
      · exact ExecutionStatus.completed_of_jobStatus hcompleted
      · cases hcompleted
    obtain ⟨result, hphase, hresult⟩ := recorded.completed hresult
    cases hh.stopping _ hx hid with
    | finished hphase' hne =>
      rw [hphase] at hphase'
      exact absurd (Phase.finished.inj hphase' ▸ hresult) hne
    | untold _ hphase' =>
      rcases hphase' with hphase' | hphase' | ⟨_, hphase'⟩ <;> cases hphase.symm.trans hphase'
    | asked _ hphase' => cases hphase.symm.trans hphase'
    | told _ hphase' => cases hphase.symm.trans hphase'
    | failing hphase' => cases hphase.symm.trans hphase'

/-- A halted job does not place an output in a move. -/
theorem Event.Cause.unplaced {output : PosixPath} {plan : ProcessingPlan}
    (h : Event.Cause c s a s' (.placed job.id output plan)) (hh : Halted s log job) : False := by
  generalize he : Event.placed job.id output plan = e at h
  cases h with
  | placed hx hphase =>
    have hid := (Event.placed.inj he).1.symm
    cases hh.stopping _ hx hid with
    | untold _ hphase' =>
      rcases hphase' with hphase' | hphase' | ⟨_, hphase'⟩ <;> cases hphase.symm.trans hphase'
    | asked _ hphase' => cases hphase.symm.trans hphase'
    | told _ hphase' => cases hphase.symm.trans hphase'
    | finished hphase' => cases hphase.symm.trans hphase'
    | failing hphase' => cases hphase.symm.trans hphase'
  | _ => cases he

/-- A job stays halted in a move. -/
theorem Move.halted (hI : s.Inv) (hfresh : a.uid ∉ s.issued) (h : Move c s a s')
    (hh : Halted s log job) (hj : job ∈ s.db.jobs) (hj' : job' ∈ s'.db.jobs) (hid : job'.id = job.id)
    (hkind : job.jobKind = .execution) :
    ∃ events, s'.log = events ++ s.log ∧ Halted s' (events ++ log) job' := by
  have hrow := h.row hI hfresh hj hj' hid
  obtain ⟨events, hlog, hcause⟩ : ∃ events, s'.log = events ++ s.log ∧
      ∀ e ∈ events, e.Cause c s a s' := by
    rcases h.log hI hfresh with hlog | ⟨e, hlog, hcause⟩
    · exact ⟨[], hlog, fun e he => absurd he List.not_mem_nil⟩
    · exact ⟨[e], hlog, fun e' he' => List.mem_singleton.mp he' ▸ hcause⟩
  refine ⟨events, hlog, hrow.begun hh.begun, fun x' hx' hx'id => ?_, fun x' hx' hx'id htype => ?_,
    fun output plan hmem => ?_, fun hcompleted => ?_⟩
  · exact (h.execution hx').stopping hI hh hj (hx'id.trans hid) hkind
  · obtain ⟨x, hx, hclaim⟩ := (h.execution hx').of_begun hI hj (hx'id.trans hid) hh.begun.1
    have hxid : x.jobId = job.id := (congrArg Claim.jobId hclaim).symm.trans (hx'id.trans hid)
    exact hrow.told (hh.told x hx hxid ((congrArg Claim.workerType hclaim).symm.trans htype))
  · rw [hid] at hmem
    rcases List.mem_append.mp hmem with hmem | hmem
    · exact (hcause _ hmem).unplaced hh
    · exact hh.unplaced output plan hmem
  · rw [hid]
    rcases hrow.completed hh hcompleted with hbefore | ⟨output, plan, happroved⟩
    · obtain ⟨output, plan, hmem⟩ := hh.completed hbefore
      exact ⟨output, plan, List.mem_append_right _ hmem⟩
    · have hevents : events = [.approved job.id output plan] := by
        rw [hlog] at happroved
        exact List.append_cancel_right happroved
      exact ⟨output, plan, by simp [hevents]⟩

/-- A request for a cancellation completes no job. -/
theorem RowMove.not_completed {jobId : JobId} {active : Bool} (h : RowMove c s a s' job job')
    (hop : a.op = .cancelJob jobId active) (hrunning : job.status = .running) :
    job'.status ≠ .completed := by
  intro hcompleted
  cases h with
  | managed _ h =>
    have hbefore := (h.ended hcompleted).resolve_right Op.rights_passes
    exact nomatch hrunning.symm.trans hbefore
  | approved _ _ h =>
    rcases h.ended hcompleted with hbefore | hcompletes
    · exact nomatch hrunning.symm.trans hbefore
    · exact nomatch hrunning.symm.trans hcompletes.2.1
  | swept => cases hcompleted
  | claimed => cases hcompleted
  | recorded _ _ recorded =>
    cases recorded with
    | submitted hop' => cases hop.symm.trans hop'
    | failed hop' => cases hop.symm.trans hop'
    | finished _ hop' => cases hop.symm.trans hop'

/-- The running job of an execution is assigned to a worker of its type. -/
theorem Row.workerType {db : Database} {issued : List String} {x : Execution} {worker : Worker}
    (h : Row db issued x.toClaim x.swept job) (hrunning : job.status = .running)
    (hworker : job.assignedWorkerId.bind db.worker = some worker) :
    x.workerType = worker.workerType := by
  have hswept : x.swept = false := by
    by_contra hswept
    exact h.interrupted (eq_true_of_ne_false hswept) hrunning
  obtain ⟨id, hid, hworker⟩ := Option.bind_eq_some_iff.mp hworker
  rcases (h.held hswept).assigned with hassigned | ⟨hnone, -⟩
  · obtain rfl := Option.some.inj (hid.symm.trans hassigned)
    exact (h.type _ (Database.worker_kind hworker)).symm
  · rw [hnone] at hid
    cases hid

/-- An accepted cancellation that is not late reaches a worker that looks for it. -/
theorem not_overlooked {x : Execution} {active : Bool} (hI : s.Inv) (hlate : cancelsLate s a = false)
    (hop : a.op = .cancelJob job.id active) (hj : job ∈ s.db.jobs) (hrunning : job.status = .running)
    (hx : x ∈ s.live) (hid : x.jobId = job.id)
    (haccepted : (s.db.assignedToRemote job || active && x.cancellable) = true) :
    x.overlooksCancel = false := by
  have hexecution := hI.execution_of_mem hx
  rw [hid] at hexecution
  simpa only [cancelsLate, hop, hI.sound.job_of_mem hj, Option.any_some, hrunning, beq_self_eq_true,
    Bool.true_and, hexecution, haccepted, Bool.and_true] using hlate

/-- The execution of a job whose cancellation is accepted in time stops. -/
theorem Event.Cause.stopping {e : Event} (hI : s.Inv) (hann : s.Announced)
    (hlate : cancelsLate s a = false) (h : Event.Cause c s a s' e) (he : e = .cancelled job.id)
    (hintime : .replacing job.id ∉ s.log) (hj : job ∈ s.db.jobs) (hkind : job.jobKind = .execution) :
    ∀ x' ∈ s'.live, x'.jobId = job.id → x'.Stopping := by
  have hnotyet : ∀ x ∈ s.live, x.jobId = job.id → x.announced = false := by
    intro x hx hid
    by_contra hx'
    exact hintime (hid ▸ hann x hx (eq_true_of_ne_false hx'))
  have hexecution : ∀ x ∈ s.live, x.jobId = job.id → x.jobKind = .execution :=
    fun x hx hid => (hI.row_of_mem hx hj hid).kind.symm.trans hkind
  intro x' hx' hid
  cases h with
  | cancelRemote hop hrow running assigned remote _ hlive =>
    obtain rfl := hI.sound.eq_of_id hj hrow (Event.cancelled.inj he).symm
    rw [hlive] at hx'
    have hremote := (Database.assignedToRemote_iff).mpr ⟨_, assigned, remote⟩
    have hlooks := not_overlooked hI hlate hop hj running hx' hid (by simp [hremote])
    refine .start hlooks (hnotyet x' hx' hid) (hexecution x' hx' hid) fun htype => ?_
    have hworker := (hI.row_of_mem hx' hj hid).workerType running assigned
    exact nomatch htype.symm.trans (hworker.trans remote)
  | cancelLocal hop hrow running hx cancellable hlive =>
    obtain rfl := hI.sound.eq_of_id hj hrow (Event.cancelled.inj he).symm
    rw [hlive] at hx'
    obtain ⟨x, hx₀, rfl⟩ := List.mem_map.mp hx'
    have hxid : x.jobId = job.id := by
      split at hid <;> exact hid
    have hsame := hI.execution_of_mem hx₀
    rw [hxid, hx] at hsame
    obtain rfl := Option.some.inj hsame
    have hlooks := not_overlooked hI hlate hop hj running hx₀ hxid (by simp [cancellable])
    have hann₀ := hnotyet _ hx₀ hxid
    have hkind₀ := hexecution _ hx₀ hxid
    simp only [Execution.cancellable, Bool.and_eq_true, beq_iff_eq, bne_iff_ne] at cancellable
    rw [if_pos ⟨hxid, cancellable.1⟩]
    exact .start hlooks hann₀ hkind₀ fun _ => ⟨rfl, cancellable.2⟩
  | _ => cases he

/-- The mark of an accepted cancellation of an execution whose worker is remote. -/
theorem Event.Cause.told {e : Event} (hI : s.Inv) (h : Event.Cause c s a s' e)
    (he : e = .cancelled job.id) (hj : job ∈ s.db.jobs) (hj' : job' ∈ s'.db.jobs)
    (hid : job'.id = job.id) {x' : Execution} (hx' : x' ∈ s'.live) (hx'id : x'.jobId = job.id)
    (htype : x'.workerType = .remote) : job'.cancellationRequestedAt.isSome = true := by
  cases h with
  | cancelRemote _ hrow _ _ _ requested =>
    exact requested job' hj' (hid.trans (Event.cancelled.inj he).symm)
  | cancelLocal _ hrow _ hx cancellable hlive =>
    obtain rfl := hI.sound.eq_of_id hj hrow (Event.cancelled.inj he).symm
    rw [hlive] at hx'
    obtain ⟨x, hx₀, rfl⟩ := List.mem_map.mp hx'
    have hclaim : (if x.jobId = job.id ∧ x.workerType = .local ∧ x.inApi then
        { x with cancelRequested := true } else x).toClaim = x.toClaim := by split <;> rfl
    have hxid : x.jobId = job.id := (congrArg Claim.jobId hclaim).symm.trans hx'id
    have hsame := hI.execution_of_mem hx₀
    rw [hxid, hx] at hsame
    obtain rfl := Option.some.inj hsame
    simp only [Execution.cancellable, Bool.and_eq_true, beq_iff_eq] at cancellable
    exact nomatch ((congrArg Claim.workerType hclaim).symm.trans htype).symm.trans cancellable.1.1
  | _ => cases he

/-- The job whose running execution is cancelled. -/
theorem Event.Cause.running {e : Event} {jobId : JobId} (h : Event.Cause c s a s' e)
    (he : e = .cancelled jobId) : ∃ job ∈ s.db.jobs, job.id = jobId ∧ job.status = .running ∧
      ∃ active, a.op = .cancelJob jobId active := by
  cases h with
  | cancelRemote hop hj running =>
    obtain rfl := Event.cancelled.inj he
    exact ⟨_, hj, rfl, running, _, hop⟩
  | cancelLocal hop hj running =>
    obtain rfl := Event.cancelled.inj he
    exact ⟨_, hj, rfl, running, _, hop⟩
  | _ => cases he

/-- A job whose cancellation is accepted in time is halted. -/
theorem Event.Cause.halted (hI : s.Inv) (hann : s.Announced) (hlate : cancelsLate s a = false)
    (h : Event.Cause c s a s' (.cancelled job.id)) (hintime : .replacing job.id ∉ s.log)
    (hj : job ∈ s.db.jobs) (hj' : job' ∈ s'.db.jobs) (hid : job'.id = job.id)
    (hkind : job.jobKind = .execution) (hrow : RowMove c s a s' job job') : Halted s' [] job' := by
  obtain ⟨row, hrowmem, hrowid, hrunning, active, hop⟩ := h.running rfl
  obtain rfl := hI.sound.eq_of_id hj hrowmem hrowid.symm
  refine ⟨hrow.begun (by rw [hrunning]; exact ⟨nofun, nofun⟩), fun x' hx' hx'id => ?_,
    fun x' hx' hx'id htype => ?_, fun _ _ => List.not_mem_nil,
    fun hcompleted => absurd hcompleted (hrow.not_completed hop hrunning)⟩
  · exact h.stopping hI hann hlate rfl hintime hj hkind x' hx' (hx'id.trans hid)
  · exact h.told hI rfl hj hj' hid hx' (hx'id.trans hid) htype

/-- The jobs that were cancelled in time are halted. -/
def State.CancelsInTime (s : State) : Prop :=
  ∀ later jobId earlier, s.log = later ++ .cancelled jobId :: earlier → .replacing jobId ∉ earlier →
    ∃ job ∈ s.db.jobs, job.id = jobId ∧ (job.jobKind = .execution → Halted s later job)

theorem Move.cancelsInTime (hI : s.Inv) (hfresh : a.uid ∉ s.issued) (hann : s.Announced)
    (hlate : cancelsLate s a = false) (h : Move c s a s') (hs : s.CancelsInTime) :
    s'.CancelsInTime := by
  obtain ⟨new, hevolves⟩ := h.evolves hI
  intro later jobId earlier hlog hintime
  -- the cancellation is an old one, after which `events` are noted now, or it is the one of this move
  have hold : ∀ later₀, s.log = later₀ ++ .cancelled jobId :: earlier →
      ∃ job' ∈ s'.db.jobs, job'.id = jobId ∧ (job'.jobKind = .execution → Halted s' later job') := by
    intro later₀ hlog₀
    obtain ⟨job, hj, hid, hhalted⟩ := hs later₀ jobId earlier hlog₀ hintime
    obtain ⟨job', hj', hkept⟩ := hevolves.changed hj
    have hid' := Job.id_of_terms hkept.terms
    have hkind' : job'.jobKind = job.jobKind := congrArg JobTerms.jobKind hkept.terms
    refine ⟨job', hj', hid'.trans hid, fun hkind => ?_⟩
    obtain ⟨events, hevents, hh⟩ :=
      h.halted hI hfresh (hhalted (hkind'.symm.trans hkind)) hj hj' hid' (hkind'.symm.trans hkind)
    have hlater : events ++ later₀ = later := by
      rw [hevents, hlog₀, ← List.append_assoc] at hlog
      exact List.append_cancel_right hlog
    rwa [hlater] at hh
  rcases h.log hI hfresh with heq | ⟨e, heq, hcause⟩
  · exact hold later (heq.symm.trans hlog)
  · rw [heq] at hlog
    cases later with
    | nil =>
      obtain ⟨rfl, rfl⟩ := List.cons.inj hlog
      obtain ⟨job, hj, rfl, -⟩ := hcause.running rfl
      obtain ⟨job', hj', hkept⟩ := hevolves.changed hj
      have hid' := Job.id_of_terms hkept.terms
      have hkind' : job'.jobKind = job.jobKind := congrArg JobTerms.jobKind hkept.terms
      have hrow := h.row hI hfresh hj hj' hid'
      exact ⟨job', hj', hid', fun hkind =>
        hcause.halted hI hann hlate hintime hj hj' hid' (hkind'.symm.trans hkind) hrow⟩
    | cons e' later₀ =>
      obtain ⟨rfl, hlog₀⟩ := List.cons.inj hlog
      exact hold later₀ hlog₀

end Halted

theorem cancelsInTime_inductive (c : Settings) :
    (machine c C).Inductive (fun s a => cancelsLate s a = false)
      fun s => s.Inv ∧ s.Announced ∧ s.CancelsInTime := by
  refine ((inv_inductive c).mono fun _ _ _ => trivial).assuming ?_ ?_
  · rintro s rfl
    exact ⟨fun x hx => absurd hx List.not_mem_nil,
      fun later jobId earlier hlog => absurd hlog.symm (by simp)⟩
  · intro s a s' hI hs hlate hstep
    obtain ⟨hfresh, s₁, hmove, rfl⟩ := step_move hI.sound hstep
    have hlog : ∃ events, s₁.log = events ++ s.log := by
      rcases hmove.log hI hfresh with h | ⟨e, h, -⟩
      · exact ⟨[], h⟩
      · exact ⟨[e], h⟩
    have hann := hmove.announced hlog hs.1
    have htime := hmove.cancelsInTime hI hfresh hs.1 hlate hs.2
    exact ⟨hann, fun later jobId earlier hlog hintime => by
      obtain ⟨job, hj, hid, hh⟩ := htime later jobId earlier hlog hintime
      exact ⟨job, hj, hid, fun hkind => ⟨(hh hkind).begun, (hh hkind).stopping, (hh hkind).told,
        (hh hkind).unplaced, (hh hkind).completed⟩⟩⟩

/-- In a run in which no cancellation is accepted in a stage whose worker does not look for one: after
a cancellation of an execution that is accepted before its last report, the execution places nothing,
and its job is not completed but by an approval. -/
theorem cancelled_never_places (c : Settings) {s : State}
    (h : (machine c C).Reach (fun s a => cancelsLate s a = false) s) {later earlier : List Event}
    {job : Job} (hj : job ∈ s.db.jobs) (hkind : job.jobKind = .execution)
    (hlog : s.log = later ++ .cancelled job.id :: earlier) (hintime : .replacing job.id ∉ earlier) :
    (∀ output plan, .placed job.id output plan ∉ later) ∧
      (job.status = .completed → ∃ output plan, .approved job.id output plan ∈ later) := by
  obtain ⟨hI, -, htime⟩ := (cancelsInTime_inductive c).reach h
  obtain ⟨row, hrow, hid, hh⟩ := htime later job.id earlier hlog hintime
  obtain rfl := hI.sound.eq_of_id hrow hj hid
  exact ⟨(hh hkind).unplaced, (hh hkind).completed⟩

/-- The cancellation of `job1` is accepted while the agent runs the encoder. -/
def cancelledRun : List (Action String) := remoteFilmRun ++ [
  actAt 2 "cancel" (.cancelJob "job1" false),
  actAt 3 "staged" (.work "job1" (.run (.staged home.scratchDir) 0)),
  actAt 3 "verifying" (.work "job1" .proceed),
  actAt 4 "cancelled" (.work "job1" (.verify (.media englishFilm) none)),
  actAt 4 "submit" (.work "job1" .submit)]

theorem cancelled_never_places_film : ∃ job ∈ (homeAfter cancelledRun).db.jobs,
    (∀ output plan, .placed job.id output plan ∉ ([] : List Event)) ∧
      (job.status = .completed → ∃ output plan, .approved job.id output plan ∈ ([] : List Event)) := by
  have hjobs : ∀ job ∈ (homeAfter cancelledRun).db.jobs, job.jobKind = .execution ∧
      (homeAfter cancelledRun).log = [] ++ [.cancelled job.id] := by decide
  have hne : (homeAfter cancelledRun).db.jobs ≠ [] := by decide
  obtain ⟨job, hj⟩ := List.exists_mem_of_ne_nil _ hne
  exact ⟨job, hj, cancelled_never_places home (home_reach cancelsLate cancelledRun (by decide)) hj
    (hjobs job hj).1 (hjobs job hj).2 List.not_mem_nil⟩

/-- A cancellation is accepted while the output is verified. -/
def overlookedRun (begins : List (Action String)) (active : Bool) : List (Action String) :=
  begins ++ replacesFilm.take 2 ++ [actAt 3 "cancel" (.cancelJob "job1" active)] ++
    replacesFilm.drop 2

/-- On either worker, the output is verified and placed after the cancellation, and the job is
completed. -/
theorem cancelled_film_placed :
    ((machine home String).Reachable (homeAfter (overlookedRun localFilmRun true)) ∧
      (∃ output plan, (homeAfter (overlookedRun localFilmRun true)).log =
        [.placed "job1" output plan, .replacing "job1", .verified "job1" output plan true,
          .cancelled "job1"]) ∧
      (homeAfter (overlookedRun localFilmRun true ++
        [actAt 5 "finish" (.work "job1" (.finishLocal none))])).db.jobs.map (·.status) =
          [.completed]) ∧
    (machine home String).Reachable (homeAfter (overlookedRun remoteFilmRun false)) ∧
      (∃ output plan, (homeAfter (overlookedRun remoteFilmRun false)).log =
        [.placed "job1" output plan, .replacing "job1", .verified "job1" output plan true,
          .cancelled "job1"]) ∧
      (homeAfter (overlookedRun remoteFilmRun false ++
        [actAt 5 "finish" (.work "job1" .submit)])).db.jobs.map (·.status) = [.completed] := by
  refine ⟨⟨home_reachable _ (by decide), ⟨_, _, rfl⟩, by decide⟩, home_reachable _ (by decide),
    ⟨_, _, rfl⟩, by decide⟩

end Encodr
