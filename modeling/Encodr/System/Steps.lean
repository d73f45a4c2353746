import Encodr.System.Invariant

/-!
# What a move does

A move from a state with the invariant, read off for one row, for one execution, and for the log.

* `RowMove`, `Move.row`: an old row after a move.
* `ExecutionMove`, `Move.execution`: an execution after a move.
* `Event.Cause`, `Move.log`: a move notes at most one event, and why it does.
* `step_recording`: a result that a step records is recorded with what follows it.
-/

namespace Encodr

open Python Lib

variable {C : Type} {c : Settings} {s s' : State} {a : Action C}

section Members

variable {job : Job}

/-- The row of an execution is the row of its job. -/
theorem State.Inv.row_of_mem (hI : s.Inv) {x : Execution} (hx : x ∈ s.live) (hj : job ∈ s.db.jobs)
    (hid : x.jobId = job.id) : Row s.db s.issued x.toClaim x.swept job := by
  obtain ⟨row, hrow⟩ := hI.rows x hx
  rwa [← hI.sound.eq_of_id hrow.mem hj (hrow.id.trans hid)]

/-- An execution is the execution of its job. -/
theorem State.Inv.execution_of_mem (hI : s.Inv) {x : Execution} (hx : x ∈ s.live) :
    s.execution x.jobId = some x :=
  Table.find_of_mem hI.nodup hx

end Members

/-! ## Rows -/

/-- What a move does to a row. -/
inductive RowMove (c : Settings) (s : State) (a : Action C) (s' : State) (job : Job) : Job → Prop
  | managed {job' : Job} (workers : List WorkerId)
      (h : job.Managed (a.op.rights c s a.now) workers job') : RowMove c s a s' job job'
  /-- The approval of the item may have completed the job. -/
  | approved {job' : Job} (workers : List WorkerId) (itemId : FileId)
      (h : job.Managed { a.op.rights c s a.now with passes := s.completes itemId } workers job')
      (noted : s.completes itemId job → ∃ plan sourcePath output,
        s.approvalOf c a.exists_ itemId = some (.staged job plan sourcePath output) ∧
          s'.log = .approved job.id output plan.payload :: s.log)
      (hop : ∃ w, a.op = .approveItem itemId w) :
      RowMove c s a s' job job'
  | swept (h : s.db.sweeps a.now job = true) : RowMove c s a s' job (s.db.sweptJob a.now job)
  | claimed (worker : Worker) (pending : job.status = .pending) (uncleared : job.clearedAt = none) :
      RowMove c s a s' job { job.claimedBy worker a.now with updatedAt := a.now }
  | recorded {x : Execution} {plan : PlanSnapshot} {appliedPlan : ProcessingPlan}
      {result : ExecutionResult} {status : JobStatus} {job' : Job} (hx : x ∈ s.live)
      (hid : x.jobId = job.id) (recorded : Recorded c s a x job plan appliedPlan result)
      (hstatus : status = result.status.jobStatus ∨ result.status = .failed ∧ status = .manualReview)
      (h : job.Recorded result status job') : RowMove c s a s' job job'

/-- An old row after a move. -/
theorem Move.row (hI : s.Inv) (hfresh : a.uid ∉ s.issued) (h : Move c s a s') {job job' : Job}
    (hj : job ∈ s.db.jobs) (hj' : job' ∈ s'.db.jobs) (hid : job'.id = job.id) :
    RowMove c s a s' job job' := by
  have hmanaged : ∀ {r : Rights} {db : Database} {new : Option Job},
      s.db.Evolves (Job.Managed r db.workerIds) a.uid new db → job' ∈ db.jobs →
        job.Managed r db.workerIds job' :=
    fun he hj' => hI.sound.changed he hfresh (fun _ _ _ h => h.terms) hj hj' hid
  have hnone : ∀ {workers : List WorkerId}, job.Managed {} workers job' → RowMove c s a s' job job' :=
    fun hm => .managed _ (hm.mono (absurd · id) (absurd · id) (absurd · id))
  have hsame : job' = job → RowMove c s a s' job job' := by
    rintro rfl
    exact .managed [] (.refl _)
  cases h with
  | manage evolves _ => exact .managed _ (hmanaged evolves hj')
  | cancelRemote _ evolves => exact hnone (hmanaged evolves hj')
  | cancelLocal _ evolves => exact hnone (hmanaged evolves hj')
  | ask evolves => exact hnone (hmanaged evolves hj')
  | @approve _ itemId w row plan sourcePath output hop happroval evolves =>
    refine .approved _ itemId (hmanaged evolves hj') (fun hjob => ?_) ⟨w, hop⟩
    have hrow : row = job :=
      Option.some.inj ((State.approvalOf_staged happroval).1.1.symm.trans hjob.1)
    rw [← hrow]
    exact ⟨plan, sourcePath, output, happroval, rfl⟩
  | sweep =>
    have he : s.db.Evolves _ a.uid none (s.sweep a.now).db := Database.handleWorkerInterruptions_evolves
    have hm := hI.sound.changed he hfresh (fun _ _ _ h => (sweptJob_kept h).terms) hj hj' hid
    split at hm
    · next hsweeps => exact hm ▸ .swept hsweeps
    · exact hsame hm
  | @claim _ row worker _ _ _ _ _ _ hrow pending uncleared _ evolves =>
    have hm := hI.sound.changed evolves hfresh
      (fun _ hmem _ h => (claimedBy_kept hI hmem hrow pending uncleared h).terms) hj hj' hid
    by_cases hrowid : job.id = row.id
    · obtain rfl := hI.sound.eq_of_id hj hrow hrowid
      exact hm.of_eq rfl ▸ .claimed worker pending uncleared
    · exact hsame (hm.of_ne hrowid)
  | advance => exact hsame (hI.sound.eq_of_id hj' hj hid)
  | report _ _ evolves => exact hnone (hmanaged evolves hj')
  | @settle x _ row plan appliedPlan result _ hx hrow _ recorded recording =>
    obtain ⟨status, hstatus, hevolves⟩ := recording.evolves
    have hm := hI.sound.changed hevolves hfresh
      (fun _ _ _ h => (h.imp (.refl _) fun _ h => h.kept hstatus).terms) hj hj' hid
    by_cases hrowid : job.id = row.id
    · obtain rfl := hI.sound.eq_of_id hj (Table.mem_of_find hrow) hrowid
      exact .recorded hx (Table.key_of_find hrow).symm recorded hstatus (hm.of_eq rfl)
    · exact hsame (hm.of_ne hrowid)
  | drop => exact hsame (hI.sound.eq_of_id hj' hj hid)

/-! ## Executions -/

/-- What a move does to an execution, or starts. -/
inductive ExecutionMove (c : Settings) (s : State) (a : Action C) (s' : State) (x' : Execution) : Prop
  /-- It goes on; a cancellation may have been requested, or its job swept. -/
  | kept {x : Execution} (hx : x ∈ s.live) (claim : x'.toClaim = x.toClaim)
      (phase : x'.phase = x.phase) (asked : x.cancelRequested = true → x'.cancelRequested = true)
      (quiet : ∀ output plan passed, s'.log ≠ .verified x.jobId output plan passed :: s.log) :
      ExecutionMove c s a s' x'
  | claimed {job : Job} (hj : job ∈ s.db.jobs) (pending : job.status = .pending)
      (hid : x'.jobId = job.id) (phase : x'.phase = .claimed) (hlog : s'.log = s.log) :
      ExecutionMove c s a s' x'
  | advanced {x : Execution} {phase : Phase} {events : List Event} (hx : x ∈ s.live)
      (h : x.Advance C a.now phase events) (hlog : s'.log = events ++ s.log)
      (heq : x' = { x with phase := phase }) : ExecutionMove c s a s' x'
  | reported {x : Execution} {cancel : Bool} {phase : Phase} {events : List Event} (hx : x ∈ s.live)
      (h : x.Report a.now cancel phase events)
      (hremote : x.workerType = .remote → ∃ job plan, s.Authenticated x job plan ∧
        cancel = job.cancellationRequestedAt.isSome)
      (hlog : s'.log = events ++ s.log)
      (heq : x' = { x with cancelRequested := x.cancelRequested || cancel, phase := phase }) :
      ExecutionMove c s a s' x'

/-- An event of an execution is about its job. -/
theorem Execution.Advance.events {x : Execution} {now : Time} {phase : Phase} {events : List Event}
    (h : x.Advance C now phase events) :
    events = [] ∨ (∃ output plan passed, events = [.verified x.jobId output plan passed]) ∨
      ∃ output plan, events = [.placed x.jobId output plan] := by
  cases h with
  | verify => exact .inr (.inl ⟨_, _, _, rfl⟩)
  | place => exact .inr (.inr ⟨_, _, rfl⟩)
  | _ => exact .inl rfl

theorem Execution.Report.events {x : Execution} {now : Time} {cancel : Bool} {phase : Phase}
    {events : List Event} (h : x.Report now cancel phase events) :
    events = [] ∨ (events = [.replacing x.jobId] ∧ ∃ output verification,
      x.phase = .verified output verification) := by
  cases h with
  | begin => exact .inl rfl
  | progress => exact .inl rfl
  | proceed =>
    unfold State.noted
    split
    · next output verification hphase => exact .inr ⟨rfl, output, verification, hphase⟩
    · exact .inl rfl

/-- The event is about a verification. -/
def Event.isVerification : Event → Bool
  | .verified _ _ _ _ => true
  | _ => false

/-- A move that notes nothing of a verification. -/
theorem quiet_of_log (h : s'.log = s.log ∨ ∃ e, s'.log = e :: s.log ∧ e.isVerification = false)
    (jobId : JobId) : ∀ output plan passed, s'.log ≠ .verified jobId output plan passed :: s.log := by
  intro output plan passed heq
  rcases h with h | ⟨e, h, hquiet⟩
  · exact List.cons_ne_self _ _ (heq.symm.trans h)
  · rw [(List.cons.inj (h.symm.trans heq)).1] at hquiet
    cases hquiet

/-- The executions after a change of one of them. -/
theorem State.mem_set {x' y : Execution} (h : x' ∈ (s.set y).live) :
    x' = y ∨ x' ∈ s.live ∧ x'.jobId ≠ y.jobId := by
  obtain ⟨z, hz, rfl⟩ := Table.mem_modify.mp h
  split
  · exact .inl rfl
  · next hne => exact .inr ⟨hz, hne⟩

/-- An execution after a move. -/
theorem Move.execution (h : Move c s a s') {x' : Execution} (hx' : x' ∈ s'.live) :
    ExecutionMove c s a s' x' := by
  cases h with
  | manage => exact .kept hx' rfl rfl id (quiet_of_log (.inl rfl) _)
  | cancelRemote => exact .kept hx' rfl rfl id (quiet_of_log (.inr ⟨_, rfl, rfl⟩) _)
  | cancelLocal =>
    obtain ⟨x, hx, rfl⟩ := List.mem_map.mp hx'
    refine .kept hx ?_ ?_ ?_ (quiet_of_log (.inr ⟨_, rfl, rfl⟩) _) <;> split <;>
      first | rfl | exact id | exact fun _ => rfl
  | ask =>
    obtain ⟨x, hx, rfl⟩ := List.mem_map.mp hx'
    refine .kept hx ?_ ?_ ?_ (quiet_of_log (.inl rfl) _) <;> split <;>
      first | rfl | exact id | exact fun _ => rfl
  | approve => exact .kept hx' rfl rfl id (quiet_of_log (.inr ⟨_, rfl, rfl⟩) _)
  | sweep =>
    obtain ⟨x, hx, rfl⟩ := List.mem_map.mp hx'
    exact .kept hx rfl rfl id (quiet_of_log (.inl rfl) _)
  | claim _ hj pending =>
    rcases List.mem_append.mp hx' with hx | hx
    · exact .kept hx rfl rfl id (quiet_of_log (.inl rfl) _)
    · obtain rfl := List.mem_singleton.mp hx
      exact .claimed hj pending rfl rfl rfl
  | @advance x phase events hx hadvance =>
    rcases State.mem_set hx' with rfl | ⟨hmem, hne⟩
    · exact .advanced hx hadvance rfl rfl
    · refine .kept hmem rfl rfl id fun output plan passed heq => ?_
      rcases hadvance.events with rfl | ⟨_, _, _, rfl⟩ | ⟨_, _, rfl⟩
      · exact List.cons_ne_self _ _ heq.symm
      · exact hne (Event.verified.inj (List.cons.inj heq).1).1.symm
      · cases (List.cons.inj heq).1
  | @report x _ cancel phase events hx hreport _ _ hremote =>
    rcases State.mem_set hx' with rfl | ⟨hmem, hne⟩
    · exact .reported hx hreport hremote rfl rfl
    · refine .kept hmem rfl rfl id fun output plan passed heq => ?_
      rcases hreport.events with rfl | ⟨rfl, -⟩
      · exact List.cons_ne_self _ _ heq.symm
      · cases (List.cons.inj heq).1
  | settle =>
    refine .kept (List.mem_of_mem_filter hx') rfl rfl id (quiet_of_log ?_ _)
    simp only [State.settle, State.without]
    split
    · exact .inr ⟨_, rfl, rfl⟩
    · exact .inl rfl
  | drop => exact .kept (List.mem_of_mem_filter hx') rfl rfl id (quiet_of_log (.inl rfl) _)

/-! ## Events -/

/-- Why a move notes an event. -/
inductive Event.Cause (c : Settings) (s : State) (a : Action C) (s' : State) : Event → Prop
  | cancelRemote {job : Job} {worker : Worker} {active : Bool} (hop : a.op = .cancelJob job.id active)
      (hj : job ∈ s.db.jobs) (running : job.status = .running)
      (assigned : job.assignedWorkerId.bind s.db.worker = some worker)
      (remote : worker.workerType = .remote)
      (requested : ∀ row ∈ s'.db.jobs, row.id = job.id → row.cancellationRequestedAt.isSome = true)
      (hlive : s'.live = s.live) : Cause c s a s' (.cancelled job.id)
  | cancelLocal {job : Job} {x : Execution} (hop : a.op = .cancelJob job.id true)
      (hj : job ∈ s.db.jobs) (running : job.status = .running) (hx : s.execution job.id = some x)
      (cancellable : x.cancellable = true) (hlive : s'.live = (s.requestCancel job.id).live) :
      Cause c s a s' (.cancelled job.id)
  | verified {x : Execution} {output : StagedOutput} {media : MediaFile} {passed : Bool} (hx : x ∈ s.live)
      (hphase : x.phase = .verifying output) (hmedia : x.media = some media)
      (hcancel : x.cancelledAt a.now = none) :
      Cause c s a s' (.verified x.jobId output.path x.plan passed)
  | replacing {x : Execution} {output : StagedOutput} {verification : VerificationResult} (hx : x ∈ s.live)
      (hphase : x.phase = .verified output verification) : Cause c s a s' (.replacing x.jobId)
  | placed {x : Execution} {output : StagedOutput} {verification : VerificationResult} (hx : x ∈ s.live)
      (hphase : x.phase = .replacing output verification) :
      Cause c s a s' (.placed x.jobId output.path x.plan)
  | approved {itemId : FileId} {w : Placing C} {job : Job} {plan : PlanSnapshot}
      {sourcePath output : PosixPath} (hop : a.op = .approveItem itemId w)
      (happroval : s.approvalOf c a.exists_ itemId = some (.staged job plan sourcePath output)) :
      Cause c s a s' (.approved job.id output plan.payload)
  | retried {x : Execution} {job new : Job} {plan : PlanSnapshot} {appliedPlan : ProcessingPlan}
      {result : ExecutionResult} (hx : x ∈ s.live) (hj : s.db.job x.jobId = some job)
      (hplan : s.db.planSnapshot job.planSnapshotId = some plan)
      (recorded : Recorded c s a x job plan appliedPlan result)
      (recording : Database.Recording s.db c.calendar job plan appliedPlan result a.uid a.now s'.db
        (some new)) : Cause c s a s' (.retried x.jobId a.uid)

theorem Execution.Advance.cause {x : Execution} {phase : Phase} {events : List Event}
    (h : x.Advance C a.now phase events) (hx : x ∈ s.live) :
    events = [] ∨ ∃ e, events = [e] ∧ ∀ s', e.Cause c s a s' := by
  cases h with
  | verify probe safety hphase hmedia hcancel =>
    exact .inr ⟨_, rfl, fun _ => .verified hx hphase hmedia hcancel⟩
  | place w hphase => exact .inr ⟨_, rfl, fun _ => .placed hx hphase⟩
  | _ => exact .inl rfl

/-- A job with the drawn id after a result is the retry of the job. -/
theorem recording_new (hI : s.Inv) (hfresh : a.uid ∉ s.issued) {job : Job} {plan : PlanSnapshot}
    {appliedPlan : ProcessingPlan} {result : ExecutionResult} {db : Database} {new : Option Job}
    (h : Database.Recording s.db c.calendar job plan appliedPlan result a.uid a.now db new)
    (hnew : (db.job a.uid).isSome = true) : ∃ job, new = some job := by
  obtain ⟨status, hstatus, hevolves⟩ := h.evolves
  obtain ⟨row, hrow⟩ := Option.isSome_iff_exists.mp hnew
  rcases hevolves.mem (Table.mem_of_find hrow) with ⟨old, hold, hchange⟩ | hmem
  · have hterms := (hchange.imp (.refl _) fun _ h => h.kept hstatus).terms
    have hid : old.id = a.uid := (Job.id_of_terms hterms).symm.trans (Table.key_of_find hrow)
    exact absurd (hid ▸ hI.sound.jobIds old hold) hfresh
  · exact ⟨row, hmem⟩

/-- A move notes at most one event. -/
theorem Move.log (hI : s.Inv) (hfresh : a.uid ∉ s.issued) (h : Move c s a s') :
    s'.log = s.log ∨ ∃ e, s'.log = e :: s.log ∧ e.Cause c s a s' := by
  cases h with
  | manage => exact .inl rfl
  | cancelRemote hop _ hj running assigned remote requested =>
    exact .inr ⟨_, rfl, .cancelRemote hop hj running assigned remote requested rfl⟩
  | cancelLocal hop _ hj running hx cancellable =>
    exact .inr ⟨_, rfl, .cancelLocal hop hj running hx cancellable rfl⟩
  | ask => exact .inl rfl
  | approve hop happroval => exact .inr ⟨_, rfl, .approved hop happroval⟩
  | sweep => exact .inl rfl
  | claim => exact .inl rfl
  | advance hx hadvance =>
    rcases hadvance.cause (c := c) hx with rfl | ⟨e, rfl, hcause⟩
    · exact .inl rfl
    · exact .inr ⟨e, rfl, hcause _⟩
  | report hx hreport =>
    rcases hreport.events with rfl | ⟨rfl, output, verification, hphase⟩
    · exact .inl rfl
    · exact .inr ⟨_, rfl, .replacing hx hphase⟩
  | @settle x db job plan _ _ _ hx hj hplan recorded recording =>
    by_cases hnew : (db.job a.uid).isSome = true
    · obtain ⟨new, rfl⟩ := recording_new hI hfresh recording hnew
      refine .inr ⟨.retried x.jobId a.uid, ?_, .retried hx hj hplan recorded recording⟩
      simp only [State.settle, State.without, hnew, if_true]
    · refine .inl ?_
      simp only [State.settle, State.without, hnew, Bool.false_eq_true, if_false]
  | drop => exact .inl rfl

/-! ## Results -/

section Results

variable {x : Execution} {job : Job} {plan : PlanSnapshot} {appliedPlan : ProcessingPlan}
  {result : ExecutionResult}

/-- The plan that the local worker applies to an execution is that of the execution. -/
theorem appliedPlan_eq {plan appliedPlan : ProcessingPlan}
    {analysed : Option ProcessingPlan} (kind : x.jobKind = .execution)
    (happlied : x.jobKind = .execution → appliedPlan = x.plan) :
    (if x.jobKind = .dryRun then analysed.getD plan else x.plan) = appliedPlan := by
  rw [if_neg (by rw [kind]; exact nofun), happlied kind]

/-- A result that a step of the execution records is recorded with what follows it. -/
theorem step_recording (hI : s.Inv) (hstep : step c s a = some s') (hx : x ∈ s.live)
    (hj : s.db.job x.jobId = some job) (hplan : s.db.planSnapshot job.planSnapshotId = some plan)
    (kind : job.jobKind = .execution) (h : Recorded c s a x job plan appliedPlan result) :
    ∃ new, Database.Recording s.db c.calendar job plan appliedPlan result a.uid a.now s'.db new := by
  have hid : job.id = x.jobId := Table.key_of_find hj
  have hmem : job ∈ s.db.jobs := Table.mem_of_find hj
  obtain ⟨-, hs'⟩ := Option.ite_none_left_eq_some.mp hstep
  obtain ⟨s₁, hs₁, rfl⟩ := Option.map_eq_some_iff.mp hs'
  have hwork : ∀ {w : Work C}, a.op = .work x.jobId w →
      s.work c a.exists_ a.uid a.now x w = some s₁ := by
    intro w hop
    rwa [hop, Op.apply, hI.execution_of_mem hx, Option.bind_some] at hs₁
  cases h with
  | @submitted worker result hop hphase htype hauth hreports =>
    obtain ⟨db, hdb⟩ : ∃ db, s.db.submitJobResult c.calendar c.os c.roots a.exists_ worker x.jobId
        result a.uid a.now = .ok db := Database.submitJobResult_total hI.sound hreports
    have hok : (s.db.requireAuthenticatedWorker x.tokenHash >>= fun worker =>
        s.db.submitJobResult c.calendar c.os c.roots a.exists_ worker x.jobId result a.uid a.now) =
          .ok db := bind_ok.mpr ⟨worker, hauth, hdb⟩
    have hwork := hwork hop
    simp only [State.work, hphase, htype, hok] at hwork
    obtain rfl := Option.some.inj hwork
    obtain ⟨row, plan', hreports', new, hrecording⟩ := Database.submitJobResult_ok hI.sound hdb
    have hrow : row = job := Option.some.inj (hreports'.row.symm.trans hreports.row)
    have hsame : plan' = plan := Option.some.inj (hreports'.snapshot.symm.trans (hrow ▸ hplan))
    rw [hrow, hsame] at hrecording
    exact ⟨new, hrecording⟩
  | @failed message category hop hphase hauth =>
    obtain ⟨worker, hauth, hreports⟩ := hauth
    obtain ⟨db, hdb⟩ : ∃ db, s.db.reportJobFailure c.calendar a.exists_ worker x.jobId message category
        a.uid a.now = .ok db := Database.reportJobFailure_total hI.sound hreports
    have hok : (s.db.requireAuthenticatedWorker x.tokenHash >>= fun worker =>
        s.db.reportJobFailure c.calendar a.exists_ worker x.jobId message category a.uid a.now) =
          .ok db := bind_ok.mpr ⟨worker, hauth, hdb⟩
    have hwork := hwork hop
    simp only [State.work, hphase, hok] at hwork
    obtain rfl := Option.some.inj hwork
    obtain ⟨row, plan', hreports', new, hrecording⟩ := Database.reportJobFailure_ok hI.sound hdb
    have hrow : row = job := Option.some.inj (hreports'.row.symm.trans hreports.row)
    have hsame : plan' = plan := Option.some.inj (hreports'.snapshot.symm.trans (hrow ▸ hplan))
    rw [hrow, hsame] at hrecording
    exact ⟨new, hrecording⟩
  | @finished _ analysed _ hop hphase htype happlied =>
    have hkind := (hI.row_of_mem hx hmem hid.symm).kind.symm.trans kind
    obtain ⟨db, hdb⟩ : ∃ db, s.db.recordResult c.calendar a.exists_ job plan appliedPlan result id a.uid
        a.now = some db := Database.recordResult_total hI.sound hmem fun _ => rfl
    have hwork := hwork hop
    simp only [State.work, hphase, htype, hj, hplan, Option.bind_eq_bind, Option.bind_some,
      appliedPlan_eq hkind happlied, hdb] at hwork
    obtain rfl := Option.some.inj hwork
    exact Database.recordResult_cases hI.sound (hid ▸ hj) hplan (fun _ => rfl) hdb

end Results

end Encodr
