import Mathlib.Data.List.Chain
import Encodr.System.Steps

/-!
# Automatic retries

A failed execution is retried by a new scheduled job, or routed to manual review, or another active
job of the file stands for the retry. The attempts are counted from job to job, so a chain of retries
is short.

* `State.RetryChain`, `RetryChain.bounded`: the attempts along a chain of automatic retries.
* `Aftermath`, `failure_aftermath`: what follows a recorded failure.
* `RowMove.promoted`: when a scheduled job becomes pending.
* `automatic_retry`: the three together, of every state that is reached.
-/

namespace Encodr

open Python Lib

variable {C : Type}

/-! ## Chains of retries -/

/-- The new job is the automatic retry of the job. -/
structure State.Retries (s : State) (job new : Job) : Prop where
  old : job ∈ s.db.jobs
  added : new ∈ s.db.jobs
  noted : .retried job.id new.id ∈ s.log

/-- Jobs each of which is the automatic retry of the one before. -/
def State.RetryChain (s : State) (jobs : List Job) : Prop :=
  jobs.IsChain s.Retries

/-- How a job and its automatic retry are related. -/
structure Job.RetriedBy (job new : Job) : Prop where
  file : new.trackedFileId = job.trackedFileId
  attempts : new.attemptCount = job.attemptCount + 1
  budget : job.attemptCount ≤ maxAutomatedRetries

/-- Each noted retry has its two rows. -/
def State.RetriesCount (s : State) : Prop :=
  ∀ jobId newId, .retried jobId newId ∈ s.log →
    ∃ job ∈ s.db.jobs, ∃ new ∈ s.db.jobs, job.id = jobId ∧ new.id = newId ∧ job.RetriedBy new

section Chains

variable {c : Settings} {s s' : State} {a : Action C}

theorem Job.RetriedBy.of_terms {job new job' new' : Job} (h : job.RetriedBy new)
    (hjob : job'.terms = job.terms) (hnew : new'.terms = new.terms) : job'.RetriedBy new' := by
  have hattempts : job'.attemptCount = job.attemptCount := congrArg JobTerms.attemptCount hjob
  have hattempts' : new'.attemptCount = new.attemptCount := congrArg JobTerms.attemptCount hnew
  refine ⟨?_, ?_, ?_⟩
  · rw [file_of_terms hnew, file_of_terms hjob]
    exact h.file
  · rw [hattempts', hattempts]
    exact h.attempts
  · rw [hattempts]
    exact h.budget

/-- A retry that a move notes has its two rows. -/
theorem Event.Cause.retriedBy {jobId newId : JobId} (h : Event.Cause c s a s' (.retried jobId newId)) :
    ∃ job ∈ s'.db.jobs, ∃ new ∈ s'.db.jobs, job.id = jobId ∧ new.id = newId ∧ job.RetriedBy new := by
  cases h with
  | @retried x job new plan appliedPlan result hx hj hplan recorded recording =>
    cases recording with
    | retried failed kind unreviewed budget evolves =>
      obtain ⟨job', hj', hchange⟩ := evolves.changed (Table.mem_of_find hj)
      have hterms : job'.terms = job.terms := (hchange.of_eq rfl).terms
      refine ⟨job', hj', _, evolves.new_mem rfl, ?_, rfl, ?_⟩
      · exact (Job.id_of_terms hterms).trans (Table.key_of_find hj)
      · have hretried : job.RetriedBy (Job.createFromPlan c.calendar a.uid job.trackedFileId plan
          (job.automaticRetryOptions result) a.now) := ⟨rfl, rfl, budget⟩
        exact hretried.of_terms hterms rfl

theorem Move.retriesCount (hI : s.Inv) (hfresh : a.uid ∉ s.issued) (h : Move c s a s')
    (hs : s.RetriesCount) : s'.RetriesCount := by
  obtain ⟨new, hevolves⟩ := h.evolves hI
  have hold : ∀ jobId newId, .retried jobId newId ∈ s.log →
      ∃ job ∈ s'.db.jobs, ∃ new ∈ s'.db.jobs, job.id = jobId ∧ new.id = newId ∧ job.RetriedBy new := by
    intro jobId newId hmem
    obtain ⟨job, hj, new, hn, rfl, rfl, hretried⟩ := hs jobId newId hmem
    obtain ⟨job', hj', hjob⟩ := hevolves.changed hj
    obtain ⟨new', hn', hnew⟩ := hevolves.changed hn
    exact ⟨job', hj', new', hn', Job.id_of_terms hjob.terms, Job.id_of_terms hnew.terms,
      hretried.of_terms hjob.terms hnew.terms⟩
  intro jobId newId hmem
  rcases h.log hI hfresh with heq | ⟨e, heq, hcause⟩
  · exact hold jobId newId (heq ▸ hmem)
  · rw [heq] at hmem
    rcases List.mem_cons.mp hmem with rfl | hmem
    · exact hcause.retriedBy
    · exact hold jobId newId hmem

/-- A noted retry, by the invariant. -/
theorem State.Retries.retriedBy {issued : List String} (hs : s.db.Sound issued) (hcount : s.RetriesCount)
    {job new : Job} (h : s.Retries job new) : job.RetriedBy new := by
  obtain ⟨job', hj', new', hn', hjid, hnid, hretried⟩ := hcount _ _ h.noted
  rwa [hs.eq_of_id hj' h.old hjid, hs.eq_of_id hn' h.added hnid] at hretried

/-- The attempts of the last job of a chain are those of its first job and one for each retry; the
retries stop after the budget. -/
theorem budget_of_isChain {job : Job} {retries : List Job}
    (h : (job :: retries).IsChain Job.RetriedBy) :
    retries = [] ∨ job.attemptCount + retries.length ≤ maxAutomatedRetries + 1 := by
  induction retries generalizing job with
  | nil => exact .inl rfl
  | cons new retries ih =>
    obtain ⟨hretried, hrest⟩ := List.isChain_cons_cons.mp h
    have hattempts := hretried.attempts
    have hbudget := hretried.budget
    right
    rw [List.length_cons]
    rcases ih hrest with rfl | hlength
    · rw [List.length_nil]
      omega
    · omega

/-- A chain of automatic retries: the attempts increase, and there are at most three retries. -/
theorem State.RetryChain.bounded {issued : List String} (hs : s.db.Sound issued)
    (hcount : s.RetriesCount) {jobs : List Job} (h : s.RetryChain jobs) :
    jobs.Pairwise (fun job later => job.attemptCount < later.attemptCount) ∧ jobs.tail.length ≤ 3 := by
  have hretried : jobs.IsChain Job.RetriedBy := h.imp fun _ _ hr => hr.retriedBy hs hcount
  constructor
  · have hlt : jobs.IsChain fun job later => job.attemptCount < later.attemptCount :=
      hretried.imp fun job new hr => by rw [hr.attempts]; exact Nat.lt_succ_self _
    exact List.isChain_iff_pairwise.mp hlt
  · cases jobs with
    | nil => exact Nat.zero_le _
    | cons job retries =>
      rw [List.tail_cons]
      rcases budget_of_isChain hretried with rfl | hlength
      · exact Nat.zero_le _
      · have hpos : retries ≠ [] → 1 ≤ job.attemptCount := fun hne => by
          obtain ⟨new, rest, rfl⟩ := List.exists_cons_of_ne_nil hne
          exact hs.attempts job (List.isChain_cons_cons.mp h).1.old
        by_cases hne : retries = []
        · rw [hne]
          exact Nat.zero_le _
        · have := hpos hne
          rw [maxAutomatedRetries] at hlength
          omega

end Chains

/-! ## After a failure -/

/-- What follows the failure of an execution. -/
inductive Aftermath where
  | retry
  | review
  | standIn
deriving DecidableEq

/-- In the step, the failed result of an execution of the job is recorded. -/
def FailureRecorded (c : Settings) (s : State) (a : Action C) (job : Job) (result : ExecutionResult) :
    Prop :=
  job.jobKind = .execution ∧ result.status = .failed ∧ ∃ x ∈ s.live, s.db.job x.jobId = some job ∧
    ∃ plan, s.db.planSnapshot job.planSnapshotId = some plan ∧
      ∃ appliedPlan, Recorded c s a x job plan appliedPlan result

/-- The row of the job has the status. -/
def Database.Shows (db : Database) (jobId : JobId) (status : JobStatus) : Prop :=
  ∃ row, db.job jobId = some row ∧ row.status = status

/-- The tables after a failure of `job`. -/
def Aftermath.Follows (db : Database) (job : Job) (result : ExecutionResult) (db' : Database) :
    Aftermath → Prop
  | .retry => db'.Shows job.id .failed ∧ ∃ new ∈ db'.jobs, db'.jobIds = db.jobIds ++ [new.id] ∧
    job.RetriedBy new ∧ new.status = .scheduled ∧ new.scheduledForAt =
      some (result.completedAt + seconds (min (60 * 2 ^ (new.attemptCount - 2)) 900))
  | .review => db'.Shows job.id .manualReview ∧ db'.jobIds = db.jobIds
  | .standIn => db'.Shows job.id .failed ∧ db'.jobIds = db.jobIds ∧
    ∃ row ∈ db.jobs, row.id ≠ job.id ∧ row.isActive = true ∧ row.trackedFileId = job.trackedFileId

section Failures

variable {c : Settings} {s s' : State} {a : Action C} {db' : Database} {issued : List String}
  {job : Job} {plan : PlanSnapshot} {appliedPlan : ProcessingPlan} {result : ExecutionResult}
  {new : Option Job} {k k' : Aftermath}

theorem Database.Shows.unique {jobId : JobId} {status status' : JobStatus}
    (h : db'.Shows jobId status) (h' : db'.Shows jobId status') : status = status' := by
  obtain ⟨row, hrow, rfl⟩ := h
  obtain ⟨row', hrow', rfl⟩ := h'
  rw [Option.some.inj (hrow.symm.trans hrow')]

/-- One thing follows a failure. -/
theorem Aftermath.Follows.unique {db : Database} (h : k.Follows db job result db')
    (h' : k'.Follows db job result db') : k = k' := by
  have hids : ∀ {id : JobId}, db'.jobIds = db.jobIds ++ [id] → db'.jobIds ≠ db.jobIds := by
    intro id h h'
    have hlength := congrArg List.length (h.symm.trans h')
    simp at hlength
  cases k <;> cases k'
  case retry.retry | review.review | standIn.standIn => rfl
  case retry.review => exact nomatch h.1.unique h'.1
  case review.retry => exact nomatch h.1.unique h'.1
  case review.standIn => exact nomatch h.1.unique h'.1
  case standIn.review => exact nomatch h.1.unique h'.1
  case retry.standIn =>
    obtain ⟨-, new, -, hnew, -⟩ := h
    exact absurd h'.2.1 (hids hnew)
  case standIn.retry =>
    obtain ⟨-, new, -, hnew, -⟩ := h'
    exact absurd h.2.1 (hids hnew)

/-- What the recording of a failure leaves in the tables. -/
theorem Database.Recording.aftermath {db : Database} {calendar : Calendar} {uid : String} {now : Time}
    (hs' : db'.Sound issued) (hj : job ∈ db.jobs)
    (h : Database.Recording db calendar job plan appliedPlan result uid now db' new)
    (failed : result.status = .failed) (kind : job.jobKind = .execution) :
    ∃ k : Aftermath, k.Follows db job result db' := by
  have hids : ∀ {status : JobStatus} {new : Option Job},
      db.Evolves (Job.Only job.id (Job.Recorded · result status)) uid new db' →
        db'.jobIds = db.jobIds ++ new.toList.map (·.id) := by
    intro status new he
    exact he.jobIds fun row _ row' h =>
      h.imp (P := fun row row' => row'.id = row.id) rfl fun _ h => Job.id_of_terms h.terms
  have hshows : ∀ {status : JobStatus} {new : Option Job},
      db.Evolves (Job.Only job.id (Job.Recorded · result status)) uid new db' →
        db'.Shows job.id status := by
    intro status new he
    obtain ⟨job', hj', hchange⟩ := he.changed hj
    have hrecorded := hchange.of_eq rfl
    exact ⟨job', Job.id_of_terms hrecorded.terms ▸ hs'.job_of_mem hj', hrecorded.status⟩
  cases h with
  | settled h => exact absurd kind (h.resolve_left (absurd failed))
  | reviewed _ _ _ evolves =>
    refine ⟨.review, hshows evolves, ?_⟩
    rw [hids evolves]
    exact List.append_nil _
  | retried _ _ _ budget evolves =>
    refine ⟨.retry, hshows evolves, _, evolves.new_mem rfl, hids evolves, ⟨rfl, rfl, budget⟩, ?_, ?_⟩
    · rfl
    · rfl
  | displaced _ _ _ _ active evolves =>
    refine ⟨.standIn, hshows evolves, ?_, active⟩
    rw [hids evolves]
    exact List.append_nil _

end Failures

/-! ## Schedules -/

/-- A scheduled job becomes pending in a refresh, when it is due. -/
theorem RowMove.promoted {c : Settings} {s s' : State} {a : Action C} {job job' : Job}
    (h : RowMove c s a s' job job') (hscheduled : job.status = .scheduled)
    (hpending : job'.status = .pending) :
    a.op = .request .refreshScheduledJobs ∧ job.isDue c.calendar a.now = true := by
  have hpromotes : (a.op.rights c s a.now).promotes job →
      a.op = .request .refreshScheduledJobs ∧ job.isDue c.calendar a.now = true := by
    intro hp
    cases hop : a.op with
    | request q =>
      rw [hop] at hp
      cases q with
      | refreshScheduledJobs => exact ⟨rfl, hp⟩
      | _ => exact hp.elim
    | _ =>
      rw [hop] at hp
      exact hp.elim
  cases h with
  | managed _ h => exact hpromotes (h.promoted hscheduled hpending)
  | approved _ _ h => exact hpromotes (h.promoted hscheduled hpending)
  | swept => cases hpending
  | claimed => cases hpending
  | recorded _ _ _ hstatus h =>
    rw [h.status] at hpending
    subst hpending
    rcases hstatus with hstatus | ⟨-, hstatus⟩
    · revert hstatus
      cases ExecutionResult.status _ <;> exact nofun
    · cases hstatus

/-! ## Every run -/

theorem retriesCount_inductive (c : Settings) :
    (machine c C).Inductive (fun _ _ => True) fun s => s.Inv ∧ s.RetriesCount := by
  refine (inv_inductive c).assuming ?_ ?_
  · rintro s rfl
    exact fun jobId newId hmem => absurd hmem List.not_mem_nil
  · intro s a s' hI hcount _ hstep
    obtain ⟨hfresh, s₁, hmove, rfl⟩ := step_move hI.sound hstep
    have hcount' := hmove.retriesCount hI hfresh hcount
    exact hcount'

/-- The automatic retries of a run. In a chain of them the attempts increase, and there are at most
three; none is made of a job with more than three attempts. After a failure of an execution that a step
records, there is a retry that becomes due after `min(60·2^(n-2), 900)` seconds, or the job is in
manual review, or another active job of the file stands for the retry. A scheduled job becomes pending
in a refresh, when its time has come and its windows are open. -/
theorem automatic_retry (c : Settings) {s : State} (h : (machine c C).Reachable s) :
    (∀ jobs, s.RetryChain jobs →
      jobs.Pairwise (fun job later => job.attemptCount < later.attemptCount) ∧ jobs.tail.length ≤ 3) ∧
    (∀ job new, s.Retries job new →
      job.attemptCount ≤ 3 ∧ new.trackedFileId = job.trackedFileId) ∧
    ∀ (a : Action C) s', step c s a = some s' →
      (∀ job result, FailureRecorded c s a job result →
        ∃! k : Aftermath, k.Follows s.db job result s'.db) ∧
      ∀ job ∈ s.db.jobs, ∀ job' ∈ s'.db.jobs, job'.id = job.id → job.status = .scheduled →
        job'.status = .pending → a.op = .request .refreshScheduledJobs ∧
          (∀ due ∈ job.scheduledForAt, due ≤ a.now) ∧
          c.calendar.allowNow job.scheduleWindows a.now = true := by
  obtain ⟨hI, hcount⟩ := (retriesCount_inductive c).reach h
  refine ⟨fun jobs hchain => hchain.bounded hI.sound hcount, fun job new hr => ?_,
    fun a s' hstep => ⟨?_, ?_⟩⟩
  · have hretried := hr.retriedBy hI.sound hcount
    exact ⟨hretried.budget, hretried.file⟩
  · rintro job result ⟨kind, failed, x, hx, hj, plan, hplan, appliedPlan, hrecorded⟩
    obtain ⟨new, hrecording⟩ := step_recording hI hstep hx hj hplan kind hrecorded
    obtain ⟨k, hk⟩ := hrecording.aftermath (hI.step hstep).sound (Table.mem_of_find hj) failed kind
    exact ⟨k, hk, fun k' hk' => hk'.unique hk⟩
  · intro job hj job' hj' hid hscheduled hpending
    obtain ⟨hfresh, s₁, hmove, rfl⟩ := step_move hI.sound hstep
    obtain ⟨hop, hdue⟩ := (hmove.row hI hfresh hj hj' hid).promoted hscheduled hpending
    obtain ⟨hdue, hopen⟩ := Bool.and_eq_true_iff.mp hdue
    refine ⟨hop, fun due hmem => ?_, hopen⟩
    rw [Option.mem_def.mp hmem] at hdue
    simpa using hdue

/-- The encoder fails on `job1`. -/
def failsRun : List (Action String) := remoteFilmRun ++ [
  actAt 3 "failed" (.work "job1" (.run (.failed "ffmpeg failed." "execution_failed") 0)),
  actAt 3 "retry" (.work "job1" .submit)]

theorem automatic_retry_film :
    ∃ job ∈ (homeAfter failsRun).db.jobs, ∃ new ∈ (homeAfter failsRun).db.jobs,
      (homeAfter failsRun).Retries job new ∧ job.attemptCount ≤ 3 ∧
        new.trackedFileId = job.trackedFileId := by
  have hlog : .retried "job1" "retry" ∈ (homeAfter failsRun).log := by decide
  have hids : (homeAfter failsRun).db.jobIds = ["job1", "retry"] := by decide
  have hrow : ∀ id ∈ (homeAfter failsRun).db.jobIds, ∃ job ∈ (homeAfter failsRun).db.jobs, job.id = id :=
    fun id hid => List.mem_map.mp hid
  obtain ⟨job, hj, hjid⟩ := hrow "job1" (by rw [hids]; decide)
  obtain ⟨new, hn, hnid⟩ := hrow "retry" (by rw [hids]; decide)
  have hretries : (homeAfter failsRun).Retries job new := ⟨hj, hn, by rw [hjid, hnid]; exact hlog⟩
  exact ⟨job, hj, new, hn, hretries,
    (automatic_retry home (home_reachable failsRun (by decide))).2.1 job new hretries⟩

end Encodr
