import Encodr.Db.JobRepository

/-!
# How the tables evolve

A transaction changes the rows of jobs, adds at most one job, and removes no plan and no file. What
it may do to a row is a relation. The tables stay sound under every relation that keeps the terms of
a job and makes no job active.

* `Job.terms`: what a job row keeps for good.
* `Job.Managed`: what an operation outside of executions may do to a row, by its `Rights`.
* `Database.Evolves`: the tables after a transaction; `Evolves.trans`, `Evolves.frame`,
  `Evolves.updateJob` compose it.
* `Database.Sound`, `Sound.evolves`: keys are unique, references resolve, and a file has at most one
  active job.
-/

namespace Encodr

open Python Lib

/-! ## Rows -/

/-- What a job row keeps for good. -/
structure JobTerms where
  id : JobId
  trackedFileId : FileId
  planSnapshotId : PlanId
  jobKind : JobKind
  attemptCount : Nat
  backupPolicy : String
  deleteReplacedSource : Bool

/-- What executions depend on in a job row. -/
structure JobCore where
  terms : JobTerms
  status : JobStatus
  clearedAt : Option Time
  assignedWorkerId : Option WorkerId
  cancellationRequestedAt : Option Time
  outputPath : Option PosixPath
  finalOutputPath : Option PosixPath
  verificationStatus : JobVerificationStatus

/-- Where an operation outside of executions moves a status. -/
def JobStatus.mayBecome : JobStatus → JobStatus → Bool
  | .pending, t | .scheduled, t => t ∈ [.pending, .scheduled, .cancelled]
  | .running, t => t = .running
  | .interrupted, t => t ∈ [.interrupted, .cancelled, .skipped]
  | .cancelled, t => t ∈ [.cancelled, .skipped]
  | .skipped, t => t = .skipped
  | .failed, t => t ∈ [.failed, .skipped]
  | .manualReview, t => t ∈ [.manualReview, .skipped, .completed]
  | .completed, t => t = .completed

theorem JobStatus.mayBecome_refl (s : JobStatus) : s.mayBecome s = true := by
  cases s <;> rfl

theorem JobStatus.isActive_of_mayBecome {s t : JobStatus} (h : s.mayBecome t = true)
    (ht : t.isActive = true) : s.isActive = true := by
  cases s <;> cases t <;> first | rfl | exact absurd ht (by decide) | exact absurd h (by decide)

/-- The rows that an operation outside of executions may give another terminal status, promote from
its schedule, or leave verified and completed. -/
structure Rights where
  resolves : Job → Prop := fun _ => False
  promotes : Job → Prop := fun _ => False
  passes : Job → Prop := fun _ => False

namespace Job

/-- The terms of a job. -/
def terms (job : Job) : JobTerms where
  id := job.id
  trackedFileId := job.trackedFileId
  planSnapshotId := job.planSnapshotId
  jobKind := job.jobKind
  attemptCount := job.attemptCount
  backupPolicy := job.backupPolicy
  deleteReplacedSource := job.deleteReplacedSource

/-- The core of a job. -/
def core (job : Job) : JobCore where
  terms := job.terms
  status := job.status
  clearedAt := job.clearedAt
  assignedWorkerId := job.assignedWorkerId
  cancellationRequestedAt := job.cancellationRequestedAt
  outputPath := job.outputPath
  finalOutputPath := job.finalOutputPath
  verificationStatus := job.verificationStatus

/-- The core of a row with a recorded result. -/
theorem markResult_core (job : Job) (result : ExecutionResult) :
    (job.markResult result).core = {
      terms := job.terms
      status := result.status.jobStatus
      clearedAt := job.clearedAt
      assignedWorkerId := none
      cancellationRequestedAt := job.cancellationRequestedAt
      outputPath := result.outputPath
      finalOutputPath := result.finalOutputPath
      verificationStatus := verificationStatusForResult result } := by
  unfold markResult; dsimp only; split_ifs <;> rfl

@[simp] theorem markResult_terms (job : Job) (result : ExecutionResult) :
    (job.markResult result).terms = job.terms :=
  congrArg JobCore.terms (job.markResult_core result)

@[simp] theorem markResult_clearedAt (job : Job) (result : ExecutionResult) :
    (job.markResult result).clearedAt = job.clearedAt :=
  congrArg JobCore.clearedAt (job.markResult_core result)

@[simp] theorem markResult_cancellationRequestedAt (job : Job) (result : ExecutionResult) :
    (job.markResult result).cancellationRequestedAt = job.cancellationRequestedAt :=
  congrArg JobCore.cancellationRequestedAt (job.markResult_core result)

@[simp] theorem markResult_outputPath (job : Job) (result : ExecutionResult) :
    (job.markResult result).outputPath = result.outputPath :=
  congrArg JobCore.outputPath (job.markResult_core result)

@[simp] theorem markResult_finalOutputPath (job : Job) (result : ExecutionResult) :
    (job.markResult result).finalOutputPath = result.finalOutputPath :=
  congrArg JobCore.finalOutputPath (job.markResult_core result)

@[simp] theorem markResult_verificationStatus (job : Job) (result : ExecutionResult) :
    (job.markResult result).verificationStatus = verificationStatusForResult result :=
  congrArg JobCore.verificationStatus (job.markResult_core result)

section Terms

variable {job job' : Job}

theorem id_of_terms (h : job'.terms = job.terms) : job'.id = job.id := congrArg JobTerms.id h

theorem file_of_terms (h : job'.terms = job.terms) : job'.trackedFileId = job.trackedFileId :=
  congrArg JobTerms.trackedFileId h

theorem plan_of_terms (h : job'.terms = job.terms) : job'.planSnapshotId = job.planSnapshotId :=
  congrArg JobTerms.planSnapshotId h

/-- The plan that a worker is given depends on the terms of the job. -/
theorem planPayload_of_terms (h : job'.terms = job.terms) (payload : ProcessingPlan) :
    planPayloadForJob job' payload = planPayloadForJob job payload := by
  have hpolicy : job'.backupPolicy = job.backupPolicy := congrArg JobTerms.backupPolicy h
  have hdelete : job'.deleteReplacedSource = job.deleteReplacedSource :=
    congrArg JobTerms.deleteReplacedSource h
  rw [planPayloadForJob, planPayloadForJob, hpolicy, hdelete]

end Terms

/-- A change of a row that keeps its terms and does not make the job active, or verify one that stays
so. -/
structure Kept (job job' : Job) : Prop where
  terms : job'.terms = job.terms
  active : job'.isActive = true → job.isActive = true
  verified : job'.status.isActive = true → job'.verificationStatus = .passed →
    job.status.isActive = true ∧ job.verificationStatus = .passed

theorem Kept.refl (job : Job) : job.Kept job :=
  ⟨rfl, fun h => h, fun ha hp => ⟨ha, hp⟩⟩

/-- What an operation outside of executions may do to a row with the rights `r`, where `workers` are
left afterwards: a running job stays as it is for its worker, and a completed job keeps its
outputs. -/
structure Managed (r : Rights) (workers : List WorkerId) (job job' : Job) : Prop where
  terms : job'.terms = job.terms
  status : job.status.mayBecome job'.status = true
  cleared : job.clearedAt.isSome = true → job'.clearedAt.isSome = true
  running : job.status = .running → job'.clearedAt = job.clearedAt
  assigned : job.status = .running → job'.assignedWorkerId = job.assignedWorkerId ∨
    job'.assignedWorkerId = none ∧ ∃ w, job.assignedWorkerId = some w ∧ w ∉ workers
  cancellation : job.cancellationRequestedAt.isSome = true → job'.cancellationRequestedAt.isSome = true
  completed : job.status = .completed →
    job'.outputPath = job.outputPath ∧ job'.finalOutputPath = job.finalOutputPath
  outputs : job'.outputPath.isSome = true → job.outputPath.isSome = true
  resolved : job.status.isActive = false → job'.status = job.status ∨ r.resolves job
  promoted : job.status = .scheduled → job'.status = .pending → r.promotes job
  passed : job'.verificationStatus = .passed → job.verificationStatus = .passed ∨
    job.status.isActive = false ∧ r.passes job
  ended : job'.status = .completed → job.status = .completed ∨ r.passes job

section Managed

variable {r r' : Rights} {workers : List WorkerId} {job job' : Job}

/-- A change of what executions do not depend on. -/
theorem Managed.of_core (h : job'.core = job.core) : job.Managed r workers job' where
  terms := congrArg JobCore.terms h
  status := by
    rw [show job'.status = job.status from congrArg JobCore.status h]
    exact job.status.mayBecome_refl
  cleared hc := (show job'.clearedAt = job.clearedAt from congrArg JobCore.clearedAt h) ▸ hc
  running _ := congrArg JobCore.clearedAt h
  assigned _ := .inl (congrArg JobCore.assignedWorkerId h)
  cancellation hc := (show job'.cancellationRequestedAt = job.cancellationRequestedAt from
    congrArg JobCore.cancellationRequestedAt h) ▸ hc
  completed _ := ⟨congrArg JobCore.outputPath h, congrArg JobCore.finalOutputPath h⟩
  outputs ho := (show job'.outputPath = job.outputPath from congrArg JobCore.outputPath h) ▸ ho
  resolved _ := .inl (congrArg JobCore.status h)
  promoted hs hp := by
    rw [show job'.status = job.status from congrArg JobCore.status h, hs] at hp
    cases hp
  passed hp := .inl ((show job'.verificationStatus = job.verificationStatus from
    congrArg JobCore.verificationStatus h) ▸ hp)
  ended he := .inl ((show job'.status = job.status from congrArg JobCore.status h) ▸ he)

theorem Managed.refl (job : Job) : job.Managed r workers job := .of_core rfl

theorem Managed.isActive (h : job.Managed r workers job') (hactive : job'.isActive = true) :
    job.isActive = true := by
  simp only [Job.isActive, Bool.and_eq_true] at hactive ⊢
  refine ⟨JobStatus.isActive_of_mayBecome h.status hactive.1, ?_⟩
  cases hc : job.clearedAt with
  | none => rfl
  | some time =>
    have hcleared := h.cleared (by rw [hc]; rfl)
    rw [Option.isNone_iff_eq_none.mp hactive.2] at hcleared
    cases hcleared

theorem Managed.kept (h : job.Managed r workers job') : job.Kept job' := by
  refine ⟨h.terms, fun hactive => ?_, fun hactive hp => ?_⟩
  · exact h.isActive hactive
  · have hbefore := JobStatus.isActive_of_mayBecome h.status hactive
    exact ⟨hbefore, (h.passed hp).resolve_right fun hr => nomatch hr.1.symm.trans hbefore⟩

/-- More rights allow more. -/
theorem Managed.mono (h : job.Managed r workers job') (hresolves : r.resolves job → r'.resolves job)
    (hpromotes : r.promotes job → r'.promotes job) (hpasses : r.passes job → r'.passes job) :
    job.Managed r' workers job' :=
  { h with
    resolved := fun hs => (h.resolved hs).imp_right hresolves
    promoted := fun hs hp => hpromotes (h.promoted hs hp)
    passed := fun hp => (h.passed hp).imp_right (And.imp_right hpasses)
    ended := fun he => (h.ended he).imp_right hpasses }

/-- A job that is neither running nor completed may be cleared, and its status may move. -/
theorem Managed.of_idle (hrunning : job.status ≠ .running) (hcompleted : job.status ≠ .completed)
    (hterms : job'.terms = job.terms) (hstatus : job.status.mayBecome job'.status = true)
    (hcleared : job.clearedAt.isSome = true → job'.clearedAt.isSome = true)
    (hcancellation : job.cancellationRequestedAt.isSome = true →
      job'.cancellationRequestedAt.isSome = true)
    (houtputs : job'.outputPath.isSome = true → job.outputPath.isSome = true)
    (hresolved : job.status.isActive = false → job'.status = job.status ∨ r.resolves job)
    (hpromoted : job.status = .scheduled → job'.status = .pending → r.promotes job)
    (hpassed : job'.verificationStatus = .passed → job.verificationStatus = .passed)
    (hended : job'.status ≠ .completed) : job.Managed r workers job' where
  terms := hterms
  status := hstatus
  cleared := hcleared
  running h := absurd h hrunning
  assigned h := absurd h hrunning
  cancellation := hcancellation
  completed h := absurd h hcompleted
  outputs := houtputs
  resolved := hresolved
  promoted := hpromoted
  passed hp := .inl (hpassed hp)
  ended he := absurd he hended

/-- A job that is cleared. -/
theorem markCleared_managed {now : Time} {reason : String} (hrunning : job.status ≠ .running)
    (hcompleted : job.status ≠ .completed) :
    job.Managed r workers { job.markCleared now reason with updatedAt := now } :=
  .of_idle hrunning hcompleted rfl job.status.mayBecome_refl (fun _ => rfl) (fun h => h)
    (fun h => h) (fun _ => .inl rfl) (fun hs hp => nomatch hs.symm.trans hp)
    (fun h => h) hcompleted

end Managed

/-- Only the row of the job `id` changes, by `change`. -/
def Only (id : JobId) (change : Job → Job → Prop) (job job' : Job) : Prop :=
  if job.id = id then change job job' else job' = job

section Only

variable {id : JobId} {change change' : Job → Job → Prop} {job job' : Job}

theorem Only.of_ne (h : Only id change job job') (hid : job.id ≠ id) : job' = job := by
  rwa [Only, if_neg hid] at h

theorem Only.of_eq (h : Only id change job job') (hid : job.id = id) : change job job' := by
  rwa [Only, if_pos hid] at h

theorem Only.mono (h : Only id change job job') (hc : job.id = id → change job job' → change' job job') :
    Only id change' job job' := by
  by_cases hid : job.id = id
  · rw [Only, if_pos hid] at h ⊢
    exact hc hid h
  · rwa [Only, if_neg hid] at h ⊢

/-- What holds of an unchanged row and of the changed one. -/
theorem Only.imp {P : Job → Job → Prop} (h : Only id change job job') (hrefl : P job job)
    (hc : job.id = id → change job job' → P job job') : P job job' := by
  by_cases hid : job.id = id
  · exact hc hid (h.of_eq hid)
  · rw [h.of_ne hid]
    exact hrefl

end Only

end Job

namespace Database

/-! ## Transactions -/

/-- `job` is the only active job of its file. -/
def OnlyActive (db : Database) (job : Job) : Prop :=
  ∀ row ∈ db.jobs, row.isActive = true → row.trackedFileId = job.trackedFileId → row = job

/-- A job row that a transaction has added: with the id drawn for it, not verified, and either waiting
for a worker as the only active job of its file, or the record of a completed job. -/
structure Added (db' : Database) (uid : String) (job : Job) : Prop where
  id : job.id = uid
  plan : job.planSnapshotId ∈ db'.planIds
  file : job.trackedFileId ∈ db'.fileIds
  unverified : job.verificationStatus ≠ .passed
  attempts : 1 ≤ job.attemptCount
  place : (job.isQueued = true ∧ db'.OnlyActive job) ∨ job.status = .completed

/-- The tables after a transaction that draws `uid` for its new rows, changes job rows by `change`,
and adds the job `new`. -/
structure Evolves (change : Job → Job → Prop) (uid : String) (new : Option Job)
    (db db' : Database) : Prop where
  rows : ∃ g, db'.jobs = db.jobs.map g ++ new.toList ∧ ∀ job ∈ db.jobs, change job (g job)
  added : ∀ job ∈ new, db'.Added uid job
  plans : db.planSnapshots <+: db'.planSnapshots
  files : db.fileIds ⊆ db'.fileIds
  kinds : ∃ t, ∀ w ∈ db'.workerKinds, w ∈ db.workerKinds ∨ w = (uid, t)

/-- Plans and files are added; the jobs and the workers stay. -/
structure Extends (db db₁ : Database) : Prop where
  jobs : db₁.jobs = db.jobs
  plans : db.planSnapshots <+: db₁.planSnapshots
  files : db.fileIds ⊆ db₁.fileIds
  kinds : db₁.workerKinds = db.workerKinds

theorem Extends.refl (db : Database) : db.Extends db :=
  ⟨rfl, List.prefix_rfl, fun _ h => h, rfl⟩

theorem addPlanSnapshot_extends (db : Database) (id : PlanId) (fileId : FileId)
    (probeSnapshotId : String) (plan : ProcessingPlan) (now : Time) :
    db.Extends (db.addPlanSnapshot id fileId probeSnapshotId plan now).1 :=
  ⟨rfl, List.prefix_append _ _, fun _ h => h, rfl⟩

theorem addPlanSnapshot_mem (db : Database) (id : PlanId) (fileId : FileId)
    (probeSnapshotId : String) (plan : ProcessingPlan) (now : Time) :
    (db.addPlanSnapshot id fileId probeSnapshotId plan now).2.id ∈
      (db.addPlanSnapshot id fileId probeSnapshotId plan now).1.planIds := by
  simp [addPlanSnapshot, planIds]

/-- The file of a target is in the tables, and so is its plan. -/
structure Target (db : Database) (file : TrackedFile) (plan : PlanSnapshot) : Prop where
  file : db.trackedFile file.id = some file
  plan : db.planSnapshot plan.id = some plan

theorem Target.of_find {db : Database} {file : TrackedFile} {plan : PlanSnapshot} {fileId : FileId} {planId : PlanId} (hf : db.trackedFile fileId = some file)
    (hp : db.planSnapshot planId = some plan) : db.Target file plan :=
  ⟨trackedFile_id hf ▸ hf, planSnapshot_id hp ▸ hp⟩

theorem Target.fileIds {db : Database} {file : TrackedFile} {plan : PlanSnapshot} (h : db.Target file plan) : file.id ∈ db.fileIds := mem_fileIds.mpr ⟨_, h.file⟩

theorem Target.planIds {db : Database} {file : TrackedFile} {plan : PlanSnapshot} (h : db.Target file plan) : plan.id ∈ db.planIds := mem_planIds.mpr ⟨_, h.plan⟩

section Evolves

variable {change change' : Job → Job → Prop} {uid : String} {new : Option Job}
  {db db₁ db' : Database}

theorem Evolves.refl (db : Database) : db.Evolves Eq uid none db where
  rows := ⟨id, by simp, fun _ _ => rfl⟩
  added job h := absurd h (Option.not_mem_none job)
  plans := List.prefix_rfl
  files := List.Subset.refl _
  kinds := ⟨.local, fun _ h => .inl h⟩

theorem Evolves.mono (h : db.Evolves change uid new db')
    (hc : ∀ job ∈ db.jobs, ∀ job', change job job' → change' job job') :
    db.Evolves change' uid new db' := by
  obtain ⟨g, hg, hchange⟩ := h.rows
  exact ⟨⟨g, hg, fun job hj => hc job hj (g job) (hchange job hj)⟩, h.added, h.plans, h.files, h.kinds⟩

/-- Unchanged rows are allowed by every reflexive relation. -/
theorem Evolves.of_eq (h : db.Evolves Eq uid new db') (hrefl : ∀ job, change job job) :
    db.Evolves change uid new db' :=
  h.mono fun job _ _ heq => heq ▸ hrefl job

/-- No job changes. -/
theorem Evolves.of_jobs_eq (hjobs : db'.jobs = db.jobs)
    (hplans : db.planSnapshots <+: db'.planSnapshots) (hfiles : db.fileIds ⊆ db'.fileIds)
    (hkinds : ∃ t, ∀ w ∈ db'.workerKinds, w ∈ db.workerKinds ∨ w = (uid, t)) :
    db.Evolves Eq uid none db' where
  rows := ⟨id, by simp [hjobs], fun _ _ => rfl⟩
  added job h := absurd h (Option.not_mem_none job)
  plans := hplans
  files := hfiles
  kinds := hkinds

/-- Each job changes by `g`. -/
theorem Evolves.of_map {g : Job → Job} (hg : ∀ job ∈ db.jobs, change job (g job)) :
    db.Evolves change uid none { db with jobs := db.jobs.map g } where
  rows := ⟨g, by simp, hg⟩
  added job h := absurd h (Option.not_mem_none job)
  plans := List.prefix_rfl
  files _ h := h
  kinds := ⟨.local, fun _ h => .inl h⟩

/-- Only the row of one job changes. -/
theorem Evolves.only {id : JobId} {f : Job → Job} {now : Time}
    (hf : ∀ job ∈ db.jobs, job.id = id → change job { f job with updatedAt := now }) :
    db.Evolves (Job.Only id change) uid none (db.updateJob id f now) := by
  refine .of_map fun job hj => ?_
  by_cases hid : job.id = id
  · simp only [Job.Only, if_pos hid]
    exact hf job hj hid
  · simp only [Job.Only, if_neg hid]

/-- A transaction in two parts, the first of which adds no job and no worker. -/
theorem Evolves.trans {change₁ change₂ : Job → Job → Prop}
    (h₁ : db.Evolves change₁ uid none db₁) (h₂ : db₁.Evolves change₂ uid new db')
    (hkinds : db₁.workerKinds = db.workerKinds)
    (hc : ∀ a b c, change₁ a b → change₂ b c → change a c) : db.Evolves change uid new db' where
  rows := by
    obtain ⟨g₁, hg₁, hchange₁⟩ := h₁.rows
    obtain ⟨g₂, hg₂, hchange₂⟩ := h₂.rows
    rw [Option.toList_none, List.append_nil] at hg₁
    refine ⟨g₂ ∘ g₁, by rw [hg₂, hg₁, List.map_map], fun job hj => ?_⟩
    exact hc _ _ _ (hchange₁ job hj) (hchange₂ _ (hg₁ ▸ List.mem_map_of_mem hj))
  added := h₂.added
  plans := h₁.plans.trans h₂.plans
  files _ hf := h₂.files (h₁.files hf)
  kinds := hkinds ▸ h₂.kinds

/-- A transaction after a change that leaves the jobs alone. -/
theorem Evolves.after (h : db₁.Evolves change uid new db') (hext : db.Extends db₁) :
    db.Evolves change uid new db' :=
  (of_jobs_eq hext.jobs hext.plans hext.files ⟨.local, fun _ hw => .inl (hext.kinds ▸ hw)⟩).trans h
    hext.kinds fun _ _ _ heq hc => heq ▸ hc

/-- A transaction before a change that leaves jobs, plans and the ids of files and workers alone. -/
theorem Evolves.frame (h : db.Evolves change uid new db₁) (hjobs : db'.jobs = db₁.jobs)
    (hplans : db'.planSnapshots = db₁.planSnapshots) (hfiles : db'.fileIds = db₁.fileIds)
    (hkinds : db'.workerKinds = db₁.workerKinds) : db.Evolves change uid new db' where
  rows := hjobs ▸ h.rows
  added job hj := by
    have hadded := h.added job hj
    refine ⟨hadded.id, ?_, hfiles ▸ hadded.file, hadded.unverified, hadded.attempts, ?_⟩
    · simpa only [planIds, hplans] using hadded.plan
    · simpa only [OnlyActive, hjobs] using hadded.place
  plans := hplans ▸ h.plans
  files := hfiles ▸ h.files
  kinds := hkinds ▸ h.kinds

/-- A change of the state of a file after a transaction. -/
theorem Evolves.updateFile {id : FileId} {f : TrackedFile → TrackedFile} {now : Time}
    (h : db.Evolves change uid new db₁) (hf : ∀ file, (f file).id = file.id) :
    db.Evolves change uid new (db₁.updateFile id f now) :=
  h.frame rfl rfl (updateFile_fileIds db₁ hf) rfl

/-- A worker after a transaction was there, or has the drawn id. -/
theorem Evolves.workers (h : db.Evolves change uid new db') :
    ∀ w ∈ db'.workerIds, w ∈ db.workerIds ∨ w = uid := by
  intro w hw
  obtain ⟨t, ht⟩ := mem_workerIds.mp hw
  obtain ⟨_, hkinds⟩ := h.kinds
  exact (hkinds _ ht).imp (fun hold => mem_workerIds.mpr ⟨t, hold⟩) fun heq => congrArg Prod.fst heq

/-- A transaction and a change of one old row. -/
theorem Evolves.updateJob {id : JobId} {f : Job → Job} {now : Time}
    (h : db.Evolves Eq uid new db₁) (hid : id ≠ uid) (hrefl : ∀ job, change job job)
    (hkept : ∀ job job', change job job' → job.Kept job')
    (hf : ∀ job ∈ db.jobs, job.id = id → change job { f job with updatedAt := now }) :
    db.Evolves change uid new (db₁.updateJob id f now) := by
  obtain ⟨g, hg, heq⟩ := h.rows
  have hold : db₁.jobs = db.jobs ++ new.toList := by
    rw [hg, List.map_congr_left (g := fun job => job) fun job hj => (heq job hj).symm, List.map_id']
  have hnew : ∀ job ∈ new, job.id ≠ id := fun job hj heq => hid (heq.symm.trans (h.added job hj).id)
  have hchange : ∀ job ∈ db.jobs,
      change job (if job.id = id then { f job with updatedAt := now } else job) := by
    intro job hj
    split
    · next hk => exact hf job hj hk
    · exact hrefl job
  refine ⟨⟨_, ?_, hchange⟩, fun job hj => ?_, h.plans, h.files, h.kinds⟩
  · rw [updateJob_jobs, hold, List.map_append]
    congr 1
    rw [List.map_congr_left (g := fun job => job), List.map_id']
    exact fun job hj => if_neg (hnew job (Option.mem_toList.mp hj))
  · have hadded := h.added job hj
    refine ⟨hadded.id, hadded.plan, hadded.file, hadded.unverified, hadded.attempts,
      hadded.place.imp_left ?_⟩
    refine fun hplace => ⟨hplace.1, fun row hrow hactive hfile => ?_⟩
    rw [updateJob_jobs, List.mem_map] at hrow
    obtain ⟨row₁, hrow₁, rfl⟩ := hrow
    have hrow₁' := hrow₁
    rw [hold, List.mem_append] at hrow₁
    rcases hrow₁ with ho | hn
    · have hkept := hkept _ _ (hchange row₁ ho)
      have hsame := hplace.2 row₁ hrow₁' (hkept.active hactive)
        ((Job.file_of_terms hkept.terms).symm.trans hfile)
      subst hsame
      exact if_neg (hnew row₁ hj)
    · dsimp only at hactive hfile ⊢
      rw [if_neg (hnew row₁ (Option.mem_toList.mp hn))] at hactive hfile ⊢
      exact hplace.2 row₁ hrow₁' hactive hfile

/-- A new job of a plan and a file of the tables. -/
theorem createJobFromPlan_evolves {calendar : Calendar} {fileId : FileId} {plan : PlanSnapshot}
    {o : JobOptions} {now : Time} {job : Job}
    (h : db.createJobFromPlan calendar uid fileId plan o now = some (db', job))
    (hplan : plan.id ∈ db.planIds) (hfile : fileId ∈ db.fileIds) (hattempts : 1 ≤ o.attemptCount) :
    job.trackedFileId = fileId ∧ db.Evolves Eq uid (some job) db' := by
  obtain ⟨hfree, rfl, rfl⟩ := createJobFromPlan_eq_some h
  refine ⟨rfl, ?_⟩
  let added : Database :=
    { db with jobs := db.jobs ++ [Job.createFromPlan calendar uid fileId plan o now] }
  have hfiles : (added.updateFile fileId ({ · with lifecycleState := .queued }) now).fileIds =
      added.fileIds :=
    updateFile_fileIds _ fun _ => rfl
  refine ⟨⟨id, by simp, fun _ _ => rfl⟩, ?_, List.prefix_rfl, fun _ hf => ?_,
    ⟨.local, fun _ hw => .inl hw⟩⟩
  · intro job hj
    obtain rfl := Option.some.inj hj
    refine ⟨rfl, hplan, ?_, by simp [Job.createFromPlan], hattempts,
      .inl ⟨Job.createFromPlan_isQueued .., fun row hrow hactive hfile => ?_⟩⟩
    · rw [hfiles]
      exact hfile
    · rcases List.mem_append.mp hrow with hrow | hrow
      · exact absurd hfile (hasActiveJob_eq_false.mp hfree row hrow hactive)
      · exact List.mem_singleton.mp hrow
  · rw [hfiles]
    exact hf

/-- A plan stays in the tables. -/
theorem Evolves.planSnapshot (h : db.Evolves change uid new db') {id : PlanId} {plan : PlanSnapshot}
    (hp : db.planSnapshot id = some plan) : db'.planSnapshot id = some plan := by
  obtain ⟨added, hadded⟩ := h.plans
  rw [Database.planSnapshot, ← hadded]
  exact Table.find_append hp

/-- A row after a transaction is a changed row or the new one. -/
theorem Evolves.mem (h : db.Evolves change uid new db') {job' : Job} (hj : job' ∈ db'.jobs) :
    (∃ job ∈ db.jobs, change job job') ∨ job' ∈ new := by
  obtain ⟨g, hg, hchange⟩ := h.rows
  rw [hg, List.mem_append] at hj
  rcases hj with hj | hj
  · obtain ⟨job, hmem, rfl⟩ := List.mem_map.mp hj
    exact .inl ⟨job, hmem, hchange job hmem⟩
  · exact .inr (Option.mem_toList.mp hj)

/-- Each row is still there, changed. -/
theorem Evolves.changed (h : db.Evolves change uid new db') {job : Job} (hj : job ∈ db.jobs) :
    ∃ job' ∈ db'.jobs, change job job' := by
  obtain ⟨g, hg, hchange⟩ := h.rows
  exact ⟨g job, hg ▸ List.mem_append_left _ (List.mem_map_of_mem hj), hchange job hj⟩

/-- The new row is there. -/
theorem Evolves.new_mem (h : db.Evolves change uid new db') {job : Job} (hj : job ∈ new) :
    job ∈ db'.jobs := by
  obtain ⟨g, hg, -⟩ := h.rows
  exact hg ▸ List.mem_append_right _ (Option.mem_toList.mpr hj)

/-- The ids of jobs after a transaction whose changes keep them. -/
theorem Evolves.jobIds (h : db.Evolves change uid new db')
    (hid : ∀ job ∈ db.jobs, ∀ job', change job job' → job'.id = job.id) :
    db'.jobIds = db.jobIds ++ new.toList.map (·.id) := by
  obtain ⟨g, hg, hchange⟩ := h.rows
  rw [Database.jobIds, hg, List.map_append, List.map_map]
  congr 1
  exact List.map_congr_left fun job hj => hid job hj (g job) (hchange job hj)

end Evolves

/-! ## Sound tables -/

/-- The ids of jobs are unique, all ids have been drawn, a worker has one type, references resolve,
attempts are counted from one, no job is verified before it has ended, and a file has at most one
active job. -/
structure Sound (db : Database) (issued : List String) : Prop where
  nodup : db.jobIds.Nodup
  jobIds : ∀ job ∈ db.jobs, job.id ∈ issued
  workerIds : ∀ w ∈ db.workerIds, w ∈ issued
  kinds : ∀ w t t', (w, t) ∈ db.workerKinds → (w, t') ∈ db.workerKinds → t = t'
  plans : ∀ job ∈ db.jobs, job.planSnapshotId ∈ db.planIds
  files : ∀ job ∈ db.jobs, job.trackedFileId ∈ db.fileIds
  attempts : ∀ job ∈ db.jobs, 1 ≤ job.attemptCount
  unverified : ∀ job ∈ db.jobs, job.status.isActive = true → job.verificationStatus ≠ .passed
  onePer : Table.OnePer Job.id Job.trackedFileId Job.isActive db.jobs

theorem Sound.empty : Database.Sound {} [] where
  nodup := List.nodup_nil
  jobIds _ h := absurd h List.not_mem_nil
  workerIds _ h := absurd h List.not_mem_nil
  kinds _ _ _ h := absurd h List.not_mem_nil
  plans _ h := absurd h List.not_mem_nil
  files _ h := absurd h List.not_mem_nil
  attempts _ h := absurd h List.not_mem_nil
  unverified _ h := absurd h List.not_mem_nil
  onePer _ h := absurd h List.not_mem_nil

section Sound

variable {db db' : Database} {issued : List String} {uid : String} {new : Option Job} {job : Job}
  {now : Time}

/-- Two rows with one id are one row. -/
theorem Sound.eq_of_id (h : db.Sound issued) {job' : Job} (hj : job ∈ db.jobs) (hj' : job' ∈ db.jobs)
    (hid : job.id = job'.id) : job = job' :=
  List.inj_on_of_nodup_map h.nodup hj hj' hid

/-- A row is the row of its id. -/
theorem Sound.job_of_mem (h : db.Sound issued) (hj : job ∈ db.jobs) : db.job job.id = some job :=
  Table.find_of_mem h.nodup hj

/-- The row that an operation reads is the row that it changes. -/
theorem Sound.of_job (hs : db.Sound issued) {jobId : JobId} (h : db.job jobId = some job) :
    ∀ row ∈ db.jobs, row.id = jobId → row = job := by
  intro row hrow hid
  refine hs.eq_of_id hrow (Table.mem_of_find h) (hid.trans (Table.key_of_find h).symm)

/-- An operation that changes the row of one job. -/
theorem updateJob_evolves {r : Rights} {workers : List WorkerId} {jobId : JobId} {f : Job → Job}
    (hs : db.Sound issued) (hfresh : uid ∉ issued) (hj : db.job jobId = some job)
    (hf : job.Managed r workers { f job with updatedAt := now }) :
    db.Evolves (Job.Managed r workers) uid none (db.updateJob jobId f now) := by
  refine (Evolves.refl db).updateJob ?_ .refl (fun _ _ h => h.kept) fun row hrow hid => ?_
  · rintro rfl
    exact hfresh (Table.key_of_find hj ▸ hs.jobIds _ (Table.mem_of_find hj))
  · rw [hs.of_job hj row hrow hid]
    exact hf

/-- A row that has the id of an old row is that row, changed. -/
theorem Sound.changed (h : db.Sound issued) {change : Job → Job → Prop}
    (he : db.Evolves change uid new db') (hfresh : uid ∉ issued)
    (hterms : ∀ row ∈ db.jobs, ∀ row', change row row' → row'.terms = row.terms) {job' : Job}
    (hj : job ∈ db.jobs) (hj' : job' ∈ db'.jobs) (hid : job'.id = job.id) : change job job' := by
  rcases he.mem hj' with ⟨row, hrow, hchange⟩ | hnew
  · have hrowid := Job.id_of_terms (hterms row hrow job' hchange)
    rwa [← h.eq_of_id hrow hj (hrowid.symm.trans hid)]
  · have huid := (he.added job' hnew).id
    exact absurd (huid ▸ hid ▸ h.jobIds job hj) hfresh

/-- Sound tables stay sound. -/
theorem Sound.evolves (h : db.Sound issued) (he : db.Evolves Job.Kept uid new db')
    (hfresh : uid ∉ issued) : db'.Sound (uid :: issued) := by
  obtain ⟨g, hg, hchange⟩ := he.rows
  have hid : ∀ job ∈ db.jobs, (g job).id = job.id :=
    fun job hj => Job.id_of_terms (hchange job hj).terms
  have hone : Table.OnePer Job.id Job.trackedFileId Job.isActive (db.jobs.map g) :=
    h.onePer.map hid (fun job hj => Job.file_of_terms (hchange job hj).terms)
      fun job hj => (hchange job hj).active
  refine ⟨?_, ?_, ?_, ?_, ?_, ?_, ?_, ?_, ?_⟩
  · rw [he.jobIds fun _ _ _ hk => Job.id_of_terms hk.terms]
    refine h.nodup.append ?_ ?_
    · cases new <;> simp
    · intro id hold hnew
      obtain ⟨job, hj, rfl⟩ := List.mem_map.mp hnew
      obtain ⟨old, ho, heq⟩ := List.mem_map.mp hold
      rw [(he.added job (Option.mem_toList.mp hj)).id] at heq
      exact hfresh (heq ▸ h.jobIds old ho)
  · intro job hj
    rcases he.mem hj with ⟨old, ho, hk⟩ | hnew
    · rw [Job.id_of_terms hk.terms]
      exact List.mem_cons_of_mem _ (h.jobIds old ho)
    · rw [(he.added job hnew).id]
      exact List.mem_cons_self
  · intro w hw
    rcases he.workers w hw with hold | rfl
    · exact List.mem_cons_of_mem _ (h.workerIds w hold)
    · exact List.mem_cons_self
  · obtain ⟨t, hkinds⟩ := he.kinds
    have hfresh : ∀ t, (uid, t) ∉ db.workerKinds :=
      fun t ht => hfresh (h.workerIds uid (mem_workerIds.mpr ⟨t, ht⟩))
    intro w t₁ t₂ h₁ h₂
    rcases hkinds _ h₁ with ho₁ | he₁ <;> rcases hkinds _ h₂ with ho₂ | he₂
    · exact h.kinds w t₁ t₂ ho₁ ho₂
    · exact absurd ((Prod.mk.inj he₂).1 ▸ ho₁) (hfresh t₁)
    · exact absurd ((Prod.mk.inj he₁).1 ▸ ho₂) (hfresh t₂)
    · exact (Prod.mk.inj he₁).2.trans (Prod.mk.inj he₂).2.symm
  · intro job hj
    rcases he.mem hj with ⟨old, ho, hk⟩ | hnew
    · rw [Job.plan_of_terms hk.terms]
      exact he.plans.map (·.id) |>.subset (h.plans old ho)
    · exact (he.added job hnew).plan
  · intro job hj
    rcases he.mem hj with ⟨old, ho, hk⟩ | hnew
    · rw [Job.file_of_terms hk.terms]
      exact he.files (h.files old ho)
    · exact (he.added job hnew).file
  · intro job hj
    rcases he.mem hj with ⟨old, ho, hk⟩ | hnew
    · have hattempts : job.attemptCount = old.attemptCount := congrArg JobTerms.attemptCount hk.terms
      rw [hattempts]
      exact h.attempts old ho
    · exact (he.added job hnew).attempts
  · intro job hj hactive hp
    rcases he.mem hj with ⟨old, ho, hk⟩ | hnew
    · obtain ⟨hbefore, hp⟩ := hk.verified hactive hp
      exact h.unverified old ho hbefore hp
    · exact (he.added job hnew).unverified hp
  · rw [hg]
    cases new with
    | none => simpa using hone
    | some row =>
      refine hone.append fun hrow job hj hactive hfile => ?_
      rcases (he.added row rfl).place with ⟨-, honly⟩ | hcompleted
      · have hsame := honly job (hg ▸ List.mem_append_left _ hj) hactive hfile
        obtain ⟨old, ho, rfl⟩ := List.mem_map.mp hj
        have hrowid := (he.added row rfl).id
        rw [← hsame, hid old ho] at hrowid
        exact hfresh (hrowid ▸ h.jobIds old ho)
      · simp [Job.isActive, JobStatus.isActive, hcompleted] at hrow

end Sound

end Database

end Encodr
