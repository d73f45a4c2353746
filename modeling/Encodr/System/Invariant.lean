import Encodr.Backups.Cleanup
import Encodr.System.Moves
import Encodr.Verification.Essential

/-!
# The invariant of the system

The tables are sound, a job has at most one execution, and an execution has its row: a job that was
claimed, whose result is not recorded. Until the sweep interrupts the job, the row is running for
the worker of the execution.

* `Row`: the row of an execution.
* `State.Inv`, `inv_inductive`, `Inv.of_reach`: the invariant and that every run keeps it.
* `home`: an installation with a film, for the runs of the modules on top.
-/

namespace Encodr

open Python Lib

variable {C : Type}

/-! ## Rows of executions -/

/-- The status of a job whose execution is under way. -/
def JobStatus.isClaimed : JobStatus → Bool
  | .running | .interrupted | .cancelled | .skipped => true
  | _ => false

theorem JobStatus.isClaimed_of_mayBecome {s t : JobStatus} (h : s.mayBecome t = true)
    (hs : s.isClaimed = true) : t.isClaimed = true := by
  cases s <;> cases t <;> first | rfl | exact absurd hs (by decide) | exact absurd h (by decide)

theorem JobStatus.not_running_of_mayBecome {s t : JobStatus} (h : s.mayBecome t = true)
    (hs : s ≠ .running) : t ≠ .running := by
  rintro rfl
  cases s <;> first | exact absurd rfl hs | exact absurd h (by decide)

/-- The job is running for its worker, unless the worker has been deleted. -/
structure Held (db : Database) (k : Claim) (job : Job) : Prop where
  running : job.status = .running
  uncleared : job.clearedAt = none
  assigned : job.assignedWorkerId = some k.workerId ∨
    job.assignedWorkerId = none ∧ k.workerId ∉ db.workerIds

/-- The row of a claim, which the sweep may have interrupted. -/
structure Row (db : Database) (issued : List String) (k : Claim) (swept : Bool) (job : Job) : Prop where
  mem : job ∈ db.jobs
  id : job.id = k.jobId
  file : job.trackedFileId = k.trackedFileId
  kind : job.jobKind = k.jobKind
  plan : ∃ plan, db.planSnapshot job.planSnapshotId = some plan ∧
    k.plan = planPayloadForJob job plan.payload
  unverified : job.verificationStatus ≠ .passed
  claimed : job.status.isClaimed = true
  held : swept = false → Held db k job
  interrupted : swept = true → job.status ≠ .running
  worker : k.workerId ∈ issued
  type : ∀ t, (k.workerId, t) ∈ db.workerKinds → t = k.workerType

/-- What a transaction may do to the row of an execution that it does not settle. -/
structure Job.Stands (swept : Bool) (workers : List WorkerId) (job job' : Job) : Prop where
  terms : job'.terms = job.terms
  passed : job'.verificationStatus = .passed → job.verificationStatus = .passed
  claimed : job.status.isClaimed = true → job'.status.isClaimed = true
  interrupted : swept = true → job.status ≠ .running → job'.status ≠ .running
  running : swept = false → job.status = .running → job'.status = .running ∧
    job'.clearedAt = job.clearedAt ∧ (job'.assignedWorkerId = job.assignedWorkerId ∨
      job'.assignedWorkerId = none ∧ ∃ w, job.assignedWorkerId = some w ∧ w ∉ workers)

theorem Job.Stands.refl (swept : Bool) (workers : List WorkerId) (job : Job) :
    job.Stands swept workers job :=
  ⟨rfl, fun h => h, fun h => h, fun _ h => h, fun _ h => ⟨h, rfl, .inl rfl⟩⟩

theorem Job.Managed.stands {r : Rights} {workers : List WorkerId} {job job' : Job} (swept : Bool)
    (h : job.Managed r workers job') (hr : ¬ r.passes job) : job.Stands swept workers job' where
  terms := h.terms
  passed hp := (h.passed hp).resolve_right fun hp => hr hp.2
  claimed := JobStatus.isClaimed_of_mayBecome h.status
  interrupted _ := JobStatus.not_running_of_mayBecome h.status
  running _ hrun := by
    have hstatus := h.status
    rw [hrun] at hstatus
    exact ⟨by simpa [JobStatus.mayBecome] using hstatus, h.running hrun, h.assigned hrun⟩

section Row

variable {db db' : Database} {issued : List String} {k : Claim} {swept swept' : Bool} {job job' : Job}
  {uid : String} {new : Option Job} {change : Job → Job → Prop}

theorem Row.step (h : Row db issued k swept job) (he : db.Evolves change uid new db')
    (hfresh : uid ∉ issued) (hmem : job' ∈ db'.jobs) (hst : job.Stands swept' db'.workerIds job')
    (hswept : swept' = false → swept = false) (hint : swept' = true → job'.status ≠ .running) :
    Row db' (uid :: issued) k swept' job' := by
  refine ⟨hmem, (Job.id_of_terms hst.terms).trans h.id, (Job.file_of_terms hst.terms).trans h.file,
    (congrArg JobTerms.jobKind hst.terms).trans h.kind, ?_, fun hp => h.unverified (hst.passed hp),
    hst.claimed h.claimed, fun hs => ?_, hint, List.mem_cons_of_mem _ h.worker, fun t ht => ?_⟩
  · obtain ⟨plan, hplan, hk⟩ := h.plan
    refine ⟨plan, ?_, ?_⟩
    · rw [Job.plan_of_terms hst.terms]
      exact he.planSnapshot hplan
    · rw [Job.planPayload_of_terms hst.terms]
      exact hk
  · have hheld := h.held (hswept hs)
    obtain ⟨hrunning, hcleared, hassigned⟩ := hst.running hs hheld.running
    refine ⟨hrunning, hcleared.trans hheld.uncleared, ?_⟩
    have hgone : k.workerId ∉ db.workerIds → k.workerId ∉ db'.workerIds := by
      intro hold hnew
      rcases he.workers _ hnew with h' | rfl
      · exact hold h'
      · exact hfresh h.worker
    rcases hheld.assigned with hk | ⟨hk, hw⟩
    · rcases hassigned with heq | ⟨hnone, w, hw, hgone⟩
      · exact .inl (heq.trans hk)
      · rw [hk] at hw
        exact .inr ⟨hnone, Option.some.inj hw ▸ hgone⟩
    · rcases hassigned with heq | ⟨hnone, w, hw', -⟩
      · exact .inr ⟨heq.trans hk, hgone hw⟩
      · rw [hk] at hw'
        cases hw'
  · obtain ⟨t', hkinds⟩ := he.kinds
    rcases hkinds _ ht with hold | heq
    · exact h.type t hold
    · exact absurd ((Prod.mk.inj heq).1 ▸ h.worker) hfresh

/-- Each row stands in the tables after a transaction under which it stands. -/
theorem Row.evolves (h : Row db issued k swept job) (he : db.Evolves change uid new db')
    (hfresh : uid ∉ issued) (hst : ∀ job', change job job' → job.Stands swept db'.workerIds job') :
    ∃ job', change job job' ∧ Row db' (uid :: issued) k swept job' := by
  obtain ⟨job', hmem, hchange⟩ := he.changed h.mem
  have hstands := hst job' hchange
  exact ⟨job', hchange, h.step he hfresh hmem hstands (fun hs => hs)
    fun hs => hstands.interrupted hs (h.interrupted hs)⟩

end Row

/-! ## The invariant -/

/-- The invariant. -/
structure State.Inv (s : State) : Prop where
  sound : s.db.Sound s.issued
  nodup : (s.live.map (·.jobId)).Nodup
  rows : ∀ x ∈ s.live, ∃ job, Row s.db s.issued x.toClaim x.swept job

section Inv

variable {c : Settings} {s s' : State} {a : Action C}

/-- The row that a claim changes was pending, and is active as before. -/
theorem claimedBy_kept {job row row' : Job} {worker : Worker} {now : Time} (hs : s.Inv)
    (hrow : row ∈ s.db.jobs) (hj : job ∈ s.db.jobs) (hpending : job.status = .pending)
    (hcleared : job.clearedAt = none)
    (h : Job.Only job.id (fun row row' => row' = { row.claimedBy worker now with updatedAt := now })
      row row') : row.Kept row' := by
  refine h.imp (.refl row) fun hid heq => ?_
  obtain rfl := hs.sound.eq_of_id hrow hj hid
  obtain rfl := heq
  have hactive : row.status.isActive = true := by rw [hpending]; rfl
  exact ⟨rfl, fun _ => by simp [Job.isActive, hactive, hcleared], fun _ hp => ⟨hactive, hp⟩⟩

/-- A swept row is not active. -/
theorem sweptJob_kept {db : Database} {now : Time} {row row' : Job}
    (h : row' = if db.sweeps now row then db.sweptJob now row else row) : row.Kept row' := by
  obtain rfl := h
  split
  · exact ⟨rfl, nofun, nofun⟩
  · exact .refl row

/-- The tables after a move: rows are kept. -/
theorem Move.evolves (hI : s.Inv) (h : Move c s a s') :
    ∃ new, s.db.Evolves Job.Kept a.uid new s'.db := by
  cases h with
  | manage evolves => exact ⟨_, evolves.mono fun _ _ _ h => h.kept⟩
  | cancelRemote _ evolves => exact ⟨_, evolves.mono fun _ _ _ h => h.kept⟩
  | cancelLocal _ evolves => exact ⟨_, evolves.mono fun _ _ _ h => h.kept⟩
  | ask evolves => exact ⟨_, evolves.mono fun _ _ _ h => h.kept⟩
  | approve _ _ evolves => exact ⟨_, evolves.mono fun _ _ _ h => h.kept⟩
  | sweep =>
    exact ⟨_, Database.handleWorkerInterruptions_evolves.mono fun _ _ _ h => sweptJob_kept h⟩
  | claim _ hj pending uncleared _ evolves =>
    exact ⟨_, evolves.mono fun _ hrow _ h => claimedBy_kept hI hrow hj pending uncleared h⟩
  | advance => exact ⟨_, (Database.Evolves.refl s.db).of_eq .refl⟩
  | report _ _ evolves => exact ⟨_, evolves.mono fun _ _ _ h => h.kept⟩
  | settle _ _ _ _ recording =>
    obtain ⟨status, hstatus, hevolves⟩ := recording.evolves
    exact ⟨_, hevolves.mono fun _ _ _ h => h.imp (.refl _) fun _ h => h.kept hstatus⟩
  | drop => exact ⟨_, (Database.Evolves.refl s.db).of_eq .refl⟩

/-- An execution after a step that starts none: it has its claim, and is swept where it was. -/
def State.Continues (s s' : State) : Prop :=
  ∀ x' ∈ s'.live, ∃ x ∈ s.live, x'.toClaim = x.toClaim ∧ x'.swept = x.swept

theorem State.continues_of_map {s s' : State} {f : Execution → Execution}
    (hlive : s'.live = s.live.map f) (hf : ∀ x ∈ s.live, (f x).toClaim = x.toClaim ∧ (f x).swept = x.swept) :
    s.Continues s' := by
  intro x' hx'
  rw [hlive] at hx'
  obtain ⟨x, hx, rfl⟩ := List.mem_map.mp hx'
  exact ⟨x, hx, hf x hx⟩

theorem State.requestCancel_continues (s : State) (jobId : JobId) :
    s.Continues (s.requestCancel jobId) :=
  continues_of_map rfl fun x _ => by split <;> exact ⟨rfl, rfl⟩

theorem State.set_continues {s : State} (h : (s.live.map (·.jobId)).Nodup) {x y : Execution}
    (hx : x ∈ s.live) (hy : y.toClaim = x.toClaim ∧ y.swept = x.swept) : s.Continues (s.set y) := by
  refine continues_of_map rfl fun z hz => ?_
  split
  · next hid =>
    have hzx : z.jobId = x.jobId := hid.trans (congrArg Claim.jobId hy.1)
    obtain rfl := List.inj_on_of_nodup_map h hz hx hzx
    exact hy
  · exact ⟨rfl, rfl⟩

theorem State.without_continues (s : State) (jobId : JobId) : s.Continues (s.without jobId) :=
  fun x hx => ⟨x, List.mem_of_mem_filter hx, rfl, rfl⟩

/-- The other executions, when one is over. -/
theorem State.ne_of_mem_without {s : State} {jobId : JobId} {x : Execution}
    (hx : x ∈ (s.without jobId).live) : x.jobId ≠ jobId := by
  simpa using (List.mem_filter.mp hx).2

/-- Approvals alone leave rows verified and completed. -/
theorem Op.rights_passes {op : Op C} {now : Time} {job : Job} : ¬ (op.rights c s now).passes job := by
  cases op with
  | request r => cases r <;> exact id
  | _ => exact id

/-- The executions of distinct jobs, changed one by one. -/
theorem nodup_map (h : (s.live.map (·.jobId)).Nodup) {f : Execution → Execution}
    (hf : ∀ x, (f x).jobId = x.jobId) : ((s.live.map f).map (·.jobId)).Nodup := by
  rw [List.map_map]
  exact List.map_congr_left (fun x _ => hf x) ▸ h

theorem nodup_set (h : (s.live.map (·.jobId)).Nodup) (y : Execution) :
    ((s.set y).live.map (·.jobId)).Nodup := by
  refine nodup_map h fun x => ?_
  split
  · next hid => exact hid.symm
  · rfl

theorem nodup_without (h : (s.live.map (·.jobId)).Nodup) (jobId : JobId) :
    ((s.without jobId).live.map (·.jobId)).Nodup :=
  h.sublist (List.filter_sublist.map _)

/-- No execution has the id of a job that waits for a worker. -/
theorem State.Inv.not_pending (hI : s.Inv) {job : Job} (hj : job ∈ s.db.jobs)
    (hpending : job.status = .pending) {x : Execution} (hx : x ∈ s.live) : x.jobId ≠ job.id := by
  intro hid
  obtain ⟨row, hrow⟩ := hI.rows x hx
  obtain rfl := hI.sound.eq_of_id hrow.mem hj (hrow.id.trans hid)
  have hclaimed := hrow.claimed
  rw [hpending] at hclaimed
  cases hclaimed

/-- A job has at most one execution after a move. -/
theorem Move.nodup (hI : s.Inv) (h : Move c s a s') : (s'.live.map (·.jobId)).Nodup := by
  cases h with
  | manage => exact hI.nodup
  | cancelRemote => exact hI.nodup
  | cancelLocal => exact nodup_map hI.nodup fun x => by split <;> rfl
  | ask => exact nodup_map hI.nodup fun x => by split <;> rfl
  | approve => exact hI.nodup
  | sweep => exact nodup_map hI.nodup fun _ => rfl
  | claim _ hj pending =>
    dsimp only
    rw [List.map_append]
    refine hI.nodup.append (List.nodup_singleton _) fun id hold hnew => ?_
    obtain ⟨x, hx, rfl⟩ := List.mem_map.mp hold
    exact hI.not_pending hj pending hx (List.mem_singleton.mp hnew)
  | advance => exact nodup_set hI.nodup _
  | report => exact nodup_set hI.nodup _
  | settle => exact nodup_without hI.nodup _
  | drop => exact nodup_without hI.nodup _

/-- The rows of executions that go on stand. -/
theorem State.Inv.continues (hI : s.Inv) {uid : String} {new : Option Job}
    {change : Job → Job → Prop} (hfresh : uid ∉ s.issued) (hc : s.Continues s')
    (he : s.db.Evolves change uid new s'.db)
    (hst : ∀ x ∈ s.live, ∀ job job', Row s.db s.issued x.toClaim x.swept job → change job job' →
      job.Stands x.swept s'.db.workerIds job') :
    ∀ x' ∈ s'.live, ∃ job, Row s'.db (uid :: s.issued) x'.toClaim x'.swept job := by
  intro x' hx'
  obtain ⟨x, hx, hclaim, hswept⟩ := hc x' hx'
  obtain ⟨job, hrow⟩ := hI.rows x hx
  obtain ⟨job', -, hrow'⟩ := hrow.evolves he hfresh fun job' => hst x hx job job' hrow
  rw [hclaim, hswept]
  exact ⟨job', hrow'⟩

/-- The row of an execution stands under an operation. -/
theorem Row.stands {db : Database} {issued : List String} {k : Claim} {swept : Bool} {job job' : Job}
    {r : Rights} {workers : List WorkerId} (h : Row db issued k swept job)
    (hm : job.Managed r workers job') (hr : r.passes job → job.status = .manualReview) :
    job.Stands swept workers job' := by
  refine hm.stands swept fun hp => ?_
  have hclaimed := h.claimed
  rw [hr hp] at hclaimed
  cases hclaimed

theorem sweep_rows (hI : s.Inv) (now : Time) {uid : String} (hfresh : uid ∉ s.issued) :
    ∀ x' ∈ (s.sweep now).live,
      ∃ job, Row (s.sweep now).db (uid :: s.issued) x'.toClaim x'.swept job := by
  intro x' hx'
  obtain ⟨x, hx, rfl⟩ := List.mem_map.mp hx'
  obtain ⟨job, hrow⟩ := hI.rows x hx
  have he : s.db.Evolves _ uid none (s.sweep now).db := Database.handleWorkerInterruptions_evolves
  obtain ⟨job', hmem, hchange⟩ := he.changed hrow.mem
  by_cases hsweeps : s.db.sweeps now job = true
  · have hany : (s.db.jobs.any fun job => job.id = x.jobId && s.db.sweeps now job) = true :=
      List.any_eq_true.mpr ⟨job, hrow.mem, by simp [hrow.id, hsweeps]⟩
    rw [if_pos hsweeps] at hchange
    obtain rfl := hchange
    have hst : job.Stands true (s.sweep now).db.workerIds (s.db.sweptJob now job) :=
      ⟨rfl, fun h => h, fun _ => rfl, fun _ _ => nofun, nofun⟩
    refine ⟨s.db.sweptJob now job, ?_⟩
    dsimp only
    rw [hany, Bool.or_true]
    exact hrow.step he hfresh hmem hst nofun fun _ => nofun
  · rw [if_neg hsweeps] at hchange
    obtain rfl := hchange
    refine ⟨job', hrow.step he hfresh hmem (.refl _ _ _) (fun h => (Bool.or_eq_false_iff.mp h).1) ?_⟩
    intro h
    rcases (Bool.or_eq_true _ _).mp h with h | h
    · exact hrow.interrupted h
    · obtain ⟨row, hmem, hrow'⟩ := List.any_eq_true.mp h
      obtain ⟨hid, hsweeps'⟩ := Bool.and_eq_true_iff.mp hrow'
      have hid : row.id = job'.id := (of_decide_eq_true hid).trans hrow.id.symm
      exact absurd (hI.sound.eq_of_id hmem hrow.mem hid ▸ hsweeps') hsweeps

/-- The row of a claim is the row of the claimed job. -/
theorem claim_row {db : Database} {job : Job} {worker : Worker} {tokenHash : String}
    {plan : PlanSnapshot} {media : Option MediaFile} {sourcePath : PosixPath} {inApi : Bool}
    {now : Time} {uid : String} (hI : s.Inv) (hworker : worker ∈ s.db.workers) (hj : job ∈ s.db.jobs)
    (hfresh : uid ∉ s.issued) (pending : job.status = .pending) (uncleared : job.clearedAt = none)
    (hplan : s.db.planSnapshot job.planSnapshotId = some plan)
    (evolves : s.db.Evolves (Job.Only job.id fun row row' =>
      row' = { row.claimedBy worker now with updatedAt := now }) uid none db) :
    ∃ row, Row db (uid :: s.issued)
      (State.startExecution job worker tokenHash plan media sourcePath inApi).toClaim false row := by
  obtain ⟨row, hrow, hchange⟩ := evolves.changed hj
  obtain rfl := hchange.of_eq rfl
  have hkind : (worker.id, worker.workerType) ∈ s.db.workerKinds :=
    List.mem_map_of_mem (f := fun w : Worker => (w.id, w.workerType)) hworker
  have hissued : worker.id ∈ s.issued := hI.sound.workerIds _ (List.mem_map_of_mem hworker)
  have hunverified : job.verificationStatus ≠ .passed :=
    hI.sound.unverified job hj (by rw [pending]; rfl)
  refine ⟨_, hrow, rfl, rfl, rfl, ⟨plan, evolves.planSnapshot hplan, ?_⟩, hunverified, rfl,
    fun _ => ⟨rfl, uncleared, .inl rfl⟩, nofun, List.mem_cons_of_mem _ hissued, fun t ht => ?_⟩
  · exact (Job.planPayload_of_terms (by rfl) plan.payload).symm
  · obtain ⟨t', hkinds⟩ := evolves.kinds
    rcases hkinds _ ht with hold | heq
    · exact hI.sound.kinds _ _ _ hold hkind
    · exact absurd ((Prod.mk.inj heq).1 ▸ hissued) hfresh

/-- Executions have their rows after a move. -/
theorem Move.rows (hI : s.Inv) (hfresh : a.uid ∉ s.issued) (h : Move c s a s') :
    ∀ x' ∈ s'.live, ∃ job, Row s'.db (a.uid :: s.issued) x'.toClaim x'.swept job := by
  have hsame : s.Continues s := fun x hx => ⟨x, hx, rfl, rfl⟩
  cases h with
  | manage evolves =>
    exact hI.continues hfresh hsame evolves
      fun x _ job job' hrow hm => hrow.stands hm (absurd · Op.rights_passes)
  | cancelRemote _ evolves =>
    exact hI.continues hfresh hsame evolves
      fun x _ job job' hrow hm => hrow.stands hm (absurd · id)
  | cancelLocal _ evolves =>
    exact hI.continues hfresh (s.requestCancel_continues _) evolves
      fun x _ job job' hrow hm => hrow.stands hm (absurd · id)
  | ask evolves =>
    exact hI.continues hfresh (s.requestCancel_continues _) evolves
      fun x _ job job' hrow hm => hrow.stands hm (absurd · id)
  | approve _ _ evolves =>
    exact hI.continues hfresh hsame evolves
      fun x _ job job' hrow hm => hrow.stands hm fun h => h.2.1
  | sweep => exact sweep_rows hI a.now hfresh
  | @claim db _ _ _ _ _ _ _ hworker hj pending uncleared hplan evolves =>
    intro x hx
    rcases List.mem_append.mp hx with hx | hx
    · have hsame : s.Continues { s with db := db } := fun x hx => ⟨x, hx, rfl, rfl⟩
      refine hI.continues hfresh hsame evolves (fun x hx row row' hrow h => ?_) x hx
      rw [h.of_ne fun hid => hI.not_pending hj pending hx (hrow.id.symm.trans hid)]
      exact .refl _ _ row
    · obtain rfl := List.mem_singleton.mp hx
      exact claim_row hI hworker hj hfresh pending uncleared hplan evolves
  | advance hx =>
    have hevolves : s.db.Evolves Eq a.uid none s.db := .refl s.db
    exact hI.continues hfresh (State.set_continues hI.nodup hx ⟨rfl, rfl⟩) hevolves
      fun x _ job job' _ heq => heq ▸ .refl _ _ job
  | report hx _ evolves =>
    exact hI.continues hfresh (State.set_continues hI.nodup hx ⟨rfl, rfl⟩) evolves
      fun x _ job job' hrow hm => hrow.stands hm (absurd · id)
  | @settle x db job plan appliedPlan result new hx hj _ _ recording =>
    obtain ⟨status, -, hevolves⟩ := recording.evolves
    intro y hy
    have hne : y.jobId ≠ x.jobId := State.ne_of_mem_without hy
    obtain ⟨row, hrow⟩ := hI.rows y (List.mem_of_mem_filter hy)
    obtain ⟨row', hmem, hchange⟩ := hevolves.changed hrow.mem
    have hid : row.id ≠ job.id := by
      rw [hrow.id, Table.key_of_find hj]
      exact hne
    obtain rfl := hchange.of_ne hid
    exact ⟨row', hrow.step hevolves hfresh hmem (.refl _ _ _) (fun h => h) hrow.interrupted⟩
  | drop =>
    have hevolves : s.db.Evolves Eq a.uid none s.db := .refl s.db
    exact hI.continues hfresh (s.without_continues _) hevolves
      fun x _ job job' _ heq => heq ▸ .refl _ _ job

/-- A move that draws a fresh id keeps the invariant. -/
theorem State.Inv.move (hI : s.Inv) (hfresh : a.uid ∉ s.issued) (h : Move c s a s') :
    State.Inv { s' with issued := a.uid :: s.issued } := by
  obtain ⟨new, hevolves⟩ := h.evolves hI
  have hnodup := h.nodup hI
  have hrows := h.rows hI hfresh
  exact ⟨hI.sound.evolves hevolves hfresh, hnodup, hrows⟩

/-- Every step keeps the invariant. -/
theorem State.Inv.step (hI : s.Inv) (h : step c s a = some s') : s'.Inv := by
  obtain ⟨hfresh, s', hmove, rfl⟩ := step_move hI.sound h
  exact hI.move hfresh hmove

theorem inv_inductive (c : Settings) : (machine c C).Inductive (fun _ _ => True) State.Inv where
  init s h := by
    obtain rfl : s = {} := h
    exact ⟨Database.Sound.empty, List.nodup_nil, fun _ hx => absurd hx List.not_mem_nil⟩
  step _ _ _ hI _ h := hI.step h

/-- The states of all runs meet the invariant, whatever condition the runs meet. -/
theorem State.Inv.of_reach {R : State → Action C → Prop} (h : (machine c C).Reach R s) : s.Inv :=
  ((inv_inductive c).mono fun _ _ _ => trivial).reach h

end Inv

/-! ## A home installation -/

theorem scratchParts_valid : ∀ s ∈ ["scratch"], ValidPart s := by decide

/-- The library is `/media`, and the scratch directory is `/scratch`. -/
def home : Settings where
  os := plainOs
  roots := {
    media := [⟨.slash, ["media"], by decide⟩]
    scratch := [⟨.slash, ["scratch"], scratchParts_valid⟩]
    backup := [⟨.slash, ["media"], by decide⟩] }
  scratchDir := ⟨.slash, ["scratch"], scratchParts_valid⟩
  calendar := ⟨fun _ => 0⟩
  secret := "secret"
  localKey := "local"

/-- The film, with an English and a French audio track. -/
def dualAudioFilm : MediaFile where
  container := { filePath := film, fileName := "film.mkv", extension := some "mkv" }
  videoStreams := [{ index := 0, codecName := some "hevc" }]
  audioStreams := [
    { index := 1, tags := { language := some "eng" }, disposition := { default := true } },
    { index := 2, tags := { language := some "fre" } }]
  hasEnglishAudio := true

/-- The film with its English audio track only. -/
def englishFilm : MediaFile :=
  { dualAudioFilm with audioStreams := dualAudioFilm.audioStreams.take 1 }

/-- The files where the output of `job1` is staged. -/
def stagedFiles : Files PosixPath String :=
  Function.update (Function.update (fun _ => none) film (some "original"))
    (buildTempOutputPath film home.scratchDir .mkv (some "job1")) (some "output")

/-- An action at a minute. -/
def actAt (minute : Int) (uid : String) (op : Op String) : Action String where
  uid := uid
  now := seconds (60 * minute)
  op := op

/-- A remote worker registers. -/
def registers (key : String) : Op String :=
  .request (.registerWorker {
    workerKey := key
    displayName := key
    registrationSecret := some "secret"
    pairingTokenHash := none
    maxConcurrentJobs := 1
    pathMappings := []
    scratchPath := none
    healthStatus := .healthy })

/-- The film is planned, a job is created for it, and the worker `a` registers. -/
def filmRun : List (Action String) := [
  actAt 0 "film" (.request (.planFile film dualAudioFilm englishPolicy { enabled := false })),
  actAt 0 "job1" (.request (.createJob { trackedFileId := some "film" })),
  actAt 0 "a" (registers "a")]

/-- The local worker takes `job1`, and begins. -/
def localFilmRun : List (Action String) := filmRun ++ [
  actAt 0 "local" (.request (.setupLocalWorker { maxConcurrentJobs := 1 })),
  actAt 1 "claim" (.claimLocal "job1" true true),
  actAt 1 "begin" (.work "job1" .begin)]

/-- The worker `a` takes `job1`, and begins. -/
def remoteFilmRun : List (Action String) := filmRun ++ [
  actAt 1 "claim" (.claim "a" "job1" true film),
  actAt 1 "begin" (.work "job1" .begin)]

/-- The execution of `job1` stages, verifies and places its output. -/
def replacesFilm : List (Action String) := [
  actAt 2 "staged" (.work "job1" (.run (.staged home.scratchDir) 0)),
  actAt 2 "verifying" (.work "job1" .proceed),
  actAt 3 "verified" (.work "job1" (.verify (.media englishFilm) none)),
  actAt 3 "replacing" (.work "job1" .proceed),
  actAt 4 "placed" (.work "job1" (.place ⟨stagedFiles, noFaults, []⟩))]

/-- The state after a run of the home installation. -/
def homeAfter (actions : List (Action String)) : State :=
  ((machine home String).run (fun _ _ => true) {} actions).getD {}

/-- A run in which no step does what `bad` says. -/
theorem home_reach (bad : State → Action String → Bool) (actions : List (Action String))
    (h : ((machine home String).run (fun s a => !bad s a) {} actions).isSome = true) :
    (machine home String).Reach (fun s a => bad s a = false) (homeAfter actions) :=
  .after bad actions rfl h

theorem home_reachable (actions : List (Action String))
    (h : ((machine home String).run (fun _ _ => true) {} actions).isSome = true) :
    (machine home String).Reachable (homeAfter actions) :=
  (home_reach (fun _ _ => false) actions h).mono fun _ _ _ => trivial

end Encodr
