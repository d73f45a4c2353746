import Encodr.Api.Orchestration

/-!
# What a schedule refresh reaches

`_refresh_scheduled_jobs` goes through the oldest 200 queued jobs, those that wait for a worker and those
that wait for their schedule.

* `Refreshed`: what a refresh makes of a job.
* `refreshScheduledJobs_complete`: the jobs that it is made of, and those that are left as they are.
-/

namespace Encodr

open Lib

/-- What a refresh makes of a job: it is promoted when its time has come, and waits for the next opening
when its windows are closed. -/
structure Refreshed (calendar : Calendar) (now : Time) (job job' : Job) : Prop where
  promoted : job.clearedAt = none → job.status = .scheduled → job.isDue calendar now = true →
    job'.status = .pending
  postponed : job.clearedAt = none → job.status = .pending → job.assignedWorkerId = none →
    calendar.allowNow job.scheduleWindows now = false →
    job'.status = .scheduled ∧ job'.scheduledForAt = calendar.nextOpening job.scheduleWindows now

section Refresh

variable {calendar : Calendar} {db : Database} {job : Job} {now : Time}

/-- A job that is not queued has nothing to refresh. -/
theorem Refreshed.of_not_queued (h : job.isQueued = false) : Refreshed calendar now job job := by
  have hqueued : ∀ s, (s = .pending ∨ s = .scheduled) → job.clearedAt = none → job.status = s → False := by
    intro s hs hcleared hstatus
    rcases hs with rfl | rfl
    · simp [Job.isQueued, hcleared, hstatus] at h
    · simp [Job.isQueued, hcleared, hstatus] at h
  exact ⟨fun hcleared hstatus _ => (hqueued _ (.inr rfl) hcleared hstatus).elim,
    fun hcleared hstatus _ _ => (hqueued _ (.inl rfl) hcleared hstatus).elim⟩

theorem refreshedJob_refreshed : Refreshed calendar now job (refreshedJob calendar now job) where
  promoted := fun _ hstatus hdue => by
    simp only [Job.isDue, Bool.and_eq_true] at hdue
    have hwaits : ¬ (job.status = .scheduled ∧ job.scheduledForAt.any (now < ·) = true) := by
      rintro ⟨-, hlater⟩
      obtain ⟨hall, -⟩ := hdue
      cases htime : job.scheduledForAt with
      | none => simp [htime] at hlater
      | some time =>
        rw [htime] at hlater hall
        have hle : time ≤ now := of_decide_eq_true hall
        have hlt : now < time := of_decide_eq_true hlater
        exact not_lt.mpr hle hlt
    rw [refreshedJob, if_neg hwaits, if_pos hdue.2, if_pos hstatus]
    rfl
  postponed := fun _ hstatus hunassigned hclosed => by
    have hne : job.status ≠ .scheduled := by rw [hstatus]; decide
    have hwindows : job.scheduleWindows ≠ [] := by
      intro hnil
      simp [Calendar.allowNow, hnil] at hclosed
    rw [refreshedJob, if_neg fun h => hne h.1, if_neg (by rw [hclosed]; decide), if_neg hwindows,
      if_pos (.inr hunassigned)]
    exact ⟨rfl, rfl⟩

theorem mem_jobsForScheduling (h : job ∈ db.jobsForScheduling) :
    job ∈ db.jobs ∧ job.isQueued = true := by
  have hmem := List.mem_of_mem_take h
  rw [List.mem_insertionSort] at hmem
  exact List.mem_filter.mp hmem

/-- The jobs of a queue of at most 200 are all gone through. -/
theorem mem_jobsForScheduling_of_length (hlength : (db.jobs.filter Job.isQueued).length ≤ 200)
    (hjob : job ∈ db.jobs) (hqueued : job.isQueued = true) : job ∈ db.jobsForScheduling := by
  unfold Database.jobsForScheduling
  rw [List.take_of_length_le (by simpa using hlength), List.mem_insertionSort]
  exact List.mem_filter.mpr ⟨hjob, hqueued⟩

/-- The row of a job after a refresh. -/
theorem refreshScheduledJobs_job (hids : db.jobIds.Nodup) (hjob : job ∈ db.jobs) :
    (db.refreshScheduledJobs calendar now).job job.id =
      some (if job ∈ db.jobsForScheduling then refreshedJob calendar now job else job) := by
  have hid : ∀ j ∈ db.jobs, (if j.isQueued && (db.jobsForScheduling.map (·.id)).contains j.id then
      refreshedJob calendar now j else j).id = j.id := by
    intro j _
    unfold refreshedJob
    split_ifs <;> rfl
  have hreached : (job.isQueued && (db.jobsForScheduling.map (·.id)).contains job.id) = true ↔
      job ∈ db.jobsForScheduling := by
    rw [Bool.and_eq_true, List.contains_iff_mem, List.mem_map]
    constructor
    · rintro ⟨-, other, hother, heq⟩
      exact List.inj_on_of_nodup_map hids (mem_jobsForScheduling hother).1 hjob heq ▸ hother
    · exact fun h => ⟨(mem_jobsForScheduling h).2, job, h, rfl⟩
  show Table.find Job.id job.id (db.jobs.map _) = _
  rw [Table.find_map hid, Table.find_of_mem hids hjob, Option.map_some]
  simp only [hreached]

end Refresh

/-- A refresh leaves every job but the oldest 200 queued ones as it is. Of these, those that are due are
pending after it, and those without a worker whose windows are closed are scheduled for the next opening.
Where no more than 200 jobs are queued, this holds of every job. -/
theorem refreshScheduledJobs_complete (db : Database) (hids : db.jobIds.Nodup) (calendar : Calendar)
    (now : Time) :
    (∀ job ∈ db.jobs, ∃ job', (db.refreshScheduledJobs calendar now).job job.id = some job' ∧
      (job ∈ db.jobsForScheduling → Refreshed calendar now job job') ∧
      (job ∉ db.jobsForScheduling → job' = job)) ∧
    ((db.jobs.filter Job.isQueued).length ≤ 200 → ∀ job ∈ db.jobs, ∃ job',
      (db.refreshScheduledJobs calendar now).job job.id = some job' ∧ Refreshed calendar now job job') := by
  constructor
  · intro job hjob
    refine ⟨_, refreshScheduledJobs_job hids hjob, fun hreached => ?_, fun hnot => if_neg hnot⟩
    rw [if_pos hreached]
    exact refreshedJob_refreshed
  · intro hlength job hjob
    refine ⟨_, refreshScheduledJobs_job hids hjob, ?_⟩
    cases hqueued : job.isQueued with
    | true =>
      rw [if_pos (mem_jobsForScheduling_of_length hlength hjob hqueued)]
      exact refreshedJob_refreshed
    | false =>
      rw [if_neg fun h => by rw [(mem_jobsForScheduling h).2] at hqueued; cases hqueued]
      exact .of_not_queued hqueued

/-! ### A long queue -/

/-- A job that waits for a worker since `i`. -/
def pendingJob (i : Nat) : Job :=
  { id := String.ofList (List.replicate i 'p'), trackedFileId := "film", planSnapshotId := "plan",
    createdAt := i, updatedAt := i }

/-- `n` jobs that wait for a worker, each older than the next. -/
def pendingJobs (n : Nat) : List Job :=
  (List.range n).map pendingJob

/-- A job that has waited for its schedule until 1000. -/
def dueJob : Job :=
  { id := "due", trackedFileId := "series", planSnapshotId := "plan", status := .scheduled,
    scheduledForAt := some 1000, createdAt := 500, updatedAt := 500 }

section LongQueue

variable {n : Nat}

theorem jobOrder_of_lt {a b : Job} (h : a.createdAt < b.createdAt) : Database.jobOrder a b = true := by
  unfold Database.jobOrder
  rw [compare_lt_iff_lt.mpr h]
  rfl

theorem pendingJobs_ids : (pendingJobs n).map (·.id) =
    (List.range n).map fun i => String.ofList (List.replicate i 'p') := by
  rw [pendingJobs, List.map_map]
  rfl

theorem pendingJobs_nodup : ((pendingJobs n).map (·.id)).Nodup := by
  rw [pendingJobs_ids]
  refine List.nodup_range.map fun i j h => ?_
  have hlist := String.ofList_injective h
  simpa using congrArg List.length hlist

theorem pendingJobs_queued : ∀ job ∈ pendingJobs n, job.isQueued = true := by
  intro job hjob
  obtain ⟨i, -, rfl⟩ := List.mem_map.mp hjob
  rfl

theorem pendingJobs_createdAt {job : Job} (h : job ∈ pendingJobs n) : job.createdAt < n := by
  obtain ⟨i, hi, rfl⟩ := List.mem_map.mp h
  exact Int.ofNat_lt.mpr (List.mem_range.mp hi)

theorem pendingJobs_pairwise :
    (pendingJobs n).Pairwise fun a b => Database.jobOrder a b = true := by
  refine List.pairwise_map.mpr (List.pairwise_lt_range.imp fun {i j} h => jobOrder_of_lt ?_)
  exact Int.ofNat_lt.mpr h

/-- Behind 200 older jobs, the due job is not gone through. -/
theorem jobsForScheduling_long :
    Database.jobsForScheduling { jobs := pendingJobs 200 ++ [dueJob] } = pendingJobs 200 := by
  have hqueued : (pendingJobs 200 ++ [dueJob]).filter Job.isQueued = pendingJobs 200 ++ [dueJob] := by
    refine List.filter_eq_self.mpr fun job hjob => ?_
    rcases List.mem_append.mp hjob with hjob | hjob
    · exact pendingJobs_queued job hjob
    · rw [List.mem_singleton.mp hjob]
      rfl
  have hsorted : (pendingJobs 200 ++ [dueJob]).Pairwise fun a b => Database.jobOrder a b = true := by
    refine List.pairwise_append.mpr ⟨pendingJobs_pairwise, List.pairwise_singleton _ _, ?_⟩
    intro a ha b hb
    rw [List.mem_singleton.mp hb]
    exact jobOrder_of_lt (lt_trans (pendingJobs_createdAt ha) (by decide))
  have hlength : (pendingJobs 200).length = 200 := by simp [pendingJobs]
  unfold Database.jobsForScheduling
  dsimp only
  rw [hqueued, List.Pairwise.insertionSort_eq hsorted]
  exact List.take_left' hlength

theorem dueJob_not_mem : dueJob ∉ pendingJobs 200 := fun h =>
  absurd (pendingJobs_createdAt h) (by decide)

end LongQueue

/-- A job behind one other job is promoted. -/
theorem refreshScheduledJobs_complete_short :
    ∃ job', (Database.refreshScheduledJobs { jobs := pendingJobs 1 ++ [dueJob] } ⟨fun _ => 0⟩ 1000).job
      "due" = some job' ∧ Refreshed ⟨fun _ => 0⟩ 1000 dueJob job' :=
  (refreshScheduledJobs_complete { jobs := pendingJobs 1 ++ [dueJob] } (by decide) ⟨fun _ => 0⟩ 1000).2
    (by decide) dueJob (by decide)

/-- A job behind 200 others stays scheduled when its time has come. -/
theorem refreshScheduledJobs_long_queue :
    (Database.jobIds { jobs := pendingJobs 200 ++ [dueJob] }).Nodup ∧
      dueJob.clearedAt = none ∧ dueJob.status = .scheduled ∧ dueJob.isDue ⟨fun _ => 0⟩ 1000 = true ∧
      (Database.refreshScheduledJobs { jobs := pendingJobs 200 ++ [dueJob] } ⟨fun _ => 0⟩ 1000).job "due" =
        some dueJob := by
  have hids : (Database.jobIds { jobs := pendingJobs 200 ++ [dueJob] }).Nodup := by
    show ((pendingJobs 200 ++ [dueJob]).map (·.id)).Nodup
    rw [List.map_append]
    refine List.nodup_append.mpr ⟨pendingJobs_nodup, List.nodup_singleton _, ?_⟩
    intro id hid id' hid' heq
    rw [pendingJobs_ids] at hid
    obtain ⟨i, -, rfl⟩ := List.mem_map.mp hid
    have hdue : List.replicate i 'p' = ['d', 'u', 'e'] := by
      rw [List.mem_singleton.mp hid', ← String.toList_inj, String.toList_ofList] at heq
      exact heq
    have hmem : 'd' ∈ List.replicate i 'p' := by simp [hdue]
    exact absurd (List.eq_of_mem_replicate hmem) (by decide)
  refine ⟨hids, rfl, rfl, by decide +kernel, ?_⟩
  have hmem : dueJob ∈ pendingJobs 200 ++ [dueJob] := List.mem_append_right _ (List.mem_singleton_self _)
  refine (refreshScheduledJobs_job hids hmem).trans ?_
  rw [jobsForScheduling_long, if_neg dueJob_not_mem]

end Encodr
