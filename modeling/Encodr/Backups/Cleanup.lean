import Encodr.Backups.Service
import Encodr.Lib.Transition

/-!
# What the cleanup of backups deletes

All replacements of a file in place share one backup path. Each row says how long it keeps that
path (`Promise`), and the cleanup deletes by the promise of one row.

* `backupSys`: the runs of replacements, restorations, deletions and cleanups.
* `PromisesKept`: no two rows on one backup path make different promises.
* `cleanup_deletes_own`: in the runs whose replacements agree with the promises already made, the
  cleanup deletes no backup that another row still keeps.
-/

namespace Encodr

open Python Lib

/-! ## Promises -/

/-- How long a row keeps its backup: its policy, and the end of its retention. -/
structure Promise where
  policy : String
  retainedUntil : Option Time
deriving DecidableEq, Repr

namespace Promise

/-- The promise has run out. -/
def expired (p : Promise) (now : Time) : Bool :=
  p.policy == "keep_for_1_day" && p.retainedUntil.any (· ≤ now)

/-- The promise still holds. -/
def keeps (p : Promise) (now : Time) : Bool :=
  normaliseBackupPolicy p.policy == "keep" || p.retainedUntil.any (now < ·)

/-- `q` runs out before `p` does. -/
def outlives (p q : Promise) : Bool :=
  q.policy == "keep_for_1_day" && q.retainedUntil.any fun t =>
    normaliseBackupPolicy p.policy == "keep" || p.retainedUntil.any (t < ·)

theorem outlives_of {p q : Promise} {now : Time} (hq : q.expired now = true)
    (hp : p.keeps now = true) : p.outlives q = true := by
  obtain ⟨policy, ends⟩ := p
  obtain ⟨_, ends'⟩ := q
  cases ends' with
  | none => simp [expired] at hq
  | some t =>
    cases ends with
    | none =>
      simp only [expired, keeps, outlives, Option.any_some, Option.any_none, Bool.and_eq_true,
        Bool.or_false] at hq hp ⊢
      exact ⟨hq.1, hp⟩
    | some t' =>
      simp only [expired, keeps, outlives, Option.any_some, Bool.and_eq_true, Bool.or_eq_true,
        decide_eq_true_eq] at hq hp ⊢
      exact ⟨hq.1, hp.imp_right fun h => lt_of_le_of_lt hq.2 h⟩

theorem not_outlives_self (p : Promise) : p.outlives p = false := by
  obtain ⟨policy, ends⟩ := p
  have hday : normaliseBackupPolicy "keep_for_1_day" ≠ "keep" := by decide
  by_cases h : policy = "keep_for_1_day"
  · cases ends <;> simp [outlives, h, hday]
  · simp [outlives, h]

end Promise

/-- The promise of a row. -/
def Job.promise (job : Job) : Promise :=
  ⟨job.backupPolicy, job.backupRetentionUntil⟩

/-- The row still keeps its backup. -/
def Job.keepsBackup (job : Job) (now : Time) : Bool :=
  job.promise.keeps now

section Replacements

variable {C : Type}

/-- The replacement leaves a backup in its record: it is in place, and does not delete the backup
it makes. -/
def Replacement.recordsBackup (r : Replacement C) : Bool :=
  r.plan.replace.inPlace && !(r.plan.replace.existingBackupStrategy != "keep_existing_backup" &&
    r.plan.replace.deleteReplacedSource && (r.faults .unlinkBackup).isNone)

/-- The promise that the record of a replacement makes. -/
def Replacement.promise (r : Replacement C) : Promise where
  policy := r.job.backupPolicy
  retainedUntil :=
    if r.job.backupPolicy = "keep_for_1_day" then some (r.completedAt + days 1) else none

/-! ## Runs -/

/-- What happens to the backups of a file. -/
inductive BackupAction (C : Type) where
  | replace (r : Replacement C)
  | restore (jobId : JobId) (restoredBy : Option String) (now : Time) (F : Faults BackupSite C)
  | delete (jobId : JobId) (now : Time) (F : Faults BackupSite C)
  | cleanup (now : Time) (F : Faults JobId C)

/-- One action. -/
def backupStep (os : PathOs) (roots : Option PathRoots) (store : BackupStore C) :
    BackupAction C → Option (BackupStore C)
  | .replace r => recordReplacement r store
  | .restore jobId restoredBy now F => some (restoreBackup os roots jobId restoredBy now F store).2
  | .delete jobId now F => some (deleteBackup os roots jobId now F store).2
  | .cleanup now F => some (cleanupExpiredBackups os roots now F store).2

/-- The runs on one file, from a file without jobs. -/
def backupSys (C : Type) (os : PathOs) (roots : Option PathRoots) :
    Sys (BackupStore C) (BackupAction C) where
  init store := store.jobs = []
  step := backupStep os roots

/-- A replacement that records a backup makes the promise that every row on this backup already
makes. -/
def promisesAgree (store : BackupStore C) : BackupAction C → Bool
  | .replace r => !r.recordsBackup || store.jobs.all fun job =>
      !(job.holdsBackup &&
        job.originalBackupPath == (buildBackupPath store.file.sourcePath).toOption) ||
      !(r.promise.outlives job.promise || job.promise.outlives r.promise)
  | _ => true

/-- No row on a backup path outlives another row on it. -/
def PromisesKept (jobs : List Job) : Prop :=
  ∀ job ∈ jobs, ∀ other ∈ jobs, job.holdsBackup = true → other.holdsBackup = true →
    other.originalBackupPath = job.originalBackupPath → other.promise.outlives job.promise = false

/-! ## Steps -/

/-- Rows that are given up or stay as they are keep the promises. -/
theorem PromisesKept.of_subset {jobs jobs' : List Job} (h : PromisesKept jobs)
    (hsub : ∀ job ∈ jobs', job.holdsBackup = true → job ∈ jobs) : PromisesKept jobs' :=
  fun job hjob other hother hb hb' => h job (hsub job hjob hb) other (hsub other hother hb') hb hb'

/-- A new row that agrees with the rows on its backup keeps the promises. -/
theorem PromisesKept.append {jobs : List Job} {row : Job} (h : PromisesKept jobs)
    (hrow : ∀ job ∈ jobs, job.holdsBackup = true → row.holdsBackup = true →
      job.originalBackupPath = row.originalBackupPath →
      row.promise.outlives job.promise = false ∧ job.promise.outlives row.promise = false) :
    PromisesKept (jobs ++ [row]) := by
  intro job hjob other hother hb hb' hpath
  simp only [List.mem_append, List.mem_singleton] at hjob hother
  rcases hjob with hjob | rfl <;> rcases hother with hother | rfl
  · exact h job hjob other hother hb hb' hpath
  · exact (hrow job hjob hb hb' hpath.symm).1
  · exact (hrow other hother hb' hb hpath).2
  · exact Promise.not_outlives_self _

theorem modify_holdsBackup {jobs : List Job} {jobId : JobId} {f : Job → Job}
    (hf : ∀ job, (f job).holdsBackup = false) :
    ∀ job ∈ Table.modify Job.id jobId f jobs, job.holdsBackup = true → job ∈ jobs := by
  intro job hjob hb
  obtain ⟨job₀, hmem, rfl⟩ := Table.mem_modify.mp hjob
  by_cases hk : job₀.id = jobId
  · simp [hk, hf] at hb
  · simpa [hk] using hmem

theorem restoreBackup_holds {os : PathOs} {roots : Option PathRoots} {jobId : JobId}
    {restoredBy : Option String} {now : Time} {F : Faults BackupSite C} {store : BackupStore C} :
    ∀ job ∈ (restoreBackup os roots jobId restoredBy now F store).2.jobs,
      job.holdsBackup = true → job ∈ store.jobs := by
  unfold restoreBackup
  split
  · exact fun job hjob _ => hjob
  · split
    · exact fun job hjob _ => hjob
    · exact modify_holdsBackup fun job => by simp [Job.holdsBackup]

theorem deleteBackup_holds {os : PathOs} {roots : Option PathRoots} {jobId : JobId} {now : Time}
    {F : Faults BackupSite C} {store : BackupStore C} :
    ∀ job ∈ (deleteBackup os roots jobId now F store).2.jobs,
      job.holdsBackup = true → job ∈ store.jobs := by
  unfold deleteBackup
  split
  · exact fun job hjob _ => hjob
  · split
    · exact fun job hjob _ => hjob
    · exact modify_holdsBackup fun job => by simp [Job.holdsBackup]

theorem cleanupExpiredBackups_holds {os : PathOs} {roots : Option PathRoots} {now : Time}
    {F : Faults JobId C} {store : BackupStore C} :
    ∀ job ∈ (cleanupExpiredBackups os roots now F store).2.jobs,
      job.holdsBackup = true → job ∈ store.jobs := by
  unfold cleanupExpiredBackups
  split
  · exact fun job hjob _ => hjob
  · exact fun job hjob _ => hjob
  · intro job hjob hb
    simp only [List.mem_map] at hjob
    obtain ⟨job₀, hmem, rfl⟩ := hjob
    split_ifs at hb ⊢ with hk
    · simp [Job.holdsBackup] at hb
    · exact hmem

/-- A successful placement that reports a backup is in place, keeps the backup it made and reports
the backup path of its source. -/
theorem placeVerifiedOutput_backup {F : Faults Site C} {fs : Files PosixPath C}
    {source staged : PosixPath} {plan : ProcessingPlan} {draws : List String}
    {res : ReplacementResult} (hapart : StagedApart source staged plan)
    (hrun : (placeVerifiedOutput source staged plan draws F fs).1 = .ok res)
    (hst : res.status = .succeeded) (hb : res.originalBackupPath.isSome) :
    plan.replace.inPlace = true ∧
      ¬ (plan.replace.existingBackupStrategy ≠ "keep_existing_backup" ∧
        plan.replace.deleteReplacedSource = true ∧ F .unlinkBackup = none) ∧
      res.originalBackupPath = (buildBackupPath source).toOption := by
  cases hin : plan.replace.inPlace with
  | true =>
    have h := placeVerifiedOutput_inPlace F fs draws hin hapart
    rw [hrun] at h
    obtain ⟨p, orig, out, hp, hs, h⟩ := h.placed_of_succeeded hst
    have hdel := h.deleted_iff hs
    have hpath := h.backupPath
    cases hd : res.deletedOriginalSource with
    | true => simp [hpath, hd] at hb
    | false =>
      refine ⟨rfl, fun hall => by simp [hdel.mpr hall] at hd, ?_⟩
      rw [hpath, hd, hp.backup_eq]
      rfl
  | false =>
    have h := placeVerifiedOutput_alongside F fs draws hin hapart
    rw [hrun] at h
    generalize (placeVerifiedOutput source staged plan draws F fs).2 = fs' at h
    generalize hr : (Except.ok res : Except Raised ReplacementResult) = r at h
    cases h with
    | refused hf => simp [hf res hr.symm] at hst
    | placed _ _ _ _ _ _ _ hnone =>
      cases hr
      simp [hnone] at hb
    | failed _ _ _ _ hf =>
      cases hr
      simp [hf] at hst

/-- The row of a replacement makes the promise of the replacement, where it records a backup. -/
theorem recordReplacement_row {r : Replacement C} {store store' : BackupStore C}
    (h : recordReplacement r store = some store') :
    ∃ row, store'.jobs = store.jobs ++ [row] ∧ (row.holdsBackup = true →
      r.recordsBackup = true ∧ row.promise = r.promise ∧
      row.originalBackupPath = (buildBackupPath store.file.sourcePath).toOption) := by
  unfold recordReplacement at h
  split_ifs at h with hready
  simp only [Replacement.ready, Bool.and_eq_true, Option.isNone_iff_eq_none, bne_iff_ne] at hready
  obtain ⟨⟨⟨⟨hret, -⟩, -⟩, hdir⟩, -⟩ := hready
  split at h
  · next replacement files hrun =>
    split_ifs at h with hst
    obtain rfl := Option.some.inj h
    refine ⟨_, rfl, fun hb => ?_⟩
    have hsome : replacement.originalBackupPath.isSome := by
      simp only [Job.holdsBackup, Job.markResult_originalBackupPath, replacedResult,
        Bool.and_eq_true] at hb
      exact hb.1.1.2
    obtain ⟨hin, hkept, hpath⟩ := placeVerifiedOutput_backup (.of_directory hdir)
      (congrArg Prod.fst hrun) hst hsome
    refine ⟨?_, ?_, ?_⟩
    · simpa [Replacement.recordsBackup, hin, imp_iff_not_or, Option.isSome_iff_ne_none, or_assoc]
        using hkept
    · simp [Job.promise, Replacement.promise, replacedResult, hsome, hret]
    · simpa [replacedResult] using hpath
  · cases h

theorem promisesKept_inductive (os : PathOs) (roots : Option PathRoots) :
    (backupSys C os roots).Inductive (fun s a => promisesAgree s a = true)
      fun s => PromisesKept s.jobs where
  init s h := by
    rw [show s.jobs = [] from h]
    simp [PromisesKept]
  step s a s' hI hC h := by
    cases a with
    | replace r =>
      obtain ⟨row, hjobs, hrow⟩ := recordReplacement_row h
      rw [hjobs]
      refine hI.append fun job hjob hb hb' hpath => ?_
      obtain ⟨hrec, hpromise, hown⟩ := hrow hb'
      simp only [promisesAgree, hrec, Bool.not_true, Bool.false_or, List.all_eq_true] at hC
      simpa [hb, hpath, hown, hpromise] using hC job hjob
    | restore jobId restoredBy now F =>
      obtain rfl := Option.some.inj h
      exact hI.of_subset restoreBackup_holds
    | delete jobId now F =>
      obtain rfl := Option.some.inj h
      exact hI.of_subset deleteBackup_holds
    | cleanup now F =>
      obtain rfl := Option.some.inj h
      exact hI.of_subset cleanupExpiredBackups_holds

/-! ## The cleanup -/

/-- The loop unlinks the backups of jobs that are due. -/
theorem unlinkDue_spec (os : PathOs) (roots : Option PathRoots) (F : Faults JobId C)
    (due : List Job) :
    Triple F (fun _ => True) (unlinkDue os roots due) (fun d _ => d.1 ⊆ due) fun _ _ => True := by
  induction due with
  | nil => exact Triple.pure fun _ _ => List.Subset.refl _
  | cons job due ih =>
    have hskip := Triple.conseq ih (fun _ h => h)
      (fun d _ (h : d.1 ⊆ due) => List.subset_cons_of_subset job h) fun _ _ h => h
    unfold unlinkDue
    split
    · exact hskip
    · refine Triple.bind (Triple.trivial _) fun _ => Triple.ite (fun _ => ?_) fun _ => hskip
      refine Triple.bind (Triple.attempt (R := fun _ _ => True) (Triple.trivial _)) ?_
      rintro (error | _)
      · exact Triple.pure fun _ _ => List.nil_subset _
      · exact Triple.bind ih fun d => Triple.pure fun _ h => List.cons_subset_cons job h

theorem unlinkDue_subset {os : PathOs} {roots : Option PathRoots} {F : Faults JobId C}
    {due deleted : List Job} {error : Option OSError} {fs fs' : Files PosixPath C}
    (h : unlinkDue os roots due F fs = (.ok (deleted, error), fs')) : deleted ⊆ due := by
  have hrun := unlinkDue_spec os roots F due fs trivial
  rw [h] at hrun
  exact hrun

theorem cleanupExpiredBackups_expired {os : PathOs} {roots : Option PathRoots} {now : Time}
    {F : Faults JobId C} {store : BackupStore C} {job : Job}
    (h : job ∈ (cleanupExpiredBackups os roots now F store).1) :
    job ∈ store.jobs ∧ job.backupExpired now = true := by
  have hdue : job ∈ backupsDue store.jobs now := by
    unfold cleanupExpiredBackups at h
    split at h
    · cases h
    · next hrun => exact unlinkDue_subset hrun h
    · next hrun => exact unlinkDue_subset hrun h
  simpa [backupsDue] using hdue

/-- **What the cleanup deletes.** In every run whose replacements make the promises that the rows
on their backup already make, a cleanup unlinks no backup that another row still keeps. -/
theorem cleanup_deletes_own (os : PathOs) (roots : Option PathRoots) {s : BackupStore C}
    (h : (backupSys C os roots).Reach (fun s a => promisesAgree s a = true) s) (now : Time)
    (F : Faults JobId C) :
    ∀ job ∈ (cleanupExpiredBackups os roots now F s).1, ∀ other ∈ s.jobs, other.id ≠ job.id →
      other.holdsBackup = true → other.originalBackupPath = job.originalBackupPath →
      other.keepsBackup now = false := by
  intro job hjob other hother _ hb hpath
  obtain ⟨hmem, hexp⟩ := cleanupExpiredBackups_expired hjob
  simp only [Job.backupExpired, Bool.and_eq_true] at hexp
  have hkept := (promisesKept_inductive os roots).reach h job hmem other hother hexp.1.1 hb hpath
  by_contra hk
  have hexpired : job.promise.expired now = true := by
    simpa only [Promise.expired, Job.promise, Bool.and_eq_true] using ⟨hexp.1.2, hexp.2⟩
  simp [Promise.outlives_of hexpired (by simpa [Job.keepsBackup] using hk)] at hkept

/-! ## The film -/

/-- A system where paths resolve to themselves. -/
def plainOs : PathOs := ⟨id, id⟩

/-- The film before its first job. -/
def filmStore : BackupStore String where
  file := { id := "film", sourcePath := film, createdAt := 0, updatedAt := 0 }
  jobs := []
  decisions := []
  files := Function.update (fun _ => none) film (some "original")

/-- A replacement of the film. -/
def filmReplacement (id policy strategy output : String) (completedAt : Time) :
    Replacement String where
  job := {
    id := id
    trackedFileId := "film"
    planSnapshotId := "plan"
    status := .running
    backupPolicy := policy
    createdAt := completedAt
    updatedAt := completedAt }
  plan := filmPlan .mkv (inPlaceWith strategy)
  staged := stagedFilm
  output := output
  verification := .notRequired
  draws := []
  faults := noFaults
  startedAt := completedAt
  completedAt := completedAt

/-- The first job of the film keeps its backup for a day. The second keeps the existing backup, with
the policy to keep it for good. -/
def sharedBackupRun : List (BackupAction String) := [
  .replace (filmReplacement "first" "keep_for_1_day" "fail" "smaller" 0),
  .replace (filmReplacement "second" "keep" "keep_existing_backup" "smallest" (seconds 3600))]

/-- The film after some actions. -/
def filmStoreAfter (actions : List (BackupAction String)) : BackupStore String :=
  ((backupSys String plainOs none).run (fun _ _ => true) filmStore actions).getD filmStore

/-- Two jobs that both keep the backup for good. -/
def keptBackupRun : List (BackupAction String) := [
  .replace (filmReplacement "first" "keep" "fail" "smaller" 0),
  .replace (filmReplacement "second" "keep" "keep_existing_backup" "smallest" (seconds 3600))]

theorem cleanup_deletes_own_film :
    (backupSys String plainOs none).Reach (fun s a => promisesAgree s a = true)
        (filmStoreAfter keptBackupRun) ∧
    ∀ job ∈ (cleanupExpiredBackups plainOs none (days 1) (fun _ => none)
        (filmStoreAfter keptBackupRun)).1,
      ∀ other ∈ (filmStoreAfter keptBackupRun).jobs, other.id ≠ job.id →
        other.holdsBackup = true → other.originalBackupPath = job.originalBackupPath →
        other.keepsBackup (days 1) = false := by
  have hreach : (backupSys String plainOs none).Reach (fun s a => promisesAgree s a = true)
      (filmStoreAfter keptBackupRun) :=
    Sys.Reach.run promisesAgree keptBackupRun (.init (s := filmStore) rfl) rfl
  exact ⟨hreach, cleanup_deletes_own plainOs none hreach (days 1) fun _ => none⟩

/-- A day after the first job the cleanup unlinks the backup that the second job keeps. -/
theorem sharedBackup_not_kept :
    (backupSys String plainOs none).Reachable (filmStoreAfter sharedBackupRun) ∧
      ∃ job ∈ (cleanupExpiredBackups plainOs none (days 1) (fun _ => none) (filmStoreAfter sharedBackupRun)).1,
        ∃ other ∈ (filmStoreAfter sharedBackupRun).jobs, other.id ≠ job.id ∧ other.holdsBackup = true ∧
          other.originalBackupPath = job.originalBackupPath ∧ other.keepsBackup (days 1) = true := by
  -- the sort of the due jobs does not compute, so the one due job is found before it
  obtain ⟨first, hdue, hunlinked, hother⟩ : ∃ first,
      (filmStoreAfter sharedBackupRun).jobs.filter (·.backupExpired (days 1)) = [first] ∧
      (∃ fs, unlinkDue plainOs none [first] (fun _ => none) (filmStoreAfter sharedBackupRun).files =
        (.ok ([first], none), fs)) ∧
      ∃ other ∈ (filmStoreAfter sharedBackupRun).jobs, other.id ≠ first.id ∧ other.holdsBackup = true ∧
        other.originalBackupPath = first.originalBackupPath ∧ other.keepsBackup (days 1) = true :=
    ⟨_, rfl, ⟨_, rfl⟩, _, List.mem_cons_of_mem _ List.mem_cons_self, by decide⟩
  obtain ⟨fs, hunlinked⟩ := hunlinked
  have hdue : backupsDue (filmStoreAfter sharedBackupRun).jobs (days 1) = [first] := by
    rw [backupsDue, hdue, List.mergeSort_singleton]
  refine ⟨Sys.Reachable.run sharedBackupRun (s := filmStore) rfl rfl, first, ?_, hother⟩
  simp [cleanupExpiredBackups, hdue, hunlinked]

end Replacements

end Encodr
