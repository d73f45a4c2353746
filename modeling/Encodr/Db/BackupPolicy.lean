import Encodr.Db.Models
import Encodr.Replacement.Success

/-!
# Backup policies

A job stores the text of its backup policy and a flag. A placement under the job takes its delete
flag from them on the local and on the remote path, and from the plan alone when a review
completes the placement.

* `normaliseBackupPolicy_of_known`: the known texts and what they mean.
* `placed_deletes_iff`: a replacement deletes its new backup when its plan says so.
* `deletes_backup_iff`: when a placement deletes the new backup if and only if the policy asks
  for it, on each path.
-/

namespace Encodr

open Python Lib

/-! ## Policies -/

/-- The text of a policy: `(value or "keep").strip().lower()`. -/
def policyText (value : String) : String :=
  lower (strip (if value = "" then "keep" else value))

/-- `normalise_backup_policy`: aliases, and `keep` for an unknown text. -/
def normaliseBackupPolicy (value : String) : String :=
  let cleaned := policyText value
  if cleaned ∈ ["keep_backup", "keep"] then "keep"
  else if cleaned ∈ ["delete_after_success", "delete_backup_after_success", "no_backup"] then
    "delete_after_success"
  else if cleaned ∈ ["keep_for_1_day", "keep_for_one_day"] then "keep_for_1_day"
  else "keep"

/-- `delete_replaced_source_for_backup_policy`. -/
def deleteReplacedSourceForBackupPolicy (value : String) (fallback : Bool) : Bool :=
  let policy := normaliseBackupPolicy value
  if policy = "delete_after_success" then true
  else if policy ∈ ["keep", "keep_for_1_day"] then false
  else fallback

/-- `plan.replace.delete_replaced_source = delete`. -/
def ProcessingPlan.withDeleteReplacedSource (plan : ProcessingPlan) (delete : Bool) :
    ProcessingPlan :=
  { plan with replace := { plan.replace with deleteReplacedSource := delete } }

@[simp]
theorem ProcessingPlan.withDeleteReplacedSource_flag (plan : ProcessingPlan) (delete : Bool) :
    (plan.withDeleteReplacedSource delete).replace.deleteReplacedSource = delete :=
  rfl

/-- The delete flag for the policy text and the flag of a job. -/
def jobDeletesSource (backupPolicy : String) (deleteReplacedSource : Bool) : Bool :=
  let policy := policyText backupPolicy
  if policy ∈ ["delete_after_success", "no_backup", "delete_backup_after_success"] then true
  else if policy ∈ ["keep", "keep_backup", "keep_for_1_day", "keep_for_one_day"] then false
  else deleteReplacedSource

/-- `_apply_job_backup_policy`: the plan of a local execution. -/
def applyJobBackupPolicy (plan : ProcessingPlan) (job : Job) : ProcessingPlan :=
  plan.withDeleteReplacedSource (jobDeletesSource job.backupPolicy job.deleteReplacedSource)

/-- `_plan_payload_for_job`: the plan that is sent to a remote worker. -/
def planPayloadForJob (job : Job) (payload : ProcessingPlan) : ProcessingPlan :=
  payload.withDeleteReplacedSource (jobDeletesSource job.backupPolicy job.deleteReplacedSource)

@[simp] theorem planPayloadForJob_shouldTreatAsProtected (job : Job) (payload : ProcessingPlan) :
    (planPayloadForJob job payload).shouldTreatAsProtected = payload.shouldTreatAsProtected := by
  rw [planPayloadForJob, ProcessingPlan.withDeleteReplacedSource]

/-- The three paths to a placement. -/
inductive PlacementPath where
  | local
  | remote
  | review
deriving DecidableEq, Repr

/-- The plan of the placement: a worker places under the plan of the job, a review
(`_complete_post_encode_approval`) under the latest plan of the file. -/
def placementPlan (path : PlacementPath) (job : Job) (jobPlan latestPlan : ProcessingPlan) :
    ProcessingPlan :=
  match path with
  | .local => applyJobBackupPolicy jobPlan job
  | .remote => planPayloadForJob job jobPlan
  | .review => latestPlan

/-! ## What the policies mean -/

/-- The policy texts both sides know. -/
def KnownPolicy (value : String) : Prop :=
  policyText value ∈ ["delete_after_success", "no_backup", "delete_backup_after_success", "keep",
    "keep_backup", "keep_for_1_day", "keep_for_one_day"]

/-- For a known text the flag of a job is what the normalised policy says. -/
theorem jobDeletesSource_of_known {value : String} {flag : Bool} (h : KnownPolicy value) :
    jobDeletesSource value flag = true ↔ normaliseBackupPolicy value = "delete_after_success" := by
  unfold KnownPolicy at h
  simp only [List.mem_cons, List.not_mem_nil, or_false] at h
  unfold jobDeletesSource normaliseBackupPolicy
  rcases h with h | h | h | h | h | h | h <;> rw [h] <;> decide +revert

/-- For an unknown text the flag of a job is the stored one, and the normalised policy keeps. -/
theorem jobDeletesSource_of_unknown {value : String} (flag : Bool) (h : ¬ KnownPolicy value) :
    jobDeletesSource value flag = flag ∧ normaliseBackupPolicy value = "keep" := by
  simp only [KnownPolicy, List.mem_cons, List.not_mem_nil, or_false, not_or] at h
  obtain ⟨h₁, h₂, h₃, h₄, h₅, h₆, h₇⟩ := h
  constructor
  · simp only [jobDeletesSource, List.mem_cons, List.not_mem_nil, or_false, h₁, h₂, h₃, h₄, h₅, h₆,
      h₇, if_false]
  · simp only [normaliseBackupPolicy, List.mem_cons, List.not_mem_nil, or_false, h₁, h₂, h₃, h₄, h₅,
      h₆, h₇, if_false]

/-- The plan of a worker's placement deletes when the policy asks for it, or when the policy is not
known and the job says so. -/
theorem jobDeletesSource_iff (value : String) (flag : Bool) :
    jobDeletesSource value flag = true ↔
      normaliseBackupPolicy value = "delete_after_success" ∨ (¬ KnownPolicy value ∧ flag = true) := by
  by_cases h : KnownPolicy value
  · simp [jobDeletesSource_of_known h, h]
  · obtain ⟨hflag, hkeep⟩ := jobDeletesSource_of_unknown flag h
    simp [hflag, hkeep, h]

/-! ## Agreement -/

section Agreement

variable {C : Type} {F : Faults Site C} {fs₀ fs : Files PosixPath C} {source staged : PosixPath}
  {plan : ProcessingPlan} {draws : List String} {res : ReplacementResult} {p : InPlacePaths}
  {orig out : C}

/-- No original is kept: the backup path of the source is free. -/
def DeletesBackup (source : PosixPath) (fs : Files PosixPath C) : Prop :=
  ∃ b, buildBackupPath source = .ok b ∧ fs b = none

/-- A successful replacement that made a new backup deletes it exactly when its plan says so and
the unlink works. -/
theorem Placed.deletes_iff {replace : ReplacePlan} (hp : PathsOf source staged plan p)
    (hs : InPlaceStart fs₀ p orig out) (h : Placed F fs₀ p replace draws out res fs)
    (hk : replace.existingBackupStrategy ≠ "keep_existing_backup") :
    fs p.backupPath = none ↔ replace.deleteReplacedSource = true ∧ F .unlinkBackup = none := by
  have hdel := h.deleted_iff hs
  simp only [hk, ne_eq, not_false_eq_true, true_and] at hdel
  rw [← hdel]
  cases hd : res.deletedOriginalSource with
  | true =>
    obtain ⟨-, -, replaced, fs₁, fs₂, hr, rfl, hfs₂, hfin⟩ := h
    have ht : replaced ≠ some p.backupPath := fun ht =>
      (setAsidePath_apart hp hs (hr.symm.trans ht)).2.2.1 rfl
    simp [hfin.files, hd, afterDeleteTemp_of_ne ht]
  | false => simp [h.original hp hs hk hd]

theorem placeVerifiedOutput_deletes_iff (hin : plan.replace.inPlace = true)
    (hnew : plan.replace.existingBackupStrategy ≠ "keep_existing_backup")
    (hapart : StagedApart source staged plan)
    (hrun : (placeVerifiedOutput source staged plan draws F fs₀).1 = .ok res)
    (hst : res.status = .succeeded) :
    DeletesBackup source (placeVerifiedOutput source staged plan draws F fs₀).2 ↔
      plan.replace.deleteReplacedSource = true ∧ F .unlinkBackup = none := by
  have h := placeVerifiedOutput_inPlace F fs₀ draws hin hapart
  rw [hrun] at h
  obtain ⟨p, orig, out, hp, hs, h⟩ := h.placed_of_succeeded hst
  rw [← h.deletes_iff hp hs hnew]
  exact ⟨fun ⟨b, hb, hfree⟩ => Except.ok.inj (hb.symm.trans hp.backup_eq) ▸ hfree,
    fun hfree => ⟨_, hp.backup_eq, hfree⟩⟩

/-- The condition under which a path agrees with the policy of the job on deleting: where the
policy asks for it, the unlink works and the plan of the placement has the flag; where it does
not, the plan has no flag or the unlink fails. Only a review placement can lack the flag. -/
def AgreesOnDeletion (F : Faults Site C) (path : PlacementPath) (job : Job)
    (latestPlan : ProcessingPlan) : Prop :=
  if normaliseBackupPolicy job.backupPolicy = "delete_after_success" then
    F .unlinkBackup = none ∧ (path = .review → latestPlan.replace.deleteReplacedSource = true)
  else
    F .unlinkBackup ≠ none ∨
      match path with
      | .review => latestPlan.replace.deleteReplacedSource = false
      | _ => KnownPolicy job.backupPolicy ∨ job.deleteReplacedSource = false

/-- A path agrees with the policy when it deletes exactly where the policy asks for it. -/
theorem agreesOnDeletion_iff (path : PlacementPath) (job : Job) (jobPlan latestPlan : ProcessingPlan) :
    AgreesOnDeletion F path job latestPlan ↔
      (((placementPlan path job jobPlan latestPlan).replace.deleteReplacedSource = true ∧
          F .unlinkBackup = none) ↔
        normaliseBackupPolicy job.backupPolicy = "delete_after_success") := by
  unfold AgreesOnDeletion
  by_cases hpol : normaliseBackupPolicy job.backupPolicy = "delete_after_success"
  · cases path <;> simp [placementPlan, applyJobBackupPolicy, planPayloadForJob,
      jobDeletesSource_iff, hpol, and_comm]
  · by_cases hF : F .unlinkBackup = none
    · cases path <;> simp [placementPlan, applyJobBackupPolicy, planPayloadForJob,
        jobDeletesSource_iff, hpol, hF, or_iff_not_imp_left]
    · simp [hpol, hF]

/-- **Who deletes the original.** A successful in-place placement that made a new backup keeps no
original exactly when the policy of its job asks for that, if and only if its path agrees with
the policy. -/
theorem deletes_backup_iff (path : PlacementPath) (job : Job) (jobPlan latestPlan : ProcessingPlan)
    (F : Faults Site C) (fs₀ : Files PosixPath C) (source staged : PosixPath) (draws : List String)
    (res : ReplacementResult)
    (hin : (placementPlan path job jobPlan latestPlan).replace.inPlace = true)
    (hnew : (placementPlan path job jobPlan latestPlan).replace.existingBackupStrategy ≠
      "keep_existing_backup")
    (hapart : StagedApart source staged (placementPlan path job jobPlan latestPlan))
    (hrun : (placeVerifiedOutput source staged (placementPlan path job jobPlan latestPlan) draws F
      fs₀).1 = .ok res)
    (hst : res.status = .succeeded) :
    (DeletesBackup source (placeVerifiedOutput source staged
        (placementPlan path job jobPlan latestPlan) draws F fs₀).2 ↔
      normaliseBackupPolicy job.backupPolicy = "delete_after_success") ↔
    AgreesOnDeletion F path job latestPlan := by
  rw [placeVerifiedOutput_deletes_iff hin hnew hapart hrun hst, agreesOnDeletion_iff]

/-- A job that keeps its backups. -/
def keepJob : Job where
  id := "job"
  trackedFileId := "film"
  planSnapshotId := "plan"
  status := .manualReview
  outputPath := some stagedFilm
  createdAt := 0
  updatedAt := 0

/-- The latest plan of the film deletes what it replaces. -/
def deletingPlan : ProcessingPlan :=
  (filmPlan .mkv (inPlaceWith "fail")).withDeleteReplacedSource true

/-- A review placement under the deleting plan deletes the only original, and the policy of its job
says to keep it. -/
theorem review_deletes_kept_backup :
    ∃ res, (placeVerifiedOutput film stagedFilm
        (placementPlan .review keepJob (filmPlan .mkv (inPlaceWith "fail")) deletingPlan) []
        noFaults filmFiles).1 = .ok res ∧ res.status = .succeeded ∧
      DeletesBackup film (placeVerifiedOutput film stagedFilm
        (placementPlan .review keepJob (filmPlan .mkv (inPlaceWith "fail")) deletingPlan) []
        noFaults filmFiles).2 ∧
      normaliseBackupPolicy keepJob.backupPolicy = "keep" := by
  refine ⟨_, rfl, rfl, ⟨filmBackup, by decide, ?_⟩, by decide⟩
  decide

theorem deletes_backup_iff_film :
    (DeletesBackup film (placeVerifiedOutput film stagedFilm
        (placementPlan .review keepJob (filmPlan .mkv (inPlaceWith "fail")) deletingPlan) []
        noFaults filmFiles).2 ↔
      normaliseBackupPolicy keepJob.backupPolicy = "delete_after_success") ↔
    AgreesOnDeletion noFaults .review keepJob deletingPlan :=
  deletes_backup_iff .review keepJob (filmPlan .mkv (inPlaceWith "fail")) deletingPlan noFaults
    filmFiles film stagedFilm [] _ rfl (by decide) (.of_directory (by decide)) rfl rfl

end Agreement

end Encodr
