import Encodr.Api.Jobs
import Encodr.Api.Library
import Encodr.Lib.Recount

/-!
# Telemetry

The global aggregation row that the dashboard reads (`TelemetryAggregationRepository`): counters, byte
totals, savings by action and the first and last completion times over all job rows.

* `addJob`: a job row is added to the aggregation; `telemetry` is the aggregate, `rebuildGlobal` the
  recount of all rows.
* `CountedJob.alike_of_processedAt`, `CountedJob.silent`: which rows count the same, and which do not
  count.
-/

namespace Encodr

open Python Lib

/-! ## What is counted of a row -/

/-- The value of decimal digits with single underscores between them. -/
def natOfDigits (digits : List Char) : Option Nat :=
  let groups := digits.splitOn '_'
  if groups.all fun group => !group.isEmpty && group.all Char.isDigit then
    some (groups.flatten.foldl (fun n c => 10 * n + (c.toNat - '0'.toNat)) 0)
  else none

/-- `int(text)` of a text with ASCII digits; `none` is the `ValueError`. -/
def intOfText (text : String) : Option Int :=
  match (strip text).toList with
  | '-' :: digits => (natOfDigits digits).map fun n => -(n : Int)
  | '+' :: digits => (natOfDigits digits).map (↑)
  | digits => (natOfDigits digits).map (↑)

example : intOfText " -1_200\n" = some (-1200) := by decide +kernel

/-- `int(value or 0)`; `none` is the `TypeError` or the `ValueError`. -/
def intOrZero : Option Value → Option Int
  | none | some .null => some 0
  | some (.bool b) => some (if b then 1 else 0)
  | some (.int i) => some i
  | some (.str text) => if text = "" then some 0 else intOfText text
  | some (.ints xs) => if xs = [] then some 0 else none

/-- The columns of a job row with its sizes and the analysis of its file. -/
structure JobSizes where
  inputSizeBytes : Option Int := none
  outputSizeBytes : Option Int := none
  spaceSavedBytes : Option Int := none
  analysisPayload : Option Dict := none

/-- `_analysis_count`. -/
def JobSizes.analysisCount (sizes : JobSizes) (key : String) : Int :=
  match sizes.analysisPayload with
  | none => 0
  | some payload => (intOrZero (payload.get? key)).getD 0

/-- Both sizes are known. -/
def JobSizes.isMeasurable (sizes : JobSizes) : Bool :=
  sizes.inputSizeBytes.isSome && sizes.outputSizeBytes.isSome

/-- `calculate_space_saved`. -/
def calculateSpaceSaved (inputSizeBytes outputSizeBytes : Option Int) : Option Int :=
  match inputSizeBytes, outputSizeBytes with
  | some input, some output => some (input - output)
  | _, _ => none

/-- `SUCCESSFUL_JOB_STATUSES`. -/
def JobStatus.isSuccessful : JobStatus → Bool
  | .completed | .skipped => true
  | _ => false

/-- The completion time of a job that counts as processed. -/
def Job.processedAt (job : Job) : Option Time :=
  if job.status.isSuccessful then job.completedAt else none

/-- The values of `PlanAction`. -/
def PlanAction.value : PlanAction → String
  | .skip => "skip"
  | .remux => "remux"
  | .transcode => "transcode"
  | .manualReview => "manual_review"

/-- A job row as the aggregation reads it. -/
structure CountedJob where
  sizes : JobSizes
  processedAt : Option Time
  /-- The action of its plan. -/
  action : Option PlanAction

/-! ## The aggregation -/

structure SavingsBucket where
  jobCount : Int := 0
  spaceSavedBytes : Int := 0
deriving DecidableEq

/-- `_empty_savings_by_action`. -/
def emptySavingsByAction (action : String) : Option SavingsBucket :=
  if action = "remux" ∨ action = "transcode" then some {} else none

/-- The aggregation row. The dictionary of the savings is a function of its keys. -/
structure TelemetryAggregation where
  measurableJobCount : Int := 0
  measurableCompletedJobCount : Int := 0
  processedFileCount : Int := 0
  totalOriginalSizeBytes : Int := 0
  totalOutputSizeBytes : Int := 0
  totalSpaceSavedBytes : Int := 0
  completedSpaceSavedBytes : Int := 0
  totalAudioTracksRemoved : Int := 0
  totalSubtitleTracksRemoved : Int := 0
  firstCompletedAt : Option Time := none
  lastCompletedAt : Option Time := none
  savingsByAction : String → Option SavingsBucket := emptySavingsByAction

/-- The first completion time after another completion. -/
def earlier (first : Option Time) (completedAt : Time) : Time :=
  match first with
  | none => completedAt
  | some first => if completedAt < first then completedAt else first

/-- The last completion time after another completion. -/
def later (last : Option Time) (completedAt : Time) : Time :=
  match last with
  | none => completedAt
  | some last => if completedAt > last then completedAt else last

/-- The savings after a job that has saved `saved` bytes. -/
def addSavings (savings : String → Option SavingsBucket) (action : String) (saved : Int) :
    String → Option SavingsBucket :=
  let bucket := (savings action).getD {}
  Function.update savings action (some ⟨bucket.jobCount + 1, bucket.spaceSavedBytes + saved⟩)

/-- The part of `_add_job` for a job with both sizes. -/
def addMeasured (aggregation : TelemetryAggregation) (sizes : JobSizes) : TelemetryAggregation :=
  if sizes.isMeasurable then { aggregation with
    measurableJobCount := aggregation.measurableJobCount + 1
    totalOriginalSizeBytes := aggregation.totalOriginalSizeBytes + sizes.inputSizeBytes.getD 0
    totalOutputSizeBytes := aggregation.totalOutputSizeBytes + sizes.outputSizeBytes.getD 0
    totalSpaceSavedBytes := aggregation.totalSpaceSavedBytes + sizes.spaceSavedBytes.getD 0 }
  else aggregation

/-- The part of `_add_job` for a processed job. -/
def addProcessed (aggregation : TelemetryAggregation) (sizes : JobSizes) (completedAt : Time) :
    TelemetryAggregation :=
  { aggregation with
    processedFileCount := aggregation.processedFileCount + 1
    firstCompletedAt := some (earlier aggregation.firstCompletedAt completedAt)
    lastCompletedAt := some (later aggregation.lastCompletedAt completedAt)
    totalAudioTracksRemoved :=
      aggregation.totalAudioTracksRemoved + sizes.analysisCount "audio_tracks_removed_count"
    totalSubtitleTracksRemoved :=
      aggregation.totalSubtitleTracksRemoved + sizes.analysisCount "subtitle_tracks_removed_count" }

/-- The part of `_add_job` for a processed job with both sizes. -/
def addCompletedSavings (aggregation : TelemetryAggregation) (sizes : JobSizes) (action : String) :
    TelemetryAggregation :=
  if sizes.isMeasurable then { aggregation with
    measurableCompletedJobCount := aggregation.measurableCompletedJobCount + 1
    completedSpaceSavedBytes :=
      aggregation.completedSpaceSavedBytes + sizes.spaceSavedBytes.getD 0
    savingsByAction :=
      addSavings aggregation.savingsByAction action (sizes.spaceSavedBytes.getD 0) }
  else aggregation

/-- `_add_job`. -/
def addJob (aggregation : TelemetryAggregation) (job : CountedJob) : TelemetryAggregation :=
  let aggregation := addMeasured aggregation job.sizes
  match job.processedAt with
  | none => aggregation
  | some completedAt =>
    addCompletedSavings (addProcessed aggregation job.sizes completedAt) job.sizes
      ((job.action.map PlanAction.value).getD "unknown")

/-! ## The order of the rows -/

section Order

variable (aggregation : TelemetryAggregation) (s t : JobSizes)

theorem earlier_some (first t : Time) : earlier (some first) t = min first t := by
  simp only [earlier]
  split
  · next h => exact (min_eq_right h.le).symm
  · next h => exact (min_eq_left (not_lt.mp h)).symm

theorem later_some (last t : Time) : later (some last) t = max last t := by
  simp only [later]
  split
  · next h => exact (max_eq_right (le_of_lt h)).symm
  · next h => exact (max_eq_left (not_lt.mp h)).symm

theorem earlier_comm (first : Option Time) (t u : Time) :
    earlier (some (earlier first t)) u = earlier (some (earlier first u)) t := by
  cases first with
  | none => exact (earlier_some t u).trans ((min_comm t u).trans (earlier_some u t).symm)
  | some first => simp only [earlier_some, min_right_comm]

theorem later_comm (last : Option Time) (t u : Time) :
    later (some (later last t)) u = later (some (later last u)) t := by
  cases last with
  | none => exact (later_some t u).trans ((max_comm t u).trans (later_some u t).symm)
  | some last => simp only [later_some, max_right_comm]

theorem addSavings_comm (savings : String → Option SavingsBucket) (a b : String) (m n : Int) :
    addSavings (addSavings savings a m) b n = addSavings (addSavings savings b n) a m := by
  by_cases hab : a = b
  · subst hab
    simp only [addSavings, Function.update_self, Function.update_idem, Option.getD_some]
    rw [Int.add_right_comm _ m n]
  · simp only [addSavings, Function.update_of_ne hab, Function.update_of_ne (Ne.symm hab)]
    exact Function.update_comm hab _ _ _

theorem addMeasured_comm :
    addMeasured (addMeasured aggregation s) t = addMeasured (addMeasured aggregation t) s := by
  unfold addMeasured
  split_ifs <;> simp only [TelemetryAggregation.mk.injEq, true_and, and_true]
  refine ⟨?_, ?_, ?_⟩ <;> omega

theorem addProcessed_comm (m n : Time) :
    addProcessed (addProcessed aggregation s m) t n =
      addProcessed (addProcessed aggregation t n) s m := by
  simp only [addProcessed, TelemetryAggregation.mk.injEq, true_and, and_true, earlier_comm _ m n,
    later_comm _ m n]
  constructor <;> omega

theorem addCompletedSavings_comm (a b : String) :
    addCompletedSavings (addCompletedSavings aggregation s a) t b =
      addCompletedSavings (addCompletedSavings aggregation t b) s a := by
  unfold addCompletedSavings
  split_ifs <;> simp only [TelemetryAggregation.mk.injEq, true_and]
  exact ⟨by omega, addSavings_comm ..⟩

/-- The parts of an addition change different fields. -/
theorem addMeasured_addProcessed (m : Time) :
    addMeasured (addProcessed aggregation s m) t = addProcessed (addMeasured aggregation t) s m := by
  unfold addMeasured
  split_ifs <;> rfl

theorem addMeasured_addCompletedSavings (a : String) :
    addMeasured (addCompletedSavings aggregation s a) t =
      addCompletedSavings (addMeasured aggregation t) s a := by
  unfold addMeasured addCompletedSavings
  split_ifs <;> rfl

theorem addProcessed_addCompletedSavings (a : String) (m : Time) :
    addProcessed (addCompletedSavings aggregation s a) t m =
      addCompletedSavings (addProcessed aggregation t m) s a := by
  unfold addCompletedSavings
  split_ifs <;> rfl

end Order

/-- The aggregation does not depend on the order of the rows. -/
theorem addJob_comm (aggregation : TelemetryAggregation) (job job' : CountedJob) :
    addJob (addJob aggregation job) job' = addJob (addJob aggregation job') job := by
  unfold addJob
  cases job.processedAt with
  | none =>
    cases job'.processedAt with
    | none => exact addMeasured_comm ..
    | some completedAt => simp only [addMeasured_addCompletedSavings, addMeasured_addProcessed,
        addMeasured_comm _ job.sizes]
  | some completedAt =>
    cases job'.processedAt with
    | none => simp only [addMeasured_addCompletedSavings, addMeasured_addProcessed,
        addMeasured_comm _ job.sizes]
    | some completedAt' =>
      simp only [addMeasured_addCompletedSavings, addMeasured_addProcessed,
        addProcessed_addCompletedSavings]
      rw [addMeasured_comm _ job.sizes, addProcessed_comm _ job.sizes, addCompletedSavings_comm]

/-- The aggregation over job rows. -/
def telemetry : Tally CountedJob TelemetryAggregation where
  empty := {}
  add := addJob
  comm := addJob_comm

/-! ## Rows that count the same -/

/-- A row that is neither measured nor processed does not count. -/
theorem CountedJob.silent {job : CountedJob} (hsizes : job.sizes.isMeasurable = false)
    (hprocessed : job.processedAt = none) : telemetry.Silent job := by
  intro aggregation
  simp [telemetry, addJob, addMeasured, hsizes, hprocessed]

/-- A running job has not been processed. -/
theorem Job.processedAt_of_not_successful {job : Job} (h : job.status.isSuccessful = false) :
    job.processedAt = none := by
  simp [processedAt, h]

theorem JobStatus.not_successful_of_isActive {status : JobStatus} (h : status.isActive = true) :
    status.isSuccessful = false := by
  cases status <;> first | rfl | cases h

end Encodr
