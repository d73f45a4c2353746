import Encodr.Db.Database
import Encodr.Execution.FfmpegBuilder
import Encodr.Execution.Safety
import Encodr.Replacement.Success
import Encodr.Verification.Rules

/-!
# Executions

The execution of a claimed job by the local worker (`WorkerExecutionService`) or by the agent of a
remote worker (`worker-agent`). Both run the plan, report that they verify the staged output, verify
it, report that they place it, and place it. Both look for a requested cancellation while `ffmpeg`
runs; the agent also looks before it starts, before its two reports, and before it verifies.

What the world decides is an input: how the run of `ffmpeg` ends, what the staged output turns out
to be, the answer of `evaluate_execution_safety`, and the files and faults of a placement.

* `Claim`, `Execution`, `Phase`: a claimed job, its execution and how far it is.
* `Execution.afterBegin`, `afterRun`, `afterVerification`, `afterPlacement`: its steps.
* `Execution.nextReport`, `cancelledAt`: its reports of a stage, and where it looks for a
  cancellation.
-/

namespace Encodr

open Python Lib

/-- An output that the runner staged. -/
structure StagedOutput where
  path : PosixPath
  startedAt : Time
deriving DecidableEq

/-- How far an execution is. -/
inductive Phase where
  | claimed
  | running
  | staged (output : StagedOutput)
  | verifying (output : StagedOutput)
  | verified (output : StagedOutput) (verification : VerificationResult)
  | replacing (output : StagedOutput) (verification : VerificationResult)
  /-- The execution has its result. -/
  | finished (result : ExecutionResult)
  /-- The agent has an error to report. -/
  | failing (message category : String)
deriving DecidableEq

/-- What a worker has of a job that it has claimed. -/
structure Claim where
  jobId : JobId
  trackedFileId : FileId
  jobKind : JobKind
  workerId : WorkerId
  workerType : WorkerType
  /-- The hash of the token that the agent presents. -/
  tokenHash : String
  plan : ProcessingPlan
  /-- The probe of the source; the probe of a discovered backup describes no media file. -/
  media : Option MediaFile
  /-- The path of the source on the worker. -/
  sourcePath : PosixPath
  /-- It runs in the process of the API, where a cancellation reaches the local worker. -/
  inApi : Bool
deriving DecidableEq

/-- The execution of a claimed job, and how far it is. -/
structure Execution extends Claim where
  /-- The worker knows of a requested cancellation. -/
  cancelRequested : Bool := false
  phase : Phase := .claimed
  /-- The sweep has interrupted the job since it was claimed. -/
  swept : Bool := false
deriving DecidableEq

/-! ## Results -/

/-- A result without an output. -/
def bareResult (status : ExecutionStatus) (message category : Option String)
    (startedAt completedAt : Time) : ExecutionResult where
  status := status
  failureMessage := message
  failureCategory := category
  startedAt := startedAt
  completedAt := completedAt

/-- `_cancelled_result`. -/
def cancelledResult (output : Option PosixPath) (message : String) (startedAt completedAt : Time) :
    ExecutionResult :=
  { bareResult .cancelled (some message) (some "cancelled_by_operator") startedAt completedAt with
    outputPath := output
    verification := some .notRequired
    replacement := some { status := .notRequired } }

/-- How the run of a plan ends. -/
inductive RunOutcome where
  /-- `ffmpeg` wrote the output. -/
  | staged (scratchDir : PosixPath)
  /-- The plan has nothing to run: it skips, or asks for a manual review. -/
  | notNeeded
  /-- The source is a file of the program itself (`_blocked_artifact_result`). -/
  | blocked (reason : String)
  | cancelled (output : Option PosixPath) (message : String)
  | failed (message category : String)
  /-- A dry run has been analysed. -/
  | analysed

/-- The output of a dry run. -/
def analysedResult (startedAt completedAt : Time) : ExecutionResult :=
  { bareResult .completed none none startedAt completedAt with
    verification := some .notRequired
    replacement := some { status := .notRequired } }

/-- `_cancelled_result_from_staged`. -/
def StagedOutput.cancelledResult (output : StagedOutput) (message : String)
    (verification : VerificationResult) (now : Time) : ExecutionResult :=
  { Encodr.cancelledResult (some output.path) message output.startedAt now with
    verification := some verification }

/-- The result of a staged output that is not placed. -/
def StagedOutput.result (output : StagedOutput) (status : ExecutionStatus) (message category : String)
    (verification : VerificationResult) (replacement : ReplacementResult) (now : Time) :
    ExecutionResult where
  status := status
  outputPath := some output.path
  finalOutputPath := replacement.finalOutputPath
  originalBackupPath := replacement.originalBackupPath
  failureMessage := some message
  failureCategory := some category
  verification := some verification
  replacement := some replacement
  startedAt := output.startedAt
  completedAt := now

/-- The result of a placed output. -/
def StagedOutput.placedResult (output : StagedOutput) (verification : VerificationResult)
    (replacement : ReplacementResult) (now : Time) : ExecutionResult where
  status := .completed
  outputPath := some output.path
  finalOutputPath := replacement.finalOutputPath
  originalBackupPath := replacement.originalBackupPath
  verification := some verification
  replacement := some replacement
  startedAt := output.startedAt
  completedAt := now

/-- The replacement of a placement that raised. -/
def unexpectedFailure (sourcePath stagedOutputPath : PosixPath) : ReplacementResult where
  status := .failed
  failureMessage := some "Verified output placement failed unexpectedly."
  details := [("operation", .str "place_verified_output"), ("source_path", .str sourcePath.asPosix),
    ("staged_output_path", .str stagedOutputPath.asPosix)]

/-! ## Steps -/

namespace Execution

variable (x : Execution)

/-- The agent looks for a requested cancellation and finds one. -/
def cancels : Bool :=
  x.workerType == .remote && x.cancelRequested

/-- The local worker can be asked to cancel: it has begun. -/
def cancellable : Bool :=
  x.workerType == .local && x.inApi && x.phase != .claimed

/-- The phase after the start; `cancel` is whether the first report says that a cancellation is
requested. -/
def afterBegin (cancel : Bool) (now : Time) : Phase :=
  if cancel then
    .finished (cancelledResult none "Cancellation was requested before remote execution started."
      now now)
  else .running

/-- The phase after the run. A staged output is given up where a cancellation is requested. -/
def afterRun (outcome : RunOutcome) (startedAt now : Time) : Option Phase :=
  match x.phase, outcome with
  | .running, .staged scratchDir =>
    if x.cancelRequested = false ∧ x.jobKind = .execution ∧ x.media.isSome ∧
        (x.plan.action = .remux ∨ x.plan.action = .transcode) then
      some (.staged {
        path := buildTempOutputPath x.sourcePath scratchDir x.plan.container.targetContainer
          (some x.jobId)
        startedAt := startedAt })
    else none
  | .running, .notNeeded =>
    match x.plan.action with
    | .skip => some (.finished (bareResult .skipped none none startedAt now))
    | .manualReview => some (.finished (bareResult .manualReview none none startedAt now))
    | _ => none
  | .running, .blocked reason => some (.finished
      { bareResult .skipped (some reason) (some "excluded_encodr_artifact") startedAt now with
        verification := some .notRequired
        replacement := some { status := .notRequired } })
  | .running, .cancelled output message =>
    if x.cancelRequested then
      let result := cancelledResult output message startedAt now
      some (.finished (match x.workerType with
        | .local => { result with verification := none, replacement := none }
        | .remote => result))
    else none
  | .running, .failed message category =>
    let result := bareResult .failed (some message) (some category) startedAt now
    some (.finished (if x.jobKind = .dryRun then { result with
        verification := some .notRequired
        replacement := some { status := .notRequired } } else result))
  | .running, .analysed =>
    if x.jobKind = .dryRun then some (.finished (analysedResult startedAt now)) else none
  | _, _ => none

/-- The report of a stage, with its percentage and the phase after it. -/
def nextReport : Option (String × Rat × Phase) :=
  match x.phase with
  | .staged output => some ("verifying", 95, .verifying output)
  | .verified output verification => some ("replacing", 98, .replacing output verification)
  | _ => none

/-- The result of an agent that finds a cancellation before its next step. -/
def cancelledAt (now : Time) : Option ExecutionResult :=
  if x.cancels then
    match x.phase with
    | .staged output => some (output.cancelledResult
        "Cancellation was requested before output verification or replacement." .notRequired now)
    | .verifying output => some (output.cancelledResult
        "Cancellation was requested before output verification." .notRequired now)
    | .verified output verification => some (output.cancelledResult
        "Cancellation was requested before verified output replacement." verification now)
    | _ => none
  else none

/-- The first failure of a verification. -/
def failureMessage (verification : VerificationResult) : String :=
  match verification.failures with
  | failure :: _ => failure.message
  | [] => "Output verification failed."

/-- The phase after `output` has been verified; `safety` is the answer of the safety rules. -/
def afterVerification (output : StagedOutput) (verification : VerificationResult)
    (safety : Option SafetyFailure) (now : Time) : Phase :=
  if verification.passed = false then
    .finished (output.result .failed (failureMessage verification) "verification_failed"
      verification { status := .notRequired } now)
  else match safety with
    | some failure => .finished (output.result .manualReview failure.message failure.category
        verification { status := .notRequired } now)
    | none => .verified output verification

/-- The phase after the placement of `output` gave `placement`. -/
def afterPlacement (output : StagedOutput) (verification : VerificationResult)
    (placement : Except Raised ReplacementResult) (now : Time) : Phase :=
  match placement with
  | .ok replacement =>
    if replacement.status = .succeeded then
      .finished (output.placedResult verification replacement now)
    else .finished (output.result .failed
      (textOr replacement.failureMessage "Verified output placement failed.")
      "replacement_failed" verification replacement now)
  | .error _ => .finished (output.result .failed "Verified output placement failed unexpectedly."
      "replacement_failed" verification (unexpectedFailure x.sourcePath output.path) now)

/-- The phase after a report of the agent was refused: a run fails, later the agent fails. -/
def afterRefusal (message : String) (now : Time) : Phase :=
  match x.phase with
  | .running => .finished (bareResult .failed (some message) (some "execution_failed") now now)
  | _ => .failing message "worker_agent_error"

/-! ## What the steps do -/

section Specs

variable {x : Execution} {outcome : RunOutcome} {startedAt now : Time} {phase : Phase}

/-- A run stages an output, where no cancellation is requested, or ends with a result that verified
nothing; only a dry run is completed by it. -/
theorem afterRun_eq_some (h : x.afterRun outcome startedAt now = some phase) :
    x.phase = .running ∧
      ((∃ output, phase = .staged output ∧ x.cancelRequested = false) ∨
        ∃ result, phase = .finished result ∧ (result.status = .completed → x.jobKind = .dryRun) ∧
          verificationStatusForResult result ≠ .passed) := by
  unfold afterRun at h
  split at h
  · next hphase =>
    split at h
    · next hstages =>
      exact ⟨hphase, .inl ⟨_, (Option.some.inj h).symm, hstages.1⟩⟩
    · cases h
  · next hphase =>
    split at h
    · exact ⟨hphase, .inr ⟨_, (Option.some.inj h).symm, nofun, nofun⟩⟩
    · exact ⟨hphase, .inr ⟨_, (Option.some.inj h).symm, nofun, nofun⟩⟩
    · cases h
  · next hphase => exact ⟨hphase, .inr ⟨_, (Option.some.inj h).symm, nofun, nofun⟩⟩
  · next hphase =>
    split at h
    · refine ⟨hphase, .inr ⟨_, (Option.some.inj h).symm, ?_⟩⟩
      split <;> exact ⟨nofun, nofun⟩
    · cases h
  · next hphase =>
    refine ⟨hphase, .inr ⟨_, (Option.some.inj h).symm, ?_⟩⟩
    split <;> exact ⟨nofun, nofun⟩
  · next hphase =>
    split at h
    · next hkind => exact ⟨hphase, .inr ⟨_, (Option.some.inj h).symm, fun _ => hkind, nofun⟩⟩
    · cases h
  · cases h

/-- An agent that finds a cancellation ends with a cancelled result, which is verified where the
output was. -/
theorem cancelledAt_eq_some {result : ExecutionResult} (h : x.cancelledAt now = some result) :
    result.status = .cancelled ∧ (verificationStatusForResult result = .passed →
      ∃ output verification, x.phase = .verified output verification) := by
  unfold cancelledAt at h
  split at h
  · split at h
    · exact Option.some.inj h ▸ ⟨rfl, nofun⟩
    · exact Option.some.inj h ▸ ⟨rfl, nofun⟩
    · next output verification hphase => exact Option.some.inj h ▸ ⟨rfl, fun _ => ⟨output, verification, hphase⟩⟩
    · cases h
  · cases h

/-- An agent that knows of a cancellation finds it before it verifies. -/
theorem cancels_of_cancelledAt {output : StagedOutput} (hphase : x.phase = .verifying output)
    (h : x.cancelledAt now = none) : x.cancels = false := by
  by_contra hcancels
  simp [cancelledAt, hphase, eq_true_of_ne_false hcancels] at h

/-- A verification passes, or ends the execution with its verdict. -/
theorem afterVerification_cases (output : StagedOutput) (verification : VerificationResult)
    (safety : Option SafetyFailure) (now : Time) :
    (verification.passed = true ∧
      afterVerification output verification safety now = .verified output verification) ∨
    ∃ result, afterVerification output verification safety now = .finished result ∧
      result.status ≠ .completed ∧ result.verification = some verification := by
  unfold afterVerification
  split
  · exact .inr ⟨_, rfl, nofun, rfl⟩
  · next hpassed =>
    split
    · exact .inr ⟨_, rfl, nofun, rfl⟩
    · exact .inl ⟨eq_true_of_ne_false hpassed, rfl⟩

/-- A placement ends the execution. -/
theorem afterPlacement_eq (x : Execution) (output : StagedOutput) (verification : VerificationResult)
    (placement : Except Raised ReplacementResult) (now : Time) :
    ∃ result, x.afterPlacement output verification placement now = .finished result := by
  unfold afterPlacement
  split
  · split
    · exact ⟨_, rfl⟩
    · exact ⟨_, rfl⟩
  · exact ⟨_, rfl⟩

/-- A refused report fails the agent, or its run. -/
theorem afterRefusal_eq (x : Execution) (message : String) (now : Time) :
    (∃ category, x.afterRefusal message now = .failing message category) ∨
      ∃ result, x.afterRefusal message now = .finished result ∧ result.status = .failed ∧
        result.verification = none := by
  unfold afterRefusal
  split
  · exact .inr ⟨_, rfl, rfl, rfl⟩
  · exact .inl ⟨_, rfl⟩

end Specs

end Execution

end Encodr
