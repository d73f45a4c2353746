import Mathlib.Data.Finset.Erase
import Mathlib.Data.Finset.Insert
import Encodr.Worker.Execution

/-!
# The control state of the local worker loop

What a `LocalWorkerLoop` keeps in its process about the jobs that it executes: the active job with its
`ffmpeg` process, and the jobs that it was asked to cancel. The requests stand in a set that
`request_cancel` adds to, the start of a process and the watcher of `FFmpegClient.run` look at, and the
end of an execution takes the job out of.

* `FfmpegProcess`: a process of `FFmpegClient.run`, and what its watcher has found.
* `LoopControl`: `request_cancel`, `_set_active_job`, `_set_active_process`, `_clear_active_job`.
* `FfmpegProcess.outcome`: how `FFmpegClient.run` ends.
-/

namespace Encodr

open Python Lib

/-! ## Processes -/

/-- The process of a job. -/
structure FfmpegProcess where
  jobId : JobId
  /-- The exit code, where the process has ended. -/
  returncode : Option Int := none
  /-- It was asked to terminate. -/
  terminated : Bool := false
  /-- The watcher has found a cancellation. -/
  cancelled : Bool := false
deriving DecidableEq

namespace FfmpegProcess

variable (process : FfmpegProcess)

/-- A process that still runs is asked to terminate. -/
def terminate : FfmpegProcess :=
  if process.returncode = none then { process with terminated := true } else process

/-- A round of `cancellation_watcher`; `requested` is the answer of `cancel_requested`. -/
def watch (requested : Bool) : FfmpegProcess :=
  if process.returncode = none ∧ requested = true then { process.terminate with cancelled := true }
  else process

/-- How `FFmpegClient.run` ends with the exit code `returncode`; `requested` is the last answer of
`cancel_requested`. -/
def outcome (returncode : Int) (requested : Bool) (output scratchDir : PosixPath) : RunOutcome :=
  if process.cancelled || requested then .cancelled (some output) "Cancelled by operator."
  else if returncode ≠ 0 then .failed "ffmpeg returned a non-zero exit status." "execution_failed"
  else .staged scratchDir

end FfmpegProcess

/-! ## The control state -/

structure LoopControl where
  activeJobId : Option JobId := none
  /-- The job whose process is the active one. -/
  activeProcess : Option JobId := none
  cancelRequestedJobIds : Finset JobId := ∅
deriving DecidableEq

namespace LoopControl

variable (control : LoopControl) (jobId : JobId)

/-- `_cancel_requested`. -/
def cancelRequested : Bool :=
  jobId ∈ control.cancelRequestedJobIds

/-- The answer of `request_cancel`. -/
def isActive : Bool :=
  control.activeJobId = some jobId

/-- The control state after `request_cancel`. The request is noted before the answer is known. -/
def requestCancel : LoopControl :=
  { control with cancelRequestedJobIds := insert jobId control.cancelRequestedJobIds }

/-- The processes after `request_cancel`: that of the active job is asked to terminate. -/
def requestTermination (processes : List FfmpegProcess) : List FfmpegProcess :=
  if control.isActive jobId then
    match control.activeProcess with
    | some id => Table.modify (·.jobId) id FfmpegProcess.terminate processes
    | none => processes
  else processes

/-- `_set_active_job`. -/
def setActiveJob : LoopControl :=
  { control with activeJobId := some jobId, activeProcess := none }

/-- `_set_active_process`; the process is that of the job. -/
def setActiveProcess : LoopControl :=
  { control with activeJobId := some jobId, activeProcess := some jobId }

/-- The process that `_set_active_process` is told of, which it terminates where the job is to be
cancelled. -/
def startedProcess : FfmpegProcess :=
  if control.cancelRequested jobId then ({ jobId := jobId } : FfmpegProcess).terminate
  else { jobId := jobId }

/-- `_clear_active_job`. -/
def clearActiveJob : LoopControl where
  activeJobId := if control.activeJobId = some jobId then none else control.activeJobId
  activeProcess := if control.activeJobId = some jobId then none else control.activeProcess
  cancelRequestedJobIds := control.cancelRequestedJobIds.erase jobId

end LoopControl

end Encodr
