import Encodr.System.Steps
import Encodr.Worker.LoopControl

/-!
# The system with the local worker loop of the API

The system, with the control state of the `LocalWorkerLoop` in the process of the API. What the other
parts do is an action of the system. A request to cancel a job that runs in a local worker is answered
from the control state, and a run of `ffmpeg` in the loop ends the way its process and the noted requests
say. A request that is refused draws no id.

* `LoopState`, `LoopAction`, `loopStep`: the system with the loop; `loopMachine` is the transition system.
* `LoopState.cancelJob`: a request of an operator, its answer and the state after it.
* `State.Spent`: a job that the loop will not encode any more; `loopStep_spent`: it stays so.
-/

namespace Encodr

open Python Lib

variable {C : Type}

/-! ## States and actions -/

namespace Execution

variable (x : Execution)

/-- It runs in the loop of the API. -/
def inLoop : Bool :=
  x.workerType == .local && x.inApi

/-- It runs `ffmpeg` in the loop: its plan has something to run, and its source is no file of the
program. -/
def encodes : Bool :=
  x.inLoop && x.jobKind == .execution && (x.plan.action == .remux || x.plan.action == .transcode) &&
    !isEncodrExcludedPath x.sourcePath

/-- Its run of `ffmpeg` has not ended. -/
def mayEncode : Bool :=
  x.encodes && (x.phase == .claimed || x.phase == .running)

end Execution

structure LoopState where
  sys : State := {}
  control : LoopControl := {}
  processes : List FfmpegProcess := []
  /-- The jobs between `_set_active_job` and `_clear_active_job`. -/
  entered : List JobId := []

inductive LoopAction (C : Type) where
  /-- An action of the rest of the system, or of an execution outside of the control of the loop. -/
  | other (a : Action C)
  | cancelJob (uid : String) (now : Time) (jobId : JobId)
  /-- `_set_active_job`. -/
  | begin (jobId : JobId)
  /-- `FFmpegClient.run` starts its process. -/
  | start (jobId : JobId)
  /-- The process ends. -/
  | exit (jobId : JobId) (returncode : Int)
  | watch (jobId : JobId)
  /-- `FFmpegClient.run` ends. -/
  | finish (jobId : JobId) (startedAt now : Time)
  /-- `_clear_active_job`. -/
  | clear (jobId : JobId)
  /-- An exception leaves `run_once_with_summary`. -/
  | abort (jobId : JobId)
  /-- The process of the API starts again. -/
  | restart

/-! ## Steps -/

namespace LoopState

variable (s : LoopState)

/-- The operation is one of the loop: a request to cancel, or a step of an execution in the loop that
reads or writes the control state. A result is recorded after `_clear_active_job`. -/
def controls : Op C → Bool
  | .cancelJob _ _ => true
  | .work jobId w => (s.sys.execution jobId).any fun x => x.inLoop && match w with
    | .begin | .stop | .run (.staged _) _ | .run (.cancelled _ _) _ => true
    | .finishLocal _ => jobId ∈ s.entered
    | _ => false
  | _ => false

/-- The state after `request_cancel`, where `cancel_job` comes to it. -/
def ask (jobId : JobId) : LoopState :=
  if s.sys.db.asksLocalWorker jobId then { s with
    control := s.control.requestCancel jobId
    processes := s.control.requestTermination jobId s.processes }
  else s

/-- `cancel_job`: its answer, and the state after it. -/
def cancelJob (uid : String) (now : Time) (jobId : JobId) : Except ApiError Unit × LoopState :=
  match s.sys.db.cancelJob jobId (s.control.isActive jobId) now with
  | .ok db => (.ok (), { s.ask jobId with sys := { s.sys with db := db, issued := uid :: s.sys.issued } })
  | .error e => (.error e, s.ask jobId)

/-- The execution of the job runs `ffmpeg` in the loop. -/
def encoding (jobId : JobId) : Option Execution :=
  (s.sys.execution jobId).filter fun x => x.encodes && x.phase == .running

/-- The process of a job. -/
def process (jobId : JobId) : Option FfmpegProcess :=
  Table.find (·.jobId) jobId s.processes

def modifyProcess (jobId : JobId) (f : FfmpegProcess → FfmpegProcess) : LoopState :=
  { s with processes := Table.modify (·.jobId) jobId f s.processes }

/-- `_clear_active_job`, at the end of an execution. -/
def leave (jobId : JobId) : LoopState :=
  { s with
    control := s.control.clearActiveJob jobId
    processes := s.processes.filter fun process => process.jobId ≠ jobId
    entered := s.entered.filter fun id => id ≠ jobId }

/-- The phase after `FFmpegClient.run` of the execution `x`. -/
def finishedPhase (c : Settings) (x : Execution) (process : FfmpegProcess) (returncode : Int)
    (startedAt now : Time) : Option Phase :=
  let requested := s.control.cancelRequested x.jobId
  let output := buildTempOutputPath x.sourcePath c.scratchDir x.plan.container.targetContainer (some x.jobId)
  { x with cancelRequested := process.cancelled || requested }.afterRun
    (process.outcome returncode requested output c.scratchDir) startedAt now

end LoopState

/-- The step of an action. -/
def loopStep (c : Settings) (s : LoopState) : LoopAction C → Option LoopState
  | .other a =>
    if s.controls a.op then none else (step c s.sys a).map fun sys => { s with sys := sys }
  | .cancelJob uid now jobId =>
    if uid ∈ s.sys.issued then none else some (s.cancelJob uid now jobId).2
  | .begin jobId =>
    ((s.sys.execution jobId).filter fun x => x.inLoop && x.phase == .claimed).map fun x => { s with
      sys := s.sys.set { x with phase := .running }
      control := s.control.setActiveJob jobId
      entered := jobId :: s.entered }
  | .start jobId => do
    let _ ← s.encoding jobId
    match s.process jobId with
    | some _ => none
    | none => return { s with
        control := s.control.setActiveProcess jobId
        processes := s.control.startedProcess jobId :: s.processes }
  | .exit jobId returncode => do
    let _ ← (s.process jobId).filter (·.returncode = none)
    return s.modifyProcess jobId fun process => { process with returncode := some returncode }
  | .watch jobId => do
    let _ ← s.encoding jobId
    return s.modifyProcess jobId (·.watch (s.control.cancelRequested jobId))
  | .finish jobId startedAt now => do
    let x ← s.encoding jobId
    let process ← s.process jobId
    let returncode ← process.returncode
    let phase ← s.finishedPhase c x process returncode startedAt now
    return { s with sys := s.sys.set { x with phase := phase } }
  | .clear jobId => do
    let x ← (s.sys.execution jobId).filter (·.inLoop)
    match x.phase with
    | .finished _ => if jobId ∈ s.entered then return s.leave jobId else none
    | _ => none
  | .abort jobId => do
    let _ ← (s.sys.execution jobId).filter (·.inLoop)
    let left := if jobId ∈ s.entered then s.leave jobId else s
    return { left with sys := s.sys.without jobId }
  | .restart => some { sys := { s.sys with live := s.sys.live.filter fun x => !x.inLoop } }

variable (C) in
/-- The system with the loop, from empty tables. -/
def loopMachine (c : Settings) : Sys LoopState (LoopAction C) where
  init s := s = {}
  step := loopStep c

/-! ## What a step does to the system -/

/-- The tables stay, and no execution starts, or goes back before the run of `ffmpeg`. -/
structure State.Quiet (s s' : State) : Prop where
  db : s'.db = s.db
  issued : s'.issued = s.issued
  nodup : (s'.live.map (·.jobId)).Nodup
  live : ∀ x' ∈ s'.live, ∃ x ∈ s.live, x'.toClaim = x.toClaim ∧ x'.swept = x.swept ∧
    (x'.mayEncode = true → x.mayEncode = true)

section Steps

variable {c : Settings} {s s' : State} {jobId : JobId}

theorem Execution.encodes_of_claim {x x' : Execution} (h : x'.toClaim = x.toClaim) :
    x'.encodes = x.encodes := by
  simp only [encodes, inLoop, h]

theorem State.Quiet.refl (hI : s.Inv) : s.Quiet s :=
  ⟨rfl, rfl, hI.nodup, fun x hx => ⟨x, hx, rfl, rfl, id⟩⟩

theorem State.quiet_set (hI : s.Inv) {x y : Execution} (hx : x ∈ s.live) (hclaim : y.toClaim = x.toClaim)
    (hswept : y.swept = x.swept) (hmay : y.mayEncode = true → x.mayEncode = true) :
    s.Quiet (s.set y) := by
  refine ⟨rfl, rfl, nodup_set hI.nodup y, fun x' hx' => ?_⟩
  rcases State.mem_set hx' with rfl | ⟨hmem, -⟩
  · exact ⟨x, hx, hclaim, hswept, hmay⟩
  · exact ⟨x', hmem, rfl, rfl, id⟩

theorem State.quiet_filter (hI : s.Inv) (p : Execution → Bool) :
    s.Quiet { s with live := s.live.filter p } :=
  ⟨rfl, rfl, hI.nodup.sublist (List.filter_sublist.map _),
    fun x hx => ⟨x, List.mem_of_mem_filter hx, rfl, rfl, id⟩⟩

/-- The invariant does not depend on how far an execution is. -/
theorem State.Quiet.inv (h : s.Quiet s') (hI : s.Inv) : s'.Inv where
  sound := by
    rw [h.db, h.issued]
    exact hI.sound
  nodup := h.nodup
  rows x' hx' := by
    obtain ⟨x, hx, hclaim, hswept, -⟩ := h.live x' hx'
    obtain ⟨job, hrow⟩ := hI.rows x hx
    rw [h.db, h.issued, hclaim, hswept]
    exact ⟨job, hrow⟩

/-- After a run the execution does not encode any more. -/
theorem Execution.mayEncode_afterRun {x y : Execution} {outcome : RunOutcome} {startedAt now : Time} {phase : Phase}
    (h : y.afterRun outcome startedAt now = some phase) : ({ x with phase := phase } : Execution).mayEncode = false := by
  obtain ⟨-, ⟨output, rfl, -⟩ | ⟨result, rfl, -⟩⟩ := afterRun_eq_some h
  · simp [mayEncode]
  · simp [mayEncode]

theorem LoopState.encoding_eq_some {s : LoopState} {x : Execution} (h : s.encoding jobId = some x) :
    x ∈ s.sys.live ∧ x.jobId = jobId ∧ x.encodes = true ∧ x.phase = .running := by
  obtain ⟨hx, hencodes⟩ := Option.filter_eq_some_iff.mp h
  simp only [Bool.and_eq_true, beq_iff_eq] at hencodes
  have hkey := List.find?_some hx
  exact ⟨Table.mem_of_find hx, of_decide_eq_true hkey, hencodes⟩

theorem LoopState.cancelJob_ok {s : LoopState} {uid : String} {now : Time} {db : Database}
    (h : s.sys.db.cancelJob jobId (s.control.isActive jobId) now = .ok db) :
    s.cancelJob uid now jobId =
      (.ok (), { s.ask jobId with sys := { s.sys with db := db, issued := uid :: s.sys.issued } }) := by
  simp only [cancelJob, h]

theorem LoopState.cancelJob_error {s : LoopState} {uid : String} {now : Time} {e : ApiError}
    (h : s.sys.db.cancelJob jobId (s.control.isActive jobId) now = .error e) :
    s.cancelJob uid now jobId = (.error e, s.ask jobId) := by
  simp only [cancelJob, h]

@[simp] theorem LoopState.ask_sys (s : LoopState) (jobId : JobId) : (s.ask jobId).sys = s.sys := by
  unfold ask
  split <;> rfl

/-- A step of the system with the loop is a move of the system, or changes no table. -/
theorem loopStep_cases {s s' : LoopState} {a : LoopAction C} (hI : s.sys.Inv)
    (h : loopStep c s a = some s') :
    (∃ (b : Action C) (s₁ : State), b.uid ∉ s.sys.issued ∧ Move c s.sys b s₁ ∧
      s'.sys = { s₁ with issued := b.uid :: s.sys.issued }) ∨ s.sys.Quiet s'.sys := by
  cases a with
  | other a =>
    simp only [loopStep] at h
    split at h
    · cases h
    · obtain ⟨sys, hstep, rfl⟩ := Option.map_eq_some_iff.mp h
      obtain ⟨hfresh, s₁, hmove, rfl⟩ := step_move hI.sound hstep
      exact .inl ⟨a, s₁, hfresh, hmove, rfl⟩
  | cancelJob uid now jobId =>
    simp only [loopStep] at h
    split at h
    · cases h
    · next hfresh =>
      obtain rfl := Option.some.inj h
      cases hcancel : s.sys.db.cancelJob jobId (s.control.isActive jobId) now with
      | ok db =>
        rw [LoopState.cancelJob_ok hcancel]
        let b : Action C := { uid := uid, now := now, op := .cancelJob jobId false }
        exact .inl ⟨b, _, hfresh, .manage (Database.cancelJob_evolves hI.sound hfresh hcancel) none_created, rfl⟩
      | error e =>
        rw [LoopState.cancelJob_error hcancel, LoopState.ask_sys]
        exact .inr (.refl hI)
  | begin jobId =>
    obtain ⟨x, hx, rfl⟩ := Option.map_eq_some_iff.mp h
    obtain ⟨hx, hphase⟩ := Option.filter_eq_some_iff.mp hx
    simp only [Bool.and_eq_true, beq_iff_eq] at hphase
    refine .inr (State.quiet_set hI (Table.mem_of_find hx) rfl rfl fun h => ?_)
    simp only [Execution.mayEncode, Bool.and_eq_true] at h ⊢
    exact ⟨h.1, by rw [hphase.2]; rfl⟩
  | start jobId =>
    simp only [loopStep, bind, Option.bind_eq_some_iff] at h
    obtain ⟨x, -, h⟩ := h
    split at h
    · cases h
    · obtain rfl := Option.some.inj h
      exact .inr (.refl hI)
  | exit jobId returncode =>
    simp only [loopStep, bind, Option.bind_eq_some_iff] at h
    obtain ⟨process, -, h⟩ := h
    obtain rfl := Option.some.inj h
    exact .inr (.refl hI)
  | watch jobId =>
    simp only [loopStep, bind, Option.bind_eq_some_iff] at h
    obtain ⟨x, -, h⟩ := h
    obtain rfl := Option.some.inj h
    exact .inr (.refl hI)
  | finish jobId startedAt now =>
    simp only [loopStep, bind, Option.bind_eq_some_iff] at h
    obtain ⟨x, hx, process, -, returncode, -, phase, hphase, h⟩ := h
    obtain rfl := Option.some.inj h
    refine .inr (State.quiet_set hI (LoopState.encoding_eq_some hx).1 rfl rfl fun h => ?_)
    rw [Execution.mayEncode_afterRun hphase] at h
    cases h
  | clear jobId =>
    simp only [loopStep, bind, Option.bind_eq_some_iff] at h
    obtain ⟨x, -, h⟩ := h
    split at h
    · split at h
      · obtain rfl := Option.some.inj h
        exact .inr (.refl hI)
      · cases h
    · cases h
  | abort jobId =>
    simp only [loopStep, bind, Option.bind_eq_some_iff] at h
    obtain ⟨x, -, h⟩ := h
    obtain rfl := Option.some.inj h
    exact .inr (State.quiet_filter hI _)
  | restart =>
    obtain rfl := Option.some.inj h
    exact .inr (State.quiet_filter hI _)

/-! ## Invariants -/

/-- The requests that the watchers of processes have found are noted. -/
def Noted (processes : List FfmpegProcess) (requested : Finset JobId) : Prop :=
  ∀ process ∈ processes, process.cancelled = true → process.jobId ∈ requested

theorem Noted.modify {processes : List FfmpegProcess} {requested : Finset JobId} {f : FfmpegProcess → FfmpegProcess}
    (h : Noted processes requested) (hid : ∀ process, (f process).jobId = process.jobId)
    (hf : ∀ process, process.jobId = jobId → (f process).cancelled = true → process.cancelled = true ∨
      jobId ∈ requested) : Noted (Table.modify (·.jobId) jobId f processes) requested := by
  intro process hmem hcancelled
  obtain ⟨old, hold, rfl⟩ := Table.mem_modify.mp hmem
  split at hcancelled
  · next hkey =>
    rw [if_pos hkey, hid]
    rcases hf old hkey hcancelled with hfound | hrequested
    · exact h old hold hfound
    · exact hkey ▸ hrequested
  · next hkey =>
    rw [if_neg hkey]
    exact h old hold hcancelled

theorem FfmpegProcess.terminate_cancelled (process : FfmpegProcess) :
    process.terminate.jobId = process.jobId ∧ process.terminate.cancelled = process.cancelled := by
  unfold terminate
  split <;> exact ⟨rfl, rfl⟩

theorem FfmpegProcess.watch_jobId (process : FfmpegProcess) (requested : Bool) :
    (process.watch requested).jobId = process.jobId := by
  unfold watch
  split
  · exact process.terminate_cancelled.1
  · rfl

/-- A round of the watcher finds a request that is there. -/
theorem FfmpegProcess.watch_cancelled {process : FfmpegProcess} {requested : Bool}
    (h : (process.watch requested).cancelled = true) : process.cancelled = true ∨ requested = true := by
  unfold watch at h
  split at h
  · next hfound => exact .inr hfound.2
  · exact .inl h

theorem LoopControl.requestTermination_noted {control : LoopControl} {processes : List FfmpegProcess}
    {requested : Finset JobId} (h : Noted processes requested) :
    Noted (control.requestTermination jobId processes) requested := by
  unfold requestTermination
  split
  · split
    · refine h.modify (fun process => process.terminate_cancelled.1) fun process _ hcancelled => .inl ?_
      rwa [process.terminate_cancelled.2] at hcancelled
    · exact h
  · exact h

theorem LoopState.leave_noted {s : LoopState} (h : Noted s.processes s.control.cancelRequestedJobIds) :
    Noted (s.leave jobId).processes (s.leave jobId).control.cancelRequestedJobIds := by
  intro process hmem hcancelled
  obtain ⟨hmem, hne⟩ := List.mem_filter.mp hmem
  exact Finset.mem_erase.mpr ⟨of_decide_eq_true hne, h process hmem hcancelled⟩

theorem LoopState.ask_noted {s : LoopState} (h : Noted s.processes s.control.cancelRequestedJobIds) :
    Noted (s.ask jobId).processes (s.ask jobId).control.cancelRequestedJobIds := by
  unfold ask
  split
  · refine LoopControl.requestTermination_noted fun process hmem hcancelled => ?_
    exact Finset.mem_insert_of_mem (h process hmem hcancelled)
  · exact h

/-- The tables and executions meet the invariant of the system, and what watchers have found is noted. -/
structure LoopState.Inv (s : LoopState) : Prop where
  sys : s.sys.Inv
  noted : Noted s.processes s.control.cancelRequestedJobIds

/-- The invariant of the system is kept. -/
theorem loopStep_sysInv {s s' : LoopState} {a : LoopAction C} (hI : s.sys.Inv)
    (h : loopStep c s a = some s') : s'.sys.Inv := by
  rcases loopStep_cases hI h with ⟨b, s₁, hfresh, hmove, hsys⟩ | hquiet
  · rw [hsys]
    exact hI.move hfresh hmove
  · exact hquiet.inv hI

theorem LoopState.Inv.step {s s' : LoopState} {a : LoopAction C} (hI : s.Inv)
    (h : loopStep c s a = some s') : s'.Inv := by
  refine ⟨loopStep_sysInv hI.sys h, ?_⟩
  cases a with
  | other a =>
    simp only [loopStep] at h
    split at h
    · cases h
    · obtain ⟨sys, -, rfl⟩ := Option.map_eq_some_iff.mp h
      exact hI.noted
  | cancelJob uid now jobId =>
    simp only [loopStep] at h
    split at h
    · cases h
    · obtain rfl := Option.some.inj h
      cases hcancel : s.sys.db.cancelJob jobId (s.control.isActive jobId) now with
      | ok db =>
        rw [LoopState.cancelJob_ok hcancel]
        exact LoopState.ask_noted hI.noted
      | error e =>
        rw [LoopState.cancelJob_error hcancel]
        exact LoopState.ask_noted hI.noted
  | begin jobId =>
    obtain ⟨x, -, rfl⟩ := Option.map_eq_some_iff.mp h
    exact hI.noted
  | start jobId =>
    simp only [loopStep, bind, Option.bind_eq_some_iff] at h
    obtain ⟨x, -, h⟩ := h
    split at h
    · cases h
    · obtain rfl := Option.some.inj h
      -- a new process has no watcher yet
      intro process hmem hcancelled
      rcases List.mem_cons.mp hmem with rfl | hmem
      · unfold LoopControl.startedProcess at hcancelled
        split at hcancelled
        · rw [(FfmpegProcess.terminate_cancelled _).2] at hcancelled
          cases hcancelled
        · cases hcancelled
      · exact hI.noted process hmem hcancelled
  | exit jobId returncode =>
    simp only [loopStep, bind, Option.bind_eq_some_iff] at h
    obtain ⟨process, -, h⟩ := h
    obtain rfl := Option.some.inj h
    exact hI.noted.modify (fun _ => rfl) fun _ _ hcancelled => .inl hcancelled
  | watch jobId =>
    simp only [loopStep, bind, Option.bind_eq_some_iff] at h
    obtain ⟨x, -, h⟩ := h
    obtain rfl := Option.some.inj h
    refine hI.noted.modify (fun process => process.watch_jobId _) fun process _ hcancelled => ?_
    exact (FfmpegProcess.watch_cancelled hcancelled).imp_right of_decide_eq_true
  | finish jobId startedAt now =>
    simp only [loopStep, bind, Option.bind_eq_some_iff] at h
    obtain ⟨x, -, process, -, returncode, -, phase, -, h⟩ := h
    obtain rfl := Option.some.inj h
    exact hI.noted
  | clear jobId =>
    simp only [loopStep, bind, Option.bind_eq_some_iff] at h
    obtain ⟨x, -, h⟩ := h
    split at h
    · split at h
      · obtain rfl := Option.some.inj h
        exact LoopState.leave_noted hI.noted
      · cases h
    · cases h
  | abort jobId =>
    simp only [loopStep, bind, Option.bind_eq_some_iff] at h
    obtain ⟨x, -, h⟩ := h
    obtain rfl := Option.some.inj h
    dsimp only
    split
    · exact LoopState.leave_noted hI.noted
    · exact hI.noted
  | restart =>
    obtain rfl := Option.some.inj h
    exact fun _ hmem => absurd hmem List.not_mem_nil

theorem LoopState.Inv.of_reach {R : LoopState → LoopAction C → Prop} {s : LoopState}
    (h : (loopMachine C c).Reach R s) : s.Inv := by
  induction h with
  | init h =>
    obtain rfl : _ = ({} : LoopState) := h
    exact ⟨⟨Database.Sound.empty, List.nodup_nil, fun _ hx => absurd hx List.not_mem_nil⟩,
      fun _ hmem => absurd hmem List.not_mem_nil⟩
  | step a _ _ h hI => exact hI.step h

/-! ## Jobs that the loop will not encode -/

/-- The job does not wait for a worker. -/
def JobStatus.isTaken (status : JobStatus) : Bool :=
  status != .pending && status != .scheduled

theorem JobStatus.isTaken_of_mayBecome {status status' : JobStatus} (h : status.mayBecome status' = true)
    (htaken : status.isTaken = true) : status'.isTaken = true := by
  cases status <;> cases status' <;>
    first | rfl | exact absurd htaken (by decide) | exact absurd h (by decide)

/-- The job was taken, and no execution of it in the loop is before the end of its run of `ffmpeg`. -/
structure State.Spent (s : State) (jobId : JobId) : Prop where
  row : ∃ job ∈ s.db.jobs, job.id = jobId ∧ job.status.isTaken = true
  live : ∀ x ∈ s.live, x.jobId = jobId → x.mayEncode = false

/-- A job that was taken does not wait again. -/
theorem RowMove.isTaken {s s' : State} {a : Action C} {job job' : Job} (h : RowMove c s a s' job job')
    (htaken : job.status.isTaken = true) : job'.status.isTaken = true := by
  cases h with
  | managed _ h => exact JobStatus.isTaken_of_mayBecome h.status htaken
  | approved _ _ h => exact JobStatus.isTaken_of_mayBecome h.status htaken
  | swept => rfl
  | claimed => rfl
  | @recorded _ _ _ result status _ _ _ _ hstatus h =>
    rw [h.status]
    rcases hstatus with rfl | ⟨-, rfl⟩
    · cases result.status <;> rfl
    · rfl

theorem Execution.mayEncode_iff {x : Execution} :
    x.mayEncode = true ↔ x.encodes = true ∧ (x.phase = .claimed ∨ x.phase = .running) := by
  simp [mayEncode]

theorem Execution.local_of_encodes {x : Execution} (h : x.encodes = true) : x.workerType = .local := by
  simp only [encodes, inLoop, Bool.and_eq_true, beq_iff_eq] at h
  exact h.1.1.1.1

/-- No step takes an execution in the loop back before the end of its run of `ffmpeg`. -/
theorem Execution.Advance.mayEncode {x : Execution} {now : Time} {phase : Phase} {events : List Event}
    (h : x.Advance C now phase events) (hencodes : x.encodes = true)
    (hphase' : phase = .claimed ∨ phase = .running) : x.mayEncode = true := by
  rw [Execution.mayEncode_iff]
  refine ⟨hencodes, ?_⟩
  cases h with
  | begin hphase => exact .inl hphase
  | run h => exact .inr (Execution.afterRun_eq_some h).1
  | cancel => simp at hphase'
  | verify =>
    simp only [Execution.afterVerification] at hphase'
    split at hphase'
    · simp at hphase'
    · split at hphase' <;> simp at hphase'
  | place =>
    simp only [Execution.afterPlacement] at hphase'
    split at hphase'
    · split at hphase' <;> simp at hphase'
    · simp at hphase'
  | refuse _ htype => cases htype.symm.trans (Execution.local_of_encodes hencodes)
  | fail _ htype => cases htype.symm.trans (Execution.local_of_encodes hencodes)

theorem Execution.Report.mayEncode {x : Execution} {now : Time} {cancel : Bool} {phase : Phase}
    {events : List Event} (h : x.Report now cancel phase events) (hencodes : x.encodes = true)
    (hphase' : phase = .claimed ∨ phase = .running) : x.mayEncode = true := by
  rw [Execution.mayEncode_iff]
  refine ⟨hencodes, ?_⟩
  cases h with
  | begin hphase => exact .inl hphase
  | progress hphase => exact .inr hphase
  | proceed hnext =>
    unfold Execution.nextReport at hnext
    split at hnext
    · cases hnext
      simp at hphase'
    · cases hnext
      simp at hphase'
    · cases hnext

/-- After a move, an execution that may still encode was there, or its job waited. -/
theorem ExecutionMove.mayEncode {s s' : State} {a : Action C} {x' : Execution}
    (h : ExecutionMove c s a s' x') (hmay : x'.mayEncode = true) :
    (∃ x ∈ s.live, x.jobId = x'.jobId ∧ x.mayEncode = true) ∨
      ∃ job ∈ s.db.jobs, job.id = x'.jobId ∧ job.status = .pending := by
  have hparts := Execution.mayEncode_iff.mp hmay
  cases h with
  | @kept x hx claim phase _ _ =>
    refine .inl ⟨x, hx, by rw [claim], ?_⟩
    rw [Execution.mayEncode_iff, ← Execution.encodes_of_claim claim, ← phase]
    exact hparts
  | claimed hj pending hid => exact .inr ⟨_, hj, hid.symm, pending⟩
  | @advanced x phase _ hx h _ heq =>
    subst heq
    exact .inl ⟨x, hx, rfl, h.mayEncode hparts.1 hparts.2⟩
  | @reported x _ phase _ hx h _ _ heq =>
    subst heq
    exact .inl ⟨x, hx, rfl, h.mayEncode hparts.1 hparts.2⟩

/-- A job that the loop will not encode stays one in every step. -/
theorem loopStep_spent {s s' : LoopState} {a : LoopAction C} (hI : s.sys.Inv)
    (h : loopStep c s a = some s') (hspent : s.sys.Spent jobId) : s'.sys.Spent jobId := by
  obtain ⟨⟨job, hj, hid, htaken⟩, hlive⟩ := hspent
  rcases loopStep_cases hI h with ⟨b, s₁, hfresh, hmove, hsys⟩ | hquiet
  · rw [hsys]
    obtain ⟨new, hevolves⟩ := hmove.evolves hI
    obtain ⟨job', hj', hkept⟩ := hevolves.changed hj
    have hid' := Job.id_of_terms hkept.terms
    refine ⟨⟨job', hj', hid'.trans hid, (hmove.row hI hfresh hj hj' hid').isTaken htaken⟩, fun x' hx' hjob => ?_⟩
    by_contra hmay
    rcases (hmove.execution hx').mayEncode (eq_true_of_ne_false hmay) with
      ⟨x, hx, hxid, hxmay⟩ | ⟨row, hrow, hrowid, hpending⟩
    · rw [hlive x hx (hxid.trans hjob)] at hxmay
      cases hxmay
    · obtain rfl := hI.sound.eq_of_id hrow hj (hrowid.trans (hjob.trans hid.symm))
      rw [hpending] at htaken
      cases htaken
  · refine ⟨⟨job, hquiet.db ▸ hj, hid, htaken⟩, fun x' hx' hjob => ?_⟩
    obtain ⟨x, hx, hclaim, -, hmay⟩ := hquiet.live x' hx'
    have hxid : x.jobId = jobId := (congrArg Claim.jobId hclaim).symm.trans hjob
    by_contra hx'may
    exact absurd (hmay (eq_true_of_ne_false hx'may)) (by simp [hlive x hx hxid])

end Steps

end Encodr
