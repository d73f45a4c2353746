import Encodr.Db.BackupPolicy
import Encodr.Execution.FfmpegBuilder
import Encodr.Execution.RuntimeStatus
import Encodr.Worker.Analysis

/-!
# Whether a remote worker can run a job

The server approves a job for a remote worker from what the worker has reported and from the backend that
the job asks for. The agent of the worker selects the backend when it executes the job, from its own probe
and from the preference the server keeps for the worker: the payload of the job does not carry the backend
that the job asks for.

The override of a job is an argument beside its row.

* `remoteWorkerCanRunJob`, `buildRemoteJobPayload`: the server.
* `agentHost`, `agentCommandPlan`: the agent.
* `acceleratedSelection_iff`: when an accelerated backend is selected.
* `agent_meets_iff`: when the agent runs an approved job as it was approved.
-/

namespace Encodr

open Python

/-! ## The server -/

/-- What the server reads of the capabilities that a worker reports. -/
structure CapabilitySummary where
  ffmpeg : Bool := true
  ffprobe : Bool := true
  executionModes : List String := []
  hardwareProbes : List HardwareProbe := []
deriving DecidableEq

/-- What the server reads of the runtime summary of a worker; a scratch directory or a mapping that is
reported may be reported without a status. -/
structure RuntimeSummary where
  mediaMounts : List PosixPath := []
  scratchStatus : Option (Option String) := none
  mappingStatuses : List (Option String) := []
deriving DecidableEq

/-- The row of a remote worker with what it has reported. -/
structure RemoteWorker extends Worker where
  preferredBackend : String := "cpu_only"
  allowCpuFallback : Bool := true
  capability : CapabilitySummary := {}
  runtime : RuntimeSummary := {}

/-- The backend that a job asks for, or else the worker prefers. -/
def requestedBackendText (worker : RemoteWorker) (override : Option String) : String :=
  textOr override (textOr (some worker.preferredBackend) "cpu_only")

/-- `(plan.video.target_codec or "hevc").strip().lower()`. -/
def codecOf (plan : ProcessingPlan) : String :=
  lower (strip (textOr plan.video.targetCodec "hevc"))

/-- `_remote_worker_can_run_job`. -/
def remoteWorkerCanRunJob (os : PathOs) (worker : RemoteWorker) (plan : ProcessingPlan)
    (sourcePath : PosixPath) (override : Option String) : Bool :=
  let capability := worker.capability
  let executionModes := capability.executionModes
  if !capability.ffmpeg || !capability.ffprobe then false
  else if executionModes = [] then false
  else if !worker.enabled || worker.registrationStatus ≠ .registered then false
  else if resolveRemoteSourcePath os worker.pathMappings worker.runtime.mediaMounts sourcePath = none then
    false
  else if worker.runtime.scratchStatus.any fun status =>
      status ≠ none ∧ status ≠ some "healthy" ∧ status ≠ some "unknown" then false
  else if worker.runtime.mappingStatuses.any fun status => status ≠ none ∧ status ≠ some "usable" then
    false
  else if !plan.video.transcodeRequired then
    executionModes.contains "remux" || executionModes.contains "transcode"
  else if codecOf plan ∉ ["h264", "hevc", "av1"] then false
  else
    (resolveBackendRuntimeStatus (some (requestedBackendText worker override)) capability.hardwareProbes
      worker.allowCpuFallback (executionModes.contains "transcode")).transcodeBackendUsable &&
    executionModes.contains "transcode"

/-- What a remote worker is sent. -/
structure RemoteJobPayload where
  jobId : JobId
  trackedFileId : FileId
  planSnapshotId : PlanId
  jobKind : JobKind
  sourcePath : PosixPath
  planPayload : ProcessingPlan
  mediaPayload : MediaFile
  requestedWorkerType : Option WorkerType
  assignmentState : String
  assignedWorkerId : Option WorkerId

/-- `_build_remote_job_payload`. -/
def buildRemoteJobPayload (os : PathOs) (worker : RemoteWorker) (job : Job) (plan : ProcessingPlan)
    (media : MediaFile) (sourcePath : PosixPath) : Option RemoteJobPayload := do
  let remappedSource ←
    resolveRemoteSourcePath os worker.pathMappings worker.runtime.mediaMounts sourcePath
  return {
    jobId := job.id
    trackedFileId := job.trackedFileId
    planSnapshotId := job.planSnapshotId
    jobKind := job.jobKind
    sourcePath := remappedSource
    planPayload := planPayloadForJob job plan
    mediaPayload := media.at remappedSource media.container.fileName
    requestedWorkerType := job.requestedWorkerType
    assignmentState := if job.status = .running then "claimed" else "assigned"
    assignedWorkerId := job.assignedWorkerId }

/-! ## The agent -/

/-- The settings of an agent, as far as an execution reads them. -/
structure AgentSettings where
  preferredBackend : String := "cpu_only"
  scratchDir : PosixPath
  ffmpegPath : PosixPath
  windows : Bool := false

/-- The preference of the session: the one that the heartbeat answers, or that of the settings. -/
def sessionBackend (settings : AgentSettings) (worker : RemoteWorker) : BackendPreference :=
  normaliseBackendPreferenceKey (some (coerceBackendPreference
    (textOr (some worker.preferredBackend) settings.preferredBackend)))

/-- `probes.get(probe_key)`: the last probe of several. -/
def agentProbe (probes : List HardwareProbe) (requested : BackendPreference) : Option BackendProbe :=
  (probes.reverse.find? (·.backend = probeBackendForPreference requested)).map (·.toBackendProbe)

/-- What the agent selects a backend from, when its probes are `probes`. -/
def agentHost (settings : AgentSettings) (worker : RemoteWorker) (probes : List HardwareProbe) :
    ExecutionHost where
  preferredBackend := sessionBackend settings worker
  allowCpuFallback := worker.allowCpuFallback
  probe := agentProbe probes (sessionBackend settings worker)
  windows := settings.windows

section Host

variable (settings : AgentSettings) (worker : RemoteWorker) (probes : List HardwareProbe)

theorem agentHost_preferredBackend :
    (agentHost settings worker probes).preferredBackend = sessionBackend settings worker := by
  rw [agentHost]

theorem agentHost_allowCpuFallback :
    (agentHost settings worker probes).allowCpuFallback = worker.allowCpuFallback := by
  rw [agentHost]

end Host

/-- `build_execution_command_plan` as the agent calls it. -/
def agentCommandPlan (settings : AgentSettings) (worker : RemoteWorker) (probes : List HardwareProbe)
    (payload : RemoteJobPayload) : Except String ExecutionCommandPlan :=
  buildExecutionCommandPlan payload.planPayload payload.mediaPayload.container.filePath
    settings.scratchDir settings.ffmpegPath (some payload.jobId) (agentHost settings worker probes)

/-! ## The backend that is selected -/

/-- The backends that a preference names. -/
def BackendPreference.names : BackendPreference → List String
  | .intelAuto => ["intel_qsv", "intel_vaapi"]
  | requested => [requested.value]

/-- What the details of a usable probe offer to a preference. -/
def BackendProbe.Offers (probe : BackendProbe) (requested : BackendPreference) (actual : String) : Prop :=
  match requested with
  | .cpu => False
  | .intelAuto =>
    probe.qsvUsable = true ∧ actual = "intel_qsv" ∨
      probe.qsvUsable = false ∧ probe.vaapiUsable = true ∧ probe.vaapiDevicePath ≠ none ∧
        actual = "intel_vaapi"
  | .intelQsv => probe.qsvUsable = true ∧ actual = "intel_qsv"
  | .intelVaapi =>
    probe.vaapiUsable = true ∧ probe.vaapiDevicePath ≠ none ∧ actual = "intel_vaapi"
  | .nvidiaGpu => actual = "nvidia_gpu"
  | .amdGpu =>
    (probe.amfUsable = true ∨ probe.vaapiUsable = true ∧ probe.vaapiDevicePath ≠ none) ∧
      actual = "amd_gpu"

/-- A probe that the host has, and says is usable, offers `actual` for a codec that accelerators encode. -/
def ExecutionHost.Offers (host : ExecutionHost) (codec actual : String) : Prop :=
  (codec = "h264" ∨ codec = "hevc") ∧
    ∃ probe, host.probe = some probe ∧ probe.usable = true ∧ probe.Offers host.preferredBackend actual

section Selected

variable {requested : BackendPreference} {codec actual : String} {probe : BackendProbe} {windows : Bool}

theorem acceleratedEncoders_isSome (accelerator : String) :
    (∃ e, (acceleratedEncoders accelerator).lookup codec = some e) ↔ codec = "h264" ∨ codec = "hevc" := by
  simp only [acceleratedEncoders, List.lookup_cons, List.lookup_nil]
  by_cases h264 : codec = "h264"
  · simp [h264]
  · by_cases hevc : codec = "hevc"
    · simp [hevc]
    · have h1 : (codec == "h264") = false := by simpa using h264
      have h2 : (codec == "hevc") = false := by simpa using hevc
      simp [h1, h2, h264, hevc]

theorem qsvSelection_iff : (∃ b, qsvSelection requested codec probe windows = some b ∧
      b.actualBackend = actual) ↔ (codec = "h264" ∨ codec = "hevc") ∧ actual = "intel_qsv" := by
  rw [← acceleratedEncoders_isSome "qsv"]
  simp only [qsvSelection, bind, Option.bind_eq_some_iff, pure, Option.some.injEq]
  constructor
  · rintro ⟨_, ⟨e, he, rfl⟩, rfl⟩
    exact ⟨⟨e, he⟩, rfl⟩
  · rintro ⟨⟨e, he⟩, rfl⟩
    exact ⟨_, ⟨e, he, rfl⟩, rfl⟩

theorem vaapiSelection_iff {backend reason : String} :
    (∃ b, vaapiSelection requested backend reason codec probe = some b ∧ b.actualBackend = actual) ↔
      (codec = "h264" ∨ codec = "hevc") ∧ probe.vaapiDevicePath ≠ none ∧ actual = backend := by
  rw [← acceleratedEncoders_isSome "vaapi"]
  simp only [vaapiSelection, bind, Option.bind_eq_some_iff, pure, Option.some.injEq]
  constructor
  · rintro ⟨_, ⟨e, he, d, hd, rfl⟩, rfl⟩
    exact ⟨⟨e, he⟩, by simp [hd], rfl⟩
  · rintro ⟨⟨e, he⟩, hd, rfl⟩
    obtain ⟨d, hd⟩ := Option.ne_none_iff_exists'.mp hd
    exact ⟨_, ⟨e, he, d, hd, rfl⟩, rfl⟩

theorem plainSelection_iff {accelerator reason : String} :
    (∃ b, plainSelection requested accelerator reason codec = some b ∧ b.actualBackend = actual) ↔
      (codec = "h264" ∨ codec = "hevc") ∧ actual = requested.value := by
  rw [← acceleratedEncoders_isSome accelerator]
  simp only [plainSelection, bind, Option.bind_eq_some_iff, pure, Option.some.injEq]
  constructor
  · rintro ⟨_, ⟨e, he, rfl⟩, rfl⟩
    exact ⟨⟨e, he⟩, rfl⟩
  · rintro ⟨⟨e, he⟩, rfl⟩
    exact ⟨_, ⟨e, he, rfl⟩, rfl⟩

/-- A probe leads to an accelerated backend where it offers one. -/
theorem acceleratedSelection_iff : (∃ b, acceleratedSelection requested codec probe windows = some b ∧
      b.actualBackend = actual) ↔
    (codec = "h264" ∨ codec = "hevc") ∧ probe.usable = true ∧ probe.Offers requested actual := by
  unfold acceleratedSelection BackendProbe.Offers
  by_cases husable : probe.usable = true
  · rw [if_neg (by rw [husable]; decide)]
    cases requested with
    | cpu => simp
    | intelAuto =>
      by_cases hqsv : probe.qsvUsable = true
      · simp only [hqsv, husable, ne_eq, reduceCtorEq, not_false_eq_true, and_self, if_true, qsvSelection_iff]
        simp
      · by_cases hvaapi : probe.vaapiUsable = true
        · simp only [hqsv, hvaapi, husable, ne_eq, reduceCtorEq, not_false_eq_true, and_self, if_true,
            and_false, if_false, vaapiSelection_iff]
          simp
        · simp [hqsv, hvaapi]
    | intelQsv =>
      by_cases hqsv : probe.qsvUsable = true
      · simp only [hqsv, husable, ne_eq, reduceCtorEq, not_false_eq_true, and_self, if_true, qsvSelection_iff]
        simp
      · simp [hqsv]
    | intelVaapi =>
      by_cases hvaapi : probe.vaapiUsable = true
      · simp only [hvaapi, husable, ne_eq, reduceCtorEq, not_false_eq_true, not_true_eq_false, and_self,
          if_true, false_and, if_false, vaapiSelection_iff]
        simp
      · simp [hvaapi]
    | nvidiaGpu =>
      simp only [plainSelection_iff, husable]
      simp [BackendPreference.value]
    | amdGpu =>
      by_cases hamf : probe.amfUsable = true
      · simp only [hamf, if_true, plainSelection_iff, husable]
        simp [BackendPreference.value]
      · by_cases hvaapi : probe.vaapiUsable = true
        · simp only [hamf, hvaapi, if_true, if_false, Bool.false_eq_true, vaapiSelection_iff, husable]
          simp
        · simp [hamf, hvaapi]
  · have hnot : probe.usable = false := by simpa using husable
    simp [hnot]

end Selected

section Execution

variable {host : ExecutionHost} {codec : String} {P : String → Prop}

theorem cpuSelection_iff {requested : BackendPreference} {fallbackUsed : Bool} {reason : Option String} :
    (∃ b, cpuSelection requested codec fallbackUsed reason = .ok b ∧ P b.actualBackend) ↔
      codec ∈ ["h264", "hevc", "av1"] ∧ P "cpu" := by
  have hlookup : (∃ e, cpuEncoders.lookup codec = some e) ↔ codec ∈ ["h264", "hevc", "av1"] := by
    simp only [cpuEncoders, List.lookup_cons, List.lookup_nil]
    by_cases h264 : codec = "h264"
    · simp [h264]
    · by_cases hevc : codec = "hevc"
      · simp [hevc]
      · by_cases hav1 : codec = "av1"
        · simp [hav1]
        · have h1 : (codec == "h264") = false := by simpa using h264
          have h2 : (codec == "hevc") = false := by simpa using hevc
          have h3 : (codec == "av1") = false := by simpa using hav1
          simp [h1, h2, h3, h264, hevc, hav1]
  rw [← hlookup, cpuSelection]
  cases cpuEncoders.lookup codec with
  | none => simp
  | some e => simp

/-- A host offers what its probe leads to. -/
theorem offers_iff {actual : String} : host.Offers codec actual ↔
    ∃ b, host.probe.bind (acceleratedSelection host.preferredBackend codec · host.windows) = some b ∧
      b.actualBackend = actual := by
  constructor
  · rintro ⟨hcodec, probe, hprobe, husable, hoffers⟩
    rw [hprobe, Option.bind_some]
    exact acceleratedSelection_iff.mpr ⟨hcodec, husable, hoffers⟩
  · rintro ⟨b, hb, hactual⟩
    obtain ⟨probe, hprobe, hb⟩ := Option.bind_eq_some_iff.mp hb
    obtain ⟨hcodec, husable, hoffers⟩ := acceleratedSelection_iff.mp ⟨b, hb, hactual⟩
    exact ⟨hcodec, probe, hprobe, husable, hoffers⟩

/-- The CPU is preferred, or nothing is offered. -/
theorem not_offers_of_cpu (h : host.preferredBackend = .cpu) {actual : String} :
    ¬ host.Offers codec actual := by
  rintro ⟨-, probe, -, -, hoffers⟩
  rw [h] at hoffers
  exact hoffers

/-- The CPU is not among what is offered. -/
theorem ExecutionHost.Offers.ne_cpu {actual : String} (h : host.Offers codec actual) : actual ≠ "cpu" := by
  obtain ⟨-, probe, -, -, hoffers⟩ := h
  rintro rfl
  revert hoffers
  cases host.preferredBackend <;> simp [BackendProbe.Offers]

/-- A backend is selected that the host offers, or else the CPU, where it is preferred or may stand in. -/
theorem selectExecutionBackend_iff {targetCodec : Option String}
    (hcodec : lower (strip (textOr targetCodec "hevc")) = codec) :
    (∃ b, selectExecutionBackend host targetCodec = .ok b ∧ P b.actualBackend) ↔
      (∃ actual, host.Offers codec actual ∧ P actual) ∨
      (∀ actual, ¬ host.Offers codec actual) ∧ codec ∈ ["h264", "hevc", "av1"] ∧
        (host.preferredBackend = .cpu ∨ host.allowCpuFallback = true) ∧ P "cpu" := by
  unfold selectExecutionBackend
  simp only [hcodec]
  by_cases hcpu : host.preferredBackend = .cpu
  · have hnot : ∀ actual, ¬ host.Offers codec actual := fun _ => not_offers_of_cpu hcpu
    rw [if_pos hcpu, cpuSelection_iff]
    simp [hnot, hcpu]
  · rw [if_neg hcpu]
    cases hselected : host.probe.bind (acceleratedSelection host.preferredBackend codec · host.windows) with
    | some b =>
      have hoffers := offers_iff.mpr ⟨b, hselected, rfl⟩
      have honly : ∀ actual, host.Offers codec actual → actual = b.actualBackend := by
        intro actual hactual
        obtain ⟨b', hb', rfl⟩ := offers_iff.mp hactual
        rw [Option.some.inj (hb'.symm.trans hselected)]
      constructor
      · rintro ⟨_, hok, hP⟩
        obtain rfl := Except.ok.inj hok
        exact .inl ⟨_, hoffers, hP⟩
      · rintro (⟨actual, hactual, hP⟩ | ⟨hnot, -⟩)
        · exact ⟨b, rfl, honly actual hactual ▸ hP⟩
        · exact absurd hoffers (hnot _)
    | none =>
      have hnot : ∀ actual, ¬ host.Offers codec actual := by
        intro actual hactual
        obtain ⟨b, hb, -⟩ := offers_iff.mp hactual
        rw [hselected] at hb
        cases hb
      by_cases hfallback : host.allowCpuFallback = true
      · simp only [if_pos hfallback, cpuSelection_iff]
        simp [hnot, hfallback]
      · simp only [if_neg hfallback]
        simp [hnot, hfallback, hcpu]

end Execution

/-! ## Server and agent -/

@[simp] theorem planPayloadForJob_action (job : Job) (plan : ProcessingPlan) :
    (planPayloadForJob job plan).action = plan.action := by
  rw [planPayloadForJob, ProcessingPlan.withDeleteReplacedSource]

@[simp] theorem planPayloadForJob_video (job : Job) (plan : ProcessingPlan) :
    (planPayloadForJob job plan).video = plan.video := by
  rw [planPayloadForJob, ProcessingPlan.withDeleteReplacedSource]

/-- The backend of an approved job, as the server understands it. -/
def requestedBackend (worker : RemoteWorker) (override : Option String) : BackendPreference :=
  normaliseBackendPreferenceKey (some (requestedBackendText worker override))

/-- Without an override, the session has the preference that the job was approved for. -/
theorem sessionBackend_eq (settings : AgentSettings) {worker : RemoteWorker}
    (h : worker.preferredBackend ≠ "") : sessionBackend settings worker = requestedBackend worker none := by
  unfold sessionBackend requestedBackend requestedBackendText
  rw [normalise_coerce]
  simp only [textOr, if_neg h]

/-- The agent selects no backend in vain, and the one it selects is what the job asks for, or the CPU where
the worker may fall back to it. -/
def AgentMeets (settings : AgentSettings) (worker : RemoteWorker) (override : Option String)
    (payload : RemoteJobPayload) : Prop :=
  ∃ built, agentCommandPlan settings worker worker.capability.hardwareProbes payload = .ok built ∧
    (payload.planPayload.action = .transcode →
      built.actualBackend ∈ (requestedBackend worker override).names ∨
        built.actualBackend = "cpu" ∧ worker.allowCpuFallback = true)

/-- When the agent can run a transcode as it was approved: the session's own preference is offered by the
probe and leads to what the job asks for; or nothing is offered, the CPU encodes the codec, and it may stand
in, or is what both prefer. -/
def SessionFits (settings : AgentSettings) (worker : RemoteWorker) (override : Option String)
    (plan : ProcessingPlan) : Prop :=
  let host := agentHost settings worker worker.capability.hardwareProbes
  (∃ actual, host.Offers (codecOf plan) actual ∧ actual ∈ (requestedBackend worker override).names) ∨
    (∀ actual, ¬ host.Offers (codecOf plan) actual) ∧
      (plan.video.transcodeRequired = true ∨ codecOf plan ∈ ["h264", "hevc", "av1"]) ∧
      (worker.allowCpuFallback = true ∨
        sessionBackend settings worker = .cpu ∧ requestedBackend worker override = .cpu)

/-- An approved job has a payload. -/
theorem buildRemoteJobPayload_of_approved {os : PathOs} {worker : RemoteWorker} {plan : ProcessingPlan}
    {sourcePath : PosixPath} {override : Option String}
    (h : remoteWorkerCanRunJob os worker plan sourcePath override = true) (job : Job) (media : MediaFile) :
    ∃ payload, buildRemoteJobPayload os worker job plan media sourcePath = some payload ∧
      payload.planPayload = planPayloadForJob job plan := by
  have hpath : resolveRemoteSourcePath os worker.pathMappings worker.runtime.mediaMounts sourcePath ≠ none := by
    intro hnone
    simp [remoteWorkerCanRunJob, hnone] at h
  obtain ⟨path, hpath⟩ := Option.ne_none_iff_exists'.mp hpath
  simp only [buildRemoteJobPayload, hpath, bind, Option.bind_some, pure]
  exact ⟨_, rfl, rfl⟩

/-- An approved transcode has a codec that the CPU encodes. -/
theorem codec_of_approved {os : PathOs} {worker : RemoteWorker} {plan : ProcessingPlan}
    {sourcePath : PosixPath} {override : Option String}
    (h : remoteWorkerCanRunJob os worker plan sourcePath override = true)
    (htranscode : plan.video.transcodeRequired = true) : codecOf plan ∈ ["h264", "hevc", "av1"] := by
  by_contra hcodec
  simp only [remoteWorkerCanRunJob, htranscode, hcodec, not_false_eq_true, if_true, Bool.not_true,
    Bool.false_eq_true, if_false] at h
  split_ifs at h

theorem BackendPreference.cpu_mem_names {requested : BackendPreference} :
    "cpu" ∈ requested.names ↔ requested = .cpu := by
  cases requested <;> decide

section Plan

variable {settings : AgentSettings} {worker : RemoteWorker} {override : Option String}
  {payload : RemoteJobPayload}

theorem AgentMeets.of_not_transcode (h : payload.planPayload.action ≠ .transcode) :
    AgentMeets settings worker override payload := by
  unfold AgentMeets agentCommandPlan buildExecutionCommandPlan
  cases haction : payload.planPayload.action with
  | transcode => exact absurd haction h
  | skip => exact ⟨_, rfl, nofun⟩
  | manualReview => exact ⟨_, rfl, nofun⟩
  | remux => exact ⟨_, rfl, nofun⟩

/-- A transcode is what the selection of the backend makes it. -/
theorem agentMeets_of_transcode (h : payload.planPayload.action = .transcode) :
    AgentMeets settings worker override payload ↔
      ∃ b, selectExecutionBackend (agentHost settings worker worker.capability.hardwareProbes)
          payload.planPayload.video.targetCodec = .ok b ∧
        (b.actualBackend ∈ (requestedBackend worker override).names ∨
          b.actualBackend = "cpu" ∧ worker.allowCpuFallback = true) := by
  unfold AgentMeets agentCommandPlan buildExecutionCommandPlan
  simp only [h]
  cases selectExecutionBackend (agentHost settings worker worker.capability.hardwareProbes)
      payload.planPayload.video.targetCodec with
  | error e =>
    constructor
    · rintro ⟨_, ⟨⟩, -⟩
    · rintro ⟨_, ⟨⟩, -⟩
  | ok b =>
    constructor
    · rintro ⟨_, ⟨⟩, hmeets⟩
      exact ⟨b, rfl, hmeets trivial⟩
    · rintro ⟨_, ⟨⟩, hmeets⟩
      exact ⟨_, rfl, fun _ => hmeets⟩

end Plan

/-- The agent runs an approved job without a backend error, on the backend that the job asks for or on the
CPU where that may stand in, when its plan encodes nothing or the preference of the session fits. -/
theorem agent_meets_iff (os : PathOs) (settings : AgentSettings) (worker : RemoteWorker) (job : Job)
    (plan : ProcessingPlan) (media : MediaFile) (sourcePath : PosixPath) (override : Option String)
    (h : remoteWorkerCanRunJob os worker plan sourcePath override = true) :
    ∃ payload, buildRemoteJobPayload os worker job plan media sourcePath = some payload ∧
      (AgentMeets settings worker override payload ↔
        (plan.action = .transcode → SessionFits settings worker override plan)) := by
  obtain ⟨payload, hpayload, hplan⟩ := buildRemoteJobPayload_of_approved h job media
  refine ⟨payload, hpayload, ?_⟩
  have haction : payload.planPayload.action = plan.action := by rw [hplan, planPayloadForJob_action]
  have hcodec : lower (strip (textOr payload.planPayload.video.targetCodec "hevc")) = codecOf plan := by
    rw [hplan, planPayloadForJob_video, codecOf]
  by_cases htranscode : plan.action = .transcode
  · rw [agentMeets_of_transcode (haction.trans htranscode), selectExecutionBackend_iff hcodec
      (P := fun actual => actual ∈ (requestedBackend worker override).names ∨
        actual = "cpu" ∧ worker.allowCpuFallback = true), agentHost_preferredBackend,
      agentHost_allowCpuFallback, BackendPreference.cpu_mem_names]
    have hsupported : plan.video.transcodeRequired = true → codecOf plan ∈ ["h264", "hevc", "av1"] :=
      codec_of_approved h
    constructor
    · rintro (⟨actual, hactual, hnames | ⟨hcpu, -⟩⟩ | ⟨hnot, hcpu, hprefer, hasked⟩) -
      · exact .inl ⟨actual, hactual, hnames⟩
      · exact absurd hcpu hactual.ne_cpu
      · refine .inr ⟨hnot, .inr hcpu, ?_⟩
        rcases hasked with hasked | ⟨-, hfallback⟩
        · exact hprefer.symm.imp id fun hsession => ⟨hsession, hasked⟩
        · exact .inl hfallback
    · intro hfits
      rcases hfits htranscode with ⟨actual, hactual, hnames⟩ | ⟨hnot, hcodec, hcpu⟩
      · exact .inl ⟨actual, hactual, .inl hnames⟩
      · refine .inr ⟨hnot, hcodec.elim hsupported id, ?_⟩
        rcases hcpu with hfallback | ⟨hsession, hasked⟩
        · exact ⟨.inr hfallback, .inr ⟨rfl, hfallback⟩⟩
        · exact ⟨.inl hsession, .inl hasked⟩
  · exact ⟨fun _ hact => absurd hact htranscode, fun _ => .of_not_transcode fun hact => htranscode
      (haction.symm.trans hact)⟩

/-- A worker with a usable NVIDIA card that must not fall back to the CPU. -/
def nvidiaWorker (preferredBackend : String) : RemoteWorker where
  id := "w1"
  workerKey := "w1"
  workerType := .remote
  registrationStatus := .registered
  createdAt := 0
  updatedAt := 0
  preferredBackend := preferredBackend
  allowCpuFallback := false
  capability := {
    executionModes := ["remux", "transcode"]
    hardwareProbes := [{ backend := "cpu", usable := true }, { backend := "nvidia_gpu", usable := true }] }

def agentSettings : AgentSettings where
  scratchDir := PosixPath.parse "/scratch"
  ffmpegPath := PosixPath.parse "/usr/bin/ffmpeg"

/-- A film that is to be encoded. -/
def encodingPlan (codec : String) : ProcessingPlan :=
  let plan := buildProcessingPlan film4k (transcodingPolicy.resolved none none film4k.container.filePath)
    { enabled := false }
  { plan with video := { plan.video with targetCodec := some codec } }

def encodingJob : Job where
  id := "j1"
  trackedFileId := "f1"
  planSnapshotId := "p1"
  createdAt := 0
  updatedAt := 0

/-- A worker that prefers its card runs a job that asks for nothing else. -/
theorem agent_meets_iff_nvidia :
    ∃ payload, buildRemoteJobPayload (lexicalOs (PosixPath.parse "/") id) (nvidiaWorker "prefer_nvidia_gpu")
        encodingJob (encodingPlan "hevc") film4k film4k.container.filePath = some payload ∧
      AgentMeets agentSettings (nvidiaWorker "prefer_nvidia_gpu") none payload := by
  obtain ⟨payload, hpayload, hiff⟩ := agent_meets_iff (lexicalOs (PosixPath.parse "/") id) agentSettings
    (nvidiaWorker "prefer_nvidia_gpu") encodingJob (encodingPlan "hevc") film4k film4k.container.filePath none
    (by decide +kernel)
  refine ⟨payload, hpayload, hiff.mpr fun _ => .inl ⟨"nvidia_gpu", ⟨.inr (by decide +kernel), ?_⟩,
    by decide +kernel⟩⟩
  refine ⟨{ usable := true }, by decide +kernel, rfl, ?_⟩
  have hsession : sessionBackend agentSettings (nvidiaWorker "prefer_nvidia_gpu") = .nvidiaGpu := by
    decide +kernel
  rw [agentHost_preferredBackend, hsession]
  rfl

/-- A job that asks for the card is approved for a worker that prefers the CPU, and encoded on the CPU,
although the worker must not fall back to it. A job for a codec that the card does not encode is approved
for a worker that prefers the card, and fails. -/
theorem approved_not_met :
    (remoteWorkerCanRunJob (lexicalOs (PosixPath.parse "/") id) (nvidiaWorker "cpu_only")
        (encodingPlan "hevc") film4k.container.filePath (some "nvidia_gpu") = true ∧
      requestedBackend (nvidiaWorker "cpu_only") (some "nvidia_gpu") = .nvidiaGpu ∧
      (buildRemoteJobPayload (lexicalOs (PosixPath.parse "/") id) (nvidiaWorker "cpu_only") encodingJob
        (encodingPlan "hevc") film4k film4k.container.filePath).map (fun payload =>
          ((agentCommandPlan agentSettings (nvidiaWorker "cpu_only")
            (nvidiaWorker "cpu_only").capability.hardwareProbes payload).map (·.actualBackend)).toOption) =
        some (some "cpu")) ∧
    remoteWorkerCanRunJob (lexicalOs (PosixPath.parse "/") id) (nvidiaWorker "prefer_nvidia_gpu")
        (encodingPlan "av1") film4k.container.filePath none = true ∧
      (buildRemoteJobPayload (lexicalOs (PosixPath.parse "/") id) (nvidiaWorker "prefer_nvidia_gpu")
        encodingJob (encodingPlan "av1") film4k film4k.container.filePath).map (fun payload =>
          ((agentCommandPlan agentSettings (nvidiaWorker "prefer_nvidia_gpu")
            (nvidiaWorker "prefer_nvidia_gpu").capability.hardwareProbes payload).map
              (·.actualBackend)).toOption) = some none :=
  ⟨⟨by decide +kernel, by decide +kernel, by decide +kernel⟩, by decide +kernel, by decide +kernel⟩

end Encodr
