import Encodr.Execution.BackendSelection
import Encodr.Lib.Result
import Encodr.Media.Normalise
import Encodr.Planning.Planner

/-!
# The `ffmpeg` command

`build_execution_command_plan`: the command that executes a plan. Its options are kept as such, so that
they can be read back; `FfmpegCommand.args` is the command line.

* `FfmpegOption`, `FfmpegCommand`: the command.
* `buildExecutionCommandPlan`: the command of a plan.
* `FfmpegCommand.Executes`, `buildExecutionCommandPlan_executes`: what its options say, said once.
-/

namespace Encodr

open Python Lib

/-! ## Commands -/

inductive FfmpegOption where
  | map (streamIndex : Int)
  | videoFilter (filter : String)
  | codec (streamType : StreamType) (encoder : String)
  | quality (args : List String)
  | disposition (streamType : StreamType) (outputIndex : Nat) (value : String)
deriving DecidableEq, Repr

/-- The letter of a stream type in an option. -/
def StreamType.letter : StreamType → String
  | .video => "v"
  | .audio => "a"
  | .subtitle => "s"
  | .attachment => "t"
  | .data => "d"
  | .unknown => ""

def FfmpegOption.args : FfmpegOption → List String
  | .map streamIndex => ["-map", "0:" ++ toString streamIndex]
  | .videoFilter filter => ["-vf", filter]
  | .codec streamType encoder => ["-c:" ++ streamType.letter, encoder]
  | .quality args => args
  | .disposition streamType outputIndex value =>
    ["-disposition:" ++ streamType.letter ++ ":" ++ toString outputIndex, value]

structure FfmpegCommand where
  ffmpegPath : PosixPath
  commandPrefix : List String := []
  inputPath : PosixPath
  options : List FfmpegOption
  outputPath : PosixPath
deriving DecidableEq

/-- The command line. -/
def FfmpegCommand.args (command : FfmpegCommand) : List String :=
  [command.ffmpegPath.asPosix] ++ command.commandPrefix ++
    ["-y", "-i", command.inputPath.asPosix, "-nostats", "-progress", "pipe:1"] ++
    command.options.flatMap (·.args) ++ [command.outputPath.asPosix]

structure ExecutionCommandPlan where
  mode : String
  inputPath : PosixPath
  command : Option FfmpegCommand := none
  requestedBackend : String := "cpu"
  actualBackend : String := "cpu"
  actualAccelerator : String := "cpu"
  fallbackUsed : Bool := false
  backendSelectionReason : Option String := none
deriving DecidableEq

/-! ## The parts of the command -/

/-- `build_temp_output_path`. -/
def buildTempOutputPath (inputPath scratchDir : PosixPath) (container : OutputContainer)
    (jobId : Option String) : PosixPath :=
  scratchDir.joinpath
    (split '/' (inputPath.stem ++ "." ++ textOr jobId "pending" ++ ".tmp." ++ container.value))

/-- `append_selected_stream_maps`. -/
def selectedStreamMaps (plan : ProcessingPlan) : List FfmpegOption :=
  (plan.selectedStreams.videoStreamIndices ++ plan.selectedStreams.audioStreamIndices ++
    plan.selectedStreams.subtitleStreamIndices ++ plan.selectedStreams.attachmentStreamIndices ++
    plan.selectedStreams.dataStreamIndices).map .map

/-- The flag that an audio track is given. -/
def audioDisposition (plan : ProcessingPlan) (sourceIndex : Int) : String :=
  if (plan.audio.primaryStreamIndex <|> plan.selectedStreams.audioStreamIndices.head?) =
    some sourceIndex then "default" else "0"

/-- The flag that a subtitle track is given. -/
def subtitleDisposition (plan : ProcessingPlan) (sourceIndex : Int) : String :=
  if sourceIndex ∈ plan.subtitles.forcedStreamIndices then "forced"
  else if plan.subtitles.mainStreamIndex = some sourceIndex then "default"
  else "0"

/-- `disposition_flags_for_selected_streams`. -/
def dispositionFlagsForSelectedStreams (plan : ProcessingPlan) : List FfmpegOption :=
  (plan.selectedStreams.audioStreamIndices.mapIdx fun outputIndex sourceIndex =>
    .disposition .audio outputIndex (audioDisposition plan sourceIndex)) ++
  plan.selectedStreams.subtitleStreamIndices.mapIdx fun outputIndex sourceIndex =>
    .disposition .subtitle outputIndex (subtitleDisposition plan sourceIndex)

/-- The codec options: the video by `encoder`, the other streams copied. -/
def codecOptions (encoder : String) : List FfmpegOption :=
  [.codec .video encoder, .codec .audio "copy", .codec .subtitle "copy", .codec .attachment "copy",
    .codec .data "copy"]

/-! ## The command of a plan -/

/-- `build_execution_command_plan`. -/
def buildExecutionCommandPlan (plan : ProcessingPlan) (inputPath scratchDir ffmpegPath : PosixPath)
    (jobId : Option String) (host : ExecutionHost) : Except String ExecutionCommandPlan :=
  let command (commandPrefix : List String) (encoding : List FfmpegOption) : FfmpegCommand := {
    ffmpegPath := ffmpegPath
    commandPrefix := commandPrefix
    inputPath := inputPath
    options := selectedStreamMaps plan ++ encoding ++ dispositionFlagsForSelectedStreams plan
    outputPath := buildTempOutputPath inputPath scratchDir plan.container.targetContainer jobId }
  match plan.action with
  | .skip => .ok { mode := "skip", inputPath := inputPath }
  | .manualReview => .ok { mode := "manual_review", inputPath := inputPath }
  | .remux => .ok {
      mode := "remux"
      inputPath := inputPath
      command := some (command [] (codecOptions "copy"))
      backendSelectionReason := some ("Remux and strip-only jobs copy streams without video " ++
        "encoding; hardware encoders are not used for this job.") }
  | .transcode => do
    let backend ← selectExecutionBackend host plan.video.targetCodec
    return {
      mode := "transcode"
      inputPath := inputPath
      command := some (command backend.commandPrefix
        ((backend.videoFilter.map FfmpegOption.videoFilter).toList ++
          codecOptions backend.videoEncoder ++
          [.quality (qualityFlagsForBackend backend.accelerator plan.video.qualityMode
            plan.video.qualityCrf)]))
      requestedBackend := backend.requestedBackend.value
      actualBackend := backend.actualBackend
      actualAccelerator := backend.accelerator
      fallbackUsed := backend.fallbackUsed
      backendSelectionReason := backend.selectionReason }

/-! ## Reading a command -/

namespace FfmpegCommand

variable (command : FfmpegCommand)

/-- The source streams that are mapped, in order. -/
def maps : List Int :=
  command.options.filterMap fun
    | .map streamIndex => some streamIndex
    | _ => none

/-- The video is copied. -/
def copiesVideo : Bool :=
  decide (FfmpegOption.codec .video "copy" ∈ command.options)

/-- The command scales the video. -/
def scales : Bool :=
  command.options.any fun
    | .videoFilter filter => inText "scale" filter
    | _ => false

/-- The flag that the command gives to an output stream of a type. -/
def dispositionOf (streamType : StreamType) (outputIndex : Nat) : Option String :=
  command.options.findSome? fun
    | .disposition t i value => if t = streamType ∧ i = outputIndex then some value else none
    | _ => none

end FfmpegCommand

/-! ## What a built command says -/

/-- What the command of a plan says. -/
structure FfmpegCommand.Executes (command : FfmpegCommand) (plan : ProcessingPlan) : Prop where
  maps : command.maps = plan.selectedStreams.videoStreamIndices ++
    plan.selectedStreams.audioStreamIndices ++ plan.selectedStreams.subtitleStreamIndices ++
    plan.selectedStreams.attachmentStreamIndices ++ plan.selectedStreams.dataStreamIndices
  copies : command.copiesVideo = decide (plan.action = .remux)
  scales : command.scales = false
  audio : ∀ n, command.dispositionOf .audio n =
    plan.selectedStreams.audioStreamIndices[n]?.map (audioDisposition plan)
  subtitle : ∀ n, command.dispositionOf .subtitle n =
    plan.selectedStreams.subtitleStreamIndices[n]?.map (subtitleDisposition plan)
  other : ∀ t n, t ≠ .audio → t ≠ .subtitle → command.dispositionOf t n = none

section Built

variable {plan : ProcessingPlan} {t t' : StreamType} {n : Nat}

/-- The option sets neither a map nor a flag. -/
def FfmpegOption.isEncoding : FfmpegOption → Bool
  | .map _ | .disposition _ _ _ => false
  | _ => true

/-- The flag that an option sets for an output stream. -/
def FfmpegOption.flagOf (t : StreamType) (n : Nat) : FfmpegOption → Option String
  | .disposition t' i value => if t' = t ∧ i = n then some value else none
  | _ => none

/-- The flags of the streams of one type. -/
theorem findSome?_dispositions (t t' : StreamType) (flag : Int → String) (indices : List Int)
    (n k : Nat) :
    (indices.mapIdx fun i index => FfmpegOption.disposition t' (i + k) (flag index)).findSome?
        (FfmpegOption.flagOf t (n + k)) = if t' = t then indices[n]?.map flag else none := by
  induction indices generalizing n k with
  | nil => simp
  | cons index indices ih =>
    rw [List.mapIdx_cons, List.findSome?_cons]
    by_cases ht : t' = t
    · cases n with
      | zero => simp [FfmpegOption.flagOf, ht]
      | succ n =>
        have hskip : FfmpegOption.flagOf t (n + 1 + k) (.disposition t' (0 + k) (flag index)) = none := by
          rw [FfmpegOption.flagOf, if_neg]
          omega
        have hshift : (fun i index => FfmpegOption.disposition t' (i + 1 + k) (flag index)) =
            fun i index => FfmpegOption.disposition t' (i + (k + 1)) (flag index) := by
          funext i index
          congr 1
          omega
        have hk : n + 1 + k = n + (k + 1) := by omega
        rw [hskip, hshift, hk, List.getElem?_cons_succ]
        exact ih n (k + 1)
    · have hskip : ∀ i index, FfmpegOption.flagOf t (n + k) (.disposition t' i (flag index)) = none := by
        intro i index
        rw [FfmpegOption.flagOf, if_neg]
        exact fun h => ht h.1
      rw [hskip, if_neg ht]
      refine List.findSome?_eq_none_iff.mpr fun option hoption => ?_
      obtain ⟨i, hi, rfl⟩ := List.mem_mapIdx.mp hoption
      exact hskip _ _

/-- A command with the maps and the flags of a plan, and options that encode between them. -/
theorem executes_of_options {command : FfmpegCommand} {encoding : List FfmpegOption}
    (h : command.options = selectedStreamMaps plan ++ encoding ++
      dispositionFlagsForSelectedStreams plan)
    (hencoding : ∀ option ∈ encoding, option.isEncoding = true)
    (hcopies : FfmpegOption.codec .video "copy" ∈ encoding ↔ plan.action = .remux)
    (hscales : ∀ filter, .videoFilter filter ∈ encoding → inText "scale" filter = false) :
    command.Executes plan := by
  have hmap : ∀ option ∈ selectedStreamMaps plan, ∃ i, option = .map i := by
    intro option hoption
    obtain ⟨i, -, rfl⟩ := List.mem_map.mp hoption
    exact ⟨i, rfl⟩
  have hset : ∀ option ∈ dispositionFlagsForSelectedStreams plan,
      ∃ t i value, option = .disposition t i value := by
    intro option hoption
    rcases List.mem_append.mp hoption with hoption | hoption <;>
      obtain ⟨i, hi, rfl⟩ := List.mem_mapIdx.mp hoption <;> exact ⟨_, _, _, rfl⟩
  have hdisposition : ∀ t n, command.dispositionOf t n =
      (if StreamType.audio = t then
        plan.selectedStreams.audioStreamIndices[n]?.map (audioDisposition plan) else none).or
      (if StreamType.subtitle = t then
        plan.selectedStreams.subtitleStreamIndices[n]?.map (subtitleDisposition plan) else none) := by
    intro t n
    have hmaps : (selectedStreamMaps plan).findSome? (FfmpegOption.flagOf t n) = none := by
      refine List.findSome?_eq_none_iff.mpr fun option hoption => ?_
      obtain ⟨i, rfl⟩ := hmap option hoption
      rfl
    have hnone : encoding.findSome? (FfmpegOption.flagOf t n) = none := by
      refine List.findSome?_eq_none_iff.mpr fun option hoption => ?_
      have hisEncoding := hencoding option hoption
      cases option <;> first | rfl | cases hisEncoding
    have hflags : command.dispositionOf t n = command.options.findSome? (FfmpegOption.flagOf t n) := rfl
    rw [hflags, h, List.findSome?_append, List.findSome?_append, hmaps, hnone, Option.none_or,
      Option.none_or, dispositionFlagsForSelectedStreams, List.findSome?_append]
    exact congrArg₂ Option.or (findSome?_dispositions t .audio _ _ n 0)
      (findSome?_dispositions t .subtitle _ _ n 0)
  refine ⟨?_, ?_, ?_, fun n => ?_, fun n => ?_, fun t n haudio hsubtitle => ?_⟩
  · have hencoded : encoding.filterMap (fun | .map i => some i | _ => none) = ([] : List Int) := by
      refine List.filterMap_eq_nil_iff.mpr fun option hoption => ?_
      have hisEncoding := hencoding option hoption
      cases option <;> first | rfl | cases hisEncoding
    have hflags : (dispositionFlagsForSelectedStreams plan).filterMap
        (fun | .map i => some i | _ => none) = ([] : List Int) := by
      refine List.filterMap_eq_nil_iff.mpr fun option hoption => ?_
      obtain ⟨t, i, value, rfl⟩ := hset option hoption
      rfl
    rw [FfmpegCommand.maps, h, List.filterMap_append, List.filterMap_append, hencoded, hflags,
      List.append_nil, List.append_nil, selectedStreamMaps, List.filterMap_map]
    exact List.filterMap_some
  · rw [FfmpegCommand.copiesVideo, decide_eq_decide, ← hcopies, h, List.mem_append, List.mem_append]
    constructor
    · rintro ((hoption | hoption) | hoption)
      · obtain ⟨i, heq⟩ := hmap _ hoption
        cases heq
      · exact hoption
      · obtain ⟨t, i, value, heq⟩ := hset _ hoption
        cases heq
    · exact fun hoption => .inl (.inr hoption)
  · refine List.any_eq_false.mpr fun option hoption => ?_
    rw [h, List.mem_append, List.mem_append] at hoption
    cases option with
    | videoFilter filter =>
      rcases hoption with (hoption | hoption) | hoption
      · obtain ⟨i, heq⟩ := hmap _ hoption
        cases heq
      · simpa using hscales filter hoption
      · obtain ⟨t, i, value, heq⟩ := hset _ hoption
        cases heq
    | _ => exact Bool.false_ne_true
  · rw [hdisposition, if_pos rfl, if_neg nofun, Option.or_none]
  · rw [hdisposition, if_neg nofun, if_pos rfl, Option.none_or]
  · rw [hdisposition, if_neg (Ne.symm haudio), if_neg (Ne.symm hsubtitle), Option.none_or]

/-- Only a remux or a transcode has a command. -/
theorem buildExecutionCommandPlan_action {inputPath scratchDir ffmpegPath : PosixPath}
    {jobId : Option String} {host : ExecutionHost} {built : ExecutionCommandPlan}
    {command : FfmpegCommand}
    (h : buildExecutionCommandPlan plan inputPath scratchDir ffmpegPath jobId host = .ok built)
    (hcommand : built.command = some command) : plan.action = .remux ∨ plan.action = .transcode := by
  unfold buildExecutionCommandPlan at h
  dsimp only at h
  split at h
  · obtain rfl := Except.ok.inj h
    cases hcommand
  · obtain rfl := Except.ok.inj h
    cases hcommand
  · next haction => exact .inl haction
  · next haction => exact .inr haction

/-- The command that is built for a plan executes it. -/
theorem buildExecutionCommandPlan_executes {inputPath scratchDir ffmpegPath : PosixPath}
    {jobId : Option String} {host : ExecutionHost} {built : ExecutionCommandPlan}
    {command : FfmpegCommand}
    (h : buildExecutionCommandPlan plan inputPath scratchDir ffmpegPath jobId host = .ok built)
    (hcommand : built.command = some command) : command.Executes plan := by
  unfold buildExecutionCommandPlan at h
  dsimp only at h
  split at h
  · obtain rfl := Except.ok.inj h
    cases hcommand
  · obtain rfl := Except.ok.inj h
    cases hcommand
  · next haction =>
    obtain rfl := Except.ok.inj h
    obtain rfl := Option.some.inj hcommand
    refine executes_of_options rfl (by decide) ?_ (by simp [codecOptions])
    simp [codecOptions, haction]
  · next haction =>
    simp only [bind_ok, return_ok] at h
    obtain ⟨backend, hbackend, rfl⟩ := h
    obtain rfl := Option.some.inj hcommand
    have htranscodes := selectExecutionBackend_transcodes hbackend
    refine executes_of_options rfl (fun option hoption => ?_) ?_ fun filter hfilter => ?_
    · simp only [codecOptions, List.mem_append, Option.mem_toList, Option.map_eq_some_iff,
        List.mem_cons, List.not_mem_nil, or_false] at hoption
      obtain (⟨filter, -, rfl⟩ | rfl | rfl | rfl | rfl | rfl) | rfl := hoption <;> rfl
    · have hcopy : "copy" ≠ backend.videoEncoder := Ne.symm htranscodes.encoder
      simp [codecOptions, haction, hcopy]
    · have hupload : ∀ filter ∈ uploadFilters, inText "scale" filter = false := by decide
      refine hupload filter (htranscodes.filter filter ?_)
      simpa [codecOptions] using hfilter

end Built

end Encodr
