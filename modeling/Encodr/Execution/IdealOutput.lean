import Encodr.Execution.IdealEncoder
import Encodr.Planning.Selected

/-!
# The ideal output of a plan

What the ideal encoder makes of a source under the command of a plan, as a media file: the video, the
selected tracks copied with the flags that the plan gives them, and nothing else (`IdealOutput`).

* `PlanSelects.output`: the output of a built command is the ideal output of its plan.
* `copiedAudio_copy`, `copiedSubtitle_copy`: what a copied track still is.
-/

namespace Encodr

open Python Lib

/-! ## Copied tracks -/

/-- The copy of an audio track, the `i`-th of the output, after its video. -/
def copiedAudio (source : ProbeFile) (plan : ProcessingPlan) (i : Nat) (s : AudioStream) : AudioStream :=
  normaliseAudioStream
    ((source.raw s.index).withDisposition (some (audioDisposition plan s.index))) (1 + i)

/-- The copy of a subtitle track, the `i`-th of the output, after its video and audio. -/
def copiedSubtitle (source : ProbeFile) (plan : ProcessingPlan) (i : Nat) (s : SubtitleStream) :
    SubtitleStream :=
  normaliseSubtitleStream
    ((source.raw s.index).withDisposition (some (subtitleDisposition plan s.index)))
    (1 + plan.selectedStreams.audioStreamIndices.length + i)

/-- The video of the output. -/
def FfmpegCommand.outputVideo (command : FfmpegCommand) (encode : ProbeStream → ProbeStream)
    (s : ProbeStream) : ProbeStream :=
  if command.copiesVideo = false then encode s else s

/-- The media file that the ideal encoder makes of a source under the command of a plan. -/
def idealOutput (plan : ProcessingPlan) (command : FfmpegCommand) (encode : ProbeStream → ProbeStream)
    (format : ContainerFormat) (source : ProbeFile) : MediaFile :=
  normaliseFfprobePayload (command.output encode plan.container.targetContainer format source)

/-- The ideal output of a plan for a source, with the video `encoded` and the given tracks. -/
structure IdealOutput (source : ProbeFile) (plan : ProcessingPlan) (encoded : ProbeStream)
    (audioTracks : List AudioStream) (subtitleTracks : List SubtitleStream) (output : MediaFile) :
    Prop where
  extension : output.extension = some plan.container.targetContainer.value
  video : output.videoStreams = [normaliseVideoStream encoded 0]
  is4k : output.is4k = encoded.is4kResolution
  audio : output.audioStreams = audioTracks.mapIdx (copiedAudio source plan)
  subtitles : output.subtitleStreams = subtitleTracks.mapIdx (copiedSubtitle source plan)
  attachments : output.attachmentStreams.length = plan.selectedStreams.attachmentStreamIndices.length
  data : output.dataStreams.length = plan.selectedStreams.dataStreamIndices.length
  unknown : output.unknownStreams = []
  surround : output.hasSurroundAudio = output.audioStreams.any (·.isSurroundCandidate)
  atmos : output.hasAtmosCapableAudio = output.audioStreams.any (·.isAtmosCapable)

/-! ## The mapped streams -/

section Mapped

variable {source : ProbeFile} {command : FfmpegCommand} {encode : ProbeStream → ProbeStream}
  {indices : List Int} {t : StreamType}

/-- Mapping streams that are there. -/
theorem mapped_eq (hmaps : command.maps = indices)
    (h : ∀ i ∈ indices, 0 ≤ i ∧ i.toNat < source.streams.length) :
    command.mapped source = indices.map source.raw := by
  rw [FfmpegCommand.mapped, hmaps, ← List.filterMap_eq_map]
  refine List.filterMap_congr fun i hi => ?_
  obtain ⟨hpos, hlt⟩ := h i hi
  rw [if_pos hpos, List.getElem?_eq_getElem hlt, Function.comp_apply, ProbeFile.raw,
    List.getElem?_eq_getElem hlt, Option.getD_some]

variable (encode) in
/-- The outputs of tracks of one type that are copied with their flags. -/
theorem copied_eq {flag : Int → String} (hne : t ≠ .video)
    (htype : ∀ i ∈ indices, (source.raw i).type = t)
    (hflag : ∀ n, command.dispositionOf t n = indices[n]?.map flag) :
    (indices.map source.raw).mapIdx (command.outputStream encode) =
      indices.map fun i => (source.raw i).withDisposition (some (flag i)) := by
  refine List.ext_getElem (by simp) fun n hn hn' => ?_
  have hlt : n < indices.length := by simpa using hn'
  have htn := htype indices[n] (List.getElem_mem hlt)
  have hcopied : ¬((source.raw indices[n]).type = .video ∧ command.copiesVideo = false) :=
    fun h => hne (htn.symm.trans h.1)
  rw [List.getElem_mapIdx, List.getElem_map, List.getElem_map, FfmpegCommand.outputStream,
    if_neg hcopied, htn, hflag, List.getElem?_eq_getElem hlt, Option.map_some]

/-- The outputs of blocks of streams, each of one type. -/
theorem outputStreams_blocks {videos audios subtitles attachments datas : List ProbeStream}
    (hvideo : ∀ s ∈ videos, s.type = .video) (haudio : ∀ s ∈ audios, s.type = .audio)
    (hsubtitle : ∀ s ∈ subtitles, s.type = .subtitle)
    (hattachment : ∀ s ∈ attachments, s.type = .attachment) (hdata : ∀ s ∈ datas, s.type = .data) :
    command.outputStreams encode (fun _ => 0)
        (videos ++ audios ++ subtitles ++ attachments ++ datas) =
      videos.mapIdx (command.outputStream encode) ++ audios.mapIdx (command.outputStream encode) ++
        subtitles.mapIdx (command.outputStream encode) ++
        attachments.mapIdx (command.outputStream encode) ++
        datas.mapIdx (command.outputStream encode) := by
  rw [← List.append_nil datas]
  simp only [List.append_assoc]
  rw [FfmpegCommand.outputStreams_append _ hvideo, FfmpegCommand.outputStreams_append _ haudio,
    FfmpegCommand.outputStreams_append _ hsubtitle, FfmpegCommand.outputStreams_append _ hattachment,
    FfmpegCommand.outputStreams_append _ hdata]
  simp [FfmpegCommand.outputStreams]

/-- The flag of a stream does not change its type. -/
@[simp] theorem withDisposition_type (s : ProbeStream) (flag : Option String) :
    (s.withDisposition flag).type = s.type := by
  cases flag <;> rfl

theorem outputStream_type {n : Nat} {s : ProbeStream} (h : s.type = t) (hne : t ≠ .video) :
    (command.outputStream encode n s).type = t := by
  have hcopied : ¬(s.type = .video ∧ command.copiesVideo = false) := fun hs => hne (h.symm.trans hs.1)
  rw [FfmpegCommand.outputStream, if_neg hcopied, withDisposition_type, h]

theorem mapIdx_outputStream_type {block : List ProbeStream} (h : ∀ s ∈ block, s.type = t)
    (hne : t ≠ .video) : ∀ s ∈ block.mapIdx (command.outputStream encode), s.type = t := by
  intro s hs
  obtain ⟨n, hn, rfl⟩ := List.mem_mapIdx.mp hs
  exact outputStream_type (h _ (List.getElem_mem hn)) hne

end Mapped

/-! ## The output of a plan -/

section Output

variable {source : ProbeFile} {policy : ResolvedPlanningPolicy} {rename : RenamePlan}
  {command : FfmpegCommand} {encode : ProbeStream → ProbeStream} {v : VideoStream}

/-- The streams of a file that is made of blocks. -/
structure FileOf (file : ProbeFile) (video : ProbeStream)
    (audios subtitles attachments datas : List ProbeStream) : Prop where
  streams : file.streams = [video] ++ audios ++ subtitles ++ attachments ++ datas
  video : video.type = .video
  audio : ∀ s ∈ audios, s.type = .audio
  subtitle : ∀ s ∈ subtitles, s.type = .subtitle
  attachment : ∀ s ∈ attachments, s.type = .attachment
  data : ∀ s ∈ datas, s.type = .data

variable {file : ProbeFile} {video : ProbeStream} {audios subtitles attachments datas : List ProbeStream}

/-- The streams of one type in a file that is made of blocks. -/
theorem FileOf.streamsOf {α : Type} {normalise : ProbeStream → Nat → α} (t : StreamType)
    (h : FileOf file video audios subtitles attachments datas) :
    file.streamsOf t normalise =
      (if .video = t then [normalise video 0] else []) ++
      (if .audio = t then audios.mapIdx fun i s => normalise s (1 + i) else []) ++
      (if .subtitle = t then
        subtitles.mapIdx fun i s => normalise s (1 + audios.length + i) else []) ++
      (if .attachment = t then attachments.mapIdx fun i s =>
        normalise s (1 + audios.length + subtitles.length + i) else []) ++
      (if .data = t then datas.mapIdx fun i s =>
        normalise s (1 + audios.length + subtitles.length + attachments.length + i) else []) := by
  have hfrom : file.streamsOf t normalise = streamsFrom 0 file.streams t normalise := rfl
  have hvideo : ∀ s ∈ [video], s.type = .video := fun s hs => List.mem_singleton.mp hs ▸ h.video
  rw [hfrom, h.streams, streamsFrom_append, streamsFrom_append, streamsFrom_append, streamsFrom_append,
    streamsFrom_block hvideo, streamsFrom_block h.audio, streamsFrom_block h.subtitle,
    streamsFrom_block h.attachment, streamsFrom_block h.data]
  simp only [List.length_append, List.length_singleton, Nat.zero_add, List.mapIdx_cons,
    List.mapIdx_nil]

theorem FileOf.videoStreams (h : FileOf file video audios subtitles attachments datas) :
    (normaliseFfprobePayload file).videoStreams = [normaliseVideoStream video 0] :=
  (h.streamsOf .video).trans (by simp)

theorem FileOf.audioStreams (h : FileOf file video audios subtitles attachments datas) :
    (normaliseFfprobePayload file).audioStreams =
      audios.mapIdx fun i s => normaliseAudioStream s (1 + i) :=
  (h.streamsOf .audio).trans (by simp)

theorem FileOf.subtitleStreams (h : FileOf file video audios subtitles attachments datas) :
    (normaliseFfprobePayload file).subtitleStreams =
      subtitles.mapIdx fun i s => normaliseSubtitleStream s (1 + audios.length + i) :=
  (h.streamsOf .subtitle).trans (by simp)

theorem FileOf.attachmentStreams (h : FileOf file video audios subtitles attachments datas) :
    (normaliseFfprobePayload file).attachmentStreams.length = attachments.length :=
  (congrArg List.length (h.streamsOf .attachment)).trans (by simp)

theorem FileOf.dataStreams (h : FileOf file video audios subtitles attachments datas) :
    (normaliseFfprobePayload file).dataStreams.length = datas.length :=
  (congrArg List.length (h.streamsOf .data)).trans (by simp)

theorem FileOf.unknownStreams (h : FileOf file video audios subtitles attachments datas) :
    (normaliseFfprobePayload file).unknownStreams = [] :=
  (h.streamsOf .unknown).trans (by simp)

theorem FileOf.is4k (h : FileOf file video audios subtitles attachments datas) :
    (normaliseFfprobePayload file).is4k = video.is4kResolution := by
  have hof : (normaliseFfprobePayload file).is4k =
      (file.streamsOf .video fun s _ => s).any (·.is4kResolution) := by
    rw [ProbeFile.streamsOf, List.any_map]
    rfl
  rw [hof, h.streamsOf .video]
  simp

variable {media : MediaFile} {plan : ProcessingPlan}

/-- The probed stream of a selected one. -/
theorem raw_of_mem {α : Type} (index : α → Int) {normalise : ProbeStream → Nat → α} {t : StreamType}
    {selected : List α} (hindex : ∀ r n, index (normalise r n) = n)
    (hsub : selected ⊆ source.streamsOf t normalise) {i : Int} (hi : i ∈ selected.map index) :
    (source.raw i).type = t ∧ 0 ≤ i ∧ i.toNat < source.streams.length := by
  obtain ⟨s, hs, rfl⟩ := List.mem_map.mp hi
  exact (ProbeFile.eq_of_mem_streamsOf index hindex (hsub hs)).2

theorem video_raw {v : VideoStream} (h : (normaliseFfprobePayload source).videoStreams = [v]) :
    (source.raw v.index).type = .video ∧ 0 ≤ v.index ∧ v.index.toNat < source.streams.length := by
  have hv : v ∈ source.streamsOf .video normaliseVideoStream := by
    show v ∈ (normaliseFfprobePayload source).videoStreams
    rw [h]
    exact List.mem_singleton_self v
  exact (ProbeFile.eq_of_mem_streamsOf VideoStream.index (fun _ _ => rfl) hv).2

/-- What a plan selects from a probed file, by its indices. -/
structure PlanSelects (source : ProbeFile) (plan : ProcessingPlan) (v : VideoStream)
    (audioTracks : List AudioStream) (subtitleTracks : List SubtitleStream) : Prop where
  videoStreams : (normaliseFfprobePayload source).videoStreams = [v]
  video : plan.selectedStreams.videoStreamIndices = [v.index]
  audio : plan.selectedStreams.audioStreamIndices = audioTracks.map (·.index)
  subtitles : plan.selectedStreams.subtitleStreamIndices = subtitleTracks.map (·.index)
  attachments : plan.selectedStreams.attachmentStreamIndices =
    (normaliseFfprobePayload source).attachmentStreams.map (·.index)
  data : plan.selectedStreams.dataStreamIndices =
    (normaliseFfprobePayload source).dataStreams.map (·.index)
  audio_subset : audioTracks ⊆ (normaliseFfprobePayload source).audioStreams
  subtitles_subset : subtitleTracks ⊆ (normaliseFfprobePayload source).subtitleStreams

variable (rename) in
/-- The plan of a plannable file selects its video and the tracks that are kept. -/
theorem buildProcessingPlan_selects (h : Plannable (normaliseFfprobePayload source) policy) :
    ∃ v, PlanSelects source (buildProcessingPlan (normaliseFfprobePayload source) policy rename) v
      (selectedAudio (normaliseFfprobePayload source) policy.audioRules)
      (selectedSubtitles (normaliseFfprobePayload source) policy.subtitleRules policy.languages) := by
  obtain ⟨v, hv, hprimary⟩ := h.exists_video
  refine ⟨v, hv, ?_, (selectAudioStreams_selects h.audio).selectedIndices, rfl, rfl, rfl,
    selectedAudio_subset, selectedSubtitles_subset⟩
  exact congrArg Option.toList hprimary

/-- The ideal output of a command that executes a plan. -/
theorem PlanSelects.output {audioTracks : List AudioStream} {subtitleTracks : List SubtitleStream}
    (format : ContainerFormat) (h : PlanSelects source plan v audioTracks subtitleTracks)
    (hexec : command.Executes plan) (hencode : ∀ s, s.type = .video → (encode s).type = .video) :
    IdealOutput source plan (command.outputVideo encode (source.raw v.index)) audioTracks subtitleTracks
      (idealOutput plan command encode format source) := by
  -- The streams that are mapped exist, and are of the type that the plan says.
  have hvideo : ∀ i ∈ [v.index], (source.raw i).type = .video ∧ 0 ≤ i ∧
      i.toNat < source.streams.length := by
    intro i hi
    obtain rfl := List.mem_singleton.mp hi
    exact video_raw h.videoStreams
  have haudio : ∀ i ∈ audioTracks.map (·.index), (source.raw i).type = .audio ∧ 0 ≤ i ∧
      i.toNat < source.streams.length := fun i hi =>
    raw_of_mem AudioStream.index (fun _ _ => rfl) h.audio_subset hi
  have hsubtitles : ∀ i ∈ subtitleTracks.map (·.index), (source.raw i).type = .subtitle ∧ 0 ≤ i ∧
      i.toNat < source.streams.length := fun i hi =>
    raw_of_mem SubtitleStream.index (fun _ _ => rfl) h.subtitles_subset hi
  have hattachments : ∀ i ∈ (normaliseFfprobePayload source).attachmentStreams.map (·.index),
      (source.raw i).type = .attachment ∧ 0 ≤ i ∧ i.toNat < source.streams.length := fun i hi =>
    raw_of_mem OtherStream.index (fun _ _ => rfl) (List.Subset.refl _) hi
  have hdata : ∀ i ∈ (normaliseFfprobePayload source).dataStreams.map (·.index),
      (source.raw i).type = .data ∧ 0 ≤ i ∧ i.toNat < source.streams.length := fun i hi =>
    raw_of_mem OtherStream.index (fun _ _ => rfl) (List.Subset.refl _) hi
  have hmaps : command.maps = [v.index] ++ audioTracks.map (·.index) ++ subtitleTracks.map (·.index) ++
      (normaliseFfprobePayload source).attachmentStreams.map (·.index) ++
      (normaliseFfprobePayload source).dataStreams.map (·.index) := by
    rw [hexec.maps, h.video, h.audio, h.subtitles, h.attachments, h.data]
  have hmapped := mapped_eq hmaps (by
    simp only [List.forall_mem_append]
    exact ⟨⟨⟨⟨fun i hi => (hvideo i hi).2, fun i hi => (haudio i hi).2⟩,
      fun i hi => (hsubtitles i hi).2⟩, fun i hi => (hattachments i hi).2⟩, fun i hi => (hdata i hi).2⟩)
  have htyped : ∀ {indices : List Int} {t : StreamType}, (∀ i ∈ indices, (source.raw i).type = t ∧
      0 ≤ i ∧ i.toNat < source.streams.length) → ∀ s ∈ indices.map source.raw, s.type = t := by
    intro indices t hindices s hs
    obtain ⟨i, hi, rfl⟩ := List.mem_map.mp hs
    exact (hindices i hi).1
  have hv := (hvideo v.index (List.mem_singleton_self _)).1
  have hvideoOut : ([v.index].map source.raw).mapIdx (command.outputStream encode) =
      [command.outputVideo encode (source.raw v.index)] := by
    simp [FfmpegCommand.outputStream, FfmpegCommand.outputVideo, hv,
      hexec.other .video 0 nofun nofun, ProbeStream.withDisposition]
  have haudioOut := copied_eq encode (t := .audio) nofun
    (fun i hi => (haudio i hi).1) (fun n => (hexec.audio n).trans (by rw [h.audio]))
  have hsubtitlesOut := copied_eq encode (t := .subtitle) nofun
    (fun i hi => (hsubtitles i hi).1) (fun n => (hexec.subtitle n).trans (by rw [h.subtitles]))
  have hfile : FileOf (command.output encode plan.container.targetContainer format source)
      (command.outputVideo encode (source.raw v.index))
      ((audioTracks.map (·.index)).map fun i =>
        (source.raw i).withDisposition (some (audioDisposition plan i)))
      ((subtitleTracks.map (·.index)).map fun i =>
        (source.raw i).withDisposition (some (subtitleDisposition plan i)))
      ((((normaliseFfprobePayload source).attachmentStreams.map (·.index)).map source.raw).mapIdx
        (command.outputStream encode))
      ((((normaliseFfprobePayload source).dataStreams.map (·.index)).map source.raw).mapIdx
        (command.outputStream encode)) := by
    refine ⟨?_, ?_, ?_, ?_, mapIdx_outputStream_type (htyped hattachments) nofun,
      mapIdx_outputStream_type (htyped hdata) nofun⟩
    · rw [← hvideoOut, ← haudioOut, ← hsubtitlesOut, ← outputStreams_blocks (htyped hvideo)
        (htyped haudio) (htyped hsubtitles) (htyped hattachments) (htyped hdata)]
      rw [FfmpegCommand.output, hmapped]
      simp only [List.map_append]
    · rw [FfmpegCommand.outputVideo]
      split
      · exact hencode _ hv
      · exact hv
    · intro s hs
      obtain ⟨i, hi, rfl⟩ := List.mem_map.mp hs
      rw [withDisposition_type, (haudio i hi).1]
    · intro s hs
      obtain ⟨i, hi, rfl⟩ := List.mem_map.mp hs
      rw [withDisposition_type, (hsubtitles i hi).1]
  rw [idealOutput]
  refine ⟨rfl, hfile.videoStreams, hfile.is4k, ?_, ?_, ?_, ?_, hfile.unknownStreams, rfl, rfl⟩
  · rw [hfile.audioStreams]
    exact List.ext_getElem (by simp) fun n hn hn' => by simp [copiedAudio]
  · rw [hfile.subtitleStreams]
    exact List.ext_getElem (by simp) fun n hn hn' => by simp [copiedSubtitle, h.audio]
  · rw [hfile.attachmentStreams, List.length_mapIdx, List.length_map, h.attachments]
  · rw [hfile.dataStreams, List.length_mapIdx, List.length_map, h.data]

end Output

/-! ## What a copied track still is -/

section Copies

variable {source : ProbeFile} {plan : ProcessingPlan} {i : Nat} {a : AudioStream} {s : SubtitleStream}

/-- A copy of an audio track: its format, its texts and what they say are the same. -/
structure AudioCopy (a a' : AudioStream) : Prop where
  tags : a'.tags = a.tags
  codecName : a'.codecName = a.codecName
  channels : a'.channels = a.channels
  surround : a'.isSurroundCandidate = a.isSurroundCandidate
  atmos : a'.isAtmosCapable = a.isAtmosCapable
  commentary : a'.isCommentaryCandidate = true → a.isCommentaryCandidate = true

theorem AudioCopy.language {a' : AudioStream} (h : AudioCopy a a') :
    languageCode a'.language = languageCode a.language := by
  rw [AudioStream.language, h.tags, AudioStream.language]

theorem audioDisposition_cases (plan : ProcessingPlan) (index : Int) :
    audioDisposition plan index = "default" ∨ audioDisposition plan index = "0" := by
  unfold audioDisposition
  split
  · exact .inl rfl
  · exact .inr rfl

variable (plan i) in
theorem copiedAudio_copy (ha : a ∈ (normaliseFfprobePayload source).audioStreams) :
    AudioCopy a (copiedAudio source plan i a) := by
  obtain ⟨r, n, hr, heq⟩ : ∃ r n, source.raw a.index = r ∧ normaliseAudioStream r n = a :=
    ⟨_, _, rfl, (ProbeFile.eq_of_mem_streamsOf AudioStream.index (fun _ _ => rfl) ha).1⟩
  rw [copiedAudio, hr]
  have hflag := audioDisposition_cases plan a.index
  generalize audioDisposition plan a.index = flag at hflag
  rw [← heq]
  refine ⟨rfl, rfl, rfl, rfl, rfl, fun hcommentary => ?_⟩
  have hnames : r.namesCommentary = true := by
    have hsame : (r.withDisposition (some flag)).namesCommentary = r.namesCommentary := rfl
    have hcomment : "comment" ∉ (r.withDisposition (some flag)).flags := by
      rcases hflag with rfl | rfl <;> simp [ProbeStream.withDisposition]
    have hlong : "commentary" ∉ (r.withDisposition (some flag)).flags := by
      rcases hflag with rfl | rfl <;> simp [ProbeStream.withDisposition]
    have hcandidate : (normaliseAudioStream (r.withDisposition (some flag)) (1 + i)).isCommentaryCandidate =
        (decide ("comment" ∈ (r.withDisposition (some flag)).flags) ||
          decide ("commentary" ∈ (r.withDisposition (some flag)).flags) ||
          (r.withDisposition (some flag)).namesCommentary) := rfl
    rw [hcandidate, decide_eq_false hcomment, decide_eq_false hlong, Bool.false_or,
      Bool.false_or] at hcommentary
    exact hsame.symm.trans hcommentary
  have hcandidate : (normaliseAudioStream r n).isCommentaryCandidate = (decide ("comment" ∈ r.flags) ||
      decide ("commentary" ∈ r.flags) || r.namesCommentary) := rfl
  rw [hcandidate, hnames, Bool.or_true]

/-- Exactly the primary track is the default one. -/
theorem copiedAudio_default : (copiedAudio source plan i a).disposition.default =
    decide (audioDisposition plan a.index = "default") := by
  rcases audioDisposition_cases plan a.index with h | h <;>
    simp [copiedAudio, normaliseAudioStream, normaliseDisposition, ProbeStream.withDisposition, h]

/-- A copy of a subtitle track: its format and its texts are the same, its flags are those that the
plan gives it. -/
structure SubtitleCopy (source : ProbeFile) (plan : ProcessingPlan) (s s' : SubtitleStream) : Prop where
  tags : s'.tags = s.tags
  codecName : s'.codecName = s.codecName
  forced : s'.disposition.forced = decide (s.index ∈ plan.subtitles.forcedStreamIndices)
  default : s'.disposition.default = decide (s.index ∉ plan.subtitles.forcedStreamIndices ∧
    plan.subtitles.mainStreamIndex = some s.index)
  isForced : s'.isForced = (s'.disposition.forced || (source.raw s.index).namesForced)
  hearingImpaired : s'.isHearingImpairedCandidate = (source.raw s.index).namesHearingImpaired

theorem SubtitleCopy.language {s' : SubtitleStream} (h : SubtitleCopy source plan s s') :
    languageCode s'.language = languageCode s.language := by
  rw [SubtitleStream.language, h.tags, SubtitleStream.language]

/-- The texts that mark a subtitle as forced are copied. -/
theorem SubtitleCopy.containsForcedMarker {s' : SubtitleStream} (h : SubtitleCopy source plan s s') :
    containsForcedMarker s' = Encodr.containsForcedMarker s := by
  rw [Encodr.containsForcedMarker, h.tags, Encodr.containsForcedMarker]

variable (plan i) in
theorem copiedSubtitle_copy (hs : s ∈ (normaliseFfprobePayload source).subtitleStreams) :
    SubtitleCopy source plan s (copiedSubtitle source plan i s) := by
  obtain ⟨r, n, hr, heq⟩ : ∃ r n, source.raw s.index = r ∧ normaliseSubtitleStream r n = s :=
    ⟨_, _, rfl, (ProbeFile.eq_of_mem_streamsOf SubtitleStream.index (fun _ _ => rfl) hs).1⟩
  have htags : (copiedSubtitle source plan i s).tags = s.tags := by
    rw [copiedSubtitle, hr, ← heq]
    rfl
  have hcodec : (copiedSubtitle source plan i s).codecName = s.codecName := by
    rw [copiedSubtitle, hr, ← heq]
    rfl
  refine ⟨htags, hcodec, ?_, ?_, rfl, ?_⟩
  · by_cases hforced : s.index ∈ plan.subtitles.forcedStreamIndices
    · simp [copiedSubtitle, normaliseSubtitleStream, normaliseDisposition, subtitleDisposition, hforced,
        ProbeStream.withDisposition]
    · by_cases hmain : plan.subtitles.mainStreamIndex = some s.index <;>
        simp [copiedSubtitle, normaliseSubtitleStream, normaliseDisposition, subtitleDisposition,
          hforced, hmain, ProbeStream.withDisposition]
  · by_cases hforced : s.index ∈ plan.subtitles.forcedStreamIndices
    · simp [copiedSubtitle, normaliseSubtitleStream, normaliseDisposition, subtitleDisposition, hforced,
        ProbeStream.withDisposition]
    · by_cases hmain : plan.subtitles.mainStreamIndex = some s.index <;>
        simp [copiedSubtitle, normaliseSubtitleStream, normaliseDisposition, subtitleDisposition,
          hforced, hmain, ProbeStream.withDisposition]
  · have hflags : "hearing_impaired" ∉ ((source.raw s.index).withDisposition
        (some (subtitleDisposition plan s.index))).flags := by
      unfold subtitleDisposition
      split
      · simp [ProbeStream.withDisposition]
      · split <;> simp [ProbeStream.withDisposition]
    have hsame : ((source.raw s.index).withDisposition
        (some (subtitleDisposition plan s.index))).namesHearingImpaired =
        (source.raw s.index).namesHearingImpaired := rfl
    rw [copiedSubtitle, normaliseSubtitleStream, hsame, decide_eq_false hflags, Bool.false_or]

/-- What the flags and the texts of a probed subtitle say of it. -/
theorem subtitle_isForced (hs : s ∈ (normaliseFfprobePayload source).subtitleStreams) :
    s.isForced = (s.disposition.forced || (source.raw s.index).namesForced) := by
  obtain ⟨r, n, hr, heq⟩ : ∃ r n, source.raw s.index = r ∧ normaliseSubtitleStream r n = s :=
    ⟨_, _, rfl, (ProbeFile.eq_of_mem_streamsOf SubtitleStream.index (fun _ _ => rfl) hs).1⟩
  rw [hr, ← heq]
  rfl

/-- A text that says it makes a subtitle one for the hearing impaired. -/
theorem subtitle_hearingImpaired (hs : s ∈ (normaliseFfprobePayload source).subtitleStreams)
    (hnames : (source.raw s.index).namesHearingImpaired = true) :
    s.isHearingImpairedCandidate = true := by
  obtain ⟨r, n, hr, heq⟩ : ∃ r n, source.raw s.index = r ∧ normaliseSubtitleStream r n = s :=
    ⟨_, _, rfl, (ProbeFile.eq_of_mem_streamsOf SubtitleStream.index (fun _ _ => rfl) hs).1⟩
  rw [hr] at hnames
  rw [← heq]
  simp [normaliseSubtitleStream, hnames]

end Copies

end Encodr
