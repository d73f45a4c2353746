import Mathlib.Data.List.Nodup
import Encodr.Media.Models

/-!
# Media files from probes

`normalise_ffprobe_payload`: the media file of a probed file, and what the planner is told of a
stream by its tags, its flags and its format.

`ffprobe` numbers the streams of a file by their order, so the index of a stream is its position. The
values of a stream are taken as `as_string` and `as_int` give them, and its flags are the entries of
`disposition` that are set.

* `normaliseFfprobePayload`: the media file.
* `ProbeFile.mem_subtitleStreams`, `mem_audioStreams`: where a stream of the media file is from.
* `ProbeFile.raw`: the probed stream of a stream.
-/

namespace Encodr

open Python

/-! ## Probed files -/

inductive StreamType where
  | video
  | audio
  | subtitle
  | attachment
  | data
  | unknown
deriving DecidableEq, Repr

/-- A stream as `ffprobe` reports it: the fields that are read. -/
structure ProbeStream where
  codecType : Option String := none
  codecName : Option String := none
  profile : Option String := none
  tags : List (String × String) := []
  flags : List String := []
  width : Option Int := none
  height : Option Int := none
  codedWidth : Option Int := none
  codedHeight : Option Int := none
  bitRate : Option Int := none
  channels : Option Int := none
  channelLayout : Option String := none
  colorTransfer : Option String := none
  sideDataTypes : List String := []
deriving DecidableEq, Repr

/-- A media file as it is probed: its container, and its streams in order. -/
structure ProbeFile where
  container : ContainerFormat
  streams : List ProbeStream
deriving DecidableEq

/-- `normalise_stream_type`. -/
def normaliseStreamType (value : Option String) : StreamType :=
  match value.map lower with
  | some "video" => .video
  | some "audio" => .audio
  | some "subtitle" => .subtitle
  | some "attachment" => .attachment
  | some "data" => .data
  | _ => .unknown

/-- The type of a stream. -/
def ProbeStream.type (s : ProbeStream) : StreamType := normaliseStreamType s.codecType

/-! ## Tags and flags -/

/-- `normalise_generic_tags`. -/
def normaliseGenericTags (tags : List (String × String)) : List (String × String) :=
  tags.map fun kv => (kv.1, strip kv.2)

/-- `normalise_stream_tags`. Of two keys that differ in case only, the last counts. -/
def normaliseStreamTags (rawTags : List (String × String)) : StreamTags :=
  let tags := normaliseGenericTags rawTags
  let value (key : String) : Option String :=
    (tags.reverse.find? fun kv => lower kv.1 = key).map fun kv => kv.2
  { language := (value "language").map lower
    title := value "title"
    handlerName := value "handler_name"
    raw := tags.map fun kv => kv.2 }

/-- `normalise_disposition`. -/
def normaliseDisposition (flags : List String) : StreamDisposition where
  default := "default" ∈ flags
  forced := "forced" ∈ flags

/-- `contains_any`. -/
def containsAny (text : String) (needles : List String) : Bool :=
  needles.any fun needle => inText needle text

namespace ProbeStream

variable (s : ProbeStream)

/-- The tags of the stream. -/
def streamTags : StreamTags := normaliseStreamTags s.tags

/-- `collect_text_markers`. -/
def textMarkers : String :=
  lower (" ".intercalate [s.profile.getD "", s.streamTags.title.getD "",
    s.streamTags.handlerName.getD "", " ".intercalate s.streamTags.raw])

/-- The texts of the stream call it commentary. -/
def namesCommentary : Bool :=
  containsAny s.textMarkers ["commentary", "director commentary", "audio commentary"]

/-- The texts of the stream call it forced. -/
def namesForced : Bool :=
  containsAny s.textMarkers ["forced"]

/-- The texts of the stream call it a subtitle for the hearing impaired. -/
def namesHearingImpaired : Bool :=
  containsAny s.textMarkers ["sdh", "hearing impaired", "hoh"]

/-- `is_surround_audio`. -/
def isSurroundAudio : Bool :=
  decide (6 ≤ s.channels.getD 0) ||
    containsAny (lower (s.channelLayout.getD "")) ["5.1", "7.1", "6.1"]

/-- `is_atmos_capable`. -/
def isAtmosCapable : Bool :=
  let markers := lower (" ".intercalate
    ([s.codecName.getD "", s.profile.getD "", s.textMarkers].filter (· ≠ "")))
  inText "atmos" markers ||
    (decide (s.codecName ∈ [some "truehd", some "eac3"]) && inText "joc" markers)

/-- `is_hdr_candidate` of `normalise_dynamic_range`. -/
def isHdrCandidate : Bool :=
  decide (s.colorTransfer ∈ [some "smpte2084", some "arib-std-b67"]) ||
    containsAny (lower (" ".intercalate s.sideDataTypes))
      ["mastering display metadata", "content light level metadata", "dovi configuration record"]

/-- `is_4k_resolution`. -/
def is4kResolution : Bool :=
  decide (3840 ≤ s.width.getD 0) || decide (2160 ≤ s.height.getD 0)

end ProbeStream

/-! ## Streams -/

/-- `normalise_video_stream`. -/
def normaliseVideoStream (s : ProbeStream) (order : Nat) : VideoStream where
  index := order
  codecName := s.codecName
  width := s.width
  height := s.height
  codedWidth := s.codedWidth
  codedHeight := s.codedHeight
  bitRate := s.bitRate

/-- `normalise_audio_stream`. -/
def normaliseAudioStream (s : ProbeStream) (order : Nat) : AudioStream where
  index := order
  codecName := s.codecName
  tags := s.streamTags
  disposition := normaliseDisposition s.flags
  channels := s.channels
  channelLayout := s.channelLayout
  bitRate := s.bitRate
  isCommentaryCandidate :=
    decide ("comment" ∈ s.flags) || decide ("commentary" ∈ s.flags) || s.namesCommentary
  isSurroundCandidate := s.isSurroundAudio
  isAtmosCapable := s.isAtmosCapable

/-- `normalise_subtitle_stream`. -/
def normaliseSubtitleStream (s : ProbeStream) (order : Nat) : SubtitleStream where
  index := order
  codecName := s.codecName
  tags := s.streamTags
  disposition := normaliseDisposition s.flags
  isForced := (normaliseDisposition s.flags).forced || s.namesForced
  isHearingImpairedCandidate := decide ("hearing_impaired" ∈ s.flags) || s.namesHearingImpaired

/-- `normalise_attachment_stream`, `normalise_data_stream` and `normalise_unknown_stream`. -/
def normaliseOtherStream (_ : ProbeStream) (order : Nat) : OtherStream where
  index := order

/-! ## Files -/

namespace ProbeFile

variable (file : ProbeFile)

/-- The streams of one type, with their positions. -/
def ofType (t : StreamType) : List (ProbeStream × Nat) :=
  file.streams.zipIdx.filter fun p => p.1.type = t

/-- The streams of one type, normalised. -/
def streamsOf {α : Type} (t : StreamType) (normalise : ProbeStream → Nat → α) : List α :=
  (file.ofType t).map fun p => normalise p.1 p.2

end ProbeFile

/-- `normalise_ffprobe_payload`. -/
def normaliseFfprobePayload (file : ProbeFile) : MediaFile :=
  let audioStreams := file.streamsOf .audio normaliseAudioStream
  let subtitleStreams := file.streamsOf .subtitle normaliseSubtitleStream
  { container := file.container
    videoStreams := file.streamsOf .video normaliseVideoStream
    audioStreams := audioStreams
    subtitleStreams := subtitleStreams
    attachmentStreams := file.streamsOf .attachment normaliseOtherStream
    dataStreams := file.streamsOf .data normaliseOtherStream
    unknownStreams := file.streamsOf .unknown normaliseOtherStream
    is4k := (file.ofType .video).any fun p => p.1.is4kResolution
    isHdrCandidate := (file.ofType .video).any fun p => p.1.isHdrCandidate
    hasEnglishAudio := audioStreams.any fun s => s.language = some "eng"
    hasForcedEnglishSubtitle := subtitleStreams.any fun s => s.language = some "eng" && s.isForced
    hasSurroundAudio := audioStreams.any (·.isSurroundCandidate)
    hasAtmosCapableAudio := audioStreams.any (·.isAtmosCapable) }

/-! ## Where a stream is from -/

namespace ProbeFile

variable {file : ProbeFile} {t : StreamType}

/-- The probed stream at an index. -/
def raw (file : ProbeFile) (index : Int) : ProbeStream :=
  (file.streams[index.toNat]?).getD {}

theorem mem_ofType {p : ProbeStream × Nat} :
    p ∈ file.ofType t ↔ file.streams[p.2]? = some p.1 ∧ p.1.type = t := by
  simp [ofType, List.mem_zipIdx_iff_getElem?]

section StreamsOf

variable {α : Type} {normalise : ProbeStream → Nat → α} {s : α}

/-- A normalised stream is that of its probed stream. -/
theorem eq_of_mem_streamsOf (index : α → Int) (hindex : ∀ r n, index (normalise r n) = n)
    (h : s ∈ file.streamsOf t normalise) :
    normalise (file.raw (index s)) (index s).toNat = s ∧ (file.raw (index s)).type = t ∧
      0 ≤ index s ∧ (index s).toNat < file.streams.length := by
  obtain ⟨⟨r, n⟩, hmem, rfl⟩ := List.mem_map.mp h
  obtain ⟨hr, ht⟩ := mem_ofType.mp hmem
  have hraw : file.raw (n : Int) = r := by rw [raw, Int.toNat_natCast, hr, Option.getD_some]
  dsimp only at ht ⊢
  rw [hindex, hraw, Int.toNat_natCast]
  exact ⟨rfl, ht, Int.natCast_nonneg n, (List.getElem?_eq_some_iff.mp hr).1⟩

/-- The streams of one type have different indices. -/
theorem nodup_streamsOf (index : α → Int) (hindex : ∀ r n, index (normalise r n) = n) :
    ((file.streamsOf t normalise).map index).Nodup := by
  have hpos : ((file.ofType t).map Prod.snd).Nodup := by
    refine List.Nodup.sublist (List.Sublist.map _ List.filter_sublist) ?_
    rw [List.zipIdx_map_snd]
    exact List.nodup_range'
  have hsame : (file.streamsOf t normalise).map index =
      ((file.ofType t).map Prod.snd).map fun n : Nat => (n : Int) := by
    simp [streamsOf, hindex]
  rw [hsame]
  exact hpos.map fun _ _ h => Int.ofNat_inj.mp h

end StreamsOf

end ProbeFile

end Encodr
