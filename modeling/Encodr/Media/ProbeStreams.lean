import Encodr.Lib.Result
import Encodr.Media.Normalise
import Encodr.Python.JsonText
import Encodr.Python.PathText

/-!
# Streams of a probe document

The records that `media/normalise.py` makes of the entries of an untyped document, with all their fields:
each is a value coerced by `as_string`, `as_int`, `as_float` or `parse_frame_rate`, and the model that is
built of them requires nothing but the index of a stream.

* `normaliseStream`: the stream of an entry.
* `streamIndex_isSome`: the entries that have an index.
-/

namespace Encodr

open Python Lib

namespace Probe

variable {φ : Type} (b : Builtins φ)

/-- A value of an untyped document. -/
abbrev Document (φ : Type) := Json (Number φ)

/-- A mapping of an untyped document. -/
abbrev Mapping (φ : Type) := Fields (Number φ)

/-! ## Coercions -/

/-- `as_string`. -/
def asString : Document φ → Option String
  | .null => none
  | value =>
    let text := strip (value.text b)
    if text = "" then none else some text

/-- `value in (None, "", "N/A")`. -/
def isBlank : Document φ → Bool
  | .null => true
  | .str s => s == "" || s == "N/A"
  | _ => false

/-- `as_int`. -/
def asInt (value : Document φ) : Option Int :=
  if isBlank value then none else int (value.text b)

/-- `as_float`. -/
def asFloat (value : Document φ) : Option φ :=
  if isBlank value then none else b.float (value.text b)

/-- `parse_frame_rate`. -/
def parseFrameRate (value : Document φ) : Option φ :=
  match asString b value with
  | none => none
  | some text =>
    if text ∈ ["0/0", "N/A"] then none
    else
      match split '/' text with
      | numerator :: denominator@(_ :: _) =>
        match asFloat b (.str numerator), asFloat b (.str ("/".intercalate denominator)) with
        | some n, some d => if b.isZero d then none else some (b.div n d)
        | _, _ => none
      | _ => asFloat b (.str text)

/-- `normalise_generic_tags`: the entries that are not `None`, printed. -/
def normaliseGenericTags : Document φ → List (String × String)
  | .object entries =>
    (entries.filter fun entry => match entry.2 with | .null => false | _ => true).map
      fun entry => (entry.1, strip (entry.2.text b))
  | _ => []

/-! ## Records -/

structure StreamTags where
  language : Option String
  title : Option String
  handlerName : Option String
  vendorId : Option String
  mimetype : Option String
  filename : Option String
  raw : List (String × String)
deriving DecidableEq, Repr

structure StreamDisposition where
  default : Bool := false
  dub : Bool := false
  original : Bool := false
  commentary : Bool := false
  lyrics : Bool := false
  karaoke : Bool := false
  forced : Bool := false
  hearingImpaired : Bool := false
  visualImpaired : Bool := false
  cleanEffects : Bool := false
  attachedPic : Bool := false
  timedThumbnails : Bool := false
  captions : Bool := false
  descriptions : Bool := false
  metadata : Bool := false
  dependent : Bool := false
  stillImage : Bool := false
  raw : List (String × Bool) := []
deriving DecidableEq, Repr

structure DynamicRangeMetadata where
  isHdrCandidate : Bool
  isDolbyVisionCandidate : Bool
  sideDataTypes : List String
  masteringDisplayMetadataPresent : Bool
  contentLightMetadataPresent : Bool
  dolbyVisionMetadataPresent : Bool
  hdrFormat : Option String
deriving DecidableEq, Repr

/-- What every stream has. The streams of no listed type have nothing else. -/
structure BaseStream (φ : Type) where
  index : Int
  streamOrder : Nat
  streamType : StreamType
  codecName : Option String
  codecLongName : Option String
  profile : Option String
  codecTagString : Option String
  codecTag : Option String
  tags : StreamTags
  disposition : StreamDisposition
  rawStream : Mapping φ

structure VideoStream (φ : Type) extends BaseStream φ where
  width : Option Int
  height : Option Int
  codedWidth : Option Int
  codedHeight : Option Int
  sampleAspectRatio : Option String
  displayAspectRatio : Option String
  pixelFormat : Option String
  fieldOrder : Option String
  frameRate : Option φ
  rawFrameRate : Option String
  averageFrameRate : Option φ
  rawAverageFrameRate : Option String
  bitRate : Option Int
  level : Option Int
  colorRange : Option String
  colorSpace : Option String
  colorTransfer : Option String
  colorPrimaries : Option String
  chromaLocation : Option String
  bitsPerRawSample : Option Int
  dynamicRange : DynamicRangeMetadata
  is4k : Bool

structure AudioStream (φ : Type) extends BaseStream φ where
  channels : Option Int
  channelLayout : Option String
  sampleRateHz : Option Int
  bitRate : Option Int
  isCommentaryCandidate : Bool
  isSurroundCandidate : Bool
  isAtmosCapable : Bool

inductive SubtitleKind where
  | text
  | image
  | data
  | unknown
deriving DecidableEq, Repr

structure SubtitleStream (φ : Type) extends BaseStream φ where
  subtitleKind : SubtitleKind
  isForced : Bool
  isHearingImpairedCandidate : Bool

/-! ## Tags, flags and formats -/

/-- `normalise_stream_tags`. Of two keys that differ in case only, the last counts. -/
def normaliseStreamTags (rawTags : Document φ) : StreamTags :=
  let tags := normaliseGenericTags b rawTags
  let value (key : String) : Option String :=
    (tags.reverse.find? fun kv => lower kv.1 = key).map fun kv => kv.2
  { language := (value "language").map lower
    title := value "title"
    handlerName := value "handler_name"
    vendorId := value "vendor_id"
    mimetype := value "mimetype"
    filename := value "filename"
    raw := tags }

/-- A flag of a disposition, which may be a truth value or a number. -/
def rawFlag : Document φ → Bool
  | .bool value => value
  | value =>
    match asInt b value with
    | some n => n != 0
    | none => false

/-- `normalise_disposition`. -/
def normaliseDisposition : Document φ → StreamDisposition
  | .object entries =>
    let rawFlags := entries.map fun entry => (entry.1, rawFlag b entry.2)
    let flag (name : String) : Bool :=
      match rawFlags.find? fun entry => entry.1 = name with
      | some entry => entry.2
      | none => false
    { default := flag "default"
      dub := flag "dub"
      original := flag "original"
      commentary := flag "comment" || flag "commentary"
      lyrics := flag "lyrics"
      karaoke := flag "karaoke"
      forced := flag "forced"
      hearingImpaired := flag "hearing_impaired"
      visualImpaired := flag "visual_impaired"
      cleanEffects := flag "clean_effects"
      attachedPic := flag "attached_pic"
      timedThumbnails := flag "timed_thumbnails"
      captions := flag "captions"
      descriptions := flag "descriptions"
      metadata := flag "metadata"
      dependent := flag "dependent"
      stillImage := flag "still_image"
      raw := rawFlags }
  | _ => {}

/-- The types of the side data that have one. -/
def sideDataTypes : Document φ → List String
  | .list items => items.filterMap fun item => do
    let entries ← item.asFields
    asString b (entries.get "side_data_type")
  | _ => []

/-- `normalise_dynamic_range`. -/
def normaliseDynamicRange (raw : Mapping φ) : DynamicRangeMetadata :=
  let colorTransfer := asString b (raw.get "color_transfer")
  let types := sideDataTypes b (raw.get "side_data_list")
  let joined := lower (" ".intercalate types)
  let mastering := inText "mastering display metadata" joined
  let contentLight := inText "content light level metadata" joined
  let dolbyVision := inText "dovi configuration record" joined
  { isHdrCandidate := colorTransfer == some "smpte2084" ||
      colorTransfer == some "arib-std-b67" || mastering || contentLight || dolbyVision
    isDolbyVisionCandidate := dolbyVision
    sideDataTypes := types
    masteringDisplayMetadataPresent := mastering
    contentLightMetadataPresent := contentLight
    dolbyVisionMetadataPresent := dolbyVision
    hdrFormat :=
      if dolbyVision then some "dolby_vision"
      else if colorTransfer = some "smpte2084" then some "hdr10_pq"
      else if colorTransfer = some "arib-std-b67" then some "hlg"
      else none }

/-- `detect_subtitle_kind`. -/
def detectSubtitleKind (codecName : Option String) : SubtitleKind :=
  match codecName.map lower with
  | none => .unknown
  | some name =>
    if name ∈ ["subrip", "ass", "ssa", "mov_text", "webvtt", "text", "ttml"] then .text
    else if name ∈ ["hdmv_pgs_subtitle", "dvd_subtitle", "xsub", "dvb_subtitle"] then .image
    else if inText "teletext" name || inText "dvb" name then .data
    else .unknown

/-- `collect_text_markers`. -/
def collectTextMarkers (raw : Mapping φ) (tags : StreamTags) : String :=
  lower (" ".intercalate [(asString b (raw.get "profile")).getD "", tags.title.getD "",
    tags.handlerName.getD "", " ".intercalate (tags.raw.map fun kv => kv.2)])

/-- `is_4k_resolution`. -/
def is4kResolution (width height : Option Int) : Bool :=
  decide (3840 ≤ width.getD 0) || decide (2160 ≤ height.getD 0)

/-- `is_surround_audio`. -/
def isSurroundAudio (channels : Option Int) (channelLayout : Option String) : Bool :=
  decide (6 ≤ channels.getD 0) || containsAny (lower (channelLayout.getD "")) ["5.1", "7.1", "6.1"]

/-- `is_atmos_capable`. -/
def isAtmosCapable (codecName profile : Option String) (textMarkers : String) : Bool :=
  let markers := lower (" ".intercalate
    ([codecName.getD "", profile.getD "", textMarkers].filter (· ≠ "")))
  inText "atmos" markers ||
    ((codecName == some "truehd" || codecName == some "eac3") && inText "joc" markers)

/-! ## Streams -/

/-- The index of a stream: its position where the entry has none. -/
def streamIndex (raw : Mapping φ) (order : Nat) : Option Int :=
  match raw.get "index" with
  | .null => some order
  | value => asInt b value

/-- `normalise_base_stream_fields`, as the models of the streams accept them: an index that is `None` is
a `ValidationError`, here `none`. -/
def normaliseBaseStreamFields (raw : Mapping φ) (order : Nat) (streamType : StreamType) :
    Option (BaseStream φ) := do
  let index ← streamIndex b raw order
  return {
    index
    streamOrder := order
    streamType
    codecName := asString b (raw.get "codec_name")
    codecLongName := asString b (raw.get "codec_long_name")
    profile := asString b (raw.get "profile")
    codecTagString := asString b (raw.get "codec_tag_string")
    codecTag := asString b (raw.get "codec_tag")
    tags := normaliseStreamTags b (raw.get "tags")
    disposition := normaliseDisposition b (raw.get "disposition")
    rawStream := raw }

/-- `normalise_video_stream`. -/
def normaliseVideoStream (raw : Mapping φ) (order : Nat) : Option (VideoStream φ) := do
  let base ← normaliseBaseStreamFields b raw order .video
  let width := asInt b (raw.get "width")
  let height := asInt b (raw.get "height")
  return {
    toBaseStream := base
    width
    height
    codedWidth := asInt b (raw.get "coded_width")
    codedHeight := asInt b (raw.get "coded_height")
    sampleAspectRatio := asString b (raw.get "sample_aspect_ratio")
    displayAspectRatio := asString b (raw.get "display_aspect_ratio")
    pixelFormat := asString b (raw.get "pix_fmt")
    fieldOrder := asString b (raw.get "field_order")
    frameRate := parseFrameRate b (raw.get "r_frame_rate")
    rawFrameRate := asString b (raw.get "r_frame_rate")
    averageFrameRate := parseFrameRate b (raw.get "avg_frame_rate")
    rawAverageFrameRate := asString b (raw.get "avg_frame_rate")
    bitRate := asInt b (raw.get "bit_rate")
    level := asInt b (raw.get "level")
    colorRange := asString b (raw.get "color_range")
    colorSpace := asString b (raw.get "color_space")
    colorTransfer := asString b (raw.get "color_transfer")
    colorPrimaries := asString b (raw.get "color_primaries")
    chromaLocation := asString b (raw.get "chroma_location")
    bitsPerRawSample := asInt b (raw.get "bits_per_raw_sample")
    dynamicRange := normaliseDynamicRange b raw
    is4k := is4kResolution width height }

/-- `normalise_audio_stream`. -/
def normaliseAudioStream (raw : Mapping φ) (order : Nat) : Option (AudioStream φ) := do
  let base ← normaliseBaseStreamFields b raw order .audio
  let textMarkers := collectTextMarkers b raw base.tags
  let channels := asInt b (raw.get "channels")
  let channelLayout := asString b (raw.get "channel_layout")
  return {
    toBaseStream := base
    channels
    channelLayout
    sampleRateHz := asInt b (raw.get "sample_rate")
    bitRate := asInt b (raw.get "bit_rate")
    isCommentaryCandidate := base.disposition.commentary ||
      containsAny textMarkers ["commentary", "director commentary", "audio commentary"]
    isSurroundCandidate := isSurroundAudio channels channelLayout
    isAtmosCapable := isAtmosCapable (asString b (raw.get "codec_name"))
      (asString b (raw.get "profile")) textMarkers }

/-- `normalise_subtitle_stream`. -/
def normaliseSubtitleStream (raw : Mapping φ) (order : Nat) : Option (SubtitleStream φ) := do
  let base ← normaliseBaseStreamFields b raw order .subtitle
  let textMarkers := collectTextMarkers b raw base.tags
  return {
    toBaseStream := base
    subtitleKind := detectSubtitleKind (asString b (raw.get "codec_name"))
    isForced := base.disposition.forced || containsAny textMarkers ["forced"]
    isHearingImpairedCandidate := base.disposition.hearingImpaired ||
      containsAny textMarkers ["sdh", "hearing impaired", "hoh"] }

/-- `normalise_attachment_stream`. -/
def normaliseAttachmentStream (raw : Mapping φ) (order : Nat) : Option (BaseStream φ) :=
  normaliseBaseStreamFields b raw order .attachment

/-- `normalise_data_stream`. -/
def normaliseDataStream (raw : Mapping φ) (order : Nat) : Option (BaseStream φ) :=
  normaliseBaseStreamFields b raw order .data

/-- `normalise_unknown_stream`. -/
def normaliseUnknownStream (raw : Mapping φ) (order : Nat) : Option (BaseStream φ) :=
  normaliseBaseStreamFields b raw order .unknown

/-! ## Indices -/

section Base

variable (raw : Mapping φ) (order : Nat)

theorem normaliseVideoStream_base : (normaliseVideoStream b raw order).map (·.toBaseStream) =
    normaliseBaseStreamFields b raw order .video := by
  unfold normaliseVideoStream
  cases normaliseBaseStreamFields b raw order .video <;> rfl

theorem normaliseAudioStream_base : (normaliseAudioStream b raw order).map (·.toBaseStream) =
    normaliseBaseStreamFields b raw order .audio := by
  unfold normaliseAudioStream
  cases normaliseBaseStreamFields b raw order .audio <;> rfl

theorem normaliseSubtitleStream_base : (normaliseSubtitleStream b raw order).map (·.toBaseStream) =
    normaliseBaseStreamFields b raw order .subtitle := by
  unfold normaliseSubtitleStream
  cases normaliseBaseStreamFields b raw order .subtitle <;> rfl

end Base

/-- An index that is missing, `None`, an integer, or the text of one. -/
def hasIndex (raw : Mapping φ) : Bool :=
  match raw.get "index" with
  | .null => true
  | value => value.isIntText

/-- The integers of `int` are those of `as_int`: neither blank text is one. -/
theorem asInt_isSome (value : Document φ) : (asInt b value).isSome = value.isIntText := by
  have hblank : int "" = none ∧ int "N/A" = none := by decide +kernel
  rw [asInt]
  split
  · next h =>
    cases value with
    | null => rfl
    | str s =>
      rcases (by simpa [isBlank] using h : s = "" ∨ s = "N/A") with rfl | rfl
      · exact (congrArg Option.isSome hblank.1).symm
      · exact (congrArg Option.isSome hblank.2).symm
    | bool value => cases h
    | number n => cases h
    | list items => cases h
    | object entries => cases h
  · exact Json.int_text b value

theorem streamIndex_isSome (raw : Mapping φ) (order : Nat) :
    (streamIndex b raw order).isSome = hasIndex raw := by
  unfold streamIndex hasIndex
  split
  · rfl
  · exact asInt_isSome b _

end Probe

end Encodr
