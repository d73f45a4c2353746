import Mathlib.Data.Rat.Defs
import Encodr.Python.Path
import Encodr.Python.Text

/-!
# Media files

A media file as probed: its container and its streams, with the fields that planning, execution
and verification read. A duration in seconds is a rational number.

`language_code`, `contains_forced_marker` and the bitrate thresholds of `media/quality.py` are
here too. Thresholds in Mbps are rational numbers; `mbpsToBps` rounds half to even as `round`
does.
-/

namespace Encodr

open Python

/-! ## Streams -/

structure StreamDisposition where
  default : Bool := false
  forced : Bool := false
deriving DecidableEq, Repr

/-- The tags of a stream. `raw` are the values of all its tags. -/
structure StreamTags where
  language : Option String := none
  title : Option String := none
  handlerName : Option String := none
  raw : List String := []
deriving DecidableEq, Repr

structure VideoStream where
  index : Int
  codecName : Option String := none
  width : Option Int := none
  height : Option Int := none
  codedWidth : Option Int := none
  codedHeight : Option Int := none
  bitRate : Option Int := none
deriving DecidableEq, Repr

structure AudioStream where
  index : Int
  codecName : Option String := none
  tags : StreamTags := {}
  disposition : StreamDisposition := {}
  channels : Option Int := none
  channelLayout : Option String := none
  bitRate : Option Int := none
  isCommentaryCandidate : Bool := false
  isSurroundCandidate : Bool := false
  isAtmosCapable : Bool := false
deriving DecidableEq, Repr

structure SubtitleStream where
  index : Int
  codecName : Option String := none
  tags : StreamTags := {}
  disposition : StreamDisposition := {}
  isForced : Bool := false
  isHearingImpairedCandidate : Bool := false
deriving DecidableEq, Repr

/-- An attachment, data or unknown stream. -/
structure OtherStream where
  index : Int
deriving DecidableEq, Repr

/-- `language_code`: an absent or empty language is `und`. -/
def languageCode (value : Option String) : String :=
  match value with
  | none => "und"
  | some s => if s = "" then "und" else s

def AudioStream.language (s : AudioStream) : Option String := s.tags.language

def SubtitleStream.language (s : SubtitleStream) : Option String := s.tags.language

/-! ## Files -/

structure ContainerFormat where
  filePath : PosixPath
  fileName : String
  extension : Option String := none
  formatName : Option String := none
  durationSeconds : Option Rat := none
  sizeBytes : Option Int := none
deriving DecidableEq

structure MediaFile where
  container : ContainerFormat
  videoStreams : List VideoStream := []
  audioStreams : List AudioStream := []
  subtitleStreams : List SubtitleStream := []
  attachmentStreams : List OtherStream := []
  dataStreams : List OtherStream := []
  unknownStreams : List OtherStream := []
  is4k : Bool := false
  isHdrCandidate : Bool := false
  hasEnglishAudio : Bool := false
  hasForcedEnglishSubtitle : Bool := false
  hasSurroundAudio : Bool := false
  hasAtmosCapableAudio : Bool := false
deriving DecidableEq

def MediaFile.extension (m : MediaFile) : Option String := m.container.extension

/-! ## Files of the program itself -/

/-- The marks in the names of its own files, and why such a file is not processed. -/
def exclusionMarks : List (String × String) := [
  (".encodr-backup", "Encodr backup files are managed separately and cannot be processed."),
  (".encodr-restored-replacement",
    "Encodr restored replacement files cannot be queued for processing."),
  (".tmp", "Encodr temporary or staged output files cannot be processed."),
  (".partial", "Encodr temporary or staged output files cannot be processed.")]

/-- `encodr_exclusion_reason`, without a scratch directory. -/
def encodrExclusionReason (path : PosixPath) : Option String :=
  let name := lower path.name
  match exclusionMarks.find? fun (mark, _) => inText (mark ++ ".") name || endsWith name mark with
  | some (_, reason) => some reason
  | none =>
    if inText ".encodr-scratch." name || startsWith name "encodr-scratch." then
      some "Encodr scratch workspace files cannot be processed."
    else none

/-- `is_encodr_excluded_path`. -/
def isEncodrExcludedPath (path : PosixPath) : Bool :=
  (encodrExclusionReason path).isSome

/-! ## Bitrate thresholds -/

/-- `round`, half to even. -/
def roundHalfEven (q : Rat) : Int :=
  let f := q.floor
  let r := q - f
  if r < 1 / 2 then f else if 1 / 2 < r then f + 1 else if f % 2 = 0 then f else f + 1

/-- `mbps_to_bps`. -/
def mbpsToBps (value : Rat) : Int :=
  roundHalfEven (value * 1000000)

/-- The `or` of two optional numbers: the second where the first is absent or zero. -/
def orNumber (a b : Option Int) : Option Int :=
  match a with
  | none => b
  | some n => if n = 0 then b else some n

/-- `stream_height`. -/
def streamHeight (s : VideoStream) : Option Int :=
  orNumber s.height s.codedHeight

/-- `resolution_bucket` is `720p`. -/
def isBucket720p (s : VideoStream) : Bool :=
  match streamHeight s with
  | none =>
    match orNumber s.width s.codedWidth with
    | some w => w ≤ 1280
    | none => false
  | some h => h ≤ 720

/-- `low_bitrate_threshold_bps`, and `minimum_output_bitrate_bps`: the value of the bucket. -/
def bucketBps (s : VideoStream) (at1080p at720p : Rat) : Int :=
  mbpsToBps (if isBucket720p s then at720p else at1080p)

/-- `is_low_bitrate_source`. -/
def isLowBitrateSource (s : VideoStream) (thresholdBps : Int) : Bool :=
  match s.bitRate with
  | some b => b < thresholdBps
  | none => false

end Encodr
