import Encodr.Media.ProbeStreams

/-!
# Probe documents

`parse_ffprobe_json_output` and `normalise_ffprobe_payload`: what becomes of the output of `ffprobe`.
The decoder's outcome is given: a value, a `JSONDecodeError`, or another exception.

* `normaliseStreams_partition`: the loop over the entries puts each in the list of its declared type.
* `contained_bind`, `normaliseStreams_contained_iff`: the exceptions that leave a step.
* `parseFfprobeJsonOutput_settles_iff`: when the output gives a `ProbeError` or a media file with all its
  streams.
-/

namespace Encodr

open Python Lib

namespace Probe

/-! ## Errors -/

structure ProbeErrorDetail where
  location : String
  message : String
deriving DecidableEq, Repr

/-- A `ProbeError`. -/
structure ProbeError where
  kind : String
  message : String
  filePath : PosixPath
  details : List ProbeErrorDetail
deriving DecidableEq

/-- `ProbeInvalidJsonError`. -/
def probeInvalidJsonError (filePath : PosixPath) (location message : String) : ProbeError where
  kind := "probe_invalid_json"
  message := "ffprobe did not return valid JSON output."
  filePath := filePath
  details := [{ location, message }]

/-- `ProbeDataError`. -/
def probeDataError (text : String) (filePath : PosixPath) (location message : String) : ProbeError where
  kind := "probe_data_invalid"
  message := text
  filePath := filePath
  details := [{ location, message }]

/-- What leaves the parser instead of a media file. -/
inductive ProbeFailure where
  | probe (error : ProbeError)
  /-- The `TypeError` of `Path`. -/
  | typeError
  /-- The `ValidationError` of a model. -/
  | validationError
  /-- An exception of `bytes.decode` or `json.loads` that is no `JSONDecodeError`. -/
  | loadError
deriving DecidableEq

/-! ## Media files -/

variable {φ : Type} (b : Builtins φ)

structure ContainerFormat (φ : Type) where
  filePath : PosixPath
  fileName : String
  extension : Option String
  formatName : Option String
  formatLongName : Option String
  durationSeconds : Option φ
  startTimeSeconds : Option φ
  bitRate : Option Int
  sizeBytes : Option Int
  probeScore : Option Int
  streamCount : Nat
  tags : List (String × String)

structure Chapter (φ : Type) where
  id : Option Int
  timeBase : Option String
  start : Option Int
  startTime : Option φ
  stop : Option Int
  stopTime : Option φ
  title : Option String
  tags : List (String × String)

/-- The streams of a file by their types. -/
structure Streams (φ : Type) where
  videoStreams : List (VideoStream φ) := []
  audioStreams : List (AudioStream φ) := []
  subtitleStreams : List (SubtitleStream φ) := []
  attachmentStreams : List (BaseStream φ) := []
  dataStreams : List (BaseStream φ) := []
  unknownStreams : List (BaseStream φ) := []

structure MediaFile (φ : Type) extends Streams φ where
  container : ContainerFormat φ
  chapters : List (Chapter φ)
  rawFormat : Mapping φ
  is4k : Bool
  isHdrCandidate : Bool
  hasEnglishAudio : Bool
  hasForcedEnglishSubtitle : Bool
  hasSurroundAudio : Bool
  hasAtmosCapableAudio : Bool

/-- `normalise_container`. -/
def normaliseContainer (rawFormat : Mapping φ) (filePath : PosixPath) (streamCount : Nat) :
    ContainerFormat φ :=
  let extension := String.ofList ((lower filePath.suffix).toList.dropWhile (· = '.'))
  { filePath
    fileName := filePath.name
    extension := if extension = "" then none else some extension
    formatName := asString b (rawFormat.get "format_name")
    formatLongName := asString b (rawFormat.get "format_long_name")
    durationSeconds := asFloat b (rawFormat.get "duration")
    startTimeSeconds := asFloat b (rawFormat.get "start_time")
    bitRate := asInt b (rawFormat.get "bit_rate")
    sizeBytes := asInt b (rawFormat.get "size")
    probeScore := asInt b (rawFormat.get "probe_score")
    streamCount
    tags := normaliseGenericTags b (rawFormat.get "tags") }

/-- One chapter of `normalise_chapters`. -/
def normaliseChapter (raw : Mapping φ) : Chapter φ :=
  let tags := normaliseGenericTags b (raw.get "tags")
  { id := asInt b (raw.get "id")
    timeBase := asString b (raw.get "time_base")
    start := asInt b (raw.get "start")
    startTime := asFloat b (raw.get "start_time")
    stop := asInt b (raw.get "end")
    stopTime := asFloat b (raw.get "end_time")
    title := (tags.find? fun kv => kv.1 = "title").map fun kv => kv.2
    tags }

/-- `normalise_chapters`. -/
def normaliseChapters (filePath : PosixPath) : Document φ → Except ProbeFailure (List (Chapter φ))
  | .null => return []
  | .list items => items.zipIdx.mapM fun p => do
    let raw ← found (.probe (probeDataError "Probe payload contains a non-mapping chapter entry."
      filePath ("chapters[" ++ toString p.2 ++ "]") "Expected a chapter mapping.")) p.1.asFields
    return normaliseChapter b raw
  | _ => throw (.probe (probeDataError "Probe payload contains invalid chapter data." filePath
      "chapters" "Expected a chapter list."))

/-! ## Streams -/

/-- The type that an entry declares. -/
def declaredType (raw : Mapping φ) : StreamType :=
  normaliseStreamType (asString b (raw.get "codec_type"))

/-- One entry in the loop of `normalise_ffprobe_payload`: its stream goes to the end of its list. -/
def Streams.add (s : Streams φ) (raw : Mapping φ) (order : Nat) : Option (Streams φ) :=
  match declaredType b raw with
  | .video => do
    let stream ← normaliseVideoStream b raw order
    return { s with videoStreams := s.videoStreams ++ [stream] }
  | .audio => do
    let stream ← normaliseAudioStream b raw order
    return { s with audioStreams := s.audioStreams ++ [stream] }
  | .subtitle => do
    let stream ← normaliseSubtitleStream b raw order
    return { s with subtitleStreams := s.subtitleStreams ++ [stream] }
  | .attachment => do
    let stream ← normaliseAttachmentStream b raw order
    return { s with attachmentStreams := s.attachmentStreams ++ [stream] }
  | .data => do
    let stream ← normaliseDataStream b raw order
    return { s with dataStreams := s.dataStreams ++ [stream] }
  | .unknown => do
    let stream ← normaliseUnknownStream b raw order
    return { s with unknownStreams := s.unknownStreams ++ [stream] }

/-- The loop of `normalise_ffprobe_payload` over the entries from a position on. -/
def normaliseStreams (filePath : PosixPath) :
    List (Document φ) → Nat → Streams φ → Except ProbeFailure (Streams φ)
  | [], _, s => return s
  | entry :: entries, order, s => do
    let raw ← found (.probe (probeDataError "Probe payload contains a non-mapping stream entry."
      filePath ("streams[" ++ toString order ++ "]") "Expected a stream mapping.")) entry.asFields
    let s ← found .validationError (s.add b raw order)
    normaliseStreams filePath entries (order + 1) s

/-- `Path(filename or file_path)`, `none` for its `TypeError`. -/
def resolvedFilePath (filename : Document φ) (filePath : PosixPath) : Option PosixPath :=
  if filename.truthy b then
    match filename with
    | .str text => some (.parse text)
    | _ => none
  else some filePath

/-- `normalise_ffprobe_payload`. -/
def normaliseFfprobePayload (filePath : PosixPath) (payload : Document φ) :
    Except ProbeFailure (MediaFile φ) := do
  let payload ← found (.probe (probeDataError "Probe payload must be a JSON object." filePath
    "root" "Expected a mapping.")) payload.asFields
  let rawStreams ← found (.probe (probeDataError "Probe payload is missing a valid streams list."
    filePath "streams" "Expected a list of streams.")) (payload.get "streams").asList
  let rawFormat ← found (.probe (probeDataError "Probe payload is missing valid format metadata."
    filePath "format" "Expected a format mapping.")) (payload.get "format").asFields
  let resolved ← found .typeError (resolvedFilePath b (rawFormat.get "filename") filePath)
  let container := normaliseContainer b rawFormat resolved rawStreams.length
  let streams ← normaliseStreams b resolved rawStreams 0 {}
  let chapters ← normaliseChapters b resolved (payload.getD "chapters" (.list []))
  return {
    toStreams := streams
    container
    chapters
    rawFormat
    is4k := streams.videoStreams.any (·.is4k)
    isHdrCandidate := streams.videoStreams.any (·.dynamicRange.isHdrCandidate)
    hasEnglishAudio := streams.audioStreams.any fun s => s.tags.language = some "eng"
    hasForcedEnglishSubtitle :=
      streams.subtitleStreams.any fun s => s.tags.language = some "eng" && s.isForced
    hasSurroundAudio := streams.audioStreams.any (·.isSurroundCandidate)
    hasAtmosCapableAudio := streams.audioStreams.any (·.isAtmosCapable) }

/-- What `json.loads` makes of the output. -/
inductive Loaded (φ : Type) where
  | value (payload : Document φ)
  | malformed (line column : Nat) (message : String)
  | raised

/-- `parse_ffprobe_json_output`. -/
def parseFfprobeJsonOutput (filePath : PosixPath) : Loaded φ → Except ProbeFailure (MediaFile φ)
  | .malformed line column message => throw (.probe (probeInvalidJsonError filePath
      ("line " ++ toString line ++ ", column " ++ toString column) message))
  | .raised => throw .loadError
  | .value (.object payload) => normaliseFfprobePayload b filePath (.object payload)
  | .value _ => throw (.probe (probeInvalidJsonError filePath "root" "Expected a JSON object."))

/-! ## Where a stream is from -/

/-- The entry of a stream, with its position. -/
def BaseStream.source (s : BaseStream φ) : Document φ × Nat := (.object s.rawStream, s.streamOrder)

/-- The list of one type. -/
def Streams.ofType (s : Streams φ) : StreamType → List (BaseStream φ)
  | .video => s.videoStreams.map (·.toBaseStream)
  | .audio => s.audioStreams.map (·.toBaseStream)
  | .subtitle => s.subtitleStreams.map (·.toBaseStream)
  | .attachment => s.attachmentStreams
  | .data => s.dataStreams
  | .unknown => s.unknownStreams

/-- The entry declares the type. -/
def declares (t : StreamType) (entry : Document φ) : Bool :=
  match entry.asFields with
  | some raw => declaredType b raw = t
  | none => false

/-- The entries that declare one type, in order, with their positions. -/
def declared (t : StreamType) (entries : List (Document φ)) : List (Document φ × Nat) :=
  entries.zipIdx.filter fun p => declares b t p.1

/-- The lists of a media file are the entries by their types, each in order; together they are as long
as the recorded count, the number of the entries. -/
structure MediaFile.Partitions (media : MediaFile φ) (entries : List (Document φ)) : Prop where
  source : ∀ t, (media.ofType t).map BaseStream.source = declared b t entries
  streamType : ∀ t, ∀ s ∈ media.ofType t, s.streamType = t
  streamCount : media.container.streamCount = entries.length
  total : media.videoStreams.length + media.audioStreams.length + media.subtitleStreams.length +
    media.attachmentStreams.length + media.dataStreams.length + media.unknownStreams.length =
      media.container.streamCount

section Loop

variable {b} {filePath : PosixPath} {raw : Mapping φ} {order : Nat} {base : BaseStream φ}
  {t : StreamType} {s s' : Streams φ}

theorem normaliseBaseStreamFields_eq (h : normaliseBaseStreamFields b raw order t = some base) :
    base.source = (.object raw, order) ∧ base.streamType = t := by
  simp only [normaliseBaseStreamFields, bind, Option.bind_eq_some_iff] at h
  obtain ⟨index, -, hbase⟩ := h
  obtain rfl := Option.some.inj hbase
  exact ⟨rfl, rfl⟩

/-- What one entry does: its stream goes to the end of the list of its type. -/
theorem Streams.add_ofType (s : Streams φ) (raw : Mapping φ) (order : Nat) :
    (s.add b raw order).map Streams.ofType =
    (normaliseBaseStreamFields b raw order (declaredType b raw)).map fun base t =>
      s.ofType t ++ if declaredType b raw = t then [base] else [] := by
  unfold Streams.add
  split
  · next htype =>
    rw [htype, ← normaliseVideoStream_base]
    cases normaliseVideoStream b raw order with
    | none => rfl
    | some stream => exact congrArg some (funext fun t => by cases t <;> simp [Streams.ofType])
  · next htype =>
    rw [htype, ← normaliseAudioStream_base]
    cases normaliseAudioStream b raw order with
    | none => rfl
    | some stream => exact congrArg some (funext fun t => by cases t <;> simp [Streams.ofType])
  · next htype =>
    rw [htype, ← normaliseSubtitleStream_base]
    cases normaliseSubtitleStream b raw order with
    | none => rfl
    | some stream => exact congrArg some (funext fun t => by cases t <;> simp [Streams.ofType])
  all_goals
    next htype =>
    simp only [htype, normaliseAttachmentStream, normaliseDataStream, normaliseUnknownStream]
    cases normaliseBaseStreamFields b raw order _ with
    | none => rfl
    | some base => exact congrArg some (funext fun t => by cases t <;> simp [Streams.ofType])

theorem Streams.add_eq (h : s.add b raw order = some s') :
    ∃ base, normaliseBaseStreamFields b raw order (declaredType b raw) = some base ∧
      ∀ t, s'.ofType t = s.ofType t ++ if declaredType b raw = t then [base] else [] := by
  have hadd := s.add_ofType (b := b) raw order
  rw [h, Option.map_some, eq_comm, Option.map_eq_some_iff] at hadd
  obtain ⟨base, hbase, hs⟩ := hadd
  exact ⟨base, hbase, fun t => (congrFun hs t).symm⟩

/-- An entry is taken where it has an index. -/
theorem Streams.add_isSome : (s.add b raw order).isSome = hasIndex raw := by
  have hadd := congrArg Option.isSome (s.add_ofType (b := b) raw order)
  rw [Option.isSome_map, Option.isSome_map, normaliseBaseStreamFields] at hadd
  rw [hadd, ← streamIndex_isSome b raw order]
  cases streamIndex b raw order <;> rfl

/-! ## The loop -/

theorem declares_of_asFields {entry : Document φ} (h : entry.asFields = some raw) :
    entry = .object raw ∧ declares b t entry = decide (declaredType b raw = t) := by
  cases entry with
  | object entries =>
    obtain rfl := Option.some.inj h
    exact ⟨rfl, rfl⟩
  | _ => cases h

/-- The loop puts the entries in the lists of their types, after what is there. -/
theorem normaliseStreams_partition {entries : List (Document φ)}
    (h : normaliseStreams b filePath entries order s = .ok s') (t : StreamType) :
    (s'.ofType t).map BaseStream.source = (s.ofType t).map BaseStream.source ++
        (entries.zipIdx order).filter (fun p => declares b t p.1) ∧
      ((∀ stream ∈ s.ofType t, stream.streamType = t) →
        ∀ stream ∈ s'.ofType t, stream.streamType = t) := by
  induction entries generalizing order s with
  | nil =>
    obtain rfl := Except.ok.inj h
    exact ⟨by simp, id⟩
  | cons entry entries ih =>
    simp only [normaliseStreams, found_bind_ok] at h
    obtain ⟨raw, hraw, s₁, hadd, hrest⟩ := h
    obtain ⟨base, hbase, hlists⟩ := Streams.add_eq hadd
    obtain ⟨hsource, htype⟩ := normaliseBaseStreamFields_eq hbase
    obtain ⟨rfl, hdeclares⟩ := declares_of_asFields (b := b) (t := t) hraw
    obtain ⟨ihsource, ihtype⟩ := ih hrest
    rw [ihsource, hlists t, List.zipIdx_cons]
    by_cases ht : declaredType b raw = t
    · have hkept : declares b t (.object raw) = true := by rw [hdeclares, decide_eq_true ht]
      rw [if_pos ht, List.filter_cons, if_pos hkept, List.map_append, List.append_assoc]
      refine ⟨by rw [List.map_singleton, hsource, List.singleton_append], fun hs => ihtype ?_⟩
      intro stream hstream
      rw [hlists t, if_pos ht] at hstream
      rcases List.mem_append.mp hstream with hstream | hstream
      · exact hs stream hstream
      · rw [List.mem_singleton.mp hstream, htype, ht]
    · have hdropped : ¬ declares b t (.object raw) = true := by simp [hdeclares, ht]
      rw [if_neg ht, List.append_nil, List.filter_cons, if_neg hdropped]
      refine ⟨rfl, fun hs => ihtype ?_⟩
      rwa [hlists t, if_neg ht, List.append_nil]

end Loop

/-- Each stream has one type. -/
theorem Streams.length_eq (s : Streams φ) : s.videoStreams.length + s.audioStreams.length +
    s.subtitleStreams.length + s.attachmentStreams.length + s.dataStreams.length +
      s.unknownStreams.length = (s.ofType .video).length + (s.ofType .audio).length +
        (s.ofType .subtitle).length + (s.ofType .attachment).length + (s.ofType .data).length +
          (s.ofType .unknown).length := by
  simp [Streams.ofType]

/-- The lists of the types together have every mapping among the entries. -/
theorem length_declared (entries : List (Document φ)) (order : Nat)
    (h : ∀ entry ∈ entries, entry.asFields.isSome = true) :
    let count (t : StreamType) := ((entries.zipIdx order).filter fun p => declares b t p.1).length
    count .video + count .audio + count .subtitle + count .attachment + count .data + count .unknown =
      entries.length := by
  induction entries generalizing order with
  | nil => rfl
  | cons entry entries ih =>
    obtain ⟨raw, hraw⟩ := Option.isSome_iff_exists.mp (h entry (by simp))
    have htype : ∀ t, declares b t entry = decide (declaredType b raw = t) :=
      fun t => (declares_of_asFields hraw).2
    have hrest := ih (order + 1) fun e he => h e (List.mem_cons_of_mem entry he)
    simp only [List.zipIdx_cons, List.filter_cons, htype, List.length_cons] at hrest ⊢
    rw [← hrest]
    cases declaredType b raw <;> simp <;> omega

/-! ## Exceptions -/

/-- No exception leaves but a `ProbeError`. -/
def Contained {α : Type} (x : Except ProbeFailure α) : Prop :=
  ∀ failure, x = .error failure → ∃ error, failure = .probe error

section Contained

variable {α β : Type} {a : α} {error : ProbeError} {failure : ProbeFailure}

theorem contained_ok : Contained (.ok a : Except ProbeFailure α) := by
  intro failure h
  cases h

theorem contained_error : Contained (.error failure : Except ProbeFailure α) ↔ ∃ e, failure = .probe e :=
  ⟨fun h => h failure rfl, fun h _ heq => Except.error.inj heq ▸ h⟩

/-- A contained step gives a `ProbeError` or a value. -/
theorem contained_iff {x : Except ProbeFailure α} :
    Contained x ↔ (∃ error, x = .error (.probe error)) ∨ ∃ a, x = .ok a := by
  cases x with
  | error failure => simp [contained_error]
  | ok a => simp [contained_ok]

theorem contained_bind {x : Except ProbeFailure α} {f : α → Except ProbeFailure β} :
    Contained (x >>= f) ↔ Contained x ∧ ∀ a, x = .ok a → Contained (f a) := by
  cases x with
  | error failure => simp [bind, Except.bind, contained_error]
  | ok a => simp [bind, Except.bind, contained_ok]

theorem contained_found_probe {o : Option α} : Contained (found (.probe error) o) := by
  cases o with
  | none => exact contained_error.mpr ⟨error, rfl⟩
  | some a => exact contained_ok

theorem contained_found_iff {o : Option α} (h : ∀ e, failure ≠ .probe e) :
    Contained (found failure o) ↔ o.isSome = true := by
  cases o with
  | none => simp [found, contained_error, h]
  | some a => simp [found, contained_ok]

theorem contained_mapM {f : α → Except ProbeFailure β} {items : List α}
    (h : ∀ a ∈ items, Contained (f a)) : Contained (items.mapM f) := by
  induction items with
  | nil => exact contained_ok
  | cons a items ih =>
    rw [List.mapM_cons, contained_bind]
    refine ⟨h a (by simp), fun a' _ => contained_bind.mpr ⟨?_, fun rest _ => contained_ok⟩⟩
    exact ih fun a'' ha => h a'' (List.mem_cons_of_mem a ha)

end Contained

/-- The mappings before the first entry that is none. -/
def leadingMappings : List (Document φ) → List (Mapping φ)
  | .object raw :: entries => raw :: leadingMappings entries
  | _ => []

/-- A file name that is a text, or one that is replaced by the path of the file. -/
def isFileName (filename : Document φ) : Bool :=
  match filename with
  | .str _ => true
  | value => !value.truthy b

theorem resolvedFilePath_isSome (filename : Document φ) (filePath : PosixPath) :
    (resolvedFilePath b filename filePath).isSome = isFileName b filename := by
  unfold resolvedFilePath isFileName
  cases filename with
  | str text => split <;> rfl
  | null => rfl
  | bool value => cases value <;> rfl
  | _ => split <;> simp [*]

theorem normaliseChapters_contained (filePath : PosixPath) (raw : Document φ) :
    Contained (normaliseChapters b filePath raw) := by
  unfold normaliseChapters
  split
  · exact contained_ok
  · exact contained_mapM fun p _ =>
      contained_bind.mpr ⟨contained_found_probe, fun _ _ => contained_ok⟩
  · exact contained_error.mpr ⟨_, rfl⟩

/-- The loop ends with the streams or a `ProbeError` when the mappings it comes to have an index. -/
theorem normaliseStreams_contained_iff {filePath : PosixPath} {entries : List (Document φ)} {order : Nat}
    {s : Streams φ} : Contained (normaliseStreams b filePath entries order s) ↔
      (leadingMappings entries).all hasIndex = true := by
  induction entries generalizing order s with
  | nil => exact ⟨fun _ => rfl, fun _ => contained_ok⟩
  | cons entry entries ih =>
    rw [normaliseStreams, contained_bind]
    cases entry with
    | object raw =>
      have hstep : (leadingMappings (.object raw :: entries)).all hasIndex = true ↔
          hasIndex raw = true ∧ (leadingMappings entries).all hasIndex = true := by
        rw [leadingMappings, List.all_cons, Bool.and_eq_true]
      rw [hstep]
      constructor
      · rintro ⟨-, h⟩
        obtain ⟨hfound, hrest⟩ := contained_bind.mp (h raw rfl)
        have hadd := (contained_found_iff (by simp)).mp hfound
        obtain ⟨s', hs'⟩ := Option.isSome_iff_exists.mp hadd
        exact ⟨Streams.add_isSome ▸ hadd, ih.mp (hrest s' (found_ok.mpr hs'))⟩
      · rintro ⟨hindex, hrest⟩
        refine ⟨contained_found_probe, fun raw' hraw => ?_⟩
        obtain rfl := Option.some.inj (found_ok.mp hraw)
        refine contained_bind.mpr ⟨(contained_found_iff (by simp)).mpr ?_, fun _ _ => ih.mpr hrest⟩
        rw [Streams.add_isSome, hindex]
    | _ =>
      refine ⟨fun _ => rfl, fun _ => ⟨contained_found_probe, fun raw hraw => ?_⟩⟩
      cases hraw

/-! ## Documents -/

/-- The raw stream entries. -/
def Loaded.entries : Loaded φ → List (Document φ)
  | .value payload => ((payload.asFields.getD []).get "streams").asList.getD []
  | _ => []

/-- The decoder raises nothing but a `JSONDecodeError`; and where the document has streams and a format,
its file name is one and the mappings before the first other entry have an index. -/
def Loaded.regular : Loaded φ → Bool
  | .malformed _ _ _ => true
  | .raised => false
  | .value payload =>
    match payload.asFields with
    | none => true
    | some fields =>
      match (fields.get "streams").asList, (fields.get "format").asFields with
      | some rawStreams, some rawFormat =>
        isFileName b (rawFormat.get "filename") && (leadingMappings rawStreams).all hasIndex
      | _, _ => true

variable {b} {filePath : PosixPath} {output : Loaded φ} {media : MediaFile φ}

theorem normaliseFfprobePayload_contained_iff {payload : Document φ} :
    Contained (normaliseFfprobePayload b filePath payload) ↔ (Loaded.value payload).regular b = true := by
  rw [normaliseFfprobePayload, Loaded.regular, contained_bind]
  cases payload.asFields with
  | none => exact ⟨fun _ => rfl, fun _ => ⟨contained_found_probe, fun a h => by cases h⟩⟩
  | some fields =>
    simp only [found_ok, Option.some.injEq, forall_eq', contained_found_probe, true_and]
    rw [contained_bind]
    cases (fields.get "streams").asList with
    | none => exact ⟨fun _ => rfl, fun _ => ⟨contained_found_probe, fun a h => by cases h⟩⟩
    | some rawStreams =>
      simp only [found_ok, Option.some.injEq, forall_eq', contained_found_probe, true_and]
      rw [contained_bind]
      cases (fields.get "format").asFields with
      | none => exact ⟨fun _ => rfl, fun _ => ⟨contained_found_probe, fun a h => by cases h⟩⟩
      | some rawFormat =>
        simp only [found_ok, Option.some.injEq, forall_eq', contained_found_probe, true_and]
        rw [contained_bind, contained_found_iff (by simp), resolvedFilePath_isSome, Bool.and_eq_true]
        refine and_congr_right fun hname => ?_
        obtain ⟨resolved, hresolved⟩ := Option.isSome_iff_exists.mp
          ((resolvedFilePath_isSome b (rawFormat.get "filename") filePath).trans hname)
        simp only [found_ok, hresolved, Option.some.injEq, forall_eq', contained_bind,
          normaliseStreams_contained_iff, normaliseChapters_contained, true_and]
        exact ⟨And.left, fun h => ⟨h, fun _ _ _ _ => contained_ok⟩⟩

theorem parseFfprobeJsonOutput_contained_iff :
    Contained (parseFfprobeJsonOutput b filePath output) ↔ output.regular b = true := by
  cases output with
  | malformed line column message => exact ⟨fun _ => rfl, fun _ => contained_error.mpr ⟨_, rfl⟩⟩
  | raised => exact ⟨fun h => by simpa using h .loadError rfl, fun h => by cases h⟩
  | value payload =>
    cases payload with
    | object fields => exact normaliseFfprobePayload_contained_iff
    | _ => exact ⟨fun _ => rfl, fun _ => contained_error.mpr ⟨_, rfl⟩⟩

/-- A loop that ends with the streams has found mappings only. -/
theorem normaliseStreams_mappings {entries : List (Document φ)} {order : Nat} {s s' : Streams φ}
    (h : normaliseStreams b filePath entries order s = .ok s') :
    ∀ entry ∈ entries, entry.asFields.isSome = true := by
  induction entries generalizing order s with
  | nil => exact fun _ h => absurd h List.not_mem_nil
  | cons entry entries ih =>
    simp only [normaliseStreams, found_bind_ok] at h
    obtain ⟨raw, hraw, s₁, -, hrest⟩ := h
    exact List.forall_mem_cons.mpr ⟨by rw [hraw, Option.isSome_some], ih hrest⟩

/-- The streams of a media file are the entries of the document. -/
theorem normaliseFfprobePayload_partitions {payload : Document φ}
    (h : normaliseFfprobePayload b filePath payload = .ok media) :
    media.Partitions b (Loaded.value payload).entries := by
  simp only [normaliseFfprobePayload, bind_ok, found_ok, return_ok] at h
  obtain ⟨fields, hfields, rawStreams, hstreams, rawFormat, -, resolved, -, streams, hloop, chapters, -,
    rfl⟩ := h
  have hentries : (Loaded.value payload).entries = rawStreams := by
    rw [Loaded.entries, hfields, Option.getD_some, hstreams, Option.getD_some]
  have hempty : ∀ t, (({} : Streams φ).ofType t) = [] := by
    intro t
    cases t <;> rfl
  have hloop' : ∀ t, (streams.ofType t).map BaseStream.source = declared b t rawStreams ∧
      ∀ stream ∈ streams.ofType t, stream.streamType = t := by
    intro t
    obtain ⟨hsource, htype⟩ := normaliseStreams_partition hloop t
    rw [hempty, List.map_nil, List.nil_append] at hsource
    exact ⟨hsource, htype (by simp [hempty])⟩
  rw [hentries]
  refine ⟨fun t => (hloop' t).1, fun t => (hloop' t).2, rfl, ?_⟩
  have hlength : ∀ t, (streams.ofType t).length = (declared b t rawStreams).length := by
    intro t
    rw [← (hloop' t).1, List.length_map]
  show _ = rawStreams.length
  rw [← length_declared b rawStreams 0 (normaliseStreams_mappings hloop), Streams.length_eq,
    hlength, hlength, hlength, hlength, hlength, hlength]
  rfl

/-- The output gives a `ProbeError`, or a media file with all its streams, exactly when it is regular: the
other outputs raise something else. -/
theorem parseFfprobeJsonOutput_settles_iff (b : Builtins φ) (filePath : PosixPath) (output : Loaded φ) :
    ((∃ error, parseFfprobeJsonOutput b filePath output = .error (.probe error)) ∨
      ∃ media, parseFfprobeJsonOutput b filePath output = .ok media ∧
        media.Partitions b output.entries) ↔ output.regular b = true := by
  rw [← @parseFfprobeJsonOutput_contained_iff φ b filePath output, contained_iff]
  refine or_congr_right ⟨fun ⟨media, h, _⟩ => ⟨media, h⟩, fun ⟨media, h⟩ => ⟨media, h, ?_⟩⟩
  cases output with
  | malformed line column message => cases h
  | raised => cases h
  | value payload =>
    cases payload with
    | object fields => exact normaliseFfprobePayload_partitions h
    | _ => cases h

/-- A document of one stream, whose index `ffprobe` calls not available. -/
def indexNotAvailable : Loaded Empty :=
  .value (.object [
    ("streams", .list [.object [("codec_type", .str "video"), ("index", .str "N/A")]]),
    ("format", .object [])])

/-- The built-in functions for a document without floats. -/
def withoutFloats : Builtins Empty where
  float _ := none
  isZero x := nomatch x
  div x _ := nomatch x
  reprFloat x := nomatch x
  reprText s := "'" ++ s ++ "'"
  int_reprFloat x := nomatch x

theorem indexNotAvailable_escapes :
    ¬ ((∃ error, parseFfprobeJsonOutput withoutFloats (.parse "/media/film.mkv") indexNotAvailable =
        .error (.probe error)) ∨
      ∃ media, parseFfprobeJsonOutput withoutFloats (.parse "/media/film.mkv") indexNotAvailable =
        .ok media ∧ media.Partitions withoutFloats indexNotAvailable.entries) := by
  have hraises : parseFfprobeJsonOutput withoutFloats (.parse "/media/film.mkv") indexNotAvailable =
      .error .validationError := by
    rfl
  rw [hraises]
  rintro (⟨error, h⟩ | ⟨media, h, -⟩)
  · cases h
  · cases h

end Probe

end Encodr
