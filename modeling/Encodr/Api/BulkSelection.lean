import Encodr.Api.BulkQueue
import Encodr.Api.Library
import Encodr.Python.Ancestry

/-!
# The files of a bulk queue operation

`_resolve_selection` finds the files of a selection, and `_queue_one_file` plans and queues one of them. The
file system may change while they run: each path is looked up in the files of its moment. The services that
plan a file and create its job are parameters; they return or raise.

* `resolveFile`, `appendSelectedPath`, `resolveSelection`: the selection.
* `deduplicated_nodup`, `mem_deduplicated`: each file of a selection is in it once.
* `createBatchJobs`, `queueOneFile`: what becomes of one file.
-/

namespace Encodr

open Python

/-! ## The library -/

/-- The files at one moment; `below` is `Path.rglob("*")`. -/
structure LibraryFiles where
  pathExists : PosixPath → Bool
  isFile : PosixPath → Bool
  isDir : PosixPath → Bool
  below : PosixPath → List PosixPath

/-- `LibraryService`, with the configuration that it uses. -/
structure LibraryService where
  os : PathOs
  mediaMounts : List PosixPath
  scratchDir : PosixPath

def videoExtensions : List String :=
  [".mkv", ".mp4", ".avi", ".mov", ".mpg", ".mpeg", ".m4v", ".ts", ".m2ts", ".wmv"]

namespace LibraryService

variable (library : LibraryService) (files : LibraryFiles)

/-- `root_for_path`. -/
def rootForPath (path : PosixPath) : Except ApiError PosixPath :=
  match (library.mediaMounts.map library.os.resolve).find? (isRelativeTo (library.os.resolve path) ·) with
  | some root => .ok root
  | none => .error (.validation "Folder browsing is only available under the configured media mounts.")

/-- `default_root`. -/
def defaultRoot : Except ApiError PosixPath :=
  match (library.mediaMounts.map library.os.resolve).head? with
  | some root => .ok root
  | none => .error (.validation "No media mount is configured.")

/-- `resolve_directory`. -/
def resolveDirectory (path : String) : Except ApiError PosixPath := do
  let candidate ← if strip path = "" then library.defaultRoot
    else pure (library.os.expanduser (PosixPath.parse path))
  if !files.pathExists candidate then .error (.notFound "The selected folder does not exist.")
  else if !files.isDir candidate then .error (.validation "The selected path must be a directory.")
  else
    let resolved := library.os.resolve candidate
    let _ ← library.rootForPath resolved
    pure resolved

/-- `resolve_file`. -/
def resolveFile (path : String) : Except ApiError PosixPath := do
  let candidate := library.os.expanduser (PosixPath.parse path)
  if !files.pathExists candidate then .error (.notFound "The selected file does not exist.")
  else if !files.isFile candidate then .error (.validation "The selected path must point to a file.")
  else
    let resolved := library.os.resolve candidate
    let _ ← library.rootForPath resolved
    match exclusionReason library.os library.scratchDir resolved with
    | some reason => .error (.validation reason)
    | none => .ok resolved

end LibraryService

/-! ## The selection -/

section Selection

variable (library : LibraryService)

/-- `_append_selected_path`. -/
def appendSelectedPath (files : LibraryFiles) (rawPath : String) (selection : BulkQueueSelection) :
    BulkQueueSelection :=
  let skip (message : String) : BulkQueueSelection :=
    { selection with skippedItems := selection.skippedItems ++ [⟨rawPath, .skipped, message⟩] }
  let candidate := library.os.expanduser (PosixPath.parse rawPath)
  match exclusionReason library.os library.scratchDir candidate with
  | some reason => skip reason
  | none =>
    match library.resolveFile files rawPath with
    | .error error =>
      { selection with failedItems := selection.failedItems ++ [⟨rawPath, .failed, error.message⟩] }
    | .ok resolved =>
      if lower resolved.suffix ∉ videoExtensions then skip "Only media video files can be queued."
      else { selection with files := selection.files ++ [resolved] }

/-- The paths of a selection, each with the number of the moment when it is looked up. -/
def appendSelectedPaths (moments : Nat → LibraryFiles) (paths : List String) : BulkQueueSelection :=
  paths.zipIdx.foldl (fun selection path => appendSelectedPath library (moments path.2) path.1 selection)
    { files := [] }

/-- `d[key] = path`: an existing key keeps its place. -/
def setPath (key : String) (path : PosixPath) : List (String × PosixPath) → List (String × PosixPath)
  | [] => [(key, path)]
  | entry :: d => if entry.1 = key then (key, path) :: d else entry :: setPath key path d

/-- The values of `{path.as_posix(): path for path in files}`. -/
def deduplicated (files : List PosixPath) : List PosixPath :=
  (files.foldl (fun d path => setPath path.asPosix path d) []).map (·.2)

/-- The paths of a selection in the payload of an operation. -/
structure SelectionPayload where
  sourcePath : String := ""
  folderPath : String := ""
  selectedPaths : List String := []

/-- The files in a folder that are looked at. -/
def listedInFolder (files : LibraryFiles) (item : PosixPath) : Bool :=
  !(startsWith item.name "." || files.isDir item || lower item.suffix ∉ videoExtensions)

/-- The paths that are looked up for a selection. -/
def selectedPaths (files : LibraryFiles) (payload : SelectionPayload) : Except ApiError (List String) :=
  if payload.sourcePath ≠ "" then .ok [payload.sourcePath]
  else if payload.folderPath ≠ "" then do
    let folder ← library.resolveDirectory files payload.folderPath
    return ((files.below folder).filter (listedInFolder files)).map (·.asPosix)
  else .ok payload.selectedPaths

/-- `_resolve_selection`. The folder is listed in the files of `listing`. -/
def resolveSelection (listing : LibraryFiles) (moments : Nat → LibraryFiles) (payload : SelectionPayload) :
    Except ApiError BulkQueueSelection := do
  let paths ← selectedPaths library listing payload
  let selection := appendSelectedPaths library moments paths
  return { selection with files := deduplicated selection.files }

end Selection

/-! ## One file -/

/-- What a service raises. -/
inductive ServiceError where
  | api (error : ApiError)
  | other (text : String)
deriving DecidableEq, Repr

def ServiceError.text : ServiceError → String
  | .api error => error.message
  | .other text => text

/-- A file with the rows that its plan has made. -/
structure PlannedTarget where
  sourcePath : String
  trackedFileId : FileId
  planSnapshotId : PlanId

structure BatchResult where
  sourcePath : String
  status : BulkItemStatus
  message : Option String
  job : Option JobId

/-- `create_batch_jobs`; `createJob` is what `create_job` does for each target. -/
def createBatchJobs (createJob : PlannedTarget → Except ServiceError JobId) :
    List PlannedTarget → Except ServiceError (List BatchResult)
  | [] => .ok []
  | target :: targets =>
    match createJob target with
    | .ok job => do
      let results ← createBatchJobs createJob targets
      return ⟨target.sourcePath, .created, none, some job⟩ :: results
    | .error (.api (.conflict message)) => do
      let results ← createBatchJobs createJob targets
      return ⟨target.sourcePath, .blocked, some message, none⟩ :: results
    | .error error => .error error

/-- The calls that `_queue_one_file` makes for a file. -/
structure QueueCalls where
  planFile : PosixPath → Except ServiceError PlannedTarget
  createJob : PlannedTarget → Except ServiceError JobId
  commit : Except ServiceError Unit

/-- The body of `_queue_one_file`, up to its handlers. -/
def queueResult (calls : QueueCalls) (sourcePath : PosixPath) : Except ServiceError BulkItem := do
  let target ← calls.planFile sourcePath
  let results ← createBatchJobs calls.createJob [target]
  match results with
  | [] => .error (.other "list index out of range")
  | result :: _ =>
    let _ ← calls.commit
    return ⟨sourcePath.asPosix, result.status, textOr result.message ""⟩

/-- `_queue_one_file`; `safeMessage` is `_safe_message`. -/
def queueOneFile (safeMessage : String → String) (calls : QueueCalls) (sourcePath : PosixPath) : BulkItem :=
  match queueResult calls sourcePath with
  | .ok item => item
  | .error error => ⟨sourcePath.asPosix, .failed, safeMessage error.text⟩

/-! ## Files that are in a selection once -/

section Deduplication

variable {key : String} {path : PosixPath} {d : List (String × PosixPath)} {files : List PosixPath}

theorem map_fst_setPath : (setPath key path d).map (·.1) =
    if key ∈ d.map (·.1) then d.map (·.1) else d.map (·.1) ++ [key] := by
  induction d with
  | nil => rfl
  | cons entry d ih =>
    rw [setPath]
    by_cases hkey : entry.1 = key
    · rw [if_pos hkey, if_pos (by simp [hkey])]
      simp [hkey]
    · rw [if_neg hkey, List.map_cons, ih, List.map_cons]
      by_cases hmem : key ∈ d.map (·.1)
      · rw [if_pos hmem, if_pos (List.mem_cons_of_mem _ hmem)]
      · rw [if_neg hmem, if_neg (by simpa [Ne.symm hkey] using hmem)]
        rfl

/-- Every path stands under its own text, and no text stands twice. -/
structure OwnTexts (d : List (String × PosixPath)) : Prop where
  own : ∀ entry ∈ d, entry.1 = entry.2.asPosix
  nodup : (d.map (·.1)).Nodup

theorem OwnTexts.nil : OwnTexts [] := ⟨by simp, List.nodup_nil⟩

theorem mem_setPath {entry : String × PosixPath} (h : entry ∈ setPath key path d) :
    entry = (key, path) ∨ entry ∈ d := by
  induction d with
  | nil => exact .inl (List.mem_singleton.mp h)
  | cons first d ih =>
    rw [setPath] at h
    split at h
    · exact (List.mem_cons.mp h).imp_right (List.mem_cons_of_mem _)
    · rcases List.mem_cons.mp h with rfl | h
      · exact .inr List.mem_cons_self
      · exact (ih h).imp_right (List.mem_cons_of_mem _)

theorem OwnTexts.setPath (h : OwnTexts d) (path : PosixPath) : OwnTexts (setPath path.asPosix path d) := by
  refine ⟨fun entry hentry => ?_, ?_⟩
  · rcases mem_setPath hentry with rfl | hentry
    · rfl
    · exact h.own entry hentry
  · rw [map_fst_setPath]
    split
    · exact h.nodup
    · next hmem => exact List.nodup_append_comm.mp (List.nodup_cons.mpr ⟨hmem, h.nodup⟩)

theorem OwnTexts.foldl (h : OwnTexts d) (files : List PosixPath) :
    OwnTexts (files.foldl (fun d path => Encodr.setPath path.asPosix path d) d) := by
  induction files generalizing d with
  | nil => exact h
  | cons path files ih => exact ih (h.setPath path)

theorem OwnTexts.values_nodup (h : OwnTexts d) : (d.map (·.2)).Nodup := by
  have hkeys : d.map (·.1) = (d.map (·.2)).map (·.asPosix) := by
    rw [List.map_map]
    exact List.map_congr_left h.own
  have hnodup := h.nodup
  rw [hkeys] at hnodup
  exact List.Nodup.of_map _ hnodup

/-- No file stands twice in a selection. -/
theorem deduplicated_nodup (files : List PosixPath) : (deduplicated files).Nodup :=
  (OwnTexts.nil.foldl files).values_nodup

theorem map_fst_foldl_setPath (files : List PosixPath) (d : List (String × PosixPath)) (key : String) :
    key ∈ (files.foldl (fun d path => setPath path.asPosix path d) d).map (·.1) ↔
      key ∈ d.map (·.1) ∨ ∃ path ∈ files, path.asPosix = key := by
  induction files generalizing d with
  | nil => simp
  | cons path files ih =>
    have hkeys : key ∈ (setPath path.asPosix path d).map (·.1) ↔ key ∈ d.map (·.1) ∨ path.asPosix = key := by
      rw [map_fst_setPath]
      split
      · next hmem => exact ⟨.inl, fun h => h.elim id fun h => h ▸ hmem⟩
      · simp [eq_comm]
    rw [List.foldl_cons, ih, hkeys]
    simp [or_assoc]

/-- Every file that was found stands in the selection, and no other. -/
theorem mem_deduplicated (files : List PosixPath) (path : PosixPath) :
    path ∈ deduplicated files ↔ path ∈ files := by
  have hown := OwnTexts.nil.foldl files
  have hkeys := map_fst_foldl_setPath files [] path.asPosix
  constructor
  · intro hmem
    obtain ⟨entry, hentry, rfl⟩ := List.mem_map.mp hmem
    have hkey := hown.own entry hentry
    obtain ⟨path, hpath, htext⟩ := ((map_fst_foldl_setPath files [] entry.1).mp
      (List.mem_map_of_mem hentry)).resolve_left (by simp)
    rwa [← asPosix_injective (htext.trans hkey)]
  · intro hmem
    obtain ⟨entry, hentry, htext⟩ := List.mem_map.mp (hkeys.mpr (.inr ⟨path, hmem, rfl⟩))
    rw [← asPosix_injective ((hown.own entry hentry).symm.trans htext)]
    exact List.mem_map_of_mem hentry

end Deduplication

/-- The files of a selection are those that its paths are resolved to, each of them once. -/
theorem resolveSelection_files {library : LibraryService} {listing : LibraryFiles}
    {moments : Nat → LibraryFiles} {payload : SelectionPayload} {selection : BulkQueueSelection}
    (h : resolveSelection library listing moments payload = .ok selection) :
    ∃ paths, selectedPaths library listing payload = .ok paths ∧ selection.files.Nodup ∧
      ∀ path, path ∈ selection.files ↔ path ∈ (appendSelectedPaths library moments paths).files := by
  cases hpaths : selectedPaths library listing payload with
  | error error =>
    rw [resolveSelection, hpaths] at h
    cases h
  | ok paths =>
    rw [resolveSelection, hpaths] at h
    obtain rfl := Except.ok.inj h
    exact ⟨paths, rfl, deduplicated_nodup _, mem_deduplicated _⟩

end Encodr
