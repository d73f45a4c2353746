import Mathlib.Data.List.Sort
import Encodr.Db.Models
import Encodr.Lib.Result

/-!
# Path checks of the API

A path that a worker or a row reports is used only when it lies under a configured root.
`expanduser` and `resolve` ask the operating system; they are the parameters of `PathOs`. The
paths of a remote worker are first mapped to paths of the server.

* `validatePathUnderRoots`: the resolved path, or the error of a path outside its roots.
* `validatePathUnderRoots_ok`: an accepted path lies under one of the roots.
* `remapWorkerPath`: the server path of a worker path.
* `normaliseRemoteResult`, `normaliseResult_ok`: the result of a remote worker with the paths of the
  server; all else is as reported.
-/

namespace Encodr

open Python Lib

/-- The errors of the API services. -/
inductive ApiError where
  | validation (message : String)
  | authentication (message : String)
  | forbidden (message : String)
  | notFound (message : String)
  | conflict (message : String)
deriving DecidableEq, Repr

/-- The message of an error. -/
def ApiError.message : ApiError → String
  | .validation m | .authentication m | .forbidden m | .notFound m | .conflict m => m

/-- `Path.expanduser` and `Path.resolve(strict=False)`. -/
structure PathOs where
  expanduser : PosixPath → PosixPath
  resolve : PosixPath → PosixPath

/-- `PathRoots`. -/
structure PathRoots where
  media : List PosixPath
  scratch : List PosixPath
  backup : List PosixPath

/-- `PurePath.is_absolute`. -/
def isAbsolute (p : PosixPath) : Bool :=
  p.root != .relative

/-- `_is_relative_to`. -/
def isRelativeTo (path root : PosixPath) : Bool :=
  path.root == root.root && root.parts.isPrefixOf path.parts

/-- `validate_path_under_roots`. -/
def validatePathUnderRoots (os : PathOs) (path : Option PosixPath) (roots : List PosixPath)
    (label : String) : Except ApiError (Option PosixPath) :=
  match path with
  | none => .ok none
  | some path =>
    let candidate := os.expanduser path
    let resolved := os.resolve candidate
    if ¬ isAbsolute candidate then
      .error (.validation (label ++ " must be an absolute path."))
    else if roots = [] then
      .error (.validation ("No configured roots are available to authorize " ++ label ++ "."))
    else if roots.any fun root => isRelativeTo resolved (os.resolve (os.expanduser root)) then
      .ok (some resolved)
    else
      .error (.validation (label ++ " is outside the configured media, scratch, or backup roots."))

/-- An accepted path is resolved and lies under one of the roots. -/
theorem validatePathUnderRoots_ok {os : PathOs} {path q : PosixPath} {roots : List PosixPath}
    {label : String} (h : validatePathUnderRoots os (some path) roots label = .ok (some q)) :
    q = os.resolve (os.expanduser path) ∧
      ∃ root ∈ roots, isRelativeTo q (os.resolve (os.expanduser root)) = true := by
  simp only [validatePathUnderRoots] at h
  split_ifs at h with _ _ hany
  obtain rfl := Option.some.inj (Except.ok.inj h)
  exact ⟨rfl, List.any_eq_true.mp hany⟩

/-- `_deduplicate_paths`. -/
def deduplicatePaths (os : PathOs) (paths : List PosixPath) : List PosixPath :=
  (paths.map fun path => os.resolve (os.expanduser path)).eraseDups

/-- `PathRoots.output`. -/
def PathRoots.output (os : PathOs) (roots : PathRoots) : List PosixPath :=
  deduplicatePaths os (roots.media ++ roots.scratch)

/-- `PathRoots.replacement_payload`. -/
def PathRoots.replacementPayload (os : PathOs) (roots : PathRoots) : List PosixPath :=
  deduplicatePaths os (roots.media ++ roots.scratch ++ roots.backup)

/-- `path_roots_with_extra_scratch_roots`. -/
def PathRoots.withExtraScratchRoots (os : PathOs) (roots : PathRoots) (extra : List PosixPath) :
    PathRoots :=
  { roots with scratch := deduplicatePaths os (roots.scratch ++ extra) }

/-- `validate_output_path`. -/
def validateOutputPath (os : PathOs) (path : Option PosixPath) (roots : PathRoots)
    (label : String) : Except ApiError (Option PosixPath) :=
  validatePathUnderRoots os path (roots.output os) label

/-- `validate_final_output_path`. -/
def validateFinalOutputPath (os : PathOs) (path : Option PosixPath) (roots : PathRoots)
    (label : String) : Except ApiError (Option PosixPath) :=
  validatePathUnderRoots os path roots.media label

/-- `validate_backup_path`. -/
def validateBackupPath (os : PathOs) (path : Option PosixPath) (roots : PathRoots)
    (label : String) : Except ApiError (Option PosixPath) :=
  validatePathUnderRoots os path roots.backup label

/-- A checked path is there exactly when the path was. -/
theorem validatePathUnderRoots_isSome {os : PathOs} {path q : Option PosixPath}
    {roots : List PosixPath} {label : String}
    (h : validatePathUnderRoots os path roots label = .ok q) : q.isSome = path.isSome := by
  cases path with
  | none => rw [← Except.ok.inj h]
  | some path =>
    simp only [validatePathUnderRoots] at h
    split_ifs at h
    rw [← Except.ok.inj h]
    rfl

/-! ## Paths of workers -/

/-- The components of a path after `posixpath.normpath`, the last one first. -/
def normalComponents (rooted : Bool) : List String → List String → List String
  | done, [] => done
  | done, c :: cs =>
    if c = "" ∨ c = "." then normalComponents rooted done cs
    else if c ≠ ".." then normalComponents rooted (c :: done) cs
    else match done with
      | [] => normalComponents rooted (if rooted then [] else [".."]) cs
      | d :: rest => normalComponents rooted (if d = ".." then ".." :: d :: rest else rest) cs

/-- `posixpath.normpath`. -/
def normpath (text : String) : String :=
  let start := match PosixPath.rootOf text.toList with
    | .relative => ""
    | .slash => "/"
    | .doubleSlash => "//"
  let body := "/".intercalate (normalComponents (start ≠ "") [] (split '/' text)).reverse
  if start ++ body = "" then "." else start ++ body

/-- A drive and what follows it, where that is relative to the drive. -/
def relativeToDrive : List Char → Option (Char × List Char)
  | drive :: ':' :: rest => if drive = '/' ∨ rest.head? = some '/' then none else some (drive, rest)
  | _ => none

/-- `PureWindowsPath(text).as_posix()`. It also drops empty and `.` components, as `normpath` does after
it, so that these are dropped here only where they follow a drive: there `normpath` would take the drive
and the `.` for one component. -/
def windowsText (text : String) : String :=
  match relativeToDrive (slashed text).toList with
  | none => slashed text
  | some (drive, rest) => String.ofList [drive, ':'] ++
      "/".intercalate (PosixPath.validParts (split '/' (String.ofList rest)))

/-- `_normalise_worker_path_text`. -/
def normaliseWorkerPathText (windowsStyle : Bool) (text : String) : String :=
  normpath (if windowsStyle then windowsText text else slashed text)

/-- `_looks_like_windows_path`. -/
def looksLikeWindowsPath (text : String) : Bool :=
  text.toList.contains '\\' ||
    match text.toList with
    | drive :: ':' :: '/' :: _ => drive.isAlpha
    | _ => false

/-- `_worker_path_suffix`; `toLower` is `str.lower`. -/
def workerPathSuffix (pathText rootText : String) (toLower : String → String := lower) :
    Option (List String) :=
  let windowsStyle := looksLikeWindowsPath pathText || looksLikeWindowsPath rootText
  let normalPath := normaliseWorkerPathText windowsStyle pathText
  let normalRoot := normaliseWorkerPathText windowsStyle rootText
  let comparePath := if windowsStyle then toLower normalPath else normalPath
  let compareRoot := if windowsStyle then toLower normalRoot else normalRoot
  let rootPrefix := rstripSlash compareRoot.toList
  if comparePath = compareRoot then some []
  else if (rootPrefix ++ ['/']).isPrefixOf comparePath.toList then
    some ((split '/' (String.ofList (normalPath.toList.drop rootPrefix.length))).filter (· ≠ ""))
  else none

/-- `normalise_path_mappings`: the mapping of the longest server path comes first. -/
def normalisePathMappings (os : PathOs) (mappings : List PathMapping) : List PathMapping :=
  (mappings.map fun m => {
    serverPath := os.resolve (os.expanduser m.serverPath)
    workerPath := os.expanduser m.workerPath : PathMapping }).insertionSort fun a b =>
      b.serverPath.asPosix.length ≤ a.serverPath.asPosix.length

/-- `remap_worker_path_to_server_path` of a text. -/
def remapWorkerText (os : PathOs) (text : String) (mappings : List PathMapping)
    (toLower : String → String := lower) : PosixPath :=
  ((normalisePathMappings os mappings).findSome? fun m =>
    (workerPathSuffix text m.workerPath.asPosix toLower).map fun suffix =>
      os.resolve (m.serverPath.joinpath suffix)).getD (PosixPath.parse text)

/-- `remap_worker_path_to_server_path`. -/
def remapWorkerPath (os : PathOs) (path : Option PosixPath) (mappings : List PathMapping) :
    Option PosixPath :=
  path.map fun path => remapWorkerText os path.asPosix mappings

/-- `_is_path_key`. -/
def isPathKey (key : String) : Bool :=
  let lowered := lower (strip key)
  ["path", "source_path", "staged_output_path", "output_path", "final_output_path",
    "original_backup_path", "backup_path"].contains lowered || endsWith lowered "_path"

/-- `remap_worker_payload_paths`. -/
def remapWorkerPayloadPaths (os : PathOs) (payload : Dict) (mappings : List PathMapping) : Dict :=
  payload.map fun (key, value) => match value with
    | .str s => (key, if isPathKey key then .str (remapWorkerText os s mappings).asPosix else value)
    | _ => (key, value)

/-- `_validate_payload_path_value`. -/
def validatePayloadPathValue (os : PathOs) (value : Value) (roots : List PosixPath)
    (label : String) : Except ApiError Value :=
  match value with
  | .str s => do
    let path ← validatePathUnderRoots os (some (PosixPath.parse s)) roots label
    return Value.ofStr? (path.map (·.asPosix))
  | _ => return value

/-- `validate_replacement_payload_paths`. -/
def validateReplacementPayloadPaths (os : PathOs) (payload : Dict) (roots : PathRoots)
    (label : String) : Except ApiError Dict :=
  payload.mapM fun (key, value) =>
    if isPathKey key then do
      let value ← validatePayloadPathValue os value (roots.replacementPayload os)
        (label ++ "." ++ key)
      return (key, value)
    else return (key, value)

/-! ## Results of workers -/

section Results

variable (os : PathOs) (roots : PathRoots) (mappings : List PathMapping)

/-- The paths of a replacement, in `_normalise_remote_execution_result_paths`. -/
def normaliseReplacement (replacement : ReplacementResult) : Except ApiError ReplacementResult := do
  let details ← validateReplacementPayloadPaths os
    (remapWorkerPayloadPaths os replacement.details mappings) roots "replacement.details"
  let finalOutputPath ← validateFinalOutputPath os
    (remapWorkerPath os replacement.finalOutputPath mappings) roots "replacement.final_output_path"
  let originalBackupPath ← validateBackupPath os
    (remapWorkerPath os replacement.originalBackupPath mappings) roots
    "replacement.original_backup_path"
  return { replacement with
    finalOutputPath := finalOutputPath
    originalBackupPath := originalBackupPath
    details := details }

/-- The paths of a result, in `_normalise_remote_execution_result_paths`. -/
def normaliseResult (result : ExecutionResult) : Except ApiError ExecutionResult := do
  let outputPath ← validateOutputPath os (remapWorkerPath os result.outputPath mappings) roots
    "output_path"
  let finalOutputPath ← validateFinalOutputPath os
    (remapWorkerPath os result.finalOutputPath mappings) roots "final_output_path"
  let originalBackupPath ← validateBackupPath os
    (remapWorkerPath os result.originalBackupPath mappings) roots "original_backup_path"
  let replacement ← result.replacement.mapM (normaliseReplacement os roots mappings)
  return { result with
    outputPath := outputPath
    finalOutputPath := finalOutputPath
    originalBackupPath := originalBackupPath
    replacement := replacement }

/-- `_normalise_remote_execution_result_paths`. -/
def normaliseRemoteResult (worker : Worker) (result : ExecutionResult) :
    Except ApiError ExecutionResult :=
  normaliseResult os (roots.withExtraScratchRoots os worker.scratchPath.toList) worker.pathMappings
    result

/-- What a result keeps when its paths are replaced. -/
structure ExecutionResult.SameOutcome (r r' : ExecutionResult) : Prop where
  status : r'.status = r.status
  verification : r'.verification = r.verification
  replacement : r'.replacement.map (·.status) = r.replacement.map (·.status)
  outputPath : r'.outputPath.isSome = r.outputPath.isSome
  finalOutputPath : r'.finalOutputPath.isSome = r.finalOutputPath.isSome

variable {os roots mappings}

theorem normaliseReplacement_status {r r' : ReplacementResult}
    (h : normaliseReplacement os roots mappings r = .ok r') : r'.status = r.status := by
  simp only [normaliseReplacement, bind_ok, return_ok] at h
  obtain ⟨_, -, _, -, _, -, rfl⟩ := h
  rfl

theorem normaliseResult_ok {r r' : ExecutionResult}
    (h : normaliseResult os roots mappings r = .ok r') : r.SameOutcome r' := by
  simp only [normaliseResult, bind_ok, return_ok] at h
  obtain ⟨output, houtput, final, hfinal, _, -, replacement, hreplacement, rfl⟩ := h
  refine ⟨rfl, rfl, ?_, ?_, ?_⟩
  · obtain ⟨hr, rfl⟩ | ⟨r₀, r₁, hr, hn, rfl⟩ := mapM_ok.mp hreplacement
    · simp [hr]
    · simp [hr, normaliseReplacement_status hn]
  · rw [validatePathUnderRoots_isSome houtput]
    simp [remapWorkerPath]
  · rw [validatePathUnderRoots_isSome hfinal]
    simp [remapWorkerPath]

end Results

end Encodr
