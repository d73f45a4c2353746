import Encodr.Lib.Files
import Encodr.Planning.Models
import Encodr.Python.Text

/-!
# The replacement service

`ReplacementService`: a verified output is placed in the library, over its source
(`replaceInPlace`) or beside it (`placeAlongsideOriginal`). Each file operation has its own call
site (`Site`); existence tests do not fail.

A set-aside path is drawn until it is free. The draws (`uuid4().hex`) are a list; a run that uses
them all is still drawing (`Raised.drawing`).
-/

namespace Encodr

open Python Lib

/-! ## Results and errors -/

inductive ReplacementStatus where
  | succeeded
  | failed
  | notRequired
deriving DecidableEq, Repr

structure ReplacementResult where
  status : ReplacementStatus
  finalOutputPath : Option PosixPath := none
  originalBackupPath : Option PosixPath := none
  deletedOriginalSource : Bool := false
  failureMessage : Option String := none
  details : Dict := []
deriving DecidableEq

structure ReplacementError where
  message : String
  sourcePath : Option PosixPath := none
  stagedOutputPath : Option PosixPath := none
  finalOutputPath : Option PosixPath := none
  originalBackupPath : Option PosixPath := none
  details : Dict := []
deriving DecidableEq

/-- What a placement can raise: its own error, which `placeVerifiedOutput` turns into a failed
result, or the `ValueError` of a path without a name. -/
inductive Raised where
  | replacement (error : ReplacementError)
  | value (error : ValueError)
  | drawing
deriving DecidableEq

/-- The file operations of the service. -/
inductive Site where
  | moveBackupAside
  | moveSourceToBackup
  | replaceFinal
  | copyToFinal
  | unlinkStaged
  | rollbackSource
  | restoreBackup
  | unlinkBackup
  | unlinkReplacedBackup
deriving DecidableEq, Repr

/-- A step of the service over files with contents `C`. -/
abbrev PlaceM (C ε : Type) := FsM Site PosixPath C ε

/-! ## Operations of the operating system -/

/-- `errno.EPERM`. -/
def EPERM : Nat := 1

/-- `errno.ENOENT`. -/
def ENOENT : Nat := 2

/-- `errno.EACCES`. -/
def EACCES : Nat := 13

/-- `errno.EXDEV`: a rename across devices. -/
def EXDEV : Nat := 18

/-- The `FileNotFoundError` of an operation on `paths`. -/
def fileNotFound (paths : String) : OSError where
  errno := some ENOENT
  strerror := some "No such file or directory"
  typeName := "FileNotFoundError"
  text := "[Errno 2] No such file or directory: " ++ paths

/-- A path as an error text shows it. -/
def quoted (p : PosixPath) : String :=
  "'" ++ p.asPosix ++ "'"

section Model

variable {C ε : Type}

/-- `path.rename(target)`, and `path.replace(target)`. -/
def osRename (site : Site) (path target : PosixPath) : PlaceM C OSError Unit :=
  FsM.rename (fileNotFound (quoted path ++ " -> " ++ quoted target)) site path target

/-- `shutil.copyfile(path, target)`. -/
def osCopyfile (site : Site) (path target : PosixPath) : PlaceM C OSError Unit :=
  FsM.copyfile (fileNotFound (quoted path)) site path target

/-- `path.unlink()`. -/
def osUnlink (site : Site) (path : PosixPath) : PlaceM C OSError Unit :=
  FsM.unlink (fileNotFound (quoted path)) site path

/-! ## Paths -/

/-- `_build_backup_path`. -/
def buildBackupPath (sourcePath : PosixPath) : Except ValueError PosixPath :=
  sourcePath.withName (sourcePath.stem ++ ".encodr-backup" ++ sourcePath.suffix)

/-- The output of an in-place replacement: the source with the suffix of its container. -/
def inPlaceFinalPath (sourcePath : PosixPath) (container : OutputContainer) :
    Except ValueError PosixPath :=
  sourcePath.withSuffix ("." ++ container.value)

/-- The output of a placement alongside the source. -/
def alongsideFinalPath (sourcePath : PosixPath) (container : OutputContainer) :
    Except ValueError PosixPath :=
  sourcePath.withName (sourcePath.stem ++ ".encodr." ++ container.value)

/-- The set-aside path of a backup for one draw. -/
def replacingPath (backupPath : PosixPath) (hex : String) : Except ValueError PosixPath :=
  backupPath.withName (backupPath.name ++ ".replacing-" ++ hex ++ ".tmp")

/-- `_temporary_replaced_backup_path`: draw until the path is free. -/
def temporaryReplacedBackupPath (backupPath : PosixPath) : List String → PlaceM C Raised PosixPath
  | [] => FsM.throw .drawing
  | hex :: draws =>
    match replacingPath backupPath hex with
    | .error e => FsM.throw (.value e)
    | .ok candidate => do
      if ← FsM.has candidate then temporaryReplacedBackupPath backupPath draws
      else return candidate

/-! ## Details of a failure -/

/-- `_replacement_error_reason`. -/
def replacementErrorReason (error : OSError) : String :=
  match error.strerror with
  | some s => if s = "" then error.text else s
  | none => error.text

/-- `_replacement_failure_details`. -/
def replacementFailureDetails (operation : String) (error : OSError)
    (sourcePath stagedOutputPath : PosixPath) (finalOutputPath originalBackupPath : Option PosixPath) :
    PlaceM C ε Dict := do
  let sourceExists ← FsM.has sourcePath
  let stagedExists ← FsM.has stagedOutputPath
  let backupExists ← FsM.has? originalBackupPath
  return [
    ("operation", .str operation),
    ("source_path", .str sourcePath.asPosix),
    ("staged_output_path", .str stagedOutputPath.asPosix),
    ("final_output_path", .ofStr? (finalOutputPath.map (·.asPosix))),
    ("original_backup_path", .ofStr? (originalBackupPath.map (·.asPosix))),
    ("errno", .ofNat? error.errno),
    ("reason", .str (replacementErrorReason error)),
    ("exception_type", .str error.typeName),
    ("exception_message", .str error.text),
    ("source_exists", .bool sourceExists),
    ("staged_output_exists", .bool stagedExists),
    ("backup_exists", .ofBool? backupExists),
    ("permission_hint",
      if error.errno = some EACCES ∨ error.errno = some EPERM then
        .str ("The destination filesystem denied access. " ++
          "Check NAS share ownership, group membership, and write permissions.")
      else .null)]

/-! ## Moving the output, and handling the replaced backup -/

/-- `_move_generated_output`: rename, or copy across devices. -/
def moveGeneratedOutput (stagedOutputPath finalOutputPath : PosixPath) :
    PlaceM C OSError Dict := do
  match ← FsM.attempt (osRename .replaceFinal stagedOutputPath finalOutputPath) with
  | .ok () => return [("move_strategy", .str "rename")]
  | .error error =>
    if error.errno ≠ some EXDEV then FsM.throw error
    else
      let crossDevice : Dict := [
        ("move_strategy", .str "copyfile"),
        ("cross_device_errno", .ofNat? error.errno),
        ("cross_device_message", .str error.text)]
      osCopyfile .copyToFinal stagedOutputPath finalOutputPath
      match ← FsM.attempt (osUnlink .unlinkStaged stagedOutputPath) with
      | .ok () => return crossDevice
      | .error cleanup =>
        return crossDevice.update [
          ("staged_cleanup_failed", .bool true),
          ("staged_cleanup_errno", .ofNat? cleanup.errno),
          ("staged_cleanup_error", .str cleanup.text)]

/-- `_restore_replaced_backup`. -/
def restoreReplacedBackup (replacedBackupPath : Option PosixPath) (backupPath : PosixPath)
    (details : Dict) : PlaceM C ε Dict := do
  match replacedBackupPath with
  | none => return details
  | some replaced =>
    let details := details.set "replaced_backup_temp_path" (.str replaced.asPosix)
    if ← FsM.has replaced then
      if ← FsM.has backupPath then
        return (details.set "replaced_backup_restore_blocked" (.bool true)).set
          "backup_exists_after_replaced_backup_restore" (.bool true)
      else
        let details := match ← FsM.attempt (osRename .restoreBackup replaced backupPath) with
          | .error rollback => (details.set "replaced_backup_restore_error" (.str rollback.text)).set
              "replaced_backup_restore_errno" (.ofNat? rollback.errno)
          | .ok () => details.set "replaced_backup_restore_succeeded" (.bool true)
        let tempExists ← FsM.has replaced
        let backupExists ← FsM.has backupPath
        return (details.set "replaced_backup_temp_exists_after_rollback" (.bool tempExists)).set
          "backup_exists_after_replaced_backup_restore" (.bool backupExists)
    else return details.set "replaced_backup_temp_exists_after_rollback" (.bool false)

/-- `_delete_replaced_backup_temp`. -/
def deleteReplacedBackupTemp (replacedBackupPath : Option PosixPath)
    (sourcePath stagedOutputPath finalOutputPath backupPath : PosixPath) (details : Dict) :
    PlaceM C ε Dict := do
  match replacedBackupPath with
  | none => return details
  | some replaced =>
    if ← FsM.has replaced then
      match ← FsM.attempt (osUnlink .unlinkReplacedBackup replaced) with
      | .error error =>
        let failure ← replacementFailureDetails "delete_replaced_existing_backup" error sourcePath
          stagedOutputPath (some finalOutputPath) (some backupPath)
        let details := details.set "replaced_backup_delete_failed" (.bool true)
        return (details.update failure).set "replaced_backup_temp_path" (.str replaced.asPosix)
      | .ok () => return details.set "replaced_existing_backup_deleted" (.bool true)
    else return details

/-! ## Placement -/

/-- The paths of an in-place replacement. -/
structure InPlacePaths where
  sourcePath : PosixPath
  stagedOutputPath : PosixPath
  finalOutputPath : PosixPath
  backupPath : PosixPath

/-- The error of an in-place replacement, with all its paths. -/
def InPlacePaths.error (p : InPlacePaths) (message : String) (details : Dict) : ReplacementError where
  message := message
  sourcePath := some p.sourcePath
  stagedOutputPath := some p.stagedOutputPath
  finalOutputPath := some p.finalOutputPath
  originalBackupPath := some p.backupPath
  details := details

/-- The failure details of an in-place replacement. -/
def InPlacePaths.failureDetails (p : InPlacePaths) (operation : String) (error : OSError) :
    PlaceM C ε Dict :=
  replacementFailureDetails operation error p.sourcePath p.stagedOutputPath
    (some p.finalOutputPath) (some p.backupPath)

/-- The block of `_replace_in_place` that sets an existing backup aside. -/
def moveExistingBackupAside (p : InPlacePaths) (backupExists : Bool) (strategy : String)
    (draws : List String) : PlaceM C Raised (Option PosixPath) := do
  if backupExists && strategy == "replace_backup" then
    let replaced ← temporaryReplacedBackupPath p.backupPath draws
    match ← FsM.attempt (osRename .moveBackupAside p.backupPath replaced) with
    | .ok () => return some replaced
    | .error error =>
      let details ← p.failureDetails "move_existing_backup_aside" error
      FsM.throw (.replacement (p.error
        "Failed to move the existing backup aside before replacement." details))
  else return none

/-- The block of `_replace_in_place` that moves the source to its backup path. -/
def moveSourceToBackup (p : InPlacePaths) (replaced : Option PosixPath) (createNewBackup : Bool) :
    PlaceM C Raised Unit := do
  if createNewBackup then
    match ← FsM.attempt (osRename .moveSourceToBackup p.sourcePath p.backupPath) with
    | .ok () => return ()
    | .error error =>
      let details ← p.failureDetails "move_source_to_backup" error
      let details ← restoreReplacedBackup replaced p.backupPath details
      FsM.throw (.replacement (p.error "Failed to move the source file to its backup path." details))
  else return ()

/-- The rollback of `_replace_in_place` after the output could not be moved: the backup returns
to the source path when that is free. -/
def rollbackSource (p : InPlacePaths) (createNewBackup : Bool) (details : Dict) :
    PlaceM C ε Dict := do
  let backupExists ← FsM.has p.backupPath
  let sourceExists ← FsM.has p.sourcePath
  if createNewBackup && backupExists && !sourceExists then
    let details := match ← FsM.attempt (osRename .rollbackSource p.backupPath p.sourcePath) with
      | .error rollback => (details.set "rollback_error" (.str rollback.text)).set
          "rollback_errno" (.ofNat? rollback.errno)
      | .ok () => details.set "rollback_succeeded" (.bool true)
    let sourceExists ← FsM.has p.sourcePath
    let backupExists ← FsM.has p.backupPath
    let stagedExists ← FsM.has p.stagedOutputPath
    return ((details.set "source_exists_after_rollback" (.bool sourceExists)).set
      "backup_exists_after_rollback" (.bool backupExists)).set
      "staged_output_exists_after_rollback" (.bool stagedExists)
  else return details

/-- The block of `_replace_in_place` that moves the output, with its rollback. -/
def moveVerifiedOutputIntoPlace (p : InPlacePaths) (replaced : Option PosixPath)
    (createNewBackup : Bool) : PlaceM C Raised Dict := do
  match ← FsM.attempt (moveGeneratedOutput p.stagedOutputPath p.finalOutputPath) with
  | .ok details => return details
  | .error error =>
    let details ← p.failureDetails "move_verified_output_into_place" error
    let details ← rollbackSource p createNewBackup details
    let details ← restoreReplacedBackup replaced p.backupPath details
    FsM.throw (.replacement (p.error "Failed to move the verified output into place." details))

/-- The end of `_replace_in_place`: the backup is deleted where the plan asks for it, and the
set-aside backup with it. -/
def finishReplacement (p : InPlacePaths) (replaced : Option PosixPath) (createNewBackup : Bool)
    (deleteReplacedSource : Bool) (successDetails : Dict) : PlaceM C ε ReplacementResult := do
  let backupExists ← FsM.has p.backupPath
  if createNewBackup && deleteReplacedSource && backupExists then
    match ← FsM.attempt (osUnlink .unlinkBackup p.backupPath) with
    | .ok () =>
      let details ← deleteReplacedBackupTemp replaced p.sourcePath p.stagedOutputPath
        p.finalOutputPath p.backupPath successDetails
      return {
        status := .succeeded
        finalOutputPath := some p.finalOutputPath
        originalBackupPath := none
        deletedOriginalSource := true
        details := details }
    | .error error =>
      let details ← deleteReplacedBackupTemp replaced p.sourcePath p.stagedOutputPath
        p.finalOutputPath p.backupPath successDetails
      let failure ← p.failureDetails "delete_replaced_source_backup" error
      return {
        status := .succeeded
        finalOutputPath := some p.finalOutputPath
        originalBackupPath := some p.backupPath
        deletedOriginalSource := false
        details := (details.set "backup_delete_failed" (.bool true)).update failure }
  else
    let details ← deleteReplacedBackupTemp replaced p.sourcePath p.stagedOutputPath
      p.finalOutputPath p.backupPath successDetails
    return {
      status := .succeeded
      finalOutputPath := some p.finalOutputPath
      originalBackupPath := some p.backupPath
      deletedOriginalSource := false
      details := details }

/-- The checks of `_replace_in_place` before it changes a file. -/
def checkInPlace (p : InPlacePaths) (backupExists : Bool) (strategy : String) :
    PlaceM C Raised Unit := do
  FsM.raiseIf (backupExists && strategy == "fail") (.replacement (p.error
    "A backup file already exists for the source path." [
      ("failure_code", .str "backup_already_exists"),
      ("existing_backup_strategy", .str strategy)]))
  FsM.raiseIf (!backupExists && strategy == "keep_existing_backup") (.replacement (p.error
    "A backup file must already exist before keeping the original backup." [
      ("failure_code", .str "backup_missing_for_keep_existing"),
      ("existing_backup_strategy", .str strategy)]))
  let finalExists ← FsM.has p.finalOutputPath
  FsM.raiseIf (p.finalOutputPath ≠ p.sourcePath ∧ finalExists) (.replacement {
    message := "A destination file already exists for the replacement target."
    sourcePath := some p.sourcePath
    stagedOutputPath := some p.stagedOutputPath
    finalOutputPath := some p.finalOutputPath })

/-- The steps of `_replace_in_place` once its paths are known. -/
def replaceAtPaths (p : InPlacePaths) (replace : ReplacePlan) (draws : List String) :
    PlaceM C Raised ReplacementResult := do
  let strategy := replace.existingBackupStrategy
  let backupExists ← FsM.has p.backupPath
  checkInPlace p backupExists strategy
  let replaced ← moveExistingBackupAside p backupExists strategy draws
  let createNewBackup := strategy != "keep_existing_backup"
  moveSourceToBackup p replaced createNewBackup
  let moveDetails ← moveVerifiedOutputIntoPlace p replaced createNewBackup
  let successDetails : Dict := [
    ("mode", .str "replace_in_place"),
    ("existing_backup_strategy", .str strategy)]
  finishReplacement p replaced createNewBackup replace.deleteReplacedSource
    (successDetails.update moveDetails)

/-- `_replace_in_place`. -/
def replaceInPlace (sourcePath stagedOutputPath : PosixPath) (plan : ProcessingPlan)
    (draws : List String) : PlaceM C Raised ReplacementResult := do
  if ← FsM.has sourcePath then
    match inPlaceFinalPath sourcePath plan.container.targetContainer, buildBackupPath sourcePath with
    | .error e, _ => FsM.throw (.value e)
    | .ok _, .error e => FsM.throw (.value e)
    | .ok finalOutputPath, .ok backupPath =>
      replaceAtPaths ⟨sourcePath, stagedOutputPath, finalOutputPath, backupPath⟩ plan.replace draws
  else
    FsM.throw (.replacement {
      message := "The source file does not exist for in-place replacement."
      sourcePath := some sourcePath
      stagedOutputPath := some stagedOutputPath })

/-- `_place_alongside_original`. -/
def placeAlongsideOriginal (sourcePath stagedOutputPath : PosixPath) (plan : ProcessingPlan) :
    PlaceM C Raised ReplacementResult := do
  match alongsideFinalPath sourcePath plan.container.targetContainer with
  | .error e => FsM.throw (.value e)
  | .ok finalOutputPath =>
    if ← FsM.has finalOutputPath then
      FsM.throw (.replacement {
        message := "A destination file already exists for the placed output."
        sourcePath := some sourcePath
        stagedOutputPath := some stagedOutputPath
        finalOutputPath := some finalOutputPath })
    else
      match ← FsM.attempt (moveGeneratedOutput stagedOutputPath finalOutputPath) with
      | .error error =>
        let details ← replacementFailureDetails "place_verified_output_alongside_source" error
          sourcePath stagedOutputPath (some finalOutputPath) none
        FsM.throw (.replacement {
          message := "Failed to place the verified output alongside the source file."
          sourcePath := some sourcePath
          stagedOutputPath := some stagedOutputPath
          finalOutputPath := some finalOutputPath
          details := details })
      | .ok moveDetails =>
        return {
          status := .succeeded
          finalOutputPath := some finalOutputPath
          deletedOriginalSource := false
          details := Dict.update [("mode", .str "keep_original")] moveDetails }

/-- The failed result of a `ReplacementError`. -/
def ReplacementError.result (error : ReplacementError) : ReplacementResult where
  status := .failed
  finalOutputPath := error.finalOutputPath
  originalBackupPath := error.originalBackupPath
  failureMessage := some error.message
  details := error.details

/-- `place_verified_output`. -/
def placeVerifiedOutput (sourcePath stagedOutputPath : PosixPath) (plan : ProcessingPlan)
    (draws : List String) : PlaceM C Raised ReplacementResult := do
  if ← FsM.has stagedOutputPath then
    match ← FsM.attempt (if plan.replace.inPlace
        then replaceInPlace sourcePath stagedOutputPath plan draws
        else placeAlongsideOriginal sourcePath stagedOutputPath plan) with
    | .ok result => return result
    | .error (.replacement error) => return error.result
    | .error e => FsM.throw e
  else
    return {
      status := .failed
      failureMessage := some "The staged output file does not exist."
      details := [("staged_output_path", .str stagedOutputPath.asPosix)] }

end Model

end Encodr
