import Encodr.Lib.Transition
import Encodr.Lib.Versions
import Encodr.Python.PathText

/-!
# Bulk queue operations

The runner of an operation (`BulkQueueService.process_operation`) queues the files of a selection one by one.
It and the requests that cancel it (`request_cancel`) write to the row of the operation from sessions of
their own. A session loads the row, changes its copy, and writes the columns that it has changed; the row is
locked from then until the commit.

What is queued for a file (`_queue_one_file`) is not looked into: the file counts as queued when this is
committed.

* `BulkQueueOperation.flush`: what a session writes.
* `BulkRunner`, `BulkState.step`, `bulkSys`: the runner and the requests, and their interleavings.
-/

namespace Encodr

open Python Lib

inductive BulkStatus where
  | pending
  | running
  | cancelling
  | completed
  | failed
  | cancelled
deriving DecidableEq, Repr

/-- `ACTIVE_BULK_QUEUE_STATUSES`. -/
def BulkStatus.isActive : BulkStatus → Bool
  | .pending | .running | .cancelling => true
  | .completed | .failed | .cancelled => false

/-- How the runner finishes an operation. -/
inductive BulkOutcome where
  | completed
  | failed
  | cancelled
deriving DecidableEq, Repr

def BulkOutcome.status : BulkOutcome → BulkStatus
  | .completed => .completed
  | .failed => .failed
  | .cancelled => .cancelled

inductive BulkItemStatus where
  | created
  | blocked
  | skipped
  | failed
deriving DecidableEq, Repr

structure BulkItem where
  sourcePath : String
  status : BulkItemStatus
  message : String := ""
deriving DecidableEq

structure BulkQueueOperation where
  status : BulkStatus := .pending
  stage : String := "scanning_selection"
  statusText : String := "Scanning selection"
  batchSize : Nat := 25
  totalExpected : Nat := 0
  discoveredCount : Nat := 0
  queuedCount : Nat := 0
  skippedCount : Nat := 0
  blockedCount : Nat := 0
  failedCount : Nat := 0
  currentBatch : Nat := 0
  totalBatches : Nat := 0
  items : List BulkItem := []
  errorSummary : Option String := none
deriving DecidableEq

/-! ## Sessions -/

/-- A column after a session has written it: only a changed value is written. -/
def flushColumn {α : Type} [DecidableEq α] (loaded target current : α) : α :=
  if target = loaded then current else target

/-- The row after a session that has loaded one version, and wants another, has written to the current
one. -/
def BulkQueueOperation.flush (loaded target current : BulkQueueOperation) : BulkQueueOperation where
  status := flushColumn loaded.status target.status current.status
  stage := flushColumn loaded.stage target.stage current.stage
  statusText := flushColumn loaded.statusText target.statusText current.statusText
  batchSize := flushColumn loaded.batchSize target.batchSize current.batchSize
  totalExpected := flushColumn loaded.totalExpected target.totalExpected current.totalExpected
  discoveredCount := flushColumn loaded.discoveredCount target.discoveredCount current.discoveredCount
  queuedCount := flushColumn loaded.queuedCount target.queuedCount current.queuedCount
  skippedCount := flushColumn loaded.skippedCount target.skippedCount current.skippedCount
  blockedCount := flushColumn loaded.blockedCount target.blockedCount current.blockedCount
  failedCount := flushColumn loaded.failedCount target.failedCount current.failedCount
  currentBatch := flushColumn loaded.currentBatch target.currentBatch current.currentBatch
  totalBatches := flushColumn loaded.totalBatches target.totalBatches current.totalBatches
  items := flushColumn loaded.items target.items current.items
  errorSummary := flushColumn loaded.errorSummary target.errorSummary current.errorSummary

/-- The counts of the runner (`state`). -/
structure BulkTally where
  queued : Nat := 0
  skipped : Nat := 0
  blocked : Nat := 0
  failed : Nat := 0
  items : List BulkItem := []
deriving DecidableEq

/-- A file that has been queued, or not. -/
def BulkTally.add (tally : BulkTally) (item : BulkItem) : BulkTally :=
  let items := if tally.items.length < 100 then tally.items ++ [item] else tally.items
  match item.status with
  | .created => { tally with queued := tally.queued + 1, items := items }
  | .blocked => { tally with blocked := tally.blocked + 1, items := items }
  | .skipped => { tally with skipped := tally.skipped + 1, items := items }
  | .failed => { tally with failed := tally.failed + 1, items := items }

/-- The changes that the runner makes to the row. -/
inductive BulkChange where
  /-- `mark_running`. -/
  | markRunning
  | scanning
  | itemising
  /-- The selection is known. -/
  | selected (totalExpected totalBatches : Nat)
  | batch (number total : Nat)
  /-- A file is done. -/
  | progress
deriving DecidableEq

/-- The copy of the row that a change wants. -/
def BulkChange.apply (tally : BulkTally) (op : BulkQueueOperation) : BulkChange → BulkQueueOperation
  | .markRunning =>
    { op with status := .running, stage := "scanning_selection", statusText := "Scanning selection" }
  | .scanning => { op with stage := "scanning_selection", statusText := "Scanning selection" }
  | .itemising => { op with stage := "itemising_files", statusText := "Itemising files" }
  | .selected totalExpected totalBatches =>
    { op with
      stage := "itemising_files"
      statusText := "Itemising files"
      totalExpected := totalExpected
      discoveredCount := totalExpected
      skippedCount := tally.skipped
      failedCount := tally.failed
      totalBatches := totalBatches
      items := tally.items }
  | .batch number total =>
    { op with
      stage := "sending_to_queue"
      statusText := "Adding batch " ++ toString number ++ " of " ++ toString total
      currentBatch := number
      totalBatches := total
      queuedCount := tally.queued
      skippedCount := tally.skipped
      blockedCount := tally.blocked
      failedCount := tally.failed }
  | .progress =>
    { op with
      queuedCount := tally.queued
      skippedCount := tally.skipped
      blockedCount := tally.blocked
      failedCount := tally.failed
      items := tally.items }

/-- `finish`. -/
def BulkQueueOperation.finish (tally : BulkTally) (outcome : BulkOutcome) (statusText : String)
    (errorSummary : Option String) (op : BulkQueueOperation) : BulkQueueOperation :=
  { op with
    status := outcome.status
    stage := "completed"
    statusText := statusText
    queuedCount := tally.queued
    skippedCount := tally.skipped
    blockedCount := tally.blocked
    failedCount := tally.failed
    items := tally.items
    errorSummary := errorSummary }

/-- `request_cancel`. -/
def BulkQueueOperation.requestCancel (op : BulkQueueOperation) : BulkQueueOperation :=
  if op.status.isActive then
    { op with status := .cancelling, statusText := "Cancelling bulk queue operation" }
  else op

/-! ## The runner -/

structure BulkQueueSelection where
  files : List PosixPath
  skippedItems : List BulkItem := []
  failedItems : List BulkItem := []

/-- `_chunks`. -/
def chunks (items : List PosixPath) (size : Nat) : List (List PosixPath) :=
  (List.range ((items.length + size - 1) / size)).map fun n => (items.drop (n * size)).take size

/-- Where `process_operation` is between two changes of the row. -/
inductive BulkPoint where
  /-- `_resolve_selection`; a folder is itemised after a while. -/
  | resolving
  | scanning
  | itemising
  /-- Nothing is expected. -/
  | empty
  /-- Before a batch. -/
  | batches (rest : List (List PosixPath))
  /-- Before a file. -/
  | files (batch : List PosixPath) (rest : List (List PosixPath))
  | ended

/-- What the runner is about to write. -/
inductive BulkUpdate where
  | goOn (change : BulkChange) (next : BulkPoint)
  | finish (outcome : BulkOutcome) (statusText : String) (errorSummary : Option String)

def BulkUpdate.apply (tally : BulkTally) (op : BulkQueueOperation) : BulkUpdate → BulkQueueOperation
  | .goOn change _ => change.apply tally op
  | .finish outcome statusText errorSummary => op.finish tally outcome statusText errorSummary

def BulkUpdate.next : BulkUpdate → BulkPoint
  | .goOn _ next => next
  | .finish .. => .ended

def BulkUpdate.finishes : BulkUpdate → Bool
  | .goOn .. => false
  | .finish .. => true

/-- How far a session of the runner is. -/
inductive SessionPhase where
  | begun
  | loaded (op : BulkQueueOperation)
  | flushed

inductive BulkRunner where
  | updating (update : BulkUpdate) (phase : SessionPhase)
  | at (point : BulkPoint)
  /-- In `_queue_one_file`. -/
  | queueing (file : PosixPath) (batch : List PosixPath) (rest : List (List PosixPath))

/-- A request that cancels the operation. -/
inductive CancelRequest where
  | loaded (op : BulkQueueOperation)
  | flushed (op : BulkQueueOperation)

/-- The row, the runner and the requests. The runner is no request: it locks the row as `none`. The last five
fields record what has happened: that the runner has met an error; that it has finished the operation; that a
request was committed before; the file in progress when the first one was; and the files that have been
queued since. -/
structure BulkState (ι : Type) where
  row : Versioned (Option ι) BulkQueueOperation
  runner : BulkRunner := .updating (.goOn .markRunning .resolving) .begun
  tally : BulkTally := {}
  totalBatches : Nat := 0
  cancels : ι → Option CancelRequest := fun _ => none
  errored : Bool := false
  finished : Bool := false
  cancelled : Bool := false
  inProgress : List PosixPath := []
  queuedSince : List PosixPath := []

inductive BulkAct (ι : Type) where
  /-- The session of the runner loads the row, writes to it, and commits. -/
  | load
  | flush
  | commit
  | itemise
  | select (selection : BulkQueueSelection)
  /-- The runner goes on with its loops, and looks whether a cancel was requested. -/
  | check
  | queue (status : BulkItemStatus) (message : String)
  /-- Any error of the runner, with what is kept of its message. -/
  | error (message : String)
  | cancelLoad (i : ι)
  | cancelFlush (i : ι)
  | cancelCommit (i : ι)

def finishing (outcome : BulkOutcome) (statusText : String) (errorSummary : Option String := none) :
    BulkRunner :=
  .updating (.finish outcome statusText errorSummary) .begun

namespace BulkState

variable {ι : Type} [DecidableEq ι]

/-- `_cancel_requested`. -/
def cancelRequested (s : BulkState ι) : Bool :=
  (s.row.visible none).any (·.status = .cancelling)

def cancelledRunner : BulkRunner :=
  finishing .cancelled "Bulk queue operation was cancelled."

/-- The runner is at a point of its loops. -/
def check (s : BulkState ι) : Option (BulkState ι) :=
  match s.runner with
  | .at .resolving => some { s with runner := .updating (.goOn .scanning .scanning) .begun }
  | .at .empty => some { s with
      runner := finishing .completed "No processable media files were found." }
  | .at (.batches []) => some { s with runner := finishing .completed "Completed" }
  | .at (.batches (batch :: rest)) =>
    if s.cancelRequested then some { s with runner := cancelledRunner }
    else some { s with
      runner := .updating (.goOn (.batch (s.totalBatches - rest.length) s.totalBatches)
        (.files batch rest)) .begun }
  | .at (.files [] rest) => some { s with runner := .at (.batches rest) }
  | .at (.files (file :: batch) rest) =>
    if s.cancelRequested then some { s with runner := cancelledRunner }
    else some { s with runner := .queueing file batch rest }
  | _ => none

/-- The files of a folder are about to be listed. -/
def itemise (s : BulkState ι) : Option (BulkState ι) :=
  match s.runner with
  | .at .scanning => some { s with runner := .updating (.goOn .itemising .itemising) .begun }
  | _ => none

/-- `_operation_batch_size`. -/
def batchSize (s : BulkState ι) : Nat :=
  match (s.row.visible none).map (·.batchSize) with
  | some (n + 1) => n + 1
  | _ => 25

theorem batchSize_pos (s : BulkState ι) : 0 < s.batchSize := by
  unfold batchSize
  split
  · exact Nat.succ_pos _
  · decide

/-- `_resolve_selection` returns. -/
def select (s : BulkState ι) (selection : BulkQueueSelection) : Option (BulkState ι) :=
  match s.runner with
  | .at .scanning | .at .itemising =>
    let tally : BulkTally := {
      skipped := selection.skippedItems.length
      failed := selection.failedItems.length
      items := (selection.skippedItems ++ selection.failedItems).take 100 }
    let totalExpected := selection.files.length + tally.skipped + tally.failed
    let batches := chunks selection.files s.batchSize
    some { s with
      tally := tally
      totalBatches := batches.length
      runner := .updating (.goOn (.selected totalExpected batches.length)
        (if totalExpected = 0 then .empty else .batches batches)) .begun }
  | _ => none

/-- `_queue_one_file` is committed, or has failed. -/
def queue (s : BulkState ι) (status : BulkItemStatus) (message : String) : Option (BulkState ι) :=
  match s.runner with
  | .queueing file batch rest => some { s with
      tally := s.tally.add ⟨file.asPosix, status, message⟩
      queuedSince := if s.cancelled then s.queuedSince ++ [file] else s.queuedSince
      runner := .updating (.goOn .progress (.files batch rest)) .begun }
  | _ => none

/-- The session of the runner is closed, and the operation is marked as failed. Where this fails too, the
runner gives up. -/
def error (s : BulkState ι) (message : String) : Option (BulkState ι) :=
  let closed := { s with row := s.row.rollback none, errored := true }
  match s.runner with
  | .at .ended => none
  | .updating (.finish .failed _ _) _ => some { closed with runner := .at .ended }
  | _ => some { closed with
      runner := finishing .failed "Bulk queue operation failed." (some message) }

def load (s : BulkState ι) : Option (BulkState ι) :=
  match s.runner with
  | .updating update .begun => (s.row.visible none).map fun op =>
      { s with runner := .updating update (.loaded op) }
  | _ => none

def flush (s : BulkState ι) : Option (BulkState ι) :=
  match s.runner with
  | .updating update (.loaded op) =>
    if update.apply s.tally op = op then some { s with runner := .updating update .flushed }
    else if s.row.waits none then none
    else (s.row.visible none).map fun current =>
      { s with
        row := s.row.write none (op.flush (update.apply s.tally op) current)
        runner := .updating update .flushed }
  | _ => none

def commit (s : BulkState ι) : Option (BulkState ι) :=
  match s.runner with
  | .updating update .flushed => some { s with
      row := s.row.commit none
      runner := .at update.next
      finished := s.finished || update.finishes }
  | _ => none

/-- A request loads the row. -/
def cancelLoad (s : BulkState ι) (i : ι) : Option (BulkState ι) :=
  if (s.cancels i).isSome then none
  else (s.row.visible (some i)).map fun op =>
    { s with cancels := Function.update s.cancels i (some (.loaded op)) }

/-- A request writes what it has changed; without a change it writes nothing. -/
def cancelFlush (s : BulkState ι) (i : ι) : Option (BulkState ι) :=
  match s.cancels i with
  | some (.loaded op) =>
    let cancels := Function.update s.cancels i (some (.flushed op))
    if op.requestCancel = op then some { s with cancels := cancels }
    else if s.row.waits (some i) then none
    else (s.row.visible (some i)).map fun current =>
      { s with row := s.row.write (some i) (op.flush op.requestCancel current), cancels := cancels }
  | _ => none

/-- The file that the runner is processing. -/
def processing (s : BulkState ι) : List PosixPath :=
  match s.runner with
  | .queueing file _ _ => [file]
  | _ => []

/-- The request is committed. It counts where it has found the operation active, and the runner has not
finished it. -/
def cancelCommit (s : BulkState ι) (i : ι) : Option (BulkState ι) :=
  match s.cancels i with
  | some (.flushed op) =>
    let counts := op.status.isActive && !s.finished
    some { s with
      row := s.row.commit (some i)
      cancels := Function.update s.cancels i none
      cancelled := s.cancelled || counts
      inProgress := if s.cancelled || !counts then s.inProgress else s.processing }
  | _ => none

def step (s : BulkState ι) : BulkAct ι → Option (BulkState ι)
  | .load => s.load
  | .flush => s.flush
  | .commit => s.commit
  | .itemise => s.itemise
  | .select selection => s.select selection
  | .check => s.check
  | .queue status message => s.queue status message
  | .error message => s.error message
  | .cancelLoad i => s.cancelLoad i
  | .cancelFlush i => s.cancelFlush i
  | .cancelCommit i => s.cancelCommit i

/-- An operation that has been created, and a runner that starts. -/
def created (batchSize : Nat) : BulkState ι where
  row := { committed := some { batchSize := batchSize } }

end BulkState

/-- The runner of an operation, and any number of requests. -/
def bulkSys (ι : Type) [DecidableEq ι] : Sys (BulkState ι) (BulkAct ι) where
  init s := ∃ batchSize, s = BulkState.created batchSize
  step := BulkState.step

end Encodr
