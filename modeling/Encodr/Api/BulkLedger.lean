import Encodr.Api.BulkSelection
import Encodr.Lib.Pages

/-!
# The accounts of a bulk queue operation

The runner counts what it skips, queues, blocks and fails, in memory and in the row of the operation. The
ledger keeps beside it which files it has handed to `_queue_one_file`.

* `BulkState.counts`, `Counted.step`: the counts in the row change only where the runner commits them.
* `BulkLedger`, `bulkLedger`: the runner with its ledger.
* `Balanced`, `Balanced.step`: what was handed over and what is left make the selection, and every file that
  was handed over is counted once.
* `bulkLedger_exact`: the accounts of an operation.
-/

namespace Encodr

open Python Lib

/-! ## The counts of the row -/

structure BulkCounts where
  total : Nat := 0
  queued : Nat := 0
  skipped : Nat := 0
  blocked : Nat := 0
  failed : Nat := 0
deriving DecidableEq

/-- The sum of what is counted, the expected total apart. -/
def BulkCounts.sum (counts : BulkCounts) : Nat :=
  counts.queued + counts.skipped + counts.blocked + counts.failed

def BulkTally.sum (tally : BulkTally) : Nat :=
  tally.queued + tally.skipped + tally.blocked + tally.failed

def BulkQueueOperation.counts (op : BulkQueueOperation) : BulkCounts where
  total := op.totalExpected
  queued := op.queuedCount
  skipped := op.skippedCount
  blocked := op.blockedCount
  failed := op.failedCount

/-- The counts in memory, with the expected total of the row. -/
def BulkTally.counts (tally : BulkTally) (total : Nat) : BulkCounts where
  total := total
  queued := tally.queued
  skipped := tally.skipped
  blocked := tally.blocked
  failed := tally.failed

/-- What an update makes of the counts. -/
def BulkUpdate.count (tally : BulkTally) (counts : BulkCounts) : BulkUpdate → BulkCounts
  | .goOn .markRunning _ | .goOn .scanning _ | .goOn .itemising _ => counts
  | .goOn (.selected totalExpected _) _ =>
    { counts with total := totalExpected, skipped := tally.skipped, failed := tally.failed }
  | .goOn (.batch ..) _ | .goOn .progress _ | .finish .. => tally.counts counts.total

theorem BulkTally.sum_counts (tally : BulkTally) (total : Nat) : (tally.counts total).sum = tally.sum := rfl

/-- A file more is counted once. -/
theorem BulkTally.sum_add (tally : BulkTally) (item : BulkItem) : (tally.add item).sum = tally.sum + 1 := by
  unfold BulkTally.add BulkTally.sum
  cases item.status <;> simp only [] <;> omega

section Columns

variable {tally : BulkTally} {loaded target current op : BulkQueueOperation}

theorem apply_counts (update : BulkUpdate) :
    (update.apply tally op).counts = update.count tally op.counts := by
  cases update with
  | finish => rfl
  | goOn change next => cases change <;> rfl

theorem flushColumn_of_eq {α : Type} [DecidableEq α] {a b c : α} (h : a = c) : flushColumn a b c = b := by
  rw [flushColumn]
  split
  · next heq => exact h.symm.trans heq.symm
  · rfl

/-- A session that has loaded the counts of the row writes those that it wants. -/
theorem flush_counts (h : loaded.counts = current.counts) :
    (loaded.flush target current).counts = target.counts := by
  simp only [BulkQueueOperation.counts, BulkCounts.mk.injEq] at h
  obtain ⟨htotal, hqueued, hskipped, hblocked, hfailed⟩ := h
  simp only [BulkQueueOperation.counts, BulkQueueOperation.flush, flushColumn_of_eq htotal,
    flushColumn_of_eq hqueued, flushColumn_of_eq hskipped, flushColumn_of_eq hblocked,
    flushColumn_of_eq hfailed]

/-- A request writes no counts. -/
theorem requestCancel_flush_counts : (op.flush op.requestCancel current).counts = current.counts := by
  have hsame : ∀ {α : Type} [DecidableEq α] (a b : α), flushColumn a a b = b := fun a b => if_pos rfl
  unfold BulkQueueOperation.requestCancel
  split
  · simp only [BulkQueueOperation.counts, BulkQueueOperation.flush, hsame]
  · simp only [BulkQueueOperation.counts, BulkQueueOperation.flush, hsame]

end Columns

namespace BulkState

variable {ι : Type} [DecidableEq ι] {s s' : BulkState ι}

/-- The counts that are committed. -/
def rowCounts (row : Versioned (Option ι) BulkQueueOperation) : BulkCounts :=
  (row.committed.map (·.counts)).getD {}

def counts (s : BulkState ι) : BulkCounts :=
  rowCounts s.row

omit [DecidableEq ι] in
theorem counts_eq {op : BulkQueueOperation} (h : s.row.committed = some op) : s.counts = op.counts := by
  rw [counts, rowCounts, h]
  rfl

/-- The sessions of the runner have loaded the counts of the row, and the locks of the requests keep them. -/
structure Counted (s : BulkState ι) : Prop where
  exists_ : ∃ op, s.row.committed = some op
  loaded : ∀ update op, s.runner = .updating update (.loaded op) → op.counts = s.counts
  held : ∀ v, s.row.locked = some (none, v) →
    ∃ update, s.runner = .updating update .flushed ∧ v.counts = update.count s.tally s.counts
  unchanged : ∀ update, s.runner = .updating update .flushed → (∀ v, s.row.locked ≠ some (none, v)) →
    update.count s.tally s.counts = s.counts
  heldBy : ∀ i v, s.row.locked = some (some i, v) → v.counts = s.counts

/-- The counts after an action: they change where the runner commits. -/
def countsAfter (s : BulkState ι) (a : BulkAct ι) : BulkCounts :=
  match a, s.runner with
  | .commit, .updating update .flushed => update.count s.tally s.counts
  | _, _ => s.counts

namespace Counted

variable (hs : s.Counted)
include hs

omit [DecidableEq ι] in
theorem not_held (h : ∀ update, s.runner ≠ .updating update .flushed) (v : BulkQueueOperation) :
    s.row.locked ≠ some (none, v) := by
  intro hv
  obtain ⟨update, hrunner, -⟩ := hs.held v hv
  exact h update hrunner

omit [DecidableEq ι] in
/-- The runner goes on without a session that has loaded the row. -/
theorem move {runner : BulkRunner} (tally : BulkTally) (totalBatches : Nat) (queuedSince : List PosixPath)
    (hrunner : ∀ update, s.runner ≠ .updating update .flushed)
    (hloaded : ∀ update op, runner ≠ .updating update (.loaded op))
    (hflushed : ∀ update, runner ≠ .updating update .flushed) :
    Counted { s with
      runner := runner, tally := tally, totalBatches := totalBatches, queuedSince := queuedSince } where
  exists_ := hs.exists_
  loaded update op h := absurd h (hloaded update op)
  held v hv := absurd hv (hs.not_held hrunner v)
  unchanged update h := absurd h (hflushed update)
  heldBy := hs.heldBy

theorem load (h : s.load = some s') : s'.Counted ∧ s'.counts = s.counts := by
  unfold BulkState.load at h
  split at h
  · next update hrunner =>
    obtain ⟨op, hop, rfl⟩ := Option.map_eq_some_iff.mp h
    have hfree := hs.not_held (by simp [hrunner])
    rw [Versioned.visible_of_other hfree] at hop
    refine ⟨?_, rfl⟩
    exact { hs with
      loaded := by
        rintro _ _ ⟨⟩
        exact (counts_eq hop).symm
      held := fun v hv => absurd hv (hfree v)
      unchanged := fun _ h => by cases h }
  · cases h

theorem flush (h : s.flush = some s') : s'.Counted ∧ s'.counts = s.counts := by
  unfold BulkState.flush at h
  split at h
  · next update op hrunner =>
    have hop := hs.loaded update op hrunner
    have hfree := hs.not_held (by simp [hrunner])
    split at h
    · next hsame =>
      obtain rfl := Option.some.inj h
      refine ⟨?_, rfl⟩
      exact { hs with
        loaded := fun _ _ h => by cases h
        held := fun v hv => absurd hv (hfree v)
        unchanged := by
          rintro _ ⟨⟩ -
          show update.count s.tally s.counts = s.counts
          rw [← hop, ← apply_counts, hsame] }
    · split at h
      · cases h
      · next hwaits =>
        obtain ⟨current, hcurrent, rfl⟩ := Option.map_eq_some_iff.mp h
        rw [Versioned.visible_of_other hfree] at hcurrent
        refine ⟨?_, rfl⟩
        exact { hs with
          loaded := fun _ _ h => by cases h
          held := by
            rintro _ ⟨⟩
            refine ⟨update, rfl, ?_⟩
            rw [flush_counts (hop.trans (counts_eq hcurrent)), apply_counts, hop]
            rfl
          unchanged := fun _ _ hother => absurd rfl (hother _)
          heldBy := fun _ _ h => by cases h }
  · cases h

theorem commit (h : s.commit = some s') : s'.Counted ∧ s'.counts = s.countsAfter .commit := by
  unfold BulkState.commit at h
  split at h
  · next update hrunner =>
    obtain rfl := Option.some.inj h
    have hcounts : rowCounts (s.row.commit none) = update.count s.tally s.counts := by
      rcases Versioned.locked_cases none s.row with ⟨v, hv⟩ | hother
      · obtain ⟨update', hrunner', hcount⟩ := hs.held v hv
        obtain ⟨rfl, -⟩ := BulkRunner.updating.inj (hrunner.symm.trans hrunner')
        rw [Versioned.commit_of_locked hv]
        exact hcount
      · rw [Versioned.commit_of_other hother, hs.unchanged update hrunner hother]
        rfl
    have hafter : s.countsAfter .commit = update.count s.tally s.counts := by
      unfold countsAfter
      rw [hrunner]
    refine ⟨?_, hcounts.trans hafter.symm⟩
    constructor
    case exists_ =>
      obtain ⟨op, hop⟩ := hs.exists_
      exact Option.ne_none_iff_exists'.mp (Versioned.commit_ne_none (by rw [hop]; simp))
    case loaded => exact fun _ _ h => by cases h
    case held => exact fun v hv => absurd rfl (Versioned.locked_commit hv).2
    case unchanged => exact fun _ h => by cases h
    case heldBy =>
      intro i v hv
      obtain ⟨heq, -⟩ := Versioned.locked_commit hv
      have hv' := hs.heldBy i v (heq ▸ hv)
      rw [hv']
      exact congrArg rowCounts heq.symm
  · cases h

theorem error {message : String} (h : s.error message = some s') : s'.Counted ∧ s'.counts = s.counts := by
  have hclose : ∀ runner, (∀ update op, runner ≠ .updating update (.loaded op)) →
      (∀ update, runner ≠ .updating update .flushed) →
      Counted { s with row := s.row.rollback none, errored := true, runner := runner } ∧
      BulkState.counts { s with row := s.row.rollback none, errored := true, runner := runner } = s.counts := by
    intro runner hloaded hflushed
    have hcounts : rowCounts (s.row.rollback none) = s.counts := by
      rw [rowCounts, Versioned.rollback_committed, counts, rowCounts]
    refine ⟨?_, hcounts⟩
    constructor
    case exists_ =>
      obtain ⟨op, hop⟩ := hs.exists_
      exact ⟨op, Versioned.rollback_committed.trans hop⟩
    case loaded => exact fun update op h => absurd h (hloaded update op)
    case held => exact fun v hv => absurd rfl (Versioned.locked_rollback hv).2
    case unchanged => exact fun update h => absurd h (hflushed update)
    case heldBy =>
      intro i v hv
      obtain ⟨heq, -⟩ := Versioned.locked_rollback hv
      exact (hs.heldBy i v (heq ▸ hv)).trans hcounts.symm
  unfold BulkState.error at h
  dsimp only at h
  split at h
  · cases h
  · obtain rfl := Option.some.inj h
    exact hclose _ (by simp) (by simp)
  · obtain rfl := Option.some.inj h
    exact hclose _ (by simp [finishing]) (by simp [finishing])

theorem cancelLoad {i : ι} (h : s.cancelLoad i = some s') : s'.Counted ∧ s'.counts = s.counts := by
  unfold BulkState.cancelLoad at h
  split at h
  · cases h
  · obtain ⟨op, -, rfl⟩ := Option.map_eq_some_iff.mp h
    exact ⟨{ hs with }, rfl⟩

theorem cancelFlush {i : ι} (h : s.cancelFlush i = some s') : s'.Counted ∧ s'.counts = s.counts := by
  unfold BulkState.cancelFlush at h
  split at h
  · next op hi =>
    dsimp only at h
    split at h
    · obtain rfl := Option.some.inj h
      exact ⟨{ hs with }, rfl⟩
    · split at h
      · cases h
      · next hwaits =>
        have hwaits : s.row.waits (some i) = false := by simpa using hwaits
        obtain ⟨current, hcurrent, rfl⟩ := Option.map_eq_some_iff.mp h
        have hnone : ∀ v, s.row.locked ≠ some (none, v) := by
          intro v hv
          cases Versioned.owner_eq hwaits hv
        have hcounts : current.counts = s.counts := by
          rcases Versioned.locked_cases (some i) s.row with ⟨v, hv⟩ | hother
          · obtain rfl := Option.some.inj ((Versioned.visible_of_locked hv).symm.trans hcurrent)
            exact hs.heldBy i v hv
          · rw [Versioned.visible_of_other hother] at hcurrent
            exact (counts_eq hcurrent).symm
        refine ⟨?_, rfl⟩
        exact { hs with
          held := fun v hv => by cases hv
          unchanged := fun update hrunner _ => hs.unchanged update hrunner hnone
          heldBy := by
            rintro j v ⟨⟩
            exact requestCancel_flush_counts.trans hcounts }
  · cases h

theorem cancelCommit {i : ι} (h : s.cancelCommit i = some s') : s'.Counted ∧ s'.counts = s.counts := by
  unfold BulkState.cancelCommit at h
  split at h
  · obtain rfl := Option.some.inj h
    have hcounts : rowCounts (s.row.commit (some i)) = s.counts := by
      rcases Versioned.locked_cases (some i) s.row with ⟨v, hv⟩ | hother
      · rw [Versioned.commit_of_locked hv]
        exact hs.heldBy i v hv
      · rw [Versioned.commit_of_other hother]
        rfl
    refine ⟨?_, hcounts⟩
    constructor
    case exists_ =>
      obtain ⟨op, hop⟩ := hs.exists_
      exact Option.ne_none_iff_exists'.mp (Versioned.commit_ne_none (by rw [hop]; simp))
    case loaded => exact fun update op hrunner => (hs.loaded update op hrunner).trans hcounts.symm
    case held =>
      intro v hv
      obtain ⟨heq, -⟩ := Versioned.locked_commit hv
      obtain ⟨update, hrunner, hcount⟩ := hs.held v (heq ▸ hv)
      refine ⟨update, hrunner, hcount.trans ?_⟩
      exact congrArg (update.count s.tally) hcounts.symm
    case unchanged =>
      intro update hrunner hother
      have hnone : ∀ v, s.row.locked ≠ some (none, v) := by
        intro v hv
        have hfree : ∀ v, s.row.locked ≠ some (some i, v) := fun v' hv' => by cases hv.symm.trans hv'
        refine hother v ?_
        show (s.row.commit (some i)).locked = _
        rw [Versioned.commit_of_other hfree, hv]
      show update.count s.tally (rowCounts (s.row.commit (some i))) = rowCounts (s.row.commit (some i))
      rw [hcounts]
      exact hs.unchanged update hrunner hnone
    case heldBy =>
      intro j v hv
      obtain ⟨heq, -⟩ := Versioned.locked_commit hv
      exact (hs.heldBy j v (heq ▸ hv)).trans hcounts.symm
  · cases h

theorem check (h : s.check = some s') : s'.Counted ∧ s'.counts = s.counts := by
  have hgoes : ∀ {point : BulkPoint} {runner : BulkRunner}, s.runner = .at point →
      (∀ update op, runner ≠ .updating update (.loaded op)) →
      (∀ update, runner ≠ .updating update .flushed) →
      Counted { s with runner := runner } ∧ BulkState.counts { s with runner := runner } = s.counts := by
    intro point runner hrunner hloaded hflushed
    exact ⟨hs.move s.tally s.totalBatches s.queuedSince (by simp [hrunner]) hloaded hflushed, rfl⟩
  unfold BulkState.check at h
  split at h
  · next hrunner =>
    obtain rfl := Option.some.inj h
    exact hgoes hrunner (by simp) (by simp)
  · next hrunner =>
    obtain rfl := Option.some.inj h
    exact hgoes hrunner (by simp [finishing]) (by simp [finishing])
  · next hrunner =>
    obtain rfl := Option.some.inj h
    exact hgoes hrunner (by simp [finishing]) (by simp [finishing])
  · next hrunner =>
    split at h
    · obtain rfl := Option.some.inj h
      exact hgoes hrunner (by simp [cancelledRunner, finishing]) (by simp [cancelledRunner, finishing])
    · obtain rfl := Option.some.inj h
      exact hgoes hrunner (by simp) (by simp)
  · next hrunner =>
    obtain rfl := Option.some.inj h
    exact hgoes hrunner (by simp) (by simp)
  · next hrunner =>
    split at h
    · obtain rfl := Option.some.inj h
      exact hgoes hrunner (by simp [cancelledRunner, finishing]) (by simp [cancelledRunner, finishing])
    · obtain rfl := Option.some.inj h
      exact hgoes hrunner (by simp) (by simp)
  · cases h

omit [DecidableEq ι] in
theorem itemise (h : s.itemise = some s') : s'.Counted ∧ s'.counts = s.counts := by
  unfold BulkState.itemise at h
  split at h
  · next hrunner =>
    obtain rfl := Option.some.inj h
    exact ⟨hs.move s.tally s.totalBatches s.queuedSince (by simp [hrunner]) (by simp) (by simp), rfl⟩
  · cases h

theorem select {selection : BulkQueueSelection} (h : s.select selection = some s') :
    s'.Counted ∧ s'.counts = s.counts := by
  unfold BulkState.select at h
  split at h
  · next hrunner =>
    obtain rfl := Option.some.inj h
    exact ⟨hs.move _ _ s.queuedSince (by simp [hrunner]) (by simp) (by simp), rfl⟩
  · next hrunner =>
    obtain rfl := Option.some.inj h
    exact ⟨hs.move _ _ s.queuedSince (by simp [hrunner]) (by simp) (by simp), rfl⟩
  · cases h

omit [DecidableEq ι] in
theorem queue {status : BulkItemStatus} {message : String} (h : s.queue status message = some s') :
    s'.Counted ∧ s'.counts = s.counts := by
  unfold BulkState.queue at h
  split at h
  · next hrunner =>
    obtain rfl := Option.some.inj h
    exact ⟨hs.move _ s.totalBatches _ (by simp [hrunner]) (by simp) (by simp), rfl⟩
  · cases h

theorem step {a : BulkAct ι} (h : s.step a = some s') : s'.Counted ∧ s'.counts = s.countsAfter a := by
  cases a with
  | load => exact hs.load h
  | flush => exact hs.flush h
  | commit => exact hs.commit h
  | itemise => exact hs.itemise h
  | select selection => exact hs.select h
  | check => exact hs.check h
  | queue status message => exact hs.queue h
  | error message => exact hs.error h
  | cancelLoad i => exact hs.cancelLoad h
  | cancelFlush i => exact hs.cancelFlush h
  | cancelCommit i => exact hs.cancelCommit h

end Counted

omit [DecidableEq ι] in
theorem created_counted (batchSize : Nat) : (created batchSize : BulkState ι).Counted where
  exists_ := ⟨_, rfl⟩
  loaded _ _ h := by cases h
  held _ h := by cases h
  unchanged _ h := by cases h
  heldBy _ _ h := by cases h

end BulkState

/-! ## The ledger -/

/-- The operation, the selection once it is resolved, the files that have been handed to `_queue_one_file`,
and how the runner has finished the operation. -/
structure BulkLedger (ι : Type) where
  state : BulkState ι
  selection : Option BulkQueueSelection := none
  handed : List PosixPath := []
  outcome : Option BulkOutcome := none

inductive LedgerAct (ι : Type) where
  | resolve (listing : LibraryFiles) (moments : Nat → LibraryFiles) (payload : SelectionPayload)
  | queueOne (calls : QueueCalls)
  /-- Any other action. -/
  | act (a : BulkAct ι)

namespace BulkLedger

variable {ι : Type} [DecidableEq ι]

/-- The outcome that the runner commits, or the one before. -/
def outcomeAfter (l : BulkLedger ι) (a : BulkAct ι) : Option BulkOutcome :=
  match a, l.state.runner with
  | .commit, .updating (.finish outcome _ _) .flushed => some outcome
  | _, _ => l.outcome

/-- A file is handed over where the runner goes on to process it. -/
def handedAfter (l : BulkLedger ι) (a : BulkAct ι) (s : BulkState ι) : List PosixPath :=
  match a with
  | .check => l.handed ++ s.processing
  | _ => l.handed

def step (library : LibraryService) (safeMessage : String → String) (l : BulkLedger ι) :
    LedgerAct ι → Option (BulkLedger ι)
  | .resolve listing moments payload =>
    match resolveSelection library listing moments payload with
    | .error _ => none
    | .ok selection => (l.state.select selection).map fun s =>
        { l with state := s, selection := some selection }
  | .queueOne calls =>
    match l.state.runner with
    | .queueing file _ _ =>
      let item := queueOneFile safeMessage calls file
      (l.state.queue item.status item.message).map fun s => { l with state := s }
    | _ => none
  | .act (.select _) | .act (.queue ..) => none
  | .act a => (l.state.step a).map fun s =>
      { l with state := s, handed := l.handedAfter a s, outcome := l.outcomeAfter a }

/-- A step of the ledger is a step of the operation. -/
theorem step_state {library : LibraryService} {safeMessage : String → String} {l l' : BulkLedger ι}
    {a : LedgerAct ι} (h : l.step library safeMessage a = some l') :
    ∃ b, l.state.step b = some l'.state := by
  cases a with
  | resolve listing moments payload =>
    simp only [step] at h
    split at h
    · cases h
    · next selection _ =>
      obtain ⟨s, hs, rfl⟩ := Option.map_eq_some_iff.mp h
      exact ⟨.select selection, hs⟩
  | queueOne calls =>
    simp only [step] at h
    split at h
    · next file _ _ _ =>
      obtain ⟨s, hs, rfl⟩ := Option.map_eq_some_iff.mp h
      exact ⟨.queue _ _, hs⟩
    · cases h
  | act a =>
    cases a with
    | select => cases h
    | queue => cases h
    | load | flush | commit | itemise | check | error | cancelLoad | cancelFlush | cancelCommit =>
      obtain ⟨s, hs, rfl⟩ := Option.map_eq_some_iff.mp h
      exact ⟨_, hs⟩

end BulkLedger

/-- The runner of an operation with its ledger, and any number of requests. -/
def bulkLedger (library : LibraryService) (safeMessage : String → String) (ι : Type) [DecidableEq ι] :
    Sys (BulkLedger ι) (LedgerAct ι) where
  init l := ∃ batchSize, l = { state := BulkState.created batchSize }
  step := BulkLedger.step library safeMessage

/-- What the ledger records of a run is recorded of a run of the operation. -/
theorem bulkLedger_reachable {library : LibraryService} {safeMessage : String → String} {ι : Type}
    [DecidableEq ι] {l : BulkLedger ι} (h : (bulkLedger library safeMessage ι).Reachable l) :
    (bulkSys ι).Reachable l.state := by
  induction h with
  | init h =>
    obtain ⟨batchSize, rfl⟩ := h
    exact .init ⟨batchSize, rfl⟩
  | step a _ _ h ih =>
    obtain ⟨b, hb⟩ := BulkLedger.step_state h
    exact .step b ih trivial hb

/-! ## What is left -/

/-- The selection has not been resolved yet. -/
def BulkPoint.early : BulkPoint → Bool
  | .resolving | .scanning | .itemising => true
  | .empty | .batches _ | .files .. | .ended => false

/-- The files that the loops have yet to hand over. -/
def BulkPoint.left : BulkPoint → Option (List PosixPath)
  | .empty => some []
  | .batches rest => some rest.flatten
  | .files batch rest => some (batch ++ rest.flatten)
  | .resolving | .scanning | .itemising | .ended => none

def BulkChange.early : BulkChange → Bool
  | .markRunning | .scanning | .itemising => true
  | .selected .. | .batch .. | .progress => false

def BulkRunner.early : BulkRunner → Bool
  | .updating update _ => update.next.early
  | .at point => point.early
  | .queueing .. => false

def BulkUpdate.left : BulkUpdate → Option (List PosixPath)
  | .goOn _ next => next.left
  | .finish .completed _ _ => some []
  | .finish .. => none

def BulkRunner.left : BulkRunner → Option (List PosixPath)
  | .updating update _ => update.left
  | .at point => point.left
  | .queueing _ batch rest => some (batch ++ rest.flatten)

/-- The files that are handed over and not counted yet. -/
def BulkRunner.uncounted : BulkRunner → Nat
  | .queueing .. => 1
  | _ => 0

theorem BulkPoint.early_of_left {point : BulkPoint} {rest : List PosixPath} (h : point.left = some rest) :
    point.early = false := by
  cases point <;> first | rfl | cases h

/-- The files and the items of a selection. -/
def BulkQueueSelection.base (selection : BulkQueueSelection) : Nat :=
  selection.skippedItems.length + selection.failedItems.length

/-- `total_expected`. -/
def BulkQueueSelection.totalExpected (selection : BulkQueueSelection) : Nat :=
  selection.files.length + selection.skippedItems.length + selection.failedItems.length

/-- The chunks of a list give it back. -/
theorem flatten_chunks (items : List PosixPath) {size : Nat} (hsize : 0 < size) :
    (chunks items size).flatten = items := by
  have hdiv := Nat.div_add_mod' (items.length + size - 1) size
  have hmod := Nat.mod_lt (items.length + size - 1) hsize
  have hpages : items.length ≤ (items.length + size - 1) / size * size := by omega
  exact (List.flatMap_def ..).symm.trans (flatMap_pages hpages)

/-! ## The accounts -/

section Accounts

variable {ι : Type}

/-- The accounts before the selection is resolved. -/
structure Waiting (l : BulkLedger ι) : Prop where
  handed : l.handed = []
  tally : l.state.tally = {}
  counts : l.state.counts = {}
  left : l.state.runner.left = none
  change : ∀ change next phase, l.state.runner = .updating (.goOn change next) phase → change.early = true
  outcome : l.outcome ≠ some .completed

/-- The accounts of a selection: what was handed over and what is left make its files, and what was handed
over is counted once. -/
structure Running (selection : BulkQueueSelection) (l : BulkLedger ι) : Prop where
  nodup : selection.files.Nodup
  late : l.state.runner.early = false
  change : ∀ change next phase, l.state.runner = .updating (.goOn change next) phase →
    change.early = false ∧ next.left.isSome = true
  handed : l.handed <+: selection.files
  sum : l.state.tally.sum ≤ selection.base + l.handed.length
  rowSum : l.state.counts.sum ≤ l.state.tally.sum
  loops : ∀ rest, l.state.runner.left = some rest → l.handed ++ rest = selection.files ∧
    l.state.tally.sum + l.state.runner.uncounted = selection.base + l.handed.length
  selects : ∀ total batches next phase,
    l.state.runner = .updating (.goOn (.selected total batches) next) phase →
      total = selection.totalExpected ∧ l.state.counts = {}
  total : l.state.runner.left.isSome = true → (∀ total batches next phase,
    l.state.runner ≠ .updating (.goOn (.selected total batches) next) phase) →
      l.state.counts.total = selection.totalExpected
  ended : l.outcome = some .completed → l.state.runner = .at .ended ∧ l.handed = selection.files ∧
    l.state.tally.sum = selection.totalExpected ∧ l.state.counts.sum = selection.totalExpected ∧
    l.state.counts.total = selection.totalExpected

/-- The accounts of a ledger. -/
structure Balanced [DecidableEq ι] (l : BulkLedger ι) : Prop where
  counted : l.state.Counted
  waiting : l.selection = none → Waiting l
  running : ∀ selection, l.selection = some selection → Running selection l

/-- The runner is where it was, but for the phase of its session. -/
inductive SameRunner (r : BulkRunner) : BulkRunner → Prop
  | same : SameRunner r r
  | phase {update : BulkUpdate} {phase : SessionPhase} (h : r = .updating update phase)
    (phase' : SessionPhase) : SameRunner r (.updating update phase')

namespace SameRunner

variable {r r' : BulkRunner} (h : SameRunner r r')
include h

theorem early_eq : r'.early = r.early := by
  cases h with
  | same => rfl
  | phase h => rw [h]; rfl

theorem left_eq : r'.left = r.left := by
  cases h with
  | same => rfl
  | phase h => rw [h]; rfl

theorem uncounted_eq : r'.uncounted = r.uncounted := by
  cases h with
  | same => rfl
  | phase h => rw [h]; rfl

theorem updating {update : BulkUpdate} {phase' : SessionPhase} (hupdate : r' = .updating update phase') :
    ∃ phase, r = .updating update phase := by
  cases h with
  | same => exact ⟨phase', hupdate⟩
  | phase h =>
    obtain ⟨rfl, -⟩ := BulkRunner.updating.inj hupdate
    exact ⟨_, h⟩

theorem updating_of {update : BulkUpdate} {phase : SessionPhase} (hupdate : r = .updating update phase) :
    ∃ phase', r' = .updating update phase' := by
  cases h with
  | same => exact ⟨phase, hupdate⟩
  | phase h phase' =>
    obtain ⟨rfl, -⟩ := BulkRunner.updating.inj (h.symm.trans hupdate)
    exact ⟨phase', rfl⟩

theorem ended (hended : r = .at .ended) : r' = .at .ended := by
  cases h with
  | same => exact hended
  | phase h => cases hended.symm.trans h

end SameRunner

namespace Waiting

variable {l : BulkLedger ι} (hl : Waiting l)
include hl

theorem resume {s : BulkState ι} (hrunner : SameRunner l.state.runner s.runner)
    (htally : s.tally = l.state.tally) (hcounts : s.counts = l.state.counts) :
    Waiting { l with state := s } :=
  { hl with
    tally := htally.trans hl.tally
    counts := hcounts.trans hl.counts
    left := hrunner.left_eq.trans hl.left
    change := fun change next _ h => (hrunner.updating h).elim (hl.change change next) }

/-- The runner goes on; what it writes does not resolve the selection. -/
theorem move {s : BulkState ι} {outcome : Option BulkOutcome} (htally : s.tally = l.state.tally)
    (hcounts : s.counts = l.state.counts) (hleft : s.runner.left = none)
    (hchange : ∀ change next phase, s.runner = .updating (.goOn change next) phase → change.early = true)
    (houtcome : outcome ≠ some .completed) :
    Waiting { l with state := s, outcome := outcome } where
  handed := hl.handed
  tally := htally.trans hl.tally
  counts := hcounts.trans hl.counts
  left := hleft
  change := hchange
  outcome := houtcome

end Waiting

namespace Running

variable {l : BulkLedger ι} {selection : BulkQueueSelection} (hl : Running selection l)
include hl

theorem resume {s : BulkState ι} (hrunner : SameRunner l.state.runner s.runner)
    (htally : s.tally = l.state.tally) (hcounts : s.counts = l.state.counts) :
    Running selection { l with state := s } where
  nodup := hl.nodup
  late := hrunner.early_eq.trans hl.late
  change change next _ h := (hrunner.updating h).elim (hl.change change next)
  handed := hl.handed
  sum := by
    show s.tally.sum ≤ _
    rw [htally]
    exact hl.sum
  rowSum := by
    show s.counts.sum ≤ s.tally.sum
    rw [htally, hcounts]
    exact hl.rowSum
  loops := by
    show ∀ rest, s.runner.left = some rest → _ ∧ s.tally.sum + s.runner.uncounted = _
    rw [htally, hrunner.left_eq, hrunner.uncounted_eq]
    exact hl.loops
  selects total batches next phase h := by
    show total = _ ∧ s.counts = {}
    rw [hcounts]
    exact (hrunner.updating h).elim (hl.selects total batches next)
  total hleft hnot := by
    show s.counts.total = _
    rw [hcounts]
    refine hl.total (hrunner.left_eq ▸ hleft) fun total batches next phase h => ?_
    obtain ⟨phase', hupdating⟩ := hrunner.updating_of h
    exact hnot total batches next phase' hupdating
  ended houtcome := by
    obtain ⟨hended, hhanded, hsum, hrow, htotal⟩ := hl.ended houtcome
    exact ⟨hrunner.ended hended, hhanded, (congrArg _ htally).trans hsum, (congrArg _ hcounts).trans hrow,
      (congrArg _ hcounts).trans htotal⟩

/-- The runner goes on in its loops. -/
theorem turn {s : BulkState ι} {handed : List PosixPath} (hearly : l.state.runner ≠ .at .ended)
    (htally : s.tally = l.state.tally) (hcounts : s.counts = l.state.counts)
    (hlate : s.runner.early = false)
    (hchange : ∀ change next phase, s.runner = .updating (.goOn change next) phase →
      change.early = false ∧ next.left.isSome = true)
    (hselects : ∀ total batches next phase, s.runner ≠ .updating (.goOn (.selected total batches) next) phase)
    (hhanded : handed <+: selection.files) (hmore : l.handed.length ≤ handed.length)
    (hloops : ∀ rest, s.runner.left = some rest → handed ++ rest = selection.files ∧
      l.state.tally.sum + s.runner.uncounted = selection.base + handed.length)
    (htotal : s.runner.left.isSome = true → l.state.counts.total = selection.totalExpected) :
    Running selection { l with state := s, handed := handed } where
  nodup := hl.nodup
  late := hlate
  change := hchange
  handed := hhanded
  sum := by
    have hsum := hl.sum
    show s.tally.sum ≤ selection.base + handed.length
    rw [htally]
    omega
  rowSum := by
    show s.counts.sum ≤ s.tally.sum
    rw [htally, hcounts]
    exact hl.rowSum
  loops := by
    show ∀ rest, s.runner.left = some rest → _ ∧ s.tally.sum + _ = _
    rw [htally]
    exact hloops
  selects total batches next phase h := absurd h (hselects total batches next phase)
  total hleft _ := (congrArg _ hcounts).trans (htotal hleft)
  ended houtcome := absurd (hl.ended houtcome).1 hearly

/-- The total of the row has been written where the runner is in its loops. -/
theorem total_at {point : BulkPoint} {rest : List PosixPath} (hrunner : l.state.runner = .at point)
    (hleft : point.left = some rest) : l.state.counts.total = selection.totalExpected := by
  refine hl.total ?_ (by simp [hrunner])
  rw [hrunner, BulkRunner.left, hleft]
  rfl

/-- The runner goes on from a point of its loops without handing over a file. -/
theorem goes {point : BulkPoint} {rest : List PosixPath} {s : BulkState ι}
    (hrunner : l.state.runner = .at point) (hpoint : point.left = some rest)
    (htally : s.tally = l.state.tally) (hcounts : s.counts = l.state.counts)
    (hlate : s.runner.early = false) (huncounted : s.runner.uncounted = 0)
    (hchange : ∀ change next phase, s.runner = .updating (.goOn change next) phase →
      change.early = false ∧ next.left.isSome = true)
    (hselects : ∀ total batches next phase, s.runner ≠ .updating (.goOn (.selected total batches) next) phase)
    (hleft : s.runner.left = none ∨ s.runner.left = some rest) :
    Running selection { l with state := s } := by
  have hloops := hl.loops rest (by rw [hrunner, BulkRunner.left, hpoint])
  have hne : l.state.runner ≠ .at .ended := by
    rw [hrunner]
    rintro ⟨⟩
    cases hpoint
  refine hl.turn hne htally hcounts hlate hchange hselects hl.handed (Nat.le_refl _) ?_
    (fun _ => hl.total_at hrunner hpoint)
  intro rest' hrest'
  rcases hleft with hnone | hsome
  · cases hnone.symm.trans hrest'
  · obtain rfl := Option.some.inj (hsome.symm.trans hrest')
    refine ⟨hloops.1, ?_⟩
    rw [huncounted, ← hloops.2, hrunner]
    rfl

end Running

/-! ## Every step keeps the accounts -/

namespace Balanced

variable [DecidableEq ι] {l l' : BulkLedger ι} {s : BulkState ι} (hl : Balanced l)
include hl

/-- Where the runner stays. -/
theorem resume (hcounted : s.Counted) (hrunner : SameRunner l.state.runner s.runner)
    (htally : s.tally = l.state.tally) (hcounts : s.counts = l.state.counts) :
    Balanced { l with state := s } where
  counted := hcounted
  waiting hnone := (hl.waiting hnone).resume hrunner htally hcounts
  running selection hsome := (hl.running selection hsome).resume hrunner htally hcounts

/-- Before the selection is resolved, the runner goes on to scan it. -/
theorem check_waiting (hnone : l.selection = none) (h : l.state.check = some s) :
    l.state.runner = .at .resolving ∧
      s = { l.state with runner := .updating (.goOn .scanning .scanning) .begun } := by
  have hleft := (hl.waiting hnone).left
  unfold BulkState.check at h
  split at h
  · next hrunner => exact ⟨hrunner, (Option.some.inj h).symm⟩
  · next hrunner => rw [hrunner] at hleft; cases hleft
  · next hrunner => rw [hrunner] at hleft; cases hleft
  · next hrunner => rw [hrunner] at hleft; cases hleft
  · next hrunner => rw [hrunner] at hleft; cases hleft
  · next hrunner => rw [hrunner] at hleft; cases hleft
  · cases h

/-- In its loops, the runner hands over the next file that is left, or none. -/
theorem check_running {selection : BulkQueueSelection} (hsome : l.selection = some selection)
    (h : l.state.check = some s) :
    Running selection { l with state := s, handed := l.handed ++ s.processing } := by
  have hr := hl.running selection hsome
  have hnothing : ∀ {s : BulkState ι}, s.processing = [] → Running selection { l with state := s } →
      Running selection { l with state := s, handed := l.handed ++ s.processing } := by
    intro s hprocessing hrunning
    rw [hprocessing, List.append_nil]
    exact hrunning
  unfold BulkState.check at h
  split at h
  · next hrunner =>
    have hlate := hr.late
    rw [hrunner] at hlate
    cases hlate
  · next hrunner =>
    obtain rfl := Option.some.inj h
    exact hnothing rfl (hr.goes hrunner rfl rfl rfl rfl rfl (by simp [finishing]) (by simp [finishing]) (.inr rfl))
  · next hrunner =>
    obtain rfl := Option.some.inj h
    exact hnothing rfl (hr.goes hrunner rfl rfl rfl rfl rfl (by simp [finishing]) (by simp [finishing]) (.inr rfl))
  · next batch rest hrunner =>
    split at h
    · obtain rfl := Option.some.inj h
      exact hnothing rfl (hr.goes hrunner rfl rfl rfl rfl rfl (by simp [BulkState.cancelledRunner, finishing])
        (by simp [BulkState.cancelledRunner, finishing]) (.inl rfl))
    · obtain rfl := Option.some.inj h
      refine hnothing rfl (hr.goes hrunner rfl rfl rfl rfl rfl ?_ (by simp) (.inr rfl))
      rintro _ _ _ ⟨⟩
      exact ⟨rfl, rfl⟩
  · next rest hrunner =>
    obtain rfl := Option.some.inj h
    exact hnothing rfl (hr.goes hrunner rfl rfl rfl rfl rfl (by simp) (by simp) (.inr rfl))
  · next file batch rest hrunner =>
    split at h
    · obtain rfl := Option.some.inj h
      exact hnothing rfl (hr.goes hrunner rfl rfl rfl rfl rfl (by simp [BulkState.cancelledRunner, finishing])
        (by simp [BulkState.cancelledRunner, finishing]) (.inl rfl))
    · obtain rfl := Option.some.inj h
      have hleft : l.state.runner.left = some (file :: batch ++ rest.flatten) := by rw [hrunner]; rfl
      obtain ⟨hfiles, hsum⟩ := hr.loops _ hleft
      have hnext : (l.handed ++ [file]) ++ (batch ++ rest.flatten) = selection.files := by
        rw [← hfiles]
        simp
      refine hr.turn (by simp [hrunner]) rfl rfl rfl (by simp) (by simp) ⟨_, hnext⟩ (by simp) ?_
        (fun _ => hr.total_at hrunner rfl)
      rintro _ ⟨⟩
      refine ⟨hnext, ?_⟩
      rw [hrunner] at hsum
      have huncounted : BulkRunner.uncounted (.at (.files (file :: batch) rest)) = 0 := rfl
      show l.state.tally.sum + 1 = selection.base + (l.handed ++ [file]).length
      rw [List.length_append, List.length_singleton]
      omega
  · cases h

theorem check (h : l.state.check = some s) :
    Balanced { l with state := s, handed := l.handed ++ s.processing } := by
  obtain ⟨hcounted, hcounts⟩ := hl.counted.check h
  refine ⟨hcounted, fun hnone => ?_, fun selection hsome => hl.check_running hsome h⟩
  obtain ⟨-, rfl⟩ := hl.check_waiting hnone h
  have hw := hl.waiting hnone
  exact { hw with
    handed := (List.append_nil _).trans hw.handed
    left := rfl
    change := by
      rintro _ _ _ ⟨⟩
      rfl }

/-- The accounts are not changed by the step, and the runner has ended or is about to write an update that
does not belong to the loops. -/
theorem leave (hcounted : s.Counted) (htally : s.tally = l.state.tally)
    (hcounts : s.counts = l.state.counts) (hne : l.state.runner ≠ .at .ended)
    (hleft : s.runner.left = none) (hearly : s.runner.early = false)
    (hgoes : ∀ change next phase, s.runner ≠ .updating (.goOn change next) phase) :
    Balanced { l with state := s } where
  counted := hcounted
  waiting hnone := by
    have hw := hl.waiting hnone
    exact { hw with
      tally := htally.trans hw.tally
      counts := hcounts.trans hw.counts
      left := hleft
      change := fun change next phase h => absurd h (hgoes change next phase) }
  running selection hsome := by
    have hr := hl.running selection hsome
    refine hr.turn hne htally hcounts hearly (fun change next phase h => absurd h (hgoes change next phase))
      (fun _ _ _ _ => hgoes _ _ _) hr.handed (Nat.le_refl _) (fun rest h => ?_) (fun h => ?_)
    · cases hleft.symm.trans h
    · rw [hleft] at h
      cases h

theorem error {message : String} (h : l.state.error message = some s) : Balanced { l with state := s } := by
  obtain ⟨hcounted, hcounts⟩ := hl.counted.error h
  unfold BulkState.error at h
  dsimp only at h
  split at h
  · cases h
  · next hrunner =>
    obtain rfl := Option.some.inj h
    exact hl.leave hcounted rfl hcounts (by simp [hrunner]) rfl rfl (by simp)
  · next hne _ =>
    obtain rfl := Option.some.inj h
    exact hl.leave hcounted rfl hcounts hne rfl rfl (by simp [finishing])

theorem itemise (h : l.state.itemise = some s) : Balanced { l with state := s } := by
  obtain ⟨hcounted, hcounts⟩ := hl.counted.itemise h
  unfold BulkState.itemise at h
  split at h
  · next hrunner =>
    obtain rfl := Option.some.inj h
    refine ⟨hcounted, fun hnone => ?_, fun selection hsome => ?_⟩
    · have hw := hl.waiting hnone
      exact { hw with
        left := rfl
        change := by
          rintro _ _ _ ⟨⟩
          rfl }
    · have hlate := (hl.running selection hsome).late
      rw [hrunner] at hlate
      cases hlate
  · cases h

theorem load (h : l.state.load = some s) : Balanced { l with state := s } := by
  obtain ⟨hcounted, hcounts⟩ := hl.counted.load h
  unfold BulkState.load at h
  split at h
  · next hrunner =>
    obtain ⟨op, -, rfl⟩ := Option.map_eq_some_iff.mp h
    exact hl.resume hcounted (.phase hrunner _) rfl hcounts
  · cases h

theorem flush (h : l.state.flush = some s) : Balanced { l with state := s } := by
  obtain ⟨hcounted, hcounts⟩ := hl.counted.flush h
  unfold BulkState.flush at h
  split at h
  · next hrunner =>
    split at h
    · obtain rfl := Option.some.inj h
      exact hl.resume hcounted (.phase hrunner _) rfl hcounts
    · split at h
      · cases h
      · obtain ⟨current, -, rfl⟩ := Option.map_eq_some_iff.mp h
        exact hl.resume hcounted (.phase hrunner _) rfl hcounts
  · cases h

theorem cancelLoad {i : ι} (h : l.state.cancelLoad i = some s) : Balanced { l with state := s } := by
  obtain ⟨hcounted, hcounts⟩ := hl.counted.cancelLoad h
  unfold BulkState.cancelLoad at h
  split at h
  · cases h
  · obtain ⟨op, -, rfl⟩ := Option.map_eq_some_iff.mp h
    exact hl.resume hcounted .same rfl hcounts

theorem cancelFlush {i : ι} (h : l.state.cancelFlush i = some s) : Balanced { l with state := s } := by
  obtain ⟨hcounted, hcounts⟩ := hl.counted.cancelFlush h
  unfold BulkState.cancelFlush at h
  split at h
  · dsimp only at h
    split at h
    · obtain rfl := Option.some.inj h
      exact hl.resume hcounted .same rfl hcounts
    · split at h
      · cases h
      · obtain ⟨current, -, rfl⟩ := Option.map_eq_some_iff.mp h
        exact hl.resume hcounted .same rfl hcounts
  · cases h

theorem cancelCommit {i : ι} (h : l.state.cancelCommit i = some s) : Balanced { l with state := s } := by
  obtain ⟨hcounted, hcounts⟩ := hl.counted.cancelCommit h
  unfold BulkState.cancelCommit at h
  split at h
  · obtain rfl := Option.some.inj h
    exact hl.resume hcounted .same rfl hcounts
  · cases h

/-- The file that was handed over is counted. -/
theorem queue {status : BulkItemStatus} {message : String} (h : l.state.queue status message = some s) :
    Balanced { l with state := s } := by
  obtain ⟨hcounted, hcounts⟩ := hl.counted.queue h
  unfold BulkState.queue at h
  split at h
  · next file batch rest hrunner =>
    obtain rfl := Option.some.inj h
    refine ⟨hcounted, fun hnone => ?_, fun selection hsome => ?_⟩
    · have hleft := (hl.waiting hnone).left
      rw [hrunner] at hleft
      cases hleft
    · have hr := hl.running selection hsome
      have hleft : l.state.runner.left = some (batch ++ rest.flatten) := by rw [hrunner]; rfl
      obtain ⟨hfiles, hsum⟩ := hr.loops _ hleft
      have hone : l.state.runner.uncounted = 1 := by rw [hrunner]; rfl
      have hadd := l.state.tally.sum_add ⟨file.asPosix, status, message⟩
      rw [hone, ← hadd] at hsum
      exact {
        nodup := hr.nodup
        late := rfl
        change := by
          rintro _ _ _ ⟨⟩
          exact ⟨rfl, rfl⟩
        handed := hr.handed
        sum := Nat.le_of_eq hsum
        rowSum := by
          have hrow := hr.rowSum
          show BulkCounts.sum _ ≤ BulkTally.sum _
          rw [hcounts, hadd]
          omega
        loops := by
          rintro _ ⟨⟩
          exact ⟨hfiles, hsum⟩
        selects := fun _ _ _ _ h => by cases h
        total := fun _ _ => by
          show BulkCounts.total _ = _
          rw [hcounts]
          exact hr.total (by rw [hleft]; rfl) (by simp [hrunner])
        ended := fun houtcome => by
          have hended := (hr.ended houtcome).1
          rw [hrunner] at hended
          cases hended }
  · cases h

/-- The counts of the items come before those of the files. -/
theorem resolved {selection : BulkQueueSelection} {tally : BulkTally} {batches : List (List PosixPath)}
    (hnone : l.selection = none) (hnodup : selection.files.Nodup) (hbatches : batches.flatten = selection.files)
    (hcounted : s.Counted) (hcounts : s.counts = l.state.counts) (htally : s.tally = tally)
    (hsum : tally.sum = selection.base)
    (hrunner : s.runner = .updating (.goOn (.selected selection.totalExpected batches.length)
      (if selection.totalExpected = 0 then .empty else .batches batches)) .begun) :
    Balanced { l with state := s, selection := some selection } := by
  have hw := hl.waiting hnone
  have hbase : selection.totalExpected = selection.files.length + selection.base := by
    rw [BulkQueueSelection.totalExpected, BulkQueueSelection.base]
    omega
  have hleft : s.runner.left = some selection.files := by
    rw [hrunner]
    show BulkPoint.left (if _ then _ else _) = _
    split
    · next hzero =>
      have hfiles : selection.files = [] := List.length_eq_zero_iff.mp (by omega)
      rw [hfiles]
      rfl
    · rw [BulkPoint.left, hbatches]
  refine ⟨hcounted, fun h => (by cases h), ?_⟩
  rintro _ ⟨⟩
  exact {
    nodup := hnodup
    late := by
      show s.runner.early = false
      rw [hrunner]
      show BulkPoint.early (if _ then _ else _) = false
      split
      · rfl
      · rfl
    change := by
      intro change next phase h
      obtain ⟨⟨rfl, rfl⟩, -⟩ : (_ ∧ _) ∧ _ := by
        have heq := BulkRunner.updating.inj (hrunner.symm.trans h)
        exact ⟨BulkUpdate.goOn.inj heq.1, heq.2⟩
      rw [hrunner] at hleft
      exact ⟨rfl, Option.isSome_of_eq_some hleft⟩
    handed := by
      show l.handed <+: _
      rw [hw.handed]
      exact List.nil_prefix
    sum := by
      show s.tally.sum ≤ _
      rw [htally, hsum]
      exact Nat.le_add_right _ _
    rowSum := by
      show s.counts.sum ≤ _
      rw [hcounts, hw.counts]
      exact Nat.zero_le _
    loops := by
      intro rest hrest
      obtain rfl := Option.some.inj (hleft.symm.trans hrest)
      show l.handed ++ _ = _ ∧ s.tally.sum + s.runner.uncounted = _ + l.handed.length
      rw [hw.handed, htally, hsum, hrunner]
      exact ⟨rfl, rfl⟩
    selects := by
      intro total batches' next phase h
      have heq := BulkUpdate.goOn.inj (BulkRunner.updating.inj (hrunner.symm.trans h)).1
      obtain ⟨rfl, -⟩ := BulkChange.selected.inj heq.1
      exact ⟨rfl, hcounts.trans hw.counts⟩
    total := fun _ hnot => absurd hrunner (hnot _ _ _ _)
    ended := fun h => absurd h hw.outcome }

/-- The selection is resolved. -/
theorem resolve {selection : BulkQueueSelection} (hnodup : selection.files.Nodup)
    (h : l.state.select selection = some s) :
    Balanced { l with state := s, selection := some selection } := by
  obtain ⟨hcounted, hcounts⟩ := hl.counted.select h
  have hnone : l.state.runner.early = true → l.selection = none := by
    intro hearly
    cases hselection : l.selection with
    | none => rfl
    | some other => exact absurd (hearly.symm.trans (hl.running other hselection).late) (by decide)
  have hbase : ∀ items, BulkTally.sum ⟨0, selection.skippedItems.length, 0, selection.failedItems.length, items⟩ =
      selection.base := by
    intro items
    rw [BulkQueueSelection.base]
    show 0 + selection.skippedItems.length + 0 + selection.failedItems.length = _
    omega
  have hbatches := flatten_chunks selection.files l.state.batchSize_pos
  unfold BulkState.select at h
  split at h
  · next hrunner =>
    obtain rfl := Option.some.inj h
    exact hl.resolved (hnone (by rw [hrunner]; rfl)) hnodup hbatches hcounted hcounts rfl (hbase _) rfl
  · next hrunner =>
    obtain rfl := Option.some.inj h
    exact hl.resolved (hnone (by rw [hrunner]; rfl)) hnodup hbatches hcounted hcounts rfl (hbase _) rfl
  · cases h

/-- A change of the row is committed that does not finish the operation. -/
theorem commit_goOn {change : BulkChange} {next : BulkPoint}
    (hrunner : l.state.runner = .updating (.goOn change next) .flushed) (hcounted : s.Counted)
    (hnext : s.runner = .at next) (htally : s.tally = l.state.tally)
    (hcounts : s.counts = BulkUpdate.count l.state.tally l.state.counts (.goOn change next)) :
    Balanced { l with state := s } := by
  refine ⟨hcounted, fun hnone => ?_, fun selection hsome => ?_⟩
  · have hw := hl.waiting hnone
    have hearly := hw.change change next _ hrunner
    have hsame : BulkUpdate.count l.state.tally l.state.counts (.goOn change next) = l.state.counts := by
      cases change <;> first | rfl | cases hearly
    have hleft := hw.left
    rw [hrunner] at hleft
    exact { hw with
      tally := htally.trans hw.tally
      counts := (hcounts.trans hsame).trans hw.counts
      left := (congrArg _ hnext).trans hleft
      change := fun _ _ _ h => by cases hnext.symm.trans h }
  · have hr := hl.running selection hsome
    obtain ⟨hlate, hsome'⟩ := hr.change change next _ hrunner
    obtain ⟨rest, hrest⟩ := Option.isSome_iff_exists.mp hsome'
    have hleft : l.state.runner.left = some rest := by
      rw [hrunner]
      exact hrest
    obtain ⟨hfiles, hsum⟩ := hr.loops rest hleft
    have huncounted : l.state.runner.uncounted = 0 := by rw [hrunner]; rfl
    -- what the row counts is what the runner has counted
    have hrow : s.counts.sum ≤ l.state.tally.sum ∧ s.counts.total = selection.totalExpected := by
      rw [hcounts]
      cases change with
      | markRunning | scanning | itemising => cases hlate
      | selected total batches =>
        obtain ⟨rfl, hzero⟩ := hr.selects total batches next _ hrunner
        refine ⟨?_, rfl⟩
        rw [hzero]
        show 0 + l.state.tally.skipped + 0 + l.state.tally.failed ≤ _
        rw [BulkTally.sum]
        omega
      | batch number total =>
        exact ⟨Nat.le_refl _, hr.total (by rw [hleft]; rfl) (by simp [hrunner])⟩
      | progress => exact ⟨Nat.le_refl _, hr.total (by rw [hleft]; rfl) (by simp [hrunner])⟩
    exact {
      nodup := hr.nodup
      late := (congrArg _ hnext).trans (BulkPoint.early_of_left hrest)
      change := fun _ _ _ h => by cases hnext.symm.trans h
      handed := hr.handed
      sum := by
        show s.tally.sum ≤ _
        rw [htally]
        exact hr.sum
      rowSum := by
        show _ ≤ s.tally.sum
        rw [htally]
        exact hrow.1
      loops := by
        intro rest' h
        have hrest' : next.left = some rest' := by
          rw [← h]
          exact (congrArg BulkRunner.left hnext).symm
        obtain rfl := Option.some.inj (hrest.symm.trans hrest')
        refine ⟨hfiles, ?_⟩
        show s.tally.sum + s.runner.uncounted = _
        rw [htally, hnext, ← hsum, huncounted]
        rfl
      selects := fun _ _ _ _ h => by cases hnext.symm.trans h
      total := fun _ _ => hrow.2
      ended := fun houtcome => by
        have hended := (hr.ended houtcome).1
        cases hrunner.symm.trans hended }

/-- The operation is finished. -/
theorem commit_finish {outcome : BulkOutcome} {statusText : String} {errorSummary : Option String}
    (hrunner : l.state.runner = .updating (.finish outcome statusText errorSummary) .flushed)
    (hcounted : s.Counted) (hended : s.runner = .at .ended) (htally : s.tally = l.state.tally)
    (hcounts : s.counts = l.state.tally.counts l.state.counts.total) :
    Balanced { l with state := s, outcome := some outcome } := by
  refine ⟨hcounted, fun hnone => ?_, fun selection hsome => ?_⟩
  · have hw := hl.waiting hnone
    have hleft := hw.left
    rw [hrunner] at hleft
    have hzero : s.counts = {} := by
      rw [hcounts, hw.tally, hw.counts]
      rfl
    exact { hw with
      tally := htally.trans hw.tally
      counts := hzero
      left := congrArg _ hended
      change := fun _ _ _ h => by cases hended.symm.trans h
      outcome := by
        rintro ⟨⟩
        cases hleft }
  · have hr := hl.running selection hsome
    have hrow : s.counts.sum = l.state.tally.sum := by
      rw [hcounts]
      rfl
    exact {
      nodup := hr.nodup
      late := congrArg _ hended
      change := fun _ _ _ h => by cases hended.symm.trans h
      handed := hr.handed
      sum := by
        show s.tally.sum ≤ _
        rw [htally]
        exact hr.sum
      rowSum := by
        show s.counts.sum ≤ s.tally.sum
        rw [htally, hrow]
      loops := fun rest h => by cases (congrArg BulkRunner.left hended).symm.trans h
      selects := fun _ _ _ _ h => by cases hended.symm.trans h
      total := fun h _ => by
        have hnone : s.runner.left = none := congrArg _ hended
        have hsome : s.runner.left.isSome = true := h
        rw [hnone] at hsome
        cases hsome
      ended := by
        rintro ⟨⟩
        have hleft : l.state.runner.left = some [] := by rw [hrunner]; rfl
        obtain ⟨hfiles, hsum⟩ := hr.loops [] hleft
        have huncounted : l.state.runner.uncounted = 0 := by rw [hrunner]; rfl
        rw [List.append_nil] at hfiles
        have hexpected : l.state.tally.sum = selection.totalExpected := by
          rw [BulkQueueSelection.totalExpected]
          rw [huncounted, Nat.add_zero, hfiles, BulkQueueSelection.base] at hsum
          omega
        have htotal : s.counts.total = selection.totalExpected := by
          rw [hcounts]
          exact hr.total (by rw [hleft]; rfl) (by simp [hrunner])
        exact ⟨hended, hfiles, (congrArg _ htally).trans hexpected, hrow.trans hexpected, htotal⟩ }

theorem commit (h : l.state.commit = some s) :
    Balanced { l with state := s, outcome := l.outcomeAfter .commit } := by
  obtain ⟨hcounted, hcounts⟩ := hl.counted.commit h
  unfold BulkState.commit at h
  split at h
  · next update hrunner =>
    obtain rfl := Option.some.inj h
    have hafter : l.state.countsAfter .commit = update.count l.state.tally l.state.counts := by
      unfold BulkState.countsAfter
      rw [hrunner]
    rw [hafter] at hcounts
    cases update with
    | goOn change next =>
      have houtcome : l.outcomeAfter .commit = l.outcome := by
        unfold BulkLedger.outcomeAfter
        rw [hrunner]
      rw [houtcome]
      exact hl.commit_goOn hrunner hcounted rfl rfl hcounts
    | finish outcome statusText errorSummary =>
      have houtcome : l.outcomeAfter .commit = some outcome := by
        unfold BulkLedger.outcomeAfter
        rw [hrunner]
      rw [houtcome]
      exact hl.commit_finish hrunner hcounted rfl rfl hcounts
  · cases h

theorem step {library : LibraryService} {safeMessage : String → String} {a : LedgerAct ι}
    (h : l.step library safeMessage a = some l') : Balanced l' := by
  cases a with
  | resolve listing moments payload =>
    simp only [BulkLedger.step] at h
    split at h
    · cases h
    · next hresolved =>
      obtain ⟨s, hs, rfl⟩ := Option.map_eq_some_iff.mp h
      obtain ⟨-, -, hnodup, -⟩ := resolveSelection_files hresolved
      exact hl.resolve hnodup hs
  | queueOne calls =>
    simp only [BulkLedger.step] at h
    split at h
    · obtain ⟨s, hs, rfl⟩ := Option.map_eq_some_iff.mp h
      exact hl.queue hs
    · cases h
  | act a =>
    cases a with
    | select => cases h
    | queue => cases h
    | load =>
      obtain ⟨s, hs, rfl⟩ := Option.map_eq_some_iff.mp h
      exact hl.load hs
    | flush =>
      obtain ⟨s, hs, rfl⟩ := Option.map_eq_some_iff.mp h
      exact hl.flush hs
    | commit =>
      obtain ⟨s, hs, rfl⟩ := Option.map_eq_some_iff.mp h
      exact hl.commit hs
    | itemise =>
      obtain ⟨s, hs, rfl⟩ := Option.map_eq_some_iff.mp h
      exact hl.itemise hs
    | check =>
      obtain ⟨s, hs, rfl⟩ := Option.map_eq_some_iff.mp h
      exact hl.check hs
    | error message =>
      obtain ⟨s, hs, rfl⟩ := Option.map_eq_some_iff.mp h
      exact hl.error hs
    | cancelLoad i =>
      obtain ⟨s, hs, rfl⟩ := Option.map_eq_some_iff.mp h
      exact hl.cancelLoad hs
    | cancelFlush i =>
      obtain ⟨s, hs, rfl⟩ := Option.map_eq_some_iff.mp h
      exact hl.cancelFlush hs
    | cancelCommit i =>
      obtain ⟨s, hs, rfl⟩ := Option.map_eq_some_iff.mp h
      exact hl.cancelCommit hs

end Balanced

variable [DecidableEq ι] {library : LibraryService} {safeMessage : String → String} {l : BulkLedger ι}

theorem balanced_of_reachable (h : (bulkLedger library safeMessage ι).Reachable l) : Balanced l := by
  have hinductive : (bulkLedger library safeMessage ι).Inductive (fun _ _ => True) Balanced := by
    refine ⟨?_, fun l a l' hl _ h => hl.step h⟩
    rintro l ⟨batchSize, rfl⟩
    refine ⟨BulkState.created_counted batchSize, fun _ => ⟨rfl, rfl, rfl, rfl, ?_, by simp⟩,
      fun _ h => (by cases h)⟩
    rintro _ _ _ ⟨⟩
    rfl
  exact hinductive.reach h

/-- The accounts of an operation. Once its selection is resolved, no file is handed over twice and no more
is counted than is expected. An operation that has ended completed has handed over every file once and has
counted all that is expected. -/
theorem bulkLedger_exact (h : (bulkLedger library safeMessage ι).Reachable l) :
    (l.selection = none → l.handed = [] ∧ l.outcome ≠ some .completed) ∧
    ∀ selection, l.selection = some selection →
      selection.files.Nodup ∧ l.handed.Nodup ∧ l.handed <+: selection.files ∧
      l.state.tally.sum ≤ selection.totalExpected ∧ l.state.counts.sum ≤ selection.totalExpected ∧
      (l.outcome = some .completed → l.handed = selection.files ∧
        l.state.tally.sum = selection.totalExpected ∧ l.state.counts.sum = selection.totalExpected ∧
        l.state.counts.total = selection.totalExpected) := by
  have hl := balanced_of_reachable h
  refine ⟨fun hnone => ⟨(hl.waiting hnone).handed, (hl.waiting hnone).outcome⟩, fun selection hselection => ?_⟩
  have hr := hl.running selection hselection
  have hsum : l.state.tally.sum ≤ selection.totalExpected := by
    have hle := hr.handed.length_le
    have hbound := hr.sum
    rw [BulkQueueSelection.base] at hbound
    rw [BulkQueueSelection.totalExpected]
    omega
  exact ⟨hr.nodup, hr.nodup.sublist hr.handed.sublist, hr.handed, hsum, Nat.le_trans hr.rowSum hsum,
    fun houtcome => (hr.ended houtcome).2⟩

end Accounts

/-- A library in which there is one file. -/
def oneFileLibrary : LibraryFiles where
  pathExists path := path.asPosix = "/media/a.mkv"
  isFile path := path.asPosix = "/media/a.mkv"
  isDir path := path.asPosix = "/media"
  below _ := []

def mediaLibrary : LibraryService where
  os := { expanduser := id, resolve := id }
  mediaMounts := [PosixPath.parse "/media"]
  scratchDir := PosixPath.parse "/scratch"

/-- A session of the runner. -/
def session : List (LedgerAct Unit) := [.act .load, .act .flush, .act .commit]

/-- A selection that has the file twice, a file that is missing, and a backup. -/
def queuesOneFile : List (LedgerAct Unit) :=
  session ++ [.act .check] ++ session ++
    [.resolve oneFileLibrary (fun _ => oneFileLibrary) { selectedPaths :=
      ["/media/a.mkv", "/media/b.mkv", "/media/a.mkv", "/media/a.encodr-backup.mkv"] }] ++ session ++
    [.act .check] ++ session ++ [.act .check,
      .queueOne {
        planFile := fun path => .ok ⟨path.asPosix, "a", "plan"⟩
        createJob := fun _ => .error (.api (.conflict "An active job exists."))
        commit := .ok () }] ++ session ++ [.act .check, .act .check] ++ session

/-- The ledger at the end of the operation. -/
def oneFileLedger : BulkLedger Unit :=
  ((bulkLedger mediaLibrary id Unit).run (fun _ _ => true) { state := BulkState.created 25 } queuesOneFile).getD
    { state := BulkState.created 25 }

/-- The file is handed over once, and three paths are counted. -/
theorem bulkLedger_exact_oneFile : (bulkLedger mediaLibrary id Unit).Reachable oneFileLedger ∧
    oneFileLedger.outcome = some .completed ∧ oneFileLedger.handed = [PosixPath.parse "/media/a.mkv"] ∧
    oneFileLedger.handed.Nodup := by
  have hinit : (bulkLedger mediaLibrary id Unit).init { state := BulkState.created 25 } := ⟨25, rfl⟩
  have hreach : (bulkLedger mediaLibrary id Unit).Reachable oneFileLedger :=
    (Sys.Reach.after (fun _ _ => false) queuesOneFile hinit (by decide +kernel)).mono fun _ _ _ => trivial
  have hsome : oneFileLedger.selection.isSome = true := by decide +kernel
  obtain ⟨selection, hselection⟩ := Option.isSome_iff_exists.mp hsome
  obtain ⟨-, hnodup, -⟩ := (bulkLedger_exact hreach).2 selection hselection
  exact ⟨hreach, by decide +kernel, by decide +kernel, hnodup⟩

end Encodr
