import Encodr.Api.BulkQueue

/-!
# Requests that cancel a bulk queue operation

What holds in every run in which the runner finds each request that cancels its operation.

* `BulkState.misses`: a request that the runner does not find.
* `BulkState.Notices`, `Notices.step`: once a request is committed, the operation is cancelling until the
  runner, which still looks for requests, finishes it.
-/

namespace Encodr

open Python Lib

/-! ## Requests that the runner finds -/

/-- The runner does not look for requests any more. -/
def BulkPoint.overlooks : BulkPoint → Bool
  | .empty | .ended => true
  | .batches rest => rest.isEmpty
  | .files batch rest => batch.isEmpty && rest.isEmpty
  | .resolving | .scanning | .itemising => false

/-- A request that is committed now is overwritten by the start of the runner, or is not looked for before it
completes the operation. -/
def BulkUpdate.overlooks : BulkUpdate → Bool
  | .goOn .markRunning _ => true
  | .goOn _ next => next.overlooks
  | .finish outcome _ _ => outcome = .completed

def BulkRunner.overlooks : BulkRunner → Bool
  | .updating update _ => update.overlooks
  | .at point => point.overlooks
  | .queueing _ batch rest => batch.isEmpty && rest.isEmpty

def BulkUpdate.fails : BulkUpdate → Bool
  | .finish .failed _ _ => true
  | _ => false

/-- The runner marks the operation as failed. -/
def BulkRunner.fails : BulkRunner → Bool
  | .updating update _ => update.fails
  | _ => false

/-- The runner has no session that has loaded the row. -/
inductive BulkRunner.Quiet : BulkRunner → Prop
  | begun (update : BulkUpdate) : Quiet (.updating update .begun)
  | at (point : BulkPoint) : Quiet (.at point)
  | queueing (file : PosixPath) (batch : List PosixPath) (rest : List (List PosixPath)) :
    Quiet (.queueing file batch rest)

/-- The runner is processing a file. -/
def BulkRunner.processes : BulkRunner → Bool
  | .queueing _ _ _ => true
  | _ => false

/-- The request has found the operation pending or running. -/
def CancelRequest.asks : CancelRequest → Bool
  | .loaded op | .flushed op => op.status = .pending || op.status = .running

/-- A step by which a request is missed: it is committed when the runner does not look for it, or has
finished; or a selection without files is found after it; or the runner cannot mark the operation as failed
after it. -/
def BulkState.misses {ι : Type} (s : BulkState ι) : BulkAct ι → Bool
  | .cancelCommit i => (s.cancels i).any (·.asks) && (s.runner.overlooks || s.finished)
  | .select selection => s.cancelled && selection.files.isEmpty
  | .error _ => s.cancelled && s.runner.fails
  | _ => false

/-- What an update makes of the status. -/
def BulkUpdate.Writes (update : BulkUpdate) (before after : BulkStatus) : Prop :=
  match update with
  | .goOn .markRunning _ => after = .running ∨ after = before
  | .goOn _ _ => after = before
  | .finish outcome _ _ => after = outcome.status

namespace BulkState

variable {ι : Type} [DecidableEq ι] {s s' : BulkState ι} {i j : ι} {op current : BulkQueueOperation}
  {tally : BulkTally} {update : BulkUpdate}

/-- The status that an update is flushed with. -/
theorem flush_writes (hactive : op.status.isActive = true) :
    update.Writes current.status (op.flush (update.apply tally op) current).status := by
  cases update with
  | goOn change next =>
    cases change with
    | markRunning => exact (ite_eq_or_eq _ _ _).symm
    | scanning => exact if_pos rfl
    | itemising => exact if_pos rfl
    | selected => exact if_pos rfl
    | batch => exact if_pos rfl
    | progress => exact if_pos rfl
  | finish outcome statusText errorSummary =>
    refine if_neg fun h : outcome.status = op.status => ?_
    rw [← h] at hactive
    cases outcome <;> cases hactive

/-- What a request writes: it cancels an operation that it has found pending or running. -/
theorem requestCancel_flush (hchanged : op.requestCancel ≠ op) :
    (CancelRequest.loaded op).asks = true ∧ (op.flush op.requestCancel current).status = .cancelling ∨
      op.status = .cancelling ∧ (op.flush op.requestCancel current).status = current.status := by
  unfold BulkQueueOperation.requestCancel at hchanged ⊢
  cases hstatus : op.status <;> simp [BulkStatus.isActive, hstatus, BulkQueueOperation.flush, flushColumn,
    CancelRequest.asks] at hchanged ⊢

theorem requestCancel_ne (h : (CancelRequest.flushed op).asks = true) : op.requestCancel ≠ op := by
  intro hsame
  have hstatus : op.requestCancel.status = op.status := congrArg _ hsame
  unfold BulkQueueOperation.requestCancel at hstatus
  cases hop : op.status <;> simp [hop, BulkStatus.isActive, CancelRequest.asks] at h hstatus

/-- Who holds the row, and which statuses the row can have. Once a request counts, the operation is
cancelling until the runner, which has yet to look for requests or to end the operation otherwise, finishes
it. -/
structure Notices (s : BulkState ι) : Prop where
  exists_ : ∃ op, s.row.committed = some op
  active : s.finished = false → ∀ op, s.row.committed = some op → op.status.isActive = true
  loaded : ∀ update op, s.runner = .updating update (.loaded op) → op.status.isActive = true
  held : ∀ v, s.row.locked = some (none, v) → ∃ update, s.runner = .updating update .flushed ∧
    ∀ op, s.row.committed = some op → update.Writes op.status v.status
  finishes : ∀ update, s.runner = .updating update .flushed → update.finishes = true →
    ∃ v, s.row.locked = some (none, v)
  heldBy : ∀ i v, s.row.locked = some (some i, v) → ∃ op, s.cancels i = some (.flushed op) ∧
    ((CancelRequest.flushed op).asks = true ∧ v.status = .cancelling ∨
      op.status = .cancelling ∧ ∀ op, s.row.committed = some op → v.status = op.status)
  asks : ∀ i op, s.cancels i = some (.flushed op) → (CancelRequest.flushed op).asks = true →
    ∃ v, s.row.locked = some (some i, v)
  requested : ∀ op, s.row.committed = some op → op.status = .cancelling →
    s.cancelled = true ∨ s.finished = true
  found : ∀ i op, (s.cancels i = some (.loaded op) ∨ s.cancels i = some (.flushed op)) →
    op.status = .cancelling → s.cancelled = true ∨ s.finished = true
  ended : s.finished = true → s.runner = .at .ended
  errs : s.runner.fails = true → s.errored = true
  noticed : s.cancelled = true → s.finished = false →
    s.runner.overlooks = false ∧ ∀ op, s.row.committed = some op → op.status = .cancelling
  final : s.cancelled = true → s.finished = true →
    ∀ op, s.row.committed = some op → op.status = .cancelled ∨ op.status = .failed ∧ s.errored = true
  before : s.cancelled = false → s.queuedSince = []
  since : s.cancelled = true → s.queuedSince = [] ∨ s.queuedSince = s.inProgress
  single : s.inProgress.length ≤ 1
  processing : s.cancelled = true → ∀ file batch rest, s.runner = .queueing file batch rest →
    s.queuedSince = [] ∧ s.inProgress = [file]

namespace Notices

variable (hs : s.Notices)
include hs

omit [DecidableEq ι] in
theorem not_held (h : s.runner.Quiet) (v : BulkQueueOperation) : s.row.locked ≠ some (none, v) := by
  intro hv
  obtain ⟨update, hrunner, -⟩ := hs.held v hv
  rw [hrunner] at h
  cases h

omit [DecidableEq ι] in
theorem not_finished (h : s.runner ≠ .at .ended) : s.finished = false := by
  by_contra hfinished
  exact h (hs.ended (by simpa using hfinished))

omit [DecidableEq ι] in
/-- The runner goes on between two changes of the row. -/
theorem move {runner : BulkRunner} (tally : BulkTally) (totalBatches : Nat) (hquiet : s.runner.Quiet)
    (hne : s.runner ≠ .at .ended) (hquiet' : runner.Quiet) (hfails : runner.fails = false)
    (hgoes : s.cancelled = true → runner.overlooks = false ∧ runner.processes = false) :
    Notices { s with runner := runner, tally := tally, totalBatches := totalBatches } :=
  { hs with
    loaded := by
      intro update op h
      obtain rfl : runner = _ := h
      cases hquiet'
    held := fun v hv => absurd hv (hs.not_held hquiet v)
    finishes := by
      intro update h
      obtain rfl : runner = _ := h
      cases hquiet'
    ended := fun h => absurd ((hs.not_finished hne).symm.trans h) Bool.false_ne_true
    errs := fun h => absurd (hfails.symm.trans h) Bool.false_ne_true
    noticed := fun hcancelled hfinished =>
      ⟨(hgoes hcancelled).1, (hs.noticed hcancelled hfinished).2⟩
    processing := by
      intro hcancelled file batch rest h
      obtain rfl : runner = _ := h
      cases (hgoes hcancelled).2 }

/-- Between two changes of the row, the runner finds a request that counts. -/
theorem cancelRequested (hquiet : s.runner.Quiet) (hne : s.runner ≠ .at .ended)
    (hcancelled : s.cancelled = true) : s.cancelRequested = true := by
  obtain ⟨op, hop⟩ := hs.exists_
  have hstatus := (hs.noticed hcancelled (hs.not_finished hne)).2 op hop
  rw [BulkState.cancelRequested, Versioned.visible_of_other (hs.not_held hquiet), hop, Option.any_some]
  exact decide_eq_true hstatus

/-- The runner goes on from a point of its loops. -/
theorem goes {point : BulkPoint} {runner : BulkRunner} (hrunner : s.runner = .at point)
    (hne : point ≠ .ended) (hquiet : runner.Quiet) (hfails : runner.fails = false)
    (hgoes : s.cancelled = true → point.overlooks = false → s.cancelRequested = true →
      runner.overlooks = false ∧ runner.processes = false) :
    Notices { s with runner := runner } := by
  have hat : s.runner.Quiet := hrunner ▸ .at point
  have hnot : s.runner ≠ .at .ended := fun h => hne (BulkRunner.at.inj (hrunner.symm.trans h))
  refine hs.move s.tally s.totalBatches hat hnot hquiet hfails fun hcancelled => ?_
  have hlooks := (hs.noticed hcancelled (hs.not_finished hnot)).1
  rw [hrunner] at hlooks
  exact hgoes hcancelled hlooks (hs.cancelRequested hat hnot hcancelled)

theorem check (h : s.check = some s') : s'.Notices := by
  unfold BulkState.check at h
  split at h
  · next hrunner =>
    obtain rfl := Option.some.inj h
    exact hs.goes hrunner (by simp) (.begun _) rfl fun _ _ _ => ⟨rfl, rfl⟩
  · next hrunner =>
    obtain rfl := Option.some.inj h
    exact hs.goes hrunner (by simp) (.begun _) rfl fun _ hlooks => by cases hlooks
  · next hrunner =>
    obtain rfl := Option.some.inj h
    exact hs.goes hrunner (by simp) (.begun _) rfl fun _ hlooks => by cases hlooks
  · next batch rest hrunner =>
    split at h
    · obtain rfl := Option.some.inj h
      exact hs.goes hrunner (by simp) (.begun _) rfl fun _ _ _ => ⟨rfl, rfl⟩
    · next hnone =>
      obtain rfl := Option.some.inj h
      exact hs.goes hrunner (by simp) (.begun _) rfl fun _ _ hsome => absurd hsome hnone
  · next rest hrunner =>
    obtain rfl := Option.some.inj h
    exact hs.goes hrunner (by simp) (.at _) rfl fun _ hlooks _ => ⟨hlooks, rfl⟩
  · next file batch rest hrunner =>
    split at h
    · obtain rfl := Option.some.inj h
      exact hs.goes hrunner (by simp) (.begun _) rfl fun _ _ _ => ⟨rfl, rfl⟩
    · next hnone =>
      obtain rfl := Option.some.inj h
      exact hs.goes hrunner (by simp) (.queueing ..) rfl fun _ _ hsome => absurd hsome hnone
  · cases h

theorem itemise (h : s.itemise = some s') : s'.Notices := by
  unfold BulkState.itemise at h
  split at h
  · next hrunner =>
    obtain rfl := Option.some.inj h
    exact hs.goes hrunner (by simp) (.begun _) rfl fun _ _ _ => ⟨rfl, rfl⟩
  · cases h

omit hs in
theorem chunks_ne_nil {items : List PosixPath} {size : Nat} (hsize : 0 < size) (h : items ≠ []) :
    chunks items size ≠ [] := by
  have hlength := List.length_pos_of_ne_nil h
  have hcount : 0 < (items.length + size - 1) / size := Nat.div_pos (by omega) hsize
  intro hnil
  have hzero := congrArg List.length hnil
  rw [chunks, List.length_map, List.length_range] at hzero
  exact hcount.ne' hzero

theorem select {selection : BulkQueueSelection}
    (hfiles : (s.cancelled && selection.files.isEmpty) = false) (h : s.select selection = some s') :
    s'.Notices := by
  have hmoves : ∀ {point : BulkPoint}, s.runner = .at point → point ≠ .ended → ∀ tally,
      Notices { s with
        tally := tally
        totalBatches := (chunks selection.files s.batchSize).length
        runner := .updating (.goOn (.selected (selection.files.length + tally.skipped + tally.failed)
          (chunks selection.files s.batchSize).length)
          (if selection.files.length + tally.skipped + tally.failed = 0 then .empty
            else .batches (chunks selection.files s.batchSize))) .begun } := by
    intro point hrunner hne tally
    refine hs.move tally _ (hrunner ▸ .at point) ?_ (.begun _) rfl fun hcancelled => ⟨?_, rfl⟩
    · exact fun h => hne (BulkRunner.at.inj (hrunner.symm.trans h))
    · have hsome : selection.files ≠ [] := by
        intro hnil
        rw [hcancelled, hnil] at hfiles
        cases hfiles
      have hlength := List.length_pos_of_ne_nil hsome
      show BulkPoint.overlooks (if _ then _ else _) = false
      rw [if_neg (by omega)]
      exact List.isEmpty_eq_false_iff.mpr (chunks_ne_nil s.batchSize_pos hsome)
  unfold BulkState.select at h
  split at h
  · next hrunner =>
    obtain rfl := Option.some.inj h
    exact hmoves hrunner (by simp) _
  · next hrunner =>
    obtain rfl := Option.some.inj h
    exact hmoves hrunner (by simp) _
  · cases h

omit [DecidableEq ι] in
theorem queue {status : BulkItemStatus} {message : String} (h : s.queue status message = some s') :
    s'.Notices := by
  unfold BulkState.queue at h
  split at h
  · next file batch rest hrunner =>
    obtain rfl := Option.some.inj h
    have hat : s.runner.Quiet := hrunner ▸ .queueing ..
    have hnot : s.runner ≠ .at .ended := by simp [hrunner]
    have hgone := hs.move (s.tally.add ⟨file.asPosix, status, message⟩) s.totalBatches hat hnot
      (.begun (.goOn .progress (.files batch rest))) rfl fun hcancelled => by
        have hlooks := (hs.noticed hcancelled (hs.not_finished hnot)).1
        rw [hrunner] at hlooks
        exact ⟨hlooks, rfl⟩
    exact { hgone with
      before := fun hbefore => by
        have hbefore : s.cancelled = false := hbefore
        show (if s.cancelled = true then _ else _) = _
        rw [if_neg (by simp [hbefore])]
        exact hs.before hbefore
      since := fun hcancelled => by
        have hcancelled : s.cancelled = true := hcancelled
        obtain ⟨hnone, hfile⟩ := hs.processing hcancelled file batch rest hrunner
        show (if s.cancelled = true then _ else _) = _ ∨ (if s.cancelled = true then _ else _) = _
        rw [if_pos hcancelled, hnone, hfile]
        exact .inr rfl
      processing := fun _ _ _ _ h => by cases h }
  · cases h

/-- The session of the runner ends without a commit. -/
theorem close {runner : BulkRunner} (hne : s.runner ≠ .at .ended) (hquiet : runner.Quiet)
    (hlooks : s.cancelled = true → runner.overlooks = false) (hnot : runner.processes = false) :
    Notices { s with row := s.row.rollback none, errored := true, runner := runner } where
  exists_ := by
    obtain ⟨op, hop⟩ := hs.exists_
    exact ⟨op, Versioned.rollback_committed.trans hop⟩
  active hopen op hop := hs.active hopen op (Versioned.rollback_committed.symm.trans hop)
  loaded := by
    intro update op h
    obtain rfl : runner = _ := h
    cases hquiet
  held v hv := absurd rfl (Versioned.locked_rollback hv).2
  finishes := by
    intro update h
    obtain rfl : runner = _ := h
    cases hquiet
  heldBy i v hv := by
    obtain ⟨heq, -⟩ := Versioned.locked_rollback hv
    obtain ⟨op, hop, hwrites⟩ := hs.heldBy i v (heq ▸ hv)
    exact ⟨op, hop, hwrites.imp_right (And.imp_right fun h op hop =>
      h op (Versioned.rollback_committed.symm.trans hop))⟩
  asks i op hop hasks := by
    obtain ⟨v, hv⟩ := hs.asks i op hop hasks
    have hother : ∀ v, s.row.locked ≠ some (none, v) := fun v' hv' => by
      cases hv.symm.trans hv'
    exact ⟨v, (congrArg Versioned.locked (Versioned.rollback_of_other hother)).trans hv⟩
  requested op hop := hs.requested op (Versioned.rollback_committed.symm.trans hop)
  found := hs.found
  ended h := absurd ((hs.not_finished hne).symm.trans h) Bool.false_ne_true
  errs _ := rfl
  noticed hcancelled hopen := ⟨hlooks hcancelled, fun op hop =>
    (hs.noticed hcancelled hopen).2 op (Versioned.rollback_committed.symm.trans hop)⟩
  final _ h := absurd ((hs.not_finished hne).symm.trans h) Bool.false_ne_true
  before := hs.before
  since := hs.since
  single := hs.single
  processing := by
    intro hcancelled file batch rest h
    obtain rfl : runner = _ := h
    cases hnot

theorem error {message : String} (hmarks : s.misses (.error message) = false)
    (h : s.error message = some s') : s'.Notices := by
  unfold BulkState.error at h
  dsimp only at h
  split at h
  · cases h
  · next hrunner =>
    obtain rfl := Option.some.inj h
    refine hs.close (by simp [hrunner]) (.at _) (fun hcancelled => ?_) rfl
    rw [BulkState.misses, hcancelled, hrunner] at hmarks
    cases hmarks
  · next hne _ =>
    obtain rfl := Option.some.inj h
    exact hs.close hne (.begun _) (fun _ => rfl) rfl

theorem load (h : s.load = some s') : s'.Notices := by
  unfold BulkState.load at h
  split at h
  · next update hrunner =>
    obtain ⟨op, hop, rfl⟩ := Option.map_eq_some_iff.mp h
    have hquiet : s.runner.Quiet := hrunner ▸ .begun _
    have hopen := hs.not_finished (by simp [hrunner])
    rw [Versioned.visible_of_other (hs.not_held hquiet)] at hop
    exact { hs with
      loaded := by
        rintro _ _ ⟨⟩
        exact hs.active hopen op hop
      held := fun v hv => absurd hv (hs.not_held hquiet v)
      finishes := fun _ h => by cases h
      ended := fun h => absurd (hopen.symm.trans h) Bool.false_ne_true
      errs := fun h => hs.errs (hrunner ▸ h)
      noticed := fun hcancelled _ => by
        obtain ⟨hlooks, hstatus⟩ := hs.noticed hcancelled hopen
        rw [hrunner] at hlooks
        exact ⟨hlooks, hstatus⟩
      processing := fun _ _ _ _ h => by cases h }
  · cases h

theorem flush (h : s.flush = some s') : s'.Notices := by
  unfold BulkState.flush at h
  split at h
  · next update op hrunner =>
    have hactive := hs.loaded update op hrunner
    have hopen := hs.not_finished (by simp [hrunner])
    have hheld : ∀ v, s.row.locked ≠ some (none, v) := by
      intro v hv
      obtain ⟨_, hflushed, -⟩ := hs.held v hv
      cases hrunner.symm.trans hflushed
    have hnoticed : s.cancelled = true → s.finished = false → update.overlooks = false ∧
        ∀ op, s.row.committed = some op → op.status = .cancelling := by
      intro hcancelled hopen
      obtain ⟨hlooks, hstatus⟩ := hs.noticed hcancelled hopen
      rw [hrunner] at hlooks
      exact ⟨hlooks, hstatus⟩
    split at h
    · next hsame =>
      obtain rfl := Option.some.inj h
      exact { hs with
        loaded := fun _ _ h => by cases h
        held := fun v hv => absurd hv (hheld v)
        finishes := by
          rintro update ⟨⟩ hfinishes
          -- an operation that is active is not finished yet, so that its status changes
          cases update with
          | goOn => cases hfinishes
          | finish outcome =>
            rw [← hsame] at hactive
            cases outcome <;> cases hactive
        ended := fun h => absurd (hopen.symm.trans h) Bool.false_ne_true
        errs := fun h => hs.errs (hrunner ▸ h)
        noticed := hnoticed
        processing := fun _ _ _ _ h => by cases h }
    · split at h
      · cases h
      · next hwaits =>
        have hwaits : s.row.waits none = false := by simpa using hwaits
        obtain ⟨current, hcurrent, rfl⟩ := Option.map_eq_some_iff.mp h
        rw [Versioned.visible_of_other hheld] at hcurrent
        exact { hs with
          loaded := fun _ _ h => by cases h
          held := by
            rintro v ⟨⟩
            refine ⟨update, rfl, fun op' hop' => ?_⟩
            obtain rfl := Option.some.inj (hcurrent.symm.trans hop')
            exact flush_writes hactive
          finishes := fun _ _ _ => ⟨_, rfl⟩
          heldBy := fun _ _ h => by cases h
          asks := fun i op hop hasks => by
            obtain ⟨v, hv⟩ := hs.asks i op hop hasks
            cases Versioned.owner_eq hwaits hv
          ended := fun h => absurd (hopen.symm.trans h) Bool.false_ne_true
          errs := fun h => hs.errs (hrunner ▸ h)
          noticed := hnoticed
          processing := fun _ _ _ _ h => by cases h }
  · cases h

/-- What is committed by the runner. -/
theorem commit_writes (hrunner : s.runner = .updating update .flushed)
    (h : (s.row.commit none).committed = some op) :
    ∃ before, s.row.committed = some before ∧ update.Writes before.status op.status := by
  obtain ⟨before, hbefore⟩ := hs.exists_
  refine ⟨before, hbefore, ?_⟩
  rcases Versioned.locked_cases none s.row with ⟨v, hv⟩ | hother
  · obtain ⟨update', hrunner', hwrites⟩ := hs.held v hv
    obtain ⟨rfl, -⟩ := BulkRunner.updating.inj (hrunner.symm.trans hrunner')
    rw [Versioned.commit_of_locked hv] at h
    obtain rfl := Option.some.inj h
    exact hwrites before hbefore
  · rw [Versioned.commit_of_other hother] at h
    obtain rfl := Option.some.inj (hbefore.symm.trans h)
    cases update with
    | goOn change next =>
      cases change with
      | markRunning => exact .inr rfl
      | scanning => rfl
      | itemising => rfl
      | selected => rfl
      | batch => rfl
      | progress => rfl
    | finish =>
      obtain ⟨v, hv⟩ := hs.finishes _ hrunner rfl
      exact absurd hv (hother v)

omit hs in
/-- The status after a change that does not finish the operation. -/
theorem writes_goOn {before after : BulkStatus} (hgoes : update.finishes = false)
    (h : update.Writes before after) : after = .running ∨ after = before := by
  cases update with
  | finish => cases hgoes
  | goOn change next =>
    cases change with
    | markRunning => exact h
    | scanning => exact .inr h
    | itemising => exact .inr h
    | selected => exact .inr h
    | batch => exact .inr h
    | progress => exact .inr h

omit hs in
/-- A change after which requests are looked for keeps the status. -/
theorem writes_looking {before after : BulkStatus} (hgoes : update.finishes = false)
    (hlooks : update.overlooks = false) (h : update.Writes before after) : after = before := by
  cases update with
  | finish => cases hgoes
  | goOn change next =>
    cases change with
    | markRunning => cases hlooks
    | scanning => exact h
    | itemising => exact h
    | selected => exact h
    | batch => exact h
    | progress => exact h

omit hs in
theorem next_looking (hgoes : update.finishes = false) (hlooks : update.overlooks = false) :
    update.next.overlooks = false := by
  cases update with
  | finish => cases hgoes
  | goOn change next =>
    cases change with
    | markRunning => cases hlooks
    | scanning => exact hlooks
    | itemising => exact hlooks
    | selected => exact hlooks
    | batch => exact hlooks
    | progress => exact hlooks

/-- The runner commits what it holds. The operation is finished when the change finishes it. -/
theorem commit (h : s.commit = some s') : s'.Notices := by
  unfold BulkState.commit at h
  split at h
  · next update hrunner =>
    obtain rfl := Option.some.inj h
    have hopen := hs.not_finished (by simp [hrunner])
    have hgoes : (s.finished || update.finishes) = false → update.finishes = false := by
      rw [hopen]
      exact id
    constructor
    case exists_ =>
      obtain ⟨op, hop⟩ := hs.exists_
      exact Option.ne_none_iff_exists'.mp (Versioned.commit_ne_none (by rw [hop]; simp))
    case active =>
      intro hnot op hop
      obtain ⟨before, hbefore, hwrites⟩ := hs.commit_writes hrunner hop
      rcases writes_goOn (hgoes hnot) hwrites with hrunning | hsame
      · rw [hrunning]
        rfl
      · rw [hsame]
        exact hs.active hopen before hbefore
    case loaded => exact fun _ _ h => by cases h
    case held => exact fun v hv => absurd rfl (Versioned.locked_commit hv).2
    case finishes => exact fun _ h => by cases h
    case heldBy =>
      intro i v hv
      obtain ⟨heq, -⟩ := Versioned.locked_commit hv
      obtain ⟨op, hop, hwrites⟩ := hs.heldBy i v (heq ▸ hv)
      exact ⟨op, hop, hwrites.imp_right (And.imp_right fun h op hop => h op (heq ▸ hop))⟩
    case asks =>
      intro i op hop hasks
      obtain ⟨v, hv⟩ := hs.asks i op hop hasks
      have hother : ∀ v, s.row.locked ≠ some (none, v) := fun v' hv' => by
        cases hv.symm.trans hv'
      exact ⟨v, (congrArg Versioned.locked (Versioned.commit_of_other hother)).trans hv⟩
    case requested =>
      intro op hop hstatus
      obtain ⟨before, hbefore, hwrites⟩ := hs.commit_writes hrunner hop
      cases hfinishes : update.finishes with
      | true => exact .inr (by simp)
      | false =>
        rcases writes_goOn hfinishes hwrites with hrunning | hsame
        · cases hstatus.symm.trans hrunning
        · exact (hs.requested before hbefore (hsame ▸ hstatus)).imp_right fun h => by simp [h]
    case found => exact fun i op hop hstatus => (hs.found i op hop hstatus).imp_right fun h => by simp [h]
    case ended =>
      intro hfinished
      have hfinished : (s.finished || update.finishes) = true := hfinished
      rw [hopen, Bool.false_or] at hfinished
      cases update with
      | goOn => cases hfinished
      | finish => rfl
    case errs => exact fun h => by cases h
    case noticed =>
      intro hcancelled hnot
      obtain ⟨hlooks, hstatus⟩ := hs.noticed hcancelled hopen
      rw [hrunner] at hlooks
      refine ⟨next_looking (hgoes hnot) hlooks, fun op hop => ?_⟩
      obtain ⟨before, hbefore, hwrites⟩ := hs.commit_writes hrunner hop
      rw [writes_looking (hgoes hnot) hlooks hwrites]
      exact hstatus before hbefore
    case final =>
      intro hcancelled hfinished op hop
      have hfinished : (s.finished || update.finishes) = true := hfinished
      rw [hopen, Bool.false_or] at hfinished
      have hlooks := (hs.noticed hcancelled hopen).1
      rw [hrunner] at hlooks
      obtain ⟨before, -, hwrites⟩ := hs.commit_writes hrunner hop
      cases update with
      | goOn => cases hfinished
      | finish outcome =>
        cases outcome with
        | completed => cases hlooks
        | failed => exact .inr ⟨hwrites, hs.errs (by rw [hrunner]; rfl)⟩
        | cancelled => exact .inl hwrites
    case before => exact hs.before
    case since => exact hs.since
    case single => exact hs.single
    case processing => exact fun _ _ _ _ h => by cases h
  · cases h

omit hs in
/-- The requests after one of them goes on. -/
theorem cancels_update {cancels : ι → Option CancelRequest} {c c' : Option CancelRequest}
    (h : Function.update cancels i c j = c') : j = i ∧ c = c' ∨ j ≠ i ∧ cancels j = c' := by
  by_cases hij : j = i
  · rw [hij, Function.update_self] at h
    exact .inl ⟨hij, h⟩
  · rw [Function.update_of_ne hij] at h
    exact .inr ⟨hij, h⟩

theorem cancelLoad (h : s.cancelLoad i = some s') : s'.Notices := by
  unfold BulkState.cancelLoad at h
  split at h
  · cases h
  · next hnone =>
    obtain ⟨op, hop, rfl⟩ := Option.map_eq_some_iff.mp h
    have hidle : s.cancels i = none := by simpa using hnone
    have hother : ∀ v, s.row.locked ≠ some (some i, v) := by
      intro v hv
      obtain ⟨_, hflushed, -⟩ := hs.heldBy i v hv
      cases hidle.symm.trans hflushed
    rw [Versioned.visible_of_other hother] at hop
    exact { hs with
      heldBy := fun j v hv => by
        obtain ⟨op', hop', hwrites⟩ := hs.heldBy j v hv
        have hij : j ≠ i := by
          rintro rfl
          exact hother v hv
        exact ⟨op', (Function.update_of_ne hij ..).trans hop', hwrites⟩
      asks := fun j op' hop' => by
        rcases cancels_update hop' with ⟨-, h⟩ | ⟨-, h⟩
        · cases h
        · exact hs.asks j op' h
      found := fun j op' hop' hstatus => by
        rcases hop' with hop' | hop'
        · rcases cancels_update hop' with ⟨-, h⟩ | ⟨-, h⟩
          · obtain ⟨⟩ := h
            exact hs.requested op hop hstatus
          · exact hs.found j op' (.inl h) hstatus
        · rcases cancels_update hop' with ⟨-, h⟩ | ⟨-, h⟩
          · cases h
          · exact hs.found j op' (.inr h) hstatus }

/-- What a request has found stays found when it writes. -/
theorem found_flushed {op : BulkQueueOperation} (hi : s.cancels i = some (.loaded op)) (j : ι)
    (op' : BulkQueueOperation)
    (h : Function.update s.cancels i (some (.flushed op)) j = some (.loaded op') ∨
      Function.update s.cancels i (some (.flushed op)) j = some (.flushed op'))
    (hstatus : op'.status = .cancelling) : s.cancelled = true ∨ s.finished = true := by
  rcases h with h | h
  · rcases cancels_update h with ⟨-, h⟩ | ⟨-, h⟩
    · cases h
    · exact hs.found j op' (.inl h) hstatus
  · rcases cancels_update h with ⟨-, h⟩ | ⟨-, h⟩
    · obtain ⟨⟩ := h
      exact hs.found i op (.inl hi) hstatus
    · exact hs.found j op' (.inr h) hstatus

theorem cancelFlush (h : s.cancelFlush i = some s') : s'.Notices := by
  unfold BulkState.cancelFlush at h
  split at h
  · next op hi =>
    have hother : ∀ v, s.row.locked ≠ some (some i, v) := by
      intro v hv
      obtain ⟨_, hflushed, -⟩ := hs.heldBy i v hv
      cases hi.symm.trans hflushed
    dsimp only at h
    split at h
    · next hsame =>
      obtain rfl := Option.some.inj h
      exact { hs with
        heldBy := fun j v hv => by
          obtain ⟨op', hop', hwrites⟩ := hs.heldBy j v hv
          have hij : j ≠ i := by
            rintro rfl
            exact hother v hv
          exact ⟨op', (Function.update_of_ne hij ..).trans hop', hwrites⟩
        asks := fun j op' hop' hasks => by
          rcases cancels_update hop' with ⟨-, h⟩ | ⟨-, h⟩
          · obtain ⟨⟩ := h
            exact absurd hsame (requestCancel_ne hasks)
          · exact hs.asks j op' h hasks
        found := hs.found_flushed hi }
    · next hchanged =>
      split at h
      · cases h
      · next hwaits =>
        have hwaits : s.row.waits (some i) = false := by simpa using hwaits
        obtain ⟨current, hcurrent, rfl⟩ := Option.map_eq_some_iff.mp h
        rw [Versioned.visible_of_other hother] at hcurrent
        have hfree : ∀ j v, s.row.locked ≠ some (j, v) := by
          intro j v hv
          obtain rfl := Versioned.owner_eq hwaits hv
          exact hother v hv
        exact { hs with
          held := fun v hv => by cases hv
          finishes := fun update hrunner hfinishes => by
            obtain ⟨v, hv⟩ := hs.finishes update hrunner hfinishes
            exact absurd hv (hfree none v)
          heldBy := by
            rintro j v ⟨⟩
            refine ⟨op, Function.update_self .., ?_⟩
            rcases requestCancel_flush hchanged with hasks | ⟨hstatus, hsame⟩
            · exact .inl hasks
            · refine .inr ⟨hstatus, fun op' hop' => ?_⟩
              obtain rfl := Option.some.inj (hcurrent.symm.trans hop')
              exact hsame
          asks := fun j op' hop' hasks => by
            rcases cancels_update hop' with ⟨rfl, -⟩ | ⟨-, h⟩
            · exact ⟨_, rfl⟩
            · obtain ⟨v, hv⟩ := hs.asks j op' h hasks
              exact absurd hv (hfree _ v)
          found := hs.found_flushed hi }
  · cases h

/-- What is committed by a request: it cancels an operation that it has found pending or running, and keeps
the status otherwise. -/
theorem cancelCommit_status {op' : BulkQueueOperation} (hi : s.cancels i = some (.flushed op))
    (h : (s.row.commit (some i)).committed = some op') :
    ((CancelRequest.flushed op).asks = true → op'.status = .cancelling) ∧
      ((CancelRequest.flushed op).asks = false →
        ∃ before, s.row.committed = some before ∧ op'.status = before.status) := by
  obtain ⟨before, hbefore⟩ := hs.exists_
  rcases Versioned.locked_cases (some i) s.row with ⟨v, hv⟩ | hother
  · obtain ⟨op₀, hop₀, hwrites⟩ := hs.heldBy i v hv
    obtain rfl : op = op₀ := CancelRequest.flushed.inj (Option.some.inj (hi.symm.trans hop₀))
    rw [Versioned.commit_of_locked hv] at h
    obtain rfl := Option.some.inj h
    rcases hwrites with ⟨hasks, hstatus⟩ | ⟨hstatus, hsame⟩
    · exact ⟨fun _ => hstatus, fun hnot => absurd (hasks.symm.trans hnot) Bool.false_ne_true.symm⟩
    · have hnot : (CancelRequest.flushed op).asks = false := by simp [CancelRequest.asks, hstatus]
      exact ⟨fun hasks => absurd (hasks.symm.trans hnot) Bool.false_ne_true.symm,
        fun _ => ⟨before, hbefore, hsame before hbefore⟩⟩
  · rw [Versioned.commit_of_other hother] at h
    obtain rfl := Option.some.inj (hbefore.symm.trans h)
    refine ⟨fun hasks => ?_, fun _ => ⟨_, hbefore, rfl⟩⟩
    obtain ⟨v, hv⟩ := hs.asks i op hi hasks
    exact absurd hv (hother v)

/-- A request is committed. It is told from the state before what counts after it. -/
theorem commitRequest {cancelled : Bool} {inProgress : List PosixPath}
    (hmono : s.cancelled = true → cancelled = true)
    (hstatus : ∀ op', (s.row.commit (some i)).committed = some op' →
      (s.finished = false → op'.status.isActive = true) ∧
      (op'.status = .cancelling → cancelled = true ∨ s.finished = true) ∧
      (cancelled = true → s.finished = false → op'.status = .cancelling) ∧
      (cancelled = true → s.finished = true →
        op'.status = .cancelled ∨ op'.status = .failed ∧ s.errored = true))
    (hlooks : cancelled = true → s.finished = false → s.runner.overlooks = false)
    (hbefore : cancelled = false → s.queuedSince = [])
    (hsince : cancelled = true → s.queuedSince = [] ∨ s.queuedSince = inProgress)
    (hsingle : inProgress.length ≤ 1)
    (hprocessing : cancelled = true → ∀ file batch rest, s.runner = .queueing file batch rest →
      s.queuedSince = [] ∧ inProgress = [file]) :
    Notices { s with
      row := s.row.commit (some i)
      cancels := Function.update s.cancels i none
      cancelled := cancelled
      inProgress := inProgress } where
  exists_ := by
    obtain ⟨op, hop⟩ := hs.exists_
    exact Option.ne_none_iff_exists'.mp (Versioned.commit_ne_none (by rw [hop]; simp))
  active hopen op' hop' := (hstatus op' hop').1 hopen
  loaded := hs.loaded
  held v hv := by
    obtain ⟨heq, -⟩ := Versioned.locked_commit hv
    obtain ⟨update, hrunner, hwrites⟩ := hs.held v (heq ▸ hv)
    exact ⟨update, hrunner, fun op hop => hwrites op (heq ▸ hop)⟩
  finishes update hrunner hfinishes := by
    obtain ⟨v, hv⟩ := hs.finishes update hrunner hfinishes
    have hother : ∀ v, s.row.locked ≠ some (some i, v) := fun v' hv' => by
      cases hv.symm.trans hv'
    exact ⟨v, (congrArg Versioned.locked (Versioned.commit_of_other hother)).trans hv⟩
  heldBy j v hv := by
    obtain ⟨heq, hij⟩ := Versioned.locked_commit hv
    obtain ⟨op, hop, hwrites⟩ := hs.heldBy j v (heq ▸ hv)
    exact ⟨op, (Function.update_of_ne (fun h => hij (congrArg some h)) ..).trans hop,
      hwrites.imp_right (And.imp_right fun h op hop => h op (heq ▸ hop))⟩
  asks j op hop hasks := by
    rcases cancels_update hop with ⟨-, h⟩ | ⟨hij, h⟩
    · cases h
    · obtain ⟨v, hv⟩ := hs.asks j op h hasks
      have hother : ∀ v, s.row.locked ≠ some (some i, v) := fun v' hv' =>
        hij (Option.some.inj (Prod.mk.inj (Option.some.inj (hv.symm.trans hv'))).1)
      exact ⟨v, (congrArg Versioned.locked (Versioned.commit_of_other hother)).trans hv⟩
  requested op' hop' := (hstatus op' hop').2.1
  found j op' hop' hcancelling := by
    have hop' := hop'.imp cancels_update cancels_update
    rcases hop' with (⟨-, h⟩ | ⟨-, h⟩) | (⟨-, h⟩ | ⟨-, h⟩)
    · cases h
    · exact (hs.found j op' (.inl h) hcancelling).imp_left hmono
    · cases h
    · exact (hs.found j op' (.inr h) hcancelling).imp_left hmono
  ended := hs.ended
  errs := hs.errs
  noticed hcancelled hopen :=
    ⟨hlooks hcancelled hopen, fun op' hop' => (hstatus op' hop').2.2.1 hcancelled hopen⟩
  final hcancelled hfinished op' hop' := (hstatus op' hop').2.2.2 hcancelled hfinished
  before := hbefore
  since := hsince
  single := hsingle
  processing := hprocessing

theorem cancelCommit (hfinds : s.misses (.cancelCommit i) = false) (h : s.cancelCommit i = some s') :
    s'.Notices := by
  unfold BulkState.cancelCommit at h
  split at h
  · next op hi =>
    obtain rfl := Option.some.inj h
    rw [BulkState.misses, hi, Option.any_some] at hfinds
    cases hasks : (CancelRequest.flushed op).asks with
    | true =>
      -- the request asks for what is not asked for yet, and the runner will look for it
      rw [hasks, Bool.true_and, Bool.or_eq_false_iff] at hfinds
      obtain ⟨hlooks, hopen⟩ := hfinds
      have hactive : op.status.isActive = true := by
        cases hstatus : op.status <;> simp [CancelRequest.asks, hstatus, BulkStatus.isActive] at hasks ⊢
      have hcounts : (op.status.isActive && !s.finished) = true := by simp [hactive, hopen]
      have hstatus : ∀ op', (s.row.commit (some i)).committed = some op' → op'.status = .cancelling :=
        fun op' hop' => (hs.cancelCommit_status hi hop').1 hasks
      refine hs.commitRequest (fun h => by simp [h]) (fun op' hop' => ?_) (fun _ _ => hlooks) ?_ ?_ ?_ ?_
      · rw [hstatus op' hop']
        exact ⟨fun _ => rfl, fun _ => .inl (by simp [hcounts]), fun _ _ => rfl,
          fun _ h => absurd (hopen.symm.trans h) Bool.false_ne_true⟩
      · intro h
        simp [hcounts] at h
      · intro _
        cases hcancelled : s.cancelled with
        | false => exact .inl (hs.before hcancelled)
        | true =>
          rw [Bool.true_or, if_pos rfl]
          exact hs.since hcancelled
      · cases hcancelled : s.cancelled with
        | false =>
          simp only [hcounts, Bool.not_true, Bool.or_self, Bool.false_eq_true, if_false]
          unfold BulkState.processing
          split <;> simp
        | true =>
          rw [Bool.true_or, if_pos rfl]
          exact hs.single
      · intro _ file batch rest hrunner
        cases hcancelled : s.cancelled with
        | false =>
          simp only [hcounts, Bool.not_true, Bool.or_self, Bool.false_eq_true, if_false]
          exact ⟨hs.before hcancelled, by rw [BulkState.processing, hrunner]⟩
        | true =>
          rw [Bool.true_or, if_pos rfl]
          exact hs.processing hcancelled file batch rest hrunner
    | false =>
      -- an operation that was found cancelling has been cancelled before
      have hcounts : s.cancelled = false → (op.status.isActive && !s.finished) = false := by
        intro hnot
        by_contra hcounts
        rw [Bool.not_eq_false, Bool.and_eq_true, Bool.not_eq_true'] at hcounts
        have hcancelling : op.status = .cancelling := by
          cases hstatus : op.status <;> simp [CancelRequest.asks, hstatus, BulkStatus.isActive] at hasks hcounts ⊢
        rcases hs.found i op (.inr hi) hcancelling with h | h
        · exact absurd (hnot.symm.trans h) Bool.false_ne_true
        · exact absurd (hcounts.2.symm.trans h) Bool.false_ne_true
      have hsame : (s.cancelled || op.status.isActive && !s.finished) = s.cancelled := by
        cases hcancelled : s.cancelled with
        | false => exact hcounts hcancelled
        | true => rfl
      have hkept : (if s.cancelled || !(op.status.isActive && !s.finished) then s.inProgress
          else s.processing) = s.inProgress := by
        refine if_pos ?_
        cases hcancelled : s.cancelled with
        | false => simp [hcounts hcancelled]
        | true => rfl
      rw [hsame, hkept]
      refine hs.commitRequest id (fun op' hop' => ?_)
        (fun hcancelled hopen => (hs.noticed hcancelled hopen).1) hs.before hs.since hs.single hs.processing
      obtain ⟨before, hbefore, hstatus⟩ := (hs.cancelCommit_status hi hop').2 hasks
      rw [hstatus]
      exact ⟨fun hopen => hs.active hopen before hbefore, hs.requested before hbefore,
        fun hcancelled hopen => (hs.noticed hcancelled hopen).2 before hbefore,
        fun hcancelled hfinished => hs.final hcancelled hfinished before hbefore⟩
  · cases h

theorem step {a : BulkAct ι} (hfinds : s.misses a = false) (h : s.step a = some s') : s'.Notices := by
  cases a with
  | load => exact hs.load h
  | flush => exact hs.flush h
  | commit => exact hs.commit h
  | itemise => exact hs.itemise h
  | select selection => exact hs.select hfinds h
  | check => exact hs.check h
  | queue status message => exact hs.queue h
  | error message => exact hs.error hfinds h
  | cancelLoad i => exact hs.cancelLoad h
  | cancelFlush i => exact hs.cancelFlush h
  | cancelCommit i => exact hs.cancelCommit hfinds h

end Notices

end BulkState

end Encodr
