import Encodr.Api.BulkCancel

/-!
# The end of a cancelled bulk queue operation

Once a request is committed and not missed, every step of the runner leaves it fewer steps, and it is not
stuck before its end.

* `BulkRunner.stepsLeft`, `Notices.stepsLeft_lt`: the steps to the end of the runner.
* `BulkState.TakesEffect`, `bulkCancel_takes_effect`: no file but the one in progress is queued, and the
  operation ends cancelled, or failed after an error.
* `start_misses_cancel`: a request that is committed before the runner starts is lost.
-/

namespace Encodr

open Python Lib

/-- A step of the runner, no step of a request. -/
def BulkAct.ofRunner {ι : Type} : BulkAct ι → Bool
  | .cancelLoad _ | .cancelFlush _ | .cancelCommit _ => false
  | _ => true

def BulkAct.isError {ι : Type} : BulkAct ι → Bool
  | .error _ => true
  | _ => false

def SessionPhase.stepsLeft : SessionPhase → Nat
  | .begun => 3
  | .loaded _ => 2
  | .flushed => 1

/-- Every loop is left where a request is found, so that no file is counted. -/
def BulkPoint.stepsLeft : BulkPoint → Nat
  | .resolving => 32
  | .scanning => 24
  | .itemising => 16
  | .files .. => 9
  | .empty | .batches _ => 8
  | .ended => 0

def BulkUpdate.stepsLeft : BulkUpdate → Nat
  | .goOn _ next => next.stepsLeft + 4
  | .finish .failed _ _ => 0
  | .finish .. => 4

/-- The most steps that the runner takes to its end when a request has been committed. -/
def BulkRunner.stepsLeft : BulkRunner → Nat
  | .updating update phase => update.stepsLeft + phase.stepsLeft
  | .at point => point.stepsLeft
  | .queueing .. => 17

theorem SessionPhase.stepsLeft_pos (phase : SessionPhase) : 0 < phase.stepsLeft := by
  cases phase <;> simp [SessionPhase.stepsLeft]

theorem SessionPhase.stepsLeft_le (phase : SessionPhase) : phase.stepsLeft ≤ 3 := by
  cases phase <;> simp [SessionPhase.stepsLeft]

theorem BulkPoint.stepsLeft_le (point : BulkPoint) : point.stepsLeft ≤ 32 := by
  cases point <;> simp [BulkPoint.stepsLeft]

/-- An end of the operation other than by an error leaves the steps that mark the error. -/
theorem BulkPoint.stepsLeft_ge {point : BulkPoint} (h : point ≠ .ended) : 8 ≤ point.stepsLeft := by
  cases point <;> simp [BulkPoint.stepsLeft] at h ⊢

theorem BulkUpdate.next_stepsLeft (update : BulkUpdate) : update.next.stepsLeft ≤ update.stepsLeft := by
  cases update with
  | goOn change next => exact Nat.le_add_right ..
  | finish => exact Nat.zero_le _

theorem BulkUpdate.stepsLeft_ge {update : BulkUpdate} (h : update.fails = false) :
    4 ≤ update.stepsLeft := by
  cases update with
  | goOn change next => exact Nat.le_add_left ..
  | finish outcome =>
    cases outcome with
    | failed => cases h
    | completed => exact Nat.le_refl 4
    | cancelled => exact Nat.le_refl 4

theorem BulkUpdate.stepsLeft_le (update : BulkUpdate) : update.stepsLeft ≤ 36 := by
  cases update with
  | goOn change next => exact Nat.add_le_add_right next.stepsLeft_le 4
  | finish outcome => cases outcome <;> simp [BulkUpdate.stepsLeft]

theorem BulkRunner.stepsLeft_le (runner : BulkRunner) : runner.stepsLeft ≤ 39 := by
  cases runner with
  | updating update phase => exact Nat.add_le_add update.stepsLeft_le phase.stepsLeft_le
  | «at» point => exact Nat.le_trans point.stepsLeft_le (by decide)
  | queueing => simp [BulkRunner.stepsLeft]

namespace BulkState

variable {ι : Type} [DecidableEq ι] {s s' : BulkState ι}

/-! ### The steps that are left -/

namespace Notices

variable (hs : s.Notices)
include hs

theorem check_stepsLeft (hcancelled : s.cancelled = true) (h : s.check = some s') :
    s'.runner.stepsLeft < s.runner.stepsLeft := by
  have hfinds : ∀ point, s.runner = .at point → point ≠ .ended → s.cancelRequested = true := by
    intro point hrunner hne
    exact hs.cancelRequested (hrunner ▸ .at point)
      (fun h => hne (BulkRunner.at.inj (hrunner.symm.trans h))) hcancelled
  unfold BulkState.check at h
  split at h
  · next hrunner =>
    obtain rfl := Option.some.inj h
    rw [hrunner]
    show 31 < 32
    omega
  · next hrunner =>
    obtain rfl := Option.some.inj h
    rw [hrunner]
    show 7 < 8
    omega
  · next hrunner =>
    obtain rfl := Option.some.inj h
    rw [hrunner]
    show 7 < 8
    omega
  · next batch rest hrunner =>
    rw [if_pos (hfinds _ hrunner (by simp))] at h
    obtain rfl := Option.some.inj h
    rw [hrunner]
    show 7 < 8
    omega
  · next rest hrunner =>
    obtain rfl := Option.some.inj h
    rw [hrunner]
    show 8 < 9
    omega
  · next file batch rest hrunner =>
    rw [if_pos (hfinds _ hrunner (by simp))] at h
    obtain rfl := Option.some.inj h
    rw [hrunner]
    show 7 < 9
    omega
  · cases h

omit hs in
theorem error_stepsLeft {message : String} (h : s.error message = some s') :
    s'.runner.stepsLeft < s.runner.stepsLeft := by
  unfold BulkState.error at h
  dsimp only at h
  split at h
  · cases h
  · next phase hrunner =>
    obtain rfl := Option.some.inj h
    rw [hrunner]
    exact Nat.lt_of_lt_of_le phase.stepsLeft_pos (Nat.le_add_left ..)
  · next hne hfails =>
    obtain rfl := Option.some.inj h
    show 3 < s.runner.stepsLeft
    cases hrunner : s.runner with
    | updating update phase =>
      have hgoes : update.fails = false := by
        by_contra hfailed
        cases update with
        | goOn => exact hfailed rfl
        | finish outcome statusText errorSummary =>
          cases outcome with
          | failed => exact hfails statusText errorSummary phase hrunner
          | completed => exact hfailed rfl
          | cancelled => exact hfailed rfl
      exact Nat.lt_of_lt_of_le (BulkUpdate.stepsLeft_ge hgoes) (Nat.le_add_right ..)
    | «at» point =>
      exact Nat.lt_of_lt_of_le (by decide) (BulkPoint.stepsLeft_ge fun h => hne (h ▸ hrunner))
    | queueing => simp [BulkRunner.stepsLeft]

/-- A step of the runner leaves it fewer steps when a request has been committed. -/
theorem stepsLeft_lt {a : BulkAct ι} (hcancelled : s.cancelled = true) (hrunner : a.ofRunner = true)
    (h : s.step a = some s') : s'.runner.stepsLeft < s.runner.stepsLeft := by
  cases a with
  | load =>
    unfold BulkState.step BulkState.load at h
    dsimp only at h
    split at h
    · next update hrunner =>
      obtain ⟨op, -, rfl⟩ := Option.map_eq_some_iff.mp h
      rw [hrunner]
      exact Nat.lt_succ_self _
    · cases h
  | flush =>
    unfold BulkState.step BulkState.flush at h
    dsimp only at h
    split at h
    · next update op hrunner =>
      rw [hrunner]
      split at h
      · obtain rfl := Option.some.inj h
        exact Nat.lt_succ_self _
      · split at h
        · cases h
        · obtain ⟨current, -, rfl⟩ := Option.map_eq_some_iff.mp h
          exact Nat.lt_succ_self _
    · cases h
  | commit =>
    unfold BulkState.step BulkState.commit at h
    dsimp only at h
    split at h
    · next update hrunner =>
      obtain rfl := Option.some.inj h
      rw [hrunner]
      exact Nat.lt_succ_of_le update.next_stepsLeft
    · cases h
  | itemise =>
    unfold BulkState.step BulkState.itemise at h
    dsimp only at h
    split at h
    · next hrunner =>
      obtain rfl := Option.some.inj h
      rw [hrunner]
      show 23 < 24
      omega
    · cases h
  | select selection =>
    have hleft : ∀ change batches (empty : Prop) [Decidable empty],
        (BulkRunner.updating (.goOn change (if empty then .empty else .batches batches))
          .begun).stepsLeft = 15 := by
      intro change batches empty _
      split <;> rfl
    unfold BulkState.step BulkState.select at h
    dsimp only at h
    split at h
    · next hrunner =>
      obtain rfl := Option.some.inj h
      rw [hrunner, hleft]
      show 15 < 24
      omega
    · next hrunner =>
      obtain rfl := Option.some.inj h
      rw [hrunner, hleft]
      show 15 < 16
      omega
    · cases h
  | check => exact hs.check_stepsLeft hcancelled h
  | queue status message =>
    unfold BulkState.step BulkState.queue at h
    dsimp only at h
    split at h
    · next file batch rest hrunner =>
      obtain rfl := Option.some.inj h
      rw [hrunner]
      show 16 < 17
      omega
    · cases h
  | error message => exact error_stepsLeft h
  | cancelLoad i => cases hrunner
  | cancelFlush i => cases hrunner
  | cancelCommit i => cases hrunner

omit hs in
theorem stepsLeft_eq {a : BulkAct ι} (hrequest : a.ofRunner = false) (h : s.step a = some s') :
    s'.runner = s.runner := by
  cases a with
  | cancelLoad i =>
    unfold BulkState.step BulkState.cancelLoad at h
    dsimp only at h
    split at h
    · cases h
    · obtain ⟨op, -, rfl⟩ := Option.map_eq_some_iff.mp h
      rfl
  | cancelFlush i =>
    unfold BulkState.step BulkState.cancelFlush at h
    dsimp only at h
    split at h
    · split at h
      · obtain rfl := Option.some.inj h
        rfl
      · split at h
        · cases h
        · obtain ⟨current, -, rfl⟩ := Option.map_eq_some_iff.mp h
          rfl
    · cases h
  | cancelCommit i =>
    unfold BulkState.step BulkState.cancelCommit at h
    dsimp only at h
    split at h
    · obtain rfl := Option.some.inj h
      rfl
    · cases h
  | load => cases hrequest
  | flush => cases hrequest
  | commit => cases hrequest
  | itemise => cases hrequest
  | select => cases hrequest
  | check => cases hrequest
  | queue => cases hrequest
  | error => cases hrequest

end Notices

/-- What has been committed stays so. -/
theorem cancelled_step {a : BulkAct ι} (hcancelled : s.cancelled = true) (h : s.step a = some s') :
    s'.cancelled = true := by
  cases a with
  | load =>
    unfold BulkState.step BulkState.load at h
    dsimp only at h
    split at h
    · obtain ⟨op, -, rfl⟩ := Option.map_eq_some_iff.mp h
      exact hcancelled
    · cases h
  | flush =>
    unfold BulkState.step BulkState.flush at h
    dsimp only at h
    split at h
    · split at h
      · obtain rfl := Option.some.inj h
        exact hcancelled
      · split at h
        · cases h
        · obtain ⟨current, -, rfl⟩ := Option.map_eq_some_iff.mp h
          exact hcancelled
    · cases h
  | commit =>
    unfold BulkState.step BulkState.commit at h
    dsimp only at h
    split at h
    · obtain rfl := Option.some.inj h
      exact hcancelled
    · cases h
  | itemise =>
    unfold BulkState.step BulkState.itemise at h
    dsimp only at h
    split at h
    · obtain rfl := Option.some.inj h
      exact hcancelled
    · cases h
  | select selection =>
    unfold BulkState.step BulkState.select at h
    dsimp only at h
    split at h
    · obtain rfl := Option.some.inj h
      exact hcancelled
    · obtain rfl := Option.some.inj h
      exact hcancelled
    · cases h
  | check =>
    unfold BulkState.step BulkState.check at h
    dsimp only at h
    split at h
    · obtain rfl := Option.some.inj h
      exact hcancelled
    · obtain rfl := Option.some.inj h
      exact hcancelled
    · obtain rfl := Option.some.inj h
      exact hcancelled
    · split at h
      · obtain rfl := Option.some.inj h
        exact hcancelled
      · obtain rfl := Option.some.inj h
        exact hcancelled
    · obtain rfl := Option.some.inj h
      exact hcancelled
    · split at h
      · obtain rfl := Option.some.inj h
        exact hcancelled
      · obtain rfl := Option.some.inj h
        exact hcancelled
    · cases h
  | queue status message =>
    unfold BulkState.step BulkState.queue at h
    dsimp only at h
    split at h
    · obtain rfl := Option.some.inj h
      exact hcancelled
    · cases h
  | error message =>
    unfold BulkState.step BulkState.error at h
    dsimp only at h
    split at h
    · cases h
    · obtain rfl := Option.some.inj h
      exact hcancelled
    · obtain rfl := Option.some.inj h
      exact hcancelled
  | cancelLoad i =>
    unfold BulkState.step BulkState.cancelLoad at h
    dsimp only at h
    split at h
    · cases h
    · obtain ⟨op, -, rfl⟩ := Option.map_eq_some_iff.mp h
      exact hcancelled
  | cancelFlush i =>
    unfold BulkState.step BulkState.cancelFlush at h
    dsimp only at h
    split at h
    · split at h
      · obtain rfl := Option.some.inj h
        exact hcancelled
      · split at h
        · cases h
        · obtain ⟨current, -, rfl⟩ := Option.map_eq_some_iff.mp h
          exact hcancelled
    · cases h
  | cancelCommit i =>
    unfold BulkState.step BulkState.cancelCommit at h
    dsimp only at h
    split at h
    · obtain rfl := Option.some.inj h
      show (s.cancelled || _) = true
      rw [hcancelled, Bool.true_or]
    · cases h

/-- The runner takes no more steps than are left to it. -/
theorem Notices.countP_run {as : List (BulkAct ι)} (hs : s.Notices) (hcancelled : s.cancelled = true)
    (h : (bulkSys ι).run (fun s a => !s.misses a) s as = some s') :
    as.countP BulkAct.ofRunner + s'.runner.stepsLeft ≤ s.runner.stepsLeft := by
  induction as generalizing s with
  | nil =>
    obtain rfl := Option.some.inj h
    simp
  | cons a as ih =>
    simp only [Sys.run] at h
    split at h
    · next hfinds =>
      obtain ⟨s₁, hs₁, hrest⟩ := Option.bind_eq_some_iff.mp h
      have hstep : s.step a = some s₁ := hs₁
      have hleft := ih (hs.step (by simpa using hfinds) hstep) (cancelled_step hcancelled hstep) hrest
      cases hrunner : a.ofRunner with
      | true =>
        rw [List.countP_cons_of_pos hrunner]
        have := hs.stepsLeft_lt hcancelled hrunner hstep
        omega
      | false =>
        rw [List.countP_cons_of_neg (by simp [hrunner])]
        rw [Notices.stepsLeft_eq hrunner hstep] at hleft
        exact hleft
    · cases h

/-- The runner goes on: it has a step of its own that is no error, or it waits for a request that can be
committed. -/
theorem Notices.goesOn (hs : s.Notices) (hcancelled : s.cancelled = true) (hne : s.runner ≠ .at .ended) :
    ∃ a, (s.step a).isSome = true ∧ s.misses a = false ∧
      (a.ofRunner = true ∧ a.isError = false ∨
        ∃ i v, a = .cancelCommit i ∧ s.row.locked = some (some i, v)) := by
  obtain ⟨op, hop⟩ := hs.exists_
  have hopen := hs.not_finished hne
  cases hrunner : s.runner with
  | updating update phase =>
    cases phase with
    | begun =>
      refine ⟨.load, ?_, rfl, .inl ⟨rfl, rfl⟩⟩
      have hquiet : s.runner.Quiet := hrunner ▸ .begun _
      simp [BulkState.step, BulkState.load, hrunner, Versioned.visible_of_other (hs.not_held hquiet), hop]
    | loaded loaded =>
      have hother : ∀ v, s.row.locked ≠ some (none, v) := by
        intro v hv
        obtain ⟨_, hflushed, -⟩ := hs.held v hv
        cases hrunner.symm.trans hflushed
      cases hlocked : s.row.locked with
      | none =>
        refine ⟨.flush, ?_, rfl, .inl ⟨rfl, rfl⟩⟩
        have hwaits : s.row.waits none = false := by simp [Versioned.waits, hlocked]
        simp only [BulkState.step, BulkState.flush, hrunner, hwaits, Versioned.visible_of_other hother, hop]
        split <;> rfl
      | some lock =>
        obtain ⟨owner, v⟩ := lock
        cases owner with
        | none => exact absurd hlocked (hother v)
        | some i =>
          obtain ⟨requested, hi, -⟩ := hs.heldBy i v hlocked
          refine ⟨.cancelCommit i, ?_, ?_, .inr ⟨i, v, rfl, rfl⟩⟩
          · simp [BulkState.step, BulkState.cancelCommit, hi]
          · simp [BulkState.misses, (hs.noticed hcancelled hopen).1, hopen]
    | flushed =>
      refine ⟨.commit, ?_, rfl, .inl ⟨rfl, rfl⟩⟩
      simp [BulkState.step, BulkState.commit, hrunner]
  | «at» point =>
    cases point with
    | resolving => exact ⟨.check, by simp [BulkState.step, BulkState.check, hrunner], rfl, .inl ⟨rfl, rfl⟩⟩
    | scanning => exact ⟨.itemise, by simp [BulkState.step, BulkState.itemise, hrunner], rfl, .inl ⟨rfl, rfl⟩⟩
    | itemising =>
      refine ⟨.select { files := [⟨.slash, [], by simp⟩] }, ?_, ?_, .inl ⟨rfl, rfl⟩⟩
      · simp [BulkState.step, BulkState.select, hrunner]
      · simp [BulkState.misses]
    | empty => exact ⟨.check, by simp [BulkState.step, BulkState.check, hrunner], rfl, .inl ⟨rfl, rfl⟩⟩
    | batches rest =>
      refine ⟨.check, ?_, rfl, .inl ⟨rfl, rfl⟩⟩
      cases rest with
      | nil => simp [BulkState.step, BulkState.check, hrunner]
      | cons batch rest =>
        simp only [BulkState.step, BulkState.check, hrunner]
        split <;> rfl
    | files batch rest =>
      refine ⟨.check, ?_, rfl, .inl ⟨rfl, rfl⟩⟩
      cases batch with
      | nil => simp [BulkState.step, BulkState.check, hrunner]
      | cons file batch =>
        simp only [BulkState.step, BulkState.check, hrunner]
        split <;> rfl
    | ended => exact absurd hrunner hne
  | queueing file batch rest =>
    exact ⟨.queue .created "", by simp [BulkState.step, BulkState.queue, hrunner], rfl, .inl ⟨rfl, rfl⟩⟩

omit [DecidableEq ι] in
theorem created_notices (batchSize : Nat) : (created (ι := ι) batchSize).Notices where
  exists_ := ⟨_, rfl⟩
  active := by
    rintro - op ⟨⟩
    rfl
  loaded := fun _ _ h => by cases h
  held := fun _ h => by cases h
  finishes := fun _ h => by cases h
  heldBy := fun _ _ h => by cases h
  asks := fun _ _ h => by cases h
  requested := by
    rintro op ⟨⟩ h
    cases h
  found := by
    rintro i op (h | h)
    · cases h
    · cases h
  ended := fun h => by cases h
  errs := fun h => by cases h
  noticed := fun h => by cases h
  final := fun h => by cases h
  before := fun _ => rfl
  since := fun h => by cases h
  single := Nat.zero_le 1
  processing := fun h => by cases h

/-- The cancelled operation takes effect: no file but the one in progress is queued, the runner comes to its
end, and there the operation is cancelled, or failed where the runner has met an error. -/
structure TakesEffect (s : BulkState ι) : Prop where
  queued : s.queuedSince = [] ∨ s.queuedSince = s.inProgress
  single : s.inProgress.length ≤ 1
  incomplete : ∀ op, s.row.committed = some op → op.status ≠ .completed
  ends : s.runner = .at .ended → ∀ op, s.row.committed = some op →
    op.status = .cancelled ∨ op.status = .failed ∧ s.errored = true
  soon : ∀ as s', (bulkSys ι).run (fun s a => !s.misses a) s as = some s' → as.countP BulkAct.ofRunner ≤ 39
  goesOn : s.runner ≠ .at .ended → ∃ a, (s.step a).isSome = true ∧ s.misses a = false ∧
    (a.ofRunner = true ∧ a.isError = false ∨
      ∃ i v, a = .cancelCommit i ∧ s.row.locked = some (some i, v))

theorem Notices.takesEffect (hs : s.Notices) (hcancelled : s.cancelled = true) : s.TakesEffect where
  queued := hs.since hcancelled
  single := hs.single
  incomplete op hop hcompleted := by
    cases hfinished : s.finished with
    | false => cases ((hs.noticed hcancelled hfinished).2 op hop).symm.trans hcompleted
    | true =>
      rcases hs.final hcancelled hfinished op hop with h | ⟨h, -⟩
      · cases h.symm.trans hcompleted
      · cases h.symm.trans hcompleted
  ends hended op hop := by
    cases hfinished : s.finished with
    | false =>
      have hlooks := (hs.noticed hcancelled hfinished).1
      rw [hended] at hlooks
      cases hlooks
    | true => exact hs.final hcancelled hfinished op hop
  soon as s' h := by
    have hcount := hs.countP_run hcancelled h
    have hleft := s.runner.stepsLeft_le
    omega
  goesOn := hs.goesOn hcancelled

end BulkState

/-- In every run in which no request is missed, a request that has been committed takes effect. -/
theorem bulkCancel_takes_effect (ι : Type) [DecidableEq ι] (s : BulkState ι)
    (h : (bulkSys ι).Reach (fun s a => s.misses a = false) s) : s.cancelled = true → s.TakesEffect := by
  have hnotices : (bulkSys ι).Inductive (fun s a => s.misses a = false) BulkState.Notices := by
    refine ⟨?_, fun _ _ _ hs hfinds h => hs.step hfinds h⟩
    rintro _ ⟨batchSize, rfl⟩
    exact BulkState.created_notices batchSize
  exact (hnotices.reach h).takesEffect

/-- The operation is cancelled while its first file is queued. -/
def cancelDuringFile : List (BulkAct Nat) :=
  let update : List (BulkAct Nat) := [.load, .flush, .commit]
  update ++ [BulkAct.check] ++ update ++
    [BulkAct.select { files := [⟨.slash, ["first.mkv"], by decide⟩, ⟨.slash, ["second.mkv"], by decide⟩] }] ++
    update ++ [BulkAct.check] ++ update ++
    [BulkAct.check, .cancelLoad 0, .cancelFlush 0, .cancelCommit 0, .queue .created ""] ++ update

theorem bulkCancel_takes_effect_file :
    ∃ s, (bulkSys Nat).Reach (fun s a => s.misses a = false) s ∧ s.cancelled = true ∧ s.TakesEffect := by
  have hinit : (bulkSys Nat).init (.created 25) := ⟨25, rfl⟩
  have hreach := Sys.Reach.after BulkState.misses cancelDuringFile hinit (by decide +kernel)
  have hcancelled : (((bulkSys Nat).run (fun _ _ => true) (.created 25) cancelDuringFile).getD
      (.created 25)).cancelled = true := by decide +kernel
  exact ⟨_, hreach, hcancelled, bulkCancel_takes_effect Nat _ hreach hcancelled⟩

/-- The operation is cancelled while it is pending; then the runner starts, finds two files and queues
them. -/
def cancelBeforeStart : List (BulkAct Nat) :=
  let update : List (BulkAct Nat) := [.load, .flush, .commit]
  [BulkAct.cancelLoad 0, .cancelFlush 0, .cancelCommit 0] ++ update ++ [BulkAct.check] ++ update ++
    [BulkAct.select { files := [⟨.slash, ["first.mkv"], by decide⟩, ⟨.slash, ["second.mkv"], by decide⟩] }] ++
    update ++ [BulkAct.check] ++ update ++ [BulkAct.check, .queue .created ""] ++ update ++
    [BulkAct.check, .queue .created ""] ++ update ++ [BulkAct.check, .check] ++ update

/-- The start of the runner overwrites a request that was committed before it. -/
theorem start_misses_cancel :
    ∃ s, (bulkSys Nat).Reachable s ∧ s.cancelled = true ∧ s.inProgress = [] ∧ s.queuedSince.length = 2 ∧
      s.row.committed.map (·.status) = some .completed := by
  have hinit : (bulkSys Nat).init (.created 25) := ⟨25, rfl⟩
  refine ⟨_, (Sys.Reach.after (fun _ _ => false) cancelBeforeStart hinit (by decide +kernel)).mono
    fun _ _ _ => trivial, ?_⟩
  decide +kernel

end Encodr
