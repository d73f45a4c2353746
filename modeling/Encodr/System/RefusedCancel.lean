import Encodr.System.LocalLoop

/-!
# Refused requests to cancel

A request that `cancel_job` refuses may have been noted by the local worker loop. Whether anything comes
of it is a question about two runs: the state with the note and the state without it take the same
actions.

* `LoopState.Agree`: two states that differ in the note of a job that the loop will not encode.
* `agree_lockstep`: they take every step together.
* `refused_unnoticed_iff`: a refused request changes no later behaviour if and only if it is not noted
  anew while an execution of the job in the loop may still encode.
-/

namespace Encodr

open Python Lib

variable {C : Type} {c : Settings} {jobId : JobId}

namespace LoopState

/-- The state with other notes. -/
def withMarks (s : LoopState) (marks : Finset JobId) : LoopState :=
  { s with control := { s.control with cancelRequestedJobIds := marks } }

/-- What can be seen of a state: all but the notes. The answer to a request depends on no more. -/
def view (s : LoopState) : LoopState :=
  s.withMarks ∅

/-- The notes are the same, but for that of the job. -/
def SameMarks (jobId : JobId) (marks marks' : Finset JobId) : Prop :=
  ∀ id ≠ jobId, id ∈ marks' ↔ id ∈ marks

/-- The states are the same, but for the note of the job. -/
def Follows (jobId : JobId) (s t : LoopState) : Prop :=
  ∃ marks, t = s.withMarks marks ∧ SameMarks jobId s.control.cancelRequestedJobIds marks

/-- The states differ in the note of the job, which the loop will not encode. -/
structure Agree (jobId : JobId) (s t : LoopState) : Prop where
  follows : Follows jobId s t
  spent : s.sys.Spent jobId
  inv : s.sys.Inv

/-! ## Steps with other notes -/

section Marks

variable {s : LoopState} {marks : Finset JobId}

theorem SameMarks.insert {marks' : Finset JobId} (h : SameMarks jobId marks marks') (id : JobId) :
    SameMarks jobId (insert id marks) (insert id marks') := by
  intro other hother
  simp only [Finset.mem_insert, h other hother]

theorem SameMarks.erase {marks' : Finset JobId} (h : SameMarks jobId marks marks') (id : JobId) :
    SameMarks jobId (marks.erase id) (marks'.erase id) := by
  intro other hother
  simp only [Finset.mem_erase, h other hother]

/-- The loop does not encode a job that is spent. -/
theorem encoding_ne (hspent : s.sys.Spent jobId) {id : JobId} {x : Execution} (h : s.encoding id = some x) :
    id ≠ jobId := by
  rintro rfl
  obtain ⟨hx, hid, hencodes, hphase⟩ := encoding_eq_some h
  have hmay := Execution.mayEncode_iff.mpr ⟨hencodes, .inr hphase⟩
  rw [hspent.live x hx hid] at hmay
  cases hmay

theorem cancelRequested_withMarks (h : SameMarks jobId s.control.cancelRequestedJobIds marks) {id : JobId}
    (hid : id ≠ jobId) : (s.withMarks marks).control.cancelRequested id = s.control.cancelRequested id :=
  decide_eq_decide.mpr (h id hid)

theorem ask_follows (h : SameMarks jobId s.control.cancelRequestedJobIds marks) (id : JobId) :
    Follows jobId (s.ask id) ((s.withMarks marks).ask id) := by
  have hasks : (s.withMarks marks).sys.db.asksLocalWorker id = s.sys.db.asksLocalWorker id := rfl
  unfold ask
  rw [hasks]
  split
  · exact ⟨insert id marks, rfl, h.insert id⟩
  · exact ⟨marks, rfl, h⟩

theorem cancelJob_follows (h : SameMarks jobId s.control.cancelRequestedJobIds marks) (uid : String)
    (now : Time) (id : JobId) :
    Follows jobId (s.cancelJob uid now id).2 ((s.withMarks marks).cancelJob uid now id).2 := by
  obtain ⟨marks', hask, hmarks⟩ := ask_follows h id
  cases hcancel : s.sys.db.cancelJob id (s.control.isActive id) now with
  | ok db =>
    rw [cancelJob_ok hcancel, cancelJob_ok (s := s.withMarks marks) hcancel, hask]
    exact ⟨marks', rfl, hmarks⟩
  | error e =>
    rw [cancelJob_error hcancel, cancelJob_error (s := s.withMarks marks) hcancel, hask]
    exact ⟨marks', rfl, hmarks⟩

theorem leave_follows (h : SameMarks jobId s.control.cancelRequestedJobIds marks) (id : JobId) :
    Follows jobId (s.leave id) ((s.withMarks marks).leave id) :=
  ⟨marks.erase id, rfl, h.erase id⟩

/-- The loop looks at the note of a job in a run of `ffmpeg` only. -/
theorem loopStep_follows (h : SameMarks jobId s.control.cancelRequestedJobIds marks)
    (hspent : s.sys.Spent jobId) (a : LoopAction C) :
    Option.Rel (Follows jobId) (loopStep c s a) (loopStep c (s.withMarks marks) a) := by
  cases a with
  | other a =>
    have hcontrols : (s.withMarks marks).controls a.op = s.controls a.op := rfl
    simp only [loopStep, hcontrols]
    split
    · exact .none
    · have hsys : (s.withMarks marks).sys = s.sys := rfl
      rw [hsys]
      cases step c s.sys a with
      | none => exact .none
      | some sys => exact .some ⟨marks, rfl, h⟩
  | cancelJob uid now id =>
    have hissued : (s.withMarks marks).sys.issued = s.sys.issued := rfl
    simp only [loopStep, hissued]
    split
    · exact .none
    · exact .some (cancelJob_follows h uid now id)
  | begin id =>
    have hexecution : (s.withMarks marks).sys.execution id = s.sys.execution id := rfl
    simp only [loopStep, hexecution]
    cases (s.sys.execution id).filter fun x => x.inLoop && x.phase == .claimed with
    | none => exact .none
    | some x => exact .some ⟨marks, rfl, h⟩
  | start id =>
    have hencoding : (s.withMarks marks).encoding id = s.encoding id := rfl
    have hprocess : (s.withMarks marks).process id = s.process id := rfl
    simp only [loopStep, hencoding, hprocess]
    cases hx : s.encoding id with
    | none => exact .none
    | some x =>
      cases s.process id with
      | some process => exact .none
      | none =>
        have hstarted : (s.withMarks marks).control.startedProcess id = s.control.startedProcess id := by
          unfold LoopControl.startedProcess
          rw [cancelRequested_withMarks h (encoding_ne hspent hx)]
        simp only [hstarted]
        exact .some ⟨marks, rfl, h⟩
  | exit id returncode =>
    have hprocess : (s.withMarks marks).process id = s.process id := rfl
    simp only [loopStep, hprocess]
    cases (s.process id).filter (·.returncode = none) with
    | none => exact .none
    | some process => exact .some ⟨marks, rfl, h⟩
  | watch id =>
    have hencoding : (s.withMarks marks).encoding id = s.encoding id := rfl
    simp only [loopStep, hencoding]
    cases hx : s.encoding id with
    | none => exact .none
    | some x =>
      rw [cancelRequested_withMarks h (encoding_ne hspent hx)]
      exact .some ⟨marks, rfl, h⟩
  | finish id startedAt now =>
    have hencoding : (s.withMarks marks).encoding id = s.encoding id := rfl
    have hprocess : (s.withMarks marks).process id = s.process id := rfl
    simp only [loopStep, hencoding, hprocess]
    cases hx : s.encoding id with
    | none => exact .none
    | some x =>
      cases s.process id with
      | none => exact .none
      | some process =>
        dsimp only [bind, Option.bind]
        cases process.returncode with
        | none => exact .none
        | some returncode =>
          have hne : x.jobId ≠ jobId := (encoding_eq_some hx).2.1 ▸ encoding_ne hspent hx
          have hphase : (s.withMarks marks).finishedPhase c x process returncode startedAt now =
              s.finishedPhase c x process returncode startedAt now := by
            unfold finishedPhase
            rw [cancelRequested_withMarks h hne]
          dsimp only
          rw [hphase]
          cases s.finishedPhase c x process returncode startedAt now with
          | none => exact .none
          | some phase => exact .some ⟨marks, rfl, h⟩
  | clear id =>
    have hexecution : (s.withMarks marks).sys.execution id = s.sys.execution id := rfl
    have hentered : (s.withMarks marks).entered = s.entered := rfl
    simp only [loopStep, hexecution, hentered]
    cases (s.sys.execution id).filter (·.inLoop) with
    | none => exact .none
    | some x =>
      dsimp only [bind, Option.bind]
      split
      · split
        · exact .some (leave_follows h id)
        · exact .none
      · exact .none
  | abort id =>
    have hexecution : (s.withMarks marks).sys.execution id = s.sys.execution id := rfl
    have hentered : (s.withMarks marks).entered = s.entered := rfl
    simp only [loopStep, hexecution, hentered]
    cases (s.sys.execution id).filter (·.inLoop) with
    | none => exact .none
    | some x =>
      by_cases hin : id ∈ s.entered
      · obtain ⟨marks', hleave, hmarks⟩ := leave_follows h id
        simp only [hin, if_true, hleave]
        exact .some ⟨marks', rfl, hmarks⟩
      · simp only [hin, if_false]
        exact .some ⟨marks, rfl, h⟩
  | restart => exact .some ⟨∅, rfl, fun _ _ => Iff.rfl⟩

/-- Two states that differ in the note of a job that the loop will not encode take every step together. -/
theorem agree_lockstep (c : Settings) (jobId : JobId) : (loopMachine C c).Lockstep (Agree jobId) := by
  rintro s t a ⟨⟨marks, rfl, hmarks⟩, hspent, hI⟩
  have hfollows := loopStep_follows (c := c) hmarks hspent a
  show Option.Rel _ (loopStep c s a) (loopStep c (s.withMarks marks) a)
  cases hs : loopStep c s a with
  | none =>
    rw [hs] at hfollows
    cases ht : loopStep c (s.withMarks marks) a with
    | none => exact .none
    | some t' =>
      rw [ht] at hfollows
      cases hfollows
  | some s' =>
    rw [hs] at hfollows
    cases ht : loopStep c (s.withMarks marks) a with
    | none =>
      rw [ht] at hfollows
      cases hfollows
    | some t' =>
      rw [ht] at hfollows
      cases hfollows with
      | some hrel => exact .some ⟨hrel, loopStep_spent hI hs hspent, loopStep_sysInv hI hs⟩

theorem Agree.view {s t : LoopState} (h : Agree jobId s t) : s.view = t.view := by
  obtain ⟨⟨marks, rfl, -⟩, -, -⟩ := h
  rfl

end Marks

end LoopState

/-! ## Refused requests -/

section Refused

variable {s : LoopState}

/-- What can be seen after a list of actions. -/
def behaviour (c : Settings) (s : LoopState) (as : List (LoopAction C)) : Option LoopState :=
  ((loopMachine C c).run (fun _ _ => true) s as).map LoopState.view

/-- The request of the job is noted, where it was not, though the loop may still encode the job. -/
def LoopState.Surfaces (s : LoopState) (jobId : JobId) : Prop :=
  s.sys.db.asksLocalWorker jobId = true ∧ jobId ∉ s.control.cancelRequestedJobIds ∧
    ∃ x ∈ s.sys.live, x.jobId = jobId ∧ x.mayEncode = true

/-- A refused request changes no more than the notes. -/
theorem LoopState.refused_eq {uid : String} {now : Time} {e : ApiError}
    (hrefused : (s.cancelJob uid now jobId).1 = .error e) :
    (s.cancelJob uid now jobId).2 = s ∧ s.sys.db.asksLocalWorker jobId = false ∨
      (s.cancelJob uid now jobId).2 = s.withMarks (insert jobId s.control.cancelRequestedJobIds) ∧
        s.sys.db.asksLocalWorker jobId = true := by
  cases hcancel : s.sys.db.cancelJob jobId (s.control.isActive jobId) now with
  | ok db =>
    rw [LoopState.cancelJob_ok hcancel] at hrefused
    cases hrefused
  | error e' =>
    rw [LoopState.cancelJob_error hcancel]
    cases hasks : s.sys.db.asksLocalWorker jobId with
    | false => exact .inl ⟨by simp [LoopState.ask, hasks], rfl⟩
    | true =>
      -- the job is not the active one, so no process is asked to terminate
      have hactive : s.control.isActive jobId = false := by
        by_contra hactive
        obtain ⟨db, hdb⟩ := Database.cancelJob_accepted hasks now
        rw [eq_true_of_ne_false hactive, hdb] at hcancel
        cases hcancel
      refine .inr ⟨?_, rfl⟩
      simp only [LoopState.ask, hasks, if_true, LoopControl.requestTermination, hactive,
        Bool.false_eq_true, if_false]
      rfl

/-- A job that the local worker is asked about, and that the loop will not encode, is spent. -/
theorem LoopState.spent_of_asked (hasks : s.sys.db.asksLocalWorker jobId = true)
    (hlive : ∀ x ∈ s.sys.live, x.jobId = jobId → x.mayEncode = false) : s.sys.Spent jobId := by
  obtain ⟨job, hj, hid, hst, -⟩ := Database.asksLocalWorker_job hasks
  refine ⟨⟨job, hj, hid, ?_⟩, hlive⟩
  simp only [List.mem_cons, List.not_mem_nil, or_false] at hst
  rcases hst with hst | hst <;> rw [hst] <;> rfl

/-- Where a request does not surface, the runs with and without it look the same. -/
theorem refused_unnoticed (hI : s.sys.Inv) {uid : String} {now : Time} {e : ApiError}
    (hrefused : (s.cancelJob uid now jobId).1 = .error e) (hsurfaces : ¬ s.Surfaces jobId)
    (as : List (LoopAction C)) : behaviour c (s.cancelJob uid now jobId).2 as = behaviour c s as := by
  rcases LoopState.refused_eq hrefused with ⟨heq, -⟩ | ⟨heq, hasks⟩
  · rw [heq]
  · rw [heq]
    by_cases hmark : jobId ∈ s.control.cancelRequestedJobIds
    · rw [Finset.insert_eq_of_mem hmark]
      rfl
    · have hlive : ∀ x ∈ s.sys.live, x.jobId = jobId → x.mayEncode = false := by
        intro x hx hid
        by_contra hmay
        exact hsurfaces ⟨hasks, hmark, x, hx, hid, eq_true_of_ne_false hmay⟩
      have hagree : LoopState.Agree jobId s
          (s.withMarks (insert jobId s.control.cancelRequestedJobIds)) := by
        refine ⟨⟨_, rfl, fun id hid => ?_⟩, LoopState.spent_of_asked hasks hlive, hI⟩
        simp [hid]
      have hrun := (LoopState.agree_lockstep (C := C) c jobId).run hagree as
      exact (Sys.map_eq_of_rel (fun _ _ h => h.view) hrun).symm

/-! ## Requests that surface -/

theorem behaviour_cons (c : Settings) (s : LoopState) (a : LoopAction C) (as : List (LoopAction C)) :
    behaviour c s (a :: as) = (loopStep c s a).bind fun s' => behaviour c s' as := by
  simp only [behaviour, Sys.run, loopMachine, if_true, Option.map_bind]
  rfl

theorem behaviour_single (c : Settings) (s : LoopState) (a : LoopAction C) :
    behaviour c s [a] = (loopStep c s a).map LoopState.view := by
  rw [behaviour_cons]
  cases loopStep c s a with
  | none => rfl
  | some s' => rfl

theorem State.execution_set {s : State} {x : Execution} (hx : s.execution jobId = some x) (phase : Phase) :
    (s.set { x with phase := phase }).execution jobId = some { x with phase := phase } := by
  have hid := List.find?_some hx
  simp only [decide_eq_true_eq] at hid
  refine (Table.find_modify fun _ _ _ => rfl).trans ?_
  rw [show Table.find (fun y : Execution => y.jobId) jobId s.live = some x from hx]
  simp

section Noticed

variable {x : Execution} {marks : Finset JobId}

/-- A process that starts with the note is asked to terminate. -/
theorem start_noticed (hx : s.encoding jobId = some x) (hprocess : s.process jobId = none)
    (hmark : s.control.cancelRequested jobId = false) (hmark' : (s.withMarks marks).control.cancelRequested jobId = true) :
    behaviour c (s.withMarks marks) [LoopAction.start (C := C) jobId] ≠
      behaviour c s [LoopAction.start (C := C) jobId] := by
  have hstep : ∀ t : LoopState, t.encoding jobId = some x → t.process jobId = none →
      loopStep c t (LoopAction.start (C := C) jobId) = some { t with
        control := t.control.setActiveProcess jobId
        processes := t.control.startedProcess jobId :: t.processes } := by
    intro t ht hnone
    simp only [loopStep, ht, hnone]
    rfl
  rw [behaviour_single, behaviour_single, hstep s hx hprocess, hstep (s.withMarks marks) hx hprocess]
  intro heq
  have hprocesses := congrArg LoopState.processes (Option.some.inj heq)
  have hstarted := (List.cons.inj hprocesses).1
  simp only [LoopControl.startedProcess, hmark, hmark', if_true, Bool.false_eq_true, if_false] at hstarted
  exact Bool.false_ne_true (congrArg FfmpegProcess.terminated hstarted).symm

/-- The watcher of a process finds the note. -/
theorem watch_noticed {process : FfmpegProcess} (hx : s.encoding jobId = some x)
    (hprocess : s.process jobId = some process) (hruns : process.returncode = none) (hcancelled : process.cancelled = false)
    (hmark : s.control.cancelRequested jobId = false) (hmark' : (s.withMarks marks).control.cancelRequested jobId = true) :
    behaviour c (s.withMarks marks) [LoopAction.watch (C := C) jobId] ≠
      behaviour c s [LoopAction.watch (C := C) jobId] := by
  have hstep : ∀ t : LoopState, t.encoding jobId = some x → loopStep c t (LoopAction.watch (C := C) jobId) =
      some (t.modifyProcess jobId (·.watch (t.control.cancelRequested jobId))) := by
    intro t ht
    simp only [loopStep, ht]
    rfl
  have hfind : ∀ (t : LoopState) (requested : Bool), t.process jobId = some process →
      (t.modifyProcess jobId (·.watch requested)).process jobId = some (process.watch requested) := by
    intro t requested ht
    refine (Table.find_modify fun p _ hp => (p.watch_jobId requested).trans hp).trans ?_
    rw [show Table.find (fun p : FfmpegProcess => p.jobId) jobId t.processes = some process from ht]
    simp [Table.key_of_find ht]
  rw [behaviour_single, behaviour_single, hstep s hx, hstep (s.withMarks marks) hx, hmark, hmark']
  intro heq
  have hprocesses := congrArg (fun t : LoopState => t.process jobId) (Option.some.inj heq)
  have hwatched : some (process.watch true) = some (process.watch false) := by
    rw [← hfind _ true hprocess, ← hfind (s.withMarks marks) false hprocess]
    exact hprocesses
  have hfound := congrArg FfmpegProcess.cancelled (Option.some.inj hwatched)
  simp [FfmpegProcess.watch, hruns, hcancelled] at hfound

/-- A run of `ffmpeg` that ends with the note is cancelled. -/
theorem finishedPhase_noted {process : FfmpegProcess} {returncode : Int} {startedAt now : Time}
    (hphase : x.phase = .running) (hmark : s.control.cancelRequested x.jobId = true) :
    ∃ result, s.finishedPhase c x process returncode startedAt now = some (.finished result) ∧
      result.status = .cancelled := by
  simp only [LoopState.finishedPhase, FfmpegProcess.outcome, hmark, Bool.or_true, if_true,
    Execution.afterRun, hphase]
  refine ⟨_, rfl, ?_⟩
  split <;> rfl

/-- A run of `ffmpeg` that ends without a note is not cancelled. -/
theorem finishedPhase_unnoted {process : FfmpegProcess} {returncode : Int} {startedAt now : Time}
    {result : ExecutionResult} (hphase : x.phase = .running) (hcancelled : process.cancelled = false)
    (hmark : s.control.cancelRequested x.jobId = false)
    (h : s.finishedPhase c x process returncode startedAt now = some (.finished result)) :
    result.status ≠ .cancelled := by
  simp only [LoopState.finishedPhase, FfmpegProcess.outcome, hmark, hcancelled, Bool.or_false,
    Bool.false_eq_true, if_false] at h
  by_cases hcode : returncode ≠ 0
  · rw [if_pos hcode] at h
    simp only [Execution.afterRun, hphase] at h
    obtain rfl := Phase.finished.inj (Option.some.inj h)
    split <;> exact nofun
  · rw [if_neg hcode] at h
    simp only [Execution.afterRun, hphase] at h
    split at h
    · cases h
    · cases h

theorem finish_noticed {process : FfmpegProcess} {returncode : Int} (hx : s.encoding jobId = some x)
    (hprocess : s.process jobId = some process) (hended : process.returncode = some returncode)
    (hcancelled : process.cancelled = false) (hmark : s.control.cancelRequested jobId = false)
    (hmark' : (s.withMarks marks).control.cancelRequested jobId = true) :
    behaviour c (s.withMarks marks) [LoopAction.finish (C := C) jobId 0 0] ≠
      behaviour c s [LoopAction.finish (C := C) jobId 0 0] := by
  obtain ⟨hlive, rfl, -, hrunning⟩ := LoopState.encoding_eq_some hx
  have hstep : ∀ t : LoopState, t.encoding x.jobId = some x → t.process x.jobId = some process →
      loopStep c t (LoopAction.finish (C := C) x.jobId 0 0) =
        (t.finishedPhase c x process returncode 0 0).map fun phase =>
          { t with sys := t.sys.set { x with phase := phase } } := by
    intro t ht hp
    simp only [loopStep, ht, hp, bind, Option.bind_some, hended]
    cases t.finishedPhase c x process returncode 0 0 <;> rfl
  rw [behaviour_single, behaviour_single, hstep s hx hprocess, hstep (s.withMarks marks) hx hprocess]
  intro heq
  obtain ⟨result, hresult, hstatus⟩ : ∃ result, (s.withMarks marks).finishedPhase c x process returncode 0 0 =
      some (.finished result) ∧ result.status = .cancelled := finishedPhase_noted hrunning hmark'
  rw [hresult] at heq
  cases hphase : s.finishedPhase c x process returncode 0 0 with
  | none =>
    rw [hphase] at heq
    cases heq
  | some phase =>
    rw [hphase] at heq
    have hsys := congrArg (fun t : LoopState => t.sys.execution x.jobId) (Option.some.inj heq)
    have hfound : s.sys.execution x.jobId = some x := (Option.filter_eq_some_iff.mp hx).1
    have hphases : some { x with phase := .finished result } = some { x with phase := phase } := by
      rw [← State.execution_set hfound, ← State.execution_set hfound]
      exact hsys
    obtain rfl : Phase.finished result = phase := congrArg Execution.phase (Option.some.inj hphases)
    exact finishedPhase_unnoted hrunning hcancelled hmark hphase hstatus

/-- The note of a job that the loop encodes shows in its run of `ffmpeg`. -/
theorem encoding_noticed (hnoted : Noted s.processes s.control.cancelRequestedJobIds)
    (hmark : jobId ∉ s.control.cancelRequestedJobIds) (hmarks : jobId ∈ marks)
    (hx : s.encoding jobId = some x) :
    ∃ a : LoopAction C, behaviour c (s.withMarks marks) [a] ≠ behaviour c s [a] := by
  have hrequested : s.control.cancelRequested jobId = false := decide_eq_false hmark
  have hrequested' : (s.withMarks marks).control.cancelRequested jobId = true := decide_eq_true hmarks
  cases hprocess : s.process jobId with
  | none => exact ⟨_, start_noticed hx hprocess hrequested hrequested'⟩
  | some process =>
    have hid : process.jobId = jobId := Table.key_of_find hprocess
    have hcancelled : process.cancelled = false := by
      by_contra hfound
      exact hmark (hid ▸ hnoted process (Table.mem_of_find hprocess) (eq_true_of_ne_false hfound))
    cases hended : process.returncode with
    | none => exact ⟨_, watch_noticed hx hprocess hended hcancelled hrequested hrequested'⟩
    | some returncode => exact ⟨_, finish_noticed hx hprocess hended hcancelled hrequested hrequested'⟩

/-- A request that surfaces shows in the next steps of the execution. -/
theorem surfaces_noticed (hI : s.Inv) (h : s.Surfaces jobId) :
    ∃ as : List (LoopAction C), behaviour c (s.withMarks (insert jobId s.control.cancelRequestedJobIds)) as ≠
      behaviour c s as := by
  obtain ⟨-, hmark, x, hx, rfl, hmay⟩ := h
  obtain ⟨hencodes, hphase⟩ := Execution.mayEncode_iff.mp hmay
  have hfound := hI.sys.execution_of_mem hx
  rcases hphase with hclaimed | hrunning
  · -- the loop enters the execution first
    let begun : LoopState := { s with
      sys := s.sys.set { x with phase := .running }
      control := s.control.setActiveJob x.jobId
      entered := x.jobId :: s.entered }
    have henters : (s.sys.execution x.jobId).filter (fun x => x.inLoop && x.phase == .claimed) = some x := by
      have hinLoop : x.inLoop = true := by
        simp only [Execution.encodes, Bool.and_eq_true] at hencodes
        exact hencodes.1.1.1
      rw [hfound]
      simp [hinLoop, hclaimed]
    have hbegin : loopStep c s (LoopAction.begin (C := C) x.jobId) = some begun := by
      simp only [loopStep, henters, Option.map_some]
      rfl
    have hbegin' : ∀ marks, loopStep c (s.withMarks marks) (LoopAction.begin (C := C) x.jobId) =
        some (begun.withMarks marks) := by
      intro marks
      have hsys : (s.withMarks marks).sys = s.sys := rfl
      simp only [loopStep, hsys, henters, Option.map_some]
      rfl
    have hencoding : begun.encoding x.jobId = some { x with phase := .running } := by
      rw [LoopState.encoding, State.execution_set hfound]
      have hencodes' : ({ x with phase := .running } : Execution).encodes = true := hencodes
      simp [hencodes']
    obtain ⟨a, ha⟩ : ∃ a : LoopAction C, _ :=
      encoding_noticed (s := begun) hI.noted hmark (Finset.mem_insert_self x.jobId s.control.cancelRequestedJobIds) hencoding
    refine ⟨[.begin x.jobId, a], ?_⟩
    rw [behaviour_cons, behaviour_cons, hbegin, hbegin']
    exact ha
  · have hencoding : s.encoding x.jobId = some x := by
      rw [LoopState.encoding, hfound]
      simp [hencodes, hrunning]
    obtain ⟨a, ha⟩ := encoding_noticed hI.noted hmark (Finset.mem_insert_self _ _) hencoding
    exact ⟨_, ha⟩

end Noticed

/-- A refused request changes no later behaviour if and only if it is not noted anew while an execution of
the job in the loop may still encode. -/
theorem refused_unnoticed_iff (c : Settings) {s : LoopState} (h : (loopMachine C c).Reachable s)
    {uid message : String} {now : Time} {jobId : JobId}
    (hrefused : (s.cancelJob uid now jobId).1 = .error (.conflict message)) :
    (∀ as : List (LoopAction C), behaviour c (s.cancelJob uid now jobId).2 as = behaviour c s as) ↔
      ¬ s.Surfaces jobId := by
  have hI : s.Inv := .of_reach h
  constructor
  · intro hunnoticed hsurfaces
    obtain ⟨as, has⟩ : ∃ as : List (LoopAction C), _ := surfaces_noticed (c := c) hI hsurfaces
    rcases LoopState.refused_eq hrefused with ⟨-, hasks⟩ | ⟨heq, -⟩
    · rw [hsurfaces.1] at hasks
      cases hasks
    · exact has (heq ▸ hunnoticed as)
  · intro hsurfaces as
    exact refused_unnoticed hI.sys hrefused hsurfaces as

end Refused

/-! ## Requests of the home installation -/

/-- The local worker takes `job1`, in the process of the API or in its own. -/
def claimedRun (inApi : Bool) : List (LoopAction String) :=
  (filmRun ++ [
    actAt 0 "local" (.request (.setupLocalWorker { maxConcurrentJobs := 1 })),
    actAt 1 "claim" (.claimLocal "job1" true inApi)]).map .other

/-- The state after a run of the home installation with the loop. -/
def loopHomeAfter (actions : List (LoopAction String)) : LoopState :=
  ((loopMachine String home).run (fun _ _ => true) {} actions).getD {}

theorem loopHome_reachable (actions : List (LoopAction String))
    (h : ((loopMachine String home).run (fun _ _ => true) {} actions).isSome = true) :
    (loopMachine String home).Reachable (loopHomeAfter actions) := by
  have hreach := Sys.Reach.after (S := loopMachine String home) (fun _ _ => false) actions rfl h
  exact hreach.mono fun _ _ _ => trivial

/-- A request that comes to a loop which does not execute the job has no effect. -/
theorem refused_unnoticed_elsewhere :
    ((loopHomeAfter (claimedRun false)).cancelJob "cancel" 0 "job1").1 =
        .error (.conflict "The local worker is not actively processing this job.") ∧
      ∀ as : List (LoopAction String),
        behaviour home ((loopHomeAfter (claimedRun false)).cancelJob "cancel" 0 "job1").2 as =
          behaviour home (loopHomeAfter (claimedRun false)) as := by
  have hrefused : ((loopHomeAfter (claimedRun false)).cancelJob "cancel" 0 "job1").1 =
      .error (.conflict "The local worker is not actively processing this job.") := by decide +kernel
  refine ⟨hrefused, ?_⟩
  refine (refused_unnoticed_iff home (loopHome_reachable (claimedRun false) (by decide +kernel)) hrefused).mpr ?_
  rintro ⟨-, -, x, hx, -, hmay⟩
  have hnone : ∀ x ∈ (loopHomeAfter (claimedRun false)).sys.live, x.mayEncode = false := by decide +kernel
  rw [hnone x hx] at hmay
  cases hmay

/-- The run of `ffmpeg` for `job1`, which writes its output. -/
def encodesFilm : List (LoopAction String) :=
  [.begin "job1", .start "job1", .exit "job1" 0, .finish "job1" 0 0]

/-- An execution has ended cancelled. -/
def LoopState.hasCancelled (s : LoopState) : Bool :=
  s.sys.live.any fun x => match x.phase with
    | .finished result => result.status == .cancelled
    | _ => false

/-- A request between the claim of a job and its start is refused, and cancels the execution all the
same. -/
theorem refused_request_cancels :
    (loopMachine String home).Reachable (loopHomeAfter (claimedRun true)) ∧
      ((loopHomeAfter (claimedRun true)).cancelJob "cancel" 0 "job1").1 =
        .error (.conflict "The local worker is not actively processing this job.") ∧
      (behaviour home (loopHomeAfter (claimedRun true)) encodesFilm).map (·.hasCancelled) = some false ∧
      (behaviour home ((loopHomeAfter (claimedRun true)).cancelJob "cancel" 0 "job1").2 encodesFilm).map
        (·.hasCancelled) = some true ∧
      ¬ ∀ as : List (LoopAction String),
        behaviour home ((loopHomeAfter (claimedRun true)).cancelJob "cancel" 0 "job1").2 as =
          behaviour home (loopHomeAfter (claimedRun true)) as := by
  have hwithout : (behaviour home (loopHomeAfter (claimedRun true)) encodesFilm).map (·.hasCancelled) =
      some false := by decide +kernel
  have hwith : (behaviour home ((loopHomeAfter (claimedRun true)).cancelJob "cancel" 0 "job1").2
      encodesFilm).map (·.hasCancelled) = some true := by decide +kernel
  refine ⟨loopHome_reachable (claimedRun true) (by decide +kernel), by decide +kernel, hwithout, hwith,
    fun hall => ?_⟩
  rw [hall encodesFilm, hwithout] at hwith
  cases hwith

end Encodr
