import Encodr.System.Steps

/-!
# Placements and verifications

A job has one execution, which verifies the one output that it stages. An execution places its output
under the plan that the output was verified against. An approval places the output that the latest job
left, under the latest plan of the file: nothing makes it look at the verification.

* `lastVerified`: the last verification of the output of a job.
* `PlacesVerified`: each placement comes after a verification that passed, under the same plan.
* `approvesUnverified`: an approval that places another output, or under another plan.
* `placements_verified`: without such an approval, every placement is verified.
-/

namespace Encodr

open Python Lib

variable {C : Type}

/-! ## Verifications in the log -/

/-- The last verification of the output of a job: the output, the plan and the verdict. -/
def lastVerified (jobId : JobId) : List Event → Option (PosixPath × ProcessingPlan × Bool)
  | [] => none
  | .verified j output plan passed :: log =>
    if j = jobId then some (output, plan, passed) else lastVerified jobId log
  | _ :: log => lastVerified jobId log

section LastVerified

variable {jobId : JobId} {output : PosixPath} {plan : ProcessingPlan} {passed : Bool} {e : Event}
  {log : List Event}

@[simp] theorem lastVerified_verified :
    lastVerified jobId (.verified jobId output plan passed :: log) = some (output, plan, passed) := by
  rw [lastVerified, if_pos rfl]

/-- An event that is no verification of the job. -/
theorem lastVerified_cons (h : ∀ output plan passed, e ≠ .verified jobId output plan passed) :
    lastVerified jobId (e :: log) = lastVerified jobId log := by
  cases e with
  | verified j output plan passed =>
    have hne : j ≠ jobId := by
      rintro rfl
      exact h output plan passed rfl
    rw [lastVerified, if_neg hne]
  | _ => rfl

/-- A placement of the output of a job is backed by what was noted before it: the last verification of
the output passed, under the plan of the placement. -/
def Event.Backed (earlier : List Event) : Event → Prop
  | .placed jobId output plan => lastVerified jobId earlier = some (output, plan, true)
  | .approved jobId _ plan => ∃ output, lastVerified jobId earlier = some (output, plan, true)
  | _ => True

/-- Every placement is backed. -/
def PlacesVerified (log : List Event) : Prop :=
  ∀ later e earlier, log = later ++ e :: earlier → e.Backed earlier

theorem PlacesVerified.cons (h : PlacesVerified log) (he : e.Backed log) :
    PlacesVerified (e :: log) := by
  intro later e' earlier hlog
  cases later with
  | nil =>
    obtain ⟨rfl, rfl⟩ := List.cons.inj hlog
    exact he
  | cons _ later => exact h later e' earlier (List.cons.inj hlog).2

end LastVerified

/-! ## Executions -/

/-- An execution that is to place its output, or has verified it, has passed its last
verification. -/
def Execution.Backed (x : Execution) (log : List Event) : Prop :=
  match x.phase with
  | .verified output _ | .replacing output _ =>
    lastVerified x.jobId log = some (output.path, x.plan, true)
  | .finished result => verificationStatusForResult result = .passed →
    ∃ output, lastVerified x.jobId log = some (output, x.plan, true)
  | _ => True

section Executions

variable {x : Execution} {now : Time} {phase : Phase} {events log : List Event}

theorem Execution.Advance.backed (h : x.Advance C now phase events) (hb : x.Backed log) :
    { x with phase := phase }.Backed (events ++ log) := by
  cases h with
  | begin => trivial
  | run hrun =>
    obtain ⟨-, ⟨output, rfl, -⟩ | ⟨result, rfl, -, hunverified⟩⟩ := Execution.afterRun_eq_some hrun
    · trivial
    · exact fun hp => absurd hp hunverified
  | cancel hcancel =>
    intro hp
    obtain ⟨output, verification, hphase⟩ := (Execution.cancelledAt_eq_some hcancel).2 hp
    rw [Execution.Backed, hphase] at hb
    exact ⟨output.path, hb⟩
  | @verify output media probe safety =>
    rcases Execution.afterVerification_cases output (verifyOutput x.plan media probe) safety now with
      ⟨hpassed, h⟩ | ⟨result, h, -, hresult⟩
    · simp only [Execution.Backed, h, hpassed, List.singleton_append, lastVerified_verified]
    · simp only [Execution.Backed, h]
      intro hp
      obtain ⟨v, hv, hstatus⟩ := verificationStatusForResult_passed.mp hp
      obtain rfl := Option.some.inj (hresult.symm.trans hv)
      rw [verifyOutput_passed_of_status hstatus]
      exact ⟨output.path, lastVerified_verified⟩
  | @place output verification w hphase =>
    obtain ⟨result, h⟩ := x.afterPlacement_eq output verification
      (w.run x.sourcePath output.path x.plan) now
    rw [Execution.Backed, hphase] at hb
    simp only [Execution.Backed, h]
    exact fun _ => ⟨output.path, hb⟩
  | refuse message =>
    rcases x.afterRefusal_eq message now with ⟨category, h⟩ | ⟨result, h, -, hnone⟩
    · simp only [Execution.Backed, h]
    · simp only [Execution.Backed, h]
      intro hp
      obtain ⟨v, hv, -⟩ := verificationStatusForResult_passed.mp hp
      exact nomatch hnone.symm.trans hv
  | fail => trivial

theorem Execution.Report.backed {cancel asked : Bool} (h : x.Report now cancel phase events)
    (hb : x.Backed log) :
    { x with cancelRequested := asked, phase := phase }.Backed (events ++ log) := by
  cases h with
  | begin =>
    simp only [Execution.Backed, Execution.afterBegin]
    split_ifs
    · exact fun hp => nomatch hp
    · trivial
  | progress => trivial
  | proceed hnext =>
    unfold Execution.nextReport at hnext
    split at hnext
    · obtain ⟨-, -, rfl⟩ := Prod.mk.injEq .. ▸ Option.some.inj hnext
      trivial
    · next output verification hphase =>
      obtain ⟨-, -, rfl⟩ := Prod.mk.injEq .. ▸ Option.some.inj hnext
      rw [Execution.Backed, hphase] at hb
      simp only [Execution.Backed, State.noted, hphase]
      exact hb
    · cases hnext

end Executions

/-! ## Rows -/

/-- The verification of a verified row is the last one of its job, under the plan of the job. -/
def Database.Backs (db : Database) (log : List Event) (job : Job) : Prop :=
  ∃ plan output, db.planSnapshot job.planSnapshotId = some plan ∧
    lastVerified job.id log = some (output, planPayloadForJob job plan.payload, true)

/-- Executions and rows are backed by the log, and so is every placement. -/
structure State.Backed (s : State) : Prop where
  live : ∀ x ∈ s.live, x.Backed s.log
  rows : ∀ job ∈ s.db.jobs, job.verificationStatus = .passed → s.db.Backs s.log job
  placements : PlacesVerified s.log

/-- An approval places the output of a job that has not been verified, or has been verified under
another plan than the latest one. -/
def approvesUnverified (c : Settings) (s : State) (a : Action C) : Bool :=
  match a.op with
  | .approveItem itemId _ =>
    match s.approvalOf c a.exists_ itemId with
    | some (.staged job plan _ _) => job.verificationStatus != .passed ||
      !(s.db.planSnapshot job.planSnapshotId).any fun own =>
        planPayloadForJob job own.payload == plan.payload
    | _ => false
  | _ => false

section Rows

variable {c : Settings} {s s' : State} {a : Action C} {job job' : Job}

/-- An approval that places a verified output, under the plan of its job. -/
theorem verified_of_approves {itemId : FileId} {w : Placing C} {plan : PlanSnapshot}
    {sourcePath output : PosixPath} (hbad : approvesUnverified c s a = false)
    (hop : a.op = .approveItem itemId w)
    (happroval : s.approvalOf c a.exists_ itemId = some (.staged job plan sourcePath output)) :
    job.verificationStatus = .passed ∧ ∃ own, s.db.planSnapshot job.planSnapshotId = some own ∧
      planPayloadForJob job own.payload = plan.payload := by
  simp only [approvesUnverified, hop, happroval, Bool.or_eq_false_iff, bne_eq_false_iff_eq,
    Bool.not_eq_false', Option.any_eq_true, beq_iff_eq] at hbad
  obtain ⟨hpassed, own, hown, heq⟩ := hbad
  exact ⟨hpassed, own, hown, heq⟩

/-- The verdict that a submission records is the reported one. -/
theorem acceptedResult_passed {os : PathOs} {roots : PathRoots} {worker : Worker} {now : Time}
    {result : ExecutionResult}
    (h : verificationStatusForResult (acceptedResult os roots worker job result now) = .passed) :
    verificationStatusForResult result = .passed := by
  rw [verificationStatusForResult_passed] at h ⊢
  cases hn : normaliseRemoteResult os roots worker result with
  | error e =>
    simp only [acceptedResult, hn] at h
    split at h <;> exact nomatch h
  | ok result' =>
    simp only [acceptedResult, hn] at h
    rw [← (normaliseResult_ok hn).verification]
    split at h <;> exact h

/-- A row that a move leaves verified was so, or the execution of the job has finished with a verified
output. -/
theorem RowMove.passed (hbad : approvesUnverified c s a = false) (h : RowMove c s a s' job job')
    (hp : job'.verificationStatus = .passed) :
    job.verificationStatus = .passed ∨ ∃ x ∈ s.live, x.jobId = job.id ∧ ∃ result,
      x.phase = .finished result ∧ verificationStatusForResult result = .passed := by
  cases h with
  | managed _ h => exact .inl ((h.passed hp).resolve_right fun hr => Op.rights_passes hr.2)
  | approved _ _ h noted hop =>
    rcases h.passed hp with hbefore | ⟨-, hcompletes⟩
    · exact .inl hbefore
    · obtain ⟨plan, sourcePath, output, happroval, -⟩ := noted hcompletes
      obtain ⟨w, hop⟩ := hop
      exact .inl (verified_of_approves hbad hop happroval).1
  | swept => exact .inl hp
  | claimed => exact .inl hp
  | @recorded x _ _ _ _ _ hx hid recorded _ h =>
    rw [h.verificationStatus] at hp
    refine .inr ⟨x, hx, hid, ?_⟩
    cases recorded with
    | submitted _ hphase => exact ⟨_, hphase, acceptedResult_passed hp⟩
    | failed => exact nomatch hp
    | finished _ _ hphase => exact ⟨_, hphase, hp⟩

/-- A move that verifies nothing of a job leaves its last verification. -/
theorem lastVerified_of_log {jobId : JobId} (hlog : s'.log = s.log ∨ ∃ e, s'.log = e :: s.log)
    (hquiet : ∀ output plan passed, s'.log ≠ .verified jobId output plan passed :: s.log) :
    lastVerified jobId s'.log = lastVerified jobId s.log := by
  rcases hlog with heq | ⟨e, heq⟩
  · rw [heq]
  · rw [heq]
    refine lastVerified_cons fun output plan passed he => ?_
    rw [he] at heq
    exact hquiet output plan passed heq

/-- Only an execution that verifies its output notes a verification. -/
theorem Move.lastVerified (hI : s.Inv) (hfresh : a.uid ∉ s.issued) (h : Move c s a s') {jobId : JobId}
    (hno : ∀ x ∈ s.live, x.jobId = jobId → ∀ output, x.phase ≠ .verifying output) :
    lastVerified jobId s'.log = lastVerified jobId s.log := by
  rcases h.log hI hfresh with heq | ⟨e, heq, hcause⟩
  · rw [heq]
  · refine lastVerified_of_log (.inr ⟨e, heq⟩) fun output plan passed heq' => ?_
    obtain ⟨rfl, -⟩ := List.cons.inj (heq.symm.trans heq')
    generalize he : Event.verified jobId output plan passed = e at hcause
    cases hcause with
    | verified hx hphase =>
      obtain ⟨rfl, -⟩ := Event.verified.inj he
      exact hno _ hx rfl _ hphase
    | _ => cases he

/-- Executions stay backed. -/
theorem Move.backed_live (hI : s.Inv) (hfresh : a.uid ∉ s.issued) (h : Move c s a s')
    (hb : s.Backed) : ∀ x' ∈ s'.live, x'.Backed s'.log := by
  have hlog : s'.log = s.log ∨ ∃ e, s'.log = e :: s.log :=
    (h.log hI hfresh).imp_right fun ⟨e, heq, _⟩ => ⟨e, heq⟩
  intro x' hx'
  cases h.execution hx' with
  | @kept x hx claim phase _ quiet =>
    have hid : x'.jobId = x.jobId := congrArg Claim.jobId claim
    have hplan : x'.plan = x.plan := congrArg Claim.plan claim
    have hx := hb.live x hx
    rw [Execution.Backed] at hx ⊢
    rwa [phase, hid, hplan, lastVerified_of_log hlog quiet]
  | claimed _ _ _ phase =>
    rw [Execution.Backed, phase]
    trivial
  | advanced hx hadvance hlog heq =>
    obtain rfl := heq
    rw [hlog]
    exact hadvance.backed (hb.live _ hx)
  | reported hx hreport _ hlog heq =>
    obtain rfl := heq
    rw [hlog]
    exact hreport.backed (hb.live _ hx)

/-- Rows stay backed. -/
theorem Move.backed_rows (hI : s.Inv) (hfresh : a.uid ∉ s.issued) (h : Move c s a s')
    (hbad : approvesUnverified c s a = false) (hb : s.Backed) :
    ∀ job' ∈ s'.db.jobs, job'.verificationStatus = .passed → s'.db.Backs s'.log job' := by
  obtain ⟨new, hevolves⟩ := h.evolves hI
  intro job' hj' hp
  rcases hevolves.mem hj' with ⟨job, hj, hkept⟩ | hnew
  · have hid := Job.id_of_terms hkept.terms
    have hbefore : s.db.Backs s.log job ∧
        ∀ x ∈ s.live, x.jobId = job.id → ∀ output, x.phase ≠ .verifying output := by
      rcases (h.row hI hfresh hj hj' hid).passed hbad hp with hpassed | ⟨x, hx, hxid, result, hphase, hpassed⟩
      · refine ⟨hb.rows job hj hpassed, fun x hx hxid => ?_⟩
        exact absurd hpassed (hI.row_of_mem hx hj hxid).unverified
      · have hx' := hb.live x hx
        rw [Execution.Backed, hphase] at hx'
        obtain ⟨output, hlast⟩ := hx' hpassed
        obtain ⟨plan, hplan, hpayload⟩ := (hI.row_of_mem hx hj hxid).plan
        refine ⟨⟨plan, output, hplan, ?_⟩, fun y hy hyid output hverifying => ?_⟩
        · rw [← hxid, hlast]
          exact congrArg (fun plan => some (output, plan, true)) hpayload
        · have hsame := hI.execution_of_mem hy
          rw [hyid, ← hxid, hI.execution_of_mem hx] at hsame
          rw [← Option.some.inj hsame, hphase] at hverifying
          cases hverifying
    obtain ⟨⟨plan, output, hplan, hlast⟩, hno⟩ := hbefore
    refine ⟨plan, output, ?_, ?_⟩
    · rw [Job.plan_of_terms hkept.terms]
      exact hevolves.planSnapshot hplan
    · rw [hid, h.lastVerified hI hfresh hno, hlast, Job.planPayload_of_terms hkept.terms]
  · exact absurd hp (hevolves.added job' hnew).unverified

/-- Placements stay backed. -/
theorem Move.backed_placements (hI : s.Inv) (hfresh : a.uid ∉ s.issued) (h : Move c s a s')
    (hbad : approvesUnverified c s a = false) (hb : s.Backed) : PlacesVerified s'.log := by
  rcases h.log hI hfresh with heq | ⟨e, heq, hcause⟩
  · exact heq ▸ hb.placements
  · rw [heq]
    refine hb.placements.cons ?_
    cases hcause with
    | placed hx hphase =>
      have hx := hb.live _ hx
      rwa [Execution.Backed, hphase] at hx
    | approved hop happroval =>
      obtain ⟨hpassed, own, hown, hsame⟩ := verified_of_approves hbad hop happroval
      have hj := List.mem_of_mem_filter (Table.latestBy_mem (State.approvalOf_staged happroval).1.1)
      obtain ⟨plan, output, hplan, hlast⟩ := hb.rows _ hj hpassed
      rw [Option.some.inj (hplan.symm.trans hown), hsame] at hlast
      exact ⟨output, hlast⟩
    | _ => trivial

end Rows

/-! ## Every run -/

theorem backed_inductive (c : Settings) :
    (machine c C).Inductive (fun s a => approvesUnverified c s a = false)
      fun s => s.Inv ∧ s.Backed := by
  refine ((inv_inductive c).mono fun _ _ _ => trivial).assuming ?_ ?_
  · rintro s rfl
    exact ⟨fun x hx => absurd hx List.not_mem_nil, fun job hj => absurd hj List.not_mem_nil,
      fun later e earlier hlog => absurd hlog.symm (by simp)⟩
  · intro s a s' hI hb hbad hstep
    obtain ⟨hfresh, s₁, hmove, rfl⟩ := step_move hI.sound hstep
    have hlive := hmove.backed_live hI hfresh hb
    have hrows := hmove.backed_rows hI hfresh hbad hb
    have hplacements := hmove.backed_placements hI hfresh hbad hb
    exact ⟨hlive, hrows, hplacements⟩

/-- A film with two video streams. Its plan asks for a review; the approved job stages an output that
cannot be read. Its failure meets the protection of the film, and is approved. -/
def unreadableRun : List (Action String) := [
  actAt 0 "film" (.request (.planFile film twoVideoFilm englishPolicy { enabled := false })),
  actAt 0 "job1" (.approveItem "film" ⟨stagedFiles, noFaults, []⟩),
  actAt 0 "a" (registers "a"),
  actAt 1 "claim" (.claim "a" "job1" true film),
  actAt 1 "begin" (.work "job1" .begin),
  actAt 2 "staged" (.work "job1" (.run (.staged home.scratchDir) 0)),
  actAt 2 "verifying" (.work "job1" .proceed),
  actAt 3 "verified" (.work "job1" (.verify (.unreadable "moov atom not found") none)),
  actAt 3 "protect" (.request (.markProtected "film")),
  actAt 4 "submit" (.work "job1" .submit),
  { actAt 5 "approve" (.approveItem "film" ⟨stagedFiles, noFaults, []⟩) with exists_ := fun _ => true }]

end Encodr
