import Mathlib.Logic.Function.Basic

/-!
# Systems of actions and their invariants

A system has initial states and a partial step for each action; an action that is refused has no
step. A run may have to meet a condition at each of its steps, on the state before the step and on
the action.

* `Sys.Reach`: the states that the runs with a condition reach; `Sys.Reachable` has no condition.
* `Sys.Inductive`: an invariant of these runs; `Inductive.reach` proves it of every state reached.
* `Inductive.assuming`: an invariant that needs another one for its steps.
* `run`, `run_mono`, `Reach.run`, `Reach.after`, `Reachable.run`: the state after a list of actions is
  reached.
* `Lockstep`, `Lockstep.run`: two runs of the same actions that stay related.
-/

namespace Lib

/-- Initial states, and the step of each action. -/
structure Sys (σ α : Type) where
  init : σ → Prop
  step : σ → α → Option σ

namespace Sys

variable {σ α : Type} {S : Sys σ α} {C D : σ → α → Prop} {I J : σ → Prop} {s s' : σ}

/-- The states of the runs whose steps all meet `C`. -/
inductive Reach (S : Sys σ α) (C : σ → α → Prop) : σ → Prop
  | init {s : σ} (h : S.init s) : Reach S C s
  | step {s s' : σ} (a : α) (hs : Reach S C s) (hC : C s a) (h : S.step s a = some s') : Reach S C s'

/-- The states of all runs. -/
abbrev Reachable (S : Sys σ α) : σ → Prop := S.Reach fun _ _ => True

/-- A weaker condition reaches more. -/
theorem Reach.mono (hCD : ∀ s a, C s a → D s a) (h : S.Reach C s) : S.Reach D s := by
  induction h with
  | init h => exact .init h
  | step a _ hC h ih => exact .step a ih (hCD _ _ hC) h

/-- It holds initially, and every step that meets the condition keeps it. -/
structure Inductive (S : Sys σ α) (C : σ → α → Prop) (I : σ → Prop) : Prop where
  init : ∀ s, S.init s → I s
  step : ∀ s a s', I s → C s a → S.step s a = some s' → I s'

theorem Inductive.reach (hI : S.Inductive C I) (h : S.Reach C s) : I s := by
  induction h with
  | init h => exact hI.init _ h
  | step a _ hC h ih => exact hI.step _ a _ ih hC h

/-- An invariant under a weaker condition is one under a stronger condition. -/
theorem Inductive.mono (hCD : ∀ s a, C s a → D s a) (hI : S.Inductive D I) : S.Inductive C I :=
  ⟨hI.init, fun s a s' hs hC h => hI.step s a s' hs (hCD _ _ hC) h⟩

/-- The steps of `J` may use `I`. -/
theorem Inductive.assuming (hI : S.Inductive C I) (hinit : ∀ s, S.init s → J s)
    (hstep : ∀ s a s', I s → J s → C s a → S.step s a = some s' → J s') :
    S.Inductive C fun s => I s ∧ J s :=
  ⟨fun s h => ⟨hI.init s h, hinit s h⟩,
    fun s a s' hs hC h => ⟨hI.step s a s' hs.1 hC h, hstep s a s' hs.1 hs.2 hC h⟩⟩

/-- The state after a list of actions that all meet `c`. -/
def run (S : Sys σ α) (c : σ → α → Bool) : σ → List α → Option σ
  | s, [] => some s
  | s, a :: as => if c s a then (S.step s a).bind fun s' => S.run c s' as else none

/-- A run that meets a condition meets a weaker one. -/
theorem run_mono {c d : σ → α → Bool} {as : List α} (hcd : ∀ s a, c s a = true → d s a = true)
    (h : S.run c s as = some s') : S.run d s as = some s' := by
  induction as generalizing s with
  | nil => exact h
  | cons a as ih =>
    simp only [Sys.run] at h ⊢
    split at h
    · next hc =>
      obtain ⟨s₁, hs₁, hrest⟩ := Option.bind_eq_some_iff.mp h
      rw [if_pos (hcd s a hc), hs₁]
      exact ih hrest
    · cases h

/-- A run of all actions of a list reaches its last state. -/
theorem Reach.run (c : σ → α → Bool) (as : List α) (h : S.Reach (fun s a => c s a = true) s)
    (hrun : S.run c s as = some s') : S.Reach (fun s a => c s a = true) s' := by
  induction as generalizing s with
  | nil => exact Option.some.inj hrun ▸ h
  | cons a as ih =>
    simp only [Sys.run] at hrun
    split at hrun
    · next hc =>
      obtain ⟨s₁, hs₁, hrest⟩ := Option.bind_eq_some_iff.mp hrun
      exact ih (.step a h hc hs₁) hrest
    · cases hrun

/-- The state after a run in which no step does what `bad` says is reached without it. -/
theorem Reach.after (bad : σ → α → Bool) (as : List α) (hinit : S.init s)
    (h : (S.run (fun s a => !bad s a) s as).isSome = true) :
    S.Reach (fun s a => bad s a = false) ((S.run (fun _ _ => true) s as).getD s) := by
  obtain ⟨s', hs'⟩ := Option.isSome_iff_exists.mp h
  rw [run_mono (fun _ _ _ => rfl) hs']
  exact (Reach.run _ as (.init hinit) hs').mono fun s a hC => by simpa using hC

theorem Reachable.run (as : List α) (h : S.init s)
    (hrun : S.run (fun _ _ => true) s as = some s') : S.Reachable s' :=
  (Reach.run _ as (.init h) hrun).mono fun _ _ _ => trivial

/-! ## Two runs -/

/-- Related states take the same actions, and are related after each of them. -/
def Lockstep (S : Sys σ α) (R : σ → σ → Prop) : Prop :=
  ∀ s t a, R s t → Option.Rel R (S.step s a) (S.step t a)

/-- Two states that a relation keeps in lockstep are related after every list of actions. -/
theorem Lockstep.run {R : σ → σ → Prop} {t : σ} (hR : S.Lockstep R) (h : R s t) (as : List α) :
    Option.Rel R (S.run (fun _ _ => true) s as) (S.run (fun _ _ => true) t as) := by
  induction as generalizing s t with
  | nil => exact .some h
  | cons a as ih =>
    simp only [Sys.run, if_true]
    have hstep := hR s t a h
    cases hs : S.step s a with
    | none =>
      cases ht : S.step t a with
      | none => exact .none
      | some t' =>
        rw [hs, ht] at hstep
        cases hstep
    | some s' =>
      cases ht : S.step t a with
      | none =>
        rw [hs, ht] at hstep
        cases hstep
      | some t' =>
        rw [hs, ht] at hstep
        cases hstep with
        | some hrel => exact ih hrel

/-- Related values look the same where the relation says so. -/
theorem map_eq_of_rel {β : Type} {R : σ → σ → Prop} {view : σ → β} {x y : Option σ}
    (hview : ∀ s t, R s t → view s = view t) (h : Option.Rel R x y) : x.map view = y.map view := by
  cases h with
  | some h => exact congrArg some (hview _ _ h)
  | none => rfl

end Sys

end Lib
