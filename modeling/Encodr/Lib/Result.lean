import Mathlib.Data.Option.Basic

/-!
# Checked operations

Operations that return a value or an error, built from checks: `require` raises unless a condition
holds, `found` raises where a value is missing.

* `bind_ok`, `require_ok`, `found_ok`: what a successful step says; with them an operation that
  succeeded comes apart into its checks and its values.
-/

namespace Lib

variable {ε α β : Type} {e : ε}

/-- Raise `e` unless `c`. -/
def require (c : Prop) [Decidable c] (e : ε) : Except ε Unit :=
  if c then .ok () else .error e

/-- The value, or `e` where there is none. -/
def found (e : ε) : Option α → Except ε α
  | some a => .ok a
  | none => .error e

theorem bind_ok {x : Except ε α} {f : α → Except ε β} {b : β} :
    (x >>= f) = .ok b ↔ ∃ a, x = .ok a ∧ f a = .ok b := by
  cases x with
  | error e => simp [bind, Except.bind]
  | ok a => simp [bind, Except.bind]

@[simp] theorem require_ok {c : Prop} [Decidable c] {u : Unit} : require c e = .ok u ↔ c := by
  unfold require
  split <;> simp [*]

@[simp] theorem found_ok {o : Option α} {a : α} : found e o = .ok a ↔ o = some a := by
  cases o <;> simp [found]

@[simp] theorem return_ok {a b : α} : (pure a : Except ε α) = .ok b ↔ a = b :=
  ⟨Except.ok.inj, congrArg _⟩

theorem map_ok {f : α → β} {x : Except ε α} {b : β} :
    (f <$> x) = .ok b ↔ ∃ a, x = .ok a ∧ f a = b := by
  cases x with
  | error e => simp [Functor.map, Except.map]
  | ok a => simp [Functor.map, Except.map]

theorem toOption_eq_some {x : Except ε α} {a : α} : x.toOption = some a ↔ x = .ok a := by
  cases x <;> simp [Except.toOption]

/-- A check before the rest of an operation. -/
theorem require_bind_ok {c : Prop} [Decidable c] {f : Unit → Except ε β} {b : β} :
    (require c e >>= f) = .ok b ↔ c ∧ f () = .ok b := by
  by_cases hc : c <;> simp [require, hc, bind, Except.bind]

/-- A lookup before the rest of an operation. -/
theorem found_bind_ok {o : Option α} {f : α → Except ε β} {b : β} :
    (found e o >>= f) = .ok b ↔ ∃ a, o = some a ∧ f a = .ok b := by
  simp [bind_ok]

/-- A check that is made in some cases only, before the rest of an operation. -/
theorem optional_bind_ok {c : Prop} [Decidable c] {x : Except ε Unit} {y : Except ε β} {b : β}
    (h : (if c then x >>= fun _ => y else y) = .ok b) : y = .ok b := by
  split at h
  · obtain ⟨_, -, hy⟩ := bind_ok.mp h
    exact hy
  · exact h

/-- An operation on a value that may be missing. -/
theorem mapM_ok {f : α → Except ε β} {o : Option α} {o' : Option β} :
    o.mapM f = .ok o' ↔ (o = none ∧ o' = none) ∨ ∃ a b, o = some a ∧ f a = .ok b ∧ o' = some b := by
  cases o with
  | none =>
    have h : Option.mapM f none = .ok o' ↔ none = o' := return_ok
    rw [h]
    simp [eq_comm]
  | some a =>
    have h : Option.mapM f (some a) = some <$> f a := rfl
    rw [h]
    cases hf : f a with
    | error e => simp [hf, Functor.map, Except.map]
    | ok b => simp [hf, Functor.map, Except.map, eq_comm]

end Lib
