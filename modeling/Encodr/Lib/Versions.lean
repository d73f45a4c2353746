import Mathlib.Logic.Function.Basic

/-!
# Rows under read-committed transactions

A row has its committed version and, while a transaction holds its lock, the version of that transaction.
The lock is part of the row, so that no two transactions hold it. A transaction sees its own version of a
row, or else the committed one, and waits where another transaction holds the lock of a row that it is to
write.

* `Versioned.visible`, `waits`, `write`: what a transaction reads and writes.
* `Versioned.commit`, `rollback`: the end of a transaction.
* `committed_commit`, `locked_commit`: what a commit makes of a row.
-/

namespace Lib

structure Versioned (ι ρ : Type) where
  committed : Option ρ := none
  locked : Option (ι × ρ) := none

namespace Versioned

variable {ι ρ : Type} [DecidableEq ι]

/-- The version that the transaction has written, or else the committed one. -/
def visible (i : ι) (row : Versioned ι ρ) : Option ρ :=
  match row.locked with
  | some (j, r) => if j = i then some r else row.committed
  | none => row.committed

/-- Another transaction holds the lock. -/
def waits (i : ι) (row : Versioned ι ρ) : Bool :=
  row.locked.any fun (j, _) => j ≠ i

/-- The transaction takes the lock and writes its version. -/
def write (i : ι) (r : ρ) (row : Versioned ι ρ) : Versioned ι ρ :=
  { row with locked := some (i, r) }

/-- The version of the transaction becomes the committed one. -/
def commit (i : ι) (row : Versioned ι ρ) : Versioned ι ρ :=
  match row.locked with
  | some (j, r) => if j = i then { committed := some r } else row
  | none => row

/-- The version of the transaction is dropped. -/
def rollback (i : ι) (row : Versioned ι ρ) : Versioned ι ρ :=
  match row.locked with
  | some (j, _) => if j = i then { row with locked := none } else row
  | none => row

variable {i j : ι} {r : ρ} {row : Versioned ι ρ}

omit [DecidableEq ι] in
@[simp] theorem write_committed : (row.write i r).committed = row.committed := rfl

omit [DecidableEq ι] in
@[simp] theorem write_locked : (row.write i r).locked = some (i, r) := rfl

/-- Who need not wait for a row that is locked holds the lock. -/
theorem owner_eq (hwaits : row.waits i = false) (hlocked : row.locked = some (j, r)) : j = i := by
  simpa [waits, hlocked] using hwaits

theorem visible_of_locked (h : row.locked = some (i, r)) : row.visible i = some r := by
  unfold visible
  rw [h]
  exact if_pos rfl

/-- A transaction that holds no lock sees what is committed. -/
theorem visible_of_other (h : ∀ r, row.locked ≠ some (i, r)) : row.visible i = row.committed := by
  unfold visible
  cases hlocked : row.locked with
  | none => rfl
  | some l => exact if_neg fun hij : l.1 = i => h l.2 (hij ▸ hlocked)

theorem commit_of_locked (h : row.locked = some (i, r)) : row.commit i = { committed := some r } := by
  unfold commit
  rw [h]
  exact if_pos rfl

theorem commit_of_other (h : ∀ r, row.locked ≠ some (i, r)) : row.commit i = row := by
  unfold commit
  cases hlocked : row.locked with
  | none => rfl
  | some l => exact if_neg fun hij : l.1 = i => h l.2 (hij ▸ hlocked)

theorem rollback_of_locked (h : row.locked = some (i, r)) :
    row.rollback i = { row with locked := none } := by
  unfold rollback
  rw [h]
  exact if_pos rfl

theorem rollback_of_other (h : ∀ r, row.locked ≠ some (i, r)) : row.rollback i = row := by
  unfold rollback
  cases hlocked : row.locked with
  | none => rfl
  | some l => exact if_neg fun hij : l.1 = i => h l.2 (hij ▸ hlocked)

omit [DecidableEq ι] in
/-- A transaction holds the lock of a row, or it does not. -/
theorem locked_cases (i : ι) (row : Versioned ι ρ) :
    (∃ r, row.locked = some (i, r)) ∨ ∀ r, row.locked ≠ some (i, r) :=
  (Classical.em _).imp_right fun h r hr => h ⟨r, hr⟩

/-- What is committed after a commit: the version of the transaction, or what was committed before. -/
theorem committed_commit (h : (row.commit i).committed = some r) :
    row.locked = some (i, r) ∨ row.committed = some r ∧ row.commit i = row := by
  rcases locked_cases i row with ⟨r', hlocked⟩ | hother
  · rw [commit_of_locked hlocked] at h
    exact .inl (hlocked.trans (congrArg (fun r => some (i, r)) (Option.some.inj h)))
  · have heq := commit_of_other hother
    exact .inr ⟨by rwa [heq] at h, heq⟩

/-- A commit drops no row. -/
theorem commit_ne_none (h : row.committed ≠ none) : (row.commit i).committed ≠ none := by
  rcases locked_cases i row with ⟨r, hlocked⟩ | hother
  · rw [commit_of_locked hlocked]
    nofun
  · rwa [commit_of_other hother]

/-- The locks of the others stay. -/
theorem locked_commit (h : (row.commit i).locked = some (j, r)) : row.commit i = row ∧ j ≠ i := by
  rcases locked_cases i row with ⟨r', hlocked⟩ | hother
  · rw [commit_of_locked hlocked] at h
    cases h
  · have heq := commit_of_other hother
    rw [heq] at h
    exact ⟨heq, fun hij => hother r (hij ▸ h)⟩

@[simp] theorem rollback_committed : (row.rollback i).committed = row.committed := by
  rcases locked_cases i row with ⟨r, hlocked⟩ | hother
  · rw [rollback_of_locked hlocked]
  · rw [rollback_of_other hother]

theorem locked_rollback (h : (row.rollback i).locked = some (j, r)) : row.rollback i = row ∧ j ≠ i := by
  rcases locked_cases i row with ⟨r', hlocked⟩ | hother
  · rw [rollback_of_locked hlocked] at h
    cases h
  · have heq := rollback_of_other hother
    rw [heq] at h
    exact ⟨heq, fun hij => hother r (hij ▸ h)⟩

end Versioned

end Lib
