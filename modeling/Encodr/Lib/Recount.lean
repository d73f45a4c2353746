import Mathlib.Data.List.Nodup

/-!
# Aggregates of a table

An aggregate is a value that rows are added to, one at a time and in any order. The recount of a table
adds all its rows to the empty value; an aggregate that is kept beside the table is right where it is
the recount.

* `Tally`, `Tally.count`: an aggregate, and the recount.
* `Tally.Silent`: rows that do not count.
* `count_append`, `count_append_silent`, `count_replace`: the recount after a new row, and after a row
  that did not count has become one that does.
-/

namespace Lib

/-- A value that rows are added to, in any order. -/
structure Tally (ρ α : Type) where
  empty : α
  add : α → ρ → α
  comm : ∀ a r r', add (add a r) r' = add (add a r') r

namespace Tally

variable {ρ α κ τ : Type} (T : Tally ρ α) {r : ρ} {xs : List τ} {f g : τ → ρ}

/-- The recount of a table. -/
def count (rows : List ρ) : α :=
  rows.foldl T.add T.empty

/-- The row does not count. -/
def Silent (r : ρ) : Prop :=
  ∀ a, T.add a r = a

variable {T}

/-- A new row is added to the recount. -/
theorem count_append (rows : List ρ) (r : ρ) : T.count (rows ++ [r]) = T.add (T.count rows) r := by
  simp [count, List.foldl_append]

theorem count_append_silent (rows : List ρ) (h : T.Silent r) : T.count (rows ++ [r]) = T.count rows := by
  rw [count_append, h]

/-- A row that is added first may be added last. -/
theorem foldl_add (a : α) (r : ρ) (rows : List ρ) :
    rows.foldl T.add (T.add a r) = T.add (rows.foldl T.add a) r := by
  induction rows generalizing a with
  | nil => rfl
  | cons r' rows ih => rw [List.foldl_cons, T.comm, ih, List.foldl_cons]

/-- One row that did not count is replaced: the new one is added to the recount. -/
theorem count_replace {key : τ → κ} {x : τ} (hnd : (xs.map key).Nodup) (hx : x ∈ xs)
    (hsilent : T.Silent (f x)) (hothers : ∀ y ∈ xs, key y ≠ key x → g y = f y) :
    T.count (xs.map g) = T.add (T.count (xs.map f)) (g x) := by
  obtain ⟨before, after, rfl⟩ := List.append_of_mem hx
  have hne : ∀ y ∈ before ++ after, key y ≠ key x := by
    intro y hy heq
    simp only [List.map_append, List.map_cons] at hnd
    have hmem : key y ∈ before.map key ++ after.map key := by
      rw [← List.map_append]
      exact List.mem_map_of_mem hy
    exact (List.nodup_cons.mp (List.nodup_middle.mp hnd)).1 (heq ▸ hmem)
  have hbefore : before.map g = before.map f :=
    List.map_congr_left fun y hy => hothers y (by simp [hy]) (hne y (by simp [hy]))
  have hafter : after.map g = after.map f :=
    List.map_congr_left fun y hy => hothers y (by simp [hy]) (hne y (by simp [hy]))
  simp only [count, List.map_append, List.map_cons, List.foldl_append, List.foldl_cons]
  rw [foldl_add, hsilent, hbefore, hafter]

end Tally

end Lib
