import Mathlib.Data.List.Basic
import Mathlib.Data.List.Nodup

/-!
# Tables of rows with a key

A table is a list of rows; a row is found and changed by its key.

* `Table.find`, `Table.modify`: the first row with a key, and a change of the rows with a key.
* `mem_modify`, `find_modify`, `find_map`, `keys_modify`: what a change does.
* `find_append`: what a new row does.
* `latestBy`: the last row of an order.
* `OnePer`: at most one active row in each group; changes that activate no row and a new row in a
  group without an active one keep it (`OnePer.map`, `OnePer.append`).
-/

namespace Lib

namespace Table

variable {κ ρ : Type} (key : ρ → κ) {rows : List ρ} {r : ρ} {k k' : κ} {f : ρ → ρ}

/-! ## Rows by key -/

section Keys

variable [DecidableEq κ]

/-- The first row with a key. -/
def find (k : κ) (rows : List ρ) : Option ρ :=
  rows.find? fun r => key r = k

/-- Change the rows with a key. -/
def modify (k : κ) (f : ρ → ρ) (rows : List ρ) : List ρ :=
  rows.map fun r => if key r = k then f r else r

variable {key}

theorem mem_of_find (h : find key k rows = some r) : r ∈ rows :=
  List.mem_of_find?_eq_some h

theorem key_of_find (h : find key k rows = some r) : key r = k := by
  simpa using List.find?_some h

/-- With distinct keys, a row of the table is the row of its key. -/
theorem find_of_mem (hnd : (rows.map key).Nodup) (h : r ∈ rows) : find key (key r) rows = some r := by
  induction rows with
  | nil => cases h
  | cons x rows ih =>
    simp only [List.map_cons, List.nodup_cons] at hnd
    rcases List.mem_cons.mp h with rfl | h
    · simp [find]
    · have hne : key x ≠ key r := fun heq => hnd.1 (heq ▸ List.mem_map_of_mem h)
      simpa [find, hne] using ih hnd.2 h

theorem mem_modify : r ∈ modify key k f rows ↔
    ∃ r₀ ∈ rows, r = if key r₀ = k then f r₀ else r₀ := by
  simp [modify, eq_comm]

theorem keys_modify (hf : ∀ r ∈ rows, key r = k → key (f r) = k) :
    (modify key k f rows).map key = rows.map key := by
  rw [modify, List.map_map]
  refine List.map_congr_left fun r hr => ?_
  simp only [Function.comp_apply]
  split
  · next h => rw [hf r hr h, h]
  · rfl

theorem find_modify (hf : ∀ r ∈ rows, key r = k → key (f r) = k) :
    find key k' (modify key k f rows) =
      (find key k' rows).map fun r => if key r = k then f r else r := by
  induction rows with
  | nil => rfl
  | cons x rows ih =>
    have ih := ih fun r hr => hf r (List.mem_cons_of_mem _ hr)
    have hx := hf x List.mem_cons_self
    simp only [find, modify, List.map_cons, List.find?_cons] at ih ⊢
    by_cases hk : key x = k
    · simp only [hk, if_true, hx hk]
      by_cases hk' : k = k' <;> simp [hk', ih, hk]
    · simp only [hk, if_false]
      by_cases hk' : key x = k'
      · simp [hk', hk' ▸ hk]
      · simp [hk', ih]

/-- A change of the rows that keeps their keys changes the row of a key. -/
theorem find_map (hf : ∀ r ∈ rows, key (f r) = key r) :
    find key k (rows.map f) = (find key k rows).map f := by
  induction rows with
  | nil => rfl
  | cons x rows ih =>
    have ih := ih fun r hr => hf r (List.mem_cons_of_mem _ hr)
    have hx := hf x List.mem_cons_self
    simp only [find, List.map_cons, List.find?_cons, hx] at ih ⊢
    by_cases hk : key x = k
    · simp [hk]
    · simp [hk, ih]

/-- A new row with a fresh key leaves the rows of the other keys. -/
theorem find_append {rows' : List ρ} (h : find key k rows = some r) :
    find key k (rows ++ rows') = some r := by
  simp only [find] at h ⊢
  rw [List.find?_append, h]
  rfl

theorem find_eq_none : find key k rows = none ↔ ∀ r ∈ rows, key r ≠ k := by
  simp [find]

end Keys

/-! ## The latest row -/

/-- The later of the best row so far and another; where `le` does not tell them apart, the other. -/
def later (le : ρ → ρ → Bool) (best : Option ρ) (r : ρ) : Option ρ :=
  match best with
  | none => some r
  | some b => if le b r then some r else some b

/-- The last row in the order `le`; of rows that it does not tell apart, the one added last. -/
def latestBy (le : ρ → ρ → Bool) (rows : List ρ) : Option ρ :=
  rows.foldl (later le) none

theorem later_eq {le : ρ → ρ → Bool} {best : Option ρ} {x : ρ} (h : later le best x = some r) :
    r = x ∨ best = some r := by
  unfold later at h
  split at h
  · exact .inl (Option.some.inj h).symm
  · split at h
    · exact .inl (Option.some.inj h).symm
    · exact .inr h

theorem foldl_later_mem {le : ρ → ρ → Bool} {best : Option ρ}
    (h : rows.foldl (later le) best = some r) : r ∈ rows ∨ best = some r := by
  induction rows generalizing best with
  | nil => exact .inr h
  | cons x rows ih =>
    rcases ih h with hmem | hbest
    · exact .inl (List.mem_cons_of_mem _ hmem)
    · exact (later_eq hbest).imp_left (List.mem_cons.mpr <| .inl ·)

theorem latestBy_mem {le : ρ → ρ → Bool} (h : latestBy le rows = some r) : r ∈ rows :=
  (foldl_later_mem h).resolve_right nofun

/-! ## One active row in each group -/

section OnePer

variable {key} {γ : Type} {group : ρ → γ} {active : ρ → Bool}

/-- Two active rows of one group have the same key. -/
def OnePer (key : ρ → κ) (group : ρ → γ) (active : ρ → Bool) (rows : List ρ) : Prop :=
  ∀ a ∈ rows, ∀ b ∈ rows, active a = true → active b = true → group a = group b → key a = key b

/-- A change that keeps keys and groups and activates no row. -/
theorem OnePer.map (h : OnePer key group active rows) (hkey : ∀ r ∈ rows, key (f r) = key r)
    (hgroup : ∀ r ∈ rows, group (f r) = group r)
    (hactive : ∀ r ∈ rows, active (f r) = true → active r = true) :
    OnePer key group active (rows.map f) := by
  intro a ha b hb haa hba hab
  obtain ⟨a, ha₀, rfl⟩ := List.mem_map.mp ha
  obtain ⟨b, hb₀, rfl⟩ := List.mem_map.mp hb
  rw [hgroup a ha₀, hgroup b hb₀] at hab
  rw [hkey a ha₀, hkey b hb₀]
  exact h a ha₀ b hb₀ (hactive a ha₀ haa) (hactive b hb₀ hba) hab

/-- A new row that is active only in a group without an active row. -/
theorem OnePer.append (h : OnePer key group active rows)
    (hnew : active r = true → ∀ r' ∈ rows, active r' = true → group r' ≠ group r) :
    OnePer key group active (rows ++ [r]) := by
  intro a ha b hb haa hba hab
  rw [List.mem_append, List.mem_singleton] at ha hb
  rcases ha with ha | rfl
  · rcases hb with hb | rfl
    · exact h a ha b hb haa hba hab
    · exact absurd hab (hnew hba a ha haa)
  · rcases hb with hb | rfl
    · exact absurd hab.symm (hnew haa b hb hba)
    · rfl

end OnePer

end Table

end Lib
