import Mathlib.Data.List.Nodup
import Encodr.Lib.Transition

/-!
# Sessions that read, decide and write

Sessions work on one table of rows. An operation reads the table, decides which rows it changes, and
writes them later, whatever the rows are by then. A conditional update reads and writes a row in one
step. The version of a row counts the changes of it that are committed.

* `Sessions`, `Sessions.step`, `Sessions.sys`: the operations and their interleavings.
* `Sessions.apply`, `Sessions.write_after_read`: an operation whose phases follow each other.
* `Store.overwritten`: the rows that a session has written after another change than it had read.
* `Sessions.Alone`, `Sessions.Alone.no_overwrite`: where no change is committed while another session is
  between its read and its write of the row, nothing is overwritten.
-/

namespace Lib

/-- The operations and the conditional updates of a table. -/
structure Sessions (κ ρ ο υ : Type) where
  key : ρ → κ
  /-- The operation changes the row, as it reads the table. -/
  decides : ο → List ρ → ρ → Bool
  /-- What the operation writes into a row. -/
  writes : ο → List ρ → ρ → ρ
  /-- The update applies to the row, as the table is. -/
  applies : υ → List ρ → ρ → Bool
  changes : υ → ρ → ρ

/-- An operation between its read and its write: the table it has read, and the rows it has decided to
change, with the versions of them that it has read. -/
structure Pending (κ ρ ο : Type) where
  op : ο
  read : List ρ
  seen : List (κ × Nat)

def Pending.keys {κ ρ ο : Type} (p : Pending κ ρ ο) : List κ :=
  p.seen.map Prod.fst

structure Store (ι κ ρ ο : Type) where
  rows : List ρ
  version : κ → Nat := fun _ => 0
  pending : ι → Option (Pending κ ρ ο) := fun _ => none
  overwritten : List (ι × κ) := []

namespace Sessions

inductive Act (ι ο υ : Type) where
  | read (i : ι) (op : ο)
  | write (i : ι)
  /-- The session gives up. -/
  | abandon (i : ι)
  | update (u : υ)

variable {ι κ ρ ο υ : Type} [DecidableEq ι] [DecidableEq κ] (S : Sessions κ ρ ο υ)

/-- The changes of the rows with these keys are committed. -/
def bump (keys : List κ) (version : κ → Nat) : κ → Nat :=
  fun k => if k ∈ keys then version k + 1 else version k

/-- The keys of the rows that an update applies to. -/
def updated (u : υ) (rows : List ρ) : List κ :=
  (rows.filter (S.applies u rows)).map S.key

def step (s : Store ι κ ρ ο) : Act ι ο υ → Option (Store ι κ ρ ο)
  | .read i op =>
    if (s.pending i).isSome then none
    else
      let seen := (s.rows.filter (S.decides op s.rows)).map fun r => (S.key r, s.version (S.key r))
      some { s with pending := Function.update s.pending i (some ⟨op, s.rows, seen⟩) }
  | .write i =>
    (s.pending i).map fun p =>
      { rows := s.rows.map fun r => if S.key r ∈ p.keys then S.writes p.op p.read r else r
        version := bump p.keys s.version
        pending := Function.update s.pending i none
        overwritten := ((p.seen.filter fun kv => s.version kv.1 ≠ kv.2).map fun kv => (i, kv.1)) ++
          s.overwritten }
  | .abandon i => some { s with pending := Function.update s.pending i none }
  | .update u =>
    some { s with
      rows := s.rows.map fun r => if S.applies u s.rows r then S.changes u r else r
      version := bump (S.updated u s.rows) s.version }

/-- The sessions, on a table where nothing is pending. -/
def sys : Sys (Store ι κ ρ ο) (Act ι ο υ) where
  init s := (∀ i, s.pending i = none) ∧ s.overwritten = []
  step := S.step

/-- What an operation makes of a table that nobody else changes. -/
def apply (op : ο) (rows : List ρ) : List ρ :=
  rows.map fun r => if S.decides op rows r then S.writes op rows r else r

/-! ## Without overlap -/

/-- A change is committed while no other session is between its read and its write of the row. -/
def Alone (s : Store ι κ ρ ο) : Act ι ο υ → Prop
  | .read _ _ | .abandon _ => True
  | .write i => ∀ p, s.pending i = some p → ∀ j, j ≠ i → ∀ q, s.pending j = some q →
      ∀ k ∈ p.keys, k ∉ q.keys
  | .update u => ∀ j q, s.pending j = some q → ∀ k ∈ S.updated u s.rows, k ∉ q.keys

/-- What a session has read of the rows that it is about to write is still so. -/
structure Fresh (s : Store ι κ ρ ο) : Prop where
  seen : ∀ i p, s.pending i = some p → ∀ kv ∈ p.seen, s.version kv.1 = kv.2
  overwritten : s.overwritten = []

variable {S} {s s' : Store ι κ ρ ο} {a : Act ι ο υ}

/-- A read with its write right after it, in a table where keys are distinct. -/
theorem write_after_read {s'' : Store ι κ ρ ο} {i : ι} {op : ο} (hkeys : (s.rows.map S.key).Nodup)
    (hread : S.step s (.read i op) = some s') (hwrite : S.step s' (.write i) = some s'') :
    s''.rows = S.apply op s.rows := by
  simp only [Sessions.step] at hread
  split at hread
  · cases hread
  · obtain rfl := Option.some.inj hread
    simp only [Sessions.step, Function.update_self, Option.map_some, Option.some.injEq] at hwrite
    subst hwrite
    refine List.map_congr_left fun r hr => ?_
    -- a row whose key is to be written is the row that was decided on
    have hmem : S.key r ∈ ((s.rows.filter (S.decides op s.rows)).map fun r =>
        (S.key r, s.version (S.key r))).map Prod.fst ↔ S.decides op s.rows r = true := by
      simp only [List.map_map, List.mem_map, List.mem_filter, Function.comp_apply]
      constructor
      · rintro ⟨r', ⟨hr', hd⟩, hkey⟩
        rwa [List.inj_on_of_nodup_map hkeys hr' hr hkey] at hd
      · exact fun hd => ⟨r, ⟨hr, hd⟩, rfl⟩
    simp only [Pending.keys, hmem]

theorem bump_of_not_mem {keys : List κ} {version : κ → Nat} {k : κ} (h : k ∉ keys) :
    bump keys version k = version k :=
  if_neg h

/-- Where the changed rows are not among those of a session, what it has read is still so. -/
theorem seen_bump {keys : List κ} {version : κ → Nat} {p : Pending κ ρ ο}
    (h : ∀ kv ∈ p.seen, version kv.1 = kv.2) (hkeys : ∀ k ∈ keys, k ∉ p.keys) :
    ∀ kv ∈ p.seen, bump keys version kv.1 = kv.2 := by
  intro kv hkv
  have hmem : kv.1 ∈ p.keys := List.mem_map_of_mem hkv
  rw [bump_of_not_mem fun hk => hkeys _ hk hmem]
  exact h kv hkv

theorem Fresh.step (hs : Fresh s) (ha : S.Alone s a) (h : S.step s a = some s') : Fresh s' := by
  cases a with
  | read i op =>
    simp only [Sessions.step] at h
    split at h
    · cases h
    · obtain rfl := Option.some.inj h
      refine ⟨fun j p hp kv hkv => ?_, hs.overwritten⟩
      by_cases hj : j = i
      · subst hj
        simp only [Function.update_self, Option.some.injEq] at hp
        subst hp
        obtain ⟨r, -, rfl⟩ := List.mem_map.mp hkv
        rfl
      · simp only [Function.update_of_ne hj] at hp
        exact hs.seen j p hp kv hkv
  | write i =>
    simp only [Sessions.step, Option.map_eq_some_iff] at h
    obtain ⟨p, hp, rfl⟩ := h
    refine ⟨fun j q hq kv hkv => ?_, ?_⟩
    · by_cases hj : j = i
      · subst hj
        simp only [Function.update_self] at hq
        cases hq
      · simp only [Function.update_of_ne hj] at hq
        exact seen_bump (hs.seen j q hq) (fun k hk => ha p hp j hj q hq k hk) kv hkv
    · have hnone : (p.seen.filter fun kv => s.version kv.1 ≠ kv.2) = [] :=
        List.filter_eq_nil_iff.mpr fun kv hkv => by simpa using hs.seen i p hp kv hkv
      simp only [hnone, hs.overwritten, List.map_nil, List.append_nil]
  | abandon i =>
    simp only [Sessions.step] at h
    obtain rfl := Option.some.inj h
    refine ⟨fun j p hp kv hkv => ?_, hs.overwritten⟩
    by_cases hj : j = i
    · subst hj
      simp only [Function.update_self] at hp
      cases hp
    · simp only [Function.update_of_ne hj] at hp
      exact hs.seen j p hp kv hkv
  | update u =>
    simp only [Sessions.step] at h
    obtain rfl := Option.some.inj h
    exact ⟨fun j p hp kv hkv => seen_bump (hs.seen j p hp) (fun k hk => ha j p hp k hk) kv hkv,
      hs.overwritten⟩

theorem fresh_inductive :
    (S.sys : Sys (Store ι κ ρ ο) (Act ι ο υ)).Inductive S.Alone Fresh where
  init _ hinit := ⟨fun i p hp => absurd hp (by simp [hinit.1 i]), hinit.2⟩
  step _ _ _ hs ha h := hs.step ha h

/-- Without overlap nothing is overwritten. -/
theorem Alone.no_overwrite (h : S.sys.Reach S.Alone s) : s.overwritten = [] :=
  (fresh_inductive.reach h).overwritten

end Sessions

end Lib
