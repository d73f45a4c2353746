import Encodr.Db.Database
import Encodr.Db.FileQueries
import Encodr.Lib.Pages

/-!
# The listing of backups

`list_backup_jobs` pages through the jobs whose backup file exists. The database does not know which files
exist: the rows are read in batches, and the loop over a batch skips and collects those with a file.

* `collectCandidates`, `collectBackups`: the loops over a batch and over the batches.
* `collectCandidates_spec`: what one batch adds.
* `collectBackups_eq`: what all of them add.
* `listBackupJobs_pages`: the listing is a page of the rows with a file.
-/

namespace Encodr

open Python Lib

/-! ## The query -/

/-- The order of two optional times, where `nullsFirst` says if the database puts a missing value before
the others in a descending order. -/
def descendingTime (nullsFirst : Bool) : Option Time → Option Time → Ordering
  | none, none => .eq
  | none, some _ => if nullsFirst then .lt else .gt
  | some _, none => if nullsFirst then .gt else .lt
  | some a, some b => compare b a

/-- The order of `list_backup_jobs`. -/
def backupOrder (nullsFirst : Bool) (a b : Job) : Bool :=
  ((descendingTime nullsFirst a.completedAt b.completedAt).then
    ((compare b.updatedAt a.updatedAt).then
      ((compare b.createdAt a.createdAt).then (compare b.id a.id)))).isLE

/-- `_apply_backup_search`. -/
def backupSearch (db : Database) (search : Option String) (job : Job) : Bool :=
  let cleaned := lower (strip (textOr search ""))
  let found (text : String) : Bool := like (lower text) ("%" ++ cleaned ++ "%")
  cleaned = "" ||
    job.originalBackupPath.any (fun path => found path.asPosix) ||
    (db.trackedFile job.trackedFileId).any fun file =>
      found file.sourcePath.asPosix || found file.sourcePath.name

/-- The rows with a backup that is neither deleted nor restored. -/
def isBackupRow (db : Database) (search : Option String) (job : Job) : Bool :=
  job.originalBackupPath.isSome && job.backupDeletedAt.isNone && job.backupRestoredAt.isNone &&
    backupSearch db search job

/-- The rows of the query of `list_backup_jobs`. -/
def backupRows (nullsFirst : Bool) (db : Database) (search : Option String) : List Job :=
  (db.jobs.filter (isBackupRow db search)).insertionSort fun a b => backupOrder nullsFirst a b

/-! ## The loops -/

section Loops

variable (fileExists : PosixPath → Bool)

/-- The backup file of a job exists. -/
def backupPresent (job : Job) : Bool :=
  job.originalBackupPath.any fileExists

/-- A listing that is complete, or one that goes on. -/
inductive Collecting where
  | full (collected : List Job)
  | more (skip : Nat) (collected : List Job)

/-- The loop of `list_backup_jobs` over a batch. -/
def collectCandidates (target : Option Nat) : List Job → Nat → List Job → Collecting
  | [], skip, collected => .more skip collected
  | job :: candidates, skip, collected =>
    if !backupPresent fileExists job then collectCandidates target candidates skip collected
    else if 0 < skip then collectCandidates target candidates (skip - 1) collected
    else if target.any (· ≤ (collected ++ [job]).length) then .full (collected ++ [job])
    else collectCandidates target candidates skip (collected ++ [job])

/-- The loop of `list_backup_jobs` over the batches. -/
def collectBackups (target : Option Nat) (batchSize : Nat) (rows : List Job) (queryOffset skip : Nat)
    (collected : List Job) : List Job :=
  let candidates := (rows.drop queryOffset).take batchSize
  if candidates = [] then collected
  else
    match collectCandidates fileExists target candidates skip collected with
    | .full collected => collected
    | .more skip collected =>
      if candidates.length < batchSize then collected
      else collectBackups target batchSize rows (queryOffset + batchSize) skip collected
termination_by rows.length - queryOffset
decreasing_by
  have hpos := List.length_pos_iff.mpr ‹¬candidates = []›
  simp only [candidates, List.length_take, List.length_drop] at hpos
  omega

/-- `list_backup_jobs`, where missing backups are left out, with batches of any size. -/
def listBackupJobsBy (batchSize : Nat) (rows : List Job) (limit offset : Option Int) : List Job :=
  let target := limit.map fun limit => (max 0 limit).toNat
  if target = some 0 then []
  else collectBackups fileExists target batchSize rows 0 (max 0 (offset.getD 0)).toNat []

/-- `_backup_listing_batch_size`. -/
def backupListingBatchSize (limit : Option Int) : Nat :=
  match limit with
  | none => 250
  | some limit => (max 25 (min 250 limit)).toNat

/-- `list_backup_jobs`, where missing backups are left out. -/
def listBackupJobs (nullsFirst : Bool) (db : Database) (search : Option String)
    (limit offset : Option Int) : List Job :=
  listBackupJobsBy fileExists (backupListingBatchSize limit) (backupRows nullsFirst db search) limit offset

/-- `count_backup_jobs`. -/
def countBackupJobs (db : Database) (search : Option String) : Nat :=
  ((db.jobs.filter (isBackupRow db search)).map (·.originalBackupPath)).countP (·.any fileExists)

/-! ## One batch -/

variable {fileExists} {target : Option Nat}

/-- What a batch does where the target is not reached yet: the candidates with a file come after what was
collected, but for those still to be skipped. -/
theorem collectCandidates_spec (candidates : List Job) (skip : Nat) (collected : List Job)
    (h : ∀ n ∈ target, collected.length < n) :
    match collectCandidates fileExists target candidates skip collected with
    | .full all => ∃ n ∈ target,
        n ≤ (collected ++ (candidates.filter (backupPresent fileExists)).drop skip).length ∧
        all = (collected ++ (candidates.filter (backupPresent fileExists)).drop skip).take n
    | .more left all =>
        left = skip - (candidates.filter (backupPresent fileExists)).length ∧
        all = collected ++ (candidates.filter (backupPresent fileExists)).drop skip ∧
        ∀ n ∈ target, all.length < n := by
  induction candidates generalizing skip collected with
  | nil => simpa [collectCandidates] using h
  | cons job candidates ih =>
    by_cases hpresent : backupPresent fileExists job = true
    · rw [collectCandidates, if_neg (by simpa using hpresent), List.filter_cons_of_pos hpresent]
      by_cases hskip : 0 < skip
      · obtain ⟨skip, rfl⟩ := Nat.exists_eq_add_one.mpr hskip
        rw [if_pos hskip, Nat.add_sub_cancel]
        simpa using ih skip collected h
      · obtain rfl : skip = 0 := by omega
        rw [if_neg hskip]
        by_cases hfull : target.any (· ≤ (collected ++ [job]).length) = true
        · rw [if_pos hfull]
          obtain ⟨n, hn, hle⟩ := (Option.any_eq_true _ _).mp hfull
          have hlt := h n hn
          have hlength : n = (collected ++ [job]).length := by
            rw [decide_eq_true_eq] at hle
            simp only [List.length_append, List.length_singleton] at hle ⊢
            omega
          have hcons : collected ++ job :: candidates.filter (backupPresent fileExists) =
              (collected ++ [job]) ++ candidates.filter (backupPresent fileExists) := by simp
          rw [List.drop_zero, hcons]
          refine ⟨n, hn, ?_, ?_⟩
          · rw [List.length_append, hlength]
            omega
          · rw [hlength, List.take_left]
        · rw [if_neg hfull]
          have hnext : ∀ n ∈ target, (collected ++ [job]).length < n := by
            intro n hn
            by_contra hle
            exact hfull ((Option.any_eq_true _ _).mpr ⟨n, hn, by simpa using hle⟩)
          have hrest := ih 0 (collected ++ [job]) hnext
          simp only [List.drop_zero, Nat.zero_sub, List.append_assoc, List.singleton_append] at hrest ⊢
          exact hrest
    · rw [collectCandidates, if_pos (by simpa using hpresent), List.filter_cons_of_neg hpresent]
      exact ih skip collected h

/-! ## All batches -/

/-- What the batches from an offset on add to what was collected. -/
theorem collectBackups_eq {batchSize : Nat} (hbatch : 0 < batchSize) (rows : List Job)
    (queryOffset skip : Nat) (collected : List Job) (h : ∀ n ∈ target, collected.length < n) :
    collectBackups fileExists target batchSize rows queryOffset skip collected =
      limited target
        (collected ++ ((rows.drop queryOffset).filter (backupPresent fileExists)).drop skip) := by
  induction hmeasure : rows.length - queryOffset using Nat.strongRecOn generalizing queryOffset skip collected with
  | _ m ih =>
  have hspec := @collectCandidates_spec fileExists target ((rows.drop queryOffset).take batchSize) skip
    collected h
  have hsplit : ((rows.drop queryOffset).filter (backupPresent fileExists)).drop skip =
      (((rows.drop queryOffset).take batchSize).filter (backupPresent fileExists)).drop skip ++
        ((rows.drop (queryOffset + batchSize)).filter (backupPresent fileExists)).drop
          (skip - (((rows.drop queryOffset).take batchSize).filter (backupPresent fileExists)).length) := by
    rw [← List.drop_append, ← List.filter_append, ← List.drop_drop, List.take_append_drop]
  rw [collectBackups]
  split
  · next hempty =>
    have hdone : rows.drop queryOffset = [] := (List.take_eq_nil_iff.mp hempty).resolve_left (by omega)
    rw [hdone, List.filter_nil, List.drop_nil, List.append_nil,
      limited_of_length_le fun n hn => Nat.le_of_lt (h n hn)]
  · next hne =>
    rw [hsplit, ← List.append_assoc]
    split
    · next all hfull =>
      rw [hfull] at hspec
      obtain ⟨n, hn, hle, rfl⟩ := hspec
      obtain rfl : target = some n := hn
      rw [limited_some, List.take_append_of_le_length hle]
    · next left all hmore =>
      rw [hmore] at hspec
      obtain ⟨rfl, rfl, hlt⟩ := hspec
      split
      · next hshort =>
        have hlast : rows.drop (queryOffset + batchSize) = [] := by
          rw [← List.drop_drop, List.drop_eq_nil_iff]
          rw [List.length_take] at hshort
          omega
        rw [hlast, List.filter_nil, List.drop_nil, List.append_nil,
          limited_of_length_le fun n hn => Nat.le_of_lt (hlt n hn)]
      · next hlong =>
        refine ih (rows.length - (queryOffset + batchSize)) ?_ _ _ _ hlt rfl
        have hpos := List.length_pos_iff.mpr hne
        rw [List.length_take, List.length_drop] at hpos
        omega

variable (fileExists)

theorem backupListingBatchSize_pos (limit : Option Int) : 0 < backupListingBatchSize limit := by
  unfold backupListingBatchSize
  split
  · decide
  · omega

/-- The listing is a page of the rows with a file, whatever the size of the batches. -/
theorem listBackupJobsBy_eq {batchSize : Nat} (hbatch : 0 < batchSize) (rows : List Job)
    (limit offset : Option Int) :
    listBackupJobsBy fileExists batchSize rows limit offset =
      page (max 0 (offset.getD 0)).toNat (limit.map fun limit => (max 0 limit).toNat)
        (rows.filter (backupPresent fileExists)) := by
  rw [listBackupJobsBy]
  split
  · next hzero => rw [page, hzero, limited_some, List.take_zero]
  · next hne =>
    rw [collectBackups_eq hbatch, List.drop_zero, List.nil_append, page]
    intro n hn
    rw [List.length_nil]
    refine Nat.pos_of_ne_zero fun hzero => hne ?_
    rw [hzero] at hn
    exact hn

theorem countBackupJobs_eq (nullsFirst : Bool) (db : Database) (search : Option String) :
    countBackupJobs fileExists db search =
      ((backupRows nullsFirst db search).filter (backupPresent fileExists)).length := by
  have hperm := List.perm_insertionSort (fun a b => backupOrder nullsFirst a b)
    (db.jobs.filter (isBackupRow db search))
  rw [countBackupJobs, List.countP_map, backupRows, ← List.countP_eq_length_filter, hperm.countP_eq]
  rfl

/-- The listing of backups is the page of the matching rows whose backup exists, in their order; its pages
give these rows back, and the count is their number. -/
theorem listBackupJobs_pages (nullsFirst : Bool) (db : Database) (search : Option String)
    {batchSize : Nat} (hbatch : 0 < batchSize) :
    (∀ limit offset : Option Int,
      listBackupJobsBy fileExists batchSize (backupRows nullsFirst db search) limit offset =
        page (max 0 (offset.getD 0)).toNat (limit.map fun limit => (max 0 limit).toNat)
          ((backupRows nullsFirst db search).filter (backupPresent fileExists)) ∧
      listBackupJobs fileExists nullsFirst db search limit offset =
        page (max 0 (offset.getD 0)).toNat (limit.map fun limit => (max 0 limit).toNat)
          ((backupRows nullsFirst db search).filter (backupPresent fileExists))) ∧
    (∀ pages size : Nat, countBackupJobs fileExists db search ≤ pages * size →
      (List.range pages).flatMap (fun i : Nat =>
        listBackupJobs fileExists nullsFirst db search (some size) (some ↑(i * size))) =
      (backupRows nullsFirst db search).filter (backupPresent fileExists)) ∧
    countBackupJobs fileExists db search =
      ((backupRows nullsFirst db search).filter (backupPresent fileExists)).length := by
  have hlist := fun limit offset => listBackupJobsBy_eq fileExists (backupListingBatchSize_pos limit)
    (backupRows nullsFirst db search) limit offset
  refine ⟨fun limit offset => ⟨listBackupJobsBy_eq fileExists hbatch _ limit offset, hlist limit offset⟩,
    fun pages size hpages => ?_, countBackupJobs_eq fileExists nullsFirst db search⟩
  rw [countBackupJobs_eq fileExists nullsFirst] at hpages
  rw [← flatMap_pages hpages]
  refine List.flatMap_congr fun i _ => ?_
  have hnat : ∀ n : Nat, (max 0 (n : Int)).toNat = n := fun n => by omega
  have hpage := hlist (some size) (some ↑(i * size))
  rw [Option.getD_some, Option.map_some, hnat, hnat] at hpage
  exact hpage

end Loops

/-- A job with a backup in the library. -/
def backedUpJob (id name : String) (completedAt : Time) : Job where
  id := id
  trackedFileId := "film"
  planSnapshotId := "plan"
  status := .completed
  completedAt := some completedAt
  originalBackupPath := some (PosixPath.parse ("/media/" ++ name))
  createdAt := 0
  updatedAt := completedAt

/-- Three backups, of which the second has lost its file. -/
def backupTable : Database where
  jobs := [backedUpJob "1" "a.encodr-backup.mkv" 10, backedUpJob "2" "b.encodr-backup.mkv" 20,
    backedUpJob "3" "c.encodr-backup.mkv" 30]

/-- The second page of one backup is the first job: the file of the second is missing. -/
theorem listBackupJobs_pages_three :
    listBackupJobsBy (fun path => path.name ≠ "b.encodr-backup.mkv") 2 (backupRows true backupTable none)
      (some 1) (some 1) = [backedUpJob "1" "a.encodr-backup.mkv" 10] :=
  ((listBackupJobs_pages (fun path => path.name ≠ "b.encodr-backup.mkv") true backupTable none
    (by decide : 0 < 2)).1 (some 1) (some 1)).1.trans (by decide +kernel)

end Encodr
