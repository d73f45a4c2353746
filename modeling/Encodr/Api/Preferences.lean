import Mathlib.Data.List.Sort
import Encodr.Api.Workers
import Encodr.Db.Openings
import Encodr.Execution.RuntimeStatus
import Encodr.Python.Integer
import Encodr.Python.PathText

/-!
# Worker preferences

`update_worker_preferences`: what the service makes of the preferences that an administrator submits,
and what the repository stores. A column that the repository is given `None` for keeps its value. The
probes of the local runtime are an input.

* `updateWorkerPreferences`: the service; `WorkerPreferenceRequest.update` is what the endpoint gives it.
* `updateWorkerPreferences_error`, `getById_updateWorkerPreferences`: what it does to the table.
* `updateWorkerPreferences_stores_iff`: when what was submitted is stored, and the rest kept.
* `Mirrors.update`: the rows of `Database.updateWorkerPreferences` follow.
-/

namespace Encodr

open Python Lib

namespace Preferences

/-! ## Rows -/

/-- A path mapping as a row has it. -/
structure StoredMapping where
  label : Option String
  serverPath : String
  workerPath : String
  markerRelativePath : String
deriving DecidableEq, Repr

/-- The columns of a worker row that an administrator chooses. -/
structure StoredPreferences where
  displayName : String
  preferredBackend : String := "cpu_only"
  allowCpuFallback : Bool := true
  maxConcurrentJobs : Nat := 1
  scheduleWindows : Option (List ScheduleWindow) := none
  pathMappings : Option (List StoredMapping) := none
  scratchPath : Option String := none
deriving DecidableEq

structure WorkerRow where
  id : WorkerId
  workerKey : String
  workerType : WorkerType
  preferences : StoredPreferences
deriving DecidableEq

/-- A row with other preferences. -/
def WorkerRow.change (f : StoredPreferences → StoredPreferences) (row : WorkerRow) : WorkerRow :=
  { row with preferences := f row.preferences }

theorem nodup_modify {rows : List WorkerRow} (h : (rows.map WorkerRow.id).Nodup) (id : WorkerId)
    (f : StoredPreferences → StoredPreferences) :
    ((Table.modify WorkerRow.id id (WorkerRow.change f) rows).map WorkerRow.id).Nodup := by
  have hkeep : ∀ row ∈ rows, WorkerRow.id row = id → WorkerRow.id (row.change f) = id := fun _ _ h => h
  rw [Table.keys_modify hkeep]
  exact h

/-- The table of workers, with different primary keys. -/
structure WorkerTable where
  rows : List WorkerRow
  nodup : (rows.map WorkerRow.id).Nodup

namespace WorkerTable

variable (t : WorkerTable)

/-- `get_by_id`. -/
def getById (id : WorkerId) : Option WorkerRow := Table.find WorkerRow.id id t.rows

/-- `get_by_key`. -/
def getByKey (key : String) : Option WorkerRow := Table.find WorkerRow.workerKey key t.rows

/-- `get_by_id(worker_id) or get_by_key(worker_id)`. -/
def findWorker (workerId : String) : Option WorkerRow :=
  t.getById workerId <|> t.getByKey workerId

/-- Change the preferences of one row. -/
def modify (id : WorkerId) (f : StoredPreferences → StoredPreferences) : WorkerTable where
  rows := Table.modify WorkerRow.id id (WorkerRow.change f) t.rows
  nodup := nodup_modify t.nodup id f

theorem getById_modify (id id' : WorkerId) (f : StoredPreferences → StoredPreferences) :
    (t.modify id f).getById id' = (t.getById id').map fun row =>
      if row.id = id then row.change f else row :=
  Table.find_modify fun _ _ h => h

variable {t}

/-- A row that is found is the row of its primary key. -/
theorem getById_of_findWorker {workerId : String} {row : WorkerRow}
    (h : t.findWorker workerId = some row) : t.getById row.id = some row := by
  have hmem : row ∈ t.rows := by
    unfold findWorker at h
    cases hid : t.getById workerId with
    | some found =>
      rw [hid] at h
      obtain rfl := Option.some.inj h
      exact Table.mem_of_find hid
    | none =>
      rw [hid] at h
      exact Table.mem_of_find h
  exact Table.find_of_mem t.nodup hmem

end WorkerTable

/-- The arguments of the repository's `update_preferences`, `none` for `None`. -/
structure ColumnUpdate where
  displayName : Option String := none
  preferredBackend : Option String := none
  allowCpuFallback : Option Bool := none
  maxConcurrentJobs : Option Nat := none
  scheduleWindows : Option (List ScheduleWindow) := none
  pathMappings : Option (List StoredMapping) := none
  scratchPath : Option String := none

/-- `update_preferences`. -/
def StoredPreferences.update (p : StoredPreferences) (c : ColumnUpdate) : StoredPreferences where
  displayName := c.displayName.getD p.displayName
  preferredBackend := c.preferredBackend.getD p.preferredBackend
  allowCpuFallback := c.allowCpuFallback.getD p.allowCpuFallback
  maxConcurrentJobs := c.maxConcurrentJobs.getD p.maxConcurrentJobs
  scheduleWindows := c.scheduleWindows <|> p.scheduleWindows
  pathMappings := c.pathMappings <|> p.pathMappings
  scratchPath := c.scratchPath <|> p.scratchPath

/-! ## Normalisers -/

/-- `normalise_schedule_windows` of an argument that may be `None`. -/
def normaliseSchedule (value : Option (List RawScheduleWindow)) :
    Except ScheduleError (Option (List ScheduleWindow)) :=
  match value with
  | none => return none
  | some [] => return none
  | some raw => do
    let windows ← normaliseScheduleWindows int raw
    return if windows = [] then none else some windows

/-- A path mapping as a request has it. -/
structure RawPathMapping where
  label : Option String := none
  serverPath : Option String
  workerPath : Option String
deriving DecidableEq, Repr

/-- `MARKER_RELATIVE_PATH`. -/
def markerRelativePath : String := ".encodr/worker-marker.txt"

/-- One mapping in `normalise_path_mappings`: one without both paths is left out. -/
def normalisePathMapping (os : PathOs) (item : RawPathMapping) : Option StoredMapping :=
  let serverPath := strip (item.serverPath.getD "")
  let workerPath := strip (item.workerPath.getD "")
  let label := strip (item.label.getD "")
  if serverPath = "" ∨ workerPath = "" then none
  else some {
    label := if label = "" then none else some label
    serverPath := (os.resolve (os.expanduser (.parse serverPath))).asPosix
    workerPath := (os.expanduser (.parse workerPath)).asPosix
    markerRelativePath }

/-- `normalise_path_mappings` of an argument that may be `None`: the longest server path comes first. -/
def normaliseMappings (os : PathOs) (mappings : Option (List RawPathMapping)) : List StoredMapping :=
  ((mappings.getD []).filterMap (normalisePathMapping os)).insertionSort fun a b =>
    b.serverPath.length ≤ a.serverPath.length

/-! ## The service -/

/-- The arguments of `update_worker_preferences`. -/
structure PreferenceUpdate where
  displayName : Option String
  preferredBackend : String
  allowCpuFallback : Bool
  maxConcurrentJobs : Nat
  scheduleWindows : Option (List RawScheduleWindow) := none
  scratchPath : Option String := none
  pathMappings : Option (List RawPathMapping) := none

/-- What the probes of the local runtime say of a backend preference. -/
structure LocalProbes where
  /-- There is a probe of the preferred backend. -/
  preferredBackendProbe : Bool
  transcodeBackendUsable : Bool

/-- `_validate_local_backend_preferences`. -/
def validateLocalBackendPreferences (preferredBackend : String) (probes : LocalProbes) :
    Except ApiError Unit := do
  if normaliseBackendPreferenceKey (some preferredBackend) = .cpu then return
  require (probes.preferredBackendProbe = true)
    (.conflict "The selected local backend is not recognised.")
  require (probes.transcodeBackendUsable = true)
    (.conflict "The selected local backend is unavailable in this runtime and CPU fallback is disabled.")

section Service

variable (os : PathOs) (probes : LocalProbes) (t : WorkerTable) (workerId : String) (u : PreferenceUpdate)

/-- What `update_worker_preferences` gives to `update_preferences`. -/
def columnsOf (schedule : Option (List ScheduleWindow)) : ColumnUpdate where
  displayName := u.displayName
  preferredBackend := some u.preferredBackend
  allowCpuFallback := some u.allowCpuFallback
  maxConcurrentJobs := some u.maxConcurrentJobs
  scheduleWindows := schedule
  pathMappings := some (normaliseMappings os u.pathMappings)
  scratchPath := u.scratchPath

/-- The check of the backend, for the local worker only. -/
def checkBackend (worker : WorkerRow) : Except ApiError Unit :=
  if worker.workerType = .local then validateLocalBackendPreferences u.preferredBackend probes
  else return

/-- The checks of `update_worker_preferences`, and what follows for the repository. -/
def cleanedUpdate : Except ApiError (WorkerRow × ColumnUpdate) := do
  let worker ← found (.notFound "Worker could not be found.") (t.findWorker workerId)
  checkBackend probes u worker
  let schedule ← (normaliseSchedule u.scheduleWindows).mapError fun e => .conflict e.message
  return (worker, columnsOf os u schedule)

/-- `update_worker_preferences`: its result, and the table after it. -/
def updateWorkerPreferences : Except ApiError Unit × WorkerTable :=
  match cleanedUpdate os probes t workerId u with
  | .error e => (.error e, t)
  | .ok (worker, columns) => (.ok (), t.modify worker.id fun p => p.update columns)

end Service

/-! ## What is stored -/

variable {os : PathOs} {probes : LocalProbes} {t : WorkerTable} {workerId : String} {u : PreferenceUpdate}
  {row : WorkerRow} {columns : ColumnUpdate}

/-- A request that is refused changes nothing. -/
theorem updateWorkerPreferences_error {e : ApiError}
    (h : (updateWorkerPreferences os probes t workerId u).1 = .error e) :
    (updateWorkerPreferences os probes t workerId u).2 = t := by
  unfold updateWorkerPreferences at h ⊢
  split at h
  · rfl
  · cases h

/-- The checks accept the preferences for a worker. -/
structure Accepted (probes : LocalProbes) (row : WorkerRow) (u : PreferenceUpdate) : Prop where
  backend : checkBackend probes u row = .ok ()
  schedule : ∃ schedule, normaliseSchedule u.scheduleWindows = .ok schedule

theorem mapError_ok {ε ε' α : Type} {f : ε → ε'} {x : Except ε α} {a : α} :
    x.mapError f = .ok a ↔ x = .ok a := by
  cases x <;> simp [Except.mapError]

theorem cleanedUpdate_ok (os : PathOs) {r : WorkerRow × ColumnUpdate}
    (hrow : t.findWorker workerId = some row) :
    cleanedUpdate os probes t workerId u = .ok r ↔ checkBackend probes u row = .ok () ∧
      ∃ schedule, normaliseSchedule u.scheduleWindows = .ok schedule ∧
        (row, columnsOf os u schedule) = r := by
  simp only [cleanedUpdate, hrow, bind_ok, found_ok, mapError_ok, return_ok, Option.some.injEq,
    exists_eq_left']
  constructor
  · rintro ⟨_, h⟩
    exact h
  · exact fun h => ⟨(), h⟩

/-- The update is made where the checks accept it. -/
theorem updateWorkerPreferences_ok (hrow : t.findWorker workerId = some row) :
    (updateWorkerPreferences os probes t workerId u).1 = .ok () ↔ Accepted probes row u := by
  unfold updateWorkerPreferences
  cases hclean : cleanedUpdate os probes t workerId u with
  | error e =>
    refine ⟨fun h => (by cases h), ?_⟩
    rintro ⟨hbackend, schedule, hschedule⟩
    have hok := (cleanedUpdate_ok os hrow).mpr ⟨hbackend, schedule, hschedule, rfl⟩
    rw [hclean] at hok
    cases hok
  | ok r =>
    obtain ⟨hbackend, schedule, hschedule, -⟩ := (cleanedUpdate_ok os hrow).mp hclean
    exact ⟨fun _ => ⟨hbackend, schedule, hschedule⟩, fun _ => rfl⟩

/-- The rows after an update: the row of the worker has the columns, the others are as they were. -/
theorem getById_updateWorkerPreferences {schedule : Option (List ScheduleWindow)}
    (hrow : t.findWorker workerId = some row) (hbackend : checkBackend probes u row = .ok ())
    (hschedule : normaliseSchedule u.scheduleWindows = .ok schedule) (id : WorkerId) :
    (updateWorkerPreferences os probes t workerId u).2.getById id = (t.getById id).map fun r =>
      if r.id = row.id then r.change fun p => p.update (columnsOf os u schedule) else r := by
  have hclean := (cleanedUpdate_ok os hrow).mpr ⟨hbackend, schedule, hschedule, rfl⟩
  rw [updateWorkerPreferences, hclean]
  exact t.getById_modify row.id id _

/-! ## Requests -/

/-- `WorkerPreferenceRequest`, `none` for a field that is not in the request. -/
structure WorkerPreferenceRequest where
  displayName : Option String := none
  preferredBackend : String
  allowCpuFallback : Option Bool := none
  maxConcurrentJobs : Option Nat := none
  scheduleWindows : Option (List RawScheduleWindow) := none
  scratchPath : Option String := none
  pathMappings : Option (List RawPathMapping) := none

/-- What the endpoint gives to `update_worker_preferences`: a list that is not in the request is empty. -/
def WorkerPreferenceRequest.update (r : WorkerPreferenceRequest) : PreferenceUpdate where
  displayName := r.displayName
  preferredBackend := r.preferredBackend
  allowCpuFallback := r.allowCpuFallback.getD true
  maxConcurrentJobs := r.maxConcurrentJobs.getD 1
  scheduleWindows := some (r.scheduleWindows.getD [])
  scratchPath := r.scratchPath
  pathMappings := some (r.pathMappings.getD [])

/-- A schedule that is absent or empty in a request leaves the stored one; mappings that are absent
leave none. -/
theorem WorkerPreferenceRequest.stored {r : WorkerPreferenceRequest} {p : StoredPreferences}
    {schedule : Option (List ScheduleWindow)}
    (hschedule : normaliseSchedule r.update.scheduleWindows = .ok schedule) :
    (r.scheduleWindows.getD [] = [] →
      (p.update (columnsOf os r.update schedule)).scheduleWindows = p.scheduleWindows) ∧
    (r.pathMappings = none → (p.update (columnsOf os r.update schedule)).pathMappings = some []) := by
  refine ⟨fun hnil => ?_, fun habsent => ?_⟩
  · rw [update, hnil] at hschedule
    obtain rfl := Except.ok.inj hschedule
    rfl
  · simp [StoredPreferences.update, columnsOf, update, normaliseMappings, habsent]

/-! ## The rows of the database -/

/-- The directories of a stored mapping. -/
def StoredMapping.paths (m : StoredMapping) : PathMapping where
  serverPath := .parse m.serverPath
  workerPath := .parse m.workerPath

/-- The directories of a submitted mapping that has both. -/
def RawPathMapping.paths (item : RawPathMapping) : Option PathMapping :=
  let serverPath := strip (item.serverPath.getD "")
  let workerPath := strip (item.workerPath.getD "")
  if serverPath = "" ∨ workerPath = "" then none
  else some { serverPath := .parse serverPath, workerPath := .parse workerPath }

theorem normalisePathMapping_paths (os : PathOs) (item : RawPathMapping) :
    (normalisePathMapping os item).map StoredMapping.paths = item.paths.map fun m => {
      serverPath := os.resolve (os.expanduser m.serverPath)
      workerPath := os.expanduser m.workerPath : PathMapping } := by
  unfold normalisePathMapping RawPathMapping.paths
  dsimp only
  split
  · rfl
  · simp only [Option.map_some, StoredMapping.paths, PosixPath.parse_asPosix]

/-- The stored mappings have the directories of `normalisePathMappings`, in its order. -/
theorem normaliseMappings_paths (os : PathOs) (raw : Option (List RawPathMapping)) :
    (normaliseMappings os raw).map StoredMapping.paths =
      normalisePathMappings os ((raw.getD []).filterMap RawPathMapping.paths) := by
  have htext : ∀ m ∈ (raw.getD []).filterMap (normalisePathMapping os),
      m.paths.serverPath.asPosix = m.serverPath := by
    intro m hm
    obtain ⟨item, -, hitem⟩ := List.mem_filterMap.mp hm
    unfold normalisePathMapping at hitem
    dsimp only at hitem
    split at hitem
    · cases hitem
    · obtain rfl := Option.some.inj hitem
      rw [StoredMapping.paths, PosixPath.parse_asPosix]
  have hsort := List.map_insertionSort
    (r := fun a b : StoredMapping => b.serverPath.length ≤ a.serverPath.length)
    (s := fun a b : PathMapping => b.serverPath.asPosix.length ≤ a.serverPath.asPosix.length)
    StoredMapping.paths ((raw.getD []).filterMap (normalisePathMapping os))
    fun a ha b hb => by rw [htext a ha, htext b hb]
  rw [normaliseMappings, normalisePathMappings, hsort, List.map_filterMap, List.map_filterMap]
  simp only [normalisePathMapping_paths]

/-- The row of the model of the tables that has the same preferences. -/
structure Mirrors (row : WorkerRow) (worker : Worker) : Prop where
  displayName : worker.displayName = row.preferences.displayName
  maxConcurrentJobs : worker.maxConcurrentJobs = row.preferences.maxConcurrentJobs
  scheduleWindows : worker.scheduleWindows = row.preferences.scheduleWindows.getD []
  pathMappings : worker.pathMappings = (row.preferences.pathMappings.getD []).map StoredMapping.paths
  scratchPath : worker.scratchPath = row.preferences.scratchPath.map .parse

/-- The columns as `Database.updateWorkerPreferences` has them. -/
def ColumnUpdate.preferences (c : ColumnUpdate) : Database.WorkerPreferences where
  displayName := c.displayName
  maxConcurrentJobs := c.maxConcurrentJobs.getD 1
  scheduleWindows := c.scheduleWindows
  scratchPath := c.scratchPath.map .parse
  pathMappings := (c.pathMappings.getD []).map StoredMapping.paths

theorem worker_updateWorker {db : Database} {id id' : WorkerId} {f : Worker → Worker} {now : Time}
    (hf : ∀ worker, (f worker).id = worker.id) : (db.updateWorker id f now).worker id' =
      (db.worker id').map fun worker =>
        if worker.id = id then { f worker with updatedAt := now } else worker :=
  Table.find_modify fun worker _ h => (hf worker).trans h

/-- The rows of the tables follow an update. -/
theorem Mirrors.update {db db' : Database} {worker : Worker} {now : Time}
    {schedule : Option (List ScheduleWindow)} (h : Mirrors row worker)
    (hworker : db.worker row.id = some worker)
    (hdb : db.updateWorkerPreferences row.id (columnsOf os u schedule).preferences now = .ok db') :
    ∃ worker', db'.worker row.id = some worker' ∧
      Mirrors (row.change fun p => p.update (columnsOf os u schedule)) worker' := by
  have hkey := List.find?_some hworker
  have hid : worker.id = row.id := of_decide_eq_true hkey
  simp only [Database.updateWorkerPreferences, found_bind_ok, return_ok] at hdb
  obtain ⟨_, -, rfl⟩ := hdb
  rw [worker_updateWorker, hworker, Option.map_some, if_pos hid]
  · refine ⟨_, rfl, ?_, rfl, ?_, rfl, ?_⟩
    · exact congrArg (u.displayName.getD ·) h.displayName
    · show schedule.getD worker.scheduleWindows = (schedule <|> row.preferences.scheduleWindows).getD []
      cases schedule with
      | none => exact h.scheduleWindows
      | some windows => rfl
    · show (u.scratchPath.map PosixPath.parse <|> worker.scratchPath) =
        (u.scratchPath <|> row.preferences.scratchPath).map PosixPath.parse
      cases u.scratchPath with
      | none => exact h.scratchPath
      | some path => rfl
  · exact fun _ => rfl

/-! ## Submitted and stored -/

/-- What was submitted is stored, normalised; what was not is as before. -/
structure Stores (os : PathOs) (u : PreferenceUpdate) (before after : StoredPreferences) : Prop where
  displayName : after.displayName = u.displayName.getD before.displayName
  preferredBackend : after.preferredBackend = u.preferredBackend
  allowCpuFallback : after.allowCpuFallback = u.allowCpuFallback
  maxConcurrentJobs : after.maxConcurrentJobs = u.maxConcurrentJobs
  scratchPath : after.scratchPath = (u.scratchPath <|> before.scratchPath)
  schedule : ∀ raw, u.scheduleWindows = some raw →
    normaliseSchedule (some raw) = .ok after.scheduleWindows
  scheduleKept : u.scheduleWindows = none → after.scheduleWindows = before.scheduleWindows
  mappings : ∀ raw, u.pathMappings = some raw →
    after.pathMappings = some (normaliseMappings os (some raw))
  mappingsKept : u.pathMappings = none → after.pathMappings = before.pathMappings

/-- A schedule of no windows is normalised to `None`, and no other is. -/
theorem normaliseSchedule_eq_none {raw : List RawScheduleWindow} {schedule : Option (List ScheduleWindow)}
    (h : normaliseSchedule (some raw) = .ok schedule) : schedule = none ↔ raw = [] := by
  cases raw with
  | nil =>
    obtain rfl := Except.ok.inj h
    exact ⟨fun _ => rfl, fun _ => rfl⟩
  | cons window windows =>
    simp only [normaliseSchedule, normaliseScheduleWindows, List.mapM_cons, bind_ok, return_ok] at h
    obtain ⟨cleaned, ⟨first, -, rest, -, rfl⟩, hschedule⟩ := h
    rw [← hschedule, if_neg (List.cons_ne_nil first rest)]
    exact ⟨fun h => (by cases h), fun h => (by cases h)⟩

/-- The columns of a normalised schedule are what was submitted, but for an empty schedule where one is
stored, and for mappings that were not submitted. -/
theorem stores_update_iff {p : StoredPreferences} {schedule : Option (List ScheduleWindow)}
    (hschedule : normaliseSchedule u.scheduleWindows = .ok schedule) :
    Stores os u p (p.update (columnsOf os u schedule)) ↔
      (u.scheduleWindows = some [] → p.scheduleWindows = none) ∧
      (u.pathMappings = none → p.pathMappings = some []) := by
  constructor
  · intro h
    refine ⟨fun hempty => ?_, fun habsent => ?_⟩
    · have hstored := h.schedule [] hempty
      rw [hempty] at hschedule
      have hnone := (normaliseSchedule_eq_none hschedule).mpr rfl
      have hafter := (normaliseSchedule_eq_none hstored).mpr rfl
      rw [hnone] at hafter
      exact hafter
    · have hkept := h.mappingsKept habsent
      have hwiped : (p.update (columnsOf os u schedule)).pathMappings = some [] := by
        simp [StoredPreferences.update, columnsOf, normaliseMappings, habsent]
      rw [← hkept, hwiped]
  · rintro ⟨hempty, habsent⟩
    refine ⟨rfl, rfl, rfl, rfl, rfl, fun raw hraw => ?_, fun hnone => ?_, fun raw hraw => ?_,
      fun hnone => ?_⟩
    · rw [← hraw, hschedule]
      rw [hraw] at hschedule
      cases schedule with
      | some windows => rfl
      | none =>
        have hnil := (normaliseSchedule_eq_none hschedule).mp rfl
        exact congrArg Except.ok (hempty (hnil ▸ hraw)).symm
    · rw [hnone] at hschedule
      obtain rfl := Except.ok.inj hschedule
      rfl
    · rw [StoredPreferences.update, columnsOf, hraw]
      rfl
    · rw [habsent hnone, StoredPreferences.update, columnsOf, hnone]
      rfl

/-- What is asked of an update of a stored worker: a rejected schedule changes nothing, and an accepted
update stores what was submitted. -/
def StoresSubmitted (os : PathOs) (probes : LocalProbes) (t : WorkerTable) (workerId : String)
    (u : PreferenceUpdate) (row : WorkerRow) : Prop :=
  (∀ e, normaliseSchedule u.scheduleWindows = .error e →
      (updateWorkerPreferences os probes t workerId u).2 = t) ∧
    ((updateWorkerPreferences os probes t workerId u).1 = .ok () →
      ∃ after, (updateWorkerPreferences os probes t workerId u).2.getById row.id =
        some { row with preferences := after } ∧ Stores os u row.preferences after)

/-- What was submitted is stored, and the rest kept, exactly when no empty schedule is submitted where
one is stored, and the mappings are submitted or the stored ones are the empty list. -/
theorem updateWorkerPreferences_stores_iff (os : PathOs) (probes : LocalProbes) (t : WorkerTable)
    (workerId : String) (u : PreferenceUpdate) (row : WorkerRow) (hrow : t.findWorker workerId = some row) :
    StoresSubmitted os probes t workerId u row ↔
      (Accepted probes row u →
        (u.scheduleWindows = some [] → row.preferences.scheduleWindows = none) ∧
        (u.pathMappings = none → row.preferences.pathMappings = some [])) := by
  have hid := WorkerTable.getById_of_findWorker hrow
  have hread : ∀ schedule, checkBackend probes u row = .ok () →
      normaliseSchedule u.scheduleWindows = .ok schedule →
      (updateWorkerPreferences os probes t workerId u).2.getById row.id =
        some (row.change fun p => p.update (columnsOf os u schedule)) := by
    intro schedule hbackend hschedule
    rw [getById_updateWorkerPreferences hrow hbackend hschedule, hid, Option.map_some, if_pos rfl]
  constructor
  · rintro ⟨-, hstores⟩ haccepted
    obtain ⟨schedule, hschedule⟩ := haccepted.schedule
    obtain ⟨after, hafter, hstored⟩ := hstores ((updateWorkerPreferences_ok hrow).mpr haccepted)
    rw [hread schedule haccepted.backend hschedule] at hafter
    obtain rfl : row.preferences.update (columnsOf os u schedule) = after :=
      congrArg WorkerRow.preferences (Option.some.inj hafter)
    exact (stores_update_iff hschedule).mp hstored
  · intro hcond
    refine ⟨fun e he => ?_, fun hok => ?_⟩
    · cases hresult : (updateWorkerPreferences os probes t workerId u).1 with
      | error e => exact updateWorkerPreferences_error hresult
      | ok _ =>
        obtain ⟨schedule, hschedule⟩ := ((updateWorkerPreferences_ok hrow).mp hresult).schedule
        rw [he] at hschedule
        cases hschedule
    · have haccepted := (updateWorkerPreferences_ok hrow).mp hok
      obtain ⟨schedule, hschedule⟩ := haccepted.schedule
      exact ⟨_, hread schedule haccepted.backend hschedule,
        (stores_update_iff hschedule).mpr (hcond haccepted)⟩

/-- A worker that runs at night. -/
def nightWorker : WorkerRow where
  id := "7"
  workerKey := "worker-attic"
  workerType := .remote
  preferences := {
    displayName := "Attic"
    scheduleWindows := some [{ days := [0, 1, 2, 3, 4, 5, 6], startMinute := 1380, endMinute := 450 }]
    pathMappings := some [] }

def nightWorkers : WorkerTable where
  rows := [nightWorker]
  nodup := by decide

/-- The schedule is taken away, the rest is as it is. -/
def alwaysOpen : PreferenceUpdate where
  displayName := none
  preferredBackend := "cpu_only"
  allowCpuFallback := true
  maxConcurrentJobs := 1
  scheduleWindows := some []
  pathMappings := some []

/-- Paths without links and home directories. -/
def plainPaths : PathOs where
  expanduser := id
  resolve := PosixPath.resolved (.parse "/")

theorem updateWorkerPreferences_stores_iff_nightWorkers :
    nightWorkers.findWorker "worker-attic" = some nightWorker ∧
      (StoresSubmitted plainPaths ⟨true, true⟩ nightWorkers "worker-attic" alwaysOpen nightWorker ↔
        (Accepted ⟨true, true⟩ nightWorker alwaysOpen →
          (alwaysOpen.scheduleWindows = some [] → nightWorker.preferences.scheduleWindows = none) ∧
          (alwaysOpen.pathMappings = none → nightWorker.preferences.pathMappings = some []))) :=
  have hrow : nightWorkers.findWorker "worker-attic" = some nightWorker := by decide
  ⟨hrow, updateWorkerPreferences_stores_iff plainPaths ⟨true, true⟩ nightWorkers "worker-attic"
    alwaysOpen nightWorker hrow⟩

/-- The schedule stays. -/
theorem alwaysOpen_not_stored :
    ¬ StoresSubmitted plainPaths ⟨true, true⟩ nightWorkers "worker-attic" alwaysOpen nightWorker := by
  rintro ⟨-, hstores⟩
  obtain ⟨after, hafter, hstored⟩ := hstores (by decide)
  have hunchanged : (updateWorkerPreferences plainPaths ⟨true, true⟩ nightWorkers "worker-attic"
      alwaysOpen).2.getById "7" = some nightWorker := by decide
  rw [show nightWorker.id = "7" from rfl, hunchanged] at hafter
  have hschedule : none = after.scheduleWindows := Except.ok.inj (hstored.schedule [] rfl)
  obtain rfl : nightWorker.preferences = after :=
    congrArg WorkerRow.preferences (Option.some.inj hafter)
  cases hschedule

end Preferences

end Encodr
