import Encodr.Api.Workers

/-!
# Registrations that fail

A registration that fails to authenticate is recorded in the row of the worker that it names, and the
endpoint commits this.

* `Database.registerEndpoint`: the endpoint, with what it commits.
* `Refuses`: what a failed registration changes: at most one remote worker is refused until it registers
  again.
* `registerEndpoint_refuses`: this holds of every failed registration.
-/

namespace Encodr

open Lib

/-- A worker whose registration has failed. -/
def Worker.authRefused (worker : Worker) (now : Time) : Worker :=
  { worker with registrationStatus := .unknown, lastHealthStatus := .failed, updatedAt := now }

/-- A registration with this key names the worker. -/
def Worker.namedBy (key : String) (worker : Worker) : Prop :=
  worker.workerKey = key ∧ worker.workerType = .remote

instance (key : String) (worker : Worker) : Decidable (worker.namedBy key) :=
  inferInstanceAs (Decidable (_ ∧ _))

/-- The registration endpoint. It commits what a failed authentication has written, and rolls back other
errors. -/
def Database.registerEndpoint (db : Database) (workerType : WorkerType) (secret : String)
    (r : RegisterRequest) (newId : WorkerId) (tokenHash : String) (now : Time) :
    Except ApiError Unit × Database :=
  if workerType ≠ .remote then
    (.error (.conflict "Only remote workers can use the registration endpoint."), db)
  else
    match db.registerWorker secret r newId tokenHash now with
    | (.ok (), db') => (.ok (), db')
    | (.error (.authentication message), db') => (.error (.authentication message), db')
    | (.error e, _) => (.error e, db)

/-- What a failed registration with a key changes: the worker that it names is refused. Every other worker
keeps its row, and with it its authentication, and can be assigned the jobs that it could be assigned. -/
structure Refuses (db db' : Database) (key : String) (now : Time) : Prop where
  others : db' = { db with workers := db'.workers }
  rows : ∀ worker ∈ db.workers, db'.worker worker.id =
    some (if worker.namedBy key then worker.authRefused now else worker)
  authentication : ∀ tokenHash worker, db.workerByTokenHash tokenHash = some worker →
    ¬ worker.namedBy key →
    db'.requireAuthenticatedWorker tokenHash = db.requireAuthenticatedWorker tokenHash
  refused : ∀ tokenHash worker, db.workerByTokenHash tokenHash = some worker → worker.namedBy key →
    db'.requireAuthenticatedWorker tokenHash =
      .error (.forbidden "The worker is disabled or not registered.")
  assignments : ∀ calendar job worker t, ¬ worker.namedBy key →
    jobAllowsWorker calendar job worker (db.preferredWorker job) t = true →
    jobAllowsWorker calendar job worker (db'.preferredWorker job) t = true

section Failed

variable {db db' : Database} {key : String} {now : Time} {worker : Worker}

/-- No job is sent to a worker that has been refused. -/
theorem authRefused_not_dispatchable (h : worker.namedBy key) (t : Time) :
    workerIsDispatchable (worker.authRefused now) t = false := by
  have htype : worker.workerType = .remote := h.2
  simp [workerIsDispatchable, Worker.authRefused, htype]

/-- The row of a worker after a failed registration with a key. -/
def Worker.afterFailure (key : String) (now : Time) (worker : Worker) : Worker :=
  if worker.namedBy key then worker.authRefused now else worker

theorem map_afterFailure_eq (h : ∀ worker ∈ db.workers, ¬ worker.namedBy key) :
    db.workers.map (Worker.afterFailure key now) = db.workers :=
  (List.map_congr_left fun worker hworker => if_neg (h worker hworker)).trans (List.map_id _)

/-- With distinct ids and keys, the row of the named worker is written. -/
theorem markAuthFailed_eq (hids : db.workerIds.Nodup) (hkeys : (db.workers.map (·.workerKey)).Nodup) :
    db.markAuthFailed key now = { db with workers := db.workers.map (Worker.afterFailure key now) } := by
  unfold Database.markAuthFailed Database.workerByKey
  cases hfind : Table.find Worker.workerKey key db.workers with
  | none =>
    rw [map_afterFailure_eq fun worker hworker h => Table.find_eq_none.mp hfind worker hworker h.1]
  | some named =>
    have hnamed := Table.mem_of_find hfind
    have hkey := Table.key_of_find hfind
    have hother : ∀ worker ∈ db.workers, worker.workerKey = key → worker = named := fun worker hworker h =>
      List.inj_on_of_nodup_map hkeys hworker hnamed (h.trans hkey.symm)
    dsimp only
    split
    · next hremote =>
      unfold Database.updateWorker Table.modify
      refine congrArg (fun workers => { db with workers }) (List.map_congr_left fun worker hworker => ?_)
      by_cases hid : worker.id = named.id
      · have heq := List.inj_on_of_nodup_map hids hworker hnamed hid
        rw [if_pos hid, Worker.afterFailure, if_pos (heq ▸ ⟨hkey, hremote⟩)]
        rfl
      · rw [if_neg hid, Worker.afterFailure,
          if_neg fun h => hid (congrArg Worker.id (hother worker hworker h.1))]
    · next hlocal =>
      rw [map_afterFailure_eq fun worker hworker h => hlocal (hother worker hworker h.1 ▸ h.2)]

theorem afterFailure_id (worker : Worker) : (worker.afterFailure key now).id = worker.id := by
  unfold Worker.afterFailure
  split <;> rfl

theorem afterFailure_token (worker : Worker) :
    (worker.afterFailure key now).authTokenHash = worker.authTokenHash := by
  unfold Worker.afterFailure
  split <;> rfl

/-- A refused worker only loses work that prefers it. -/
theorem afterFailure_dispatchable {t : Time}
    (h : workerIsDispatchable (worker.afterFailure key now) t = true) :
    workerIsDispatchable worker t = true := by
  unfold Worker.afterFailure at h
  split at h
  · next hnamed =>
    rw [authRefused_not_dispatchable hnamed] at h
    cases h
  · exact h

theorem refuses_map (hids : db.workerIds.Nodup) (key : String) (now : Time) :
    Refuses db { db with workers := db.workers.map (Worker.afterFailure key now) } key now where
  others := rfl
  rows worker hworker := by
    show Table.find Worker.id worker.id (db.workers.map _) = _
    rw [Table.find_map fun w _ => afterFailure_id w, Table.find_of_mem hids hworker]
    rfl
  authentication tokenHash worker hworker hnot := by
    have hfind : Database.workerByTokenHash
        { db with workers := db.workers.map (Worker.afterFailure key now) } tokenHash = some worker := by
      show Table.find Worker.authTokenHash (some tokenHash) (db.workers.map _) = _
      rw [Table.find_map fun w _ => afterFailure_token w]
      refine (congrArg (Option.map _) hworker).trans ?_
      rw [Option.map_some, Worker.afterFailure, if_neg hnot]
    unfold Database.requireAuthenticatedWorker
    rw [hfind, hworker]
  refused tokenHash worker hworker hnamed := by
    have hfind : Database.workerByTokenHash
        { db with workers := db.workers.map (Worker.afterFailure key now) } tokenHash =
          some (worker.authRefused now) := by
      show Table.find Worker.authTokenHash (some tokenHash) (db.workers.map _) = _
      rw [Table.find_map fun w _ => afterFailure_token w]
      refine (congrArg (Option.map _) hworker).trans ?_
      rw [Option.map_some, Worker.afterFailure, if_pos hnamed]
    unfold Database.requireAuthenticatedWorker
    rw [hfind]
    have htype : (worker.authRefused now).workerType = .remote := hnamed.2
    have hstatus : (worker.authRefused now).registrationStatus = .unknown := rfl
    have hfilter : (some (worker.authRefused now)).filter (·.workerType = .remote) =
        some (worker.authRefused now) := by
      rw [Option.filter_some, if_pos (decide_eq_true htype)]
    rw [hfilter]
    show (require _ _ >>= fun _ => _) = _
    rw [require, if_neg (fun h => by cases hstatus.symm.trans h.2)]
    rfl
  assignments calendar job worker t _ h := by
    have hpreferred : Database.preferredWorker
        { db with workers := db.workers.map (Worker.afterFailure key now) } job =
          (db.preferredWorker job).map (Worker.afterFailure key now) := by
      unfold Database.preferredWorker
      cases job.preferredWorkerId with
      | none => rfl
      | some id => exact Table.find_map fun w _ => afterFailure_id w
    rw [hpreferred]
    simp only [jobAllowsWorker, Bool.and_eq_true, decide_eq_true_eq] at h ⊢
    refine ⟨⟨⟨⟨h.1.1.1.1, h.1.1.1.2.imp_right (Or.imp_right fun hnot hany => hnot ?_)⟩, h.1.1.2⟩, h.1.2⟩, h.2⟩
    cases hworker : db.preferredWorker job with
    | none =>
      rw [hworker] at hany
      cases hany
    | some preferred =>
      rw [hworker] at hany
      exact afterFailure_dispatchable hany

theorem markAuthFailed_refuses (hids : db.workerIds.Nodup)
    (hkeys : (db.workers.map (·.workerKey)).Nodup) (key : String) (now : Time) :
    Refuses db (db.markAuthFailed key now) key now := by
  rw [markAuthFailed_eq hids hkeys]
  exact refuses_map hids key now

/-- The key that a registration is refused with: that of the request, or of the worker whose pairing token
has expired. -/
def RefusedKey (db : Database) (r : Database.RegisterRequest) (key : String) : Prop :=
  key = r.workerKey ∨
    ∃ paired ∈ db.workers, paired.workerKey = key ∧ r.pairingTokenHash = paired.pairingTokenHash ∧
      r.pairingTokenHash ≠ none

/-- A registration that fails writes to the row of the worker it names. -/
theorem registerWorker_error {secret : String} {r : Database.RegisterRequest} {newId : WorkerId}
    {tokenHash : String} {e : ApiError} (h : (db.registerWorker secret r newId tokenHash now).1 = .error e) :
    ∃ key, RefusedKey db r key ∧
      (db.registerWorker secret r newId tokenHash now).2 = db.markAuthFailed key now := by
  unfold Database.registerWorker at h ⊢
  split at h
  · next hash hpairing =>
    split at h
    · exact ⟨_, .inl rfl, rfl⟩
    · next paired hpaired =>
      split at h
      · next hexpired =>
        obtain ⟨hfind, -⟩ := Option.filter_eq_some_iff.mp hpaired
        refine ⟨paired.workerKey, .inr ⟨paired, Table.mem_of_find hfind, rfl, ?_, ?_⟩, ?_⟩
        · rw [Table.key_of_find hfind]
          exact hpairing
        · rw [hpairing]
          nofun
        · exact congrArg Prod.snd (if_pos hexpired)
      · cases h
  · split at h
    · cases h
    · next hsecret => exact ⟨_, .inl rfl, by rw [if_neg hsecret]⟩

end Failed

namespace Registration

/-- A registered remote worker. -/
def registered (workerKey : String) : Worker where
  id := "id of " ++ workerKey
  workerKey := workerKey
  workerType := .remote
  registrationStatus := .registered
  authTokenHash := some ("hash of " ++ workerKey)
  lastHeartbeatAt := some 0
  lastHealthStatus := .healthy
  createdAt := 0
  updatedAt := 0

/-- Two workers are registered. -/
def workers : Database where
  workers := [registered "attic", registered "cellar"]

/-- A request of somebody who knows the key of a worker, and no secret. -/
def forged : Database.RegisterRequest where
  workerKey := "attic"
  displayName := "attic"
  registrationSecret := some "a guess"
  pairingTokenHash := none
  maxConcurrentJobs := 1
  pathMappings := []
  scratchPath := none
  healthStatus := .healthy

end Registration

end Encodr
