import Encodr.Db.Models
import Encodr.Lib.Transition
import Encodr.Lib.Versions

/-!
# Refresh tokens

Logins, refreshes and logouts, each a transaction of a few statements (`RefreshTokenRepository`,
`AuthService.login`, `refresh`, `logout`). A refresh consumes its token by one conditional update. A logout
reads the active tokens of the user first and revokes them later.

A row is known by the hash of its token, which is unique. A login that is refused writes no token, and is
left out.

* `TokenStore`: the tokens with the versions of the open transactions, and the open requests.
* `TokenStore.step`, `authSys`: the statements of the requests, and their interleavings.
* `Exchanges`: every token is exchanged at most once.
* `TokenStore.Overtaken`, `LoggedOut`: where no login or refresh of a user commits behind the read of a
  logout, no token outlives it.
-/

namespace Encodr

open Lib

abbrev UserId := String

structure RefreshToken where
  userId : UserId
  expiresAt : Time
  revokedAt : Option Time := none
  revocationReason : Option String := none
  lastUsedAt : Option Time := none
  /-- How many steps had been taken when the request began that issued the token. -/
  requestedAt : Nat := 0
deriving DecidableEq

/-- Neither revoked nor expired. -/
def RefreshToken.isActive (now : Time) (token : RefreshToken) : Bool :=
  token.revokedAt.isNone && now < token.expiresAt

/-- The row of a token that a refresh has consumed. -/
def RefreshToken.consumedAt (now : Time) (reason : String) (token : RefreshToken) : RefreshToken :=
  { token with lastUsedAt := some now, revokedAt := some now, revocationReason := some reason }

/-- The row of a token after a logout. -/
def RefreshToken.loggedOutAt (now : Time) (token : RefreshToken) : RefreshToken :=
  { token with revokedAt := some now, revocationReason := some "logout" }

inductive AuthRequest where
  | login (userId : UserId)
  | refresh (tokenHash : String)
  | logout (userId : UserId)
deriving DecidableEq

/-- How far a request is. -/
inductive AuthStage where
  | begun
  | consumed (userId : UserId)
  | issued (userId : UserId)
  | refused
  /-- A logout that has read the tokens after `readAt` steps, with those it has yet to revoke. -/
  | revoking (userId : UserId) (readAt : Nat) (now : Time) (tokenHashes : List String)
deriving DecidableEq

structure OpenRequest where
  request : AuthRequest
  beganAt : Nat
  stage : AuthStage := .begun

/-- The user that `_issue_tokens` is called for next. -/
def OpenRequest.issuesFor (r : OpenRequest) : Option UserId :=
  match r.request, r.stage with
  | .login userId, .begun => some userId
  | .refresh _, .consumed userId => some userId
  | _, _ => none

/-- The token that a request exchanges for new ones. -/
def OpenRequest.exchanges (r : OpenRequest) : List String :=
  match r.request with
  | .refresh tokenHash => [tokenHash]
  | _ => []

/-- The request holds a token that it has consumed. -/
def OpenRequest.Consumes (r : OpenRequest) (tokenHash : String) : Prop :=
  r.request = .refresh tokenHash ∧ ∃ userId, r.stage = .consumed userId ∨ r.stage = .issued userId

/-- The tokens and the open requests. The last three fields record what has been committed: when a logout of
a user was, when tokens were last issued to a user, and the tokens that were exchanged for new ones. -/
structure TokenStore (ι : Type) where
  hashes : List String := []
  row : String → Versioned ι RefreshToken := fun _ => {}
  now : Time := 0
  steps : Nat := 0
  requests : ι → Option OpenRequest := fun _ => none
  loggedOut : UserId → Nat := fun _ => 0
  issued : UserId → Nat := fun _ => 0
  exchanged : List String := []

inductive AuthAct (ι : Type) where
  | tick (now : Time)
  | begin (i : ι) (request : AuthRequest)
  /-- `consume_active_token`, with what follows for a user who is not active. -/
  | consume (i : ι) (now : Time)
  /-- `_issue_tokens`. -/
  | issue (i : ι) (tokenHash : String) (now : Time)
  /-- The query of `revoke_all_for_user`. -/
  | readActive (i : ι) (now : Time)
  /-- An update of `revoke_all_for_user`. -/
  | revokeNext (i : ι)
  | commit (i : ι)
  | rollback (i : ι)

namespace TokenStore

variable {ι : Type} [DecidableEq ι]

def putStage (s : TokenStore ι) (i : ι) (r : OpenRequest) (stage : AuthStage) : TokenStore ι :=
  { s with requests := Function.update s.requests i (some { r with stage := stage }) }

def putRow (s : TokenStore ι) (i : ι) (tokenHash : String) (token : RefreshToken) : TokenStore ι :=
  { s with row := Function.update s.row tokenHash ((s.row tokenHash).write i token) }

/-- `consume_active_token`: the token with this hash is revoked if it is active. -/
def consume (isActive : UserId → Bool) (s : TokenStore ι) (i : ι) (now : Time) :
    Option (TokenStore ι) := do
  let r ← s.requests i
  match r.request, r.stage with
  | .refresh tokenHash, .begun =>
    guard (now ≤ s.now)
    match ((s.row tokenHash).visible i).filter (·.isActive now) with
    | none => some (s.putStage i r .refused)
    | some token =>
      guard ((s.row tokenHash).waits i = false)
      if isActive token.userId then
        some ((s.putRow i tokenHash (token.consumedAt now "rotated")).putStage i r
          (.consumed token.userId))
      else
        some ((s.putRow i tokenHash (token.consumedAt now "user_inactive")).putStage i r .refused)
  | _, _ => none

/-- `_issue_tokens`: a row with a new hash. -/
def issue (ttl : Time) (s : TokenStore ι) (i : ι) (tokenHash : String) (now : Time) :
    Option (TokenStore ι) := do
  let r ← s.requests i
  let userId ← r.issuesFor
  guard (tokenHash ∉ s.hashes ∧ now ≤ s.now)
  return { s.putStage i r (.issued userId) with
    hashes := s.hashes ++ [tokenHash]
    row := Function.update s.row tokenHash
      { locked := some (i, { userId := userId, expiresAt := now + ttl, requestedAt := r.beganAt }) } }

/-- The query of `revoke_all_for_user`: the active tokens of the user. -/
def readActive (s : TokenStore ι) (i : ι) (now : Time) : Option (TokenStore ι) := do
  let r ← s.requests i
  match r.request, r.stage with
  | .logout userId, .begun =>
    guard (now ≤ s.now)
    some (s.putStage i r (.revoking userId s.steps now (s.hashes.filter fun tokenHash =>
      ((s.row tokenHash).visible i).any fun token => token.userId = userId && token.isActive now)))
  | _, _ => none

/-- The next update of `revoke_all_for_user`. It does not look at the row again. -/
def revokeNext (s : TokenStore ι) (i : ι) : Option (TokenStore ι) := do
  let r ← s.requests i
  match r.stage with
  | .revoking userId readAt now (tokenHash :: tokenHashes) =>
    guard ((s.row tokenHash).waits i = false)
    let token ← (s.row tokenHash).visible i
    some ((s.putRow i tokenHash (token.loggedOutAt now)).putStage i r
      (.revoking userId readAt now tokenHashes))
  | _ => none

/-- The rows after a commit. -/
def committed (s : TokenStore ι) (i : ι) : TokenStore ι :=
  { s with
    row := fun tokenHash => (s.row tokenHash).commit i
    requests := Function.update s.requests i none }

/-- A request commits when it is done, also when it has been refused. -/
def commit (s : TokenStore ι) (i : ι) : Option (TokenStore ι) := do
  let r ← s.requests i
  match r.stage with
  | .refused => some (s.committed i)
  | .issued userId =>
    some { s.committed i with
      issued := Function.update s.issued userId (s.steps + 1)
      exchanged := r.exchanges ++ s.exchanged }
  | .revoking userId _ _ [] =>
    some { s.committed i with loggedOut := Function.update s.loggedOut userId (s.steps + 1) }
  | _ => none

def rollback (s : TokenStore ι) (i : ι) : TokenStore ι :=
  { s with
    row := fun tokenHash => (s.row tokenHash).rollback i
    requests := Function.update s.requests i none }

def act (ttl : Time) (isActive : UserId → Bool) (s : TokenStore ι) : AuthAct ι → Option (TokenStore ι)
  | .tick now => if s.now ≤ now then some { s with now := now } else none
  | .begin i request =>
    if (s.requests i).isNone then
      some { s with requests := Function.update s.requests i (some ⟨request, s.steps, .begun⟩) }
    else none
  | .consume i now => s.consume isActive i now
  | .issue i tokenHash now => s.issue ttl i tokenHash now
  | .readActive i now => s.readActive i now
  | .revokeNext i => s.revokeNext i
  | .commit i => s.commit i
  | .rollback i => some (s.rollback i)

def step (ttl : Time) (isActive : UserId → Bool) (s : TokenStore ι) (a : AuthAct ι) :
    Option (TokenStore ι) :=
  (s.act ttl isActive a).map fun s' => { s' with steps := s.steps + 1 }

/-- Nothing is open, and the tokens were issued before. -/
structure Initial (s : TokenStore ι) : Prop where
  requests : ∀ i, s.requests i = none
  locked : ∀ tokenHash, (s.row tokenHash).locked = none
  known : ∀ tokenHash, tokenHash ∉ s.hashes → (s.row tokenHash).committed = none
  loggedOut : ∀ userId, s.loggedOut userId = 0
  exchanged : s.exchanged = []

end TokenStore

/-- The requests of all users. Tokens live for `ttl`; the users in `isActive` may refresh them. -/
def authSys (ι : Type) [DecidableEq ι] (ttl : Time) (isActive : UserId → Bool) :
    Sys (TokenStore ι) (AuthAct ι) where
  init := TokenStore.Initial
  step := TokenStore.step ttl isActive

/-! ## What the statements do -/

namespace TokenStore

variable {ι : Type} [DecidableEq ι] {s s' : TokenStore ι} {i : ι} {tokenHash : String} {now : Time}

theorem consume_eq_some {isActive : UserId → Bool} (h : s.consume isActive i now = some s') :
    ∃ r hash, s.requests i = some r ∧ r.request = .refresh hash ∧ r.stage = .begun ∧
      (s' = s.putStage i r .refused ∨
        ∃ token stage reason, (s.row hash).visible i = some token ∧ token.isActive now = true ∧
          (s.row hash).waits i = false ∧ (stage = .consumed token.userId ∨ stage = .refused) ∧
          s' = (s.putRow i hash (token.consumedAt now reason)).putStage i r stage) := by
  simp only [TokenStore.consume, bind, Option.bind_eq_some_iff] at h
  obtain ⟨r, hr, h⟩ := h
  split at h
  · next hash hrequest hbegun =>
    refine ⟨r, hash, hr, hrequest, hbegun, ?_⟩
    obtain ⟨-, -, h⟩ := Option.bind_eq_some_iff.mp h
    split at h
    · exact .inl (Option.some.inj h).symm
    · next token htoken =>
      obtain ⟨hvisible, hactive⟩ := Option.filter_eq_some_iff.mp htoken
      obtain ⟨_, hwaits, h⟩ := Option.bind_eq_some_iff.mp h
      rw [Option.guard_eq_some'] at hwaits
      split at h
      · exact .inr ⟨token, _, "rotated", hvisible, hactive, hwaits, .inl rfl, (Option.some.inj h).symm⟩
      · exact .inr ⟨token, _, "user_inactive", hvisible, hactive, hwaits, .inr rfl,
          (Option.some.inj h).symm⟩
  · cases h

theorem issue_eq_some {ttl : Time} (h : s.issue ttl i tokenHash now = some s') :
    ∃ r userId, s.requests i = some r ∧ r.issuesFor = some userId ∧ tokenHash ∉ s.hashes ∧
      s' = { s.putStage i r (.issued userId) with
        hashes := s.hashes ++ [tokenHash]
        row := Function.update s.row tokenHash
          { locked := some (i, { userId := userId, expiresAt := now + ttl, requestedAt := r.beganAt }) } } := by
  simp only [TokenStore.issue, bind, Option.bind_eq_some_iff, Option.guard_eq_some', pure,
    Option.some.injEq] at h
  obtain ⟨r, hr, userId, hissues, -, hguard, rfl⟩ := h
  exact ⟨r, userId, hr, hissues, hguard.1, rfl⟩

theorem readActive_eq_some (h : s.readActive i now = some s') :
    ∃ r userId, s.requests i = some r ∧ r.request = .logout userId ∧ r.stage = .begun ∧ now ≤ s.now ∧
      s' = s.putStage i r (.revoking userId s.steps now (s.hashes.filter fun tokenHash =>
        ((s.row tokenHash).visible i).any fun token => token.userId = userId && token.isActive now)) := by
  simp only [TokenStore.readActive, bind, Option.bind_eq_some_iff] at h
  obtain ⟨r, hr, h⟩ := h
  split at h
  · next userId hrequest hbegun =>
    obtain ⟨_, hguard, h⟩ := Option.bind_eq_some_iff.mp h
    rw [Option.guard_eq_some'] at hguard
    exact ⟨r, userId, hr, hrequest, hbegun, hguard, (Option.some.inj h).symm⟩
  · cases h

theorem revokeNext_eq_some (h : s.revokeNext i = some s') :
    ∃ r userId readAt now hash hashes, ∃ token : RefreshToken, s.requests i = some r ∧
      r.stage = .revoking userId readAt now (hash :: hashes) ∧ (s.row hash).waits i = false ∧
      s' = (s.putRow i hash (token.loggedOutAt now)).putStage i r (.revoking userId readAt now hashes) := by
  simp only [TokenStore.revokeNext, bind, Option.bind_eq_some_iff] at h
  obtain ⟨r, hr, h⟩ := h
  split at h
  · next userId readAt now hash hashes hstage =>
    obtain ⟨_, hwaits, h⟩ := Option.bind_eq_some_iff.mp h
    obtain ⟨token, -, h⟩ := Option.bind_eq_some_iff.mp h
    rw [Option.guard_eq_some'] at hwaits
    exact ⟨r, userId, readAt, now, hash, hashes, token, hr, hstage, hwaits, (Option.some.inj h).symm⟩
  · cases h

theorem commit_eq_some (h : s.commit i = some s') :
    ∃ r, s.requests i = some r ∧
      (r.stage = .refused ∧ s' = s.committed i ∨
        (∃ userId, r.stage = .issued userId ∧ s' = { s.committed i with
          issued := Function.update s.issued userId (s.steps + 1)
          exchanged := r.exchanges ++ s.exchanged }) ∨
        ∃ userId readAt now, r.stage = .revoking userId readAt now [] ∧ s' = { s.committed i with
          loggedOut := Function.update s.loggedOut userId (s.steps + 1) }) := by
  simp only [TokenStore.commit, bind, Option.bind_eq_some_iff] at h
  obtain ⟨r, hr, h⟩ := h
  refine ⟨r, hr, ?_⟩
  split at h
  · next hstage => exact .inl ⟨hstage, (Option.some.inj h).symm⟩
  · next userId hstage => exact .inr (.inl ⟨userId, hstage, (Option.some.inj h).symm⟩)
  · next userId readAt now hstage => exact .inr (.inr ⟨userId, readAt, now, hstage, (Option.some.inj h).symm⟩)
  · cases h

theorem act_steps {ttl : Time} {isActive : UserId → Bool} {a : AuthAct ι}
    (h : s.act ttl isActive a = some s') : s'.steps = s.steps := by
  cases a with
  | tick now =>
    simp only [TokenStore.act] at h
    split at h
    · obtain rfl := Option.some.inj h
      rfl
    · cases h
  | begin i request =>
    simp only [TokenStore.act] at h
    split at h
    · obtain rfl := Option.some.inj h
      rfl
    · cases h
  | consume i now =>
    obtain ⟨_, _, -, -, -, rfl | ⟨_, _, _, -, -, -, -, rfl⟩⟩ := consume_eq_some h <;> rfl
  | issue i tokenHash now =>
    obtain ⟨_, _, -, -, -, rfl⟩ := issue_eq_some h
    rfl
  | readActive i now =>
    obtain ⟨_, _, -, -, -, -, rfl⟩ := readActive_eq_some h
    rfl
  | revokeNext i =>
    obtain ⟨_, _, _, _, _, _, _, -, -, -, rfl⟩ := revokeNext_eq_some h
    rfl
  | commit i =>
    obtain ⟨_, -, ⟨-, rfl⟩ | ⟨_, -, rfl⟩ | ⟨_, _, _, -, rfl⟩⟩ := commit_eq_some h <;> rfl
  | rollback i =>
    obtain rfl := Option.some.inj h
    rfl

end TokenStore

/-! ## Tokens are exchanged once -/

namespace TokenStore

variable {ι : Type} [DecidableEq ι] {s s' : TokenStore ι} {i j : ι} {r r' : OpenRequest}
  {stage : AuthStage} {k tokenHash : String} {t token : RefreshToken} {now : Time}

/-- A request that holds a row has begun its statements. It holds the token that it consumes, which nobody
else can consume before it ends. -/
structure Rotates (s : TokenStore ι) : Prop where
  known : ∀ k, k ∉ s.hashes → (s.row k).committed = none ∧ (s.row k).locked = none
  owner : ∀ k i t, (s.row k).locked = some (i, t) → ∃ r, s.requests i = some r ∧ r.stage ≠ .begun
  revoked : ∀ k t i t', (s.row k).committed = some t → (s.row k).locked = some (i, t') →
    t'.revokedAt ≠ none
  listed : ∀ i r userId readAt now tokenHashes, s.requests i = some r →
    r.stage = .revoking userId readAt now tokenHashes → ∀ k ∈ tokenHashes, (s.row k).committed ≠ none
  consumes : ∀ i r k, s.requests i = some r → r.Consumes k →
    ∃ t t', (s.row k).committed = some t ∧ t.revokedAt = none ∧ (s.row k).locked = some (i, t')
  spent : ∀ k ∈ s.exchanged, ∃ t, (s.row k).committed = some t ∧ t.revokedAt ≠ none
  nodup : s.exchanged.Nodup

omit [DecidableEq ι] in
theorem putRow_row : (s.putRow i tokenHash token).row =
    Function.update s.row tokenHash ((s.row tokenHash).write i token) := rfl

omit [DecidableEq ι] in
@[simp] theorem putRow_committed : ((s.putRow i tokenHash token).row k).committed = (s.row k).committed := by
  rw [putRow_row]
  by_cases h : k = tokenHash
  · rw [h, Function.update_self, Versioned.write_committed]
  · rw [Function.update_of_ne h]

omit [DecidableEq ι] in
@[simp] theorem putRow_locked : ((s.putRow i tokenHash token).row tokenHash).locked = some (i, token) := by
  rw [putRow_row, Function.update_self, Versioned.write_locked]

omit [DecidableEq ι] in
theorem putRow_locked_of_ne (h : k ≠ tokenHash) :
    ((s.putRow i tokenHash token).row k).locked = (s.row k).locked := by
  rw [putRow_row, Function.update_of_ne h]

@[simp] theorem putStage_row : (s.putStage i r stage).row = s.row := rfl

/-- The open requests after a step of a request. -/
theorem putStage_requests (h : (s.putStage i r stage).requests j = some r') :
    j = i ∧ r' = { r with stage := stage } ∨ j ≠ i ∧ s.requests j = some r' := by
  change Function.update s.requests i _ j = _ at h
  by_cases hij : j = i
  · rw [hij, Function.update_self] at h
    exact .inl ⟨hij, (Option.some.inj h).symm⟩
  · rw [Function.update_of_ne hij] at h
    exact .inr ⟨hij, h⟩

@[simp] theorem putStage_self : (s.putStage i r stage).requests i = some { r with stage := stage } :=
  Function.update_self ..

theorem putStage_of_ne (h : j ≠ i) : (s.putStage i r stage).requests j = s.requests j :=
  Function.update_of_ne h ..

namespace Rotates

variable (hs : s.Rotates)
include hs

omit [DecidableEq ι] in
/-- A request that has just begun holds no row. -/
theorem not_locked (hr : s.requests i = some r) (hbegun : r.stage = .begun) (k : String)
    (t : RefreshToken) : (s.row k).locked ≠ some (i, t) := by
  intro hlocked
  obtain ⟨r', hr', hstage⟩ := hs.owner k i t hlocked
  obtain rfl := Option.some.inj (hr.symm.trans hr')
  exact hstage hbegun

/-- A request goes on without writing a row. -/
theorem goOn (hr : s.requests i = some r) (hstage : stage ≠ .begun)
    (hconsumes : ∀ k, ¬ OpenRequest.Consumes { r with stage := stage } k)
    (hlisted : ∀ userId readAt now tokenHashes, stage = .revoking userId readAt now tokenHashes →
      ∀ k ∈ tokenHashes, (s.row k).committed ≠ none) :
    (s.putStage i r stage).Rotates where
  known := hs.known
  owner k j t hlocked := by
    obtain ⟨r', hr', hbegun⟩ := hs.owner k j t hlocked
    by_cases hij : j = i
    · subst hij
      exact ⟨_, putStage_self, hstage⟩
    · exact ⟨r', (putStage_of_ne hij).trans hr', hbegun⟩
  revoked := hs.revoked
  listed j r' userId readAt now tokenHashes hr' := by
    rcases putStage_requests hr' with ⟨-, rfl⟩ | ⟨-, hr'⟩
    · exact hlisted userId readAt now tokenHashes
    · exact hs.listed j r' userId readAt now tokenHashes hr'
  consumes j r' k hr' hcons := by
    rcases putStage_requests hr' with ⟨-, rfl⟩ | ⟨-, hr'⟩
    · exact absurd hcons (hconsumes k)
    · exact hs.consumes j r' k hr' hcons
  spent := hs.spent
  nodup := hs.nodup

/-- A request revokes a token that nobody else holds. -/
theorem revoke (hr : s.requests i = some r) (hstage : stage ≠ .begun)
    (hcommitted : (s.row tokenHash).committed = some t) (hwaits : (s.row tokenHash).waits i = false)
    (hrevoked : token.revokedAt ≠ none)
    (hconsumes : ∀ k, OpenRequest.Consumes { r with stage := stage } k →
      k = tokenHash ∧ t.revokedAt = none)
    (hlisted : ∀ userId readAt now tokenHashes, stage = .revoking userId readAt now tokenHashes →
      ∀ k ∈ tokenHashes, (s.row k).committed ≠ none) :
    ((s.putRow i tokenHash token).putStage i r stage).Rotates where
  known k hk := by
    have hne : k ≠ tokenHash := by
      rintro rfl
      rw [(hs.known k hk).1] at hcommitted
      cases hcommitted
    rw [putStage_row, putRow_committed, putRow_locked_of_ne hne]
    exact hs.known k hk
  owner k j t' hlocked := by
    by_cases hij : j = i
    · subst hij
      exact ⟨_, putStage_self, hstage⟩
    · rw [putStage_row] at hlocked
      by_cases hk : k = tokenHash
      · rw [hk, putRow_locked] at hlocked
        exact absurd (Prod.mk.inj (Option.some.inj hlocked)).1.symm hij
      · rw [putRow_locked_of_ne hk] at hlocked
        obtain ⟨r', hr', hbegun⟩ := hs.owner k j t' hlocked
        exact ⟨r', (putStage_of_ne hij).trans hr', hbegun⟩
  revoked k t₀ j t' hcommitted' hlocked := by
    rw [putStage_row] at hcommitted' hlocked
    by_cases hk : k = tokenHash
    · rw [hk, putRow_locked] at hlocked
      exact (Prod.mk.inj (Option.some.inj hlocked)).2 ▸ hrevoked
    · rw [putRow_locked_of_ne hk] at hlocked
      rw [putRow_committed] at hcommitted'
      exact hs.revoked k t₀ j t' hcommitted' hlocked
  listed j r' userId readAt now tokenHashes hr' hstage' k hk := by
    rw [putStage_row, putRow_committed]
    rcases putStage_requests hr' with ⟨-, rfl⟩ | ⟨-, hr'⟩
    · exact hlisted userId readAt now tokenHashes hstage' k hk
    · exact hs.listed j r' userId readAt now tokenHashes hr' hstage' k hk
  consumes j r' k hr' hcons := by
    rw [putStage_row, putRow_committed]
    rcases putStage_requests hr' with ⟨rfl, rfl⟩ | ⟨hij, hr'⟩
    · obtain ⟨rfl, hactive⟩ := hconsumes k hcons
      exact ⟨t, token, hcommitted, hactive, putRow_locked⟩
    · obtain ⟨t₀, t', hcommitted', hactive, hlocked⟩ := hs.consumes j r' k hr' hcons
      have hk : k ≠ tokenHash := by
        rintro rfl
        exact hij (Versioned.owner_eq hwaits hlocked)
      exact ⟨t₀, t', hcommitted', hactive, (putRow_locked_of_ne hk).trans hlocked⟩
  spent k hk := by
    rw [putStage_row, putRow_committed]
    exact hs.spent k hk
  nodup := hs.nodup

/-- A request inserts a row with a new hash. -/
theorem insert (hr : s.requests i = some r) (hstage : stage ≠ .begun) (hnew : tokenHash ∉ s.hashes)
    (hconsumes : ∀ k, OpenRequest.Consumes { r with stage := stage } k → r.Consumes k)
    (hnot : ∀ userId readAt now tokenHashes, stage ≠ .revoking userId readAt now tokenHashes) :
    Rotates { s.putStage i r stage with
      hashes := s.hashes ++ [tokenHash]
      row := Function.update s.row tokenHash { locked := some (i, token) } } := by
  obtain ⟨hnone, hunlocked⟩ := hs.known tokenHash hnew
  have hne : ∀ {k t}, (s.row k).committed = some t → k ≠ tokenHash := by
    rintro k t hcommitted rfl
    rw [hnone] at hcommitted
    cases hcommitted
  have hrow : ∀ {k}, k ≠ tokenHash →
      Function.update s.row tokenHash { locked := some (i, token) } k = s.row k :=
    fun hk => Function.update_of_ne hk ..
  constructor
  case known =>
    intro k hk
    rw [List.mem_append, List.mem_singleton, not_or] at hk
    dsimp only
    rw [hrow hk.2]
    exact hs.known k hk.1
  case owner =>
    intro k j t hlocked
    by_cases hij : j = i
    · subst hij
      exact ⟨_, putStage_self, hstage⟩
    · have hk : k ≠ tokenHash := by
        rintro rfl
        dsimp only at hlocked
        rw [Function.update_self] at hlocked
        exact hij (Prod.mk.inj (Option.some.inj hlocked)).1.symm
      dsimp only at hlocked
      rw [hrow hk] at hlocked
      obtain ⟨r', hr', hbegun⟩ := hs.owner k j t hlocked
      exact ⟨r', (putStage_of_ne hij).trans hr', hbegun⟩
  case revoked =>
    intro k t j t' hcommitted hlocked
    have hk : k ≠ tokenHash := by
      rintro rfl
      dsimp only at hcommitted
      rw [Function.update_self] at hcommitted
      cases hcommitted
    dsimp only at hcommitted hlocked
    rw [hrow hk] at hcommitted hlocked
    exact hs.revoked k t j t' hcommitted hlocked
  case listed =>
    intro j r' userId readAt now tokenHashes hr' hstage' k hk
    rcases putStage_requests hr' with ⟨-, rfl⟩ | ⟨-, hr'⟩
    · exact absurd hstage' (hnot userId readAt now tokenHashes)
    · have hcommitted := hs.listed j r' userId readAt now tokenHashes hr' hstage' k hk
      obtain ⟨t, ht⟩ := Option.ne_none_iff_exists'.mp hcommitted
      dsimp only
      rwa [hrow (hne ht)]
  case consumes =>
    intro j r' k hr' hcons
    obtain ⟨r₀, hr₀, hcons₀⟩ : ∃ r₀, s.requests j = some r₀ ∧ r₀.Consumes k := by
      rcases putStage_requests hr' with ⟨rfl, rfl⟩ | ⟨-, hr'⟩
      · exact ⟨r, hr, hconsumes k hcons⟩
      · exact ⟨r', hr', hcons⟩
    obtain ⟨t, t', hcommitted, hactive, hlocked⟩ := hs.consumes j r₀ k hr₀ hcons₀
    dsimp only
    rw [hrow (hne hcommitted)]
    exact ⟨t, t', hcommitted, hactive, hlocked⟩
  case spent =>
    intro k hk
    obtain ⟨t, hcommitted, hrevoked⟩ := hs.spent k hk
    dsimp only
    rw [hrow (hne hcommitted)]
    exact ⟨t, hcommitted, hrevoked⟩
  case nodup => exact hs.nodup

/-- The rows and the open requests after a commit. -/
theorem committed (exchanged : List String)
    (hspent : ∀ k ∈ exchanged, ∃ t, ((s.row k).commit i).committed = some t ∧ t.revokedAt ≠ none)
    (hnodup : exchanged.Nodup) (issued loggedOut : UserId → Nat) :
    Rotates { s.committed i with
      exchanged := exchanged, issued := issued, loggedOut := loggedOut } where
  known k hk := by
    obtain ⟨hnone, hunlocked⟩ := hs.known k hk
    have hother : ∀ t, (s.row k).locked ≠ some (i, t) := by
      rw [hunlocked]
      nofun
    show ((s.row k).commit i).committed = none ∧ ((s.row k).commit i).locked = none
    rw [Versioned.commit_of_other hother]
    exact ⟨hnone, hunlocked⟩
  owner k j t hlocked := by
    obtain ⟨heq, hij⟩ := Versioned.locked_commit hlocked
    obtain ⟨r, hr, hbegun⟩ := hs.owner k j t (heq ▸ hlocked)
    exact ⟨r, (Function.update_of_ne hij ..).trans hr, hbegun⟩
  revoked k t j t' hcommitted hlocked := by
    obtain ⟨heq, -⟩ := Versioned.locked_commit hlocked
    exact hs.revoked k t j t' (heq ▸ hcommitted) (heq ▸ hlocked)
  listed j r userId readAt now tokenHashes hr hstage k hk := by
    by_cases hij : j = i
    · rw [hij] at hr
      cases (Function.update_self ..).symm.trans hr
    · exact Versioned.commit_ne_none (hs.listed j r userId readAt now tokenHashes
        ((Function.update_of_ne hij ..).symm.trans hr) hstage k hk)
  consumes j r k hr hcons := by
    by_cases hij : j = i
    · rw [hij] at hr
      cases (Function.update_self ..).symm.trans hr
    · obtain ⟨t, t', hcommitted, hactive, hlocked⟩ :=
        hs.consumes j r k ((Function.update_of_ne hij ..).symm.trans hr) hcons
      have hother : ∀ t, (s.row k).locked ≠ some (i, t) := by
        intro t hlocked'
        exact hij (Prod.mk.inj (Option.some.inj (hlocked.symm.trans hlocked'))).1
      show ∃ t t', ((s.row k).commit i).committed = some t ∧ _ ∧ ((s.row k).commit i).locked = some (j, t')
      rw [Versioned.commit_of_other hother]
      exact ⟨t, t', hcommitted, hactive, hlocked⟩
  spent := hspent
  nodup := hnodup

/-- A token that was exchanged stays spent. -/
theorem spent_commit (h : k ∈ s.exchanged) :
    ∃ t, ((s.row k).commit i).committed = some t ∧ t.revokedAt ≠ none := by
  obtain ⟨t, hcommitted, hrevoked⟩ := hs.spent k h
  rcases Versioned.locked_cases i (s.row k) with ⟨t', hlocked⟩ | hother
  · rw [Versioned.commit_of_locked hlocked]
    exact ⟨t', rfl, hs.revoked k t i t' hcommitted hlocked⟩
  · rw [Versioned.commit_of_other hother]
    exact ⟨t, hcommitted, hrevoked⟩

theorem rollback (i : ι) : (s.rollback i).Rotates where
  known k hk := by
    obtain ⟨hnone, hunlocked⟩ := hs.known k hk
    have hother : ∀ t, (s.row k).locked ≠ some (i, t) := by
      rw [hunlocked]
      nofun
    show ((s.row k).rollback i).committed = none ∧ ((s.row k).rollback i).locked = none
    rw [Versioned.rollback_of_other hother]
    exact ⟨hnone, hunlocked⟩
  owner k j t hlocked := by
    obtain ⟨heq, hij⟩ := Versioned.locked_rollback hlocked
    obtain ⟨r, hr, hbegun⟩ := hs.owner k j t (heq ▸ hlocked)
    exact ⟨r, (Function.update_of_ne hij ..).trans hr, hbegun⟩
  revoked k t j t' hcommitted hlocked := by
    obtain ⟨heq, -⟩ := Versioned.locked_rollback hlocked
    exact hs.revoked k t j t' (heq ▸ hcommitted) (heq ▸ hlocked)
  listed j r userId readAt now tokenHashes hr hstage k hk := by
    by_cases hij : j = i
    · rw [hij] at hr
      cases (Function.update_self ..).symm.trans hr
    · show ((s.row k).rollback i).committed ≠ none
      rw [Versioned.rollback_committed]
      exact hs.listed j r userId readAt now tokenHashes ((Function.update_of_ne hij ..).symm.trans hr)
        hstage k hk
  consumes j r k hr hcons := by
    by_cases hij : j = i
    · rw [hij] at hr
      cases (Function.update_self ..).symm.trans hr
    · obtain ⟨t, t', hcommitted, hactive, hlocked⟩ :=
        hs.consumes j r k ((Function.update_of_ne hij ..).symm.trans hr) hcons
      have hother : ∀ t, (s.row k).locked ≠ some (i, t) := by
        intro t hlocked'
        exact hij (Prod.mk.inj (Option.some.inj (hlocked.symm.trans hlocked'))).1
      show ∃ t t', ((s.row k).rollback i).committed = some t ∧ _ ∧
        ((s.row k).rollback i).locked = some (j, t')
      rw [Versioned.rollback_of_other hother]
      exact ⟨t, t', hcommitted, hactive, hlocked⟩
  spent k hk := by
    show ∃ t, ((s.row k).rollback i).committed = some t ∧ _
    rw [Versioned.rollback_committed]
    exact hs.spent k hk
  nodup := hs.nodup

theorem consume {isActive : UserId → Bool} (h : s.consume isActive i now = some s') : s'.Rotates := by
  obtain ⟨r, hash, hr, hrequest, hbegun, rfl | ⟨token, stage, reason, hvisible, hactive, hwaits, hstage, rfl⟩⟩ :=
    consume_eq_some h
  · refine hs.goOn hr nofun ?_ nofun
    rintro k ⟨-, _, hstage | hstage⟩ <;> cases hstage
  · rw [Versioned.visible_of_other (hs.not_locked hr hbegun hash)] at hvisible
    have hunrevoked : token.revokedAt = none := by
      simp only [RefreshToken.isActive, Bool.and_eq_true, Option.isNone_iff_eq_none] at hactive
      exact hactive.1
    refine hs.revoke hr ?_ hvisible hwaits nofun ?_ ?_
    · rcases hstage with rfl | rfl <;> nofun
    · rintro k ⟨hk, -⟩
      obtain rfl : hash = k := AuthRequest.refresh.inj (hrequest.symm.trans hk)
      exact ⟨rfl, hunrevoked⟩
    · rcases hstage with rfl | rfl <;> nofun

theorem issue {ttl : Time} (h : s.issue ttl i tokenHash now = some s') : s'.Rotates := by
  obtain ⟨r, userId, hr, hissues, hnew, rfl⟩ := issue_eq_some h
  refine hs.insert hr (fun h => nomatch h) hnew ?_ (fun _ _ _ _ h => nomatch h)
  rintro k ⟨hrequest, -⟩
  refine ⟨hrequest, userId, .inl ?_⟩
  unfold OpenRequest.issuesFor at hissues
  split at hissues
  · next hlogin _ => cases hlogin.symm.trans hrequest
  · next hstage => exact hstage.trans (congrArg _ (Option.some.inj hissues))
  · cases hissues

theorem readActive (h : s.readActive i now = some s') : s'.Rotates := by
  obtain ⟨r, userId, hr, hrequest, hbegun, -, rfl⟩ := readActive_eq_some h
  refine hs.goOn hr nofun ?_ ?_
  · rintro k ⟨hrefresh, -⟩
    cases hrequest.symm.trans hrefresh
  · rintro _ _ _ _ ⟨⟩ k hk
    have hvisible := (List.mem_filter.mp hk).2
    rw [Versioned.visible_of_other (hs.not_locked hr hbegun k)] at hvisible
    intro hnone
    rw [hnone] at hvisible
    cases hvisible

theorem revokeNext (h : s.revokeNext i = some s') : s'.Rotates := by
  obtain ⟨r, userId, readAt, now, hash, hashes, token, hr, hstage, hwaits, rfl⟩ := revokeNext_eq_some h
  have hlisted := hs.listed i r userId readAt now _ hr hstage
  obtain ⟨t, hcommitted⟩ := Option.ne_none_iff_exists'.mp (hlisted hash (List.mem_cons_self ..))
  refine hs.revoke hr nofun hcommitted hwaits nofun ?_ ?_
  · rintro k ⟨-, _, hstage | hstage⟩ <;> cases hstage
  · rintro _ _ _ _ ⟨⟩ k hk
    exact hlisted k (List.mem_cons_of_mem _ hk)

theorem commit (h : s.commit i = some s') : s'.Rotates := by
  obtain ⟨r, hr, h⟩ := commit_eq_some h
  have hspent : ∀ k ∈ s.exchanged, _ := fun k hk => hs.spent_commit (i := i) hk
  rcases h with ⟨-, rfl⟩ | ⟨userId, hstage, rfl⟩ | ⟨userId, readAt, now, hstage, rfl⟩
  · exact hs.committed s.exchanged hspent hs.nodup s.issued s.loggedOut
  · unfold OpenRequest.exchanges
    split
    · next hash hrequest =>
      -- the token that the request has consumed was active until now, so nobody has exchanged it
      obtain ⟨t, t', hcommitted, hactive, hlocked⟩ :=
        hs.consumes i r hash hr ⟨hrequest, userId, .inr hstage⟩
      have hnot : hash ∉ s.exchanged := by
        intro hmem
        obtain ⟨t₀, hcommitted₀, hrevoked⟩ := hs.spent hash hmem
        obtain rfl := Option.some.inj (hcommitted.symm.trans hcommitted₀)
        exact hrevoked hactive
      refine hs.committed _ ?_ (List.nodup_cons.mpr ⟨hnot, hs.nodup⟩) _ s.loggedOut
      intro k hk
      rcases List.mem_cons.mp hk with rfl | hk
      · rw [Versioned.commit_of_locked hlocked]
        exact ⟨t', rfl, hs.revoked k t i t' hcommitted hlocked⟩
      · exact hspent k hk
    · exact hs.committed s.exchanged hspent hs.nodup _ s.loggedOut
  · exact hs.committed s.exchanged hspent hs.nodup s.issued _

theorem begin_ {request : AuthRequest} (hnone : s.requests i = none) :
    Rotates { s with requests := Function.update s.requests i (some ⟨request, s.steps, .begun⟩) } where
  known := hs.known
  owner k j t hlocked := by
    obtain ⟨r, hr, hbegun⟩ := hs.owner k j t hlocked
    have hij : j ≠ i := by
      rintro rfl
      cases hnone.symm.trans hr
    exact ⟨r, (Function.update_of_ne hij ..).trans hr, hbegun⟩
  revoked := hs.revoked
  listed j r userId readAt now tokenHashes hr hstage := by
    rcases putStage_requests (r := ⟨request, s.steps, .begun⟩) hr with ⟨-, rfl⟩ | ⟨-, hr⟩
    · cases hstage
    · exact hs.listed j r userId readAt now tokenHashes hr hstage
  consumes j r k hr hcons := by
    rcases putStage_requests (r := ⟨request, s.steps, .begun⟩) hr with ⟨-, rfl⟩ | ⟨-, hr⟩
    · obtain ⟨-, _, hstage | hstage⟩ := hcons <;> cases hstage
    · exact hs.consumes j r k hr hcons
  spent := hs.spent
  nodup := hs.nodup

theorem act {ttl : Time} {isActive : UserId → Bool} {a : AuthAct ι}
    (h : s.act ttl isActive a = some s') : s'.Rotates := by
  cases a with
  | tick now =>
    simp only [TokenStore.act] at h
    split at h
    · obtain rfl := Option.some.inj h
      exact ⟨hs.known, hs.owner, hs.revoked, hs.listed, hs.consumes, hs.spent, hs.nodup⟩
    · cases h
  | begin i request =>
    simp only [TokenStore.act] at h
    split at h
    · next hnone =>
      obtain rfl := Option.some.inj h
      exact hs.begin_ (Option.isNone_iff_eq_none.mp hnone)
    · cases h
  | consume i now => exact hs.consume h
  | issue i tokenHash now => exact hs.issue h
  | readActive i now => exact hs.readActive h
  | revokeNext i => exact hs.revokeNext h
  | commit i => exact hs.commit h
  | rollback i =>
    obtain rfl := Option.some.inj h
    exact hs.rollback i

end Rotates

omit [DecidableEq ι] in
theorem Initial.rotates (h : s.Initial) : s.Rotates where
  known k hk := ⟨h.known k hk, h.locked k⟩
  owner k i t hlocked := by cases (h.locked k).symm.trans hlocked
  revoked k t i t' _ hlocked := by cases (h.locked k).symm.trans hlocked
  listed i r _ _ _ _ hr := by cases (h.requests i).symm.trans hr
  consumes i r k hr := by cases (h.requests i).symm.trans hr
  spent k hk := by
    rw [h.exchanged] at hk
    cases hk
  nodup := by
    rw [h.exchanged]
    exact List.nodup_nil

/-- Rows do not know how many steps were taken. -/
theorem Rotates.step {ttl : Time} {isActive : UserId → Bool} {a : AuthAct ι} (hs : s.Rotates)
    (h : s.step ttl isActive a = some s') : s'.Rotates := by
  obtain ⟨s₁, hact, rfl⟩ := Option.map_eq_some_iff.mp h
  have h₁ := hs.act hact
  exact ⟨h₁.known, h₁.owner, h₁.revoked, h₁.listed, h₁.consumes, h₁.spent, h₁.nodup⟩

end TokenStore

/-- The tokens rotate in every run. -/
theorem authSys_rotates (ι : Type) [DecidableEq ι] (ttl : Time) (isActive : UserId → Bool)
    (C : TokenStore ι → AuthAct ι → Prop) :
    (authSys ι ttl isActive).Inductive C TokenStore.Rotates :=
  ⟨fun _ h => h.rotates, fun _ _ _ hs _ h => hs.step h⟩

/-! ## No token outlives a logout -/

namespace TokenStore

variable {ι : Type} [DecidableEq ι] {s s' : TokenStore ι} {i j : ι} {r r' : OpenRequest}
  {stage : AuthStage} {k tokenHash : String} {t token : RefreshToken} {now : Time} {userId : UserId}

/-- A commit comes too late: a login or refresh that began before the last logout of the user was committed
commits after it, or a logout commits after a login or refresh of the user that was committed behind its
read. -/
def overtaken (s : TokenStore ι) : AuthAct ι → Bool
  | .commit i => (s.requests i).any fun r => match r.stage with
    | .issued userId => r.beganAt < s.loggedOut userId
    | .revoking userId readAt _ _ => readAt < s.issued userId
    | _ => false
  | _ => false

/-- The last logout of a user has left no token active that was requested before it was committed. A logout
under way has yet to revoke the active tokens of the user, or holds them, or they were issued behind its
read. -/
structure LogsOut (s : TokenStore ι) : Prop where
  inserted : ∀ k i t, (s.row k).committed = none → (s.row k).locked = some (i, t) →
    ∃ r, s.requests i = some r ∧ r.stage = .issued t.userId ∧ t.requestedAt = r.beganAt
  readBefore : ∀ i r userId readAt now tokenHashes, s.requests i = some r →
    r.stage = .revoking userId readAt now tokenHashes → readAt ≤ s.steps
  pending : ∀ i r userId readAt now tokenHashes, s.requests i = some r →
    r.stage = .revoking userId readAt now tokenHashes → ∀ k t, (s.row k).committed = some t →
      t.userId = userId → t.isActive s.now = true →
        k ∈ tokenHashes ∨ (∃ t', (s.row k).locked = some (i, t')) ∨ readAt < s.issued userId
  final : ∀ k t, (s.row k).committed = some t → t.isActive s.now = true →
    s.loggedOut t.userId ≤ t.requestedAt

theorem not_isActive_of_revoked (h : t.revokedAt ≠ none) : t.isActive now = false := by
  unfold RefreshToken.isActive
  cases hrevoked : t.revokedAt with
  | none => exact absurd hrevoked h
  | some _ => rfl

/-- A token that is active was active before. -/
theorem isActive_of_le {later : Time} (hle : now ≤ later) (h : t.isActive later = true) :
    t.isActive now = true := by
  simp only [RefreshToken.isActive, Bool.and_eq_true, decide_eq_true_eq] at h ⊢
  exact ⟨h.1, lt_of_le_of_lt hle h.2⟩

namespace LogsOut

variable (hl : s.LogsOut)
include hl

/-- A request goes on without a commit, and takes no lock of another one. -/
theorem advance (hr : s.requests i = some r) {hashes : List String}
    {row : String → Versioned ι RefreshToken}
    (hcommitted : ∀ k, (row k).committed = (s.row k).committed)
    (hlocked : ∀ k j t, j ≠ i → ((row k).locked = some (j, t) ↔ (s.row k).locked = some (j, t)))
    (hinserted : ∀ k t, (s.row k).committed = none → (row k).locked = some (i, t) →
      stage = .issued t.userId ∧ t.requestedAt = r.beganAt)
    (hread : ∀ userId readAt now tokenHashes, stage = .revoking userId readAt now tokenHashes →
      readAt ≤ s.steps ∧ ∀ k t, (s.row k).committed = some t → t.userId = userId →
        t.isActive s.now = true →
          k ∈ tokenHashes ∨ (∃ t', (row k).locked = some (i, t')) ∨ readAt < s.issued userId) :
    LogsOut { s.putStage i r stage with hashes := hashes, row := row } where
  inserted k j t hnone hlock := by
    rw [hcommitted] at hnone
    by_cases hij : j = i
    · subst hij
      obtain ⟨hstage, hbegan⟩ := hinserted k t hnone hlock
      exact ⟨_, putStage_self, hstage, hbegan⟩
    · obtain ⟨r', hr', hissued⟩ := hl.inserted k j t hnone ((hlocked k j t hij).mp hlock)
      exact ⟨r', (putStage_of_ne hij).trans hr', hissued⟩
  readBefore j r' userId readAt now tokenHashes hr' hstage := by
    rcases putStage_requests hr' with ⟨-, rfl⟩ | ⟨-, hr'⟩
    · exact (hread userId readAt now tokenHashes hstage).1
    · exact hl.readBefore j r' userId readAt now tokenHashes hr' hstage
  pending j r' userId readAt now tokenHashes hr' hstage k t ht := by
    rw [hcommitted] at ht
    rcases putStage_requests hr' with ⟨rfl, rfl⟩ | ⟨hij, hr'⟩
    · exact (hread userId readAt now tokenHashes hstage).2 k t ht
    · intro huser hactive
      exact (hl.pending j r' userId readAt now tokenHashes hr' hstage k t ht huser hactive).imp_right
        (Or.imp_left fun ⟨t', hlock⟩ => ⟨t', (hlocked k j t' hij).mpr hlock⟩)
  final k t ht := by
    rw [hcommitted] at ht
    exact hl.final k t ht

omit [DecidableEq ι] in
/-- A request that does not issue a token has inserted no row. -/
theorem not_inserted (hr : s.requests i = some r) (hnot : ∀ userId, r.stage ≠ .issued userId)
    (hnone : (s.row k).committed = none) : (s.row k).locked ≠ some (i, t) := by
  intro hlock
  obtain ⟨r', hr', hissued, -⟩ := hl.inserted k i t hnone hlock
  obtain rfl := Option.some.inj (hr.symm.trans hr')
  exact hnot t.userId hissued

/-- A request goes on without writing a row. -/
theorem goOn (hr : s.requests i = some r) (hnot : ∀ userId, r.stage ≠ .issued userId)
    (hread : ∀ userId readAt now tokenHashes, stage = .revoking userId readAt now tokenHashes →
      readAt ≤ s.steps ∧ ∀ k t, (s.row k).committed = some t → t.userId = userId →
        t.isActive s.now = true →
          k ∈ tokenHashes ∨ (∃ t', (s.row k).locked = some (i, t')) ∨ readAt < s.issued userId) :
    (s.putStage i r stage).LogsOut :=
  hl.advance hr (fun _ => rfl) (fun _ _ _ _ => Iff.rfl)
    (fun _ _ hnone hlock => absurd hlock (hl.not_inserted hr hnot hnone)) hread

/-- A request revokes a committed token that nobody else holds. -/
theorem revoke (hr : s.requests i = some r) (hnot : ∀ userId, r.stage ≠ .issued userId)
    (hcommitted : (s.row tokenHash).committed ≠ none) (hwaits : (s.row tokenHash).waits i = false)
    (hread : ∀ userId readAt now tokenHashes, stage = .revoking userId readAt now tokenHashes →
      readAt ≤ s.steps ∧ ∀ k t, (s.row k).committed = some t → t.userId = userId →
        t.isActive s.now = true → k ∈ tokenHashes ∨
          (∃ t', ((s.putRow i tokenHash token).row k).locked = some (i, t')) ∨ readAt < s.issued userId) :
    ((s.putRow i tokenHash token).putStage i r stage).LogsOut := by
  refine hl.advance hr (fun _ => putRow_committed) ?_ ?_ hread
  · intro k j t hij
    by_cases hk : k = tokenHash
    · subst hk
      rw [putRow_locked]
      refine iff_of_false (fun h => hij (Prod.mk.inj (Option.some.inj h)).1.symm) fun h => ?_
      exact hij (Versioned.owner_eq hwaits h)
    · rw [putRow_locked_of_ne hk]
  · intro k t hnone hlock
    by_cases hk : k = tokenHash
    · exact absurd (hk ▸ hnone) hcommitted
    · rw [putRow_locked_of_ne hk] at hlock
      exact absurd hlock (hl.not_inserted hr hnot hnone)

theorem consume (hs : s.Rotates) {isActive : UserId → Bool} (h : s.consume isActive i now = some s') :
    s'.LogsOut := by
  obtain ⟨r, hash, hr, -, hbegun, rfl | ⟨token, stage, reason, hvisible, -, hwaits, hstage, rfl⟩⟩ :=
    consume_eq_some h
  · exact hl.goOn hr (by rw [hbegun]; nofun) nofun
  · rw [Versioned.visible_of_other (hs.not_locked hr hbegun hash)] at hvisible
    refine hl.revoke hr (by rw [hbegun]; nofun) (by rw [hvisible]; nofun) hwaits ?_
    rcases hstage with rfl | rfl <;> nofun

theorem issue (hs : s.Rotates) {ttl : Time} (h : s.issue ttl i tokenHash now = some s') : s'.LogsOut := by
  obtain ⟨r, userId, hr, hissues, hnew, rfl⟩ := issue_eq_some h
  obtain ⟨hnone, hunlocked⟩ := hs.known tokenHash hnew
  have hnot : ∀ userId, r.stage ≠ .issued userId := by
    intro userId hstage
    unfold OpenRequest.issuesFor at hissues
    rw [hstage] at hissues
    cases hrequest : r.request <;> rw [hrequest] at hissues <;> cases hissues
  refine hl.advance hr ?_ ?_ ?_ (fun _ _ _ _ h => nomatch h)
  · intro k
    by_cases hk : k = tokenHash
    · rw [hk, Function.update_self, hnone]
    · rw [Function.update_of_ne hk]
  · intro k j t hij
    by_cases hk : k = tokenHash
    · rw [hk, Function.update_self, hunlocked]
      exact iff_of_false (fun h => hij (Prod.mk.inj (Option.some.inj h)).1.symm) nofun
    · rw [Function.update_of_ne hk]
  · intro k t hcommitted hlock
    by_cases hk : k = tokenHash
    · rw [hk, Function.update_self] at hlock
      obtain rfl := (Prod.mk.inj (Option.some.inj hlock)).2
      exact ⟨rfl, rfl⟩
    · rw [Function.update_of_ne hk] at hlock
      exact absurd hlock (hl.not_inserted hr hnot hcommitted)

theorem readActive (hs : s.Rotates) (h : s.readActive i now = some s') : s'.LogsOut := by
  obtain ⟨r, userId, hr, -, hbegun, hnow, rfl⟩ := readActive_eq_some h
  refine hl.goOn hr (by rw [hbegun]; nofun) ?_
  rintro _ _ _ _ ⟨⟩
  refine ⟨le_rfl, fun k t hcommitted huser hactive => .inl (List.mem_filter.mpr ⟨?_, ?_⟩)⟩
  · by_contra hk
    rw [(hs.known k hk).1] at hcommitted
    cases hcommitted
  · rw [Versioned.visible_of_other (hs.not_locked hr hbegun k), hcommitted, Option.any_some, huser,
      isActive_of_le hnow hactive]
    simp

theorem revokeNext (hs : s.Rotates) (h : s.revokeNext i = some s') : s'.LogsOut := by
  obtain ⟨r, userId, readAt, now, hash, hashes, token, hr, hstage, hwaits, rfl⟩ := revokeNext_eq_some h
  refine hl.revoke hr (by rw [hstage]; nofun)
    (hs.listed i r userId readAt now _ hr hstage hash (List.mem_cons_self ..)) hwaits ?_
  rintro _ _ _ _ ⟨⟩
  refine ⟨hl.readBefore i r userId readAt now _ hr hstage, fun k t hcommitted huser hactive => ?_⟩
  by_cases hk : k = hash
  · subst hk
    exact .inr (.inl ⟨_, putRow_locked⟩)
  · rcases hl.pending i r userId readAt now _ hr hstage k t hcommitted huser hactive with
      hmem | ⟨t', hlock⟩ | hissued
    · exact .inl ((List.mem_cons.mp hmem).resolve_left hk)
    · exact .inr (.inl ⟨t', (putRow_locked_of_ne hk).trans hlock⟩)
    · exact .inr (.inr hissued)

/-- A token that is active after a commit was active before, or has been issued by the request. -/
theorem active_commit (hs : s.Rotates) (hr : s.requests i = some r)
    (h : ((s.row k).commit i).committed = some t) (hactive : t.isActive now = true) :
    (s.row k).committed = some t ∧ (s.row k).commit i = s.row k ∨
      r.stage = .issued t.userId ∧ t.requestedAt = r.beganAt := by
  rcases Versioned.committed_commit h with hlock | hsame
  · cases hcommitted : (s.row k).committed with
    | none =>
      obtain ⟨r', hr', hissued⟩ := hl.inserted k i t hcommitted hlock
      obtain rfl := Option.some.inj (hr.symm.trans hr')
      exact .inr hissued
    | some t₀ =>
      -- the version of a request is a revoked one
      rw [not_isActive_of_revoked (hs.revoked k t₀ i t hcommitted hlock)] at hactive
      cases hactive
  · exact .inl hsame

/-- The rest of the state after a commit: the others have yet to do what they had. -/
theorem committed (hs : s.Rotates) (hr : s.requests i = some r) (exchanged : List String)
    (issued loggedOut : UserId → Nat)
    (hissued : ∀ userId readAt, readAt ≤ s.steps → readAt < s.issued userId → readAt < issued userId)
    (hnew : ∀ userId, r.stage = .issued userId → s.steps < issued userId)
    (hfinal : ∀ k t, ((s.row k).commit i).committed = some t → t.isActive s.now = true →
      loggedOut t.userId ≤ t.requestedAt) :
    LogsOut { s.committed i with
      exchanged := exchanged, issued := issued, loggedOut := loggedOut } where
  inserted k j t hnone hlock := by
    obtain ⟨heq, hij⟩ := Versioned.locked_commit hlock
    obtain ⟨r, hr, hissued⟩ := hl.inserted k j t (heq ▸ hnone) (heq ▸ hlock)
    exact ⟨r, (Function.update_of_ne hij ..).trans hr, hissued⟩
  readBefore j r userId readAt now tokenHashes hr hstage := by
    by_cases hij : j = i
    · rw [hij] at hr
      cases (Function.update_self ..).symm.trans hr
    · exact hl.readBefore j r userId readAt now tokenHashes ((Function.update_of_ne hij ..).symm.trans hr)
        hstage
  pending j r' userId readAt now tokenHashes hr' hstage k t hcommitted huser hactive := by
    by_cases hij : j = i
    · rw [hij] at hr'
      cases (Function.update_self ..).symm.trans hr'
    · have hr' := (Function.update_of_ne hij ..).symm.trans hr'
      have hbefore := hl.readBefore j r' userId readAt now tokenHashes hr' hstage
      rcases hl.active_commit hs hr hcommitted hactive with ⟨hcommitted, heq⟩ | ⟨hissue, -⟩
      · rcases hl.pending j r' userId readAt now tokenHashes hr' hstage k t hcommitted huser hactive with
          hmem | ⟨t', hlock⟩ | hbehind
        · exact .inl hmem
        · exact .inr (.inl ⟨t', (congrArg Versioned.locked heq).trans hlock⟩)
        · exact .inr (.inr (hissued userId readAt hbefore hbehind))
      · exact .inr (.inr (lt_of_le_of_lt hbefore (hnew userId (huser ▸ hissue))))
  final := hfinal

theorem commit (hs : s.Rotates) (hlate : s.overtaken (.commit i) = false) (h : s.commit i = some s') :
    s'.LogsOut := by
  obtain ⟨r, hr, h⟩ := commit_eq_some h
  simp only [TokenStore.overtaken, hr, Option.any_some] at hlate
  have hsame : (∀ userId, r.stage ≠ .issued userId) → ∀ k t, ((s.row k).commit i).committed = some t →
      t.isActive s.now = true → (s.row k).committed = some t ∧ (s.row k).commit i = s.row k :=
    fun hnot k t hcommitted hactive =>
      (hl.active_commit hs hr hcommitted hactive).resolve_right fun hissue => hnot _ hissue.1
  rcases h with ⟨hrefused, rfl⟩ | ⟨userId, hstage, rfl⟩ | ⟨userId, readAt, now, hstage, rfl⟩
  · refine hl.committed hs hr s.exchanged s.issued s.loggedOut (fun _ _ _ => id)
      (fun userId hissue => absurd hissue (by rw [hrefused]; nofun)) fun k t hcommitted hactive => ?_
    exact hl.final k t (hsame (by rw [hrefused]; nofun) k t hcommitted hactive).1 hactive
  · rw [hstage] at hlate
    refine hl.committed hs hr _ _ s.loggedOut ?_ ?_ fun k t hcommitted hactive => ?_
    · intro user readAt hbefore hbehind
      by_cases huser : user = userId
      · rw [huser, Function.update_self]
        exact Nat.lt_succ_of_le hbefore
      · rwa [Function.update_of_ne huser]
    · intro user hissue
      obtain rfl := AuthStage.issued.inj (hstage.symm.trans hissue)
      rw [Function.update_self]
      exact Nat.lt_succ_self _
    · rcases hl.active_commit hs hr hcommitted hactive with ⟨hcommitted, -⟩ | ⟨hissue, hbegan⟩
      · exact hl.final k t hcommitted hactive
      · obtain rfl := AuthStage.issued.inj (hstage.symm.trans hissue)
        rw [hbegan]
        exact not_lt.mp (of_decide_eq_false hlate)
  · rw [hstage] at hlate
    refine hl.committed hs hr s.exchanged s.issued _ (fun _ _ _ => id)
      (fun userId hissue => absurd hissue (by rw [hstage]; nofun)) fun k t hcommitted hactive => ?_
    obtain ⟨hcommitted, heq⟩ := hsame (by rw [hstage]; nofun) k t hcommitted hactive
    by_cases huser : t.userId = userId
    · rcases hl.pending i r userId readAt now [] hr hstage k t hcommitted huser hactive with
        hmem | ⟨t', hlock⟩ | hbehind
      · cases hmem
      · rw [Versioned.commit_of_locked hlock] at heq
        cases (congrArg Versioned.locked heq).trans hlock
      · exact absurd hbehind (of_decide_eq_false hlate)
    · rw [Function.update_of_ne huser]
      exact hl.final k t hcommitted hactive

theorem rollback (i : ι) : (s.rollback i).LogsOut where
  inserted k j t hnone hlock := by
    obtain ⟨heq, hij⟩ := Versioned.locked_rollback hlock
    obtain ⟨r, hr, hissued⟩ := hl.inserted k j t (heq ▸ hnone) (heq ▸ hlock)
    exact ⟨r, (Function.update_of_ne hij ..).trans hr, hissued⟩
  readBefore j r userId readAt now tokenHashes hr hstage := by
    by_cases hij : j = i
    · rw [hij] at hr
      cases (Function.update_self ..).symm.trans hr
    · exact hl.readBefore j r userId readAt now tokenHashes ((Function.update_of_ne hij ..).symm.trans hr)
        hstage
  pending j r userId readAt now tokenHashes hr hstage k t hcommitted huser hactive := by
    have hcommitted : (s.row k).committed = some t := Versioned.rollback_committed.symm.trans hcommitted
    by_cases hij : j = i
    · rw [hij] at hr
      cases (Function.update_self ..).symm.trans hr
    · have hr := (Function.update_of_ne hij ..).symm.trans hr
      rcases hl.pending j r userId readAt now tokenHashes hr hstage k t hcommitted huser hactive with
        hmem | ⟨t', hlock⟩ | hbehind
      · exact .inl hmem
      · have hother : ∀ t, (s.row k).locked ≠ some (i, t) := fun t hlock' =>
          hij (Prod.mk.inj (Option.some.inj (hlock.symm.trans hlock'))).1
        exact .inr (.inl ⟨t', (congrArg Versioned.locked (Versioned.rollback_of_other hother)).trans hlock⟩)
      · exact .inr (.inr hbehind)
  final k t hcommitted := hl.final k t (Versioned.rollback_committed.symm.trans hcommitted)

theorem begin_ {request : AuthRequest} (hnone : s.requests i = none) :
    LogsOut { s with requests := Function.update s.requests i (some ⟨request, s.steps, .begun⟩) } where
  inserted k j t hcommitted hlock := by
    obtain ⟨r, hr, hissued⟩ := hl.inserted k j t hcommitted hlock
    have hij : j ≠ i := by
      rintro rfl
      cases hnone.symm.trans hr
    exact ⟨r, (Function.update_of_ne hij ..).trans hr, hissued⟩
  readBefore j r userId readAt now tokenHashes hr hstage := by
    rcases putStage_requests (r := ⟨request, s.steps, .begun⟩) hr with ⟨-, rfl⟩ | ⟨-, hr⟩
    · cases hstage
    · exact hl.readBefore j r userId readAt now tokenHashes hr hstage
  pending j r userId readAt now tokenHashes hr hstage := by
    rcases putStage_requests (r := ⟨request, s.steps, .begun⟩) hr with ⟨-, rfl⟩ | ⟨-, hr⟩
    · cases hstage
    · exact hl.pending j r userId readAt now tokenHashes hr hstage
  final := hl.final

omit [DecidableEq ι] in
/-- Time passes: what is active was active. -/
theorem tick (hnow : s.now ≤ now) : LogsOut { s with now := now } where
  inserted := hl.inserted
  readBefore := hl.readBefore
  pending i r userId readAt t₀ tokenHashes hr hstage k t hcommitted huser hactive :=
    hl.pending i r userId readAt t₀ tokenHashes hr hstage k t hcommitted huser (isActive_of_le hnow hactive)
  final k t hcommitted hactive := hl.final k t hcommitted (isActive_of_le hnow hactive)

theorem act (hs : s.Rotates) {ttl : Time} {isActive : UserId → Bool} {a : AuthAct ι}
    (hlate : s.overtaken a = false) (h : s.act ttl isActive a = some s') : s'.LogsOut := by
  cases a with
  | tick now =>
    simp only [TokenStore.act] at h
    split at h
    · next hnow =>
      obtain rfl := Option.some.inj h
      exact hl.tick hnow
    · cases h
  | begin i request =>
    simp only [TokenStore.act] at h
    split at h
    · next hnone =>
      obtain rfl := Option.some.inj h
      exact hl.begin_ (Option.isNone_iff_eq_none.mp hnone)
    · cases h
  | consume i now => exact hl.consume hs h
  | issue i tokenHash now => exact hl.issue hs h
  | readActive i now => exact hl.readActive hs h
  | revokeNext i => exact hl.revokeNext hs h
  | commit i => exact hl.commit hs hlate h
  | rollback i =>
    obtain rfl := Option.some.inj h
    exact hl.rollback i

/-- An act takes no time of its own; the step counts it. -/
theorem step (hs : s.Rotates) {ttl : Time} {isActive : UserId → Bool} {a : AuthAct ι}
    (hlate : s.overtaken a = false) (h : s.step ttl isActive a = some s') : s'.LogsOut := by
  obtain ⟨s₁, hact, rfl⟩ := Option.map_eq_some_iff.mp h
  have h₁ := hl.act hs hlate hact
  have hsteps : s₁.steps ≤ s.steps + 1 := (act_steps hact).le.trans (Nat.le_succ _)
  exact ⟨h₁.inserted, fun i r userId readAt now tokenHashes hr hstage =>
    (h₁.readBefore i r userId readAt now tokenHashes hr hstage).trans hsteps, h₁.pending, h₁.final⟩

end LogsOut

omit [DecidableEq ι] in
theorem Initial.logsOut (h : s.Initial) : s.LogsOut where
  inserted k i t _ hlock := by cases (h.locked k).symm.trans hlock
  readBefore i r _ _ _ _ hr := by cases (h.requests i).symm.trans hr
  pending i r _ _ _ _ hr := by cases (h.requests i).symm.trans hr
  final k t _ _ := by
    rw [h.loggedOut]
    exact Nat.zero_le _

end TokenStore

/-- In every run, a token is exchanged for new ones at most once. In every run in which no commit is
overtaken, the active tokens of a user are those of requests that began after the last logout of the user
was committed. -/
theorem refreshTokens_rotate_and_end (ι : Type) [DecidableEq ι] (ttl : Time) (isActive : UserId → Bool) :
    (∀ s, (authSys ι ttl isActive).Reachable s → s.exchanged.Nodup) ∧
    (∀ s, (authSys ι ttl isActive).Reach (fun s a => s.overtaken a = false) s →
      ∀ k t, (s.row k).committed = some t → t.isActive s.now = true →
        s.loggedOut t.userId ≤ t.requestedAt) := by
  constructor
  · exact fun s h => ((authSys_rotates ι ttl isActive _).reach h).nodup
  · intro s h
    have hboth : (authSys ι ttl isActive).Inductive (fun s a => s.overtaken a = false)
        fun s => s.Rotates ∧ s.LogsOut :=
      (authSys_rotates ι ttl isActive _).assuming (fun _ h => h.logsOut)
        fun _ _ _ hs hl hlate h => hl.step hs hlate h
    exact (hboth.reach h).2.final

/-- A store with a token of the user `admin`. -/
def oneToken : TokenStore Nat where
  hashes := ["first"]
  row k := if k = "first" then { committed := some { userId := "admin", expiresAt := days 30 } } else {}

/-- A refresh has issued its token when the logout reads the tokens. It commits while the logout waits for
the lock of the token that it has consumed. -/
def logoutDuringRefresh : List (AuthAct Nat) :=
  [.begin 0 (.refresh "first"), .consume 0 0, .issue 0 "second" 0, .begin 1 (.logout "admin"),
    .readActive 1 0, .commit 0, .revokeNext 1, .commit 1]

/-- The token of a refresh that began before a logout outlives it. -/
theorem logout_misses_refresh :
    ∃ s, (authSys Nat (days 30) fun _ => true).Reachable s ∧
      ∃ k t, (s.row k).committed = some t ∧ t.isActive s.now = true ∧
        t.requestedAt < s.loggedOut t.userId := by
  have hinit : oneToken.Initial := by
    refine ⟨fun _ => rfl, fun k => ?_, fun k hk => ?_, fun _ => rfl, rfl⟩
    · unfold oneToken
      dsimp only
      split <;> rfl
    · exact congrArg Versioned.committed (if_neg fun h => hk (List.mem_singleton.mpr h))
  refine ⟨_, (Sys.Reach.after (fun _ _ => false) logoutDuringRefresh hinit (by decide +kernel)).mono
    fun _ _ _ => trivial, "second", { userId := "admin", expiresAt := days 30 }, ?_⟩
  decide +kernel

end Encodr
