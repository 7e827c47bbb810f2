/-
Connecting a Google Drive account (`cloud_provider_auth_service.py`).

A reconnect operation is opened in a login session, goes through the sign-in page of the provider,
and comes back through a callback that carries a state token.  Where the provider answers with
another account than the one before, the operation waits for the user to confirm or to cancel the
change.

The requests are given statement by statement.  The answers of the provider are inputs of the
environment.  Tokens are stored as they are, and accounts, candidates and sources name an identity
by the hash of its subject.
-/
import Elvern.AuthEnv

open Tables Statements Statements.Program PyText

namespace GoogleConnect

/-- `google_oauth_operations.status` -/
inductive Status where
  | pending
  | connected
  | accountMismatch
  | cancelled
  | error
  | expired
  deriving DecidableEq

/-- `sessions` -/
structure SessionRow where
  id : ℕ
  userId : ℕ
  revokedAt : Option Time

/-- `google_oauth_states` -/
structure StateRow where
  stateToken : String
  userId : ℕ
  authSessionId : ℕ
  operationIdHash : String
  expiresAt : Time

/-- `google_oauth_operations` -/
structure OperationRow where
  id : ℕ
  userId : ℕ
  authSessionId : ℕ
  operationIdHash : String
  status : Status
  candidateId : Option ℕ
  errorMessage : Option String
  updatedAt : Time
  expiresAt : Time
  completedAt : Option Time
  cancelledAt : Option Time

/-- `google_oauth_account_candidates` -/
structure CandidateRow where
  id : ℕ
  userId : ℕ
  authSessionId : ℕ
  operationIdHash : String
  subjectHash : String
  refreshToken : String
  accessToken : String
  expiresAt : Time
  consumedAt : Option Time
  cancelledAt : Option Time

/-- `google_drive_accounts` -/
structure AccountRow where
  id : ℕ
  userId : ℕ
  subjectHash : String
  refreshToken : String
  accessToken : String
  updatedAt : Time
  deriving DecidableEq

/-- `library_sources` of the provider -/
structure SourceRow where
  id : ℕ
  ownerUserId : ℕ
  accountId : Option ℕ
  subjectHash : Option String
  lastError : Option String

structure ConnectDb where
  sessions : List SessionRow
  states : List StateRow
  operations : AutoTable OperationRow OperationRow.id
  candidates : AutoTable CandidateRow CandidateRow.id
  accounts : AutoTable AccountRow AccountRow.id
  sources : List SourceRow

/-- What the provider answers: `exchange_google_oauth_code` and `fetch_google_userinfo`. -/
structure Exchange where
  accessToken : String
  refreshToken : Option String
  subject : String

/-- An input of the environment: the clock, a fresh token, the answer of the provider or its
exception, and the sources that it gives access to. -/
structure Input where
  now : Time
  fresh : String
  exchange : Except PyError Exchange
  accessible : ℕ → Bool

abbrev Request (α : Type) := Statements.Program ConnectDb Input PyError α

/-- `GOOGLE_STATE_TTL_MINUTES` -/
def googleStateTtlSeconds : ℕ := 15 * 60

/-- `GOOGLE_ACCOUNT_CANDIDATE_TTL_MINUTES` -/
def googleAccountCandidateTtlSeconds : ℕ := 10 * 60

/-- `GOOGLE_OAUTH_OPERATION_RETENTION_HOURS` -/
def googleOauthOperationRetentionSeconds : ℕ := 24 * 60 * 60

/-! ### The statements -/

namespace ConnectDb

variable (db : ConnectDb)

/-- The operation belongs to the user, the session and the hash. -/
def names (userId authSessionId : ℕ) (hash : String) (r : OperationRow) : Bool :=
  r.userId == userId && r.authSessionId == authSessionId && r.operationIdHash == hash

/-- `UPDATE google_oauth_operations SET … WHERE p`; the number is the row count.  No statement
writes the key or the owner of an operation. -/
def updateOperations (p : OperationRow → Bool) (f : OperationRow → OperationRow)
    (hf : ∀ r, (f r).id = r.id) : ConnectDb × ℕ :=
  ({ db with operations := db.operations.updateWhere p f hf },
    (db.operations.rows.filter p).length)

/-- The session is not revoked and belongs to the user. -/
def sessionActive (id userId : ℕ) : Bool :=
  db.sessions.any fun r => r.id == id && r.userId == userId && r.revokedAt.isNone

/-- The first statement of `_cleanup_google_oauth_artifacts_in_connection`. -/
def expireOperations (now : Time) : ConnectDb × ℕ :=
  db.updateOperations (fun r => (r.status == .pending || r.status == .accountMismatch) &&
    decide (r.expiresAt ≤ now)) (fun r => { r with
      status := .expired, updatedAt := now, completedAt := r.completedAt.orElse fun _ => some now })
    fun _ => rfl

def deleteExpiredStates (now : Time) : ConnectDb :=
  { db with states := db.states.filter fun r => !decide (r.expiresAt ≤ now) }

/-- A candidate that `_cleanup_google_oauth_artifacts_in_connection` deletes. -/
def staleCandidate (now : Time) (r : CandidateRow) : Bool :=
  decide (r.expiresAt ≤ now) ||
    r.consumedAt.any (fun t => decide (t + googleOauthOperationRetentionSeconds ≤ now)) ||
    r.cancelledAt.any (fun t => decide (t + googleOauthOperationRetentionSeconds ≤ now))

/-- The third statement of the cleanup; the foreign key sets `candidate_id` to null. -/
def deleteStaleCandidates (now : Time) : ConnectDb :=
  let kept := db.candidates.deleteWhere (staleCandidate now)
  { db with
    candidates := kept
    operations := db.operations.updateWhere (fun r => r.candidateId.any fun c =>
      !kept.rows.any (·.id == c)) (fun r => { r with candidateId := none }) fun _ => rfl }

def deleteStaleOperations (now : Time) : ConnectDb :=
  { db with
    operations := db.operations.deleteWhere fun r =>
      r.status != .pending && decide (r.updatedAt + googleOauthOperationRetentionSeconds ≤ now) }

/-- `_operation_row` -/
def operationRow (userId authSessionId : ℕ) (hash : String) : Option OperationRow :=
  db.operations.find fun r => names userId authSessionId hash r &&
    db.sessionActive authSessionId userId

/-- `DELETE FROM google_oauth_states WHERE auth_session_id = ? AND operation_id_hash = ?` -/
def deleteStatesOf (authSessionId : ℕ) (hash : String) : ConnectDb :=
  { db with states := db.states.filter fun r =>
      !(r.authSessionId == authSessionId && r.operationIdHash == hash) }

/-- `DELETE FROM google_oauth_states WHERE state_token = ?` -/
def deleteState (stateToken : String) : ConnectDb :=
  { db with states := db.states.filter fun r => !(r.stateToken == stateToken) }

/-- `INSERT INTO google_oauth_operations`; the user, the session and the hash are unique
together. -/
def insertOperation (userId authSessionId : ℕ) (hash : String) (now : Time) :
    Except PyError (ConnectDb × ℕ) :=
  if db.operations.rows.any (names userId authSessionId hash) then
    .error (.http 409 "Google Drive reconnect operation has already been used.")
  else
    .ok ({ db with
      operations := db.operations.insert
        (fun id =>
          { id, userId, authSessionId, operationIdHash := hash, status := .pending,
            candidateId := none,
            errorMessage := none, updatedAt := now, expiresAt := now + googleStateTtlSeconds,
            completedAt := none, cancelledAt := none })
        fun _ => rfl }, db.operations.seq + 1)

/-- `INSERT INTO google_oauth_states`; the token is the primary key. -/
def insertState (row : StateRow) : Except PyError (ConnectDb × ℕ) :=
  if db.states.any fun r => r.stateToken == row.stateToken then .error .integrityError
  else .ok ({ db with states := db.states ++ [row] }, 0)

/-- The state that a callback presents. -/
def validState (stateToken : String) (now : Time) : Option StateRow :=
  db.states.find? fun r => r.stateToken == stateToken && decide (now < r.expiresAt) &&
    db.sessionActive r.authSessionId r.userId

/-- The pending operation of a state. -/
def activeOperation (st : StateRow) (now : Time) : Option OperationRow :=
  db.operations.find fun r => names st.userId st.authSessionId st.operationIdHash r &&
    r.status == .pending && decide (now < r.expiresAt)

def accountOf (userId : ℕ) : Option AccountRow := db.accounts.find fun r => r.userId == userId

/-- The distinct identities of the user's sources. -/
def historicalHashes (userId : ℕ) : List String :=
  (db.sources.filter fun r => r.ownerUserId == userId).filterMap SourceRow.subjectHash

/-- `UPDATE google_oauth_account_candidates SET cancelled_at = ? WHERE …` of an earlier candidate of
the session. -/
def cancelCandidatesOf (userId authSessionId : ℕ) (now : Time) : ConnectDb :=
  { db with
    candidates := db.candidates.updateWhere
      (fun r => r.userId == userId && r.authSessionId == authSessionId && r.consumedAt.isNone &&
        r.cancelledAt.isNone)
      (fun r => { r with cancelledAt := some now }) fun _ => rfl }

/-- `INSERT INTO google_oauth_account_candidates`; the number is the id of the new row. -/
def insertCandidate (st : StateRow) (subjectHash refreshToken accessToken : String) (now : Time) :
    ConnectDb × ℕ :=
  ({ db with
    candidates := db.candidates.insert
      (fun id =>
        { id, userId := st.userId, authSessionId := st.authSessionId,
          operationIdHash := st.operationIdHash, subjectHash, refreshToken, accessToken,
          expiresAt := now + googleAccountCandidateTtlSeconds, consumedAt := none,
            cancelledAt := none })
      fun _ => rfl }, db.candidates.seq + 1)

/-- `UPDATE google_oauth_operations SET status = 'account_mismatch' …` -/
def markMismatch (st : StateRow) (candidateId : ℕ) (now : Time) : ConnectDb × ℕ :=
  db.updateOperations
    (fun r => names st.userId st.authSessionId st.operationIdHash r && r.status == .pending)
    (fun r => { r with
      status := .accountMismatch
      candidateId := some candidateId
      updatedAt := now })
    fun _ => rfl

/-- `INSERT INTO google_drive_accounts … ON CONFLICT(user_id) DO UPDATE SET …` -/
def upsertAccount (userId : ℕ) (subjectHash refreshToken accessToken : String) (now : Time) :
    ConnectDb :=
  if db.accounts.rows.any fun r => r.userId == userId then
    { db with
      accounts := db.accounts.updateWhere (fun r => r.userId == userId)
        (fun r => { r with subjectHash, refreshToken, accessToken, updatedAt := now })
        fun _ => rfl }
  else
    { db with
      accounts := db.accounts.insert
        (fun id => { id, userId, subjectHash, refreshToken, accessToken, updatedAt := now })
        fun _ => rfl }

/-- `_source_validation_error_message` -/
def sourceValidationErrorMessage : String :=
  "Google Drive access could not be verified for this source."

/-- `_apply_google_source_validation_results_in_connection`, for the sources `checked` and the
answers of the provider about them. -/
def applySourceValidation (userId accountId : ℕ) (subjectHash : String) (checked : List ℕ)
    (accessible : ℕ → Bool) : ConnectDb :=
  { db with
    sources := db.sources.map fun r =>
      if checked.contains r.id && r.ownerUserId == userId then
        if accessible r.id then
          { r with accountId := some accountId, subjectHash := some subjectHash, lastError := none }
        else { r with accountId := none, lastError := some sourceValidationErrorMessage }
      else r }

/-- `UPDATE google_oauth_operations SET status = 'connected' … WHERE id = ? AND status = ?` -/
def markConnected (id : ℕ) (status : Status) (candidateId : Option ℕ) (now : Time) :
    ConnectDb × ℕ :=
  db.updateOperations (fun r => r.id == id && r.status == status)
    (fun r => { r with
      status := .connected, updatedAt := now, completedAt := some now
      candidateId := candidateId.orElse fun _ => r.candidateId })
    fun _ => rfl

/-- `UPDATE google_oauth_operations SET status = 'cancelled' … WHERE p` -/
def cancelOperations (p : OperationRow → Bool) (now : Time) : ConnectDb × ℕ :=
  db.updateOperations p
    (fun r => { r with
      status := .cancelled, updatedAt := now, cancelledAt := some now, completedAt := some now })
    fun _ => rfl

/-- `UPDATE google_oauth_operations SET status = 'error' …` -/
def failOperations (p : OperationRow → Bool) (message : String) (now : Time) : ConnectDb × ℕ :=
  db.updateOperations p
    (fun r => { r with
      status := .error, errorMessage := some message, updatedAt := now, completedAt := some now })
    fun _ => rfl

/-- `UPDATE google_oauth_account_candidates SET …` -/
def updateCandidates (p : CandidateRow → Bool) (f : CandidateRow → CandidateRow)
    (hf : ∀ r, (f r).id = r.id) : ConnectDb :=
  { db with candidates := db.candidates.updateWhere p f hf }

/-- The candidate with its operation, where both are still open. -/
def activeCandidate (p : CandidateRow → Bool) (userId authSessionId : ℕ)
    (hash : String) (now : Time) : Option (CandidateRow × OperationRow) :=
  let matching := db.candidates.rows.flatMap fun c =>
    (db.operations.rows.filter fun o => decide (o.candidateId = some c.id) &&
      names userId authSessionId hash o && o.status == .accountMismatch &&
        decide (now < o.expiresAt)).map
      fun o => (c, o)
  (matching.filter fun (c, _) => p c && c.userId == userId && c.authSessionId == authSessionId &&
    c.operationIdHash == hash && decide (now < c.expiresAt) && c.consumedAt.isNone &&
    c.cancelledAt.isNone && db.sessionActive authSessionId userId).getLast?

/-- `UPDATE sessions SET revoked_at = ? WHERE id = ?` -/
def revokeSession (id : ℕ) (now : Time) : ConnectDb :=
  { db with sessions := db.sessions.map fun r => if r.id == id then
    { r with revokedAt := some now } else r }

end ConnectDb

/-! ### The requests -/

section Requests

variable (env : AuthEnv)

/-- `_hash_google_oauth_state_token` -/
def hashGoogleOauthStateToken (token : String) :
    String := env.hashTokenHmac "google.oauth_state" token

/-- `_hash_google_oauth_operation` of the stripped operation id. -/
def hashGoogleOauthOperation (operationId : String) : String :=
  env.hashTokenHmac "google.oauth_operation" (strip env.unicode operationId)

/-- `_hash_google_account_subject` -/
def hashGoogleAccountSubject (subject : String) : String :=
  env.hashTokenHmac "google.account_subject" subject

/-- A write whose row count is read. -/
def counted (f : ConnectDb → ConnectDb × ℕ) : Request ℕ := insert fun db => .ok (f db)

/-- `_cleanup_google_oauth_artifacts_in_connection` -/
def cleanup (now : Time) : Request Unit := do
  let _ ← counted fun db => db.expireOperations now
  update fun db => db.deleteExpiredStates now
  update fun db => db.deleteStaleCandidates now
  update fun db => db.deleteStaleOperations now

/-- `build_google_drive_connect_response` -/
def connect (userId authSessionId : ℕ) (operationId : String) : Request Status :=
  if strip env.unicode operationId = "" then
    .raise (.http 400 "Google Drive reconnect operation is required.")
  else do
    let clock ← input
    cleanup clock.now
    let active ← query fun db => db.sessionActive authSessionId userId
    if active = false then .raise (.http 401 "Session is no longer active.")
    else do
      let hash := hashGoogleOauthOperation env operationId
      update fun db => db.deleteStatesOf authSessionId hash
      let _ ← insert fun db => db.insertOperation userId authSessionId hash clock.now
      let _ ← insert fun db => db.insertState
        { stateToken := hashGoogleOauthStateToken env clock.fresh, userId, authSessionId,
          operationIdHash := hash, expiresAt := clock.now + googleStateTtlSeconds }
      commitNow
      .ret .pending

/-- `get_google_oauth_operation_payload` -/
def operationPayload (userId authSessionId : ℕ) (operationId : String) : Request Status := do
  let clock ← input
  cleanup clock.now
  let row ← query fun db =>
    db.operationRow userId authSessionId (hashGoogleOauthOperation env operationId)
  commitNow
  match row with
  | none => .raise (.http 409 "Google Drive reconnect operation is no longer available.")
  | some row => .ret row.status

/-- `cancel_google_oauth_operation` -/
def cancelOperation (userId authSessionId : ℕ) (operationId : String) : Request Status := do
  let clock ← input
  cleanup clock.now
  let hash := hashGoogleOauthOperation env operationId
  let row ← query fun db => db.operationRow userId authSessionId hash
  match row with
  | none => .raise (.http 409 "Google Drive reconnect operation is no longer available.")
  | some row =>
    -- An operation that is over keeps its status; the cleanup is committed.
    if row.status ≠ .pending ∧ row.status ≠ .accountMismatch then do
      commitNow
      .ret row.status
    else do
      let _ ← counted fun db => db.cancelOperations
        (fun r => r.id == row.id &&
          (r.status == .pending || r.status == .accountMismatch)) clock.now
      update fun db => db.updateCandidates
        (fun c => decide (row.candidateId = some c.id) && c.consumedAt.isNone)
        (fun c => { c with cancelledAt := c.cancelledAt.orElse fun _ => some clock.now })
        fun _ => rfl
      update fun db => db.deleteStatesOf authSessionId hash
      commitNow
      .ret .cancelled

/-- `cancel_google_drive_connect` and `fail_google_drive_connect`, whose writes differ in `mark`. -/
def endConnect (stateToken : String)
    (mark : (OperationRow → Bool) → Time → ConnectDb → ConnectDb × ℕ) : Request Unit :=
  if strip env.unicode stateToken = "" then .ret ()
  else do
    let hash := hashGoogleOauthStateToken env (strip env.unicode stateToken)
    let clock ← input
    let row ← query fun db => db.states.find? fun r => r.stateToken == hash
    match row with
    | none => do
      update fun db => db.deleteState hash
      commitNow
      .ret ()
    | some row => do
      let _ ← counted (mark
        (fun r => ConnectDb.names row.userId row.authSessionId row.operationIdHash r &&
          r.status == .pending)
        clock.now)
      update fun db => db.deleteState hash
      commitNow
      .ret ()

def cancelConnect (stateToken : String) : Request Unit :=
  endConnect env stateToken fun p now db => db.cancelOperations p now

def failConnect (stateToken message : String) : Request Unit :=
  let text := if message = "" then "Google Drive reconnect failed." else message
  endConnect env stateToken fun p now db =>
    db.failOperations p (String.ofList (text.toList.take 240)) now

/-- The refresh token that `complete_google_drive_connect` stores. -/
def storedRefreshToken (exchange : Exchange) (existing : Option AccountRow) (subjectHash : String) :
    String :=
  match exchange.refreshToken.filter (· ≠ "") with
  | some token => token
  | none =>
    ((existing.filter fun a => a.subjectHash == subjectHash).map AccountRow.refreshToken).getD ""

/-- `is_account_mismatch` -/
def isAccountMismatch (existing : Option AccountRow) (historical : List String)
    (subjectHash : String) :
    Bool :=
  match existing with
  | some account => account.subjectHash != subjectHash
  | none => historical.any (· != subjectHash)

/-- The last part of `complete_google_drive_connect`: the account is written in the transaction that
ends the operation. -/
def connectAccount (st : StateRow) (stateHash subjectHash refreshToken accessToken : String)
    (now : Time) (existing : Option AccountRow) : Request Status := do
  let checked ← query fun db => (db.sources.filter fun r => r.ownerUserId == st.userId &&
    (decide (r.subjectHash = some subjectHash) ||
      existing.any fun a => decide (r.accountId = some a.id))).map SourceRow.id
  let validation ← input
  let operation ← query fun db => db.activeOperation st validation.now
  match operation with
  | none => .raise (.http 409 "Google Drive reconnect operation expired.")
  | some operation => do
    update fun db => db.upsertAccount st.userId subjectHash refreshToken accessToken now
    let account ← query fun db => db.accountOf st.userId
    match account with
    | none => .raise (.http 502 "Google Drive account could not be saved.")
    | some account => do
      update fun db =>
        db.applySourceValidation st.userId account.id subjectHash checked validation.accessible
      -- Where the operation is no longer pending, the account is rolled back with the rest.
      let count ← counted fun db => db.markConnected operation.id .pending none now
      if count ≠ 1 then .raise (.http 409 "Google Drive reconnect operation expired.")
      else do
        update fun db => db.deleteState stateHash
        commitNow
        .ret .connected

/-- `complete_google_drive_connect` with the resolved state token. -/
def complete (stateToken : String) : Request Status := do
  let clock ← input
  let stateHash := hashGoogleOauthStateToken env (strip env.unicode stateToken)
  let st ← query fun db => db.validState stateHash clock.now
  match st with
  | none => .raise (.http 400 "Google Drive sign-in state expired.")
  | some st => do
    -- Between the two connections the provider is asked, and anything may happen to the operation.
    let reply ← input
    match reply.exchange with
    | .error e => .raise e
    | .ok exchange =>
      if exchange.accessToken = "" then
        .raise (.http 502 "Google Drive did not return an access token.")
      else if exchange.subject = "" then
        .raise (.http 502 "Google Drive account details were incomplete.")
      else do
        let now := reply.now
        let subjectHash := hashGoogleAccountSubject env exchange.subject
        let active ← query fun db => db.activeOperation st now
        match active with
        | none => .raise (.http 409 "Google Drive reconnect operation expired.")
        | some _ => do
          let existing ← query fun db => db.accountOf st.userId
          let historical ← query fun db => db.historicalHashes st.userId
          let refreshToken := storedRefreshToken exchange existing subjectHash
          if refreshToken = "" then
            .raise (.http 502
              "Google Drive did not provide a refresh token. Please try connecting again.")
          else if isAccountMismatch existing historical subjectHash then do
            update fun db => db.cancelCandidatesOf st.userId st.authSessionId now
            let candidateId ← counted fun db =>
              db.insertCandidate st subjectHash refreshToken exchange.accessToken now
            let count ← counted fun db => db.markMismatch st candidateId now
            if count ≠ 1 then .raise (.http 409 "Google Drive reconnect operation expired.")
            else do
              update fun db => db.deleteState stateHash
              commitNow
              .ret .accountMismatch
          else
            connectAccount st stateHash subjectHash refreshToken exchange.accessToken now existing

/-- `_load_active_google_account_candidate` -/
def loadActiveCandidate (userId authSessionId : ℕ) (operationId : String) :
    Request (CandidateRow × Time) := do
  let clock ← input
  cleanup clock.now
  let row ← query fun db => db.activeCandidate (fun _ => true) userId authSessionId
    (hashGoogleOauthOperation env operationId) clock.now
  commitNow
  match row with
  | none => .raise (.http 409 "Google Drive account replacement is no longer available.")
  | some row => .ret (row.1, clock.now)

/-- `cancel_google_account_candidate` -/
def cancelCandidate (userId authSessionId : ℕ) (operationId : String) : Request Status := do
  let loaded ← loadActiveCandidate env userId authSessionId operationId
  let candidate := loaded.1
  let clock ← input
  update fun db => db.updateCandidates
    (fun c => c.id == candidate.id && c.consumedAt.isNone && c.cancelledAt.isNone)
    (fun c => { c with cancelledAt := some clock.now }) fun _ => rfl
  let _ ← counted fun db => db.cancelOperations
    (fun r => ConnectDb.names userId authSessionId candidate.operationIdHash r &&
      decide (r.candidateId = some candidate.id) && r.status == .accountMismatch) clock.now
  commitNow
  .ret .cancelled

/-- `confirm_google_account_candidate` -/
def confirmCandidate (userId authSessionId : ℕ) (operationId : String) : Request Status := do
  let loaded ← loadActiveCandidate env userId authSessionId operationId
  let candidate := loaded.1
  if candidate.accessToken = "" ∨ candidate.refreshToken = "" ∨ candidate.subjectHash = "" then
    .raise (.http 409 "Google Drive account replacement is no longer available.")
  else do
    let existing ← query fun db => db.accountOf userId
    let checked ← query fun db => (db.sources.filter fun r => r.ownerUserId == userId &&
      existing.any fun a => decide (r.subjectHash = some a.subjectHash) ||
        decide (r.accountId = some a.id)).map SourceRow.id
    let validation ← input
    let active ← query fun db => db.activeCandidate (fun c => c.id == candidate.id) userId
      authSessionId candidate.operationIdHash validation.now
    match active with
    | none => .raise (.http 409 "Google Drive account replacement is no longer available.")
    | some (_, operation) => do
      update fun db => db.upsertAccount userId candidate.subjectHash candidate.refreshToken
        candidate.accessToken validation.now
      let account ← query fun db => db.accountOf userId
      match account with
      | none => .raise (.http 502 "Google Drive account could not be saved.")
      | some account => do
        update fun db => db.applySourceValidation userId account.id candidate.subjectHash checked
          validation.accessible
        update fun db => db.updateCandidates (fun c => c.id == candidate.id)
          (fun c => { c with consumedAt := some validation.now }) fun _ => rfl
        -- Unlike above, the row count is not looked at.
        let _ ← counted fun db =>
          db.markConnected operation.id .accountMismatch (some candidate.id) validation.now
        commitNow
        .ret .connected

end Requests

end GoogleConnect
