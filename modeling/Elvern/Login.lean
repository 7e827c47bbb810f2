/-
The login routes (`routes/auth.py`): the password step and the second factor.

The routes are requests on the tables of `AuthTables`; audit and security events,
which no modelled statement reads, are left out.  A request that commits a second
factor records it beside the tables together with the write that deletes the
challenge, and one that creates a session for a challenge records that.
-/
import Elvern.AuthSessions
import Elvern.RateLimiter
import Elvern.TotpService

open Tables Statements Statements.Program PyText

/-- `AuthLoginRequest` with the client's address. -/
structure LoginRequest where
  username : String
  password : String
  ipAddress : String

/-- `TotpLoginRequest` with the client's address. -/
structure TotpLoginRequest where
  challengeToken : String
  code : String
  ipAddress : String

/-- `EXPOSURE_MAINTENANCE_LOCK_MESSAGE` -/
def exposureMaintenanceLockMessage : String :=
  "The server is currently under construction, please try again later"

/-- What the routes answer: a session, or a challenge for the second factor. -/
inductive LoginAnswer where
  | session (user : UserRow) (token : String)
  | pendingTotp (challengeToken : String)
  deriving DecidableEq

/-- The failures of `authenticate_user`. -/
inductive AuthFailure where
  | userNotFound
  | disabled
  | invalidCredentials
  deriving DecidableEq

/-- A column text that is neither `NULL` nor empty. -/
def present (text : Option String) : Bool := text != none && text != some ""

/-- The row that `login_totp` reads: a challenge joined with its user. -/
structure ChallengeWithUser where
  challenge : LoginChallengeRow
  user : UserRow

namespace AuthDb

/-- `SELECT … FROM login_challenges c JOIN users u … WHERE c.challenge_token_hash = ?` -/
def challengeWithUser (db : AuthDb) (hash : String) : Option ChallengeWithUser :=
  (db.loginChallenges.find? fun c => c.challengeTokenHash == hash).bind fun c =>
    (db.userById c.userId).map fun u => { challenge := c, user := u }

/-- `DELETE FROM login_challenges WHERE expires_at_unix <= ?` -/
def deleteExpiredChallenges (db : AuthDb) (now : Time) : AuthDb :=
  { db with
    loginChallenges := db.loginChallenges.filter fun c => !decide (c.expiresAtUnix ≤ now) }

/-- `INSERT INTO login_challenges`; the hash is the primary key. -/
def insertChallenge (db : AuthDb) (c : LoginChallengeRow) : Except PyError (AuthDb × ℕ) :=
  if db.loginChallenges.any fun c' => c'.challengeTokenHash == c.challengeTokenHash then
    .error .integrityError
  else .ok ({ db with loginChallenges := db.loginChallenges ++ [c] }, 0)

/-- Record that a request accepted a second factor. -/
def accept (db : AuthDb) (a : Acceptance) : AuthDb := { db with acceptances := a :: db.acceptances }

/-- Record that a request created a session for a challenge. -/
def issue (db : AuthDb) (i : IssuedSession) : AuthDb := { db with issued := i :: db.issued }

end AuthDb

namespace AuthEnv

variable (env : AuthEnv)

/-- `raise_if_exposure_maintenance_locked` -/
def raiseIfMaintenanceLocked (user : UserRow) : Request Unit :=
  if user.role = .admin then .ret ()
  else do
    let locked ← query AuthDb.maintenanceLock
    if locked then .raise (.http 503 exposureMaintenanceLockMessage) else .ret ()

/-- `authenticate_user` -/
def authenticateUser (username password : String) : Request (Except AuthFailure UserRow) := do
  let row ← query fun db => db.userByName username
  match row with
  | none => .ret (.error .userNotFound)
  | some u =>
    if u.enabled = false then .ret (.error .disabled)
    else
      match env.verifyPassword password u.passwordHash with
      | (false, _) => .ret (.error .invalidCredentials)
      | (true, none) => .ret (.ok u)
      | (true, some upgraded) => do
        update fun db =>
          db.updateUser u.id (fun u => { u with passwordHash := upgraded }) fun _ => rfl
        commitNow
        .ret (.ok u)

/-- `_create_challenge`; it returns the challenge token. -/
def createChallenge (user : UserRow) (ip : String) : Request String := do
  let token ← input
  let cleaned ← input
  update fun db => db.deleteExpiredChallenges cleaned.now
  let created ← input
  let _ ← insert fun db => db.insertChallenge
    { challengeTokenHash := env.hashChallengeToken token.fresh, userId := user.id,
      createdAt := token.now, expiresAtUnix := created.now + challengeTokenTtl, ipAddress := ip }
  commitNow
  .ret token.fresh

/-- The stored secret of a user who is logging in, decrypted. -/
def loginTotpSecret (user : UserRow) : Request (Option String) := do
  let row ← query fun db => db.userById user.id
  if present (row.bind UserRow.totpSecret) then do
    let fresh ← query fun db => db.userById user.id
    let secret ← env.resolveUserTotpSecret user.id (fresh.bind UserRow.totpSecret)
    commitNow
    .ret secret
  else .ret none

/-- `login` after the password was found right. -/
def loginWithPassword (ipLimiter usernameLimiter : RateLimiter) (req : LoginRequest)
    (user : UserRow) : Request LoginAnswer := do
  ipLimiter.clear env req.ipAddress
  usernameLimiter.clear env (strip env.unicode req.username)
  raiseIfMaintenanceLocked user
  let secret ← env.loginTotpSecret user
  match secret with
  | some _ => do
    let token ← env.createChallenge user req.ipAddress
    .ret (.pendingTotp token)
  | none => do
    let token ← env.createSession user req.ipAddress id
    .ret (.session user token)

/-- `login` after a failed authentication. -/
def loginFailed (ipLimiter usernameLimiter : RateLimiter) (req : LoginRequest)
    (failure : AuthFailure) : Request LoginAnswer := do
  let userLockout ← usernameLimiter.registerFailure env (strip env.unicode req.username)
    fun _ db => db
  let ipLockout ← ipLimiter.registerFailure env req.ipAddress fun _ db => db
  let lockout := max userLockout ipLockout
  if failure = .disabled then
    if lockout ≠ 0 then .raise (.http 429 "Too many login attempts. Try again in 600 seconds.")
    else .raise (.http 403 "This account has been disabled")
  else if lockout ≠ 0 then
    .raise (.http 429 s!"Too many login attempts. Try again in {lockout} seconds.")
  else .raise (.http 401 "Invalid username or password")

/-- `login` -/
def login (ipLimiter usernameLimiter : RateLimiter) (req : LoginRequest) :
    Request LoginAnswer := do
  let attempted := strip env.unicode req.username
  let retry ← ipLimiter.check env req.ipAddress
  if retry ≠ 0 then
    .raise (.http 429 s!"Too many login attempts from this IP. Try again in {retry} seconds.")
  else do
    let retry ← usernameLimiter.check env attempted
    if retry ≠ 0 then
      .raise (.http 429
        s!"Too many login attempts for this username. Try again in {retry} seconds.")
    else do
      let user ← env.authenticateUser attempted req.password
      match user with
      | .error failure => env.loginFailed ipLimiter usernameLimiter req failure
      | .ok user => env.loginWithPassword ipLimiter usernameLimiter req user

/-- `login_totp` after the code was accepted with `factor`. -/
def acceptTotp (ipLimiter usernameLimiter : RateLimiter) (request : ℕ) (req : TotpLoginRequest)
    (user : UserRow) (factor : Factor) : Request LoginAnswer := do
  let tokenHash := env.hashChallengeToken req.challengeToken
  match factor with
  | .window w => update fun db => db.storeTotpWindow user.id w
  | .recovery _ => .ret ()
  update fun db => (db.deleteChallenge tokenHash).accept
    { request, challengeTokenHash := tokenHash, userId := user.id, factor }
  commitNow
  raiseIfMaintenanceLocked user
  ipLimiter.clear env req.ipAddress
  usernameLimiter.clear env user.username
  let token ← env.createSession user req.ipAddress fun db =>
    db.issue { request, challengeTokenHash := tokenHash }
  .ret (.session user token)

/-- `login_totp` with the plain secret of the challenge's user. -/
def checkTotp (ipLimiter usernameLimiter : RateLimiter) (request : ℕ) (req : TotpLoginRequest)
    (user : UserRow) (secret : String) : Request LoginAnswer := do
  let clock ← input
  match env.verifyTotpCode secret (strip env.unicode req.code)
      user.totpLastUsedWindow clock.now with
  | .error e => .raise e
  | .ok (true, some w) =>
    env.acceptTotp ipLimiter usernameLimiter request req user (.window w)
  | .ok _ => do
    let recovery ← env.consumeRecoveryCode user.id req.code
    match recovery with
    | some codeId => env.acceptTotp ipLimiter usernameLimiter request req user (.recovery codeId)
    | none => do
      let _ ← usernameLimiter.registerFailure env user.username fun now db =>
        db.recordWrongCode { username := user.username, at_ := now }
      let _ ← ipLimiter.registerFailure env req.ipAddress fun _ db => db
      .raise (.http 401 "invalid_totp_code")

/-- `checkTotp` from `_consume_recovery_code` on. -/
def checkRecovery (ipLimiter usernameLimiter : RateLimiter) (request : ℕ) (req : TotpLoginRequest)
    (user : UserRow) : Request LoginAnswer := do
  let recovery ← env.consumeRecoveryCode user.id req.code
  match recovery with
  | some codeId => env.acceptTotp ipLimiter usernameLimiter request req user (.recovery codeId)
  | none => do
    let _ ← usernameLimiter.registerFailure env user.username fun now db =>
      db.recordWrongCode { username := user.username, at_ := now }
    let _ ← ipLimiter.registerFailure env req.ipAddress fun _ db => db
    .raise (.http 401 "invalid_totp_code")

/-- `login_totp`, as request number `request`. -/
def loginTotp (ipLimiter usernameLimiter : RateLimiter) (request : ℕ) (req : TotpLoginRequest) :
    Request LoginAnswer := do
  let tokenHash := env.hashChallengeToken req.challengeToken
  let row ← query fun db => db.challengeWithUser tokenHash
  let clock ← input
  match row with
  | none => .raise (.http 401 "invalid_or_expired")
  | some row =>
    if row.challenge.expiresAtUnix ≤ clock.now then do
      update fun db => db.deleteChallenge tokenHash
      commitNow
      .raise (.http 401 "invalid_or_expired")
    else do
      let ipRetryAfter ← ipLimiter.check env req.ipAddress
      let usernameRetryAfter ← usernameLimiter.check env row.user.username
      if ipRetryAfter ≠ 0 ∨ usernameRetryAfter ≠ 0 then
        .raise (.http 429 "Too many login attempts.")
      else if row.user.enabled = false then
        .raise (.http 403 "This account has been disabled")
      else if present row.user.totpSecret = false then
        .raise (.http 500 "totp_not_enabled")
      else do
        let secret ← env.resolveUserTotpSecret row.user.id row.user.totpSecret
        match secret with
        | none => do
          update fun db => db.deleteChallenge tokenHash
          commitNow
          .raise (.http 401 "totp_setup_required")
        | some secret => env.checkTotp ipLimiter usernameLimiter request req row.user secret

end AuthEnv
