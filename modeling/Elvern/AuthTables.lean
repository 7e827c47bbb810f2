/-
The database tables behind accounts, logins, invitations and playback grants.

Timestamps are seconds.  The source keeps some of them as ISO texts of one fixed
offset, whose order as texts is the order in time.  Columns that no modelled
statement reads are left out.

* `AuthDb` — the tables;
* `Acceptance`, `IssuedSession`, `WrongCode` — what the requests have done so far, recorded beside
  the tables (no statement reads it);
* `PyError` — the exceptions that requests raise;
* `Input` — a reading of the clock with a fresh random text.
-/
import Mathlib.Data.Rat.Floor
import Elvern.PyText
import Elvern.Statements
import Elvern.Tables

open Tables

/-- Seconds since the epoch. -/
abbrev Time := ℚ

/-- What a request gets from outside: the clock and a random token. -/
structure Input where
  now : Time
  fresh : String

/-- The exceptions of the modelled requests. -/
inductive PyError where
  | http (status : ℕ) (detail : String)
  | integrityError
  | typeError
  deriving DecidableEq

inductive Role where
  | admin
  | standardUser
  deriving DecidableEq

/-- `users`, with the flag of `assistant_user_access`. -/
structure UserRow where
  id : ℕ
  username : String
  passwordHash : String
  role : Role
  enabled : Bool
  totpSecret : Option String
  totpEnabledAt : Option Time
  totpLastUsedWindow : Option ℤ
  totpSetupPromptEnabled : Bool
  assistantBetaEnabled : Bool
  ageCredential : ℕ
  deriving DecidableEq

/-- `AuthenticatedUser`: a user row, with the session that it was found by. -/
structure AuthenticatedUser where
  id : ℕ
  username : String
  role : Role
  enabled : Bool
  assistantBetaEnabled : Bool
  ageCredential : ℕ
  sessionId : Option ℕ
  deriving DecidableEq

/-- `user_recovery_codes` -/
structure RecoveryCodeRow where
  id : ℕ
  userId : ℕ
  codeHash : String
  usedAt : Option Time
  deriving DecidableEq

/-- `login_challenges` -/
structure LoginChallengeRow where
  challengeTokenHash : String
  userId : ℕ
  createdAt : Time
  expiresAtUnix : Time
  ipAddress : String
  deriving DecidableEq

inductive BucketKind where
  | ip
  | username
  deriving DecidableEq

/-- `login_failures` -/
structure LoginFailureRow where
  bucketKind : BucketKind
  bucketKey : String
  occurredAtUnix : Time
  deriving DecidableEq

/-- `login_lockouts`, one row for each bucket. -/
structure LoginLockoutRow where
  bucketKind : BucketKind
  bucketKey : String
  blockedUntilUnix : Time
  deriving DecidableEq

/-- `sessions` -/
structure SessionRow where
  id : ℕ
  userId : ℕ
  sessionTokenHash : String
  createdAt : Time
  expiresAt : Time
  lastSeenAt : Option Time
  lastActivityAt : Option Time
  ipAddress : String
  revokedAt : Option Time
  revokedReason : Option String
  cleanupConfirmedAt : Option Time
  deriving DecidableEq

/-- `native_playback_sessions` -/
structure NativePlaybackSessionRow where
  id : ℕ
  sessionId : String
  accessTokenHash : String
  userId : ℕ
  mediaItemId : ℕ
  createdAt : Time
  expiresAt : Time
  lastSeenAt : Time
  closedAt : Option Time
  revokedAt : Option Time
  authSessionId : Option ℕ
  createdFromAuthSessionId : Option ℕ
  clientName : Option String
  deriving DecidableEq

/-- `desktop_vlc_handoffs` -/
structure DesktopVlcHandoffRow where
  id : ℕ
  handoffId : String
  accessTokenHash : String
  authSessionId : Option ℕ
  userId : ℕ
  mediaItemId : ℕ
  createdAt : Time
  expiresAt : Time
  revokedAt : Option Time
  deriving DecidableEq

/-- `download_sessions` -/
structure DownloadSessionRow where
  id : ℕ
  sessionTokenHash : String
  userId : ℕ
  mediaItemId : ℕ
  authSessionId : Option ℕ
  authSessionRequired : Bool
  createdAt : Time
  expiresAt : Time
  completedAt : Option Time
  failedAt : Option Time
  revokedAt : Option Time
  lastError : Option String
  deriving DecidableEq

/-- `invite_codes` -/
structure InviteCodeRow where
  id : ℕ
  codeHash : String
  expiresAt : Time
  assignedAge : ℕ
  usedAt : Option Time
  usedByUserId : Option ℕ
  hiddenAt : Option Time
  revokedAt : Option Time
  deriving DecidableEq

/-- What a login was accepted with. -/
inductive Factor where
  | window (w : ℤ)
  | recovery (codeId : ℕ)
  deriving DecidableEq

/-- Request `request` committed its login with the second factor `factor`. -/
structure Acceptance where
  request : ℕ
  challengeTokenHash : String
  userId : ℕ
  factor : Factor
  deriving DecidableEq

/-- Request `request` created a session on the strength of a challenge. -/
structure IssuedSession where
  request : ℕ
  challengeTokenHash : String
  deriving DecidableEq

/-- A wrong second-factor code was evaluated for a user. -/
structure WrongCode where
  username : String
  at_ : Time
  deriving DecidableEq

/-- The tables, the lock of the maintenance mode, and the record of the requests. -/
structure AuthDb where
  users : AutoTable UserRow UserRow.id
  recoveryCodes : AutoTable RecoveryCodeRow RecoveryCodeRow.id
  loginChallenges : List LoginChallengeRow
  loginFailures : List LoginFailureRow
  loginLockouts : List LoginLockoutRow
  sessions : AutoTable SessionRow SessionRow.id
  nativePlaybackSessions : AutoTable NativePlaybackSessionRow NativePlaybackSessionRow.id
  desktopVlcHandoffs : AutoTable DesktopVlcHandoffRow DesktopVlcHandoffRow.id
  downloadSessions : AutoTable DownloadSessionRow DownloadSessionRow.id
  inviteCodes : AutoTable InviteCodeRow InviteCodeRow.id
  maintenanceLock : Bool
  acceptances : List Acceptance
  issued : List IssuedSession
  wrongCodes : List WrongCode

namespace AuthDb

/-- No rows at all. -/
def empty : AuthDb where
  users := .empty
  recoveryCodes := .empty
  loginChallenges := []
  loginFailures := []
  loginLockouts := []
  sessions := .empty
  nativePlaybackSessions := .empty
  desktopVlcHandoffs := .empty
  downloadSessions := .empty
  inviteCodes := .empty
  maintenanceLock := false
  acceptances := []
  issued := []
  wrongCodes := []

/-- `SELECT … FROM users WHERE id = ?` -/
def userById (db : AuthDb) (id : ℕ) : Option UserRow := db.users.find fun u => u.id == id

/-- `SELECT … FROM users WHERE username = ?` -/
def userByName (db : AuthDb) (username : String) : Option UserRow :=
  db.users.find fun u => u.username == username

/-- The tables of `db` with an empty record: where a run starts. -/
def unrecorded (db : AuthDb) : AuthDb :=
  { db with acceptances := [], issued := [], wrongCodes := [] }

end AuthDb

/-- A request on these tables. -/
abbrev Request (α : Type) := Statements.Program AuthDb Input PyError α
