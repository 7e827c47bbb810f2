/-
The SQLite-backed rate limiter (`rate_limiter_service.py`).

A limiter counts the failures of a bucket key inside a window and locks the key
out when they reach a threshold.  Every method runs on a connection of its own,
under a lock of the limiter; only `register_failure` and `clear` always write.
-/
import Elvern.AuthEnv

open Statements Statements.Program PyText

/-- `LOGIN_FAILURE_RETENTION_SECONDS` -/
def loginFailureRetention : Time := 7 * 86400

/-- `SqliteRateLimiter`; the times are in seconds. -/
structure RateLimiter where
  bucketKind : BucketKind
  windowSeconds : ℕ
  maxAttempts : ℕ
  lockoutSeconds : ℕ
  deriving DecidableEq

/-- The limiter of client addresses, in `build_login_rate_limiters`. -/
def loginIpRateLimiter : RateLimiter :=
  { bucketKind := .ip, windowSeconds := 300, maxAttempts := 10, lockoutSeconds := 600 }

/-- The limiter of usernames, in `build_login_rate_limiters`. -/
def loginUsernameRateLimiter : RateLimiter :=
  { bucketKind := .username, windowSeconds := 3600, maxAttempts := 50, lockoutSeconds := 600 }

/-- `_normalize_key` -/
def AuthEnv.normalizeKey (env : AuthEnv) (key : String) : String :=
  orElse (strip env.unicode key) "unknown"

namespace LoginFailureRow

/-- The row belongs to the bucket. -/
def inBucket (kind : BucketKind) (key : String) (f : LoginFailureRow) : Bool :=
  f.bucketKind == kind && f.bucketKey == key

end LoginFailureRow

namespace LoginLockoutRow

/-- The row belongs to the bucket. -/
def inBucket (kind : BucketKind) (key : String) (l : LoginLockoutRow) : Bool :=
  l.bucketKind == kind && l.bucketKey == key

end LoginLockoutRow

namespace AuthDb

/-- `DELETE FROM login_lockouts WHERE bucket_kind = ? AND bucket_key = ?` -/
def deleteLockout (db : AuthDb) (kind : BucketKind) (key : String) : AuthDb :=
  { db with loginLockouts := db.loginLockouts.filter fun l => !l.inBucket kind key }

/-- `DELETE FROM login_failures WHERE bucket_kind = ? AND bucket_key = ?` -/
def deleteFailures (db : AuthDb) (kind : BucketKind) (key : String) : AuthDb :=
  { db with loginFailures := db.loginFailures.filter fun f => !f.inBucket kind key }

/-- The end of the lockout of a bucket, if there is one. -/
def blockedUntil (db : AuthDb) (kind : BucketKind) (key : String) : Option Time :=
  (db.loginLockouts.find? fun l => l.inBucket kind key).map LoginLockoutRow.blockedUntilUnix

/-- The failures of a bucket since `cutoff`. -/
def failuresSince (db : AuthDb) (kind : BucketKind) (key : String) (cutoff : Time) :
    List LoginFailureRow :=
  db.loginFailures.filter fun f => f.inBucket kind key && decide (cutoff ≤ f.occurredAtUnix)

/-- `INSERT INTO login_failures` -/
def insertFailure (db : AuthDb) (kind : BucketKind) (key : String) (now : Time) : AuthDb :=
  { db with
    loginFailures := db.loginFailures ++
      [{ bucketKind := kind, bucketKey := key, occurredAtUnix := now }] }

/-- `DELETE FROM login_failures WHERE bucket_kind = ? AND bucket_key = ? AND occurred_at_unix <
?` -/
def deleteFailuresBefore (db : AuthDb) (kind : BucketKind) (key : String) (cutoff : Time) :
    AuthDb :=
  { db with
    loginFailures := db.loginFailures.filter fun f =>
      !(f.inBucket kind key && decide (f.occurredAtUnix < cutoff)) }

/-- `DELETE FROM login_failures WHERE occurred_at_unix < ?` -/
def deleteAllFailuresBefore (db : AuthDb) (cutoff : Time) : AuthDb :=
  { db with
    loginFailures := db.loginFailures.filter fun f => !decide (f.occurredAtUnix < cutoff) }

/-- `INSERT OR REPLACE INTO login_lockouts` -/
def replaceLockout (db : AuthDb) (kind : BucketKind) (key : String) (blockedUntil : Time) :
    AuthDb :=
  { db with
    loginLockouts := (db.loginLockouts.filter fun l => !l.inBucket kind key) ++
      [{ bucketKind := kind, bucketKey := key, blockedUntilUnix := blockedUntil }] }

/-- The transaction of `register_failure`; it returns the lockout it imposes, or 0. -/
def registerFailure (db : AuthDb) (lim : RateLimiter) (key : String) (now : Time) : AuthDb × ℕ :=
  let windowCutoff := now - lim.windowSeconds
  let db := db.insertFailure lim.bucketKind key now
  let db := db.deleteFailuresBefore lim.bucketKind key windowCutoff
  let db := db.deleteAllFailuresBefore (now - loginFailureRetention)
  if lim.maxAttempts ≤ (db.failuresSince lim.bucketKind key windowCutoff).length then
    let db := db.replaceLockout lim.bucketKind key (now + lim.lockoutSeconds)
    (db.deleteFailures lim.bucketKind key, lim.lockoutSeconds)
  else (db, 0)

/-- Record that a wrong code was evaluated. -/
def recordWrongCode (db : AuthDb) (w : WrongCode) : AuthDb :=
  { db with wrongCodes := w :: db.wrongCodes }

/-- The transaction of `clear`. -/
def clearBucket (db : AuthDb) (kind : BucketKind) (key : String) : AuthDb :=
  (db.deleteFailures kind key).deleteLockout kind key

end AuthDb

namespace RateLimiter

variable (env : AuthEnv) (lim : RateLimiter)

/-- `check`: the seconds until the key may try again, or 0. -/
def check (key : String) : Request ℕ := do
  let clock ← input
  let blocked ← query fun db => db.blockedUntil lim.bucketKind (env.normalizeKey key)
  match blocked with
  | none => .ret 0
  | some until_ =>
    if clock.now < until_ then .ret (max 1 (until_ - clock.now).ceil.toNat)
    else do
      let _ ← apart fun db => (db.deleteLockout lim.bucketKind (env.normalizeKey key), 0)
      .ret 0

/-- `check` from its query on. -/
def answerBlocked (key : String) (now : Time) (blocked : Option Time) : Request ℕ :=
  match blocked with
  | none => .ret 0
  | some until_ =>
    if now < until_ then .ret (max 1 (until_ - now).ceil.toNat)
    else do
      let _ ← apart fun db => (db.deleteLockout lim.bucketKind (env.normalizeKey key), 0)
      .ret 0

/-- `register_failure`; `note` records the failure beside the tables. -/
def registerFailure (key : String) (note : Time → AuthDb → AuthDb) : Request ℕ := do
  let clock ← input
  apart fun db =>
    let (db, lockout) := db.registerFailure lim (env.normalizeKey key) clock.now
    (note clock.now db, lockout)

/-- `clear` -/
def clear (key : String) : Request Unit := do
  let _ ← apart fun db => (db.clearBucket lim.bucketKind (env.normalizeKey key), 0)
  .ret ()

end RateLimiter
