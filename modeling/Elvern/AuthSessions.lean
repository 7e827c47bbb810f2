/-
Login sessions (`auth.py`): creation, touching, logout, revocation and expiry, with the
sweeps that these make over the playback grants which carry the session's id.

Each write statement is a function on the tables; the requests at the end put them
into transactions in the order of the source.
-/
import Elvern.AuthEnv

open Tables Statements Statements.Program

/-- `SESSION_HISTORY_RETENTION_DAYS`, in seconds. -/
def sessionHistoryRetention : Time := 90 * 86400

namespace SessionRow

/-- The row is past its retention, in `cleanup_expired_sessions`. -/
def pastRetention (s : SessionRow) (cutoff : Time) : Bool :=
  match s.revokedAt with
  | some revoked => decide (revoked ≤ cutoff)
  | none => decide (s.expiresAt ≤ cutoff)

end SessionRow

namespace NativePlaybackSessionRow

/-- `expires_at <= ? OR closed_at IS NOT NULL OR revoked_at IS NOT NULL` -/
def stale (n : NativePlaybackSessionRow) (now : Time) : Bool :=
  decide (n.expiresAt ≤ now) || n.closedAt.isSome || n.revokedAt.isSome

end NativePlaybackSessionRow

namespace DesktopVlcHandoffRow

/-- `expires_at <= ? OR revoked_at IS NOT NULL` -/
def stale (h : DesktopVlcHandoffRow) (now : Time) : Bool :=
  decide (h.expiresAt ≤ now) || h.revokedAt.isSome

end DesktopVlcHandoffRow

namespace AuthDb

/-- The row has its `auth_session_id` among `ids`. -/
def attachedTo (ids : List ℕ) (authSessionId : Option ℕ) : Bool :=
  match authSessionId with
  | none => false
  | some id => ids.contains id

/-- `revoke_download_sessions_for_auth_sessions` -/
def revokeDownloadSessionsFor (db : AuthDb) (ids : List ℕ) (now : Time) (reason : String) :
    AuthDb :=
  { db with
    downloadSessions := db.downloadSessions.updateWhere
      (fun d => attachedTo ids d.authSessionId && d.revokedAt.isNone && d.completedAt.isNone)
      (fun d =>
        { d with revokedAt := some now, lastError := d.lastError.orElse fun _ => some reason })
      fun _ => rfl }

/-- `UPDATE native_playback_sessions SET revoked_at … WHERE auth_session_id IN …` -/
def revokeNativeSessionsFor (db : AuthDb) (ids : List ℕ) (now : Time) : AuthDb :=
  { db with
    nativePlaybackSessions := db.nativePlaybackSessions.updateWhere
      (fun n => attachedTo ids n.authSessionId && n.revokedAt.isNone && n.closedAt.isNone)
      (fun n => { n with revokedAt := some now })
      fun _ => rfl }

/-- `revoke_native_playback_sessions_created_from_auth_sessions` -/
def revokeNativeSessionsCreatedFrom (db : AuthDb) (ids : List ℕ) (now : Time) : AuthDb :=
  { db with
    nativePlaybackSessions := db.nativePlaybackSessions.updateWhere
      (fun n => attachedTo ids n.createdFromAuthSessionId && n.authSessionId.isNone &&
        n.revokedAt.isNone && n.closedAt.isNone)
      (fun n => { n with revokedAt := some now })
      fun _ => rfl }

/-- `UPDATE desktop_vlc_handoffs SET revoked_at … WHERE auth_session_id IN …` -/
def revokeHandoffsFor (db : AuthDb) (ids : List ℕ) (now : Time) : AuthDb :=
  { db with
    desktopVlcHandoffs := db.desktopVlcHandoffs.updateWhere
      (fun h => attachedTo ids h.authSessionId && h.revokedAt.isNone)
      (fun h => { h with revokedAt := some now })
      fun _ => rfl }

/-- `UPDATE sessions SET revoked_at, revoked_reason, cleanup_confirmed_at WHERE id IN …` -/
def revokeSessionRows (db : AuthDb) (ids : List ℕ) (now : Time) (reason : String)
    (confirmed : Option Time) : AuthDb :=
  { db with
    sessions := db.sessions.updateWhere
      (fun s => ids.contains s.id)
      (fun s => { s with
        revokedAt := some now, revokedReason := some reason, cleanupConfirmedAt := confirmed })
      fun _ => rfl }

/-- `DELETE FROM sessions WHERE …`, with the foreign key of `download_sessions`
(`ON DELETE SET NULL`). -/
def deleteSessions (db : AuthDb) (p : SessionRow → Bool) : AuthDb :=
  let gone := (db.sessions.rows.filter p).map SessionRow.id
  { db with
    sessions := db.sessions.deleteWhere p
    downloadSessions := db.downloadSessions.updateWhere
      (fun d => attachedTo gone d.authSessionId) (fun d => { d with authSessionId := none })
      fun _ => rfl }

/-- `_revoke_session_ids` -/
def revokeSessionIds (db : AuthDb) (ids : List ℕ) (reason : String) (now : Time) : AuthDb :=
  if ids = [] then db
  else
    let db := db.revokeDownloadSessionsFor ids now reason
    let db := db.revokeSessionRows ids now reason none
    let db := db.revokeNativeSessionsFor ids now
    let db := if reason = "admin_revoked" then db.revokeNativeSessionsCreatedFrom ids now else db
    db.revokeHandoffsFor ids now

/-- `_delete_session_for_auth_expiry` -/
def deleteSessionForAuthExpiry (db : AuthDb) (id : ℕ) (now : Time) : AuthDb :=
  let db := db.revokeDownloadSessionsFor [id] now "auth_session_expired"
  let db := db.deleteSessions fun s => s.id == id
  let db := db.revokeNativeSessionsFor [id] now
  db.revokeHandoffsFor [id] now

/-- `cleanup_expired_sessions` -/
def cleanupExpiredSessions (db : AuthDb) (now : Time) : AuthDb :=
  let cutoff := now - sessionHistoryRetention
  let past := (db.sessions.rows.filter fun s => s.pastRetention cutoff).map SessionRow.id
  let db := db.revokeDownloadSessionsFor past now "auth_session_deleted"
  let db := { db with
    nativePlaybackSessions := db.nativePlaybackSessions.deleteWhere fun n => n.stale now
    desktopVlcHandoffs := db.desktopVlcHandoffs.deleteWhere fun h => h.stale now }
  db.deleteSessions fun s => s.pastRetention cutoff

/-- `INSERT INTO sessions`; the token hash is unique. -/
def insertSession (db : AuthDb) (userId : ℕ) (tokenHash ip : String) (now expiresAt : Time) :
    Except PyError AuthDb :=
  if db.sessions.rows.any fun s => s.sessionTokenHash == tokenHash then .error .integrityError
  else
    .ok { db with
      sessions := db.sessions.insert
        (fun id =>
          { id, userId, sessionTokenHash := tokenHash, createdAt := now, expiresAt,
            lastSeenAt := some now, lastActivityAt := some now, ipAddress := ip,
            revokedAt := none, revokedReason := none, cleanupConfirmedAt := none })
        fun _ => rfl }

/-- `revoke_sessions_for_user_in_connection`, with the sessions that it found. -/
def revokeSessionsForUser (db : AuthDb) (userId : ℕ) (ids : List ℕ) (reason : String)
    (now : Time) : AuthDb :=
  let db := db.revokeSessionIds ids reason now
  if reason = "user_disabled" then
    { db with
      nativePlaybackSessions := db.nativePlaybackSessions.updateWhere
        (fun n => n.userId == userId && n.revokedAt.isNone && n.closedAt.isNone)
        (fun n => { n with revokedAt := some now }) fun _ => rfl
      desktopVlcHandoffs := db.desktopVlcHandoffs.updateWhere
        (fun h => h.userId == userId && h.revokedAt.isNone)
        (fun h => { h with revokedAt := some now }) fun _ => rfl }
  else db

/-- The transaction of `destroy_session`. -/
def logout (db : AuthDb) (id : ℕ) (now : Time) : AuthDb :=
  let db := db.revokeSessionRows [id] now "logout" (some now)
  let db := db.revokeNativeSessionsFor [id] now
  let db := db.revokeHandoffsFor [id] now
  db.revokeDownloadSessionsFor [id] now "auth_session_logout"

/-- The transaction of `revoke_non_admin_sessions_for_maintenance_mode`, with the sessions that it
found. -/
def revokeForMaintenance (db : AuthDb) (ids : List ℕ) (now : Time) : AuthDb :=
  if ids = [] then db
  else
    let db := db.revokeDownloadSessionsFor ids now "maintenance_mode"
    let db := db.revokeSessionRows ids now "maintenance_mode" none
    db.revokeNativeSessionsFor ids now

/-- `UPDATE sessions SET last_seen_at = ?` and, for an activity, `last_activity_at = ?` -/
def touchSession (db : AuthDb) (id : ℕ) (heartbeat : Bool) (now : Time) : AuthDb :=
  { db with
    sessions := db.sessions.updateWhere (fun s => s.id == id)
      (fun s => { s with
        lastSeenAt := some now, lastActivityAt := if heartbeat then
          s.lastActivityAt else some now })
      fun _ => rfl }

/-- The unrevoked session of a token hash. -/
def sessionByHash (db : AuthDb) (hash : String) : Option SessionRow :=
  db.sessions.find fun s => s.sessionTokenHash == hash && s.revokedAt.isNone

/-- The unrevoked session of a token hash, with its user if that one is enabled. -/
def sessionWithUser (db : AuthDb) (hash : String) : Option (SessionRow × UserRow) :=
  (db.sessionByHash hash).bind fun s =>
    (db.users.find fun u => u.id == s.userId && u.enabled).map fun u => (s, u)

end AuthDb

/-! ### The requests -/

namespace AuthEnv

variable (env : AuthEnv)

/-- `create_session`; it returns the session token.  `note` records the session beside
the tables, in the statement that inserts it. -/
def createSession (user : UserRow) (ip : String) (note : AuthDb → AuthDb) : Request String := do
  let token ← input
  let clock ← input
  update fun db => db.cleanupExpiredSessions clock.now
  let _ ← insert fun db =>
    (db.insertSession user.id (env.hashAuthSessionToken token.fresh) ip clock.now
      (clock.now + env.sessionTtlHours * 3600)).map fun db => (note db, 0)
  commitNow
  .ret token.fresh

/-- `destroy_session` -/
def destroySession (token : String) : Request Unit :=
  if token = "" then .ret ()
  else do
    let clock ← input
    let row ← query fun db => db.sessionByHash (env.hashAuthSessionToken token)
    match row with
    | none => .ret ()
    | some row => do
      update fun db => db.logout row.id clock.now
      commitNow
      .ret ()

/-- `revoke_session_by_id` -/
def revokeSessionById (sessionId : ℕ) (reason : String) : Request Bool := do
  let clock ← input
  let row ← query fun db => db.sessions.find fun s => s.id == sessionId && s.revokedAt.isNone
  match row with
  | none => .ret false
  | some _ => do
    update fun db => db.revokeSessionIds [sessionId] reason clock.now
    commitNow
    .ret true

/-- `revoke_sessions_for_user` -/
def revokeSessionsForUser (userId : ℕ) (reason : String) : Request ℕ := do
  let clock ← input
  let ids ← query fun db =>
    (db.sessions.rows.filter fun s => s.userId == userId && s.revokedAt.isNone).map SessionRow.id
  update fun db => db.revokeSessionsForUser userId ids reason clock.now
  commitNow
  .ret ids.length

/-- The session is past its absolute or its idle lifetime, in `get_user_by_session_token`. -/
def sessionExpired (s : SessionRow) (now : Time) : Bool :=
  decide (s.expiresAt ≤ now) ||
    s.lastSeenAt.all fun seen => decide ((env.sessionIdleTimeoutHours * 3600 : Time) < now - seen)

/-- `get_user_by_session_token` -/
def getUserBySessionToken (token : String) (heartbeat : Bool) :
    Request (Option AuthenticatedUser) :=
  if token = "" then .ret none
  else do
    let clock ← input
    update fun db => db.cleanupExpiredSessions clock.now
    commitNow
    let row ← query fun db => db.sessionWithUser (env.hashAuthSessionToken token)
    match row with
    | none => .ret none
    | some (s, u) =>
      if env.sessionExpired s clock.now then do
        update fun db => db.deleteSessionForAuthExpiry s.id clock.now
        commitNow
        .ret none
      else do
        update fun db => db.touchSession s.id heartbeat clock.now
        commitNow
        .ret (some
          { id := u.id, username := u.username, role := u.role, enabled := u.enabled,
            assistantBetaEnabled := u.assistantBetaEnabled, ageCredential := u.ageCredential,
            sessionId := some s.id })

/-- `revoke_non_admin_sessions_for_maintenance_mode` (`exposure_maintenance_service.py`) -/
def revokeNonAdminSessions : Request ℕ := do
  let clock ← input
  let ids ← query fun db => (db.sessions.rows.filter fun s => s.revokedAt.isNone &&
    db.users.rows.any fun u => u.id == s.userId && u.role != .admin).map SessionRow.id
  update fun db => db.revokeForMaintenance ids clock.now
  commitNow
  .ret ids.length

end AuthEnv
