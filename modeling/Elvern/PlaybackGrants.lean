/-
Playback grants that carry a login session's id: desktop VLC handoffs
(`desktop_playback_handoff_service.py`), native playback sessions
(`native_playback_service.py`) and download sessions (`account_access_service.py`).

For each of them the row that its creation inserts, the read that its validation makes, and
the requests of both.  What the requests read of other tables (media items, age and download
access) is in `AuthEnv`.
-/
import Elvern.AuthSessions

open Tables Statements Statements.Program PyText

/-- `DOWNLOAD_SESSION_TTL_MINUTES`, in seconds. -/
def downloadSessionTtl : Time := 10 * 60

namespace AuthDb

/-! ### Desktop handoffs -/

/-- `cleanup_desktop_vlc_handoffs` -/
def cleanupHandoffs (db : AuthDb) (now : Time) : AuthDb :=
  { db with desktopVlcHandoffs := db.desktopVlcHandoffs.deleteWhere fun h => h.stale now }

/-- `INSERT INTO desktop_vlc_handoffs`; the handoff id is unique. -/
def insertHandoff (db : AuthDb) (handoffId tokenHash : String) (authSessionId : Option ℕ)
    (userId mediaItemId : ℕ) (now expiresAt : Time) : Except PyError (AuthDb × ℕ) :=
  if db.desktopVlcHandoffs.rows.any fun h => h.handoffId == handoffId then .error .integrityError
  else
    .ok
      ({ db with
          desktopVlcHandoffs := db.desktopVlcHandoffs.insert
            (fun id =>
              { id, handoffId, accessTokenHash := tokenHash, authSessionId, userId, mediaItemId,
                createdAt := now, expiresAt, revokedAt := none })
            fun _ => rfl },
        db.desktopVlcHandoffs.seq + 1)

/-- The read of `_require_desktop_vlc_handoff`: the handoff and its user. -/
def handoffLookup (db : AuthDb) (mediaItemExists : ℕ → Bool) (handoffId hash legacyHash : String)
    (now : Time) : Option (DesktopVlcHandoffRow × UserRow) :=
  (db.desktopVlcHandoffs.find fun h =>
      h.handoffId == handoffId && (h.accessTokenHash == hash || h.accessTokenHash == legacyHash) &&
      decide (now < h.expiresAt) && h.revokedAt.isNone && mediaItemExists h.mediaItemId &&
      db.users.rows.any fun u => u.id == h.userId && u.enabled).bind fun h =>
    (db.users.find fun u => u.id == h.userId && u.enabled).map fun u => (h, u)

/-- `UPDATE desktop_vlc_handoffs SET access_token_hash = ? …` -/
def rehashHandoff (db : AuthDb) (handoffId current hash : String) : AuthDb :=
  { db with
    desktopVlcHandoffs := db.desktopVlcHandoffs.updateWhere
      (fun h => h.handoffId == handoffId && h.accessTokenHash == current)
      (fun h => { h with accessTokenHash := hash }) fun _ => rfl }

/-! ### Native playback sessions -/

/-- `cleanup_native_playback_sessions` -/
def cleanupNativeSessions (db : AuthDb) (now : Time) : AuthDb :=
  { db with nativePlaybackSessions := db.nativePlaybackSessions.deleteWhere fun n => n.stale now }

/-- `INSERT INTO native_playback_sessions`; the session id is unique. -/
def insertNativeSession (db : AuthDb) (sessionId tokenHash : String) (userId mediaItemId : ℕ)
    (authSessionId createdFromAuthSessionId : Option ℕ) (clientName : Option String)
    (now expiresAt : Time) : Except PyError (AuthDb × ℕ) :=
  if db.nativePlaybackSessions.rows.any fun n => n.sessionId == sessionId then
    .error .integrityError
  else
    .ok
      ({ db with
          nativePlaybackSessions := db.nativePlaybackSessions.insert
            (fun id =>
              { id, sessionId, accessTokenHash := tokenHash, userId, mediaItemId,
                createdAt := now, expiresAt, lastSeenAt := now, closedAt := none,
                revokedAt := none, authSessionId, createdFromAuthSessionId, clientName })
            fun _ => rfl },
        db.nativePlaybackSessions.seq + 1)

/-- The auth session that a row names is unrevoked and has not passed its expiry; a row without
one needs none. -/
def authSessionLive (db : AuthDb) (authSessionId : Option ℕ) (now : Time) : Bool :=
  match authSessionId with
  | none => true
  | some id => db.sessions.rows.any fun s =>
      s.id == id && s.revokedAt.isNone && decide (now < s.expiresAt)

/-- The read of `_require_native_session`, and of `_native_stream_access_still_valid`, which does
not join the media item. -/
def nativeLookup (db : AuthDb) (mediaItemExists : ℕ → Bool) (sessionId hash legacyHash : String)
    (now : Time) : Option (NativePlaybackSessionRow × UserRow) :=
  (db.nativePlaybackSessions.find fun n =>
      n.sessionId == sessionId && (n.accessTokenHash == hash || n.accessTokenHash == legacyHash) &&
      n.closedAt.isNone && n.revokedAt.isNone && decide (now < n.expiresAt) &&
      mediaItemExists n.mediaItemId && db.authSessionLive n.authSessionId now &&
      db.users.rows.any fun u => u.id == n.userId && u.enabled).bind fun n =>
    (db.users.find fun u => u.id == n.userId && u.enabled).map fun u => (n, u)

/-- `UPDATE native_playback_sessions SET access_token_hash, last_seen_at, expires_at …` -/
def extendNativeSession (db : AuthDb) (sessionId current hash : String) (open_ : Bool)
    (now expiresAt : Time) : AuthDb :=
  { db with
    nativePlaybackSessions := db.nativePlaybackSessions.updateWhere
      (fun n => n.sessionId == sessionId && n.accessTokenHash == current &&
        (!open_ || (n.closedAt.isNone && n.revokedAt.isNone)))
      (fun n => { n with accessTokenHash := hash, lastSeenAt := now, expiresAt })
      fun _ => rfl }

/-- `_maybe_rehash_native_playback_access_token` -/
def rehashNativeSession (db : AuthDb) (sessionId current hash : String) : AuthDb :=
  { db with
    nativePlaybackSessions := db.nativePlaybackSessions.updateWhere
      (fun n => n.sessionId == sessionId && n.accessTokenHash == current)
      (fun n => { n with accessTokenHash := hash }) fun _ => rfl }

/-! ### Download sessions -/

/-- `INSERT INTO download_sessions`; the token hash is unique and the auth session must exist. -/
def insertDownload (db : AuthDb) (tokenHash : String) (user : AuthenticatedUser)
    (mediaItemId : ℕ) (now expiresAt : Time) : Except PyError (AuthDb × ℕ) :=
  if (db.downloadSessions.rows.any fun d => d.sessionTokenHash == tokenHash) ||
      user.sessionId.any fun id => !db.sessions.rows.any fun s => s.id == id then
    .error .integrityError
  else
    .ok
      ({ db with
          downloadSessions := db.downloadSessions.insert
            (fun id =>
              { id, sessionTokenHash := tokenHash, userId := user.id, mediaItemId,
                authSessionId := user.sessionId, authSessionRequired := user.sessionId.isSome,
                createdAt := now, expiresAt, completedAt := none, failedAt := none,
                revokedAt := none, lastError := none })
            fun _ => rfl },
        db.downloadSessions.seq + 1)

/-- The read of `validate_download_session`: the row of a hash, or else of the legacy hash. -/
def downloadByHash (db : AuthDb) (hash legacyHash : String) (sessionId : Option ℕ) :
    Option DownloadSessionRow :=
  (db.downloadSessions.find fun d => d.sessionTokenHash == hash &&
    sessionId.all fun id => d.id == id).or (db.downloadSessions.find fun d =>
      d.sessionTokenHash == legacyHash && sessionId.all fun id => d.id == id)

/-- The checks of `validate_download_session` on the row that it read: `none` where it goes on. -/
def downloadRefusal (db : AuthDb) (d : DownloadSessionRow) (user : AuthenticatedUser)
    (hash : String) (allowExpired : Bool) (now : Time) : Option PyError :=
  if d.userId ≠ user.id then
    some (.http 403 "Download session is not valid for this session")
  else if d.authSessionRequired ∧ d.authSessionId = none then
    some (.http 403 "Download session is detached from its auth session")
  else if d.authSessionRequired ∧ d.authSessionId ≠ some (user.sessionId.getD 0) then
    some (.http 403 "Download session is not valid for this session")
  else if d.authSessionRequired ∧ db.authSessionLive d.authSessionId now = false then
    some (.http 403 "Auth session is no longer active")
  else if d.revokedAt ≠ none ∨ d.completedAt ≠ none ∨ d.failedAt ≠ none ∨
      ((allowExpired = false ∨ d.sessionTokenHash ≠ hash) ∧ d.expiresAt ≤ now) then
    some (.http 403 "Download session is no longer active")
  else if !db.users.rows.any fun u => u.id == d.userId && u.enabled then
    some (.http 403 "Account is disabled")
  else none

/-- The row that `validate_download_session` reads and lets pass. -/
def downloadLookup (db : AuthDb) (hash legacyHash : String) (user : AuthenticatedUser)
    (sessionId : Option ℕ) (allowExpired : Bool) (now : Time) :
    Except PyError DownloadSessionRow :=
  match db.downloadByHash hash legacyHash sessionId with
  | none => .error (.http 404 "Download session not found")
  | some d =>
    match db.downloadRefusal d user hash allowExpired now with
    | some e => .error e
    | none => .ok d

/-- `UPDATE download_sessions SET failed_at = COALESCE(failed_at, ?), last_error = ? …` -/
def failDownload (db : AuthDb) (id : ℕ) (message : String) (now : Time) : AuthDb :=
  { db with
    downloadSessions := db.downloadSessions.updateWhere (fun d => d.id == id)
      (fun d => { d with
        failedAt := d.failedAt.orElse fun _ => some now, lastError := some message })
      fun _ => rfl }

/-- `_maybe_rehash_download_session_token` -/
def rehashDownload (db : AuthDb) (id : ℕ) (current hash : String) : AuthDb :=
  { db with
    downloadSessions := db.downloadSessions.updateWhere
      (fun d => d.id == id && d.sessionTokenHash == current)
      (fun d => { d with sessionTokenHash := hash }) fun _ => rfl }

end AuthDb

namespace AuthEnv

variable (env : AuthEnv)

/-! ### Requests on desktop handoffs -/

/-- `_desktop_vlc_handoff_access_token_hash` -/
def handoffTokenHash (token : String) : String :=
  env.hashTokenHmac "desktop.vlc.handoff.access" token

/-- `create_desktop_vlc_handoff`; it returns the handoff id and the access token. -/
def createDesktopVlcHandoff (userId mediaItemId : ℕ) (authSessionId : Option ℕ) :
    Request (String × String) := do
  let cleaned ← input
  update fun db => db.cleanupHandoffs cleaned.now
  commitNow
  let handoffId ← input
  let accessToken ← input
  let _ ← insert fun db =>
    db.insertHandoff handoffId.fresh (env.handoffTokenHash accessToken.fresh) authSessionId userId
      mediaItemId accessToken.now (accessToken.now + env.playbackTokenTtlSeconds)
  commitNow
  .ret (handoffId.fresh, accessToken.fresh)

/-- `_require_desktop_vlc_handoff` -/
def requireDesktopVlcHandoff (handoffId accessToken : String) :
    Request (DesktopVlcHandoffRow × UserRow) := do
  let hash := env.handoffTokenHash accessToken
  let cleaned ← input
  update fun db => db.cleanupHandoffs cleaned.now
  commitNow
  let clock ← input
  let row ← query fun db =>
    db.handoffLookup env.mediaItemExists handoffId hash (env.hashSessionToken accessToken) clock.now
  match row with
  | none => .raise (.http 401 "Desktop VLC handoff is invalid or has expired")
  | some (h, u) =>
    match env.assertUserCanAccessMediaByAge u.role u.ageCredential h.mediaItemId with
    | .error e => .raise e
    | .ok () =>
      if h.accessTokenHash = hash then .ret (h, u)
      else do
        update fun db => db.rehashHandoff handoffId h.accessTokenHash hash
        commitNow
        .ret (h, u)

/-! ### Requests on native playback sessions -/

/-- `_native_playback_access_token_hash` -/
def nativeTokenHash (token : String) : String := env.hashTokenHmac "native.playback.access" token

/-- `_uses_external_player_backend_stream` -/
def usesExternalPlayerBackendStream (clientName : Option String) : Bool :=
  let normalized := lower env.unicode (strip env.unicode (clientName.getD ""))
  startsWith "elvern ios vlc handoff" normalized ||
  startsWith "elvern ios infuse handoff" normalized ||
  normalized == "linux same-host vlc" ||
  startsWith "vlc helper fallback" normalized || startsWith "vlc playlist fallback" normalized

/-- `_session_expiry` -/
def sessionExpiry (now : Time) (clientName : Option String) : Time :=
  now + if env.usesExternalPlayerBackendStream clientName then
    (env.externalPlayerStreamTtlSeconds : Time) else env.playbackTokenTtlSeconds

/-- `create_native_playback_session`; it returns the session id and the access token. -/
def createNativePlaybackSession (userId mediaItemId : ℕ)
    (authSessionId createdFromAuthSessionId : Option ℕ) (clientName : Option String) :
    Request (String × String) :=
  if env.nativePlaybackEnabled = false then
    .raise (.http 503 "Native playback sessions are disabled")
  else do
    let cleaned ← input
    update fun db => db.cleanupNativeSessions cleaned.now
    commitNow
    let sessionId ← input
    let accessToken ← input
    let _ ← insert fun db =>
      db.insertNativeSession sessionId.fresh (env.nativeTokenHash accessToken.fresh) userId
        mediaItemId authSessionId createdFromAuthSessionId clientName accessToken.now
        (env.sessionExpiry accessToken.now clientName)
    commitNow
    .ret (sessionId.fresh, accessToken.fresh)

/-- `_require_native_session` -/
def requireNativeSession (sessionId accessToken : String) (extendTtl : Bool) :
    Request (NativePlaybackSessionRow × UserRow) :=
  if sessionId = "" ∨ accessToken = "" then
    .raise (.http 401 "Native playback session token is required")
  else do
    let hash := env.nativeTokenHash accessToken
    let cleaned ← input
    update fun db => db.cleanupNativeSessions cleaned.now
    commitNow
    let clock ← input
    let row ← query fun db =>
      db.nativeLookup env.mediaItemExists sessionId hash
        (env.hashSessionToken accessToken) clock.now
    match row with
    | none => .raise (.http 401 "Native playback session is invalid or has expired")
    | some (n, u) => do
      if extendTtl then
        update fun db => db.extendNativeSession sessionId n.accessTokenHash hash false clock.now
          (env.sessionExpiry clock.now n.clientName)
      else if n.accessTokenHash = hash then .ret ()
      else update fun db => db.rehashNativeSession sessionId n.accessTokenHash hash
      commitNow
      match env.assertUserCanAccessMediaByAge u.role u.ageCredential n.mediaItemId with
      | .error e => .raise e
      | .ok () => .ret (n, u)

/-- `requireNativeSession` from the check of the age on. -/
def grantNative (n : NativePlaybackSessionRow) (u : UserRow) :
    Request (NativePlaybackSessionRow × UserRow) :=
  match env.assertUserCanAccessMediaByAge u.role u.ageCredential n.mediaItemId with
  | .error e => .raise e
  | .ok () => .ret (n, u)

/-- `_native_stream_access_still_valid` -/
def nativeStreamAccessStillValid (sessionId accessToken : String) (extendTtl : Bool) :
    Request Bool := do
  let hash := env.nativeTokenHash accessToken
  let clock ← input
  let row ← query fun db =>
    db.nativeLookup (fun _ => true) sessionId hash (env.hashSessionToken accessToken) clock.now
  match row with
  | none => .ret false
  | some (n, _) => do
    if extendTtl then
      update fun db => db.extendNativeSession sessionId n.accessTokenHash hash true clock.now
        (env.sessionExpiry clock.now n.clientName)
    else if n.accessTokenHash = hash then .ret ()
    else update fun db => db.rehashNativeSession sessionId n.accessTokenHash hash
    commitNow
    .ret true

/-! ### Requests on download sessions -/

/-- `_download_session_hash` -/
def downloadSessionHash (token : String) : String := env.hashTokenHmac "download.session" token

/-- `_legacy_download_session_hash` -/
def legacyDownloadSessionHash (token : String) : String := env.secretHash "download-session" token

/-- `create_download_session`, of an item that is not hidden; it returns the id of the row and
its token. -/
def createDownloadSession (user : AuthenticatedUser) (mediaItemId : ℕ) : Request (ℕ × String) :=
  if env.mediaItemExists mediaItemId = false then .raise (.http 404 "Movie not found")
  else
    match env.assertUserCanAccessMediaByAge user.role user.ageCredential mediaItemId with
    | .error e => .raise e
    | .ok () =>
      if env.itemDownloadAllowed user.id mediaItemId = false then
        .raise (.http 403 "Download access is not enabled for this movie")
      else do
        let token ← input
        let id ← insert fun db =>
          db.insertDownload (env.downloadSessionHash token.fresh) user mediaItemId token.now
            (token.now + downloadSessionTtl)
        commitNow
        .ret (id, token.fresh)

/-- `mark_download_session_failed` -/
def markDownloadSessionFailed (token : String) (user : AuthenticatedUser) (message : String)
    (sessionId : Option ℕ) : Request Unit := do
  let clock ← input
  let row ← query fun db =>
    (db.downloadByHash (env.downloadSessionHash token) (env.legacyDownloadSessionHash token)
      sessionId).filter fun d => d.userId == user.id
  match row with
  | none => .ret ()
  | some d => do
    update fun db => db.failDownload d.id message clock.now
    commitNow
    .ret ()

/-- `validate_download_session`; it returns the id of the media item. -/
def validateDownloadSession (token : String) (user : AuthenticatedUser) (sessionId : Option ℕ)
    (allowExpired : Bool) : Request ℕ := do
  let hash := env.downloadSessionHash token
  let clock ← input
  let found ← query fun db =>
    db.downloadLookup hash (env.legacyDownloadSessionHash token)
      user sessionId allowExpired clock.now
  match found with
  | .error e => .raise e
  | .ok d =>
    if env.itemDownloadAllowed user.id d.mediaItemId = false then do
      env.markDownloadSessionFailed token user "download_access_revoked" none
      .raise (.http 403 "Download access is no longer available")
    else
      match env.assertUserCanAccessMediaByAge user.role user.ageCredential d.mediaItemId with
      | .error e => do
        env.markDownloadSessionFailed token user "age_requirement_changed" sessionId
        .raise e
      | .ok () =>
        if d.sessionTokenHash = hash then .ret d.mediaItemId
        else do
          update fun db => db.rehashDownload d.id d.sessionTokenHash hash
          commitNow
          .ret d.mediaItemId

end AuthEnv
