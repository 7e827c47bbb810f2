/-
Playback grants and the login session that they came from.

Native playback sessions and download sessions look at their login session whenever they are
used; a desktop handoff does not, and relies on the sweeps of the functions that revoke or
delete sessions.  Any number of the requests of `AuthSessions` and `PlaybackGrants` run
interleaved, statement by statement:

* `Keeps` — what a commit does to handoffs and sessions, one lemma for each transaction;
* `Coupled` — the invariant: an unrevoked handoff has an unrevoked session that outlives it;
* `grants_coupled` — in every run in which handoffs are inserted for sessions that outlive them
  and a maintenance revocation finds no handoff to sweep, a grant that passes its validation has
  a session that exists, is unrevoked and has not passed its expiry;
* `grants_uncoupled` — a handoff passes after its session has expired.
-/
import Elvern.PlaybackGrants

open Tables Statements Statements.Program

namespace GrantCoupling

/-- The session exists, is unrevoked and has not passed its expiry. -/
def LiveAt (db : AuthDb) (id : ℕ) (t : Time) : Prop :=
  ∃ s ∈ db.sessions.rows, s.id = id ∧ s.revokedAt = none ∧ t < s.expiresAt

/-- A download row that names a session requires it. -/
def Requires (d : DownloadSessionRow) : Prop :=
  d.authSessionId ≠ none → d.authSessionRequired = true

/-- A handoff that is not revoked has an unrevoked session that expires no earlier. -/
structure Coupled (s : AuthDb) : Prop where
  handoffs : ∀ h ∈ s.desktopVlcHandoffs.rows, h.revokedAt = none → ∀ id, h.authSessionId = some id →
    ∃ x ∈ s.sessions.rows, x.id = id ∧ x.revokedAt = none ∧ h.expiresAt ≤ x.expiresAt
  downloads : ∀ d ∈ s.downloadSessions.rows, Requires d

/-- The sessions with their users. -/
def owners (s : AuthDb) : List (ℕ × ℕ) := s.sessions.rows.map fun x => (x.id, x.userId)

/-- What every commit leaves alone: the users, and whose session it is. -/
structure Steady (s u : AuthDb) : Prop where
  users : u.users = s.users
  seq : s.sessions.seq ≤ u.sessions.seq
  owner : ∀ o ∈ owners u, o ∈ owners s ∨ s.sessions.seq < o.1

/-- What a commit keeps: it brings no handoff back, and a session that it ends leaves behind no
handoff that the session would outlive. -/
structure Keeps (s u : AuthDb) : Prop extends Steady s u where
  handoffs : ∀ l ∈ u.desktopVlcHandoffs.rows, l.revokedAt = none →
    ∃ e ∈ s.desktopVlcHandoffs.rows, e.revokedAt = none ∧ e.authSessionId = l.authSessionId ∧
      e.expiresAt = l.expiresAt
  sessions : ∀ x ∈ s.sessions.rows, x.revokedAt = none →
    (∃ y ∈ u.sessions.rows, y.id = x.id ∧ y.revokedAt = none ∧ y.expiresAt = x.expiresAt) ∨
      ∀ l ∈ u.desktopVlcHandoffs.rows, l.revokedAt = none → l.authSessionId = some x.id →
        x.expiresAt < l.expiresAt
  downloads : (∀ d ∈ s.downloadSessions.rows, Requires d) →
    ∀ d ∈ u.downloadSessions.rows, Requires d

variable {s m u : AuthDb} {now : Time}

theorem Steady.refl (s : AuthDb) : Steady s s := ⟨rfl, le_refl _, fun _ ho => .inl ho⟩

theorem Steady.trans (h₁ : Steady s m) (h₂ : Steady m u) : Steady s u where
  users := h₂.users.trans h₁.users
  seq := h₁.seq.trans h₂.seq
  owner := by
    intro o ho
    rcases h₂.owner o ho with ho | hlt
    · exact h₁.owner o ho
    · exact .inr (h₁.seq.trans_lt hlt)

/-- No session is new. -/
theorem Steady.of_subset (hu : u.users = s.users) (hseq : u.sessions.seq = s.sessions.seq)
    (ho : owners u ⊆ owners s) : Steady s u :=
  ⟨hu, hseq.ge, fun _ h => .inl (ho h)⟩

theorem Steady.of_sessions (hu : u.users = s.users) (hs : u.sessions = s.sessions) : Steady s u :=
  .of_subset hu (by rw [hs]) (by rw [owners, owners, hs]; exact List.Subset.refl _)

/-- Some columns of some sessions are written. -/
theorem Steady.of_update {p : SessionRow → Bool} {f : SessionRow → SessionRow}
    (hu : u.users = s.users) (hseq : u.sessions.seq = s.sessions.seq)
    (hs : u.sessions.rows = s.sessions.rows.map fun r => if p r then f r else r)
    (hf : ∀ r, (f r).id = r.id ∧ (f r).userId = r.userId) : Steady s u := by
  refine .of_subset hu hseq fun o ho => ?_
  rw [owners, hs, List.map_map] at ho
  obtain ⟨x, hx, rfl⟩ := List.mem_map.mp ho
  refine List.mem_map.mpr ⟨x, hx, ?_⟩
  simp only [Function.comp]
  split
  · rw [(hf x).1, (hf x).2]
  · rfl

theorem Steady.of_delete {p : SessionRow → Bool} (hu : u.users = s.users)
    (hs : u.sessions = s.sessions.deleteWhere p) : Steady s u := by
  refine .of_subset hu (by rw [hs]; rfl) ?_
  rw [owners, owners, hs]
  exact (List.filter_sublist.map _).subset

theorem Keeps.refl (s : AuthDb) : Keeps s s :=
  ⟨.refl s, fun l hl hr => ⟨l, hl, hr, rfl, rfl⟩, fun x hx hr => .inl ⟨x, hx, rfl, hr, rfl⟩,
    fun h => h⟩

theorem Keeps.trans (h₁ : Keeps s m) (h₂ : Keeps m u) : Keeps s u where
  toSteady := h₁.toSteady.trans h₂.toSteady
  handoffs := by
    intro l hl hr
    obtain ⟨e, he, her, hea, hee⟩ := h₂.handoffs l hl hr
    obtain ⟨e', he', her', hea', hee'⟩ := h₁.handoffs e he her
    exact ⟨e', he', her', hea'.trans hea, hee'.trans hee⟩
  sessions := by
    intro x hx hr
    rcases h₁.sessions x hx hr with ⟨y, hy, hyid, hyr, hye⟩ | hgone
    · rcases h₂.sessions y hy hyr with ⟨z, hz, hzid, hzr, hze⟩ | hgone
      · exact .inl ⟨z, hz, hzid.trans hyid, hzr, hze.trans hye⟩
      · rw [hyid, hye] at hgone
        exact .inr hgone
    · refine .inr fun l hl hlr hla => ?_
      obtain ⟨e, he, her, hea, hee⟩ := h₂.handoffs l hl hlr
      rw [← hee]
      exact hgone e he her (hea.trans hla)
  downloads := fun h => h₂.downloads (h₁.downloads h)

/-- **A commit that keeps handoffs and sessions keeps the invariant.** -/
theorem Coupled.keeps (h : Coupled s) (hk : Keeps s u) : Coupled u where
  handoffs := by
    intro l hl hr id hid
    obtain ⟨e, he, her, hea, hee⟩ := hk.handoffs l hl hr
    obtain ⟨x, hx, hxid, hxr, hle⟩ := h.handoffs e he her id (hea.trans hid)
    rw [hee] at hle
    rcases hk.sessions x hx hxr with ⟨y, hy, hyid, hyr, hye⟩ | hgone
    · exact ⟨y, hy, hyid.trans hxid, hyr, hye ▸ hle⟩
    · exact absurd hle (not_le.mpr (hgone l hl hr (by rw [hxid, hid])))
  downloads := hk.downloads h.downloads

/-! ### One lemma for each write -/

/-- Handoffs are revoked or deleted, sessions and downloads stay. -/
theorem Keeps.of_handoffs (hu : u.users = s.users)
    (hh : ∀ l ∈ u.desktopVlcHandoffs.rows, l.revokedAt = none → l ∈ s.desktopVlcHandoffs.rows)
    (hs : u.sessions = s.sessions) (hd : u.downloadSessions = s.downloadSessions) : Keeps s u where
  toSteady := .of_sessions hu hs
  handoffs := fun l hl hr => ⟨l, hh l hl hr, hr, rfl, rfl⟩
  sessions := by
    rw [hs]
    exact fun x hx hr => .inl ⟨x, hx, rfl, hr, rfl⟩
  downloads := by
    rw [hd]
    exact id

/-- Only downloads are written. -/
theorem Keeps.of_downloads (hu : u.users = s.users)
    (hh : u.desktopVlcHandoffs = s.desktopVlcHandoffs) (hs : u.sessions = s.sessions)
    (hd : (∀ d ∈ s.downloadSessions.rows, Requires d) →
      ∀ d ∈ u.downloadSessions.rows, Requires d) : Keeps s u where
  toSteady := .of_sessions hu hs
  handoffs := by
    rw [hh]
    exact fun l hl hr => ⟨l, hl, hr, rfl, rfl⟩
  sessions := by
    rw [hs]
    exact fun x hx hr => .inl ⟨x, hx, rfl, hr, rfl⟩
  downloads := hd

/-- A write to some rows of the download sessions. -/
theorem requires_of_map {p : DownloadSessionRow → Bool}
    {f : DownloadSessionRow → DownloadSessionRow}
    (hd : u.downloadSessions.rows = s.downloadSessions.rows.map fun d => if p d then f d else d)
    (hreq : ∀ d, Requires d → Requires (f d)) (h : ∀ d ∈ s.downloadSessions.rows, Requires d) :
    ∀ d ∈ u.downloadSessions.rows, Requires d := by
  intro d hmem
  rw [hd] at hmem
  obtain ⟨d₀, hd₀, rfl⟩ := List.mem_map.mp hmem
  split
  · exact hreq d₀ (h d₀ hd₀)
  · exact h d₀ hd₀

/-- The unrevoked handoffs after a sweep are those of other sessions. -/
theorem mem_revokeHandoffsFor {ids : List ℕ} {l : DesktopVlcHandoffRow}
    (hl : l ∈ (s.revokeHandoffsFor ids now).desktopVlcHandoffs.rows) (hr : l.revokedAt = none) :
    l ∈ s.desktopVlcHandoffs.rows ∧ ∀ id ∈ ids, l.authSessionId ≠ some id := by
  obtain ⟨e, he, rfl⟩ := List.mem_map.mp hl
  split at hr
  · cases hr
  · next hp =>
    rw [if_neg hp]
    rw [if_neg hp] at hl
    refine ⟨he, fun id hid ha => hp ?_⟩
    simp [ha, AuthDb.attachedTo, hid, hr]

/-- Sessions end together with their handoffs. -/
theorem Keeps.of_sweep {ids : List ℕ} (hsteady : Steady s u)
    (hh : u.desktopVlcHandoffs = (s.revokeHandoffsFor ids now).desktopVlcHandoffs)
    (hs : ∀ x ∈ s.sessions.rows, x.id ∉ ids → x ∈ u.sessions.rows)
    (hd : (∀ d ∈ s.downloadSessions.rows, Requires d) →
      ∀ d ∈ u.downloadSessions.rows, Requires d) : Keeps s u where
  toSteady := hsteady
  handoffs := by
    intro l hl hr
    rw [hh] at hl
    exact ⟨l, (mem_revokeHandoffsFor hl hr).1, hr, rfl, rfl⟩
  sessions := by
    intro x hx hr
    by_cases hid : x.id ∈ ids
    · refine .inr fun l hl hlr hla => ?_
      rw [hh] at hl
      exact absurd hla ((mem_revokeHandoffsFor hl hlr).2 x.id hid)
    · exact .inl ⟨x, hs x hx hid, rfl, hr, rfl⟩
  downloads := hd

/-- Only the named sessions are written. -/
theorem mem_revokeSessionRows {ids : List ℕ} {reason : String} {confirmed : Option Time}
    {x : SessionRow} (hx : x ∈ s.sessions.rows) (hid : x.id ∉ ids) :
    x ∈ (s.revokeSessionRows ids now reason confirmed).sessions.rows :=
  List.mem_map.mpr ⟨x, hx, if_neg (by simpa using hid)⟩

theorem requires_revokeDownloadSessionsFor {ids : List ℕ} {reason : String}
    (h : ∀ d ∈ s.downloadSessions.rows, Requires d) :
    ∀ d ∈ (s.revokeDownloadSessionsFor ids now reason).downloadSessions.rows, Requires d :=
  requires_of_map rfl (fun _ h => h) h

/-- The foreign key detaches a download from a deleted session. -/
theorem requires_deleteSessions {p : SessionRow → Bool}
    (h : ∀ d ∈ s.downloadSessions.rows, Requires d) :
    ∀ d ∈ (s.deleteSessions p).downloadSessions.rows, Requires d :=
  requires_of_map rfl (fun _ _ hne => absurd rfl hne) h

theorem keeps_logout (s : AuthDb) (id : ℕ) (now : Time) : Keeps s (s.logout id now) :=
  .of_sweep (.of_update rfl rfl rfl fun _ => ⟨rfl, rfl⟩) rfl (fun _ hx hid =>
    mem_revokeSessionRows hx hid) requires_revokeDownloadSessionsFor

theorem keeps_revokeSessionIds (s : AuthDb) (ids : List ℕ) (reason : String) (now : Time) :
    Keeps s (s.revokeSessionIds ids reason now) := by
  rw [AuthDb.revokeSessionIds]
  split
  · exact .refl s
  · -- the two branches differ in the native sessions only
    split
    · exact .of_sweep (.of_update rfl rfl rfl fun _ => ⟨rfl, rfl⟩) rfl (fun x hx hid =>
        mem_revokeSessionRows hx hid) (requires_revokeDownloadSessionsFor (s := s))
    · exact .of_sweep (.of_update rfl rfl rfl fun _ => ⟨rfl, rfl⟩) rfl (fun x hx hid =>
        mem_revokeSessionRows hx hid) (requires_revokeDownloadSessionsFor (s := s))

theorem keeps_deleteSessionForAuthExpiry (s : AuthDb) (id : ℕ) (now : Time) :
    Keeps s (s.deleteSessionForAuthExpiry id now) := by
  refine .of_sweep (.of_delete rfl rfl) rfl (fun x hx hid => ?_) fun h => ?_
  · refine AutoTable.mem_deleteWhere.mpr ⟨hx, ?_⟩
    simpa using hid
  · exact requires_deleteSessions (s := s.revokeDownloadSessionsFor [id] now "auth_session_expired")
      (requires_revokeDownloadSessionsFor h)

theorem keeps_cleanupHandoffs (s : AuthDb) (now : Time) : Keeps s (s.cleanupHandoffs now) :=
  .of_handoffs rfl (fun _ hl _ => (AutoTable.mem_deleteWhere.mp hl).1) rfl rfl

theorem keeps_revokeSessionsForUser (s : AuthDb) (userId : ℕ) (ids : List ℕ) (reason : String)
    (now : Time) : Keeps s (s.revokeSessionsForUser userId ids reason now) := by
  have hrevoke := keeps_revokeSessionIds s ids reason now
  rw [AuthDb.revokeSessionsForUser]
  split
  · refine hrevoke.trans (.of_handoffs rfl (fun l hl hr => ?_) rfl rfl)
    obtain ⟨e, he, rfl⟩ := List.mem_map.mp hl
    split at hr
    · cases hr
    · next hp =>
      rw [if_neg hp]
      exact he
  · exact hrevoke

theorem keeps_touchSession (s : AuthDb) (id : ℕ) (heartbeat : Bool) (now : Time) :
    Keeps s (s.touchSession id heartbeat now) where
  toSteady := .of_update rfl rfl rfl fun _ => ⟨rfl, rfl⟩
  handoffs := fun l hl hr => ⟨l, hl, hr, rfl, rfl⟩
  sessions := by
    intro x hx hr
    refine .inl ⟨_, List.mem_map.mpr ⟨x, hx, rfl⟩, ?_⟩
    split <;> exact ⟨rfl, hr, rfl⟩
  downloads := fun h => h

theorem keeps_insertSession {userId : ℕ} {hash ip : String} {expiresAt : Time}
    (h : s.insertSession userId hash ip now expiresAt = .ok u) : Keeps s u := by
  rw [AuthDb.insertSession] at h
  split at h
  · cases h
  · cases h
    refine ⟨⟨rfl, Nat.le_succ _, fun o ho => ?_⟩, fun l hl hr => ⟨l, hl, hr, rfl, rfl⟩,
      fun x hx hr => .inl ⟨x, AutoTable.mem_insert.mpr (.inl hx), rfl, hr, rfl⟩, fun h => h⟩
    obtain ⟨x, hx, rfl⟩ := List.mem_map.mp ho
    rcases AutoTable.mem_insert.mp hx with hx | rfl
    · exact .inl (List.mem_map.mpr ⟨x, hx, rfl⟩)
    · exact .inr (Nat.lt_succ_self _)

/-- A session that is deleted after its retention outlives none of the handoffs that are left:
it expired long before now, and they have not. -/
theorem keeps_cleanupExpiredSessions (s : AuthDb) (now : Time) :
    Keeps s (s.cleanupExpiredSessions now) where
  toSteady := .of_delete rfl rfl
  handoffs := fun l hl hr => ⟨l, (AutoTable.mem_deleteWhere.mp hl).1, hr, rfl, rfl⟩
  sessions := by
    intro x hx hr
    by_cases hpast : x.pastRetention (now - sessionHistoryRetention) = true
    · refine .inr fun l hl hlr _ => ?_
      have hstale := (AutoTable.mem_deleteWhere.mp hl).2
      simp only [DesktopVlcHandoffRow.stale, Bool.or_eq_false_iff, decide_eq_false_iff_not,
        not_le] at hstale
      have hexpired : x.expiresAt ≤ now - sessionHistoryRetention := by
        simpa [SessionRow.pastRetention, hr] using hpast
      have hretention : (0 : Time) < sessionHistoryRetention := by
        norm_num [sessionHistoryRetention]
      linarith [hstale.1]
    · exact .inl ⟨x, AutoTable.mem_deleteWhere.mpr ⟨hx, by simpa using hpast⟩, rfl, hr, rfl⟩
  downloads := fun h => requires_deleteSessions (requires_revokeDownloadSessionsFor h)

theorem keeps_rehashHandoff (s : AuthDb) (handoffId current hash : String) :
    Keeps s (s.rehashHandoff handoffId current hash) where
  toSteady := .of_sessions rfl rfl
  handoffs := by
    intro l hl hr
    obtain ⟨e, he, rfl⟩ := List.mem_map.mp hl
    by_cases hp : (e.handoffId == handoffId && e.accessTokenHash == current) = true
    · simp only [if_pos hp] at hr ⊢
      exact ⟨e, he, hr, rfl, rfl⟩
    · simp only [if_neg hp] at hr ⊢
      exact ⟨e, he, hr, rfl, rfl⟩
  sessions := fun x hx hr => .inl ⟨x, hx, rfl, hr, rfl⟩
  downloads := fun h => h

theorem keeps_insertNativeSession {sessionId hash : String} {userId mediaItemId n : ℕ}
    {authId fromId : Option ℕ} {client : Option String} {expiresAt : Time}
    (h : s.insertNativeSession sessionId hash userId mediaItemId authId fromId
      client now expiresAt = .ok (u, n)) : Keeps s u := by
  rw [AuthDb.insertNativeSession] at h
  split at h
  · cases h
  · cases h
    exact .of_downloads rfl rfl rfl fun h => h

/-- A new download requires the session that it names. -/
theorem keeps_insertDownload {hash : String} {user : AuthenticatedUser} {mediaItemId n : ℕ}
    {expiresAt : Time} (h : s.insertDownload hash user mediaItemId now expiresAt = .ok (u, n)) :
    Keeps s u := by
  rw [AuthDb.insertDownload] at h
  split at h
  · cases h
  · cases h
    refine .of_downloads rfl rfl rfl fun h d hd => ?_
    rcases AutoTable.mem_insert.mp hd with hd | rfl
    · exact h d hd
    · exact fun hne => Option.isSome_iff_ne_none.mpr hne

theorem keeps_failDownload (s : AuthDb) (id : ℕ) (message : String) (now : Time) :
    Keeps s (s.failDownload id message now) :=
  .of_downloads rfl rfl rfl (requires_of_map rfl fun _ h => h)

theorem keeps_rehashDownload (s : AuthDb) (id : ℕ) (current hash : String) :
    Keeps s (s.rehashDownload id current hash) :=
  .of_downloads rfl rfl rfl (requires_of_map rfl fun _ h => h)

/-! ### The requests -/

/-- The requests on sessions and grants. -/
inductive Call where
  | createSession (user : UserRow) (ip : String)
  | destroySession (token : String)
  | revokeSessionById (sessionId : ℕ) (reason : String)
  | revokeSessionsForUser (userId : ℕ) (reason : String)
  | getUserBySessionToken (token : String) (heartbeat : Bool)
  | revokeNonAdminSessions
  | createHandoff (userId mediaItemId : ℕ) (authSessionId : Option ℕ)
  | requireHandoff (handoffId accessToken : String)
  | createNative (userId mediaItemId : ℕ) (authSessionId createdFrom : Option ℕ)
      (clientName : Option String)
  | requireNative (sessionId accessToken : String) (extendTtl : Bool)
  | nativeStillValid (sessionId accessToken : String) (extendTtl : Bool)
  | createDownload (user : AuthenticatedUser) (mediaItemId : ℕ)
  | validateDownload (token : String) (user : AuthenticatedUser) (sessionId : Option ℕ)
      (allowExpired : Bool)

/-- The statements of a call; what it returns is left out. -/
def Call.request (env : AuthEnv) : Call → Request Unit
  | .createSession user ip => do
    let _ ← env.createSession user ip id
    .ret ()
  | .destroySession token => env.destroySession token
  | .revokeSessionById sessionId reason => do
    let _ ← AuthEnv.revokeSessionById sessionId reason
    .ret ()
  | .revokeSessionsForUser userId reason => do
    let _ ← AuthEnv.revokeSessionsForUser userId reason
    .ret ()
  | .getUserBySessionToken token heartbeat => do
    let _ ← env.getUserBySessionToken token heartbeat
    .ret ()
  | .revokeNonAdminSessions => do
    let _ ← AuthEnv.revokeNonAdminSessions
    .ret ()
  | .createHandoff userId mediaItemId authSessionId => do
    let _ ← env.createDesktopVlcHandoff userId mediaItemId authSessionId
    .ret ()
  | .requireHandoff handoffId accessToken => do
    let _ ← env.requireDesktopVlcHandoff handoffId accessToken
    .ret ()
  | .createNative userId mediaItemId authSessionId createdFrom clientName => do
    let _ ← env.createNativePlaybackSession userId mediaItemId authSessionId createdFrom clientName
    .ret ()
  | .requireNative sessionId accessToken extendTtl => do
    let _ ← env.requireNativeSession sessionId accessToken extendTtl
    .ret ()
  | .nativeStillValid sessionId accessToken extendTtl => do
    let _ ← env.nativeStreamAccessStillValid sessionId accessToken extendTtl
    .ret ()
  | .createDownload user mediaItemId => do
    let _ ← env.createDownloadSession user mediaItemId
    .ret ()
  | .validateDownload token user sessionId allowExpired => do
    let _ ← env.validateDownloadSession token user sessionId allowExpired
    .ret ()

/-- The session is unrevoked and belongs to a user who is no admin. -/
def nonAdmin (db : AuthDb) (s : SessionRow) : Bool :=
  s.revokedAt.isNone && db.users.rows.any fun u => u.id == s.userId && u.role != .admin

/-- What a call commits on the committed state `s`. -/
inductive Commits : Call → AuthDb → AuthDb → Prop
  | keeps {call : Call} {s u : AuthDb} (h : Keeps s u) : Commits call s u
  | handoff {userId mediaItemId n : ℕ} {authId : Option ℕ} {s u : AuthDb} {handoffId hash : String}
      {now expiresAt : Time}
      (h : s.insertHandoff handoffId hash authId userId mediaItemId now expiresAt = .ok (u, n)) :
      Commits (.createHandoff userId mediaItemId authId) s u
  | maintenance {s : AuthDb} {ids : List ℕ} {now : Time}
      (h : ∀ x ∈ s.sessions.rows, x.id ∈ ids → x.revokedAt = none → nonAdmin s x = true) :
      Commits .revokeNonAdminSessions s (s.revokeForMaintenance ids now)

theorem steady_revokeForMaintenance (s : AuthDb) (ids : List ℕ) (now : Time) :
    Steady s (s.revokeForMaintenance ids now) := by
  rw [AuthDb.revokeForMaintenance]
  split
  · exact .refl s
  · exact .of_update rfl rfl rfl fun _ => ⟨rfl, rfl⟩

theorem Commits.steady {call : Call} (h : Commits call s u) : Steady s u := by
  cases h with
  | keeps h => exact h.toSteady
  | handoff h =>
    rw [AuthDb.insertHandoff] at h
    split at h
    · cases h
    · cases h
      exact .of_sessions rfl rfl
  | maintenance h => exact steady_revokeForMaintenance s _ _

theorem meets_done {α : Type} {R G : AuthDb → AuthDb → Prop} {a : α} {s : AuthDb}
    {w : Option AuthDb} : Meets R G (fun _ _ => True) (.ret a : Request α) s w :=
  meets_ret fun _ _ _ _ => trivial

section Requests

variable {α : Type} (env : AuthEnv) {R G : AuthDb → AuthDb → Prop} (hG : ∀ s u, Keeps s u → G s u)

include hG

theorem meets_createSession (user : UserRow) (ip : String) (s : AuthDb) :
    Meets R G (fun _ _ => True) (env.createSession user ip id) s none := by
  refine meets_input fun _ token _ => meets_input fun _ clock _ => meets_update fun s' _ => ?_
  refine meets_insert fun _ u n hs hu => ?_
  cases hs
  refine meets_commit (hG _ _ ?_) (meets_ret fun _ _ _ _ => trivial)
  rcases hi : (s'.cleanupExpiredSessions clock.now).insertSession user.id
      (env.hashAuthSessionToken token.fresh) ip clock.now
      (clock.now + env.sessionTtlHours * 3600) with e | m
  · simp [hi, Except.map] at hu
  · simp only [view_some, view_none, hi, Except.map, id, Except.ok.injEq, Prod.mk.injEq] at hu
    rw [← hu.1]
    exact (keeps_cleanupExpiredSessions s' clock.now).trans (keeps_insertSession hi)

/-- One write in a transaction of its own. -/
theorem meets_write {f : AuthDb → AuthDb} {k : Unit → Request α} {s : AuthDb}
    (hf : ∀ s, Keeps s (f s)) (hk : ∀ s, Meets R G (fun _ _ => True) (k ()) s none) :
    Meets R G (fun _ _ => True) (update f >>= fun _ => commitNow >>= k) s none :=
  meets_update fun s' _ => meets_commit (hG _ _ (hf s')) (hk _)

theorem meets_destroySession (token : String) (s : AuthDb) :
    Meets R G (fun _ _ => True) (env.destroySession token) s none := by
  rw [AuthEnv.destroySession]
  split
  · exact meets_done
  · refine meets_input fun _ clock _ => meets_query fun s' _ => ?_
    split
    · exact meets_done
    · exact meets_write hG (fun s => keeps_logout s _ clock.now) fun _ => meets_done

theorem meets_revokeSessionById (sessionId : ℕ) (reason : String) (s : AuthDb) :
    Meets R G (fun _ _ => True) (AuthEnv.revokeSessionById sessionId reason) s none := by
  refine meets_input fun _ clock _ => meets_query fun s' _ => ?_
  split
  · exact meets_done
  · exact meets_write hG (fun s => keeps_revokeSessionIds s _ reason clock.now) fun _ => meets_done

theorem meets_revokeSessionsForUser (userId : ℕ) (reason : String) (s : AuthDb) :
    Meets R G (fun _ _ => True) (AuthEnv.revokeSessionsForUser userId reason) s none :=
  meets_input fun _ clock _ => meets_query fun _ _ =>
    meets_write hG (fun s => keeps_revokeSessionsForUser s userId _ reason clock.now)
      fun _ => meets_done

theorem meets_getUserBySessionToken (token : String) (heartbeat : Bool) (s : AuthDb) :
    Meets R G (fun _ _ => True) (env.getUserBySessionToken token heartbeat) s none := by
  rw [AuthEnv.getUserBySessionToken]
  split
  · exact meets_done
  · refine meets_input fun _ clock _ =>
      meets_write hG (fun s => keeps_cleanupExpiredSessions s clock.now) fun _ =>
        meets_query fun s' _ => ?_
    split
    · exact meets_done
    · split
      · exact meets_write hG (fun s => keeps_deleteSessionForAuthExpiry s _ clock.now)
          fun _ => meets_done
      · exact meets_write hG (fun s => keeps_touchSession s _ heartbeat clock.now)
          fun _ => meets_done

theorem meets_requireHandoff (handoffId accessToken : String) (s : AuthDb) :
    Meets R G (fun _ _ => True) (env.requireDesktopVlcHandoff handoffId accessToken) s none := by
  rw [AuthEnv.requireDesktopVlcHandoff]
  refine meets_input fun _ cleaned _ =>
    meets_write hG (fun s => keeps_cleanupHandoffs s cleaned.now) fun _ =>
      meets_input fun _ clock _ => meets_query fun s' _ => ?_
  split
  · exact meets_raise
  · split
    · exact meets_raise
    · split
      · exact meets_done
      · exact meets_write hG (fun s => keeps_rehashHandoff s handoffId _ _) fun _ => meets_done

/-- A write to native sessions only, in a transaction of its own. -/
theorem meets_writeNative {f : AuthDb → AuthDb} {k : Unit → Request α} {s : AuthDb}
    (hf : ∀ s, f s = { s with nativePlaybackSessions := (f s).nativePlaybackSessions })
    (hk : ∀ s, Meets R G (fun _ _ => True) (k ()) s none) :
    Meets R G (fun _ _ => True) (update f >>= fun _ => commitNow >>= k) s none := by
  refine meets_write hG (fun s => ?_) hk
  rw [hf s]
  exact .of_downloads rfl rfl rfl fun h => h

theorem meets_createNative (userId mediaItemId : ℕ) (authSessionId createdFrom : Option ℕ)
    (clientName : Option String) (s : AuthDb) :
    Meets R G (fun _ _ => True) (env.createNativePlaybackSession userId mediaItemId authSessionId
      createdFrom clientName) s none := by
  rw [AuthEnv.createNativePlaybackSession]
  split
  · exact meets_raise
  · refine meets_input fun _ cleaned _ => meets_writeNative hG (fun _ => rfl) fun _ =>
      meets_input fun _ _ _ => meets_input fun _ _ _ => meets_insert fun s' u n _ hu => ?_
    exact meets_commit (hG _ _ (keeps_insertNativeSession hu)) meets_done

theorem meets_requireNative (sessionId accessToken : String) (extendTtl : Bool) (s : AuthDb) :
    Meets R G (fun _ _ => True) (env.requireNativeSession sessionId accessToken extendTtl) s
      none := by
  have hage : ∀ n u s, Meets R G (fun _ _ => True) (env.grantNative n u) s none := by
    intro n u s
    rw [AuthEnv.grantNative]
    split
    · exact meets_raise
    · exact meets_done
  rw [AuthEnv.requireNativeSession]
  split
  · exact meets_raise
  · refine meets_input fun _ cleaned _ => meets_writeNative hG (fun _ => rfl) fun _ =>
      meets_input fun _ clock _ => meets_query fun s' _ => ?_
    rcases (view s' none).nativeLookup env.mediaItemExists sessionId _ _ clock.now with _ | ⟨n, u⟩
    · exact meets_raise
    · dsimp only
      by_cases hx : extendTtl = true
      · rw [if_pos hx]
        exact meets_writeNative hG (fun _ => rfl) fun _ => hage n u _
      · rw [if_neg hx]
        by_cases hh : n.accessTokenHash = env.nativeTokenHash accessToken
        · rw [if_pos hh]
          exact meets_commit_none fun _ _ => hage n u _
        · rw [if_neg hh]
          exact meets_writeNative hG (fun _ => rfl) fun _ => hage n u _

theorem meets_nativeStillValid (sessionId accessToken : String) (extendTtl : Bool) (s : AuthDb) :
    Meets R G (fun _ _ => True) (env.nativeStreamAccessStillValid sessionId accessToken extendTtl) s
      none := by
  rw [AuthEnv.nativeStreamAccessStillValid]
  refine meets_input fun _ clock _ => meets_query fun s' _ => ?_
  rcases (view s' none).nativeLookup (fun _ => true) sessionId _ _ clock.now with _ | ⟨n, u⟩
  · exact meets_done
  · dsimp only
    by_cases hx : extendTtl = true
    · rw [if_pos hx]
      exact meets_writeNative hG (fun _ => rfl) fun _ => meets_done
    · rw [if_neg hx]
      by_cases hh : n.accessTokenHash = env.nativeTokenHash accessToken
      · rw [if_pos hh]
        exact meets_commit_none fun _ _ => meets_done
      · rw [if_neg hh]
        exact meets_writeNative hG (fun _ => rfl) fun _ => meets_done

theorem meets_createDownload (user : AuthenticatedUser) (mediaItemId : ℕ) (s : AuthDb) :
    Meets R G (fun _ _ => True) (env.createDownloadSession user mediaItemId) s none := by
  rw [AuthEnv.createDownloadSession]
  split
  · exact meets_raise
  · split
    · exact meets_raise
    · split
      · exact meets_raise
      · refine meets_input fun _ token _ => meets_insert fun s' u n _ hu => ?_
        exact meets_commit (hG _ _ (keeps_insertDownload hu)) meets_done

theorem meets_markDownloadFailed (token : String) (user : AuthenticatedUser) (message : String)
    (sessionId : Option ℕ) (s : AuthDb) : Meets R G (fun _ _ => True)
      (env.markDownloadSessionFailed token user message sessionId) s none := by
  refine meets_input fun _ clock _ => meets_query fun s' _ => ?_
  split
  · exact meets_done
  · exact meets_write hG (fun s => keeps_failDownload s _ message clock.now) fun _ => meets_done

theorem meets_validateDownload (token : String) (user : AuthenticatedUser) (sessionId : Option ℕ)
    (allowExpired : Bool) (s : AuthDb) : Meets R G (fun _ _ => True)
      (env.validateDownloadSession token user sessionId allowExpired) s none := by
  rw [AuthEnv.validateDownloadSession]
  refine meets_input fun _ clock _ => meets_query fun s' _ => ?_
  split
  · exact meets_raise
  · split
    · exact meets_bind (fun _ _ _ => meets_raise)
        (meets_markDownloadFailed env hG token user "download_access_revoked" none s')
    · split
      · exact meets_bind (fun _ _ _ => meets_raise)
          (meets_markDownloadFailed env hG token user "age_requirement_changed" sessionId s')
      · split
        · exact meets_done
        · exact meets_write hG (fun s => keeps_rehashDownload s _ _ _) fun _ => meets_done

end Requests

theorem meets_createHandoff (env : AuthEnv) (userId mediaItemId : ℕ) (authId : Option ℕ)
    (s : AuthDb) : Meets Steady (Commits (.createHandoff userId mediaItemId authId))
      (fun _ _ => True) (env.createDesktopVlcHandoff userId mediaItemId authId) s none := by
  refine meets_input fun _ cleaned _ =>
    meets_write (fun _ _ => .keeps) (fun s => keeps_cleanupHandoffs s cleaned.now) fun _ =>
      meets_input fun _ handoffId _ => meets_input fun _ accessToken _ =>
        meets_insert fun s' u n _ hu => ?_
  exact meets_commit (.handoff hu) meets_done

/-- The sessions that the maintenance mode found are still those of users who are no admins. -/
theorem meets_revokeNonAdmin (s : AuthDb) : Meets Steady (Commits .revokeNonAdminSessions)
    (fun _ _ => True) AuthEnv.revokeNonAdminSessions s none := by
  refine meets_input fun _ clock _ => meets_query fun s₁ _ => meets_update fun s₂ hlater => ?_
  refine meets_commit (.maintenance fun x hx hid hr => ?_) meets_done
  have hsteady : Steady s₁ s₂ := hlater.rel .refl .trans
  obtain ⟨x₁, hx₁, hxid⟩ := List.mem_map.mp hid
  obtain ⟨hx₁, hfound⟩ := List.mem_filter.mp hx₁
  have hle : x.id ≤ s₁.sessions.seq := hxid ▸ s₁.sessions.keys_le x₁ hx₁
  rcases hsteady.owner _ (List.mem_map.mpr ⟨x, hx, rfl⟩) with ho | hlt
  · obtain ⟨x₀, hx₀, heq⟩ := List.mem_map.mp ho
    simp only [Prod.mk.injEq] at heq
    obtain rfl := s₁.sessions.key_inj hx₀ hx₁ (heq.1.trans hxid.symm)
    simp only [Bool.and_eq_true] at hfound
    rw [nonAdmin, hr, hsteady.users, ← heq.2]
    exact hfound.2
  · exact absurd hle (not_le.mpr hlt)

/-- **Every call commits what `Commits` allows**, whatever the others do. -/
theorem request_meets (env : AuthEnv) (call : Call) (s : AuthDb) :
    Meets Steady (Commits call) (fun _ _ => True) (call.request env) s none := by
  have hdone : ∀ {α : Type} (a : α) (s : AuthDb) (w : Option AuthDb),
      Meets Steady (Commits call) (fun _ _ => True) (.ret () : Request Unit) s w :=
    fun _ _ _ => meets_done
  have hkeeps : ∀ s u, Keeps s u → Commits call s u := fun _ _ => .keeps
  cases call with
  | createSession user ip => exact meets_bind hdone (meets_createSession env hkeeps user ip s)
  | destroySession token => exact meets_destroySession env hkeeps token s
  | revokeSessionById sessionId reason =>
    exact meets_bind hdone (meets_revokeSessionById hkeeps sessionId reason s)
  | revokeSessionsForUser userId reason =>
    exact meets_bind hdone (meets_revokeSessionsForUser hkeeps userId reason s)
  | getUserBySessionToken token heartbeat =>
    exact meets_bind hdone (meets_getUserBySessionToken env hkeeps token heartbeat s)
  | revokeNonAdminSessions => exact meets_bind hdone (meets_revokeNonAdmin s)
  | createHandoff userId mediaItemId authId =>
    exact meets_bind hdone (meets_createHandoff env userId mediaItemId authId s)
  | requireHandoff handoffId accessToken =>
    exact meets_bind hdone (meets_requireHandoff env hkeeps handoffId accessToken s)
  | createNative userId mediaItemId authId createdFrom clientName =>
    exact meets_bind hdone
      (meets_createNative env hkeeps userId mediaItemId authId createdFrom clientName s)
  | requireNative sessionId accessToken extendTtl =>
    exact meets_bind hdone (meets_requireNative env hkeeps sessionId accessToken extendTtl s)
  | nativeStillValid sessionId accessToken extendTtl =>
    exact meets_bind hdone (meets_nativeStillValid env hkeeps sessionId accessToken extendTtl s)
  | createDownload user mediaItemId =>
    exact meets_bind hdone (meets_createDownload env hkeeps user mediaItemId s)
  | validateDownload token user sessionId allowExpired =>
    exact meets_bind hdone (meets_validateDownload env hkeeps token user sessionId allowExpired s)

/-! ### Which commits keep the coupling -/

/-- Each handoff that is new in `u` is for a session of `s` that is unrevoked and expires no earlier
than the handoff. -/
def outlived (s u : AuthDb) : Bool :=
  u.desktopVlcHandoffs.rows.all fun h =>
    decide (h.id ≤ s.desktopVlcHandoffs.seq) || h.authSessionId.all fun id =>
      s.sessions.rows.any fun x =>
        x.id == id && x.revokedAt.isNone && decide (h.expiresAt ≤ x.expiresAt)

/-- No unrevoked handoff is for the session of a user who is no admin. -/
def unattached (s : AuthDb) : Bool :=
  s.desktopVlcHandoffs.rows.all fun h =>
    h.revokedAt.isSome || h.authSessionId.all fun id =>
      s.sessions.rows.all fun x => x.id != id || !nonAdmin s x

/-- The condition on a commit of `call` that leads from `s` to `u`. -/
def fits (call : Call) (s u : AuthDb) : Bool :=
  match call with
  | .createHandoff _ _ _ => outlived s u
  | .revokeNonAdminSessions => unattached s
  | _ => true

/-- **A commit that meets its condition keeps the coupling.** -/
theorem Coupled.commit {call : Call} (h : Coupled s) (hc : Commits call s u)
    (hfits : fits call s u = true) : Coupled u := by
  cases hc with
  | keeps hk => exact h.keeps hk
  | handoff hins =>
    rw [AuthDb.insertHandoff] at hins
    split at hins
    · cases hins
    · cases hins
      refine ⟨fun l hl hr id hid => ?_, h.downloads⟩
      rcases AutoTable.mem_insert.mp hl with hold | rfl
      · exact h.handoffs l hold hr id hid
      · dsimp only at hid
        subst hid
        have hnew := List.all_eq_true.mp hfits _ hl
        simp only [Option.all_some, Bool.or_eq_true, decide_eq_true_eq, List.any_eq_true,
          Bool.and_eq_true, beq_iff_eq, Option.isNone_iff_eq_none] at hnew
        rcases hnew with hle | ⟨x, hx, ⟨hxid, hxr⟩, hle⟩
        · exact absurd hle (Nat.not_succ_le_self _)
        · exact ⟨x, hx, hxid, hxr, hle⟩
  | @maintenance _ ids now hids =>
    rw [AuthDb.revokeForMaintenance]
    split
    · exact h
    · refine ⟨fun l hl hr id hid => ?_, requires_revokeDownloadSessionsFor h.downloads⟩
      obtain ⟨x, hx, hxid, hxr, hle⟩ := h.handoffs l hl hr id hid
      have hfree := List.all_eq_true.mp hfits l hl
      simp only [hr, hid, Option.isSome_none, Bool.false_or, Option.all_some, List.all_eq_true,
        Bool.or_eq_true, bne_iff_ne, Bool.not_eq_true'] at hfree
      refine ⟨x, mem_revokeSessionRows hx fun hmem => ?_, hxid, hxr, hle⟩
      rcases hfree x hx with hne | hadmin
      · exact hne hxid
      · rw [hids x hx hmem hxr] at hadmin
        cases hadmin

/-! ### Runs -/

/-- The server on which the calls run. -/
abbrev GrantServer := Server ℕ AuthDb Input PyError Unit

/-- Any number of calls, before their first statement. -/
def start (env : AuthEnv) (db : AuthDb) (calls : ℕ → Call) : GrantServer :=
  Server.init db fun i => (calls i).request env

/-- Whatever passes the read of its validation has a live session. -/
structure Alive (db : AuthDb) : Prop where
  handoff : ∀ mediaItemExists handoffId hash legacy t h user id,
    db.handoffLookup mediaItemExists handoffId hash legacy t = some (h, user) →
    h.authSessionId = some id → LiveAt db id t
  native : ∀ mediaItemExists sessionId hash legacy t n user id,
    db.nativeLookup mediaItemExists sessionId hash legacy t = some (n, user) →
    n.authSessionId = some id → LiveAt db id t
  download : ∀ hash legacy user sessionId allowExpired t d id,
    db.downloadLookup hash legacy user sessionId allowExpired t = .ok d →
    d.authSessionId = some id → LiveAt db id t

theorem liveAt_of_authSessionLive {db : AuthDb} {authId : Option ℕ} {id : ℕ} {t : Time}
    (h : db.authSessionLive authId t = true) (hid : authId = some id) : LiveAt db id t := by
  rw [hid] at h
  simpa [AuthDb.authSessionLive, LiveAt, and_assoc] using h

theorem mem_of_downloadByHash {db : AuthDb} {hash legacy : String} {sessionId : Option ℕ}
    {d : DownloadSessionRow} (h : db.downloadByHash hash legacy sessionId = some d) :
    d ∈ db.downloadSessions.rows := by
  rcases Option.or_eq_some_iff.mp h with h | ⟨_, h⟩
  · exact (AutoTable.mem_of_find h).1
  · exact (AutoTable.mem_of_find h).1

/-- A download that requires a session passes only while that one is live. -/
theorem authSessionLive_of_downloadRefusal {db : AuthDb} {d : DownloadSessionRow}
    {user : AuthenticatedUser} {hash : String} {allowExpired : Bool} {t : Time}
    (h : db.downloadRefusal d user hash allowExpired t = none)
    (hreq : d.authSessionRequired = true) : db.authSessionLive d.authSessionId t = true := by
  by_contra hlive
  rw [Bool.not_eq_true] at hlive
  simp only [AuthDb.downloadRefusal, hreq, hlive] at h
  grind

/-- What passes its validation in a coupled state has a live session. -/
theorem Coupled.alive {db : AuthDb} (h : Coupled db) : Alive db where
  handoff := by
    intro mediaItemExists handoffId hash legacy t l user id hlook hid
    obtain ⟨l', hfind, huser⟩ := Option.bind_eq_some_iff.mp hlook
    obtain ⟨_, _, heq⟩ := Option.map_eq_some_iff.mp huser
    cases heq
    obtain ⟨hl, hchecks⟩ := AutoTable.mem_of_find hfind
    simp only [Bool.and_eq_true, decide_eq_true_eq, Option.isNone_iff_eq_none] at hchecks
    obtain ⟨⟨⟨⟨_, hexp⟩, hr⟩, _⟩, _⟩ := hchecks
    obtain ⟨x, hx, hxid, hxr, hle⟩ := h.handoffs l hl hr id hid
    exact ⟨x, hx, hxid, hxr, hexp.trans_le hle⟩
  native := by
    intro mediaItemExists sessionId hash legacy t n user id hlook hid
    obtain ⟨n', hfind, huser⟩ := Option.bind_eq_some_iff.mp hlook
    obtain ⟨_, _, heq⟩ := Option.map_eq_some_iff.mp huser
    cases heq
    have hchecks := (AutoTable.mem_of_find hfind).2
    simp only [Bool.and_eq_true] at hchecks
    exact liveAt_of_authSessionLive hchecks.1.2 hid
  download := by
    intro hash legacy user sessionId allowExpired t d id hlook hid
    rw [AuthDb.downloadLookup] at hlook
    split at hlook
    · cases hlook
    · next d' hfound =>
      split at hlook
      · cases hlook
      · next hpass =>
        cases hlook
        have hreq := h.downloads d (mem_of_downloadByHash hfound) (by simp [hid])
        exact liveAt_of_authSessionLive (authSessionLive_of_downloadRefusal hpass hreq) hid

/-- **Grants die with their session** in every run in which handoffs are inserted for sessions that
outlive them and the maintenance mode finds no handoff to sweep. -/
theorem grants_coupled (env : AuthEnv) (db : AuthDb) (hdb : Coupled db) (calls : ℕ → Call)
    {srv : GrantServer}
    (hrun : Runs.Reach Server.step (fun _ _ => True) (start env db calls) srv)
    (hfits : ∀ c ∈ srv.history, fits (calls c.1) c.2.1 c.2.2 = true) : Alive srv.committed := by
  have hsound := Server.Sound.reach (R := fun _ => Steady) (G := fun i => Commits (calls i))
    (Q := fun _ _ _ => True) (fun _ _ _ _ _ hc => hc.steady)
    (fun i => request_meets env (calls i) db) hrun
  have hcoupled := Server.Chain.invariant hdb hsound.chain fun c hc h =>
    h.commit (hsound.guarantee c hc) (hfits c hc)
  exact hcoupled.1.alive

/-! ### A handoff near the end of its session -/

/-- A user with a session that expires at second 1000. -/
def sampleDb : AuthDb :=
  { AuthDb.empty with
    users := AutoTable.empty.insert sampleUser fun _ => rfl
    sessions := AutoTable.empty.insert
      (fun id =>
        { id, userId := 1, sessionTokenHash := "auth.session:s", createdAt := 0, expiresAt := 1000,
          lastSeenAt := some 0, lastActivityAt := some 0, ipAddress := "::1", revokedAt := none,
          revokedReason := none, cleanupConfirmedAt := none })
      fun _ => rfl }

theorem coupled_sampleDb : Coupled sampleDb := by
  constructor <;> simp [sampleDb, AuthDb.empty, AutoTable.empty]

/-- A handoff for that session. -/
def sampleStart : GrantServer := start sampleEnv sampleDb fun _ => .createHandoff 1 7 (some 1)

/-- The statements of one call at one second. -/
def statements (now : Time) : List (Turn ℕ Input) := List.replicate 7 (.run 0 { now, fresh := "h" })

/-- The handoff passes at second `t`. -/
def resolves (db : AuthDb) (t : Time) : Bool :=
  (db.handoffLookup sampleEnv.mediaItemExists "h" (sampleEnv.handoffTokenHash "h")
      "" t).any fun r =>
    r.1.authSessionId == some 1

theorem liveAt_of_resolves {db : AuthDb} (h : Alive db) {t : Time} (hres : resolves db t = true) :
    LiveAt db 1 t := by
  obtain ⟨⟨l, user⟩, hlook, hid⟩ := (Option.any_eq_true _ _).mp hres
  exact h.handoff _ _ _ _ _ _ _ _ hlook (eq_of_beq hid)

/-- A handoff of second 100 ends before its session does. -/
theorem grants_coupled_early :
    ∃ srv, Runs.runFrom Server.step sampleStart (statements 100) = some srv ∧
      resolves srv.committed 390 = true ∧ Alive srv.committed := by
  have hrun : ((Runs.runFrom Server.step sampleStart (statements 100)).any fun srv =>
      resolves srv.committed 390 &&
        srv.history.all fun c => fits (.createHandoff 1 7 (some 1)) c.2.1 c.2.2) = true := by
    decide +kernel
  obtain ⟨srv, hsrv, hprop⟩ := (Option.any_eq_true _ _).mp hrun
  rw [Bool.and_eq_true, List.all_eq_true] at hprop
  exact ⟨srv, hsrv, hprop.1,
    grants_coupled _ _ coupled_sampleDb _ (Runs.reach_of_runFrom hsrv) hprop.2⟩

/-- A handoff of second 900 resolves at second 1100. -/
theorem grants_uncoupled :
    ¬ ∀ (env : AuthEnv) (db : AuthDb) (_ : Coupled db) (calls : ℕ → Call) (srv : GrantServer),
      Runs.Reach Server.step (fun _ _ => True) (start env db calls) srv → Alive srv.committed := by
  intro h
  have hrun : ((Runs.runFrom Server.step sampleStart (statements 900)).any fun srv =>
      resolves srv.committed 1100 &&
        srv.committed.sessions.rows.all fun x => decide (x.expiresAt ≤ 1100)) = true := by
    decide +kernel
  obtain ⟨srv, hsrv, hprop⟩ := (Option.any_eq_true _ _).mp hrun
  rw [Bool.and_eq_true, List.all_eq_true] at hprop
  have halive := h _ _ coupled_sampleDb _ srv (Runs.reach_of_runFrom hsrv)
  obtain ⟨x, hx, _, _, hlt⟩ := liveAt_of_resolves halive hprop.1
  exact absurd (of_decide_eq_true (hprop.2 x hx)) (not_le.mpr hlt)

end GrantCoupling
