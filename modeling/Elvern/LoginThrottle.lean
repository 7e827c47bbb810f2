/-
The bound on second-factor guesses.

Posts to `/login` and `/login/totp` are served one after another.

* `login_visit`, `loginTotp_visit` — one post keeps the bound, except a `/login` that clears
  the bucket while the second factor is still pending;
* `wrongCodes_spaced` — in every run without such a post, `maxAttempts + 1` consecutive wrong
  codes span at least `min windowSeconds lockoutSeconds`;
* `wrongCodes_crowded` — with one login for every nine guesses they need not.
-/
import Elvern.LimiterBuckets
import Elvern.Login

open Tables Statements Statements.Program SlidingWindow PyText

namespace LoginThrottle

/-- The password is right for an enabled user of that name. -/
def passwordRight (env : AuthEnv) (db : AuthDb) (username password : String) : Bool :=
  (db.userByName username).any fun u =>
    u.enabled && (env.verifyPassword password u.passwordHash).1

/-- The stored secret is a plain text from before the at-rest encryption. -/
def legacySecret (env : AuthEnv) (stored : Option String) : Bool :=
  (stored.bind env.decryptAtRest).any fun p => p.1 != "" && !p.2

/-! ### The requests alone -/

section Alone

variable {env : AuthEnv} {α : Type} {Q : Outcome PyError α → AuthDb → Time → Prop}
  {s : AuthDb} {t : Time}

theorem ensures_check {lim : RateLimiter} {key : String} {k : ℕ → Request α}
    (h : ∀ x : Input, t ≤ x.now → Ensures Input.now Q
      (k (checked s lim (env.normalizeKey key) x.now).2)
      (checked s lim (env.normalizeKey key) x.now).1 none x.now) :
    Ensures Input.now Q (lim.check env key >>= k) s none t := by
  simp only [RateLimiter.check, bind_assoc]
  refine ensures_input fun x hx => ensures_query ?_
  have hk := h x hx
  rw [view_none]
  rcases hb : s.blockedUntil lim.bucketKind (env.normalizeKey key) with _ | u
  · simp only [checked, hb] at hk
    exact hk
  · by_cases hu : x.now < u
    · simp only [checked, hb, if_pos hu] at hk
      simp only [if_pos hu]
      exact hk
    · simp only [checked, hb, if_neg hu] at hk
      simp only [if_neg hu]
      exact hk

theorem ensures_registerFailure {lim : RateLimiter} {key : String} {note : Time → AuthDb → AuthDb}
    {k : ℕ → Request α}
    (h : ∀ (x : Input) n, t ≤ x.now → Ensures Input.now Q (k n)
      (note x.now (s.registerFailure lim (env.normalizeKey key) x.now).1) none x.now) :
    Ensures Input.now Q (lim.registerFailure env key note >>= k) s none t := by
  simp only [RateLimiter.registerFailure, bind_assoc]
  exact ensures_input fun x hx => h x _ hx

theorem ensures_clear {lim : RateLimiter} {key : String} {k : Unit → Request α}
    (h : Ensures Input.now Q (k ()) (s.clearBucket lim.bucketKind (env.normalizeKey key)) none t) :
    Ensures Input.now Q (lim.clear env key >>= k) s none t := h

/-- The insert of a session touches no limiter and fails only on a token that is in use. -/
theorem insertSession_cases (db : AuthDb) (userId : ℕ) (hash ip : String) (now expiresAt : Time) :
    db.insertSession userId hash ip now expiresAt = .error .integrityError ∨
      ∃ u, db.insertSession userId hash ip now expiresAt = .ok u ∧ SameLimits db u := by
  rw [AuthDb.insertSession]
  split
  · exact .inl rfl
  · exact .inr ⟨_, rfl, rfl, rfl, rfl⟩

theorem ensures_maintenance {user : UserRow} {k : Unit → Request α}
    (hraise : ∀ detail, Q (.raised (.http 503 detail)) s t)
    (h : Ensures Input.now Q (k ()) s none t) :
    Ensures Input.now Q (AuthEnv.raiseIfMaintenanceLocked user >>= k) s none t := by
  rw [AuthEnv.raiseIfMaintenanceLocked]
  split
  · exact h
  · rw [bind_assoc]
    refine ensures_query ?_
    split
    · exact hraise _
    · exact h

/-- `create_session` touches no limiter; it can only fail on a token that is in use. -/
theorem ensures_createSession {user : UserRow} {ip : String} {note : AuthDb → AuthDb}
    (hnote : ∀ u, SameLimits u (note u)) {k : String → Request α}
    (herr : ∀ t', t ≤ t' → Q (.raised .integrityError) s t')
    (h : ∀ token s' t', SameLimits s s' → t ≤ t' → Ensures Input.now Q (k token) s' none t') :
    Ensures Input.now Q (env.createSession user ip note >>= k) s none t := by
  simp only [AuthEnv.createSession, bind_assoc]
  refine ensures_input fun token htoken => ensures_input fun clock hclock => ensures_update ?_
  rcases insertSession_cases (s.cleanupExpiredSessions clock.now) user.id
    (env.hashAuthSessionToken token.fresh) ip clock.now (clock.now + env.sessionTtlHours * 3600)
    with hins | ⟨u, hins, hsame⟩
  · refine ensures_insert (fun e he => ?_) fun u n hu => ?_
    · rw [view_some, view_none, hins] at he
      cases he
      exact herr _ (htoken.trans hclock)
    · rw [view_some, view_none, hins] at hu
      cases hu
  · refine ensures_insert (fun e he => ?_) fun u' n hu => ensures_commit ?_
    · rw [view_some, view_none, hins] at he
      cases he
    · rw [view_some, view_none, hins] at hu
      cases hu
      have hcleaned : SameLimits s (s.cleanupExpiredSessions clock.now) := ⟨rfl, rfl, rfl⟩
      exact h _ _ _ ((hcleaned.trans hsame).trans (hnote u)) (htoken.trans hclock)

/-- `_resolve_user_totp_secret` leaves the connection without a transaction, unless it finds
a plain text to encrypt or an unreadable secret. -/
theorem ensures_resolveUserTotpSecret {userId : ℕ} {stored : Option String}
    {k : Option String → Request α}
    (h : ∀ secret w t', t ≤ t' → SameLimits s (view s w) →
      (secret ≠ none → legacySecret env stored = false → w = none) →
      Ensures Input.now Q (k secret) s w t') :
    Ensures Input.now Q (env.resolveUserTotpSecret userId stored >>= k) s none t := by
  have hnone := h none none t (le_refl t) ⟨rfl, rfl, rfl⟩ fun _ _ => rfl
  rcases stored with _ | stored
  · exact hnone
  · simp only [AuthEnv.resolveUserTotpSecret]
    by_cases hempty : stored = ""
    · simp only [if_pos hempty]
      exact hnone
    simp only [if_neg hempty]
    rcases hdec : env.decryptAtRest stored with _ | ⟨secret, wasEncrypted⟩
    · simp only [bind_assoc]
      exact ensures_update (h none _ t (le_refl t) ⟨rfl, rfl, rfl⟩ fun hne => absurd rfl hne)
    · by_cases hsecret : secret = ""
      · simp only [if_pos hsecret]
        exact hnone
      simp only [if_neg hsecret]
      by_cases hplain : wasEncrypted = true
      · simp only [if_pos hplain]
        exact h _ none t (le_refl t) ⟨rfl, rfl, rfl⟩ fun _ _ => rfl
      · simp only [if_neg hplain, bind_assoc]
        refine ensures_input fun x hx => ensures_update (h _ _ _ hx ⟨rfl, rfl, rfl⟩ ?_)
        intro _ hlegacy
        simp [legacySecret, hdec, hsecret, hplain] at hlegacy

/-- `authenticate_user` hands out a user only for the right password. -/
theorem ensures_authenticateUser {username password : String}
    {k : Except AuthFailure UserRow → Request α}
    (hfail : ∀ failure, Ensures Input.now Q (k (.error failure)) s none t)
    (hok : ∀ user s', passwordRight env s username password = true → SameLimits s s' →
      Ensures Input.now Q (k (.ok user)) s' none t) :
    Ensures Input.now Q (env.authenticateUser username password >>= k) s none t := by
  simp only [AuthEnv.authenticateUser, bind_assoc]
  refine ensures_query ?_
  rw [view_none]
  rcases hrow : s.userByName username with _ | u
  · exact hfail _
  · by_cases hen : u.enabled = false
    · simp only [if_pos hen]
      exact hfail _
    simp only [if_neg hen]
    rcases hver : env.verifyPassword password u.passwordHash with ⟨ok, upgraded⟩
    rcases ok with _ | _
    · exact hfail _
    · have hright : passwordRight env s username password = true := by
        simp [passwordRight, hrow, hver, hen]
      rcases upgraded with _ | upgraded
      · exact hok u s hright ⟨rfl, rfl, rfl⟩
      · simp only [bind_assoc]
        exact ensures_update (ensures_commit (hok u _ hright ⟨rfl, rfl, rfl⟩))

theorem ensures_loginTotpSecret {user : UserRow} {k : Option String → Request α}
    (h : ∀ secret s' t', SameLimits s s' → t ≤ t' → Ensures Input.now Q (k secret) s' none t') :
    Ensures Input.now Q (env.loginTotpSecret user >>= k) s none t := by
  simp only [AuthEnv.loginTotpSecret, bind_assoc]
  refine ensures_query ?_
  split
  · simp only [bind_assoc]
    refine ensures_query (ensures_resolveUserTotpSecret fun secret w t' ht hsame _ => ?_)
    exact ensures_commit (h secret _ t' hsame ht)
  · exact h none s t ⟨rfl, rfl, rfl⟩ (le_refl t)

theorem ensures_createChallenge {user : UserRow} {ip : String} {k : String → Request α}
    (herr : ∀ t', t ≤ t' → Q (.raised .integrityError) s t')
    (h : ∀ token s' t', SameLimits s s' → t ≤ t' → Ensures Input.now Q (k token) s' none t') :
    Ensures Input.now Q (env.createChallenge user ip >>= k) s none t := by
  simp only [AuthEnv.createChallenge, bind_assoc]
  refine ensures_input fun token htoken => ensures_input fun cleaned hcleaned =>
    ensures_update (ensures_input fun created hcreated => ?_)
  have hle := (htoken.trans hcleaned).trans hcreated
  refine ensures_insert (fun e he => ?_) fun u n hu => ensures_commit ?_
  · rw [AuthDb.insertChallenge] at he
    split at he
    · cases he
      exact herr _ hle
    · cases he
  · rw [AuthDb.insertChallenge] at hu
    split at hu
    · cases hu
    · cases hu
      exact h _ _ _ ⟨rfl, rfl, rfl⟩ hle

end Alone

/-! ### One post -/

/-- The post ended with a session, or inside the insert of one. -/
def reachesSession : Outcome PyError LoginAnswer → Bool
  | .returned _ => true
  | .raised .integrityError => true
  | _ => false

section Post

variable {env : AuthEnv} {ipLimiter usernameLimiter : RateLimiter} {username : String}
  {s : AuthDb} {t : Time}

/-- The limiters of `build_login_rate_limiters` meet this. -/
structure LawfulLimiters (ipLimiter usernameLimiter : RateLimiter) : Prop where
  kinds : ipLimiter.bucketKind ≠ usernameLimiter.bucketKind
  window : (usernameLimiter.windowSeconds : Time) ≤ loginFailureRetention
  attempts : 1 ≤ usernameLimiter.maxAttempts

theorem lawfulLimiters_login : LawfulLimiters loginIpRateLimiter loginUsernameRateLimiter :=
  ⟨by decide, by norm_num [loginUsernameRateLimiter, loginFailureRetention], by decide⟩

/-- The bound holds after a post that was answered. -/
def Bound (env : AuthEnv) (lim : RateLimiter) (username : String)
    (o : Outcome PyError LoginAnswer) (s : AuthDb) (t : Time) : Prop :=
  o ≠ .lost ∧ Throttled env lim username s t

/-- The bound holds after a post that was refused. -/
def BoundIfRefused (env : AuthEnv) (lim : RateLimiter) (username : String)
    (o : Outcome PyError LoginAnswer) (s : AuthDb) (t : Time) : Prop :=
  o ≠ .lost ∧ (reachesSession o = false → Throttled env lim username s t)

/-- A failure at the IP limiter, or one at the username limiter that is no wrong code. -/
theorem otherFailure_throttled (hlim : LawfulLimiters ipLimiter usernameLimiter)
    (hs : Throttled env usernameLimiter username s t) {lim : RateLimiter}
    (h : lim = ipLimiter ∨ lim = usernameLimiter) (key : String) {t' : Time} (hle : t ≤ t') :
    Throttled env usernameLimiter username (s.registerFailure lim key t').1 t' := by
  refine registerFailure_throttled hs hle hlim.window fun hkind => ?_
  rcases h with rfl | rfl
  · exact absurd hkind hlim.kinds
  · rfl

theorem loginFailed_throttled (hlim : LawfulLimiters ipLimiter usernameLimiter)
    (hs : Throttled env usernameLimiter username s t) (req : LoginRequest)
    (failure : AuthFailure) :
    Ensures Input.now (Bound env usernameLimiter username)
      (env.loginFailed ipLimiter usernameLimiter req failure) s none t := by
  rw [AuthEnv.loginFailed]
  refine ensures_registerFailure fun x n hx => ensures_registerFailure fun x' n' hx' => ?_
  have hs₁ := otherFailure_throttled hlim hs (.inr rfl)
    (env.normalizeKey (strip env.unicode req.username)) hx
  have hs₂ := otherFailure_throttled hlim hs₁ (.inl rfl) (env.normalizeKey req.ipAddress) hx'
  simp only []
  split
  · split
    · exact ⟨by simp, hs₂⟩
    · exact ⟨by simp, hs₂⟩
  · split
    · exact ⟨by simp, hs₂⟩
    · exact ⟨by simp, hs₂⟩

/-- After the right password the limiters are cleared; nothing else touches them. -/
theorem loginWithPassword_throttled (hlim : LawfulLimiters ipLimiter usernameLimiter)
    (hs : Throttled env usernameLimiter username s t) (req : LoginRequest) (user : UserRow)
    (hold : env.normalizeKey (strip env.unicode req.username) = env.normalizeKey username →
      ∀ w ∈ wrongCodeTimes username s, w + usernameLimiter.limits.span ≤ t) :
    Ensures Input.now (Bound env usernameLimiter username)
      (env.loginWithPassword ipLimiter usernameLimiter req user) s none t := by
  rw [AuthEnv.loginWithPassword]
  refine ensures_clear (ensures_clear ?_)
  have hs₁ : Throttled env usernameLimiter username
      (s.clearBucket ipLimiter.bucketKind (env.normalizeKey req.ipAddress)) t :=
    clearBucket_throttled hs fun hkind => absurd hkind hlim.kinds
  have hs₂ : Throttled env usernameLimiter username
      ((s.clearBucket ipLimiter.bucketKind (env.normalizeKey req.ipAddress)).clearBucket
        usernameLimiter.bucketKind (env.normalizeKey (strip env.unicode req.username))) t :=
    clearBucket_throttled hs₁ fun _ hkey => hold hkey
  refine ensures_maintenance (fun _ => ⟨by simp, hs₂⟩) ?_
  refine ensures_loginTotpSecret fun secret s' t' hsame ht => ?_
  have hs' := (hs₂.same hsame).later ht
  rcases secret with _ | secret
  · refine ensures_createSession ?_ (fun t'' ht' => ⟨by simp, hs'.later ht'⟩)
      fun token s'' t'' hsame' ht' => ?_
    · exact fun _ => ⟨rfl, rfl, rfl⟩
    · exact ⟨by simp, (hs'.same hsame').later ht'⟩
  · refine ensures_createChallenge (fun t'' ht' => ⟨by simp, hs'.later ht'⟩)
      fun token s'' t'' hsame' ht' => ?_
    exact ⟨by simp, (hs'.same hsame').later ht'⟩

/-- `login_totp` after the code was accepted: it is refused before the limiters are cleared,
or it reaches the session. -/
theorem acceptTotp_throttled (hs : Throttled env usernameLimiter username s t) {w : Option AuthDb}
    (hw : SameLimits s (view s w)) (i : ℕ) (req : TotpLoginRequest) (user : UserRow)
    (factor : Factor) :
    Ensures Input.now (BoundIfRefused env usernameLimiter username)
      (env.acceptTotp ipLimiter usernameLimiter i req user factor) s w t := by
  have hrest : ∀ u, SameLimits s u → Ensures Input.now (BoundIfRefused env usernameLimiter username)
      (do
        AuthEnv.raiseIfMaintenanceLocked user
        ipLimiter.clear env req.ipAddress
        usernameLimiter.clear env user.username
        let token ← env.createSession user req.ipAddress fun db =>
          db.issue { request := i, challengeTokenHash := env.hashChallengeToken req.challengeToken }
        .ret (LoginAnswer.session user token)) u none t := by
    intro u hu
    refine ensures_maintenance (fun _ => ⟨by simp, fun _ => hs.same hu⟩) ?_
    refine ensures_clear (ensures_clear (ensures_createSession ?_ ?_ ?_))
    · exact fun _ => ⟨rfl, rfl, rfl⟩
    · exact fun _ _ => ⟨by simp, fun h => by simp [reachesSession] at h⟩
    · exact fun _ _ _ _ _ => ⟨by simp, fun h => by simp [reachesSession] at h⟩
  cases factor with
  | window window =>
    simp only [AuthEnv.acceptTotp]
    exact ensures_update (ensures_update (ensures_commit (hrest _ (hw.trans ⟨rfl, rfl, rfl⟩))))
  | recovery codeId =>
    simp only [AuthEnv.acceptTotp, bind_ret]
    exact ensures_update (ensures_commit (hrest _ (hw.trans ⟨rfl, rfl, rfl⟩)))

/-- A code is checked for a key that is not locked out. -/
theorem checkTotp_throttled (hlim : LawfulLimiters ipLimiter usernameLimiter)
    (hs : Throttled env usernameLimiter username s t) (i : ℕ) (req : TotpLoginRequest)
    (user : UserRow) (secret : String)
    (hnone : s.blockedUntil usernameLimiter.bucketKind (env.normalizeKey user.username) = none) :
    Ensures Input.now (BoundIfRefused env usernameLimiter username)
      (env.checkTotp ipLimiter usernameLimiter i req user secret) s none t := by
  rw [AuthEnv.checkTotp]
  refine ensures_input fun clock hclock => ?_
  have hs₁ := hs.later hclock
  have hrecovery : Ensures Input.now (BoundIfRefused env usernameLimiter username)
      (env.checkRecovery ipLimiter usernameLimiter i req user) s none clock.now := by
    rw [AuthEnv.checkRecovery]
    simp only [AuthEnv.consumeRecoveryCode, bind_assoc]
    refine ensures_query ?_
    split
    · simp only [bind_ret]
      refine ensures_registerFailure fun x n hx => ensures_registerFailure fun x' n' hx' => ?_
      have hfailed : Throttled env usernameLimiter username
          ((s.registerFailure usernameLimiter (env.normalizeKey user.username)
            x.now).1.recordWrongCode { username := user.username, at_ := x.now }) x.now := by
        by_cases hname : user.username = username
        · rw [hname] at hnone ⊢
          exact wrongCode_throttled hs₁ hx hlim.window hlim.attempts hnone
        · exact wrongCode_other_throttled (otherFailure_throttled hlim hs₁ (.inr rfl) _ hx) hname
      exact ⟨by simp, fun _ => otherFailure_throttled hlim hfailed (.inl rfl) _ hx'⟩
    · simp only [bind_assoc, bind_ret]
      refine ensures_input fun used hused => ensures_update ?_
      exact acceptTotp_throttled (hs₁.later hused) ⟨rfl, rfl, rfl⟩ i req user _
  split
  · exact ⟨by simp, fun _ => hs₁⟩
  · exact acceptTotp_throttled (w := none) hs₁ ⟨rfl, rfl, rfl⟩ i req user _
  · exact hrecovery

/-- **A post to `/login/totp` keeps the bound**, when the user's secret is no plain text. -/
theorem loginTotp_throttled (hlim : LawfulLimiters ipLimiter usernameLimiter)
    (hs : Throttled env usernameLimiter username s t) (i : ℕ) (req : TotpLoginRequest)
    (hlegacy : ∀ row, s.challengeWithUser (env.hashChallengeToken req.challengeToken) = some row →
      legacySecret env row.user.totpSecret = false) :
    Ensures Input.now (BoundIfRefused env usernameLimiter username)
      (env.loginTotp ipLimiter usernameLimiter i req) s none t := by
  rw [AuthEnv.loginTotp]
  refine ensures_query (ensures_input fun clock hclock => ?_)
  have hs₁ := hs.later hclock
  rw [view_none]
  rcases hrow : s.challengeWithUser (env.hashChallengeToken req.challengeToken) with _ | row
  · exact ⟨by simp, fun _ => hs₁⟩
  simp only []
  split
  · exact ensures_update (ensures_commit ⟨by simp, fun _ => hs₁.same ⟨rfl, rfl, rfl⟩⟩)
  refine ensures_check fun x hx => ensures_check fun x' hx' => ?_
  set s₂ := (checked s ipLimiter (env.normalizeKey req.ipAddress) x.now).1
  have hs₂ : Throttled env usernameLimiter username s₂ x.now := checked_throttled (hs₁.later hx)
  have hs₃ : Throttled env usernameLimiter username
      (checked s₂ usernameLimiter (env.normalizeKey row.user.username) x'.now).1 x'.now :=
    checked_throttled (hs₂.later hx')
  split
  · exact ⟨by simp, fun _ => hs₃⟩
  next hretry =>
  rw [not_or, not_not, not_not] at hretry
  split
  · exact ⟨by simp, fun _ => hs₃⟩
  split
  · exact ⟨by simp, fun _ => hs₃⟩
  refine ensures_resolveUserTotpSecret fun secret w t' ht hsame hw => ?_
  rcases secret with _ | secret
  · exact ensures_update (ensures_commit
      ⟨by simp, fun _ => (hs₃.later ht).same (hsame.trans ⟨rfl, rfl, rfl⟩)⟩)
  · rw [hw (by simp) (hlegacy row hrow)]
    exact checkTotp_throttled hlim (hs₃.later ht) i req row.user secret
      (blockedUntil_of_checked hretry.2)

end Post

/-! ### Posts one after another -/

/-- A post to one of the two routes. -/
inductive Post where
  | login (req : LoginRequest)
  | loginTotp (req : TotpLoginRequest)

/-- A post with the readings of the clock that it gets, which do not go back. -/
structure Visit where
  post : Post
  inputs : ℕ → Input
  finish : Time
  monotone : ∀ m n, m ≤ n → (inputs m).now ≤ (inputs n).now
  le_finish : ∀ n, (inputs n).now ≤ finish

/-- The tables, the time, and the answers so far. -/
structure Door where
  db : AuthDb
  clock : Time
  answers : List (Outcome PyError LoginAnswer)

/-- The statements of a post. -/
def Post.request (env : AuthEnv) (i : ℕ) : Post → Request LoginAnswer
  | .login req => env.login loginIpRateLimiter loginUsernameRateLimiter req
  | .loginTotp req => env.loginTotp loginIpRateLimiter loginUsernameRateLimiter i req

/-- What a visit leaves and how it ends. -/
def Visit.run (env : AuthEnv) (d : Door) (v : Visit) : AuthDb × Outcome PyError LoginAnswer :=
  runAlone v.inputs (v.post.request env d.answers.length) 0 d.db none

/-- Serve a visit from its first statement to its last, if it does not come before the end of
the last one. -/
def serve (env : AuthEnv) (d : Door) (v : Visit) : Option Door :=
  if d.clock ≤ (v.inputs 0).now then
    some { db := (v.run env d).1, clock := v.finish, answers := (v.run env d).2 :: d.answers }
  else none

/-- Neither limiter refuses a `/login` whose two checks read the clock in `inputs`. -/
def admitted (env : AuthEnv) (db : AuthDb) (req : LoginRequest) (inputs : ℕ → Input) : Bool :=
  let ip := checked db loginIpRateLimiter (env.normalizeKey req.ipAddress) (inputs 0).now
  let name := checked ip.1 loginUsernameRateLimiter
    (env.normalizeKey (strip env.unicode req.username)) (inputs 1).now
  ip.2 == 0 && name.2 == 0

/-- The post is a `/login` that the limiters admit, its password is right, and a wrong code of
the user was registered less than the span of the limits ago. -/
def clearsEarly (env : AuthEnv) (username : String) (db : AuthDb) (v : Visit) : Bool :=
  match v.post with
  | .loginTotp _ => false
  | .login req =>
    admitted env db req v.inputs &&
    passwordRight env db (strip env.unicode req.username) req.password &&
    env.normalizeKey (strip env.unicode req.username) == env.normalizeKey username &&
    (wrongCodeTimes username db).any fun w =>
      decide ((v.inputs 1).now < w + loginUsernameRateLimiter.limits.span)

/-- The post is a `/login/totp` whose user has a secret from before the at-rest encryption. -/
def findsLegacySecret (env : AuthEnv) (db : AuthDb) (v : Visit) : Bool :=
  match v.post with
  | .login _ => false
  | .loginTotp req =>
    (db.challengeWithUser (env.hashChallengeToken req.challengeToken)).any fun row =>
      legacySecret env row.user.totpSecret

/-- The post is a `/login/totp` that succeeds. -/
def succeeds (env : AuthEnv) (d : Door) (v : Visit) : Bool :=
  match v.post with
  | .login _ => false
  | .loginTotp _ => reachesSession (v.run env d).2

/-- No second factor succeeds, no `/login` clears early, and no legacy secret is found. -/
def spaced (env : AuthEnv) (username : String) (d : Door) (v : Visit) : Bool :=
  !succeeds env d v && !clearsEarly env username d.db v && !findsLegacySecret env d.db v

section Visits

variable {env : AuthEnv} {username : String} {d d' : Door} {v : Visit}

theorem runAlone_check {lim : RateLimiter} {key : String} {α : Type} {k : ℕ → Request α}
    {inputs : ℕ → Input} {n : ℕ} {s : AuthDb} :
    runAlone inputs (lim.check env key >>= k) n s none =
      runAlone inputs (k (checked s lim (env.normalizeKey key) (inputs n).now).2) (n + 1)
        (checked s lim (env.normalizeKey key) (inputs n).now).1 none := by
  simp only [RateLimiter.check, bind_assoc]
  show runAlone inputs (lim.answerBlocked env key (inputs n).now
    (s.blockedUntil lim.bucketKind (env.normalizeKey key)) >>= k) (n + 1) s none = _
  rcases hb : s.blockedUntil lim.bucketKind (env.normalizeKey key) with _ | u
  · simp only [checked, hb]
    rfl
  · by_cases hu : (inputs n).now < u
    · simp only [checked, hb, RateLimiter.answerBlocked, if_pos hu]
      rfl
    · simp only [checked, hb, RateLimiter.answerBlocked, if_neg hu]
      rfl

/-- `check` leaves the users and the record alone. -/
theorem checked_frame (db : AuthDb) (lim : RateLimiter) (key : String) (now : Time) :
    (checked db lim key now).1.users = db.users ∧
      (checked db lim key now).1.wrongCodes = db.wrongCodes := by
  rcases checked_cases db lim key now with ⟨hs, _⟩ | ⟨_, hchk⟩ | ⟨u, _, _, hchk⟩
  · rw [hs]
    exact ⟨rfl, rfl⟩
  · rw [hchk]
    exact ⟨rfl, rfl⟩
  · rw [hchk]
    exact ⟨rfl, rfl⟩

theorem passwordRight_congr {s u : AuthDb} (h : u.users = s.users) (name password : String) :
    passwordRight env u name password = passwordRight env s name password := by
  simp only [passwordRight, AuthDb.userByName, h]

/-- The bound holds after a visit to `/login`. -/
theorem login_visit (hs : Throttled env loginUsernameRateLimiter username d.db (v.inputs 0).now)
    {req : LoginRequest} (hpost : v.post = .login req)
    (hearly : clearsEarly env username d.db v = false) :
    ∃ t, t ≤ v.finish ∧
      Bound env loginUsernameRateLimiter username (v.run env d).2 (v.run env d).1 t := by
  have hlim := lawfulLimiters_login
  rw [Visit.run, hpost]
  simp only [Post.request, AuthEnv.login, runAlone_check]
  set s₁ := (checked d.db loginIpRateLimiter (env.normalizeKey req.ipAddress) (v.inputs 0).now).1
    with hs₁def
  have hs₁ : Throttled env loginUsernameRateLimiter username s₁ (v.inputs 0).now :=
    checked_throttled hs
  by_cases hip : (checked d.db loginIpRateLimiter (env.normalizeKey req.ipAddress)
      (v.inputs 0).now).2 = 0
  swap
  · rw [if_pos hip]
    exact ⟨_, v.le_finish 0, by simp [runAlone], hs₁⟩
  rw [if_neg (not_not.mpr hip), runAlone_check]
  have hmono := v.monotone 0 1 (Nat.zero_le 1)
  set name := strip env.unicode req.username with hname
  set s₂ := (checked s₁ loginUsernameRateLimiter (env.normalizeKey name) (v.inputs 1).now).1
    with hs₂def
  have hs₂ : Throttled env loginUsernameRateLimiter username s₂ (v.inputs 1).now :=
    checked_throttled (hs₁.later hmono)
  by_cases huser : (checked s₁ loginUsernameRateLimiter (env.normalizeKey name)
      (v.inputs 1).now).2 = 0
  swap
  · rw [if_pos huser]
    exact ⟨_, v.le_finish 1, by simp [runAlone], hs₂⟩
  rw [if_neg (not_not.mpr huser)]
  have husers : s₂.users = d.db.users := (checked_frame ..).1.trans (checked_frame ..).1
  have hcodes : s₂.wrongCodes = d.db.wrongCodes := (checked_frame ..).2.trans (checked_frame ..).2
  refine Ensures.runAlone Input.now v.monotone v.le_finish ?_
    (fun m hm => v.monotone 1 m (by omega)) (v.le_finish 1)
  refine ensures_authenticateUser (fun failure => loginFailed_throttled hlim hs₂ req failure)
    fun user s' hright hsame => ?_
  refine loginWithPassword_throttled hlim (hs₂.same hsame) req user fun hkey w hw => ?_
  -- The right password of this user: it does not come early.
  rw [passwordRight_congr husers] at hright
  have hw' : w ∈ wrongCodeTimes username d.db := by
    rw [wrongCodeTimes, hsame.wrongCodes, hcodes] at hw
    exact hw
  by_contra hlt
  have hearly' : clearsEarly env username d.db v = true := by
    have hadmitted : admitted env d.db req v.inputs = true := by
      simp only [admitted, Bool.and_eq_true, beq_iff_eq]
      exact ⟨hip, huser⟩
    simp only [clearsEarly, hpost, Bool.and_eq_true, beq_iff_eq, List.any_eq_true,
      decide_eq_true_eq]
    exact ⟨⟨⟨hadmitted, hright⟩, hkey⟩, w, hw', not_le.mp hlt⟩
  rw [hearly] at hearly'
  cases hearly'

/-- The bound holds after a refused visit to `/login/totp`. -/
theorem loginTotp_visit
    (hs : Throttled env loginUsernameRateLimiter username d.db (v.inputs 0).now)
    {req : TotpLoginRequest} (hpost : v.post = .loginTotp req)
    (hlegacy : findsLegacySecret env d.db v = false) :
    ∃ t, t ≤ v.finish ∧
      BoundIfRefused env loginUsernameRateLimiter username (v.run env d).2 (v.run env d).1 t := by
  rw [Visit.run, hpost]
  refine Ensures.runAlone Input.now v.monotone v.le_finish ?_
    (fun m _ => v.monotone 0 m (Nat.zero_le m)) (v.le_finish 0)
  refine loginTotp_throttled lawfulLimiters_login hs _ req fun row hrow => ?_
  simpa [findsLegacySecret, hpost, hrow] using hlegacy

/-- One visit keeps the bound, and it is not lost. -/
theorem serve_throttled (hs : Throttled env loginUsernameRateLimiter username d.db d.clock)
    (hok : spaced env username d v = true) (hst : serve env d v = some d') :
    Throttled env loginUsernameRateLimiter username d'.db d'.clock ∧
      ∃ o, d'.answers = o :: d.answers ∧ o ≠ .lost := by
  rw [serve] at hst
  split at hst
  · next hle =>
    cases hst
    simp only [spaced, Bool.and_eq_true, Bool.not_eq_true'] at hok
    obtain ⟨⟨hsucc, hearly⟩, hlegacy⟩ := hok
    rcases hpost : v.post with req | req
    · obtain ⟨t, ht, hne, hbound⟩ := login_visit (hs.later hle) hpost hearly
      exact ⟨hbound.later ht, _, rfl, hne⟩
    · obtain ⟨t, ht, hne, hbound⟩ := loginTotp_visit (hs.later hle) hpost hlegacy
      rw [succeeds, hpost] at hsucc
      exact ⟨(hbound hsucc).later ht, _, rfl, hne⟩
  · cases hst

/-- The door before its first visit. -/
def Door.opened (db : AuthDb) (clock : Time) : Door :=
  { db := db.unrecorded, clock, answers := [] }

end Visits

/-- **Wrong codes are spaced.**  In every run of posts in which no second factor succeeds, no
`/login` clears early and no legacy secret is found, every visit is answered and of any
`maxAttempts + 1` consecutive wrong codes of a user the first and the last are at least
`min windowSeconds lockoutSeconds` apart. -/
theorem wrongCodes_spaced (env : AuthEnv) (username : String) (db : AuthDb) (clock : Time)
    (d : Door)
    (h : Runs.Reach (serve env) (fun d v => spaced env username d v = true)
      (Door.opened db clock) d) :
    (∀ o ∈ d.answers, o ≠ .lost) ∧
      ∀ k t t', (wrongCodeTimes username d.db)[k]? = some t →
        (wrongCodeTimes username d.db)[k + loginUsernameRateLimiter.maxAttempts]? = some t' →
        t' + min (loginUsernameRateLimiter.windowSeconds : Time)
          loginUsernameRateLimiter.lockoutSeconds ≤ t := by
  have hstart : Throttled env loginUsernameRateLimiter username (Door.opened db clock).db
      (Door.opened db clock).clock := Bounded.empty _ _
  have hinv : Throttled env loginUsernameRateLimiter username d.db d.clock ∧
      ∀ o ∈ d.answers, o ≠ .lost := by
    refine h.invariant (P := fun d => Throttled env loginUsernameRateLimiter username d.db d.clock ∧
      ∀ o ∈ d.answers, o ≠ .lost) ⟨hstart, by simp [Door.opened]⟩ ?_
    intro d v d' _ ⟨hs, hanswers⟩ hok hst
    obtain ⟨hs', o, ho, hne⟩ := serve_throttled hs hok hst
    refine ⟨hs', fun o' ho' => ?_⟩
    rw [ho] at ho'
    rcases List.mem_cons.mp ho' with rfl | ho'
    · exact hne
    · exact hanswers o' ho'
  exact ⟨hinv.2, hinv.1.spaced⟩

/-! ### Logging in between guesses -/

/-- The user has the second factor enabled, the post is for that user and from that address,
and no second factor succeeds. -/
def refusedPost (env : AuthEnv) (username ip : String) (d : Door) (v : Visit) : Bool :=
  (d.db.userByName username).any (fun u => present u.totpSecret) && !succeeds env d v &&
    match v.post with
    | .login req => req.ipAddress == ip && strip env.unicode req.username == username
    | .loginTotp req => req.ipAddress == ip &&
        (d.db.challengeWithUser (env.hashChallengeToken req.challengeToken)).all fun row =>
          row.user.username == username

/-- A visit that takes no time. -/
def Visit.at (post : Post) (now : Time) (fresh : String) : Visit where
  post := post
  inputs _ := { now, fresh }
  finish := now
  monotone _ _ _ := le_refl now
  le_finish _ := le_refl now

/-- Visit `n` of someone who knows the password and guesses nine codes for each login. -/
def guess (n : ℕ) : Visit :=
  let token := toString (n / 10)
  .at
    (if n % 10 = 0 then .login { username := "lee", password := "pw", ipAddress := "::1" }
      else .loginTotp { challengeToken := token, code := "111111", ipAddress := "::1" })
    (3000 + n) token

/-- Only `sampleUser`. -/
def sampleDb : AuthDb :=
  { AuthDb.empty with users := AutoTable.empty.insert sampleUser sampleUser_id }

/-- One login and two wrong codes. -/
theorem wrongCodes_spaced_twice :
    ∃ d, Runs.runFrom (Runs.guarded (serve sampleEnv) (spaced sampleEnv "lee"))
        (Door.opened sampleDb 0) [guess 0, guess 1, guess 2] = some d ∧
      wrongCodeTimes "lee" d.db = [3002, 3001] ∧ ∀ o ∈ d.answers, o ≠ .lost := by
  have hrun : ((Runs.runFrom (Runs.guarded (serve sampleEnv) (spaced sampleEnv "lee"))
      (Door.opened sampleDb 0) [guess 0, guess 1, guess 2]).any fun d =>
        decide (wrongCodeTimes "lee" d.db = [3002, 3001])) = true := by
    decide +kernel
  obtain ⟨d, hd, htimes⟩ := (Option.any_eq_true _ _).mp hrun
  rw [decide_eq_true_eq] at htimes
  have hspaced := wrongCodes_spaced _ _ _ _ d (Runs.reach_of_guarded (Runs.reach_of_runFrom hd))
  exact ⟨d, hd, htimes, hspaced.1⟩

/-- Fifty-one wrong codes within a minute. -/
theorem wrongCodes_crowded :
    ¬ ∀ (env : AuthEnv) (username ip : String) (db : AuthDb) (clock : Time) (d : Door),
      Runs.Reach (serve env) (fun d v => refusedPost env username ip d v = true)
        (Door.opened db clock) d →
      ∀ k t t', (wrongCodeTimes username d.db)[k]? = some t →
        (wrongCodeTimes username d.db)[k + loginUsernameRateLimiter.maxAttempts]? = some t' →
        t' + min (loginUsernameRateLimiter.windowSeconds : Time)
          loginUsernameRateLimiter.lockoutSeconds ≤ t := by
  intro h
  have hrun : ((Runs.runFrom (Runs.guarded (serve sampleEnv) (refusedPost sampleEnv "lee" "::1"))
      (Door.opened sampleDb 0) ((List.range 60).map guess)).any fun d =>
        decide ((wrongCodeTimes "lee" d.db)[0]? = some 3059 ∧
          (wrongCodeTimes "lee" d.db)[50]? = some 3004)) = true := by
    decide +kernel
  obtain ⟨d, hd, htimes⟩ := (Option.any_eq_true _ _).mp hrun
  rw [decide_eq_true_eq] at htimes
  have hle := h _ _ _ _ _ d (Runs.reach_of_guarded (Runs.reach_of_runFrom hd)) 0 _ _
    htimes.1 htimes.2
  norm_num [loginUsernameRateLimiter] at hle

end LoginThrottle
