/-
What the requests of the second factor commit.

* `Commits` lists the commits that a request for a challenge can make: it drops the challenge, takes
  an unreadable secret away, writes to a limiter, accepts a factor, or creates its session;
* `Calm` — no other request accepts a factor of the user;
* `loginTotp_meets` — `login_totp` makes no other commit, whatever the other requests commit between
  its statements, and where they are calm its acceptance is a fresh one.  It rests on one rule for
  each helper that the route calls.
-/
import Elvern.FactorLaw

open Tables Statements Statements.Program

namespace SecondFactor

/-- The tables that the second factor rests on are untouched. -/
structure SameFactors (s u : AuthDb) : Prop where
  users : u.users = s.users
  recoveryCodes : u.recoveryCodes = s.recoveryCodes
  loginChallenges : u.loginChallenges = s.loginChallenges
  acceptances : u.acceptances = s.acceptances

theorem SameFactors.trans {s t u : AuthDb} (h₁ : SameFactors s t) (h₂ : SameFactors t u) :
    SameFactors s u :=
  ⟨h₂.users.trans h₁.users, h₂.recoveryCodes.trans h₁.recoveryCodes,
    h₂.loginChallenges.trans h₁.loginChallenges, h₂.acceptances.trans h₁.acceptances⟩

/-- Nothing was recorded for request `i`. -/
structure Quiet (i : ℕ) (s : AuthDb) : Prop where
  acceptances : ∀ a ∈ s.acceptances, a.request ≠ i
  issued : ∀ x ∈ s.issued, x.request ≠ i

/-- Request `i` accepted the challenge `h` and has no session for it yet. -/
structure Accepted (i : ℕ) (h : String) (s : AuthDb) : Prop where
  acceptance : ∃ a ∈ s.acceptances, a.request = i ∧ a.challengeTokenHash = h
  issued : ∀ x ∈ s.issued, x.request ≠ i

/-- What is recorded for request `i` is the same. -/
structure Undisturbed (i : ℕ) (s u : AuthDb) : Prop where
  acceptances : ∀ a, a.request = i → (a ∈ u.acceptances ↔ a ∈ s.acceptances)
  issued : ∀ x, x.request = i → (x ∈ u.issued ↔ x ∈ s.issued)

/-- The writes of the request up to its acceptance: the secret may have been
encrypted, and a recovery code was marked. -/
inductive Prepared (s : AuthDb) (userId : ℕ) : Factor → AuthDb → Prop
  | window {w} : Prepared s userId (.window w) s
  | windowStored {w} (stored : String) :
      Prepared s userId (.window w) (s.storeTotpSecret userId stored)
  | recovery {c} (now : Time) : Prepared s userId (.recovery c) (s.useRecoveryCode c now)
  | recoveryStored {c} (now : Time) (stored : String) :
      Prepared s userId (.recovery c) ((s.storeTotpSecret userId stored).useRecoveryCode c now)

/-- The write of an accepted factor to the user's row. -/
def storeFactor (db : AuthDb) (userId : ℕ) : Factor → AuthDb
  | .window w => db.storeTotpWindow userId w
  | .recovery _ => db

/-- The commits of request `i` for the challenge `h`; an acceptance is fresh where the others are
calm. -/
inductive Commits (env : AuthEnv) (db : AuthDb) (calm : Prop) (i : ℕ) (h : String) (s : AuthDb) :
    AuthDb → Prop
  | dropped : Commits env db calm i h s (s.deleteChallenge h)
  | reenrolled (userId : ℕ) (unreadable : ∀ e ∈ s.users.rows, e.id = userId → ¬ Readable env e) :
      Commits env db calm i h s ((s.clearUserTotpForReenrollment userId).deleteChallenge h)
  | apart {u : AuthDb} : SameFactors s u → u.issued = s.issued → Commits env db calm i h s u
  | accepted {m : AuthDb} {userId : ℕ} {factor : Factor} :
      Quiet i s → Prepared s userId factor m →
      Sourced db { request := i, challengeTokenHash := h, userId, factor } →
      (calm → Fresh env s { request := i, challengeTokenHash := h, userId, factor }) →
      Commits env db calm i h s (((storeFactor m userId factor).deleteChallenge h).accept
        { request := i, challengeTokenHash := h, userId, factor })
  | issued {u : AuthDb} : Accepted i h s → SameFactors s u →
      u.issued = { request := i, challengeTokenHash := h } :: s.issued → Commits env db calm i h s u

/-! ### What a request relies on -/

theorem Undisturbed.refl (i : ℕ) (s : AuthDb) : Undisturbed i s s :=
  ⟨fun _ _ => Iff.rfl, fun _ _ => Iff.rfl⟩

theorem Undisturbed.trans {i : ℕ} {s t u : AuthDb} (h₁ : Undisturbed i s t)
    (h₂ : Undisturbed i t u) : Undisturbed i s u :=
  ⟨fun a ha => (h₂.acceptances a ha).trans (h₁.acceptances a ha),
    fun x hx => (h₂.issued x hx).trans (h₁.issued x hx)⟩

theorem Quiet.undisturbed {i : ℕ} {s u : AuthDb} (h : Quiet i s) (hu : Undisturbed i s u) :
    Quiet i u :=
  ⟨fun a ha hi => h.acceptances a ((hu.acceptances a hi).mp ha) hi,
    fun x hx hi => h.issued x ((hu.issued x hi).mp hx) hi⟩

theorem Accepted.undisturbed {i : ℕ} {hash : String} {s u : AuthDb} (h : Accepted i hash s)
    (hu : Undisturbed i s u) : Accepted i hash u := by
  obtain ⟨a, ha, hi, hh⟩ := h.acceptance
  exact ⟨⟨a, (hu.acceptances a hi).mpr ha, hi, hh⟩,
    fun x hx hxi => h.issued x ((hu.issued x hxi).mp hx) hxi⟩

/-- The part of the record that `SameFactors` leaves open. -/
theorem Undisturbed.of_same {i : ℕ} {s u : AuthDb} (hf : SameFactors s u)
    (hi : u.issued = s.issued) : Undisturbed i s u :=
  ⟨fun _ _ => by rw [hf.acceptances], fun _ _ => by rw [hi]⟩

theorem prepared_record {s m : AuthDb} {userId : ℕ} {factor : Factor}
    (h : Prepared s userId factor m) :
    m.acceptances = s.acceptances ∧ m.issued = s.issued := by
  cases h <;> exact ⟨rfl, rfl⟩

theorem storeFactor_record (m : AuthDb) (userId : ℕ) (factor : Factor) :
    (storeFactor m userId factor).acceptances = m.acceptances ∧
      (storeFactor m userId factor).issued = m.issued := by
  cases factor <;> exact ⟨rfl, rfl⟩

/-- The others accept no factor of the user, and leave the row of one whose secret can be read. -/
structure Calm (env : AuthEnv) (userId : ℕ) (s u : AuthDb) : Prop where
  acceptances : ∀ a ∈ u.acceptances, a.userId = userId → a ∈ s.acceptances
  user : ∀ e ∈ s.users.rows, e.id = userId → Readable env e → e ∈ u.users.rows

/-- What request `i` for the challenge `h` relies on: its own record, a law of the committed states,
that no secret becomes readable, and perhaps that the others are calm. -/
structure Rely (env : AuthEnv) (db : AuthDb) (calm : Prop) (i : ℕ) (h : String)
    (s u : AuthDb) : Prop where
  undisturbed : Undisturbed i s u
  readable : ∀ l ∈ u.users.rows, Readable env l → ∃ e ∈ s.users.rows, e.id = l.id ∧ Readable env e
  inv : Inv db u
  calm : calm → ∀ userId, challengeUser db h = some userId → Calm env userId s u

/-- What one request commits leaves the record of the others alone. -/
theorem Commits.undisturbed {env : AuthEnv} {db : AuthDb} {calm : Prop} {i j : ℕ} {hash : String}
    {s u : AuthDb} (hij : i ≠ j) (h : Commits env db calm i hash s u) : Undisturbed j s u := by
  cases h with
  | dropped => exact ⟨fun _ _ => Iff.rfl, fun _ _ => Iff.rfl⟩
  | reenrolled userId => exact ⟨fun _ _ => Iff.rfl, fun _ _ => Iff.rfl⟩
  | apart hf hi => exact .of_same hf hi
  | @accepted m userId factor hq hp =>
    have hm := prepared_record hp
    have hs := storeFactor_record m userId factor
    refine ⟨fun a ha => ?_, fun x hx => ?_⟩
    · show a ∈ _ :: (storeFactor m userId factor).acceptances ↔ _
      rw [hs.1, hm.1, List.mem_cons]
      constructor
      · rintro (rfl | h)
        · exact absurd ha hij
        · exact h
      · exact Or.inr
    · show x ∈ (storeFactor m userId factor).issued ↔ _
      rw [hs.2, hm.2]
  | issued ha hf hi =>
    refine ⟨fun a _ => by rw [hf.acceptances], fun x hx => ?_⟩
    rw [hi, List.mem_cons]
    constructor
    · rintro (rfl | h)
      · exact absurd hx hij
      · exact h
    · exact Or.inr

/-- What others commit to other tables is relied on. -/
theorem Rely.of_same {env : AuthEnv} {db : AuthDb} {calm : Prop} {i : ℕ} {h : String} {s u : AuthDb}
    (hs : Inv db s) (hf : SameFactors s u) (hi : u.issued = s.issued) :
    Rely env db calm i h s u where
  undisturbed := .of_same hf hi
  readable l hl hr := ⟨l, hf.users ▸ hl, rfl, hr⟩
  inv :=
    { lawful := hs.lawful.of_subset (.of_users hf.users) (fun c hc => hf.loginChallenges ▸ hc)
        (fun r hr => hf.recoveryCodes ▸ hr) hf.acceptances hi
      derived := hs.derived.of_subset
        (fun hash userId h => by rwa [challengeUser, hf.loginChallenges] at h)
        (fun r hr => ⟨r, hf.recoveryCodes ▸ hr, rfl, rfl⟩) fun a ha => .inl (hf.acceptances ▸ ha) }
  calm _ _ _ := ⟨fun a ha _ => hf.acceptances ▸ ha, fun e he _ _ => hf.users.symm ▸ he⟩

/-! ### What a request knows -/

/-- What request `i` knows after it has read the challenge `h` of `user`. -/
structure Granted (env : AuthEnv) (db : AuthDb) (calm : Prop) (i : ℕ) (h : String) (user : UserRow)
    (s : AuthDb) : Prop where
  quiet : Quiet i s
  inv : Inv db s
  challengeUser : challengeUser db h = some user.id
  unreadable : ¬ Readable env user → ∀ e ∈ s.users.rows, e.id = user.id → ¬ Readable env e
  user : calm → Readable env user → user ∈ s.users.rows
  challenge : calm → ∀ a ∈ s.acceptances, a.challengeTokenHash ≠ h

/-- Request `i` has also read a recovery code that was not used. -/
structure GrantedCode (env : AuthEnv) (db : AuthDb) (calm : Prop) (i : ℕ) (h : String)
    (user : UserRow) (codeId : ℕ) (s : AuthDb) : Prop where
  granted : Granted env db calm i h user s
  source : ∃ r₀ ∈ db.recoveryCodes.rows, r₀.id = codeId ∧ r₀.userId = user.id
  unused : calm → ∀ b ∈ s.acceptances, b.factor ≠ .recovery codeId

/-- What the others cannot change, and the own writes to other tables neither. -/
structure Stable (env : AuthEnv) (db : AuthDb) (calm : Prop) (i : ℕ) (h : String)
    (P : AuthDb → Prop) : Prop where
  rely : ∀ s u, P s → Rely env db calm i h s u → P u
  same : ∀ s u, P s → SameFactors s u → u.issued = s.issued → P u

section Stability

variable {env : AuthEnv} {db : AuthDb} {calm : Prop} {i : ℕ} {h : String}
  {user : UserRow} {codeId : ℕ}

theorem Stable.later {P : AuthDb → Prop} (hP : Stable env db calm i h P) {s s' : AuthDb}
    {w : Option AuthDb} (hs : P s) (hlater : Later (Rely env db calm i h) s w s') : P s' := by
  cases w with
  | none =>
    induction hlater with
    | refl => exact hs
    | tail _ hst ih => exact hP.rely _ _ ih hst
  | some u =>
    cases hlater
    exact hs

theorem Stable.of_rely {P : AuthDb → Prop} (hinv : ∀ s, P s → Inv db s)
    (hrely : ∀ s u, P s → Rely env db calm i h s u → P u) : Stable env db calm i h P :=
  ⟨hrely, fun s u hs hf hi => hrely s u hs (.of_same (hinv s hs) hf hi)⟩

/-- What a request knows before its first read. -/
theorem stable_quiet : Stable env db calm i h fun s => Quiet i s ∧ Inv db s :=
  .of_rely (fun _ hs => hs.2) fun _ _ hs hr => ⟨hs.1.undisturbed hr.undisturbed, hr.inv⟩

theorem stable_accepted : Stable env db calm i h (Accepted i h) :=
  ⟨fun _ _ hs hr => hs.undisturbed hr.undisturbed, fun _ _ hs hf hi =>
    hs.undisturbed (.of_same hf hi)⟩

theorem Granted.rely {s u : AuthDb} (hs : Granted env db calm i h user s)
    (hr : Rely env db calm i h s u) : Granted env db calm i h user u where
  quiet := hs.quiet.undisturbed hr.undisturbed
  inv := hr.inv
  challengeUser := hs.challengeUser
  unreadable hnot l hl hid hreadable := by
    obtain ⟨e, he, heid, hread⟩ := hr.readable l hl hreadable
    exact hs.unreadable hnot e he (heid.trans hid) hread
  user hcalm hreadable :=
    (hr.calm hcalm _ hs.challengeUser).user user (hs.user hcalm hreadable) rfl hreadable
  challenge hcalm a ha hhash := by
    -- An acceptance of this challenge is one of this user, and the others make none.
    have huser := (hr.inv.derived.accepted a ha).challenge
    rw [hhash, hs.challengeUser, Option.some_inj] at huser
    exact hs.challenge hcalm a ((hr.calm hcalm _ hs.challengeUser).acceptances a ha
      huser.symm) hhash

theorem stable_granted : Stable env db calm i h (Granted env db calm i h user) :=
  .of_rely (fun _ hs => hs.inv) fun _ _ hs hr => hs.rely hr

theorem GrantedCode.rely {s u : AuthDb} (hs : GrantedCode env db calm i h user codeId s)
    (hr : Rely env db calm i h s u) : GrantedCode env db calm i h user codeId u where
  granted := hs.granted.rely hr
  source := hs.source
  unused hcalm b hb hcode := by
    -- An acceptance with this code is one of this user as well.
    obtain ⟨r, hrmem, hrid, hruser⟩ := (hr.inv.derived.accepted b hb).code _ hcode
    obtain ⟨r₀, hr₀, hid₀, huser₀⟩ := hs.source
    cases db.recoveryCodes.key_inj hrmem hr₀ (hrid.trans hid₀.symm)
    have huser : b.userId = user.id := hruser.symm.trans huser₀
    exact hs.unused hcalm b
      ((hr.calm hcalm _ hs.granted.challengeUser).acceptances b hb huser) hcode

theorem stable_grantedCode : Stable env db calm i h (GrantedCode env db calm i h user codeId) :=
  .of_rely (fun _ hs => hs.granted.inv) fun _ _ hs hr => hs.rely hr

/-- What the read of the challenge shows. -/
theorem granted_of_challenge {s : AuthDb} (hq : Quiet i s) (hinv : Inv db s)
    {row : ChallengeWithUser}
    (hrow : s.challengeWithUser h = some row) : Granted env db calm i h row.user s := by
  obtain ⟨c, hc, hrest⟩ := Option.bind_eq_some_iff.mp hrow
  obtain ⟨u, hu, rfl⟩ := Option.map_eq_some_iff.mp hrest
  obtain ⟨hmem, hid⟩ := AutoTable.mem_of_find hu
  have hid : u.id = c.userId := by simpa using hid
  have hhash : c.challengeTokenHash = h := by simpa using List.find?_some hc
  refine ⟨hq, hinv, hinv.derived.user _ _ ?_, fun hnot e he heid => ?_, fun _ _ => hmem,
    fun _ a ha heq => ?_⟩
  · rw [challengeUser, hc, Option.map_some, hid]
  · cases s.users.key_inj he hmem heid
    exact hnot
  · exact hinv.lawful.spent.challenge a ha c (List.mem_of_find?_eq_some hc) (hhash.trans heq.symm)

/-- What the read of a recovery code shows. -/
theorem Granted.code {s : AuthDb} (hs : Granted env db calm i h user s) {c : RecoveryCodeRow}
    (hc : c ∈ s.recoveryCodes.rows) (huser : c.userId = user.id) (hunused : c.usedAt = none) :
    GrantedCode env db calm i h user c.id s where
  granted := hs
  source := by
    obtain ⟨r₀, hr₀, hid, hof⟩ := hs.inv.derived.code c hc
    exact ⟨r₀, hr₀, hid, hof.trans huser⟩
  unused _ b hb hcode := hs.inv.lawful.spent.recovery b hb c.id hcode c hc rfl hunused

/-- A window after the last one that was read is fresh. -/
theorem Granted.fresh_window {s : AuthDb} (hs : Granted env db calm i h user s) (hcalm : calm)
    (hreadable : Readable env user) {window : ℤ}
    (hlater : ∀ last, user.totpLastUsedWindow = some last → last < window) :
    Fresh env s
      { request := i, challengeTokenHash := h, userId := user.id, factor := .window window } where
  challenge := hs.challenge hcalm
  user := by
    refine ⟨user, hs.user hcalm hreadable, rfl, hreadable, fun w hw => ?_⟩
    cases hw
    exact hlater
  recovery c hc := by cases hc

/-- A recovery code that was not used is fresh. -/
theorem GrantedCode.fresh {s : AuthDb}
    (hs : GrantedCode env db calm i h user codeId s) (hcalm : calm)
    (hreadable : Readable env user) :
    Fresh env s
      { request := i, challengeTokenHash := h, userId := user.id, factor := .recovery codeId } where
  challenge := hs.granted.challenge hcalm
  user := ⟨user, hs.granted.user hcalm hreadable, rfl, hreadable, fun _ hw => by cases hw⟩
  recovery c hc := by
    cases hc
    exact hs.unused hcalm

theorem Granted.sourced_window {s : AuthDb} (hs : Granted env db calm i h user s) (window : ℤ) :
    Sourced db
      { request := i, challengeTokenHash := h, userId := user.id, factor := .window window } :=
  ⟨hs.challengeUser, fun _ hc => by cases hc⟩

theorem GrantedCode.sourced {s : AuthDb} (hs : GrantedCode env db calm i h user codeId s) :
    Sourced db
      { request := i, challengeTokenHash := h, userId := user.id, factor := .recovery codeId } :=
  ⟨hs.granted.challengeUser, fun _ hc => by
    cases hc
    exact hs.source⟩

end Stability

/-! ### What a request commits -/

section Requests

variable (env : AuthEnv) (db : AuthDb) (calm : Prop)
  (ipLimiter usernameLimiter : RateLimiter) {i : ℕ} {hash : String}

/-- The condition on a part of request `i` that works for the challenge `hash`. -/
abbrev Keeps (i : ℕ) (hash : String) {α : Type} (p : Request α) (s : AuthDb)
    (w : Option AuthDb) : Prop :=
  Meets (Rely env db calm i hash) (Commits env db calm i hash) (fun _ _ => True) p s w

/-- A transaction of a limiter. -/
theorem registerFailure_same (s : AuthDb) (lim : RateLimiter) (key : String) (now : Time) :
    SameFactors s (s.registerFailure lim key now).1 ∧
      (s.registerFailure lim key now).1.issued = s.issued := by
  rw [AuthDb.registerFailure]
  split
  · exact ⟨⟨rfl, rfl, rfl, rfl⟩, rfl⟩
  · exact ⟨⟨rfl, rfl, rfl, rfl⟩, rfl⟩

variable {db calm} {α : Type} {P : AuthDb → Prop}

/-- A limiter's transaction in a request that knows `P`. -/
theorem limiter_keeps (hP : Stable env db calm i hash P) {f : AuthDb → AuthDb × ℕ}
    (hf : ∀ s, SameFactors s (f s).1 ∧ (f s).1.issued = s.issued)
    {k : ℕ → Request α} {s : AuthDb} (hs : P s)
    (hk : ∀ n s', P s' → Keeps env db calm i hash (k n) s' none) :
    Keeps env db calm i hash (apart f >>= k) s none := by
  refine meets_apart (fun s' => ?_) fun s' hs' _ => hk _ _ ?_
  · exact .apart (hf s').1 (hf s').2
  · exact hP.same _ _ (hP.later hs hs') (hf s').1 (hf s').2

theorem check_keeps (hP : Stable env db calm i hash P) (lim : RateLimiter)
    (key : String) {k : ℕ → Request α} {s : AuthDb} (hs : P s)
    (hk : ∀ n s', P s' → Keeps env db calm i hash (k n) s' none) :
    Keeps env db calm i hash (lim.check env key >>= k) s none := by
  simp only [RateLimiter.check, bind_assoc]
  refine meets_input fun s₁ clock h₁ => meets_query fun s₂ h₂ => ?_
  have hs₂ : P s₂ := hP.later (hP.later hs h₁) h₂
  rcases AuthDb.blockedUntil (view s₂ none) lim.bucketKind (env.normalizeKey key) with _ | t
  · exact hk _ _ hs₂
  · by_cases ht : clock.now < t
    · simp only [if_pos ht]
      exact hk _ _ hs₂
    · simp only [if_neg ht, bind_assoc]
      exact limiter_keeps env hP (fun s => ⟨⟨rfl, rfl, rfl, rfl⟩, rfl⟩) hs₂ fun n s' hs' =>
        hk 0 s' hs'

theorem registerFailure_keeps (hP : Stable env db calm i hash P) (lim : RateLimiter)
    (key : String) {note : Time → AuthDb → AuthDb}
    (hnote : ∀ now s, SameFactors s (note now s) ∧ (note now s).issued = s.issued)
    {k : ℕ → Request α} {s : AuthDb} (hs : P s)
    (hk : ∀ n s', P s' → Keeps env db calm i hash (k n) s' none) (w : Option AuthDb) :
    Keeps env db calm i hash (lim.registerFailure env key note >>= k) s w := by
  simp only [RateLimiter.registerFailure, bind_assoc]
  refine meets_input fun s₁ clock h₁ => ?_
  cases w with
  | some u => exact meets_apart_blocked
  | none =>
    refine limiter_keeps env hP (fun s => ?_) (hP.later hs h₁) hk
    obtain ⟨hreg, hregIssued⟩ := registerFailure_same s lim (env.normalizeKey key) clock.now
    obtain ⟨hn, hnIssued⟩ := hnote clock.now
      (s.registerFailure lim (env.normalizeKey key) clock.now).1
    exact ⟨hreg.trans hn, hnIssued.trans hregIssued⟩

theorem clear_keeps (hP : Stable env db calm i hash P) (lim : RateLimiter)
    (key : String) {k : Unit → Request α} {s : AuthDb} (hs : P s)
    (hk : ∀ s', P s' → Keeps env db calm i hash (k ()) s' none) :
    Keeps env db calm i hash (lim.clear env key >>= k) s none := by
  simp only [RateLimiter.clear, bind_assoc]
  exact limiter_keeps env hP (fun s => ⟨⟨rfl, rfl, rfl, rfl⟩, rfl⟩) hs fun _ s' hs' => hk s' hs'

theorem sameFactors_cleanup (s : AuthDb) (now : Time) :
    SameFactors s (s.cleanupExpiredSessions now) ∧
      (s.cleanupExpiredSessions now).issued = s.issued :=
  ⟨⟨rfl, rfl, rfl, rfl⟩, rfl⟩

theorem sameFactors_insertSession {s u : AuthDb} {userId : ℕ} {tokenHash ip : String}
    {now expiresAt : Time} (h : s.insertSession userId tokenHash ip now expiresAt = .ok u) :
    SameFactors s u ∧ u.issued = s.issued := by
  rw [AuthDb.insertSession] at h
  split at h
  · cases h
  · cases h
    exact ⟨⟨rfl, rfl, rfl, rfl⟩, rfl⟩

/-- The session of a request that accepted its challenge. -/
theorem createSession_keeps (user : UserRow) (ip : String) {k : String → Request α} {s : AuthDb}
    (hs : Accepted i hash s) (hk : ∀ token s', Keeps env db calm i hash (k token) s' none) :
    Keeps env db calm i hash (env.createSession user ip
      (fun db => db.issue { request := i, challengeTokenHash := hash }) >>= k) s none := by
  simp only [AuthEnv.createSession, bind_assoc]
  refine meets_input fun s₁ token h₁ => meets_input fun s₂ clock h₂ => ?_
  refine meets_update fun s₃ h₃ => meets_insert fun s₄ u n h₄ hu => ?_
  cases h₄
  have hacc : Accepted i hash s₃ :=
    stable_accepted.later (stable_accepted.later (stable_accepted.later hs h₁) h₂) h₃
  simp only [view_some, view_none] at hu
  obtain ⟨hclean, hcleanIssued⟩ := sameFactors_cleanup s₃ clock.now
  cases hins : (s₃.cleanupExpiredSessions clock.now).insertSession user.id
      (env.hashAuthSessionToken token.fresh) ip clock.now
      (clock.now + env.sessionTtlHours * 3600) with
  | error e =>
    rw [hins] at hu
    cases hu
  | ok v =>
    rw [hins] at hu
    cases hu
    obtain ⟨hsame, hissued⟩ := sameFactors_insertSession hins
    refine meets_commit ?_ (hk _ _)
    have hfactors := hclean.trans hsame
    exact .issued hacc
      ⟨hfactors.users, hfactors.recoveryCodes, hfactors.loginChallenges, hfactors.acceptances⟩
      (congrArg (List.cons _) (hissued.trans hcleanIssued))

/-- The end of a successful second factor, from its first write on. -/
theorem acceptTotp_commit_keeps (req : TotpLoginRequest) (user : UserRow) {factor : Factor}
    {s m : AuthDb} (hq : Quiet i s) (hm : Prepared s user.id factor m)
    (hsource : Sourced db { request := i, challengeTokenHash := hash, userId := user.id, factor })
    (hfresh : calm → Fresh env s
      { request := i, challengeTokenHash := hash, userId := user.id, factor }) :
    Keeps env db calm i hash (do
      update fun db => (db.deleteChallenge hash).accept
        { request := i, challengeTokenHash := hash, userId := user.id, factor }
      commitNow
      AuthEnv.raiseIfMaintenanceLocked user
      ipLimiter.clear env req.ipAddress
      usernameLimiter.clear env user.username
      let token ← env.createSession user req.ipAddress fun db =>
        db.issue { request := i, challengeTokenHash := hash }
      .ret (LoginAnswer.session user token)) s (some (storeFactor m user.id factor)) := by
  refine meets_update fun s' hs' => ?_
  cases hs'
  refine meets_commit (.accepted hq hm hsource hfresh) ?_
  have hacc : Accepted i hash (((storeFactor m user.id factor).deleteChallenge hash).accept
      { request := i, challengeTokenHash := hash, userId := user.id, factor }) := by
    refine ⟨⟨_, List.mem_cons_self, rfl, rfl⟩, ?_⟩
    show ∀ x ∈ (storeFactor m user.id factor).issued, _
    rw [(storeFactor_record m user.id factor).2, (prepared_record hm).2]
    exact hq.issued
  have hrest : ∀ s', Accepted i hash s' → Keeps env db calm i hash (do
      ipLimiter.clear env req.ipAddress
      usernameLimiter.clear env user.username
      let token ← env.createSession user req.ipAddress fun db =>
        db.issue { request := i, challengeTokenHash := hash }
      .ret (LoginAnswer.session user token)) s' none := by
    intro s' hs'
    refine clear_keeps env stable_accepted _ _ hs' fun s₁ h₁ =>
      clear_keeps env stable_accepted _ _ h₁ fun s₂ h₂ => ?_
    exact createSession_keeps env user _ h₂ fun token s₃ => meets_ret fun _ _ _ _ => trivial
  rw [AuthEnv.raiseIfMaintenanceLocked]
  split
  · exact hrest _ hacc
  · simp only [bind_assoc]
    refine meets_query fun s₁ h₁ => ?_
    split
    · exact meets_raise
    · exact hrest _ (stable_accepted.later hacc h₁)

/-- `acceptTotp` from a transaction that the resolved secret or the recovery code opened,
or with none open. -/
theorem acceptTotp_window_keeps (req : TotpLoginRequest) (user : UserRow) (window : ℤ)
    {s : AuthDb} {w : Option AuthDb} (hs : Granted env db calm i hash user s)
    (hreadable : Readable env user)
    (hlater : ∀ last, user.totpLastUsedWindow = some last → last < window)
    (hw : w = none ∨ ∃ stored, w = some (s.storeTotpSecret user.id stored))
    (hhash : hash = env.hashChallengeToken req.challengeToken) :
    Keeps env db calm i hash (env.acceptTotp ipLimiter usernameLimiter i req user
        (.window window)) s w := by
  subst hhash
  refine meets_update fun s' hs' => ?_
  have hg := stable_granted.later hs hs'
  rcases hw with rfl | ⟨stored, rfl⟩
  · exact acceptTotp_commit_keeps env ipLimiter usernameLimiter req user hg.quiet .window
      (hg.sourced_window window) fun hcalm => hg.fresh_window hcalm hreadable hlater
  · cases hs'
    exact acceptTotp_commit_keeps env ipLimiter usernameLimiter req user hg.quiet
      (.windowStored stored) (hg.sourced_window window) fun hcalm =>
        hg.fresh_window hcalm hreadable hlater

theorem acceptTotp_recovery_keeps (req : TotpLoginRequest) (user : UserRow) (codeId : ℕ)
    {s m : AuthDb} (hs : GrantedCode env db calm i hash user codeId s)
    (hreadable : Readable env user)
    (hm : Prepared s user.id (.recovery codeId) m)
    (hhash : hash = env.hashChallengeToken req.challengeToken) :
    Keeps env db calm i hash (env.acceptTotp ipLimiter usernameLimiter i req user
      (.recovery codeId)) s (some m) := by
  subst hhash
  exact acceptTotp_commit_keeps env ipLimiter usernameLimiter req user
    hs.granted.quiet hm hs.sourced
    fun hcalm => hs.fresh hcalm hreadable

/-- A request with its secret at hand. -/
theorem checkTotp_keeps (req : TotpLoginRequest) (user : UserRow) (secret : String)
    {s : AuthDb} {w : Option AuthDb} (hs : Granted env db calm i hash user s)
    (hreadable : Readable env user)
    (hw : w = none ∨ ∃ stored, w = some (s.storeTotpSecret user.id stored))
    (hhash : hash = env.hashChallengeToken req.challengeToken) :
    Keeps env db calm i hash (env.checkTotp ipLimiter usernameLimiter i req user secret) s w := by
  have hw' : ∀ s', Later (Rely env db calm i hash) s w s' →
      w = none ∨ ∃ stored, w = some (s'.storeTotpSecret user.id stored) := by
    intro s' hs'
    rcases hw with rfl | ⟨stored, rfl⟩
    · exact .inl rfl
    · cases hs'
      exact .inr ⟨stored, rfl⟩
  rw [AuthEnv.checkTotp]
  refine meets_input fun s₁ clock h₁ => ?_
  have hg₁ := stable_granted.later hs h₁
  have hrecovery :
      Keeps env db calm i hash (env.checkRecovery ipLimiter usernameLimiter i req user) s₁ w := by
    rw [AuthEnv.checkRecovery]
    simp only [AuthEnv.consumeRecoveryCode, bind_assoc]
    refine meets_query fun s₂ h₂ => ?_
    have hg₂ := stable_granted.later hg₁ h₂
    split
    · rw [bind_ret]
      refine registerFailure_keeps env stable_granted _ _ ?_ hg₂ (fun n s₃ h₃ => ?_) w
      · exact fun _ _ => ⟨⟨rfl, rfl, rfl, rfl⟩, rfl⟩
      exact registerFailure_keeps env stable_granted _ _ (fun _ _ => ⟨⟨rfl, rfl, rfl, rfl⟩, rfl⟩) h₃
        (fun _ _ _ => meets_raise) none
    · next c hc =>
      -- The read sees the own transaction, which has not touched the codes.
      have hcodes : (view s₂ w).recoveryCodes = s₂.recoveryCodes := by
        rcases hw with rfl | ⟨stored, rfl⟩
        · rfl
        · cases h₁
          cases h₂
          rfl
      rw [hcodes] at hc
      obtain ⟨hmem, hfound⟩ := AutoTable.mem_of_find hc
      simp only [Bool.and_eq_true, beq_iff_eq, Option.isNone_iff_eq_none] at hfound
      have hg₂' := hg₂.code hmem hfound.1.1 hfound.2
      simp only [bind_assoc]
      refine meets_input fun s₃ used h₃ => meets_update fun s₄ h₄ => ?_
      have hg₄ := stable_grantedCode.later (stable_grantedCode.later hg₂' h₃) h₄
      rcases hw with rfl | ⟨stored, rfl⟩
      · exact acceptTotp_recovery_keeps env ipLimiter usernameLimiter req user c.id hg₄ hreadable
          (.recovery used.now) hhash
      · cases h₁
        cases h₂
        cases h₃
        cases h₄
        exact acceptTotp_recovery_keeps env ipLimiter usernameLimiter req user c.id hg₄ hreadable
          (.recoveryStored used.now stored) hhash
  split
  · exact meets_raise
  · next window hwindow =>
    exact acceptTotp_window_keeps env ipLimiter usernameLimiter req user window hg₁ hreadable
      (env.verifyTotpCode_gt hwindow) (hw' _ h₁) hhash
  · exact hrecovery

/-- **Every request commits only what `Commits` lists**, whatever the others commit between its
statements, and a fresh acceptance where they are calm. -/
theorem loginTotp_meets (req : TotpLoginRequest) {s : AuthDb} (hq : Quiet i s) (hinv : Inv db s) :
    Keeps env db calm i (env.hashChallengeToken req.challengeToken)
      (env.loginTotp ipLimiter usernameLimiter i req) s none := by
  rw [AuthEnv.loginTotp]
  refine meets_query fun s₁ h₁ => meets_input fun s₂ clock h₂ => ?_
  obtain ⟨hq₁, hinv₁⟩ := stable_quiet.later ⟨hq, hinv⟩ h₁
  split
  · exact meets_raise
  · next row hrow =>
    have hg₂ := stable_granted.later (granted_of_challenge hq₁ hinv₁ hrow) h₂
    split
    · exact meets_update fun s₃ _ => meets_commit .dropped meets_raise
    · refine check_keeps env stable_granted _ _ hg₂ fun ipRetry s₃ hg₃ => ?_
      refine check_keeps env stable_granted _ _ hg₃ fun usernameRetry s₄ hg₄ => ?_
      split
      · exact meets_raise
      split
      · exact meets_raise
      split
      · exact meets_raise
      rcases hstored : row.user.totpSecret with _ | stored
      · exact meets_update fun s₅ _ => meets_commit .dropped meets_raise
      · simp only [AuthEnv.resolveUserTotpSecret]
        split
        · exact meets_update fun s₅ _ => meets_commit .dropped meets_raise
        next hne =>
        split
        · next hnone =>
          simp only [bind_assoc]
          refine meets_update fun s₅ h₅ => meets_update fun s₆ h₆ => ?_
          cases h₆
          refine meets_commit (.reenrolled row.user.id ?_) meets_raise
          refine (stable_granted.later hg₄ h₅).unreadable ?_
          rintro ⟨stored', secret, wasEncrypted, heq, -, hdecrypt, -⟩
          cases hstored.symm.trans heq
          cases hnone.symm.trans hdecrypt
        next secret wasEncrypted hdecrypt =>
        split
        · exact meets_update fun s₅ _ => meets_commit .dropped meets_raise
        next hsecret =>
        have hreadable : Readable env row.user :=
          ⟨stored, secret, wasEncrypted, hstored, hne, hdecrypt, hsecret⟩
        split
        · exact checkTotp_keeps env ipLimiter usernameLimiter req row.user _ hg₄
            hreadable (.inl rfl) rfl
        · simp only [bind_assoc]
          refine meets_input fun s₅ salt h₅ => meets_update fun s₆ h₆ => ?_
          have hg₆ := stable_granted.later (stable_granted.later hg₄ h₅) h₆
          exact checkTotp_keeps env ipLimiter usernameLimiter req row.user _ hg₆ hreadable
            (.inr ⟨_, rfl⟩) rfl

end Requests

end SecondFactor
