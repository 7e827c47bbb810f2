/-
The second factor under concurrency.

`login_totp` reads the challenge, the last TOTP window and the recovery code outside a
transaction, and its later writes do not look at them again.  Any number of requests run
interleaved, statement by statement:

* `Inv.commit` — the one-time law is kept by a commit whose acceptance is fresh;
* `rules` — an acceptance is fresh if no other request accepted a factor of the user since the
  challenge was read;
* `secondFactor_once` — in every run in which no two acceptances of a user overlap so, each
  challenge, window and recovery code is good for one acceptance, each challenge for one
  session, and the last used window never goes back;
* `secondFactor_reused` — two requests that overlap get two sessions out of one challenge
  and one code.
-/
import Elvern.LoginCommits
import Elvern.Overlaps

open Tables Statements Statements.Program

namespace SecondFactor

/-! ### The state after a commit -/

/-- A user row after the acceptance of `factor` for `userId`. -/
structure UserAfter (userId : ℕ) (factor : Factor) (e l : UserRow) : Prop where
  id : e.id = l.id
  other : l.id ≠ userId → l = e
  window : l.id = userId → ∀ w, factor = .window w → l.totpLastUsedWindow = some w
  recovery : l.id = userId → ∀ c, factor = .recovery c →
    l.totpLastUsedWindow = e.totpLastUsedWindow

/-- A recovery row after the acceptance of `factor`. -/
structure CodeAfter (factor : Factor) (e l : RecoveryCodeRow) : Prop where
  id : e.id = l.id
  kept : e.usedAt ≠ none → l.usedAt ≠ none
  used : factor = .recovery l.id → l.usedAt ≠ none

theorem userAfter_of_mem {s m : AuthDb} {userId : ℕ} {factor : Factor}
    (h : Prepared s userId factor m) :
    ∀ l ∈ (storeFactor m userId factor).users.rows,
      ∃ e ∈ s.users.rows, UserAfter userId factor e l := by
  intro l hl
  cases h with
  | window =>
    obtain ⟨e, he, rfl⟩ := List.mem_map.mp hl
    refine ⟨e, he, ?_⟩
    by_cases hid : e.id = userId <;> constructor <;> simp_all
  | windowStored stored =>
    obtain ⟨e', he', rfl⟩ := List.mem_map.mp hl
    obtain ⟨e, he, rfl⟩ := List.mem_map.mp he'
    refine ⟨e, he, ?_⟩
    by_cases hid : e.id = userId <;> constructor <;> simp_all
  | recovery now => exact ⟨l, hl, by constructor <;> simp⟩
  | recoveryStored now stored =>
    obtain ⟨e, he, rfl⟩ := List.mem_map.mp hl
    refine ⟨e, he, ?_⟩
    by_cases hid : e.id = userId <;> constructor <;> simp_all

theorem codeAfter_use (c : ℕ) (now : Time) (e : RecoveryCodeRow) :
    CodeAfter (.recovery c) e (if e.id == c then { e with usedAt := some now } else e) := by
  by_cases hid : e.id = c
  · rw [if_pos (by simpa using hid)]
    exact ⟨rfl, fun _ => by simp, fun _ => by simp⟩
  · rw [if_neg (by simpa using hid)]
    refine ⟨rfl, id, fun hc => ?_⟩
    cases hc
    exact absurd rfl hid

theorem codeAfter_of_mem {s m : AuthDb} {userId : ℕ} {factor : Factor}
    (h : Prepared s userId factor m) :
    ∀ l ∈ (storeFactor m userId factor).recoveryCodes.rows,
      ∃ e ∈ s.recoveryCodes.rows, CodeAfter factor e l := by
  intro l hl
  cases h with
  | window => exact ⟨l, hl, rfl, id, by simp⟩
  | windowStored stored => exact ⟨l, hl, rfl, id, by simp⟩
  | @recovery c now =>
    obtain ⟨e, he, rfl⟩ := List.mem_map.mp hl
    exact ⟨e, he, codeAfter_use c now e⟩
  | @recoveryStored c now stored =>
    obtain ⟨e, he, rfl⟩ := List.mem_map.mp hl
    exact ⟨e, he, codeAfter_use c now e⟩

theorem acceptances_accepted {s m : AuthDb} {hash : String} {userId : ℕ} {factor : Factor}
    (a : Acceptance) (hm : Prepared s userId factor m) :
    (((storeFactor m userId factor).deleteChallenge hash).accept a).acceptances =
    a :: s.acceptances := by
  show a :: (storeFactor m userId factor).acceptances = _
  rw [(storeFactor_record m userId factor).1, (prepared_record hm).1]

/-- The acceptance of an accepting commit. -/
theorem newAcceptance_accepted {s m : AuthDb} {i : ℕ} {hash : String} {userId : ℕ} {factor : Factor}
    (hm : Prepared s userId factor m) :
    newAcceptance s (((storeFactor m userId factor).deleteChallenge hash).accept
      { request := i, challengeTokenHash := hash, userId, factor }) =
        some { request := i, challengeTokenHash := hash, userId, factor } := by
  rw [newAcceptance, acceptances_accepted _ hm, if_pos (List.length_cons ▸ Nat.lt_succ_self _),
    List.head?_cons]

/-- What an accepted factor means for the rows, for a fresh acceptance. -/
theorem windowKept_of_fresh {env : AuthEnv} {s : AuthDb} {a : Acceptance} (h : Fresh env s a)
    {e l : UserRow} (he : e ∈ s.users.rows) (hl : UserAfter a.userId a.factor e l) :
    WindowKept e l := by
  by_cases hid : l.id = a.userId
  · obtain ⟨e', he', hid', hreadable, hlater⟩ := h.user
    cases s.users.key_inj he he' (hl.id.trans (hid.trans hid'.symm))
    refine ⟨fun w hw => .inl ?_, fun hun => absurd hun hreadable.enrolled⟩
    rcases hf : a.factor with w' | c
    · exact ⟨w', hl.window hid w' hf, (hlater w' hf w hw).le⟩
    · exact ⟨w, (hl.recovery hid c hf).trans hw, le_refl w⟩
  · rw [hl.other hid]
    exact .refl e

/-- A fresh acceptance keeps the law. -/
theorem Lawful.accepted {env : AuthEnv} {s m : AuthDb} (h : Lawful s) {i : ℕ} {hash : String}
    {userId : ℕ} {factor : Factor} (hm : Prepared s userId factor m)
    (hfresh : Fresh env s { request := i, challengeTokenHash := hash, userId, factor }) :
    Lawful (((storeFactor m userId factor).deleteChallenge hash).accept
        { request := i, challengeTokenHash := hash, userId, factor }) ∧
      WindowsKept s (((storeFactor m userId factor).deleteChallenge hash).accept
        { request := i, challengeTokenHash := hash, userId, factor }) := by
  set a : Acceptance := { request := i, challengeTokenHash := hash, userId, factor } with hadef
  set u := ((storeFactor m userId factor).deleteChallenge hash).accept a with hu
  have hacc : u.acceptances = a :: s.acceptances := acceptances_accepted a hm
  have hissued : u.issued = s.issued :=
    (storeFactor_record m userId factor).2.trans (prepared_record hm).2
  have hchallenges : u.loginChallenges =
      s.loginChallenges.filter fun c => c.challengeTokenHash != hash := by
    cases hm <;> rfl
  have husers : ∀ l ∈ u.users.rows, ∃ e ∈ s.users.rows, UserAfter userId factor e l :=
    userAfter_of_mem hm
  have hcodes : ∀ l ∈ u.recoveryCodes.rows, ∃ e ∈ s.recoveryCodes.rows, CodeAfter factor e l :=
    codeAfter_of_mem hm
  have hkept : WindowsKept s u := by
    intro l hl
    obtain ⟨e, he, hel⟩ := husers l hl
    exact ⟨e, he, hel.id, windowKept_of_fresh hfresh he hel⟩
  refine ⟨⟨⟨?_, ?_, ?_⟩, ?_, ?_, ?_⟩, hkept⟩
  · intro b hb c hc
    rw [hchallenges, List.mem_filter] at hc
    rw [hacc] at hb
    rcases List.mem_cons.mp hb with rfl | hb
    · simpa using hc.2
    · exact h.spent.challenge b hb c hc.1
  · intro b hb w hw
    rw [hacc] at hb
    rcases List.mem_cons.mp hb with rfl | hb
    · intro l hl hid
      obtain ⟨e, he, hel⟩ := husers l hl
      exact .inl ⟨w, hel.window hid w hw, le_refl w⟩
    · exact window_spent_of_kept hkept (h.spent.window b hb w hw)
  · intro b hb c hc r hr hrc
    obtain ⟨e, he, her⟩ := hcodes r hr
    rw [hacc] at hb
    rcases List.mem_cons.mp hb with rfl | hb
    · exact her.used (by rw [hrc]; exact hc)
    · exact her.kept (h.spent.recovery b hb c hc e he (her.id.trans hrc))
  · rw [hacc]
    exact List.pairwise_cons.mpr ⟨fun b hb => hfresh.disjoint h.spent hb, h.disjoint⟩
  · rw [hissued]
    exact h.issuedOnce
  · rw [hissued, hacc]
    intro x hx
    obtain ⟨b, hb, hreq⟩ := h.issuedAccepted x hx
    exact ⟨b, List.mem_cons_of_mem _ hb, hreq⟩

/-- **One commit keeps the one-time law**, when the acceptance that it adds is fresh. -/
theorem Lawful.commit {env : AuthEnv} {db s u : AuthDb} {i : ℕ} {hash : String} (h : Lawful s)
    (hc : Commits env db True i hash s u) : Lawful u ∧ WindowsKept s u := by
  cases hc with
  | dropped =>
    have hk : WindowsKept s (s.deleteChallenge hash) := .of_users rfl
    exact ⟨h.of_subset hk (fun c hc => (List.mem_filter.mp hc).1) (fun _ hr => hr) rfl rfl, hk⟩
  | reenrolled userId _ =>
    have hk : WindowsKept s ((s.clearUserTotpForReenrollment userId).deleteChallenge hash) := by
      intro l hl
      obtain ⟨e, he, rfl⟩ := List.mem_map.mp hl
      refine ⟨e, he, ?_, ?_⟩
      · split <;> rfl
      · split
        · exact ⟨fun _ _ => .inr ⟨rfl, rfl⟩, fun _ => ⟨rfl, rfl⟩⟩
        · exact .refl e
    exact ⟨h.of_subset hk (fun c hc => (List.mem_filter.mp hc).1)
      (fun r hr => (List.mem_filter.mp hr).1) rfl rfl, hk⟩
  | apart hf hi =>
    have hk : WindowsKept s u := .of_users hf.users
    refine ⟨h.of_subset hk ?_ ?_ hf.acceptances hi, hk⟩
    · exact fun c hc => hf.loginChallenges ▸ hc
    · exact fun r hr => hf.recoveryCodes ▸ hr
  | accepted hq hm _ hfresh => exact h.accepted hm (hfresh trivial)
  | issued hacc hf hi =>
    have hk : WindowsKept s u := .of_users hf.users
    refine ⟨⟨⟨?_, ?_, ?_⟩, ?_, ?_, ?_⟩, hk⟩
    · rw [hf.acceptances, hf.loginChallenges]
      exact h.spent.challenge
    · rw [hf.acceptances, hf.users]
      exact h.spent.window
    · rw [hf.acceptances, hf.recoveryCodes]
      exact h.spent.recovery
    · rw [hf.acceptances]
      exact h.disjoint
    · rw [hi, List.map_cons, List.nodup_cons]
      refine ⟨fun hmem => ?_, h.issuedOnce⟩
      obtain ⟨x, hx, hreq⟩ := List.mem_map.mp hmem
      exact hacc.issued x hx hreq
    · rw [hi, hf.acceptances]
      intro x hx
      rcases List.mem_cons.mp hx with rfl | hx
      · exact hacc.acceptance
      · exact h.issuedAccepted x hx

/-- One commit adds no challenge and no recovery code, and its acceptance is of its own user. -/
theorem Derived.commit {env : AuthEnv} {db s u : AuthDb} {calm : Prop} {i : ℕ} {hash : String}
    (h : Derived db s) (hc : Commits env db calm i hash s u) : Derived db u := by
  have hsame : ∀ r ∈ s.recoveryCodes.rows, ∃ r' ∈ s.recoveryCodes.rows, r'.id = r.id ∧
      r'.userId = r.userId :=
    fun r hr => ⟨r, hr, rfl, rfl⟩
  cases hc with
  | dropped =>
    exact h.of_subset (fun _ _ hu => challengeUser_deleteChallenge hu) hsame fun _ ha => .inl ha
  | reenrolled userId _ =>
    exact h.of_subset (fun _ _ hu => challengeUser_deleteChallenge hu)
      (fun r hr => hsame r (List.mem_filter.mp hr).1) fun _ ha => .inl ha
  | apart hf hi =>
    refine h.of_subset (fun _ _ hu => ?_) (fun r hr => hsame r (hf.recoveryCodes ▸ hr)) fun _ ha =>
      .inl (hf.acceptances ▸ ha)
    rwa [challengeUser, hf.loginChallenges] at hu
  | @accepted m userId factor hq hm hsource _ =>
    refine h.of_subset (fun hash' _ hu => ?_) (fun r hr => ?_) fun a ha => ?_
    · have hstored : challengeUser ((storeFactor m userId factor).deleteChallenge hash) hash' =
          challengeUser (s.deleteChallenge hash) hash' := by
        cases hm <;> rfl
      exact challengeUser_deleteChallenge (hstored.symm.trans hu)
    · have hcode : ∀ c now, ∀ r ∈ (s.useRecoveryCode c now).recoveryCodes.rows,
          ∃ r' ∈ s.recoveryCodes.rows, r'.id = r.id ∧ r'.userId = r.userId := by
        intro c now r hr
        obtain ⟨e, he, rfl⟩ := List.mem_map.mp hr
        exact ⟨e, he, by split <;> rfl, by split <;> rfl⟩
      cases hm with
      | window => exact hsame r hr
      | windowStored stored => exact hsame r hr
      | recovery now => exact hcode _ now r hr
      | recoveryStored now stored => exact hcode _ now r hr
    · rw [acceptances_accepted _ hm] at ha
      rcases List.mem_cons.mp ha with rfl | ha
      · exact .inr hsource
      · exact .inl ha
  | issued hacc hf hi =>
    refine h.of_subset (fun _ _ hu => ?_) (fun r hr => hsame r (hf.recoveryCodes ▸ hr)) fun _ ha =>
      .inl (hf.acceptances ▸ ha)
    rwa [challengeUser, hf.loginChallenges] at hu

theorem Inv.commit {env : AuthEnv} {db s u : AuthDb} {i : ℕ} {hash : String} (h : Inv db s)
    (hc : Commits env db True i hash s u) : Inv db u :=
  ⟨(h.lawful.commit hc).1, h.derived.commit hc⟩

/-! ### What a commit leaves to the others -/

section Others

variable {env : AuthEnv} {db s u : AuthDb} {calm : Prop} {i : ℕ} {hash : String}

/-- The row of another user is as before an acceptance. -/
theorem mem_users_of_ne {m : AuthDb} {userId : ℕ} {factor : Factor}
    (hm : Prepared s userId factor m) {e : UserRow} (he : e ∈ s.users.rows) (hne : e.id ≠ userId) :
    e ∈ (storeFactor m userId factor).users.rows := by
  have hwindow : ∀ (t : AuthDb) (w : ℤ), e ∈ t.users.rows →
      e ∈ (t.storeTotpWindow userId w).users.rows :=
    fun t w hmem => List.mem_map.mpr ⟨e, hmem, if_neg (by simpa using hne)⟩
  have hsecret : ∀ (t : AuthDb) (stored : String),
      e ∈ t.users.rows → e ∈ (t.storeTotpSecret userId stored).users.rows :=
    fun t stored hmem => List.mem_map.mpr ⟨e, hmem, if_neg (by simpa using hne)⟩
  cases hm with
  | window => exact hwindow s _ he
  | windowStored stored => exact hwindow _ _ (hsecret s stored he)
  | recovery now => exact he
  | recoveryStored now stored => exact hsecret s stored he

/-- Only an acceptance can change the row of a user whose secret can be read, and only its
user's. -/
theorem Commits.mem_users (hc : Commits env db calm i hash s u) {e : UserRow}
    (he : e ∈ s.users.rows)
    (hreadable : Readable env e) (hother : ∀ a, newAcceptance s u = some a → a.userId ≠ e.id) :
    e ∈ u.users.rows := by
  cases hc with
  | dropped => exact he
  | reenrolled userId unreadable =>
    refine List.mem_map.mpr ⟨e, he, if_neg ?_⟩
    intro hid
    exact unreadable e he (by simpa using hid) hreadable
  | apart hf _ => exact hf.users.symm ▸ he
  | @accepted m userId factor hq hm _ _ =>
    exact mem_users_of_ne hm he (hother _ (newAcceptance_accepted hm)).symm
  | issued _ hf _ => exact hf.users.symm ▸ he

/-- A commit adds the acceptance that it records, and no other. -/
theorem Commits.mem_acceptances (hc : Commits env db calm i hash s u) {a : Acceptance}
    (ha : a ∈ u.acceptances) : a ∈ s.acceptances ∨ newAcceptance s u = some a := by
  cases hc with
  | dropped => exact .inl ha
  | reenrolled userId _ => exact .inl ha
  | apart hf _ => exact .inl (hf.acceptances ▸ ha)
  | @accepted m userId factor hq hm _ _ =>
    rw [acceptances_accepted _ hm] at ha
    rcases List.mem_cons.mp ha with rfl | ha
    · exact .inr (newAcceptance_accepted hm)
    · exact .inl ha
  | issued _ hf _ => exact .inl (hf.acceptances ▸ ha)

/-- No commit makes a secret readable. -/
theorem Commits.readable (hc : Commits env db True i hash s u) {l : UserRow} (hl : l ∈ u.users.rows)
    (hreadable : Readable env l) : ∃ e ∈ s.users.rows, e.id = l.id ∧ Readable env e := by
  cases hc with
  | dropped => exact ⟨l, hl, rfl, hreadable⟩
  | reenrolled userId _ =>
    obtain ⟨e, he, rfl⟩ := List.mem_map.mp hl
    split at hreadable
    · obtain ⟨stored, -, -, hstored, -⟩ := hreadable
      cases hstored
    · next hid => exact ⟨e, he, by rw [if_neg hid], hreadable⟩
  | apart hf _ => exact ⟨l, hf.users ▸ hl, rfl, hreadable⟩
  | @accepted m userId factor hq hm _ hfresh =>
    obtain ⟨e, he, hafter⟩ := userAfter_of_mem hm l hl
    by_cases hid : l.id = userId
    · -- The user of the acceptance had a readable secret when it was checked.
      obtain ⟨e', he', hid', hread, -⟩ := (hfresh trivial).user
      exact ⟨e', he', hid'.trans hid.symm, hread⟩
    · exact ⟨e, he, hafter.id, hafter.other hid ▸ hreadable⟩
  | issued _ hf _ => exact ⟨l, hf.users ▸ hl, rfl, hreadable⟩

/-- A commit without an acceptance is the same where the others were not calm. -/
theorem Commits.calm_of_none (hc : Commits env db calm i hash s u)
    (hnone : newAcceptance s u = none) : Commits env db True i hash s u := by
  cases hc with
  | dropped => exact .dropped
  | reenrolled userId unreadable => exact .reenrolled userId unreadable
  | apart hf hi => exact .apart hf hi
  | accepted hq hm _ _ =>
    rw [newAcceptance_accepted hm] at hnone
    cases hnone
  | issued hacc hf hi => exact .issued hacc hf hi

/-- The acceptance of a commit is of the user of its challenge. -/
theorem Commits.challengeUser (hc : Commits env db calm i hash s u) {a : Acceptance}
    (ha : newAcceptance s u = some a) : challengeUser db hash = some a.userId := by
  have hold : u.acceptances = s.acceptances → newAcceptance s u = none := fun heq => by
    rw [newAcceptance, heq, if_neg (Nat.lt_irrefl _)]
  cases hc with
  | dropped => cases (hold rfl).symm.trans ha
  | reenrolled userId _ => cases (hold rfl).symm.trans ha
  | apart hf _ => cases (hold hf.acceptances).symm.trans ha
  | accepted hq hm hsource _ =>
    cases (newAcceptance_accepted hm).symm.trans ha
    exact hsource.challenge
  | issued _ hf _ => cases (hold hf.acceptances).symm.trans ha

end Others

/-! ### Runs -/

/-- The server on which the requests of `POST /login/totp` run. -/
abbrev LoginServer := Observed ℕ AuthDb Input PyError LoginAnswer

/-- Any number of requests, before their first statement. -/
def start (env : AuthEnv) (ipLimiter usernameLimiter : RateLimiter) (db : AuthDb)
    (requests : ℕ → TotpLoginRequest) : LoginServer :=
  Observed.init db.unrecorded fun i => env.loginTotp ipLimiter usernameLimiter i (requests i)

/-- Both commits accept a second factor, of one user. -/
def sameUser (b c : ℕ × AuthDb × AuthDb) : Bool :=
  match newAcceptance b.2.1 b.2.2, newAcceptance c.2.1 c.2.2 with
  | some a, some a' => a.userId == a'.userId
  | _, _ => false

/-- No acceptance is committed by a request that had begun before another request committed one of
the same user. -/
def Apart (o : LoginServer) (t : Turn ℕ Input) : Prop := Observed.Apart sameUser o t

instance (o : LoginServer) (t : Turn ℕ Input) : Decidable (Apart o t) :=
  inferInstanceAs (Decidable (Observed.Apart ..))

/-- The commit `b` accepts a factor of the user of a challenge. -/
def acceptsFor (db : AuthDb) (hash : String) (b : ℕ × AuthDb × AuthDb) : Prop :=
  ∃ a, newAcceptance b.2.1 b.2.2 = some a ∧ challengeUser db hash = some a.userId

/-- The requests follow the rules of overlapping requests. -/
theorem rules (env : AuthEnv) (ipLimiter usernameLimiter : RateLimiter) (db : AuthDb)
    (requests : ℕ → TotpLoginRequest) (hash : ℕ → String)
    (hhash : ∀ i, hash i = env.hashChallengeToken (requests i).challengeToken) :
    Observed.Rules Quiet (Inv db)
      (fun i => Rely env db False i (hash i)) (fun i => Commits env db False i (hash i))
      (fun i => Rely env db True i (hash i)) (fun i => Commits env db True i (hash i))
      (fun b i => acceptsFor db (hash i) b)
      fun i => env.loginTotp ipLimiter usernameLimiter i (requests i) where
  disturbed i s hs hq := by
    rw [hhash]
    exact loginTotp_meets env ipLimiter usernameLimiter (requests i) hq hs
  undisturbed i s hs hq := by
    rw [hhash]
    exact loginTotp_meets env ipLimiter usernameLimiter (requests i) hq hs
  inv _ _ _ hs hc := hs.commit hc
  start _ _ _ _ hij _ hc hq := hq.undisturbed (hc.undisturbed hij)
  rely _ _ _ _ hij hs hc :=
    ⟨hc.undisturbed hij, fun _ hl hr => hc.readable hl hr, hs.commit hc, False.elim⟩
  relyUndisturbed i j s u hij hs hc hleft := by
    have hother : ∀ a, newAcceptance s u = some a → challengeUser db (hash j) ≠ some a.userId :=
      fun a ha huser => hleft ⟨a, ha, huser⟩
    refine ⟨hc.undisturbed hij, fun _ hl hr => hc.readable hl hr, hs.commit hc,
      fun _ userId huser => ?_⟩
    refine ⟨fun a ha haid => ?_, fun e he heid hreadable => ?_⟩
    · rcases hc.mem_acceptances ha with hold | hnew
      · exact hold
      · exact absurd (haid ▸ huser) (hother a hnew)
    · refine hc.mem_users he hreadable fun a ha heq => hother a ha ?_
      rw [huser, heq, heid]

/-- The committed states of a run, the newest first. -/
def committedStates (srv : Server ℕ AuthDb Input PyError LoginAnswer) : List AuthDb :=
  srv.committed :: srv.history.map fun c => c.2.1

/-- The second factor is one-time in what was committed so far. -/
structure OneTime (srv : Server ℕ AuthDb Input PyError LoginAnswer) : Prop where
  session : ∀ hash,
    (srv.committed.issued.filter fun x => x.challengeTokenHash = hash).length ≤ 1
  window : ∀ userId w, (srv.committed.acceptances.filter fun a =>
    a.userId = userId ∧ a.factor = .window w).length ≤ 1
  recovery : ∀ c,
    (srv.committed.acceptances.filter fun a => a.factor = .recovery c).length ≤ 1
  lastUsedWindow : (committedStates srv).Pairwise fun later earlier => WindowsKept earlier later

/-- The windows are kept along the whole chain of commits. -/
theorem windowsKept_of_chain {env : AuthEnv} {db : AuthDb} (hdb : Inv db db) (hash : ℕ → String) :
    ∀ {history : List (ℕ × AuthDb × AuthDb)} {s : AuthDb}, Server.Chain db history s →
      (∀ c ∈ history, Commits env db True c.1 (hash c.1) c.2.1 c.2.2) →
      Inv db s ∧ (s :: history.map fun c => c.2.1).Pairwise
        fun later earlier => WindowsKept earlier later := by
  intro history
  induction history with
  | nil =>
    intro s hchain _
    cases hchain
    exact ⟨hdb, by simp⟩
  | cons c rest ih =>
    intro s hchain hcommits
    obtain ⟨rfl, hchain⟩ := hchain
    obtain ⟨hinv, hpairs⟩ := ih hchain fun c hc => hcommits c (List.mem_cons_of_mem _ hc)
    have hcommit := hcommits c List.mem_cons_self
    have hkept := (hinv.lawful.commit hcommit).2
    refine ⟨hinv.commit hcommit, List.pairwise_cons.mpr ⟨fun earlier he => ?_, hpairs⟩⟩
    rcases List.mem_cons.mp he with rfl | he
    · exact hkept
    · exact (List.rel_of_pairwise_cons hpairs he).trans hkept

/-- Acceptances without a common factor, and sessions that rest on them. -/
theorem Lawful.sessions_once {s : AuthDb} (h : Lawful s) (hash : String) :
    (s.issued.filter fun x => x.challengeTokenHash = hash).length ≤ 1 := by
  have hreq : s.issued.Pairwise fun x y => x.request ≠ y.request :=
    List.pairwise_map.mp h.issuedOnce
  refine filter_length_le_one
    (R := fun x y => x.request ≠ y.request ∧ x ∈ s.issued ∧ y ∈ s.issued) ?_ ?_
  · exact hreq.imp_of_mem fun hx hy hxy => ⟨hxy, hx, hy⟩
  · rintro x y hx hy ⟨hne, hxs, hys⟩
    obtain ⟨a, ha, hax, hah⟩ := h.issuedAccepted x hxs
    obtain ⟨b, hb, hby, hbh⟩ := h.issuedAccepted y hys
    simp only [decide_eq_true_eq] at hx hy
    have hnodup : (s.acceptances.map Acceptance.challengeTokenHash).Nodup :=
      List.pairwise_map.mpr (h.disjoint.imp fun hd => hd.challenge)
    have hab : a = b :=
      List.inj_on_of_nodup_map hnodup ha hb (by rw [hah, hbh, hx, hy])
    exact hne (by rw [← hax, ← hby, hab])

/-- **The second factor is one-time** in every run in which no request commits an acceptance after
another one has committed an acceptance of the same user since its own challenge was read: each
challenge yields at most one session, each window of a user and each recovery code at most one
acceptance, and no last used window goes back. -/
theorem secondFactor_once (env : AuthEnv) (ipLimiter usernameLimiter : RateLimiter) (db : AuthDb)
    (requests : ℕ → TotpLoginRequest) {o : LoginServer}
    (hrun : Runs.Reach Observed.step Apart (start env ipLimiter usernameLimiter db requests) o) :
    OneTime o.server := by
  have hkept := Observed.Kept.reach
    (rules env ipLimiter usernameLimiter db.unrecorded requests _ fun _ => rfl) (inv_unrecorded db)
    (fun i => ⟨by simp [AuthDb.unrecorded], by simp [AuthDb.unrecorded]⟩)
    (fun o t i s u hok hcommit _ hc => ?_) hrun
  · obtain ⟨hinv, hwindows⟩ := windowsKept_of_chain (inv_unrecorded db)
      (fun i => env.hashChallengeToken (requests i).challengeToken) hkept.chain hkept.good
    have hdisjoint := hinv.lawful.disjoint
    refine ⟨hinv.lawful.sessions_once, fun userId w => ?_, fun c => ?_, hwindows⟩
    · refine filter_length_le_one hdisjoint fun a b ha hb hab => ?_
      simp only [decide_eq_true_eq] at ha hb
      exact hab.window w ha.2 hb.2 (ha.1.trans hb.1.symm)
    · refine filter_length_le_one hdisjoint fun a b ha hb hab => ?_
      simp only [decide_eq_true_eq] at ha hb
      exact hab.recovery c ha hb
  · -- A commit without an acceptance needs no calm; one with an acceptance has it by the schedule.
    cases hnew : newAcceptance s u with
    | none => exact .inr (hc.calm_of_none hnew)
    | some a =>
      refine .inl fun b hb hne hharm => ?_
      obtain ⟨a', ha', huser⟩ := hharm
      have hsame : sameUser b (i, s, u) = true := by
        rw [sameUser, ha', hnew]
        rw [hc.challengeUser hnew, Option.some_inj] at huser
        exact beq_iff_eq.mpr huser.symm
      rw [hok _ hcommit b hb hne] at hsame
      cases hsame

/-! ### Two requests at once -/

/-- A user with the second factor enabled, and one open challenge. -/
def sampleDb : AuthDb :=
  { AuthDb.empty with
    users := AutoTable.empty.insert sampleUser sampleUser_id
    loginChallenges :=
      [{ challengeTokenHash := "auth.login_challenge:ch", userId := 1, createdAt := 2900,
         expiresAtUnix := 3200, ipAddress := "::1" }] }

/-- The same challenge and the same code, from every request. -/
def sampleRequests (_ : ℕ) : TotpLoginRequest :=
  { challengeToken := "ch", code := "123456", ipAddress := "::1" }

/-- `n` statements of request `i` at second 3010. -/
def statements (i n : ℕ) : List (Turn ℕ Input) :=
  List.replicate n (.run i { now := 3010, fresh := if i = 0 then "a" else "b" })

def sampleStart : LoginServer :=
  start sampleEnv loginIpRateLimiter loginUsernameRateLimiter sampleDb sampleRequests

/-- One request, and then another one with the same challenge and code, which is refused. -/
theorem secondFactor_once_serially :
    ∃ o, Runs.runFrom (Runs.guarded Observed.step fun o t => decide (Apart o t)) sampleStart
        (statements 0 18 ++ statements 1 2) = some o ∧ o.server.committed.issued.length = 1 ∧
      (o.server.remaining 0).finished = true ∧ (o.server.remaining 1).finished = true ∧
        OneTime o.server := by
  have hrun : ((Runs.runFrom (Runs.guarded Observed.step fun o t => decide (Apart o t)) sampleStart
      (statements 0 18 ++ statements 1 2)).any fun o =>
        decide (o.server.committed.issued.length = 1 ∧ (o.server.remaining 0).finished = true ∧
          (o.server.remaining 1).finished = true)) = true := by
    decide +kernel
  obtain ⟨o, ho, hprop⟩ := (Option.any_eq_true _ _).mp hrun
  obtain ⟨hissued, hfirst, hsecond⟩ := of_decide_eq_true hprop
  have hreach : Runs.Reach Observed.step Apart sampleStart o :=
    (Runs.reach_of_guarded (Runs.reach_of_runFrom ho)).mono fun _ _ => of_decide_eq_true
  exact ⟨o, ho, hissued, hfirst, hsecond, secondFactor_once _ _ _ _ _ hreach⟩

/-- Both requests read the challenge and verify the code before either of them writes. -/
theorem secondFactor_reused :
    ¬ ∀ (env : AuthEnv) (ipLimiter usernameLimiter : RateLimiter) (db : AuthDb)
      (requests : ℕ → TotpLoginRequest) (o : LoginServer),
      Runs.Reach Observed.step (fun _ _ => True)
        (start env ipLimiter usernameLimiter db requests) o → OneTime o.server := by
  intro h
  have hrun : ((Runs.runFrom Observed.step sampleStart
      (statements 0 7 ++ statements 1 7 ++ statements 0 11 ++ statements 1 11)).any fun o =>
        decide (1 < (o.server.committed.issued.filter fun x =>
          x.challengeTokenHash = "auth.login_challenge:ch").length)) = true := by
    decide +kernel
  obtain ⟨o, ho, htwo⟩ := (Option.any_eq_true _ _).mp hrun
  rw [decide_eq_true_eq] at htwo
  have hone := (h _ _ _ _ _ o (Runs.reach_of_runFrom ho)).session "auth.login_challenge:ch"
  exact absurd htwo (not_lt.mpr hone)

end SecondFactor
