/-
The one-time law of the second factor.

What is recorded of the accepted factors, and what the tables keep of them.

* `Lawful` — every factor that was accepted is spent, and no two acceptances share one;
* `Derived` — the rows of a state are those of the first one, and so the user of a challenge or of a
  recovery code is the same all the time;
* `Readable` — the secret of a user can be decrypted, as it must be for a login;
* `Fresh` — an acceptance that shares nothing with those before it.
-/
import Elvern.Login

open Tables Statements Statements.Program

namespace SecondFactor

/-! ### The one-time law -/

/-- The user row has no second factor any more. -/
def Unenrolled (u : UserRow) : Prop := u.totpSecret = none ∧ u.totpLastUsedWindow = none

/-- From the row `e` to the later row `l` the last used window does not go back; it is
dropped only together with the secret that it belongs to. -/
structure WindowKept (e l : UserRow) : Prop where
  window : ∀ w, e.totpLastUsedWindow = some w →
    (∃ w', l.totpLastUsedWindow = some w' ∧ w ≤ w') ∨ Unenrolled l
  unenrolled : Unenrolled e → Unenrolled l

/-- Every later user row comes from an earlier one in `WindowKept`. -/
def WindowsKept (earlier later : AuthDb) : Prop :=
  ∀ l ∈ later.users.rows, ∃ e ∈ earlier.users.rows, e.id = l.id ∧ WindowKept e l

/-- Every factor that was accepted is spent. -/
structure Spent (s : AuthDb) : Prop where
  challenge : ∀ a ∈ s.acceptances, ∀ c ∈ s.loginChallenges,
    c.challengeTokenHash ≠ a.challengeTokenHash
  window : ∀ a ∈ s.acceptances, ∀ w, a.factor = .window w → ∀ u ∈ s.users.rows, u.id = a.userId →
    (∃ w', u.totpLastUsedWindow = some w' ∧ w ≤ w') ∨ Unenrolled u
  recovery : ∀ a ∈ s.acceptances, ∀ c, a.factor = .recovery c →
    ∀ r ∈ s.recoveryCodes.rows, r.id = c → r.usedAt ≠ none

/-- Two acceptances share no challenge, no window of a user and no recovery code. -/
structure Disjoint (a b : Acceptance) : Prop where
  challenge : a.challengeTokenHash ≠ b.challengeTokenHash
  window : ∀ w, a.factor = .window w → b.factor = .window w → a.userId ≠ b.userId
  recovery : ∀ c, a.factor = .recovery c → b.factor ≠ .recovery c

/-- The invariant of the committed states. -/
structure Lawful (s : AuthDb) : Prop where
  spent : Spent s
  disjoint : s.acceptances.Pairwise Disjoint
  issuedOnce : (s.issued.map IssuedSession.request).Nodup
  issuedAccepted : ∀ x ∈ s.issued, ∃ a ∈ s.acceptances,
    a.request = x.request ∧ a.challengeTokenHash = x.challengeTokenHash

/-! ### Where the rows come from -/

/-- The user of the challenge with this hash. -/
def challengeUser (s : AuthDb) (hash : String) : Option ℕ :=
  (s.loginChallenges.find? fun c => c.challengeTokenHash == hash).map LoginChallengeRow.userId

/-- The challenge and the recovery code of an acceptance are its user's. -/
structure Sourced (db : AuthDb) (a : Acceptance) : Prop where
  challenge : challengeUser db a.challengeTokenHash = some a.userId
  code : ∀ c, a.factor = .recovery c →
    ∃ r₀ ∈ db.recoveryCodes.rows, r₀.id = c ∧ r₀.userId = a.userId

/-- The challenges, the recovery codes and the acceptances of `s` go back to the first state
`db`. -/
structure Derived (db s : AuthDb) : Prop where
  user : ∀ hash userId, challengeUser s hash = some userId → challengeUser db hash = some userId
  code : ∀ r ∈ s.recoveryCodes.rows, ∃ r₀ ∈ db.recoveryCodes.rows, r₀.id = r.id ∧
    r₀.userId = r.userId
  accepted : ∀ a ∈ s.acceptances, Sourced db a

/-- What holds of the committed states. -/
structure Inv (db s : AuthDb) : Prop where
  lawful : Lawful s
  derived : Derived db s

/-- The stored secret of the user can be read. -/
def Readable (env : AuthEnv) (u : UserRow) : Prop :=
  ∃ stored secret wasEncrypted, u.totpSecret = some stored ∧ stored ≠ "" ∧
    env.decryptAtRest stored = some (secret, wasEncrypted) ∧ secret ≠ ""

/-- The acceptance `a` shares nothing with those before it, and its user is as the request has
read. -/
structure Fresh (env : AuthEnv) (s : AuthDb) (a : Acceptance) : Prop where
  challenge : ∀ b ∈ s.acceptances, b.challengeTokenHash ≠ a.challengeTokenHash
  user : ∃ e ∈ s.users.rows, e.id = a.userId ∧ Readable env e ∧
    ∀ w, a.factor = .window w → ∀ last, e.totpLastUsedWindow = some last → last < w
  recovery : ∀ c, a.factor = .recovery c → ∀ b ∈ s.acceptances, b.factor ≠ .recovery c

/-- The acceptance that a commit from `s` to `u` adds. -/
def newAcceptance (s u : AuthDb) : Option Acceptance :=
  if s.acceptances.length < u.acceptances.length then u.acceptances.head? else none

theorem WindowKept.refl (u : UserRow) : WindowKept u u :=
  ⟨fun w hw => .inl ⟨w, hw, le_refl w⟩, id⟩

theorem WindowKept.trans {e m l : UserRow} (h₁ : WindowKept e m) (h₂ : WindowKept m l) :
    WindowKept e l := by
  refine ⟨fun w hw => ?_, fun he => h₂.unenrolled (h₁.unenrolled he)⟩
  rcases h₁.window w hw with ⟨w', hw', hle⟩ | hun
  · rcases h₂.window w' hw' with ⟨w'', hw'', hle'⟩ | hun
    · exact .inl ⟨w'', hw'', hle.trans hle'⟩
    · exact .inr hun
  · exact .inr (h₂.unenrolled hun)

theorem WindowsKept.trans {s t u : AuthDb} (h₁ : WindowsKept s t) (h₂ : WindowsKept t u) :
    WindowsKept s u := by
  intro l hl
  obtain ⟨m, hm, hid, hk⟩ := h₂ l hl
  obtain ⟨e, he, hid', hk'⟩ := h₁ m hm
  exact ⟨e, he, hid'.trans hid, hk'.trans hk⟩

theorem WindowsKept.of_users {s u : AuthDb} (h : u.users = s.users) : WindowsKept s u := by
  intro l hl
  exact ⟨l, by rw [← h]; exact hl, rfl, .refl l⟩

theorem Readable.enrolled {env : AuthEnv} {u : UserRow} (h : Readable env u) : ¬ Unenrolled u := by
  obtain ⟨stored, -, -, hstored, -⟩ := h
  intro hun
  rw [hun.1] at hstored
  cases hstored

/-- A fresh acceptance is apart from those before it. -/
theorem Fresh.disjoint {env : AuthEnv} {s : AuthDb} {a b : Acceptance} (ha : Fresh env s a)
    (hs : Spent s) (hb : b ∈ s.acceptances) : Disjoint a b := by
  refine ⟨(ha.challenge b hb).symm, fun w haw hbw hid => ?_, fun c hc => ha.recovery c hc b hb⟩
  obtain ⟨e, he, heid, hreadable, hlater⟩ := ha.user
  rcases hs.window b hb w hbw e he (heid.trans hid) with ⟨w', hw', hle⟩ | hun
  · exact absurd (hlater w haw w' hw') (not_lt.mpr hle)
  · exact hreadable.enrolled hun

/-- Kept rows keep an accepted window spent. -/
theorem window_spent_of_kept {s u : AuthDb} (h : WindowsKept s u) {a : Acceptance} {w : ℤ}
    (hs : ∀ e ∈ s.users.rows, e.id = a.userId →
      (∃ w', e.totpLastUsedWindow = some w' ∧ w ≤ w') ∨ Unenrolled e) :
    ∀ l ∈ u.users.rows, l.id = a.userId →
      (∃ w', l.totpLastUsedWindow = some w' ∧ w ≤ w') ∨ Unenrolled l := by
  intro l hl hid
  obtain ⟨e, he, heid, hk⟩ := h l hl
  rcases hs e he (heid.trans hid) with ⟨w', hw', hle⟩ | hun
  · rcases hk.window w' hw' with ⟨w'', hw'', hle'⟩ | hun
    · exact .inl ⟨w'', hw'', hle.trans hle'⟩
    · exact .inr hun
  · exact .inr (hk.unenrolled hun)

/-- A commit that adds no acceptance and no user, code or challenge keeps the law. -/
theorem Lawful.of_subset {s u : AuthDb} (h : Lawful s) (hk : WindowsKept s u)
    (hc : ∀ c ∈ u.loginChallenges, c ∈ s.loginChallenges)
    (hr : ∀ r ∈ u.recoveryCodes.rows, r ∈ s.recoveryCodes.rows)
    (ha : u.acceptances = s.acceptances) (hi : u.issued = s.issued) : Lawful u where
  spent := by
    refine ⟨?_, ?_, ?_⟩ <;> rw [ha]
    · exact fun a ha c hc' => h.spent.challenge a ha c (hc c hc')
    · exact fun a ha w hw => window_spent_of_kept hk (h.spent.window a ha w hw)
    · exact fun a ha c hf r hr' => h.spent.recovery a ha c hf r (hr r hr')
  disjoint := by
    rw [ha]
    exact h.disjoint
  issuedOnce := by
    rw [hi]
    exact h.issuedOnce
  issuedAccepted := by
    rw [hi, ha]
    exact h.issuedAccepted

theorem lawful_unrecorded (db : AuthDb) : Lawful db.unrecorded where
  spent := by constructor <;> simp [AuthDb.unrecorded]
  disjoint := List.Pairwise.nil
  issuedOnce := List.nodup_nil
  issuedAccepted := by simp [AuthDb.unrecorded]

theorem inv_unrecorded (db : AuthDb) : Inv db.unrecorded db.unrecorded where
  lawful := lawful_unrecorded db
  derived := ⟨fun _ _ h => h, fun r hr => ⟨r, hr, rfl, rfl⟩, fun _ ha => by cases ha⟩

/-- Rows that were there before, and the acceptances that were there before. -/
theorem Derived.of_subset {db s u : AuthDb} (h : Derived db s)
    (huser : ∀ hash userId, challengeUser u hash = some userId → challengeUser s hash = some userId)
    (hcode : ∀ r ∈ u.recoveryCodes.rows, ∃ r' ∈ s.recoveryCodes.rows, r'.id = r.id ∧
      r'.userId = r.userId)
    (haccepted : ∀ a ∈ u.acceptances, a ∈ s.acceptances ∨ Sourced db a) : Derived db u where
  user hash userId hu := h.user hash userId (huser hash userId hu)
  code r hr := by
    obtain ⟨r', hr', hid, hof⟩ := hcode r hr
    obtain ⟨r₀, hr₀, hid₀, hof₀⟩ := h.code r' hr'
    exact ⟨r₀, hr₀, hid₀.trans hid, hof₀.trans hof⟩
  accepted a ha := (haccepted a ha).elim (h.accepted a) id

/-- A deleted challenge has no user, and the others keep theirs. -/
theorem challengeUser_deleteChallenge {s : AuthDb} {hash' hash : String} {userId : ℕ}
    (h : challengeUser (s.deleteChallenge hash') hash = some userId) :
    challengeUser s hash = some userId := by
  obtain ⟨c, hc, hid⟩ := Option.map_eq_some_iff.mp h
  rw [AuthDb.deleteChallenge, List.find?_filter] at hc
  by_cases heq : hash = hash'
  · subst heq
    have hfound := List.find?_some hc
    simp at hfound
  · refine Option.map_eq_some_iff.mpr ⟨c, hc ▸ ?_, hid⟩
    congr 1
    funext c'
    by_cases hc' : c'.challengeTokenHash = hash
    · simp [hc', heq]
    · simp [hc']

end SecondFactor
