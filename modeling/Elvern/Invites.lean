/-
Invite codes (`account_access_service.py`).

`create_user_with_invite` reads the invite outside a transaction and its later `UPDATE`
does not look at it again; `revoke_invite_code` does the same.  Any number of calls run
interleaved, statement by statement:

* `invite_meets` — what a call commits, whatever the others commit between its statements, and that
  it finds its invite open where they leave it alone;
* `invite_once` — in every run in which no other call commits on an invite between a call's read of
  it and its commit, a code creates at most one account, none after its revocation, no invite is
  both used and revoked, and a call that raises has committed nothing;
* `invite_reused` — two calls that overlap create two accounts with one code.
-/
import Elvern.AuthEnv
import Elvern.Overlaps

open Tables Statements Statements.Program PyText

/-- The arguments of `create_user_with_invite`. -/
structure SignupRequest where
  username : String
  password : String
  confirmPassword : String
  inviteCode : String

namespace AuthDb

/-- `SELECT … FROM invite_codes WHERE code_hash = ?` -/
def inviteByHash (db : AuthDb) (hash : String) : Option InviteCodeRow :=
  db.inviteCodes.find fun r => r.codeHash == hash

/-- `SELECT … FROM invite_codes WHERE id = ?` -/
def inviteById (db : AuthDb) (id : ℕ) : Option InviteCodeRow :=
  db.inviteCodes.find fun r => r.id == id

/-- `INSERT INTO users`; the username is unique.  The number is the id of the new row. -/
def insertUser (db : AuthDb) (username passwordHash : String) (age : ℕ) :
    Except PyError (AuthDb × ℕ) :=
  if db.users.rows.any fun u => u.username == username then .error .integrityError
  else
    .ok
      ({ db with
          users := db.users.insert
            (fun id =>
              { id, username, passwordHash, role := .standardUser, enabled := true,
                totpSecret := none, totpEnabledAt := none, totpLastUsedWindow := none,
                totpSetupPromptEnabled := false, assistantBetaEnabled := false,
                ageCredential := age })
            fun _ => rfl },
        db.users.seq + 1)

/-- `UPDATE invite_codes SET used_at = ?, used_by_user_id = ? WHERE id = ?` -/
def useInvite (db : AuthDb) (id userId : ℕ) (now : Time) : AuthDb :=
  { db with
    inviteCodes := db.inviteCodes.updateWhere (fun r => r.id == id)
      (fun r => { r with usedAt := some now, usedByUserId := some userId }) fun _ => rfl }

/-- `UPDATE invite_codes SET revoked_at = ?, hidden_at = COALESCE(hidden_at, ?) WHERE id = ?` -/
def revokeInvite (db : AuthDb) (id : ℕ) (now : Time) : AuthDb :=
  { db with
    inviteCodes := db.inviteCodes.updateWhere (fun r => r.id == id)
      (fun r => { r with revokedAt := some now, hiddenAt := r.hiddenAt.orElse fun _ => some now })
      fun _ => rfl }

end AuthDb

namespace AuthEnv

variable (env : AuthEnv)

/-- `_invite_code_hash` -/
def inviteCodeHash (code : String) : String := env.hashTokenHmac "invite.code" code

/-- `_legacy_invite_code_hash` -/
def legacyInviteCodeHash (code : String) : String := env.secretHash "invite-code" code

/-- The two reads of `create_user_with_invite` that look for the code. -/
def findInvite (code : String) : Request (Option InviteCodeRow) := do
  let row ← query fun db => db.inviteByHash (env.inviteCodeHash code)
  match row with
  | some row => .ret (some row)
  | none => query fun db => db.inviteByHash (env.legacyInviteCodeHash code)

/-- `create_user_with_invite` -/
def createUserWithInvite (req : SignupRequest) : Request AuthenticatedUser := do
  let username := strip env.unicode req.username
  let code := strip env.unicode req.inviteCode
  let clock ← input
  if code = "" then .raise (.http 400 "Invite code is invalid or expired")
  else if req.password ≠ req.confirmPassword then
    .raise (.http 400 "Unable to create account with these details")
  else do
    let row ← env.findInvite code
    match row with
    | none => .raise (.http 400 "Invite code is invalid or expired")
    | some row =>
      if row.usedAt ≠ none ∨ row.revokedAt ≠ none ∨ row.expiresAt ≤ clock.now then
        .raise (.http 400 "Invite code is invalid or expired")
      else if username.length < 3 ∨ req.password.length < 8 then
        .raise (.http 400 "Unable to create account with these details")
      else do
        let existing ← query fun db => db.userByName username
        if existing ≠ none then .raise (.http 409 "Unable to create account with these details")
        else
          match validateAgeCredential (if row.assignedAge = 0 then 18 else row.assignedAge) with
          | .error e => .raise e
          | .ok assignedAge => do
            let salt ← input
            let userId ← insert fun db =>
              db.insertUser username (env.hashPassword salt.fresh req.password) assignedAge
            update fun db => db.useInvite row.id userId clock.now
            commitNow
            .ret
              { id := userId, username, role := .standardUser, enabled := true,
                assistantBetaEnabled := false, ageCredential := assignedAge, sessionId := none }

/-- `revoke_invite_code` -/
def revokeInviteCode (inviteId : ℕ) : Request Unit := do
  let clock ← input
  let row ← query fun db => db.inviteById inviteId
  match row with
  | none => .raise (.http 404 "Invite code not found")
  | some row =>
    if row.revokedAt ≠ none then .raise (.http 409 "Invite code is already revoked")
    else if row.usedAt ≠ none then .raise (.http 409 "Invite code was already used")
    else if row.expiresAt ≤ clock.now then .raise (.http 409 "Invite code has already expired")
    else do
      update fun db => db.revokeInvite inviteId clock.now
      commitNow
      .ret ()

end AuthEnv

namespace Invites

/-! ### What a call commits -/

/-- A call of one of the two functions. -/
inductive Call where
  | create (req : SignupRequest)
  | revoke (inviteId : ℕ)

/-- The statements of a call. -/
def Call.request (env : AuthEnv) : Call → Request (Option AuthenticatedUser)
  | .create req => do
    let user ← env.createUserWithInvite req
    .ret (some user)
  | .revoke inviteId => do
    AuthEnv.revokeInviteCode inviteId
    .ret none

/-- The ids and hashes of the invites, which no call changes. -/
def inviteKeys (db : AuthDb) : List (ℕ × String) :=
  db.inviteCodes.rows.map fun r => (r.id, r.codeHash)

/-- The id of the invite that a code names. -/
def inviteNamed (env : AuthEnv) (db : AuthDb) (code : String) : Option ℕ :=
  ((db.inviteByHash (env.inviteCodeHash code)).or
    (db.inviteByHash (env.legacyInviteCodeHash code))).map InviteCodeRow.id

/-- The invite that a call writes. -/
def Call.invite (env : AuthEnv) (db : AuthDb) : Call → Option ℕ
  | .create req => inviteNamed env db (strip env.unicode req.inviteCode)
  | .revoke inviteId => some inviteId

/-- The call is a sign-up. -/
def Call.creates : Call → Bool
  | .create _ => true
  | .revoke _ => false

/-- The commit `b` takes the invite of request `i` away: it is on the same invite, and one of the
two is a sign-up. -/
def takes (env : AuthEnv) (db : AuthDb) (calls : ℕ → Call) (b : ℕ × AuthDb × AuthDb)
    (i : ℕ) : Bool :=
  (calls b.1).invite env db == (calls i).invite env db && ((calls b.1).creates || (calls i).creates)

/-- No invite with this id is used. -/
def unused (db : AuthDb) (id : ℕ) : Bool :=
  db.inviteCodes.rows.all fun r => r.id != id || r.usedAt.isNone

/-- No invite with this id is used or revoked. -/
def isOpen (db : AuthDb) (id : ℕ) : Bool :=
  db.inviteCodes.rows.all fun r => r.id != id || (r.usedAt.isNone && r.revokedAt.isNone)

theorem isOpen_iff {s : AuthDb} {id : ℕ} : isOpen s id = true ↔
    ∀ r ∈ s.inviteCodes.rows, r.id = id → r.usedAt = none ∧ r.revokedAt = none := by
  rw [isOpen, List.all_eq_true]
  refine forall₂_congr fun r _ => ?_
  by_cases h : r.id = id <;> simp [h]

theorem unused_iff {s : AuthDb} {id : ℕ} : unused s id = true ↔
    ∀ r ∈ s.inviteCodes.rows, r.id = id → r.usedAt = none := by
  rw [unused, List.all_eq_true]
  refine forall₂_congr fun r _ => ?_
  by_cases h : r.id = id <;> simp [h]

/-- The invite is as the call needs it: open for a new account, unused for a revocation. -/
def Call.ready (call : Call) (s : AuthDb) (id : ℕ) : Bool :=
  match call with
  | .create _ => isOpen s id
  | .revoke _ => unused s id

/-- What a call may commit on the committed state `s`. -/
inductive Commits (env : AuthEnv) (call : Call) (s : AuthDb) : AuthDb → Prop
  | account {req : SignupRequest} {id userId age : ℕ} {username hash : String} {now : Time}
      {m : AuthDb} (hcall : call = .create req)
      (hid : inviteNamed env s (strip env.unicode req.inviteCode) = some id)
      (hm : s.insertUser username hash age = .ok (m, userId)) :
      Commits env call s (m.useInvite id userId now)
  | revoked {id : ℕ} {now : Time} (hcall : call = .revoke id) :
      Commits env call s (s.revokeInvite id now)

theorem inviteByHash_id (db : AuthDb) (hash : String) :
    (db.inviteByHash hash).map InviteCodeRow.id =
      ((inviteKeys db).find? fun k => k.2 == hash).map Prod.fst := by
  rw [inviteKeys, List.find?_map, Option.map_map]
  rfl

/-- The invite of a code depends on the ids and hashes alone. -/
theorem inviteNamed_congr {s u : AuthDb} (h : inviteKeys u = inviteKeys s) (env : AuthEnv)
    (code : String) : inviteNamed env u code = inviteNamed env s code := by
  rw [inviteNamed, inviteNamed, Option.map_or, Option.map_or]
  simp only [inviteByHash_id, h]

theorem inviteKeys_useInvite (s : AuthDb) (id userId : ℕ) (now : Time) :
    inviteKeys (s.useInvite id userId now) = inviteKeys s := by
  rw [inviteKeys, AuthDb.useInvite, AutoTable.map_updateWhere, inviteKeys]
  exact fun _ => rfl

theorem inviteKeys_revokeInvite (s : AuthDb) (id : ℕ) (now : Time) :
    inviteKeys (s.revokeInvite id now) = inviteKeys s := by
  rw [inviteKeys, AuthDb.revokeInvite, AutoTable.map_updateWhere, inviteKeys]
  exact fun _ => rfl

theorem insertUser_cases {s m : AuthDb} {username hash : String} {age userId : ℕ}
    (h : s.insertUser username hash age = .ok (m, userId)) :
    m.inviteCodes = s.inviteCodes ∧ m.users.rows.length = s.users.rows.length + 1 := by
  rw [AuthDb.insertUser] at h
  split at h
  · cases h
  · cases h
    exact ⟨rfl, by simp [AutoTable.insert]⟩

/-- No call changes an id or a hash. -/
theorem Commits.keys {env : AuthEnv} {call : Call} {s u : AuthDb} (h : Commits env call s u) :
    inviteKeys u = inviteKeys s := by
  cases h with
  | account _ _ hm => rw [inviteKeys_useInvite, inviteKeys, (insertUser_cases hm).1, inviteKeys]
  | revoked _ => exact inviteKeys_revokeInvite ..

/-- What the others may commit. -/
def SameKeys (s u : AuthDb) : Prop := inviteKeys u = inviteKeys s

theorem Call.invite_congr {s u : AuthDb} (h : SameKeys s u) (env : AuthEnv) (call : Call) :
    call.invite env u = call.invite env s := by
  cases call with
  | create req => exact inviteNamed_congr h env _
  | revoke id => rfl

/-- The call finds its invite ready in the state `s`. -/
def Fits (env : AuthEnv) (call : Call) (s : AuthDb) : Prop :=
  ∀ id, call.invite env s = some id → call.ready s id = true

/-- What leaves the invite of a call as ready as it was. -/
def LeavesReady (env : AuthEnv) (call : Call) (s u : AuthDb) : Prop :=
  ∀ id, call.invite env s = some id → call.ready s id = true → call.ready u id = true

/-- What a call relies on; if nobody takes its invite away, also that it stays ready. -/
structure Rely (env : AuthEnv) (call : Call) (calm : Prop) (s u : AuthDb) : Prop where
  keys : SameKeys s u
  ready : calm → LeavesReady env call s u

/-- What a call commits; if nobody took its invite away, it was ready. -/
def Guarantee (env : AuthEnv) (call : Call) (calm : Prop) (s u : AuthDb) : Prop :=
  Commits env call s u ∧ (calm → Fits env call s)

variable {env : AuthEnv} {call : Call} {calm : Prop}

theorem Rely.of_later {s s' : AuthDb} {w : Option AuthDb} (h : Later (Rely env call calm) s w s') :
    Rely env call calm s s' := by
  refine h.rel (fun _ => ⟨rfl, fun _ _ _ hr => hr⟩) fun h₁ h₂ => ⟨?_, fun hcalm id hid hr => ?_⟩
  · exact h₂.keys.trans h₁.keys
  · refine h₂.ready hcalm id ?_ (h₁.ready hcalm id hid hr)
    rwa [Call.invite_congr h₁.keys]

theorem Fits.rely {s u : AuthDb} (h : Fits env call s) (hu : Rely env call calm s u)
    (hcalm : calm) : Fits env call u := by
  intro id hid
  rw [Call.invite_congr hu.keys] at hid
  exact hu.ready hcalm id hid (h id hid)

/-- The reads that look for the code find the invite that it names. -/
theorem meets_findInvite {code : String} {G : AuthDb → AuthDb → Prop} {α : Type}
    {Q : α → AuthDb → Prop} {k : Option InviteCodeRow → Request α} {s : AuthDb}
    (h : ∀ row s', Rely env call calm s s' → (∀ r, row = some r →
      r ∈ s'.inviteCodes.rows ∧ inviteNamed env s' code = some r.id) →
      Meets (Rely env call calm) G Q (k row) s' none) :
    Meets (Rely env call calm) G Q (env.findInvite code >>= k) s none := by
  simp only [AuthEnv.findInvite, bind_assoc]
  refine meets_query fun s₁ h₁ => ?_
  have hr₁ := Rely.of_later h₁
  rw [view_none]
  rcases hrow : s₁.inviteByHash (env.inviteCodeHash code) with _ | r
  · refine meets_query fun s₂ h₂ => ?_
    have hr₂ := Rely.of_later h₂
    have hr : Rely env call calm s s₂ :=
      Rely.of_later (w := none) (Relation.ReflTransGen.trans h₁ h₂)
    refine h _ s₂ hr fun r hrow₂ => ?_
    -- The first hash is still missing in the state of the second read.
    have hnone : (s₂.inviteByHash (env.inviteCodeHash code)).map InviteCodeRow.id = none := by
      rw [inviteByHash_id, hr₂.keys, ← inviteByHash_id, hrow]
      rfl
    rw [view_none] at hrow₂
    refine ⟨(AutoTable.mem_of_find hrow₂).1, ?_⟩
    rw [inviteNamed, Option.map_eq_none_iff.mp hnone, hrow₂]
    rfl
  · refine h _ s₁ hr₁ fun r' hr' => ?_
    cases hr'
    refine ⟨(AutoTable.mem_of_find hrow).1, ?_⟩
    rw [inviteNamed, hrow]
    rfl

/-- A sign-up that has found its invite unused and unrevoked. -/
theorem fits_of_open {req : SignupRequest} {s : AuthDb} {row : InviteCodeRow}
    (hmem : row ∈ s.inviteCodes.rows)
    (hid : inviteNamed env s (strip env.unicode req.inviteCode) = some row.id)
    (hused : row.usedAt = none) (hrevoked : row.revokedAt = none) : Fits env (.create req) s := by
  intro id hinvite
  cases hid.symm.trans hinvite
  refine isOpen_iff.mpr fun e he heid => ?_
  cases s.inviteCodes.key_inj he hmem heid
  exact ⟨hused, hrevoked⟩

/-- A revocation that has found its invite unused. -/
theorem fits_of_unused {inviteId : ℕ} {s : AuthDb} {row : InviteCodeRow}
    (hrow : s.inviteById inviteId = some row) (hused : row.usedAt = none) :
    Fits env (.revoke inviteId) s := by
  obtain ⟨hmem, hid⟩ := AutoTable.mem_of_find hrow
  rw [beq_iff_eq] at hid
  intro id hinvite
  cases hinvite
  refine unused_iff.mpr fun e he heid => ?_
  cases s.inviteCodes.key_inj he hmem (heid.trans hid.symm)
  exact hused

/-- **A call commits only what `Commits` lists**, and finds its invite ready where nobody takes it
away. -/
theorem invite_meets (env : AuthEnv) (call : Call) (calm : Prop) (s : AuthDb) :
    Meets (Rely env call calm) (Guarantee env call calm) (fun _ _ => True) (call.request env) s
      none := by
  cases call with
  | create req =>
    simp only [Call.request, AuthEnv.createUserWithInvite, bind_assoc]
    refine meets_input fun s₁ clock _ => meets_guard fun _ => meets_guard fun _ => ?_
    rw [bind_assoc]
    refine meets_findInvite fun row s₂ _ hrow => ?_
    rcases row with _ | row
    · exact meets_raise
    obtain ⟨hmem, hid⟩ := hrow row rfl
    refine meets_guard fun hvalid => meets_guard fun _ => ?_
    rw [not_or, not_not] at hvalid
    have hfits : Fits env (.create req) s₂ := fits_of_open hmem hid hvalid.1 (by tauto)
    rw [bind_assoc]
    refine meets_query fun s₃ h₃ => meets_guard fun _ => ?_
    rcases validateAgeCredential (if row.assignedAge = 0 then 18 else row.assignedAge) with e | age
    · exact meets_raise
    simp only [bind_assoc]
    refine meets_input fun s₄ salt h₄ => meets_insert fun s₅ u userId h₅ hu =>
      meets_update fun s₆ h₆ => meets_commit ?_ (meets_ret fun _ _ _ _ => trivial)
    cases h₆
    have hr₃ := Rely.of_later h₃
    have hr₄ := Rely.of_later h₄
    have hr₅ := Rely.of_later h₅
    have hkeys := hr₅.keys.trans (hr₄.keys.trans hr₃.keys)
    exact ⟨.account rfl ((inviteNamed_congr hkeys env _).trans hid) hu, fun hcalm =>
      ((hfits.rely hr₃ hcalm).rely hr₄ hcalm).rely hr₅ hcalm⟩
  | revoke inviteId =>
    simp only [Call.request, AuthEnv.revokeInviteCode, bind_assoc]
    refine meets_input fun s₁ clock _ => meets_query fun s₂ _ => ?_
    rcases hrow : (view s₂ none).inviteById inviteId with _ | row
    · exact meets_raise
    refine meets_guard fun _ => meets_guard fun hused => meets_guard fun _ => ?_
    have hfits : Fits env (.revoke inviteId) s₂ := fits_of_unused hrow (not_not.mp hused)
    simp only [bind_assoc]
    exact meets_update fun s₃ h₃ => meets_commit
      ⟨.revoked rfl, fun hcalm => hfits.rely (.of_later h₃) hcalm⟩
        (meets_ret fun _ _ _ _ => trivial)

theorem raisesFirst_findInvite {env : AuthEnv} {code : String} {α : Type}
    {k : Option InviteCodeRow → Request α} (h : ∀ row, (k row).raisesFirst) :
    (env.findInvite code >>= k).raisesFirst := by
  simp only [AuthEnv.findInvite, bind_assoc]
  refine raisesFirst_query fun row => ?_
  rcases row with _ | row
  · exact raisesFirst_query h
  · exact h _

/-- Both functions raise before they commit. -/
theorem request_raisesFirst (env : AuthEnv) (call : Call) : (call.request env).raisesFirst := by
  cases call with
  | create req =>
    simp only [Call.request, AuthEnv.createUserWithInvite, bind_assoc]
    refine raisesFirst_input fun clock => raisesFirst_guard (raisesFirst_guard ?_)
    rw [bind_assoc]
    refine raisesFirst_findInvite fun row => ?_
    rcases row with _ | row
    · exact raisesFirst_raise _
    refine raisesFirst_guard (raisesFirst_guard ?_)
    rw [bind_assoc]
    refine raisesFirst_query fun existing => raisesFirst_guard ?_
    rcases validateAgeCredential (if row.assignedAge = 0 then 18 else row.assignedAge) with e | age
    · exact raisesFirst_raise _
    simp only [bind_assoc]
    exact raisesFirst_input fun salt => raisesFirst_insert fun userId =>
      raisesFirst_update (raisesFirst_commit (raisesNever_ret _))
  | revoke inviteId =>
    simp only [Call.request, AuthEnv.revokeInviteCode, bind_assoc]
    refine raisesFirst_input fun clock => raisesFirst_query fun row => ?_
    rcases row with _ | row
    · exact raisesFirst_raise _
    refine raisesFirst_guard (raisesFirst_guard (raisesFirst_guard ?_))
    simp only [bind_assoc]
    exact raisesFirst_update (raisesFirst_commit (raisesNever_ret _))

/-! ### The law of an invite -/

/-- The commit `c` adds a user. -/
def addsUser (c : ℕ × AuthDb × AuthDb) : Bool :=
  decide (c.2.1.users.rows.length < c.2.2.users.rows.length)

/-- No invite is both used and revoked. -/
def Exclusive (s : AuthDb) : Prop :=
  ∀ r ∈ s.inviteCodes.rows, r.usedAt = none ∨ r.revokedAt = none

/-- What is open later was open before. -/
def StaysClosed (s u : AuthDb) : Prop := ∀ id, isOpen u id = true → isOpen s id = true

theorem mem_useInvite {s : AuthDb} {id userId : ℕ} {now : Time} {l : InviteCodeRow} :
    l ∈ (s.useInvite id userId now).inviteCodes.rows ↔ ∃ e ∈ s.inviteCodes.rows,
      (if e.id == id then { e with usedAt := some now, usedByUserId := some userId } else e) = l :=
  List.mem_map

theorem mem_revokeInvite {s : AuthDb} {id : ℕ} {now : Time} {l : InviteCodeRow} :
    l ∈ (s.revokeInvite id now).inviteCodes.rows ↔ ∃ e ∈ s.inviteCodes.rows,
      (if e.id == id then { e with
        revokedAt := some now, hiddenAt := e.hiddenAt.orElse fun _ => some now } else e) = l :=
  List.mem_map

/-- A commit writes its own invite and leaves the others alone. -/
theorem Commits.rows {env : AuthEnv} {call : Call} {s u : AuthDb} (h : Commits env call s u) :
    ∀ e ∈ s.inviteCodes.rows, ∃ l ∈ u.inviteCodes.rows, l.id = e.id ∧
      (l = e ∨ l.usedAt ≠ none ∨ l.revokedAt ≠ none) := by
  intro e he
  cases h with
  | @account req id userId age username hash now m hcall hid hm =>
    rw [← (insertUser_cases hm).1] at he
    refine ⟨_, mem_useInvite.mpr ⟨e, he, rfl⟩, ?_⟩
    split
    · exact ⟨rfl, .inr (.inl (by simp))⟩
    · exact ⟨rfl, .inl rfl⟩
  | revoked hcall =>
    refine ⟨_, mem_revokeInvite.mpr ⟨e, he, rfl⟩, ?_⟩
    split
    · exact ⟨rfl, .inr (.inr (by simp))⟩
    · exact ⟨rfl, .inl rfl⟩

theorem Commits.staysClosed {env : AuthEnv} {call : Call} {s u : AuthDb}
    (h : Commits env call s u) : StaysClosed s u := by
  intro id hopen
  rw [isOpen_iff] at hopen ⊢
  intro e he hid
  obtain ⟨l, hl, hlid, hcase⟩ := h.rows e he
  have hlo := hopen l hl (hlid.trans hid)
  rcases hcase with rfl | hused | hrev
  · exact hlo
  · exact absurd hlo.1 hused
  · exact absurd hlo.2 hrev

/-- A code names a row of the table. -/
theorem exists_of_inviteNamed {env : AuthEnv} {s : AuthDb} {code : String} {id : ℕ}
    (h : inviteNamed env s code = some id) : ∃ r ∈ s.inviteCodes.rows, r.id = id := by
  rw [inviteNamed, Option.map_eq_some_iff] at h
  obtain ⟨r, hr, rfl⟩ := h
  rcases Option.or_eq_some_iff.mp hr with hr | ⟨_, hr⟩
  · exact ⟨r, (AutoTable.mem_of_find hr).1, rfl⟩
  · exact ⟨r, (AutoTable.mem_of_find hr).1, rfl⟩

/-- A new account closes its invite. -/
theorem Commits.closes {env : AuthEnv} {req : SignupRequest} {s u : AuthDb}
    (h : Commits env (.create req) s u) :
    ∃ id, inviteNamed env s (strip env.unicode req.inviteCode) = some id ∧
      isOpen u id = false := by
  cases h with
  | @account req' id userId age username hash now m hcall hid hm =>
    cases hcall
    refine ⟨id, hid, Bool.eq_false_iff.mpr fun hopen => ?_⟩
    obtain ⟨e, he, heid⟩ := exists_of_inviteNamed hid
    rw [← (insertUser_cases hm).1] at he
    have hl := isOpen_iff.mp hopen _ (mem_useInvite.mpr ⟨e, he, if_pos (by simpa using heid)⟩) heid
    simp at hl
  | revoked hcall => cases hcall

/-- A revocation closes its invite. -/
theorem Commits.revokes {env : AuthEnv} {id : ℕ} {s u : AuthDb} (h : Commits env (.revoke id) s u)
    (hid : ∃ r ∈ s.inviteCodes.rows, r.id = id) : isOpen u id = false := by
  cases h with
  | account hcall => cases hcall
  | @revoked id' now hcall =>
    cases hcall
    obtain ⟨e, he, heid⟩ := hid
    refine Bool.eq_false_iff.mpr fun hopen => ?_
    have hl :=
      isOpen_iff.mp hopen _ (mem_revokeInvite.mpr ⟨e, he, if_pos (by simpa using heid)⟩) heid
    simp at hl

/-- Only a new account adds a user. -/
theorem Commits.create_of_addsUser {env : AuthEnv} {call : Call} {i : ℕ} {s u : AuthDb}
    (h : Commits env call s u) (hadds : addsUser (i, s, u) = true) :
    ∃ req, call = .create req := by
  cases h with
  | account hcall => exact ⟨_, hcall⟩
  | revoked hcall => simp [addsUser, AuthDb.revokeInvite] at hadds

/-- **One commit keeps the invites exclusive**, when it finds its own one ready. -/
theorem Exclusive.commit {env : AuthEnv} {call : Call} {s u : AuthDb} (hs : Exclusive s)
    (h : Commits env call s u) (hfits : Fits env call s) : Exclusive u := by
  intro l hl
  cases h with
  | @account req id userId age username hash now m hcall hid hm =>
    subst hcall
    have hopen := isOpen_iff.mp (hfits id hid)
    obtain ⟨e, he, rfl⟩ := mem_useInvite.mp hl
    rw [(insertUser_cases hm).1] at he
    split
    · next heq => exact .inr (hopen e he (by simpa using heq)).2
    · exact hs e he
  | @revoked id now hcall =>
    subst hcall
    have hunused := unused_iff.mp (hfits id rfl)
    obtain ⟨e, he, rfl⟩ := mem_revokeInvite.mp hl
    split
    · next heq => exact .inl (hunused e he (by simpa using heq))
    · exact hs e he

/-! ### Calls that overlap -/

/-- A commit on another invite, or a revocation under a revocation, leaves the invite ready. -/
theorem Commits.leavesReady {env : AuthEnv} {db : AuthDb} {calls : ℕ → Call}
    {i j : ℕ} {s u : AuthDb} (hkeys : SameKeys db s) (h : Commits env (calls i) s u)
    (hleft : takes env db calls (i, s, u) j = false) : LeavesReady env (calls j) s u := by
  intro id hid hready
  rw [Call.invite_congr hkeys] at hid
  have hleft' : (calls i).invite env db = some id → (calls i).creates = false ∧
      (calls j).creates = false := by
    intro hi
    rw [takes, hi, hid, beq_self_eq_true, Bool.true_and, Bool.or_eq_false_iff] at hleft
    exact hleft
  cases h with
  | @account req id' userId age username hash now m hcall hid' hm =>
    have hinvite : (calls i).invite env db = some id' := by
      rw [← Call.invite_congr hkeys, hcall]
      exact hid'
    have hne : id' ≠ id := by
      rintro rfl
      have hcreates := (hleft' hinvite).1
      rw [hcall] at hcreates
      cases hcreates
    have hrow : ∀ l ∈ (m.useInvite id' userId now).inviteCodes.rows, l.id = id →
        l ∈ s.inviteCodes.rows := by
      intro l hl hlid
      obtain ⟨e, he, rfl⟩ := mem_useInvite.mp hl
      rw [(insertUser_cases hm).1] at he
      split at hlid
      · next heq => exact absurd ((beq_iff_eq.mp heq).symm.trans hlid) hne
      · next heq => rwa [if_neg heq]
    cases hj : calls j with
    | create req' =>
      rw [hj] at hready
      exact isOpen_iff.mpr fun l hl hlid => isOpen_iff.mp hready l (hrow l hl hlid) hlid
    | revoke id'' =>
      rw [hj] at hready
      exact unused_iff.mpr fun l hl hlid => unused_iff.mp hready l (hrow l hl hlid) hlid
  | @revoked id' now hcall =>
    have hinvite : (calls i).invite env db = some id' := by
      rw [hcall]
      rfl
    cases hj : calls j with
    | create req' =>
      rw [hj] at hready
      have hne : id' ≠ id := by
        rintro rfl
        have hcreates := (hleft' hinvite).2
        rw [hj] at hcreates
        cases hcreates
      refine isOpen_iff.mpr fun l hl hlid => ?_
      obtain ⟨e, he, rfl⟩ := mem_revokeInvite.mp hl
      split at hlid
      · next heq => exact absurd ((beq_iff_eq.mp heq).symm.trans hlid) hne
      · next heq =>
        rw [if_neg heq]
        exact isOpen_iff.mp hready e he hlid
    | revoke id'' =>
      rw [hj] at hready
      -- A revocation does not use the invite.
      refine unused_iff.mpr fun l hl hlid => ?_
      obtain ⟨e, he, rfl⟩ := mem_revokeInvite.mp hl
      split at hlid
      · next heq =>
        rw [if_pos heq]
        exact unused_iff.mp hready e he hlid
      · next heq =>
        rw [if_neg heq]
        exact unused_iff.mp hready e he hlid

/-- The database with the calls on it. -/
abbrev InviteServer := Observed ℕ AuthDb Input PyError (Option AuthenticatedUser)

/-- All calls before their first statement. -/
def start (env : AuthEnv) (db : AuthDb) (calls : ℕ → Call) : InviteServer :=
  Observed.init db fun i => (calls i).request env

/-- A commit on an invite is followed by none of a call that had begun before it, unless both are
revocations. -/
def Apart (env : AuthEnv) (db : AuthDb) (calls : ℕ → Call) (o : InviteServer)
    (t : Turn ℕ Input) : Prop :=
  Observed.Apart (fun b c => takes env db calls b c.1) o t

instance (env : AuthEnv) (db : AuthDb) (calls : ℕ → Call) (o : InviteServer) (t : Turn ℕ Input) :
    Decidable (Apart env db calls o t) :=
  inferInstanceAs (Decidable (Observed.Apart ..))

/-- The calls follow the rules of overlapping requests. -/
theorem rules (env : AuthEnv) (db : AuthDb) (calls : ℕ → Call) :
    Observed.Rules (fun _ _ => True) (SameKeys db)
      (fun i => Rely env (calls i) False) (fun i => Guarantee env (calls i) False)
      (fun i => Rely env (calls i) True) (fun i => Guarantee env (calls i) True)
      (fun b i => takes env db calls b i = true) fun i => (calls i).request env where
  disturbed i s _ _ := invite_meets env (calls i) False s
  undisturbed i s _ _ := invite_meets env (calls i) True s
  inv _ _ _ hs hgood := hgood.1.keys.trans hs
  start _ _ _ _ _ _ _ _ := trivial
  rely _ _ _ _ _ _ hgood := ⟨hgood.1.keys, False.elim⟩
  relyUndisturbed _ _ _ _ _ hs hgood hleft :=
    ⟨hgood.1.keys, fun _ => hgood.1.leavesReady hs (Bool.eq_false_iff.mpr hleft)⟩

/-- The law of an invite code over the commits so far. -/
structure OneAccount (env : AuthEnv) (code : String) (calls : ℕ → Call)
    (srv : Server ℕ AuthDb Input PyError (Option AuthenticatedUser)) : Prop where
  account : (srv.history.filter addsUser).length ≤ 1
  revoked : srv.history.Pairwise fun later earlier => ∀ id, calls earlier.1 = .revoke id →
    inviteNamed env earlier.2.1 code = some id → addsUser later = false
  exclusive : ∀ s ∈ srv.committed :: srv.history.map fun c => c.2.1, Exclusive s
  raised : ∀ i e, srv.remaining i = .raise e → ∀ c ∈ srv.history, c.1 ≠ i

/-- A later account would find the invite of an earlier commit closed. -/
theorem addsUser_of_closed {env : AuthEnv} {code : String} {call : Call}
    {later earlier : ℕ × AuthDb × AuthDb}
    (hcode : ∀ req, call = .create req → strip env.unicode req.inviteCode = code)
    (hlater : Guarantee env call True later.2.1 later.2.2)
    (hkeys : SameKeys earlier.2.1 later.2.1) (hclosed : StaysClosed earlier.2.2 later.2.1) {id : ℕ}
    (hid : inviteNamed env earlier.2.1 code = some id) (hshut : isOpen earlier.2.2 id = false) :
    addsUser later = false := by
  by_contra hadds
  rw [Bool.not_eq_false] at hadds
  obtain ⟨req, rfl⟩ := hlater.1.create_of_addsUser (i := later.1) hadds
  have hid' : inviteNamed env later.2.1 code = some id := by
    rw [inviteNamed_congr hkeys, hid]
  have hready := hlater.2 trivial id
  rw [Call.invite, hcode _ rfl] at hready
  have hfit : isOpen later.2.1 id = true := hready hid'
  rw [hclosed id hfit] at hshut
  cases hshut

/-- **A code creates at most one account**, in every run of calls with that code and of
revocations in which no call commits on the invite while another one is between its first read and
its commit: no account follows a revocation, no invite is both used and revoked, and a call that
raises has committed nothing. -/
theorem invite_once (env : AuthEnv) (db : AuthDb) (code : String) (calls : ℕ → Call)
    (hcode : ∀ i req, calls i = .create req → strip env.unicode req.inviteCode = code)
    (hdb : Exclusive db) {o : InviteServer}
    (hrun : Runs.Reach Observed.step (Apart env db calls) (start env db calls) o) :
    OneAccount env code calls o.server := by
  have hsame : SameKeys db db := rfl
  have hkept := Observed.Kept.reach (rules env db calls) hsame (fun _ => trivial)
    (fun o t i s u hok hcommit _ _ => .inl fun b hb hne =>
      Bool.eq_false_iff.mp (hok _ hcommit b hb hne)) hrun
  have hcommits : ∀ c ∈ o.server.history, Commits env (calls c.1) c.2.1 c.2.2 := fun c hc =>
    (hkept.good c hc).1
  have hexclusive := hkept.chain.invariant hdb fun c hc hs =>
    hs.commit (hcommits c hc) ((hkept.good c hc).2 trivial)
  have hkeys := (hkept.chain.pairwise (E := SameKeys) (fun _ => rfl)
    (fun _ _ _ h h' => h'.trans h) fun c hc => (hcommits c hc).keys).2
  have hclosed := (hkept.chain.pairwise (E := StaysClosed) (fun _ _ h => h)
    (fun _ _ _ h h' id hid => h id (h' id hid))
    fun c hc => (hcommits c hc).staysClosed).2
  refine ⟨?_, ?_, ?_, ?_⟩
  · have hpairs := hkeys.and hclosed
    refine filter_length_le_one (R := fun later earlier : ℕ × AuthDb × AuthDb =>
      addsUser earlier = true → addsUser later = false) ?_ fun a b ha hb hab => ?_
    · refine hpairs.imp_of_mem fun {later earlier} hl he hp hadds => ?_
      obtain ⟨req, hreq⟩ := (hcommits earlier he).create_of_addsUser (i := earlier.1) hadds
      have hg := hcommits earlier he
      rw [hreq] at hg
      obtain ⟨id, hid, hshut⟩ := hg.closes
      rw [hcode _ _ hreq] at hid
      -- The account before it has used the invite.
      exact addsUser_of_closed (hcode later.1) (hkept.good later hl)
        (hp.1.trans (hcommits earlier he).keys) hp.2 hid hshut
    · rw [hab hb] at ha
      cases ha
  · refine (hkeys.and hclosed).imp_of_mem fun {later earlier} hl he hp id hrev hid => ?_
    have hg := hcommits earlier he
    rw [hrev] at hg
    exact addsUser_of_closed (hcode later.1) (hkept.good later hl)
      (hp.1.trans (hcommits earlier he).keys) hp.2 hid (hg.revokes (exists_of_inviteNamed hid))
  · intro s hs
    rcases List.mem_cons.mp hs with rfl | hs
    · exact hexclusive.1
    · obtain ⟨c, hc, rfl⟩ := List.mem_map.mp hs
      exact (hexclusive.2 c hc).1
  · exact fun i e he => Server.uncommitted_of_raised
      (fun j => request_raisesFirst env (calls j)) (Observed.reach_server hrun) he

/-! ### Two sign-ups at once -/

/-- One invite code, not used yet. -/
def sampleDb : AuthDb :=
  { AuthDb.empty with
    inviteCodes := AutoTable.empty.insert
      (fun id =>
        { id, codeHash := "invite.code:welcome", expiresAt := 5000, assignedAge := 18,
          usedAt := none, usedByUserId := none, hiddenAt := none, revokedAt := none })
      fun _ => rfl }

/-- Sign-ups with the same code, under different names. -/
def sampleCalls (i : ℕ) : Call :=
  .create
    { username := "user" ++ toString i, password := "password",
      confirmPassword := "password", inviteCode := "welcome" }

/-- `n` statements of call `i` at second 3000. -/
def statements (i n : ℕ) : List (Turn ℕ Input) :=
  List.replicate n (.run i { now := 3000, fresh := "salt" })

theorem sampleDb_exclusive : Exclusive sampleDb := by
  intro r hr
  simp only [sampleDb, AutoTable.mem_insert] at hr
  rcases hr with hr | rfl
  · cases hr
  · exact .inl rfl

theorem sampleCalls_code : ∀ i req, sampleCalls i = .create req →
    strip sampleEnv.unicode req.inviteCode = "welcome" := by
  intro i req hreq
  cases hreq
  have hstrip : strip sampleEnv.unicode "welcome" = "welcome" := by decide +kernel
  exact hstrip

/-- The first sign-up runs before the second one. -/
theorem invite_once_serially :
    ∃ o, Runs.runFrom (Runs.guarded Observed.step fun o t =>
        decide (Apart sampleEnv sampleDb sampleCalls o t)) (start sampleEnv sampleDb sampleCalls)
          (statements 0 7 ++ statements 1 2) = some o ∧
      o.server.committed.users.rows.length = 1 ∧
          OneAccount sampleEnv "welcome" sampleCalls o.server := by
  have hrun : ((Runs.runFrom (Runs.guarded Observed.step fun o t =>
      decide (Apart sampleEnv sampleDb sampleCalls o t)) (start sampleEnv sampleDb sampleCalls)
        (statements 0 7 ++ statements 1 2)).any fun o =>
          decide (o.server.committed.users.rows.length = 1)) = true := by
    decide +kernel
  obtain ⟨o, ho, hprop⟩ := (Option.any_eq_true _ _).mp hrun
  refine ⟨o, ho, of_decide_eq_true hprop,
    invite_once _ _ _ _ sampleCalls_code sampleDb_exclusive ?_⟩
  exact (Runs.reach_of_guarded (Runs.reach_of_runFrom ho)).mono fun _ _ => of_decide_eq_true

/-- Both sign-ups read the invite before either of them writes. -/
theorem invite_reused :
    ¬ ∀ (env : AuthEnv) (db : AuthDb) (code : String) (calls : ℕ → Call),
      (∀ i req, calls i = .create req → strip env.unicode req.inviteCode = code) →
      Exclusive db → ∀ o : InviteServer,
        Runs.Reach Observed.step (fun _ _ => True) (start env db calls) o →
          OneAccount env code calls o.server := by
  intro h
  have hrun : ((Runs.runFrom Observed.step (start sampleEnv sampleDb sampleCalls)
      (statements 0 4 ++ statements 1 4 ++ statements 0 3 ++ statements 1 3)).any fun o =>
        decide (1 < (o.server.history.filter addsUser).length)) = true := by
    decide +kernel
  obtain ⟨o, ho, htwo⟩ := (Option.any_eq_true _ _).mp hrun
  rw [decide_eq_true_eq] at htwo
  exact absurd htwo (not_lt.mpr (h _ _ _ _ sampleCalls_code sampleDb_exclusive o
    (Runs.reach_of_runFrom ho)).account)

end Invites
