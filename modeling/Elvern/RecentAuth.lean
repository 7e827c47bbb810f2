/-
The recent authentication of an administrator (`recovery_security_service.py`).

Recovery calls ask for the password again.  `verify` stores that a session has given it, for ten
minutes, and `require` looks this up.  Both read the clock before they reach the database, and a
check of a password takes its time; requests, logouts and changes of users run in between.

* `State.step` — the two functions, one database statement at a time, and what runs beside them;
* `recent_auth_required` — who is let through has given the right password, in this session and no
  more than ten minutes ago;
* `recent_auth_lasts` — who has given it is let through for ten minutes.
-/
import Elvern.PassphraseLimiter

namespace RecentAuth

open PassphraseLimiter (isoAt)

/-- `RECOVERY_RECENT_AUTH_SECONDS` -/
def recoveryRecentAuthSeconds : ℚ := 10 * 60

/-- A row of `users`, as far as it is read. -/
structure UserRow where
  passwordHash : String
  role : String
  enabled : Bool
  deriving DecidableEq

/-- A row of `recovery_recent_auth`, of the session that is its key. -/
structure AuthRow where
  userId : ℕ
  verifiedAt : ℤ
  expiresAt : ℤ
  deriving DecidableEq

/-- Who calls, and when `now` was read. -/
structure Caller where
  sessionId : ℕ
  userId : ℕ
  now : ℚ
  deriving DecidableEq

/-- A password that was found right, with the row that it was compared with. -/
structure Proof where
  caller : Caller
  user : UserRow
  password : String
  newHash : Option String
  deriving DecidableEq

/-- Where a call of `verify_recovery_recent_auth` stands. -/
inductive Phase where
  | begun (caller : Caller) (password : String)
  | checked (proof : Proof)

/-- The tables and the calls; `proofs` and `admitted`, with the time of the look-up, are not in the
code. -/
structure State where
  clock : ℚ
  users : ℕ → Option UserRow
  live : ℕ → Bool
  nextSession : ℕ
  rows : ℕ → Option AuthRow
  verifying : ℕ → Option Phase
  requiring : ℕ → Option Caller
  lookedUp : ℕ → Option Caller
  proofs : List Proof
  admitted : List (Caller × ℚ)

def State.init (start : ℚ) : State where
  clock := start
  users _ := none
  live _ := false
  nextSession := 1
  rows _ := none
  verifying _ := none
  requiring _ := none
  lookedUp _ := none
  proofs := []
  admitted := []

/-- `verify_password`: is it right, and the new hash for an old one. -/
abbrev VerifyPassword := String → String → Bool × Option String

/-- The row that a right password is stored in. -/
def Proof.row (p : Proof) : AuthRow where
  userId := p.caller.userId
  verifiedAt := isoAt p.caller.now
  expiresAt := isoAt (p.caller.now + recoveryRecentAuthSeconds)

/-- The row that lets the caller through. -/
def State.passes (s : State) (caller : Caller) : Bool :=
  (s.rows caller.sessionId).any fun row =>
    row.userId == caller.userId && decide (isoAt caller.now < row.expiresAt)

/-- `get_recovery_recent_auth_status`: `expires_in_seconds`. -/
def State.expiresInSeconds (s : State) (caller : Caller) : ℤ :=
  if s.passes caller then
    ((s.rows caller.sessionId).map fun row => max 0 ⌊(row.expiresAt : ℚ) - caller.now⌋).getD 0
  else 0

/-- What happens next. -/
inductive Action where
  | tick (now : ℚ)
  | setUser (userId : ℕ) (row : Option UserRow)
  | openSession
  | endSession (sessionId : ℕ)
  | verify (i sessionId userId : ℕ) (password : String)
  | readUser (i : ℕ)
  | store (i : ℕ)
  | require (i sessionId userId : ℕ)
  | lookUp (i : ℕ)
  | deleteOver (i : ℕ)

variable (verifyPassword : VerifyPassword)

/-- The row of the user is read, and the password compared with it; other ends of the call raise. -/
def State.readUser (s : State) (i : ℕ) (caller : Caller) (password : String) : State :=
  let idle := { s with verifying := Function.update s.verifying i none }
  match s.users caller.userId with
  | none => idle
  | some user =>
    if user.enabled && user.role == "admin" && (verifyPassword password user.passwordHash).1 then
      let proof := { caller, user, password, newHash :=
        (verifyPassword password user.passwordHash).2 }
      { s with
        verifying := Function.update s.verifying i (some (.checked proof))
        proofs := proof :: s.proofs }
    else idle

/-- The transaction at the end; the foreign keys of the row refuse a session or a user that is
gone. -/
def State.store (s : State) (i : ℕ) (proof : Proof) : State :=
  let idle := { s with verifying := Function.update s.verifying i none }
  match s.users proof.caller.userId with
  | none => idle
  | some user =>
    if s.live proof.caller.sessionId then
      { idle with
        users := Function.update s.users proof.caller.userId
          (some { user with passwordHash := proof.newHash.getD user.passwordHash })
        rows := Function.update s.rows proof.caller.sessionId (some proof.row) }
    else idle

/-- The SELECT of `require_recovery_recent_auth`, in autocommit: whether it finds a row decides
about the call. -/
def State.lookUp (s : State) (i : ℕ) (caller : Caller) : State :=
  { s with
    requiring := Function.update s.requiring i none
    lookedUp := Function.update s.lookedUp i (some caller)
    admitted := if s.passes caller then (caller, s.clock) :: s.admitted else s.admitted }

/-- Its DELETE of the rows that are over, and the commit. -/
def State.deleteOver (s : State) (i : ℕ) (caller : Caller) : State :=
  { s with
    lookedUp := Function.update s.lookedUp i none
    rows := fun sessionId => (s.rows sessionId).filter fun row =>
      !decide (row.expiresAt ≤ isoAt caller.now) }

/-- One step. -/
def State.step (s : State) : Action → Option State
  | .tick now => if s.clock ≤ now then some { s with clock := now } else none
  | .setUser userId row =>
    some
      { s with
        users := Function.update s.users userId row
        rows := fun sessionId => (s.rows sessionId).filter fun r => row.isSome ||
          r.userId != userId }
  | .openSession => some { s with
    live := Function.update s.live s.nextSession true
    nextSession := s.nextSession + 1 }
  | .endSession sessionId =>
    some { s with
      live := Function.update s.live sessionId false
      rows := Function.update s.rows sessionId none }
  | .verify i sessionId userId password =>
    match s.verifying i with
    | some _ => none
    | none =>
      let caller := { sessionId, userId, now := s.clock }
      some { s with verifying := Function.update s.verifying i (some (.begun caller password)) }
  | .readUser i =>
    match s.verifying i with
    | some (.begun caller password) => some (s.readUser verifyPassword i caller password)
    | _ => none
  | .store i =>
    match s.verifying i with
    | some (.checked proof) => some (s.store i proof)
    | _ => none
  | .require i sessionId userId =>
    match s.requiring i, s.lookedUp i with
    | none, none =>
      let caller := { sessionId, userId, now := s.clock }
      some { s with requiring := Function.update s.requiring i (some caller) }
    | _, _ => none
  | .lookUp i =>
    match s.requiring i with
    | some caller => some (s.lookUp i caller)
    | none => none
  | .deleteOver i =>
    match s.lookedUp i with
    | some caller => some (s.deleteOver i caller)
    | none => none

variable {verifyPassword : VerifyPassword} {s s' : State} {a : Action} {caller : Caller}
  {row : AuthRow} {p : Proof}

/-! ### What the rows stand for -/

/-- The password was right for an administrator. -/
def Proof.Right (verifyPassword : VerifyPassword) (p : Proof) : Prop :=
  p.user.enabled = true ∧ p.user.role = "admin" ∧
    (verifyPassword p.password p.user.passwordHash).1 = true

/-- The caller has proved in this session who it is, and no more than ten minutes before. -/
def Proof.Admits (p : Proof) (caller : Caller) : Prop :=
  p.caller.sessionId = caller.sessionId ∧ p.caller.userId = caller.userId ∧
    isoAt caller.now < isoAt (p.caller.now + recoveryRecentAuthSeconds)

structure Inv (verifyPassword : VerifyPassword) (s : State) : Prop where
  right : ∀ p ∈ s.proofs, p.Right verifyPassword ∧ p.caller.now ≤ s.clock
  begun : ∀ i caller password, s.verifying i = some (.begun caller password) → caller.now ≤ s.clock
  checked : ∀ i p, s.verifying i = some (.checked p) → p ∈ s.proofs
  asked : ∀ i caller, s.requiring i = some caller → caller.now ≤ s.clock
  lookedUp : ∀ i caller, s.lookedUp i = some caller → caller.now ≤ s.clock
  stored : ∀ sessionId row, s.rows sessionId = some row →
    ∃ p ∈ s.proofs, p.caller.sessionId = sessionId ∧ p.row = row
  admitted : ∀ c ∈ s.admitted, ∃ p ∈ s.proofs, p.Admits c.1 ∧ p.caller.now ≤ c.2

theorem inv_init (start : ℚ) : Inv verifyPassword (State.init start) where
  right _ hp := by cases hp
  begun _ _ _ hi := by cases hi
  checked _ _ hi := by cases hi
  asked _ _ hi := by cases hi
  lookedUp _ _ hi := by cases hi
  stored _ _ hrow := by cases hrow
  admitted _ hc := by cases hc

theorem passes_iff : s.passes caller = true ↔
    ∃ row, s.rows caller.sessionId = some row ∧ row.userId = caller.userId ∧
        isoAt caller.now < row.expiresAt := by
  rw [State.passes, Option.any_eq_true]
  simp only [Bool.and_eq_true, beq_iff_eq, decide_eq_true_eq]

/-- Fewer rows. -/
theorem Inv.rows (h : Inv verifyPassword s) {rows : ℕ → Option AuthRow} (users : ℕ → Option UserRow)
    (live : ℕ → Bool) (nextSession : ℕ)
    (hrows : ∀ sessionId row, rows sessionId = some row → s.rows sessionId = some row) :
    Inv verifyPassword { s with
      users := users
      live := live
      nextSession := nextSession
      rows := rows } where
  right := h.right
  begun := h.begun
  checked := h.checked
  asked := h.asked
  lookedUp := h.lookedUp
  stored sessionId row hrow := h.stored sessionId row (hrows sessionId row hrow)
  admitted := h.admitted

/-- A call of `verify` that has ended. -/
theorem Inv.idle (h : Inv verifyPassword s) (i : ℕ) :
    Inv verifyPassword { s with verifying := Function.update s.verifying i none } where
  right := h.right
  begun j caller password hj := by
    rcases eq_or_ne j i with rfl | hne
    · simp at hj
    · exact h.begun j caller password (by simpa [hne] using hj)
  checked j p hj := by
    rcases eq_or_ne j i with rfl | hne
    · simp at hj
    · exact h.checked j p (by simpa [hne] using hj)
  asked := h.asked
  lookedUp := h.lookedUp
  stored := h.stored
  admitted := h.admitted

theorem Inv.readUser (h : Inv verifyPassword s) {i : ℕ} {password : String}
    (hi : s.verifying i = some (.begun caller password)) :
    Inv verifyPassword (s.readUser verifyPassword i caller password) := by
  unfold State.readUser
  dsimp only
  split
  · exact h.idle i
  next user _ =>
  split
  next hright =>
    rw [Bool.and_eq_true, Bool.and_eq_true, beq_iff_eq] at hright
    refine ⟨fun p hp => ?_, fun j caller' password' hj => ?_, fun j p hj => ?_, h.asked, h.lookedUp,
      fun sessionId row hrow => ?_, fun c hc => ?_⟩
    · rcases List.mem_cons.mp hp with rfl | hp
      · exact ⟨⟨hright.1.1, hright.1.2, hright.2⟩, h.begun i caller password hi⟩
      · exact h.right p hp
    · rcases eq_or_ne j i with rfl | hne
      · simp at hj
      · exact h.begun j caller' password' (by simpa [hne] using hj)
    · rcases eq_or_ne j i with rfl | hne
      · simp only [Function.update_self, Option.some.injEq, Phase.checked.injEq] at hj
        exact hj ▸ List.mem_cons_self ..
      · exact List.mem_cons_of_mem _ (h.checked j p (by simpa [hne] using hj))
    · obtain ⟨p, hp, hrest⟩ := h.stored sessionId row hrow
      exact ⟨p, List.mem_cons_of_mem _ hp, hrest⟩
    · obtain ⟨p, hp, hrest⟩ := h.admitted c hc
      exact ⟨p, List.mem_cons_of_mem _ hp, hrest⟩
  next => exact h.idle i

theorem Inv.store (h : Inv verifyPassword s) {i : ℕ} (hi : s.verifying i = some (.checked p)) :
    Inv verifyPassword (s.store i p) := by
  unfold State.store
  dsimp only
  split
  · exact h.idle i
  split
  · have hidle := h.idle i
    refine ⟨hidle.right, hidle.begun, hidle.checked, hidle.asked, hidle.lookedUp,
      fun sessionId row hrow => ?_, hidle.admitted⟩
    rcases eq_or_ne sessionId p.caller.sessionId with rfl | hne
    · simp only [Function.update_self, Option.some.injEq] at hrow
      exact ⟨p, h.checked i p hi, rfl, hrow⟩
    · exact h.stored sessionId row (by simpa [hne] using hrow)
  · exact h.idle i

theorem Inv.lookUp (h : Inv verifyPassword s) {i : ℕ} (hi : s.requiring i = some caller) :
    Inv verifyPassword (s.lookUp i caller) := by
  refine ⟨h.right, h.begun, h.checked, fun j caller' hj => ?_, fun j caller' hj => ?_, h.stored,
    fun c hc => ?_⟩
  · rcases eq_or_ne j i with rfl | hne
    · simp [State.lookUp] at hj
    · exact h.asked j caller' (by simpa [State.lookUp, hne] using hj)
  · rcases eq_or_ne j i with rfl | hne
    · simp only [State.lookUp, Function.update_self, Option.some.injEq] at hj
      exact hj ▸ h.asked j caller hi
    · exact h.lookedUp j caller' (by simpa [State.lookUp, hne] using hj)
  · change c ∈
      (if s.passes caller = true then (caller, s.clock) :: s.admitted else s.admitted) at hc
    split at hc
    · next hpasses =>
      rcases List.mem_cons.mp hc with rfl | hc
      · -- The row that was found is the one of a proof.
        obtain ⟨row, hrow, huser, hlater⟩ := passes_iff.mp hpasses
        obtain ⟨p, hp, hsession, rfl⟩ := h.stored _ _ hrow
        exact ⟨p, hp, ⟨hsession, huser, hlater⟩, (h.right p hp).2⟩
      · exact h.admitted c hc
    · exact h.admitted c hc

theorem Inv.deleteOver (h : Inv verifyPassword s) (i : ℕ) (caller : Caller) :
    Inv verifyPassword (s.deleteOver i caller) := by
  refine ⟨h.right, h.begun, h.checked, h.asked, fun j caller' hj => ?_,
    fun sessionId row hrow => ?_, h.admitted⟩
  · rcases eq_or_ne j i with rfl | hne
    · simp [State.deleteOver] at hj
    · exact h.lookedUp j caller' (by simpa [State.deleteOver, hne] using hj)
  · exact h.stored sessionId row (Option.filter_eq_some_iff.mp hrow).1

theorem Inv.step (h : Inv verifyPassword s) (hst : s.step verifyPassword a = some s') :
    Inv verifyPassword s' := by
  cases a with
  | tick now =>
    rw [State.step] at hst
    split at hst
    · next hle =>
      cases hst
      exact ⟨fun p hp => ⟨(h.right p hp).1, (h.right p hp).2.trans hle⟩,
        fun i caller password hi => (h.begun i caller password hi).trans hle, h.checked,
        fun i caller hi => (h.asked i caller hi).trans hle,
        fun i caller hi => (h.lookedUp i caller hi).trans hle, h.stored, h.admitted⟩
    · cases hst
  | setUser userId row =>
    cases hst
    exact h.rows _ _ _ fun sessionId r hr => (Option.filter_eq_some_iff.mp hr).1
  | openSession =>
    cases hst
    exact h.rows _ _ _ fun _ _ hr => hr
  | endSession sessionId =>
    cases hst
    refine h.rows _ _ _ fun other r hr => ?_
    rcases eq_or_ne other sessionId with rfl | hne
    · simp at hr
    · simpa [hne] using hr
  | verify i sessionId userId password =>
    rw [State.step] at hst
    split at hst <;> cases hst
    refine ⟨h.right, fun j caller password' hj => ?_, fun j p hj => ?_, h.asked,
      h.lookedUp, h.stored, h.admitted⟩
    · rcases eq_or_ne j i with rfl | hne
      · simp only [Function.update_self, Option.some.injEq, Phase.begun.injEq] at hj
        rw [← hj.1]
      · exact h.begun j caller password' (by simpa [hne] using hj)
    · rcases eq_or_ne j i with rfl | hne
      · simp at hj
      · exact h.checked j p (by simpa [hne] using hj)
  | readUser i =>
    rw [State.step] at hst
    split at hst <;> cases hst
    next hi => exact h.readUser hi
  | store i =>
    rw [State.step] at hst
    split at hst <;> cases hst
    next hi => exact h.store hi
  | require i sessionId userId =>
    rw [State.step] at hst
    split at hst <;> cases hst
    refine ⟨h.right, h.begun, h.checked, fun j caller hj => ?_, h.lookedUp, h.stored, h.admitted⟩
    rcases eq_or_ne j i with rfl | hne
    · simp only [Function.update_self, Option.some.injEq] at hj
      rw [← hj]
    · exact h.asked j caller (by simpa [hne] using hj)
  | lookUp i =>
    rw [State.step] at hst
    split at hst <;> cases hst
    next hi => exact h.lookUp hi
  | deleteOver i =>
    rw [State.step] at hst
    split at hst <;> cases hst
    exact h.deleteOver i _

/-- **Nobody is let through without the password.**  In every run, for every call that `require` has
let through, the password of an administrator, enabled at that time, was found right for this user
in this session, before the look-up and less than ten minutes before the call, in whole seconds. -/
theorem recent_auth_required {start : ℚ}
    (h : Runs.Reach (State.step verifyPassword) (fun _ _ => True) (State.init start) s)
    {c : Caller × ℚ} (hc : c ∈ s.admitted) :
    ∃ p ∈ s.proofs, p.Right verifyPassword ∧ p.Admits c.1 ∧ p.caller.now ≤ c.2 := by
  have hinv : Inv verifyPassword s :=
    h.invariant (inv_init start) fun _ _ _ _ hs _ hst => hs.step hst
  obtain ⟨p, hp, hadmits, hbefore⟩ := hinv.admitted c hc
  exact ⟨p, hp, (hinv.right p hp).1, hadmits, hbefore⟩

/-- Comparison without hashing. -/
def plainPassword : VerifyPassword := fun password passwordHash => (password == passwordHash, none)

/-- An administrator gives the password in a session and calls after nine minutes. -/
def nineMinutes : List Action :=
  [.setUser 1 (some ⟨"secret", "admin", true⟩), .openSession, .verify 0 1 1 "secret",
    .readUser 0, .store 0, .tick 540, .require 0 1 1, .lookUp 0, .deleteOver 0]

theorem recent_auth_required_of_nineMinutes :
    ∃ s c, Runs.runFrom (State.step plainPassword) (State.init 0) nineMinutes = some s ∧
      c ∈ s.admitted ∧
      ∃ p ∈ s.proofs, p.Right plainPassword ∧ p.Admits c.1 ∧ p.caller.now ≤ c.2 := by
  have hrun : ((Runs.runFrom (State.step plainPassword) (State.init 0) nineMinutes).any fun s =>
      s.admitted.any fun _ => true) = true := by
    decide +kernel
  obtain ⟨s, hs, hprop⟩ := (Option.any_eq_true _ _).mp hrun
  obtain ⟨c, hc, -⟩ := List.any_eq_true.mp hprop
  exact ⟨s, c, hs, hc, recent_auth_required (Runs.reach_of_runFrom hs) hc⟩

/-! ### Ten minutes -/

/-- A step that leaves the row of a proof alone, unless it is over. -/
def keepsRow (p : Proof) (s : State) : Action → Bool
  | .endSession sessionId => sessionId != p.caller.sessionId
  | .setUser userId row => row.isSome || userId != p.caller.userId
  | .store i =>
    match s.verifying i with
    | some (.checked other) => other.caller.sessionId != p.caller.sessionId
    | _ => true
  | _ => true

/-- The row of the proof is there until its time has come. -/
def Lasts (p : Proof) (s : State) : Prop :=
  isoAt s.clock < p.row.expiresAt → s.rows p.caller.sessionId = some p.row

theorem isoAt_mono {t u : ℚ} (h : t ≤ u) : isoAt t ≤ isoAt u := Int.floor_le_floor h

theorem Lasts.step (h : Lasts p s) (hinv : Inv verifyPassword s) (hkeep : keepsRow p s a = true)
    (hst : s.step verifyPassword a = some s') : Lasts p s' := by
  cases a with
  | tick now =>
    rw [State.step] at hst
    split at hst
    · next hle =>
      cases hst
      exact fun hin => h (lt_of_le_of_lt (isoAt_mono hle) hin)
    · cases hst
  | setUser userId row =>
    cases hst
    intro hin
    -- The row is the user's, so that the cascade of a deletion does not reach it.
    show (s.rows p.caller.sessionId).filter _ = _
    rw [h hin]
    exact Option.filter_some_pos (by rw [bne_comm]; exact hkeep)
  | openSession =>
    cases hst
    exact h
  | endSession sessionId =>
    cases hst
    intro hin
    have hother : p.caller.sessionId ≠ sessionId := (bne_iff_ne.mp hkeep).symm
    show Function.update s.rows sessionId none _ = _
    rw [Function.update_of_ne hother]
    exact h hin
  | verify i sessionId userId password =>
    rw [State.step] at hst
    split at hst <;> cases hst
    exact h
  | readUser i =>
    rw [State.step] at hst
    split at hst <;> cases hst
    unfold State.readUser
    dsimp only
    split
    · exact h
    · split <;> exact h
  | store i =>
    rw [State.step] at hst
    split at hst <;> cases hst
    next other hi =>
    rw [keepsRow, hi] at hkeep
    have hother : p.caller.sessionId ≠ other.caller.sessionId := (bne_iff_ne.mp hkeep).symm
    unfold State.store
    dsimp only
    split
    · exact h
    split
    · intro hin
      show Function.update s.rows other.caller.sessionId _ _ = _
      rw [Function.update_of_ne hother]
      exact h hin
    · exact h
  | require i sessionId userId =>
    rw [State.step] at hst
    split at hst <;> cases hst
    exact h
  | lookUp i =>
    rw [State.step] at hst
    split at hst <;> cases hst
    exact h
  | deleteOver i =>
    rw [State.step] at hst
    split at hst <;> cases hst
    next caller hi =>
    intro hin
    -- The time of a look-up has passed, so that what it takes for over is over.
    have hpast := isoAt_mono (hinv.lookedUp i caller hi)
    show (s.rows p.caller.sessionId).filter _ = _
    rw [h hin]
    refine Option.filter_some_pos ?_
    rw [Bool.not_eq_true', decide_eq_false_iff_not, not_le]
    exact lt_of_le_of_lt hpast hin

/-- **The password lasts ten minutes.**  Once it is stored, for a session and a user that are still
there, the caller is let through at any time of the ten minutes, in every run in which the session
does not end or give a password again and the user is not deleted, whoever else asks meanwhile. -/
theorem recent_auth_lasts {start : ℚ} {i : ℕ}
    (h₀ : Runs.Reach (State.step verifyPassword) (fun _ _ => True) (State.init start) s)
    (hi : s.verifying i = some (.checked p)) (huser : (s.users p.caller.userId).isSome = true)
    (hlive : s.live p.caller.sessionId = true)
    (h : Runs.Reach (State.step verifyPassword) (fun s a => keepsRow p s a = true) (s.store i p) s')
    (hin : isoAt s'.clock < isoAt (p.caller.now + recoveryRecentAuthSeconds)) :
    s'.passes { p.caller with now := s'.clock } = true := by
  have hinv₀ : Inv verifyPassword s :=
    h₀.invariant (inv_init start) fun _ _ _ _ hs _ hst => hs.step hst
  have hstored : (s.store i p).rows p.caller.sessionId = some p.row := by
    obtain ⟨user, huser⟩ := Option.isSome_iff_exists.mp huser
    unfold State.store
    rw [huser]
    dsimp only
    rw [if_pos hlive]
    exact Function.update_self ..
  have hall : Inv verifyPassword s' ∧ Lasts p s' := by
    refine Runs.Reach.invariant (P := fun s => Inv verifyPassword s ∧ Lasts p s)
      ⟨hinv₀.store hi, fun _ => hstored⟩ (fun _ _ _ _ hs hok hst => ?_) h
    exact ⟨hs.1.step hst, hs.2.step hs.1 hok hst⟩
  exact passes_iff.mpr ⟨p.row, hall.2 hin, rfl, hin⟩

/-- The session of an administrator, who has given the password. -/
def givenPassword : List Action :=
  [.setUser 1 (some ⟨"secret", "admin", true⟩), .openSession, .verify 0 1 1 "secret", .readUser 0]

/-- Another call, a new session, and its end. -/
def meanwhile : List Action :=
  [.require 0 1 1, .tick 599, .openSession, .lookUp 0, .endSession 2, .deleteOver 0]

theorem recent_auth_lasts_of_meanwhile :
    ∃ s p s', Runs.runFrom (State.step plainPassword) (State.init 0) givenPassword = some s ∧
      Runs.runFrom (Runs.guarded (State.step plainPassword) (keepsRow p)) (s.store 0 p)
        meanwhile = some s' ∧
      s'.clock = 599 ∧ s'.passes { p.caller with now := s'.clock } = true := by
  have hrun : ((Runs.runFrom (State.step plainPassword) (State.init 0) givenPassword).any fun s =>
      match s.verifying 0 with
      | some (.checked p) => (s.users p.caller.userId).isSome && s.live p.caller.sessionId &&
        (Runs.runFrom (Runs.guarded (State.step plainPassword) (keepsRow p)) (s.store 0 p)
            meanwhile).any fun s' =>
          decide (s'.clock = 599 ∧
            isoAt s'.clock < isoAt (p.caller.now + recoveryRecentAuthSeconds))
      | _ => false) = true := by
    decide +kernel
  obtain ⟨s, hs, hprop⟩ := (Option.any_eq_true _ _).mp hrun
  split at hprop
  · next p hi =>
    rw [Bool.and_eq_true, Bool.and_eq_true] at hprop
    obtain ⟨⟨huser, hlive⟩, hrest⟩ := hprop
    obtain ⟨s', hs', hin⟩ := (Option.any_eq_true _ _).mp hrest
    have hin := of_decide_eq_true hin
    exact ⟨s, p, s', hs, hs', hin.1, recent_auth_lasts (Runs.reach_of_runFrom hs) hi huser hlive
      (Runs.reach_of_guarded (Runs.reach_of_runFrom hs')) hin.2⟩
  · cases hprop

/-- What the status calls verified is let through. -/
theorem passes_of_expiresInSeconds (h : 0 < s.expiresInSeconds caller) :
    s.passes caller = true := by
  unfold State.expiresInSeconds at h
  split at h
  · next hpasses => exact hpasses
  · exact absurd h (lt_irrefl 0)

end RecentAuth
