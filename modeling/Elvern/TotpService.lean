/-
The second factor (`totp_service.py` and the helpers of `routes/auth.py`).

* `AuthEnv.verifyTotpCode` — the check of a code against three windows, skipping those
  up to the last one used;
* `AuthEnv.consumeRecoveryCode`, `AuthEnv.resolveUserTotpSecret` — the statements that the
  login routes run on the recovery codes and the stored secret.
-/
import Elvern.AuthEnv

open Tables Statements Statements.Program PyText

/-- `CHALLENGE_TOKEN_TTL_SECONDS` -/
def challengeTokenTtl : Time := 300

namespace AuthDb

/-- `UPDATE users SET … WHERE id = ?` -/
def updateUser (db : AuthDb) (id : ℕ) (f : UserRow → UserRow)
    (hf : ∀ u, (f u).id = u.id) : AuthDb :=
  { db with users := db.users.updateWhere (fun u => u.id == id) f hf }

/-- `UPDATE user_recovery_codes SET used_at = ? WHERE id = ?` -/
def useRecoveryCode (db : AuthDb) (id : ℕ) (now : Time) : AuthDb :=
  { db with
    recoveryCodes := db.recoveryCodes.updateWhere (fun c => c.id == id)
      (fun c => { c with usedAt := some now }) fun _ => rfl }

/-- `DELETE FROM login_challenges WHERE challenge_token_hash = ?` -/
def deleteChallenge (db : AuthDb) (hash : String) : AuthDb :=
  { db with loginChallenges := db.loginChallenges.filter fun c => c.challengeTokenHash != hash }

/-- `UPDATE users SET totp_secret = ? WHERE id = ?` -/
def storeTotpSecret (db : AuthDb) (id : ℕ) (stored : String) : AuthDb :=
  db.updateUser id (fun u => { u with totpSecret := some stored }) fun _ => rfl

/-- `UPDATE users SET totp_last_used_window = ? WHERE id = ?` -/
def storeTotpWindow (db : AuthDb) (id : ℕ) (window : ℤ) : AuthDb :=
  db.updateUser id (fun u => { u with totpLastUsedWindow := some window }) fun _ => rfl

/-- `_clear_user_totp_for_reenrollment` -/
def clearUserTotpForReenrollment (db : AuthDb) (id : ℕ) : AuthDb :=
  let db := db.updateUser id
    (fun u => { u with
      totpSecret := none, totpEnabledAt := none, totpLastUsedWindow := none,
      totpSetupPromptEnabled := true })
    fun _ => rfl
  { db with recoveryCodes := db.recoveryCodes.deleteWhere fun c => c.userId == id }

end AuthDb

namespace AuthEnv

variable (env : AuthEnv)

/-- The loop of `verify_totp_code` over the windows. -/
def scanWindows (secret code : String) (lastUsedWindow : Option ℤ) :
    List ℤ → Except PyError (Bool × Option ℤ)
  | [] => .ok (false, none)
  | window :: rest =>
    if lastUsedWindow.any fun last => decide (window ≤ last) then
      scanWindows secret code lastUsedWindow rest
    -- `hmac.compare_digest` refuses texts that are not ASCII.
    else if !isascii code then .error .typeError
    else if env.totpAt secret window = code then .ok (true, some window)
    else scanWindows secret code lastUsedWindow rest

/-- `verify_totp_code` -/
def verifyTotpCode (secret code : String) (lastUsedWindow : Option ℤ) (now : Time) :
    Except PyError (Bool × Option ℤ) :=
  if code = "" ∨ isdigit env.unicode code = false ∨ code.length ≠ 6 then .ok (false, none)
  else
    let current := now.floor / 30
    env.scanWindows secret code lastUsedWindow [current - 1, current, current + 1]

/-- `normalize_recovery_input` -/
def normalizeRecoveryInput (raw : String) : String := lower env.unicode (strip env.unicode raw)

/-- `hash_recovery_code` -/
def hashRecoveryCode (code : String) : String :=
  "hmac1$" ++ env.hmacSha256 ("elvern-recovery-code-v1:" ++ env.normalizeRecoveryInput code)

/-- `legacy_hash_recovery_code` -/
def legacyHashRecoveryCode (code : String) : String :=
  env.sha256 (env.normalizeRecoveryInput code)

/-- `recovery_code_hash_candidates` -/
def recoveryCodeHashCandidates (code : String) : String × String :=
  let normalized := env.normalizeRecoveryInput code
  (env.hashRecoveryCode normalized, env.legacyHashRecoveryCode normalized)

/-- `_consume_recovery_code`; it returns the row of the code that it used. -/
def consumeRecoveryCode (userId : ℕ) (code : String) : Request (Option ℕ) := do
  let (hardened, legacy) := env.recoveryCodeHashCandidates code
  let row ← query fun db => db.recoveryCodes.find fun c =>
    c.userId == userId && (c.codeHash == hardened || c.codeHash == legacy) && c.usedAt.isNone
  match row with
  | none => .ret none
  | some c => do
    let clock ← input
    update fun db => db.useRecoveryCode c.id clock.now
    .ret (some c.id)

/-- `_resolve_user_totp_secret` -/
def resolveUserTotpSecret (userId : ℕ) (stored : Option String) : Request (Option String) :=
  match stored with
  | none => .ret none
  | some stored =>
    if stored = "" then .ret none
    else
      match env.decryptAtRest stored with
      | none => do
        update fun db => db.clearUserTotpForReenrollment userId
        .ret none
      | some (secret, wasEncrypted) =>
        if secret = "" then .ret none
        else if wasEncrypted then .ret (some secret)
        else do
          let salt ← input
          update fun db => db.storeTotpSecret userId (env.encryptAtRest salt.fresh secret)
          .ret (some secret)

/-- A code is accepted only for a window after the last one used. -/
theorem scanWindows_gt {secret code : String} {last : Option ℤ} {window : ℤ} :
    ∀ {windows : List ℤ}, env.scanWindows secret code last windows = .ok (true, some window) →
      ∀ w, last = some w → w < window := by
  intro windows
  induction windows with
  | nil =>
    intro h
    simp [scanWindows] at h
  | cons x rest ih =>
    intro h w hw
    subst hw
    simp only [scanWindows, Option.any_some] at h
    by_cases hx : x ≤ w
    · rw [if_pos (by simpa using hx)] at h
      exact ih h w rfl
    · rw [if_neg (by simpa using hx)] at h
      by_cases hascii : isascii code
      · simp only [hascii, Bool.not_true, Bool.false_eq_true, if_false] at h
        by_cases heq : env.totpAt secret x = code
        · simp only [heq, if_true, Except.ok.injEq, Prod.mk.injEq, Option.some.injEq, true_and] at h
          omega
        · rw [if_neg heq] at h
          exact ih h w rfl
      · simp [hascii] at h

/-- The windows of `verify_totp_code` only move forward. -/
theorem verifyTotpCode_gt {secret code : String} {last : Option ℤ} {now : Time} {window : ℤ}
    (h : env.verifyTotpCode secret code last now = .ok (true, some window)) :
    ∀ w, last = some w → w < window := by
  rw [verifyTotpCode] at h
  split at h
  · simp at h
  · exact env.scanWindows_gt h

end AuthEnv
