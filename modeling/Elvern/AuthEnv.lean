/-
What the accounts code is configured with and calls into.

`AuthEnv` has the settings that the modelled functions read and the functions of
libraries outside the repository (hashes, Fernet, argon2, pyotp) as parameters.
On them are defined the token hashes and the at-rest encryption of the repository.
-/
import Elvern.AuthTables

open PyText

/-- Settings and library functions. -/
structure AuthEnv where
  /-- `hash_token_hmac(session_secret, purpose=…, token=…)` -/
  hashTokenHmac : String → String → String
  /-- `hmac.new(session_secret, …, sha256).hexdigest()` -/
  hmacSha256 : String → String
  /-- `hashlib.sha256(…).hexdigest()` -/
  sha256 : String → String
  /-- `Fernet.encrypt`, with the randomness of its initialisation vector -/
  fernetEncrypt : String → String → String
  /-- `Fernet.decrypt`; `none` for an invalid token -/
  fernetDecrypt : String → Option String
  /-- `hash_password`, with its salt -/
  hashPassword : String → String → String
  /-- `verify_password`: whether the password is right, and an upgraded hash -/
  verifyPassword : String → String → Bool × Option String
  /-- `pyotp.TOTP(secret).at(window * 30)` -/
  totpAt : String → ℤ → String
  unicode : Unicode
  sessionSecret : String
  sessionTtlHours : ℕ
  sessionIdleTimeoutHours : ℕ
  playbackTokenTtlSeconds : ℕ
  externalPlayerStreamTtlSeconds : ℕ
  nativePlaybackEnabled : Bool
  /-- A row of `media_items` -/
  mediaItemExists : ℕ → Bool
  /-- `resolve_media_age_requirement` of an item that exists -/
  mediaAgeRequirement : ℕ → Option ℕ
  /-- `is_item_download_allowed` -/
  itemDownloadAllowed : ℕ → ℕ → Bool

namespace AuthEnv

variable (env : AuthEnv)

/-- `_hash_auth_session_token` -/
def hashAuthSessionToken (token : String) : String := env.hashTokenHmac "auth.session" token

/-- `hash_challenge_token` -/
def hashChallengeToken (token : String) : String :=
  env.hashTokenHmac "auth.login_challenge" token

/-- `_secret_hash` -/
def secretHash (kind value : String) : String :=
  env.sha256 (kind ++ "\n" ++ env.sessionSecret ++ "\n" ++ value)

/-- `hash_session_token` -/
def hashSessionToken (token : String) : String := env.sha256 (env.sessionSecret ++ ":" ++ token)

/-! ### At-rest encryption -/

/-- `CIPHERTEXT_PREFIX` -/
def ciphertextPrefix : String := "fernet1$"

/-- `encrypt_at_rest` -/
def encryptAtRest (salt value : String) : String :=
  if value = "" then "" else ciphertextPrefix ++ env.fernetEncrypt salt value

/-- `decrypt_at_rest`: the plain text and whether it was encrypted; `none` is the
`ValueError` of an unreadable ciphertext. -/
def decryptAtRest (stored : String) : Option (String × Bool) :=
  if stored = "" then some ("", false)
  else
    match afterPrefix ciphertextPrefix stored with
    | none => some (stored, false)
    | some ciphertext => (env.fernetDecrypt ciphertext).map fun plain => (plain, true)

end AuthEnv

/-! ### Age access -/

/-- `validate_age_credential` on a number. -/
def validateAgeCredential (age : ℕ) : Except PyError ℕ :=
  if age < 1 ∨ 18 < age then
    .error (.http 400 "Age credential must be a whole number from 1 to 18")
  else .ok age

/-- `_age_denied_message` -/
def ageDeniedMessage (requirement : ℕ) : String :=
  if 18 ≤ requirement then
    "You must be 18+ years old to view this film. Please contact an admin if your age credentials are incorrect."
  else
    "You must be " ++ toString requirement ++
      " years old to view this film. Please contact an admin if your age credentials are incorrect."

/-- `assert_user_can_access_media_by_age` -/
def AuthEnv.assertUserCanAccessMediaByAge (env : AuthEnv) (role : Role)
    (ageCredential itemId : ℕ) : Except PyError Unit :=
  if role = .admin then .ok ()
  else if env.mediaItemExists itemId = false then .error (.http 404 "Media item not found")
  else
    match env.mediaAgeRequirement itemId with
    | none => .ok ()
    | some requirement => do
      let age ← validateAgeCredential ageCredential
      if age < requirement then .error (.http 403 (ageDeniedMessage requirement)) else .ok ()

/-! ### A sample -/

/-- An environment in which the code of window 100 is `123456`. -/
def sampleEnv : AuthEnv where
  hashTokenHmac purpose token := purpose ++ ":" ++ token
  hmacSha256 text := text
  sha256 text := text
  fernetEncrypt _ value := value
  fernetDecrypt token := some token
  hashPassword _ password := password
  verifyPassword password stored := (password == stored, none)
  totpAt _ window := if window = 100 then "123456" else "000000"
  unicode := .ascii
  sessionSecret := "secret"
  sessionTtlHours := 8760
  sessionIdleTimeoutHours := 24
  playbackTokenTtlSeconds := 300
  externalPlayerStreamTtlSeconds := 300
  nativePlaybackEnabled := true
  mediaItemExists _ := true
  mediaAgeRequirement _ := none
  itemDownloadAllowed _ _ := true

/-- A user of that environment with the second factor enabled. -/
def sampleUser (id : ℕ) : UserRow where
  id := id
  username := "lee"
  passwordHash := "pw"
  role := .standardUser
  enabled := true
  totpSecret := some "fernet1$SECRET"
  totpEnabledAt := some 0
  totpLastUsedWindow := none
  totpSetupPromptEnabled := false
  assistantBetaEnabled := false
  ageCredential := 18

theorem sampleUser_id (id : ℕ) : (sampleUser id).id = id := rfl
