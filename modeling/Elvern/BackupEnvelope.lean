/-
Backup envelopes (`backup_encryption.py`, `backup_keyring_service.py`).

An envelope of the second version is a magic text, the length of a JSON header, the header, the
ciphertext, its tag, and a footer with the length of the ciphertext.  It is written chunk by chunk
(`V2EncryptingWriter`) and read in two ways: from bytes (`decryptBackup`) and from a file, with
seeks, window by window (`decryptBackupFileV2`).  JSON, base64, the key derivations and AES-GCM are
functions of the `Env`.
-/
import Mathlib.Algebra.Ring.Nat
import Mathlib.Data.Rat.Defs

namespace Backup

abbrev Bytes := List UInt8

/-- A text of ASCII characters as bytes. -/
def ascii (s : String) : Bytes := s.toList.map fun c => UInt8.ofNat c.toNat

/-- Classes of exceptions; the first seven are those of this module, all of them `ValueError`s. -/
inductive ErrorClass where
  | backupEncryption
  | passphraseRequired
  | wrongPassphrase
  | integrity
  | truncated
  | unsupportedFormat
  | keyUnavailable
  | valueError
  /-- `UnicodeDecodeError` and `JSONDecodeError`, which are `ValueError`s -/
  | decodeError
  | structError
  | typeError
  | keyError
  | osError
  | other (name : String)
  deriving DecidableEq

structure PyException where
  cls : ErrorClass
  detail : String
  deriving DecidableEq

/-- `isinstance(exc, ValueError)` -/
def PyException.isValueError (e : PyException) : Bool :=
  match e.cls with
  | .structError | .typeError | .keyError | .osError | .other _ => false
  | _ => true

/-- What `json.loads` returns. -/
inductive Json where
  | null
  | bool (b : Bool)
  | int (n : ℤ)
  | float (q : ℚ)
  | nonFinite (text : String)
  | str (s : String)
  | array (items : List Json)
  | object (fields : List (String × Json))

/-- `bool(value)` -/
def Json.truthy : Json → Bool
  | .null => false
  | .bool b => b
  | .int n => decide (n ≠ 0)
  | .float q => decide (q ≠ 0)
  | .nonFinite _ => true
  | .str s => decide (s ≠ "")
  | .array items => !items.isEmpty
  | .object fields => !fields.isEmpty

/-- `value == n` for an integer -/
def Json.eqInt (n : ℤ) : Json → Bool
  | .int m => decide (m = n)
  | .float q => decide (q = n)
  | .bool b => decide ((if b then 1 else 0) = n)
  | _ => false

/-- `value == s` for a string -/
def Json.eqStr (s : String) : Json → Bool
  | .str s' => decide (s' = s)
  | _ => false

/-- The header, under its keys. -/
abbrev Header := List (String × Json)

/-- `header.get(key)` -/
def Header.get (header : Header) (key : String) : Option Json := header.lookup key

/-- The value under a key if it is true, as `header.get(key) or …` looks at it. -/
def Header.getTrue (header : Header) (key : String) : Option Json :=
  (header.get key).filter Json.truthy

/-- Library functions, as far as the envelope uses them. -/
structure Env where
  /-- `json.dumps(header, ensure_ascii=True, separators=(",", ":"), sort_keys=True)`, encoded -/
  jsonDumps : Header → Bytes
  /-- `json.loads(blob.decode("utf-8"))` -/
  jsonLoads : Bytes → Except PyException Json
  /-- `int(value)` -/
  intOf : Json → Except PyException ℤ
  /-- `str(value)` -/
  strOf : Json → String
  b64encode : Bytes → String
  /-- `base64.b64decode(text, validate=True)` -/
  b64decode : String → Except PyException Bytes
  hmacSha256 : Bytes → Bytes → Bytes
  /-- `hashlib.pbkdf2_hmac("sha256", …, dklen=32)` -/
  pbkdf2 : String → Bytes → ℤ → Except PyException Bytes
  /-- `algorithms.AES(key)` -/
  aes : Bytes → Except PyException Unit
  /-- The counter mode of GCM, from a position on; it both encrypts and decrypts. -/
  ctr : Bytes → Bytes → ℕ → Bytes → Bytes
  /-- The tag of GCM, of a key, a nonce, associated data and a ciphertext. -/
  gcmTag : Bytes → Bytes → Bytes → Bytes → Bytes
  /-- Whether `finalize` of a decryptor accepts the tag. -/
  gcmAccepts : Bytes → Bytes → Bytes → Bytes → Bytes → Bool
  /-- `derive_backup_key_auto`, by the session secret -/
  deriveBackupKeyAuto : String → Bytes
  deriveBackupKeyPassphrase : String → Bytes → ℕ → Bytes
  fernetDecrypt : Bytes → Bytes → Option Bytes

/-! ### Constants and numbers -/

def headerMagic : Bytes := ascii "ELVERN_BACKUP_V1"
def headerMagicV2 : Bytes := ascii "ELVERN_BACKUP_V2\n"
def footerMagicV2 : Bytes := ascii "ELV2LEN1"
def nonceBytesV2 : ℕ := 12
def tagBytesV2 : ℕ := 16
def footerBytesV2 : ℕ := 8 + 8
def saltBytes : ℕ := 16
def keyVerifierBytesV2 : ℕ := 16
def pbkdf2IterationsBackup : ℕ := 600000
def streamChunkBytes : ℕ := 1024 * 1024
def headerLengthV1 : ℕ := 16 + 1 + saltBytes + 4

/-- `struct.pack` of an unsigned number, big-endian, of so many bytes -/
def packBE : ℕ → ℕ → Bytes
  | 0, _ => []
  | width + 1, n => packBE width (n / 256) ++ [UInt8.ofNat (n % 256)]

/-- `struct.unpack` of it -/
def unpackBE (bytes : Bytes) : ℕ := bytes.foldl (fun n b => n * 256 + b.toNat) 0

/-! ### The keyring -/

def keyBytes : ℕ := 32

/-- The keyring file, as far as it is looked at: the base64 texts of the keys under their ids. -/
structure Keyring where
  activeKeyId : String
  keys : String → Option String

/-- What stands at the path of the keyring. -/
inductive KeyringFile where
  | absent
  | unusable (detail : String)
  | file (keyring : Keyring)

structure Settings where
  keyring : KeyringFile
  sessionSecret : String

namespace Settings

variable (settings : Settings) (env : Env)

/-- `BackupKeyringService._load_existing` -/
def loadExisting : Except PyException Keyring :=
  match settings.keyring with
  | .absent => .error ⟨.valueError, "Backup keyring is unavailable"⟩
  | .unusable detail => .error ⟨.valueError, detail⟩
  | .file keyring => .ok keyring

/-- `BackupKeyringService._decode_key` -/
def decodeKey (keyring : Keyring) (keyId : String) : Except PyException Bytes :=
  match keyring.keys keyId with
  | none => .error ⟨.valueError, "Backup key is unavailable"⟩
  | some text =>
    match env.b64decode text with
    | .error e =>
      if e.isValueError then .error ⟨.valueError, "Backup key is invalid"⟩ else .error e
    | .ok key =>
      if key.length ≠ keyBytes then .error ⟨.valueError, "Backup key has an invalid length"⟩
      else .ok key

/-- `BackupKeyringService.read_key` -/
def readKey (keyId : String) : Except PyException Bytes := do
  decodeKey env (← settings.loadExisting) keyId

/-- `BackupKeyringService.active_write_key`: the key with its id, and the settings with the keyring
that it found or, of a new id and key, made. -/
def activeWriteKey (newKeyId : String) (newKey : Bytes) :
    Except PyException (String × Bytes × Settings) := do
  let settings := match settings.keyring with
    | .absent =>
      { settings with
        keyring := .file ⟨newKeyId, fun keyId =>
          if keyId = newKeyId then some (env.b64encode newKey) else none⟩ }
    | _ => settings
  let keyring ← settings.loadExisting
  let key ← decodeKey env keyring keyring.activeKeyId
  return (keyring.activeKeyId, key, settings)

end Settings

/-! ### Headers and keys -/

/-- `validate_backup_passphrase` -/
def validateBackupPassphrase (passphrase : String) : Except PyException String :=
  if passphrase.length < 12 then
    .error ⟨.valueError, "Backup passphrase must be at least 12 characters"⟩
  else if 1024 < passphrase.length then
    .error ⟨.valueError, "Backup passphrase must be at most 1024 characters"⟩
  else .ok passphrase

/-- `if passphrase:` -/
def givenPassphrase (passphrase : Option String) : Option String :=
  passphrase.filter fun s => decide (s ≠ "")

/-- `_key_verifier` -/
def keyVerifier (env : Env) (key nonce : Bytes) : String :=
  env.b64encode ((env.hmacSha256 key (ascii "elvern-backup-v2-key-verifier\x00" ++ nonce)).take
    keyVerifierBytesV2)

/-- `hmac.compare_digest` of two strings -/
def compareDigest (a b : String) : Except PyException Bool :=
  if (a.toList ++ b.toList).all fun c => decide (c.toNat < 128) then .ok (decide (a = b))
  else .error ⟨.typeError, "comparing strings with non-ASCII characters is not supported"⟩

/-- `_encode_v2_header` -/
def encodeV2Header (env : Env) (header : Header) : Except PyException Bytes :=
  let headerBytes := env.jsonDumps header
  if 64 * 1024 < headerBytes.length then
    .error ⟨.backupEncryption, "Backup header is too large"⟩
  else .ok (headerMagicV2 ++ packBE 4 headerBytes.length ++ headerBytes)

/-- The `try` of both header readers. -/
def parseHeader (env : Env) (headerBlob : Bytes) : Except PyException Header :=
  match env.jsonLoads headerBlob with
  | .error e =>
    if e.cls = .decodeError then .error ⟨.integrity, "Backup header is invalid"⟩ else .error e
  | .ok (.object fields) => .ok fields
  | .ok _ => .error ⟨.integrity, "Backup header is invalid"⟩

/-- `_read_v2_header_bytes` -/
def readV2HeaderBytes (env : Env) (blob : Bytes) : Except PyException (Bytes × Header) :=
  let minimum := headerMagicV2.length + 4
  if blob.length < minimum ∨ headerMagicV2.isPrefixOf blob = false then
    .error ⟨.unsupportedFormat, "Not an Elvern V2 backup"⟩
  else
    let headerLength := unpackBE ((blob.take minimum).drop headerMagicV2.length)
    if headerLength = 0 ∨ 64 * 1024 < headerLength then
      .error ⟨.integrity, "Backup header length is invalid"⟩
    else
      let headerEnd := minimum + headerLength
      if blob.length < headerEnd then .error ⟨.truncated, "Encrypted backup is truncated"⟩
      else do
        let header ← parseHeader env ((blob.take headerEnd).drop minimum)
        return (blob.take headerEnd, header)

/-- `_read_v2_header` of a file -/
def readV2Header (env : Env) (file : Bytes) : Except PyException (Bytes × Header) :=
  let front := file.take (headerMagicV2.length + 4)
  if front.length < headerMagicV2.length + 4 ∨ headerMagicV2.isPrefixOf front = false then
    .error ⟨.unsupportedFormat, "Not an Elvern V2 backup"⟩
  else
    let headerLength := unpackBE (front.drop (front.length - 4))
    if headerLength = 0 ∨ 64 * 1024 < headerLength then
      .error ⟨.integrity, "Backup header length is invalid"⟩
    else
      let headerBlob := (file.drop front.length).take headerLength
      if headerBlob.length ≠ headerLength then
        .error ⟨.truncated, "Encrypted backup is truncated"⟩
      else do
        let header ← parseHeader env headerBlob
        return (front ++ headerBlob, header)

/-- `base64.b64decode(str(header["nonce_b64"]), validate=True)` -/
def decodeNonce (env : Env) (header : Header) : Except PyException Bytes :=
  match header.get "nonce_b64" with
  | none => .error ⟨.keyError, "nonce_b64"⟩
  | some value => env.b64decode (env.strOf value)

/-- The passphrase branch of `_resolve_v2_key`: the salt and the number of iterations. -/
def passphraseParameters (env : Env) (header : Header) : Except PyException (Bytes × ℤ) :=
  let parameters : Except PyException (Bytes × ℤ) := do
    let salt ← match header.get "salt_b64" with
      | none => .error ⟨.keyError, "salt_b64"⟩
      | some value => env.b64decode (env.strOf value)
    let iterations ← match header.get "pbkdf2_iterations" with
      | none => .error ⟨.keyError, "pbkdf2_iterations"⟩
      | some value => env.intOf value
    return (salt, iterations)
  match parameters with
  | .error e =>
    if e.isValueError ∨ e.cls = .keyError ∨ e.cls = .typeError then
      .error ⟨.integrity, "Backup passphrase parameters are invalid"⟩
    else .error e
  | .ok (salt, iterations) =>
    if salt.length ≠ saltBytes ∨ iterations < pbkdf2IterationsBackup then
      .error ⟨.integrity, "Backup passphrase parameters are invalid"⟩
    else .ok (salt, iterations)

/-- The key of `_resolve_v2_key` before its verification. -/
def sourceKey (env : Env) (settings : Settings) (header : Header) (passphrase : Option String) :
    Except PyException Bytes :=
  match header.get "key_source" with
  | none => .error ⟨.unsupportedFormat, "Backup key source is unsupported"⟩
  | some source =>
    if source.eqStr "auto" then
      let keyId := ((header.getTrue "key_id").map env.strOf).getD ""
      match settings.readKey env keyId with
      | .error e =>
        if e.isValueError ∨ e.cls = .osError then
          .error ⟨.keyUnavailable, "The backup encryption key is unavailable"⟩
        else .error e
      | .ok key => .ok key
    else if source.eqStr "passphrase" then
      match givenPassphrase passphrase with
      | none => .error ⟨.passphraseRequired, "This backup requires a passphrase"⟩
      | some passphrase => do
        let (salt, iterations) ← passphraseParameters env header
        let passphrase ← validateBackupPassphrase passphrase
        env.pbkdf2 passphrase salt iterations
    else .error ⟨.unsupportedFormat, "Backup key source is unsupported"⟩

/-- `_resolve_v2_key` -/
def resolveV2Key (env : Env) (settings : Settings) (header : Header) (passphrase : Option String) :
    Except PyException Bytes :=
  if (header.get "format_version").any (Json.eqInt 2) = false ∨
      (header.get "algorithm").any (Json.eqStr "AES-256-GCM") = false then
    .error ⟨.unsupportedFormat, "Backup format or algorithm is unsupported"⟩
  else
    match decodeNonce env header with
    | .error e =>
      if e.isValueError ∨ e.cls = .keyError then .error ⟨.integrity, "Backup nonce is invalid"⟩
      else .error e
    | .ok nonce =>
      if nonce.length ≠ nonceBytesV2 then .error ⟨.integrity, "Backup nonce is invalid"⟩
      else do
        let key ← sourceKey env settings header passphrase
        let stored := ((header.getTrue "key_verifier").map env.strOf).getD ""
        if ← compareDigest stored (keyVerifier env key nonce) then return key
        else if (header.get "key_source").any (Json.eqStr "passphrase") then
          throw ⟨.wrongPassphrase, "Wrong backup passphrase"⟩
        else throw ⟨.integrity, "Backup key verification failed"⟩

/-- `int(header.get("envelope_revision") or 1)` -/
def envelopeRevision (env : Env) (header : Header) : Except PyException ℤ :=
  match header.getTrue "envelope_revision" with
  | none => .ok 1
  | some value => env.intOf value

/-! ### Writing -/

/-- `V2EncryptingWriter`, with what it has written to its handle; the encryptor has seen the
ciphertext so far. -/
structure V2EncryptingWriter where
  handle : Bytes
  key : Bytes
  nonce : Bytes
  aad : Bytes
  ciphertext : Bytes
  header : Header
  closed : Bool
  bytesIn : ℕ

/-- The randomness of a new writer, and of a keyring that it may have to make. -/
structure Randomness where
  nonce : Bytes
  salt : Bytes
  newKeyId : String
  newKey : Bytes
  nonce_length : nonce.length = nonceBytesV2
  salt_length : salt.length = saltBytes

/-- The header of a new envelope. -/
def newHeader (env : Env) (keyId : Option String) (keySource : String) (key nonce salt : Bytes)
    (iterations : ℕ) : Header :=
  [("algorithm", .str "AES-256-GCM"), ("envelope_revision", .int 2), ("format_version", .int 2),
    ("key_id", keyId.elim .null .str), ("key_source", .str keySource),
    ("key_verifier", .str (keyVerifier env key nonce)), ("nonce_b64", .str (env.b64encode nonce)),
    ("pbkdf2_iterations", .int iterations),
    ("salt_b64", .str (if salt = [] then "" else env.b64encode salt))]

namespace V2EncryptingWriter

variable (env : Env)

/-- The key and the header of a new writer, and the settings it leaves. -/
def keyAndHeader (settings : Settings) (random : Randomness) (passphrase : Option String) :
    Except PyException (Bytes × Header × Settings) :=
  match givenPassphrase passphrase with
  | some passphrase => do
    let passphrase ← validateBackupPassphrase passphrase
    let key ← env.pbkdf2 passphrase random.salt pbkdf2IterationsBackup
    return (key, newHeader env none "passphrase" key random.nonce random.salt
      pbkdf2IterationsBackup, settings)
  | none => do
    let (keyId, key, settings) ← settings.activeWriteKey env random.newKeyId random.newKey
    return (key, newHeader env (some keyId) "auto" key random.nonce [] 0, settings)

/-- `V2EncryptingWriter.__init__`, with the settings it leaves -/
def new (settings : Settings) (random : Randomness) (passphrase : Option String) :
    Except PyException (V2EncryptingWriter × Settings) := do
  let (key, header, settings) ← keyAndHeader env settings random passphrase
  let aad ← encodeV2Header env header
  env.aes key
  return ({ handle := aad, key, nonce := random.nonce, aad, ciphertext := [], header,
            closed := false, bytesIn := 0 }, settings)

/-- `V2EncryptingWriter.write` -/
def write (w : V2EncryptingWriter) (data : Bytes) : Except PyException V2EncryptingWriter :=
  if w.closed then .error ⟨.valueError, "Backup encryption writer is closed"⟩
  else if data = [] then .ok w
  else
    let encrypted := env.ctr w.key w.nonce w.ciphertext.length data
    .ok { w with
      handle := w.handle ++ encrypted
      ciphertext := w.ciphertext ++ encrypted
      bytesIn := w.bytesIn + data.length }

/-- `V2EncryptingWriter.close` -/
def close (w : V2EncryptingWriter) : Except PyException V2EncryptingWriter :=
  if w.closed then .ok w
  else if 2 ^ 64 ≤ w.bytesIn then
    .error ⟨.structError, "argument out of range"⟩
  else
    .ok { w with
      handle := w.handle ++ env.gcmTag w.key w.nonce w.aad w.ciphertext ++ footerMagicV2 ++
        packBE 8 w.bytesIn
      closed := true }

/-- A writer that is given the chunks one after the other and then closed. -/
def writeAll (settings : Settings) (random : Randomness) (passphrase : Option String)
    (chunks : List Bytes) : Except PyException (V2EncryptingWriter × Settings) := do
  let (w, settings) ← new env settings random passphrase
  let w ← chunks.foldlM (write env) w
  return (← w.close env, settings)

end V2EncryptingWriter

/-! ### Reading -/

/-- The first version of the format, in `decrypt_backup`. -/
def decryptBackupV1 (env : Env) (settings : Settings) (passphrase : Option String) (blob : Bytes) :
    Except PyException Bytes :=
  if headerMagic.isPrefixOf blob = false then
    .error ⟨.valueError, "Not an Elvern encrypted backup"⟩
  else if blob.length ≤ headerLengthV1 then
    .error ⟨.valueError, "Encrypted backup is truncated"⟩
  else do
    let keySource := ((blob.drop headerMagic.length).headD 0).toNat
    let salt := (blob.drop (headerMagic.length + 1)).take saltBytes
    let iterations := unpackBE ((blob.drop (headerMagic.length + 1 + saltBytes)).take 4)
    let ciphertext := blob.drop headerLengthV1
    let key ←
      if keySource = 0 then .ok (env.deriveBackupKeyAuto settings.sessionSecret)
      else if keySource = 1 then
        match givenPassphrase passphrase with
        | none => .error ⟨.valueError, "This backup requires a passphrase"⟩
        | some passphrase => .ok (env.deriveBackupKeyPassphrase passphrase salt iterations)
      else .error ⟨.valueError, "Unknown key source " ++ toString keySource⟩
    match env.fernetDecrypt key ciphertext with
    | none => .error ⟨.valueError, "Backup decryption failed (wrong passphrase or corrupt)"⟩
    | some plaintext => return plaintext

/-- Ciphertext and tag of an envelope, in `decrypt_backup`. -/
def splitEnvelope (env : Env) (blob aad : Bytes) (header : Header) :
    Except PyException (Bytes × Bytes) := do
  let revision ← envelopeRevision env header
  if revision = 2 then
    if blob.length < aad.length + tagBytesV2 + footerBytesV2 then
      throw ⟨.truncated, "Encrypted backup is truncated"⟩
    else
      let footerStart := blob.length - footerBytesV2
      let footer := blob.drop footerStart
      if footerMagicV2.isPrefixOf footer = false then
        throw ⟨.truncated, "Encrypted backup length footer is missing"⟩
      else
        let declaredCiphertextBytes := unpackBE (footer.drop footerMagicV2.length)
        let tagStart := footerStart - tagBytesV2
        if declaredCiphertextBytes ≠ tagStart - aad.length then
          throw ⟨.truncated, "Encrypted backup length does not match its footer"⟩
        else
          return ((blob.take tagStart).drop aad.length, (blob.take footerStart).drop tagStart)
  else if revision = 1 then
    if blob.length < aad.length + tagBytesV2 then
      throw ⟨.truncated, "Encrypted backup is truncated"⟩
    else
      return ((blob.take (blob.length - tagBytesV2)).drop aad.length,
        blob.drop (blob.length - tagBytesV2))
  else throw ⟨.unsupportedFormat, "Backup envelope revision is unsupported"⟩

/-- `decrypt_backup` -/
def decryptBackup (env : Env) (settings : Settings) (passphrase : Option String) (blob : Bytes) :
    Except PyException Bytes :=
  if headerMagicV2.isPrefixOf blob then do
    let (aad, header) ← readV2HeaderBytes env blob
    let (ciphertext, tag) ← splitEnvelope env blob aad header
    let key ← resolveV2Key env settings header passphrase
    let nonce ← decodeNonce env header
    env.aes key
    if env.gcmAccepts key nonce aad ciphertext tag then return env.ctr key nonce 0 ciphertext
    else throw ⟨.integrity, "Backup authentication failed"⟩
  else decryptBackupV1 env settings passphrase blob

/-- `seek(position)`, then `read(size)` -/
def readAt (file : Bytes) (position size : ℕ) : Bytes := (file.drop position).take size

/-- The tag of the file and the length of its ciphertext, in `decrypt_backup_file_v2`. -/
def locateCiphertext (env : Env) (file : Bytes) (ciphertextStart : ℕ) (header : Header) :
    Except PyException (ℕ × Bytes) := do
  let revision ← envelopeRevision env header
  if revision = 2 then
    if file.length < ciphertextStart + tagBytesV2 + footerBytesV2 then
      throw ⟨.truncated, "Encrypted backup is truncated"⟩
    else
      let footerStart := file.length - footerBytesV2
      let footer := readAt file footerStart footerBytesV2
      if footerMagicV2.isPrefixOf footer = false then
        throw ⟨.truncated, "Encrypted backup length footer is missing"⟩
      else
        let declaredCiphertextBytes := unpackBE (footer.drop footerMagicV2.length)
        let tagStart := footerStart - tagBytesV2
        let ciphertextRemaining := tagStart - ciphertextStart
        if declaredCiphertextBytes ≠ ciphertextRemaining then
          throw ⟨.truncated, "Encrypted backup length does not match its footer"⟩
        else return (ciphertextRemaining, readAt file tagStart tagBytesV2)
  else if revision = 1 then
    if file.length < ciphertextStart + tagBytesV2 then
      throw ⟨.truncated, "Encrypted backup is truncated"⟩
    else
      return (file.length - ciphertextStart - tagBytesV2,
        readAt file (file.length - tagBytesV2) tagBytesV2)
  else throw ⟨.unsupportedFormat, "Backup envelope revision is unsupported"⟩

/-- The loop of `decrypt_backup_file_v2`: what it writes while so many bytes of ciphertext are left,
and the ciphertext that the decryptor has seen at its end. -/
def decryptStream (env : Env) (key nonce : Bytes) (ciphertextRemaining : ℕ) (source seen : Bytes) :
    Except PyException (Bytes × Bytes) :=
  if _ : ciphertextRemaining = 0 then .ok ([], seen)
  else
    let chunk := source.take (min streamChunkBytes ciphertextRemaining)
    if _ : chunk = [] then .error ⟨.truncated, "Encrypted backup is truncated"⟩
    else do
      let (rest, seen') ← decryptStream env key nonce (ciphertextRemaining - chunk.length)
        (source.drop chunk.length) (seen ++ chunk)
      return (env.ctr key nonce seen.length chunk ++ rest, seen')
termination_by ciphertextRemaining
decreasing_by
  have hlength : 0 < (source.take (min streamChunkBytes ciphertextRemaining)).length :=
    List.length_pos_iff.mpr ‹_›
  exact Nat.sub_lt (Nat.pos_of_ne_zero ‹_›) hlength

/-- `decrypt_backup_file_v2`, of the bytes at the source and what stands at the destination: what it
returns or raises, and what stands there then. -/
def decryptBackupFileV2 (env : Env) (settings : Settings) (passphrase : Option String)
    (file : Bytes) (destination : Option Bytes) : Except PyException Header × Option Bytes :=
  let opened : Except PyException (Bytes × Header × ℕ × Bytes × Bytes × Bytes) := do
    let (aad, header) ← readV2Header env file
    let (ciphertextRemaining, tag) ← locateCiphertext env file aad.length header
    let key ← resolveV2Key env settings header passphrase
    let nonce ← decodeNonce env header
    env.aes key
    return (aad, header, ciphertextRemaining, tag, key, nonce)
  match opened with
  | .error e => (.error e, destination)
  | .ok (aad, header, ciphertextRemaining, tag, key, nonce) =>
    -- from here on the destination is open, and an exception unlinks it
    match decryptStream env key nonce ciphertextRemaining (file.drop aad.length) [] with
    | .error e => (.error e, none)
    | .ok (plaintext, ciphertext) =>
      if env.gcmAccepts key nonce aad ciphertext tag then (.ok header, some plaintext)
      else (.error ⟨.integrity, "Backup authentication failed"⟩, none)

end Backup
