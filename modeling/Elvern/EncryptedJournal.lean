/-
The encrypted journal of diagnostic events (`playback_diagnostics/journal.py`).

A file is a magic text and records: the length of a header, the header, the length of a ciphertext,
the ciphertext. The hash of a record covers the hash before it. Hashing, compression, encryption and
the JSON of headers are functions of the `Env`.

* `EncryptedJournal.append`, `verifyJournal`, `openJournal` — what is written, read and recovered;
* `makeRecord`, `records` — the records of a list of chunks;
* `Good` — a record that can be read again: a short header, and no separators in its events;
* `journal_round_trip` — the events come back from a run of appends and re-openings if and only if
  its records are good;
* `separated_event_unreadable` — an event that the sanitizer accepts makes its journal invalid.
-/
import Elvern.BackupRoundTrip
import Elvern.EventPrivacy
import Elvern.Runs

open Runs

namespace Journal

abbrev Bytes := List UInt8

/-! ### Records -/

def journalMagic : Bytes := Backup.ascii "ELVD2\n"

def legacyJournalMagic : Bytes := Backup.ascii "ELVD1\n"

def journalSchemaVersion : String := "elvern-diagnostics-journal-v2"

def legacyJournalSchemaVersion : String := "elvern-diagnostics-journal-v1"

def journalLengthBytes : ℕ := 8

def maxHeaderBytes : ℕ := 64000

def maxJournalChunkBytes : ℕ := 4000000

def nonceBytes : ℕ := 12

/-- The hash before the first record. -/
def zeroHash : Bytes := List.replicate 32 0

/-- The header of a record; hashes and the nonce are the bytes that their texts spell. -/
structure Header where
  schemaVersion : String
  keyId : String
  playbackSessionId : String
  sourceId : String
  sourceType : String
  chunkSequence : ℕ
  eventCount : ℕ
  plaintextLength : ℕ
  compressedLength : ℕ
  plaintextSha256 : Bytes
  previousChunkHash : Bytes
  nonce : Bytes
  createdAtUtc : String
  deriving DecidableEq

structure StoredHeader where
  header : Header
  currentChunkHash : Bytes
  deriving DecidableEq

/-- Library functions, and the key store. -/
structure Env where
  /-- `json.loads` of a line -/
  loads : List Char → Option Event
  /-- `_canonical_json` of a header -/
  dumpHeader : Header → Bytes
  dumpStored : StoredHeader → Bytes
  /-- `json.loads` of a header, and its fields -/
  loadStored : Bytes → Option StoredHeader
  sha256 : Bytes → Bytes
  compress : Bytes → Bytes
  decompress : Bytes → Option Bytes
  loadKey : String → Option Bytes
  /-- AES-GCM with a key, a nonce and associated data -/
  encrypt : Bytes → Bytes → Bytes → Bytes → Bytes
  decrypt : Bytes → Bytes → Bytes → Bytes → Option Bytes

/-- `text.encode("utf-8")` -/
def encodeUtf8 (text : List Char) : Bytes := text.flatMap String.utf8EncodeChar

/-- `data.decode("utf-8")` -/
def decodeUtf8 (data : Bytes) : Option (List Char) :=
  data.toByteArray.utf8Decode?.map Array.toList

theorem decodeUtf8_encodeUtf8 (text : List Char) : decodeUtf8 (encodeUtf8 text) = some text := by
  have h := List.utf8Decode?_utf8Encode (l := text)
  rw [List.utf8Encode] at h
  rw [decodeUtf8, encodeUtf8, h]
  rfl

/-- What a journal is of; `__init__` puts a source id in where there is none. -/
structure Identity where
  playbackSessionId : String
  sourceType : String
  sourceId : String
  sourceId_ne : sourceId ≠ ""

/-- The events of one append, with the nonce, the time and the key that it uses. -/
structure Chunk where
  events : List Event
  nonce : Bytes
  createdAtUtc : String
  keyId : String
  key : Bytes
  nonce_length : nonce.length = nonceBytes

structure Record where
  stored : StoredHeader
  ciphertext : Bytes
  events : List Event

variable (env : Env)

/-- The record that `append` makes after so many records and a hash. -/
def makeRecord (identity : Identity) (chunkSequence : ℕ) (previousChunkHash : Bytes)
    (chunk : Chunk) :
    Record :=
  let plain := encodeUtf8 (plaintext chunk.events)
  let compressed := env.compress plain
  let header : Header :=
    { schemaVersion := journalSchemaVersion
      keyId := chunk.keyId
      playbackSessionId := identity.playbackSessionId
      sourceId := identity.sourceId
      sourceType := identity.sourceType
      chunkSequence := chunkSequence + 1
      eventCount := chunk.events.length
      plaintextLength := plain.length
      compressedLength := compressed.length
      plaintextSha256 := env.sha256 plain
      previousChunkHash := previousChunkHash
      nonce := chunk.nonce
      createdAtUtc := chunk.createdAtUtc }
  let associatedData := env.dumpHeader header
  let ciphertext := env.encrypt chunk.key chunk.nonce compressed associatedData
  { stored := ⟨header, env.sha256 (previousChunkHash ++ associatedData ++ ciphertext)⟩
    ciphertext := ciphertext
    events := chunk.events }

def Record.bytes (r : Record) : Bytes :=
  Backup.packBE journalLengthBytes (env.dumpStored r.stored).length ++ env.dumpStored r.stored ++
    Backup.packBE journalLengthBytes r.ciphertext.length ++ r.ciphertext

structure EncryptedJournal where
  identity : Identity
  chunkSequence : ℕ
  previousChunkHash : Bytes

/-- `append`; `none` where the chunk is too large. A file that is not there is `none`. -/
def EncryptedJournal.append (journal : EncryptedJournal) (file : Option Bytes) (chunk : Chunk) :
    Option (EncryptedJournal × Option Bytes) :=
  if chunk.events = [] then some (journal, file)
  else
    let record := makeRecord env journal.identity journal.chunkSequence
      journal.previousChunkHash chunk
    if record.ciphertext.length > maxJournalChunkBytes then none
    else
      let existing := file.getD []
      some ({ journal with
          chunkSequence := journal.chunkSequence + 1
          previousChunkHash := record.stored.currentChunkHash },
        some ((if existing = [] then journalMagic else existing) ++ record.bytes env))

/-! ### Reading -/

inductive ReadError
  | incompleteTail
  | invalid (reason : String)
  deriving DecidableEq

/-- `_read_exact`, and what is left to read. -/
def readExact (size : ℕ) (s : Bytes) : Except ReadError (Option (Bytes × Bytes)) :=
  let payload := s.take size
  if payload = [] then .ok none
  else if payload.length ≠ size then .error .incompleteTail
  else .ok (some (payload, s.drop size))

/-- A part of a record that is not its first. -/
def readPart (size : ℕ) (s : Bytes) : Except ReadError (Bytes × Bytes) :=
  match readExact size s with
  | .ok none => .error .incompleteTail
  | .ok (some part) => .ok part
  | .error error => .error error

/-- One record, and what is left to read; `none` at the end of the file. -/
def readRecord (s : Bytes) : Except ReadError (Option (StoredHeader × Bytes × Bytes)) :=
  match readExact journalLengthBytes s with
  | .error error => .error error
  | .ok none => .ok none
  | .ok (some (rawHeaderLength, s)) =>
    let headerLength := Backup.unpackBE rawHeaderLength
    if headerLength = 0 ∨ headerLength > maxHeaderBytes then
      .error (.invalid "Invalid diagnostics chunk header length")
    else do
      let (headerBytes, s) ← readPart headerLength s
      match env.loadStored headerBytes with
      | none => .error (.invalid "")
      | some stored =>
        let (rawLength, s) ← readPart journalLengthBytes s
        let ciphertextLength := Backup.unpackBE rawLength
        if ciphertextLength = 0 ∨ ciphertextLength > maxJournalChunkBytes then
          .error (.invalid "Invalid diagnostics ciphertext length")
        else
          let (ciphertext, s) ← readPart ciphertextLength s
          return some (stored, ciphertext, s)

/-- What `verify_journal` has read so far. -/
structure Scan where
  chunkCount : ℕ
  eventCount : ℕ
  previousHash : Bytes
  bound : Option (String × String × String)
  events : List Event

def Scan.start : Scan := ⟨0, 0, zeroHash, none, []⟩

/-- The checks of who the journal is of. -/
def checkIdentity (expected : Option Identity) (schema : String) (scan : Scan) (header : Header) :
    Except ReadError Unit :=
  if header.schemaVersion ≠ schema then .error (.invalid "Unsupported diagnostics journal schema")
  else if schema = journalSchemaVersion ∧ header.sourceId = "" then
    .error (.invalid "Diagnostics journal source id is missing")
  else if ∃ bound ∈ scan.bound, header.playbackSessionId ≠ bound.1 ∨ header.sourceType ≠ bound.2.1 ∨
      schema = journalSchemaVersion ∧ header.sourceId ≠ bound.2.2 then
    .error (.invalid "Diagnostics journal source identity changed")
  else if ∃ identity ∈ expected, identity.playbackSessionId ≠ "" ∧
      header.playbackSessionId ≠ identity.playbackSessionId then
    .error (.invalid "Diagnostics journal session identity mismatch")
  else if ∃ identity ∈ expected, identity.sourceType ≠ "" ∧
      header.sourceType ≠ identity.sourceType then
    .error (.invalid "Diagnostics journal source type mismatch")
  else if ∃ identity ∈ expected, schema = journalSchemaVersion ∧
      header.sourceId ≠ identity.sourceId then
    .error (.invalid "Diagnostics journal source identity mismatch")
  else .ok ()

/-- The events of a record. -/
def decodeRecord (header : Header) (ciphertext : Bytes) : Except ReadError (List Event) :=
  if header.nonce.length ≠ nonceBytes then .error (.invalid "Invalid diagnostics chunk nonce")
  else
    match env.loadKey header.keyId with
    | none => .error (.invalid "")
    | some key =>
      match env.decrypt key header.nonce ciphertext (env.dumpHeader header) with
      | none => .error (.invalid "")
      | some compressed =>
        match env.decompress compressed with
        | none => .error (.invalid "")
        | some plain =>
          if header.plaintextLength = 0 ∨ plain.length ≠ header.plaintextLength then
            .error (.invalid "Diagnostics plaintext length mismatch")
          else if env.sha256 plain ≠ header.plaintextSha256 then
            .error (.invalid "Diagnostics plaintext hash mismatch")
          else
            match (decodeUtf8 plain).bind (decodeLines env.loads) with
            | none => .error (.invalid "")
            | some events =>
              if header.eventCount = 0 ∨ events.length ≠ header.eventCount then
                .error (.invalid "Diagnostics event count mismatch")
              else .ok events

/-- The checks of a record that has been read. -/
def checkRecord (expected : Option Identity) (schema : String) (scan : Scan) (stored : StoredHeader)
    (ciphertext : Bytes) : Except ReadError Scan := do
  let header := stored.header
  checkIdentity expected schema scan header
  if header.chunkSequence ≠ scan.chunkCount + 1 then
    .error (.invalid "Diagnostics chunk sequence is not contiguous")
  else if header.previousChunkHash ≠ scan.previousHash then
    .error (.invalid "Diagnostics journal hash chain is broken")
  else if stored.currentChunkHash ≠
      env.sha256 (scan.previousHash ++ env.dumpHeader header ++ ciphertext) then
    .error (.invalid "Diagnostics chunk hash mismatch")
  else
    let events ← decodeRecord env header ciphertext
    .ok
      { chunkCount := scan.chunkCount + 1
        eventCount := scan.eventCount + events.length
        previousHash := stored.currentChunkHash
        bound := some (scan.bound.getD (header.playbackSessionId, header.sourceType,
          header.sourceId))
        events := scan.events ++ events }

/-- The loop of `verify_journal`: what has been read, what is left after the last whole record, and
why it stopped before the end. Every round reads at least a byte, so that it never comes to the end
of its `fuel`, the bytes there are. -/
def readRecords (expected : Option Identity) (schema : String) :
    ℕ → Scan → Bytes → Scan × Bytes × Option ReadError
  | 0, scan, s => (scan, s, none)
  | fuel + 1, scan, s =>
    match readRecord env s with
    | .error error => (scan, s, some error)
    | .ok none => (scan, s, none)
    | .ok (some (stored, ciphertext, rest)) =>
      match checkRecord env expected schema scan stored ciphertext with
      | .error error => (scan, s, some error)
      | .ok scan' => readRecords expected schema fuel scan' rest

structure Verification where
  scan : Scan
  validEnd : ℕ
  error : Option ReadError

def Verification.valid (v : Verification) : Prop := v.error = none

/-- `verify_journal` without recovery. -/
def verifyJournal (expected : Option Identity) : Option Bytes → Verification
  | none => ⟨.start, 0, none⟩
  | some file =>
    let magic := file.take journalMagic.length
    if magic ≠ journalMagic ∧ magic ≠ legacyJournalMagic then
      ⟨.start, 0, some (.invalid "Invalid diagnostics journal magic")⟩
    else
      let schema :=
        if magic = journalMagic then journalSchemaVersion else legacyJournalSchemaVersion
      let (scan, rest, error) :=
        readRecords env expected schema (file.length + 1) .start (file.drop journalMagic.length)
      ⟨scan, file.length - rest.length, error⟩

/-- `EncryptedJournal.__init__`: the journal, its file without an incomplete tail, and the tail in
quarantine; `none` where it raises. -/
def openJournal (identity : Identity) (file : Option Bytes) :
    Option (EncryptedJournal × Option Bytes × Bytes) :=
  let v := verifyJournal env (some identity) file
  let journal : EncryptedJournal := ⟨identity, v.scan.chunkCount, v.scan.previousHash⟩
  match v.error with
  | none => some (journal, file, [])
  | some .incompleteTail =>
    some (journal, file.map (·.take v.validEnd), (file.getD []).drop v.validEnd)
  | some (.invalid _) => none

/-! ### What is written can be read -/

/-- The library functions do on these chunks what they are documented to do. -/
structure Lawful (chunks : List Chunk) : Prop where
  events : ∀ chunk ∈ chunks, ∀ event ∈ chunk.events,
    env.loads (Value.object event).dumps = some event
  zlib : ∀ data, env.decompress (env.compress data) = some data
  aead : ∀ key nonce data associated,
    env.decrypt key nonce (env.encrypt key nonce data associated) associated = some data
  keys : ∀ chunk ∈ chunks, env.loadKey chunk.keyId = some chunk.key

/-- The records of chunks that are appended one after the other. -/
def records (identity : Identity) : ℕ → Bytes → List Chunk → List Record
  | _, _, [] => []
  | n, hash, chunk :: rest =>
    let record := makeRecord env identity n hash chunk
    record :: records identity (n + 1) record.stored.currentChunkHash rest

/-- The hash after them. -/
def hashAfter (hash : Bytes) (rs : List Record) : Bytes :=
  rs.foldl (fun _ r => r.stored.currentChunkHash) hash

/-- A record that can be read again. -/
def Good (r : Record) : Prop :=
  (env.dumpStored r.stored).length ≤ maxHeaderBytes ∧ ∀ event ∈ r.events, event.Unseparated

section Reading

variable {env} {s rest part : Bytes} {size : ℕ}

theorem readExact_append (hsize : part.length = size) (hpos : 0 < size) :
    readExact size (part ++ rest) = .ok (some (part, rest)) := by
  have htake : (part ++ rest).take size = part := by
    rw [← hsize]
    exact List.take_left
  have hne : part ≠ [] := List.ne_nil_of_length_pos (hsize ▸ hpos)
  rw [readExact]
  simp only [htake, if_neg hne, hsize, ne_eq, not_true_eq_false, if_false]
  rw [← hsize, List.drop_left]

theorem readPart_append (hsize : part.length = size) (hpos : 0 < size) :
    readPart size (part ++ rest) = .ok (part, rest) := by
  rw [readPart, readExact_append hsize hpos]

/-- A part that is cut short. -/
theorem readPart_short (h : s.length < size) : readPart size s = .error .incompleteTail := by
  rw [readPart, readExact, List.take_of_length_le h.le]
  by_cases hnil : s = []
  · rw [if_pos hnil]
  · simp only [if_neg hnil, if_pos h.ne]

theorem readExact_short (h : s.length < size) (hpos : s ≠ []) :
    readExact size s = .error .incompleteTail := by
  rw [readExact, List.take_of_length_le h.le]
  simp only [if_neg hpos, if_pos h.ne]

end Reading

section Written

variable {env} {identity : Identity} {chunk : Chunk} {chunks : List Chunk} {n : ℕ}
  {hash rest : Bytes} {r : Record} {expected : Option Identity}

/-- The parts of a record. -/
theorem Record.bytes_eq (r : Record) : r.bytes env ++ rest =
    Backup.packBE journalLengthBytes (env.dumpStored r.stored).length ++ (env.dumpStored r.stored ++
      (Backup.packBE journalLengthBytes r.ciphertext.length ++ (r.ciphertext ++ rest))) := by
  simp only [Record.bytes, List.append_assoc]

/-- A record that can be written: its parts are not empty and not too long, and its header is read
as it was written. -/
structure Writable (env : Env) (r : Record) : Prop where
  size : r.ciphertext.length ≤ maxJournalChunkBytes
  pos : 0 < r.ciphertext.length
  header_lt : (env.dumpStored r.stored).length < 256 ^ journalLengthBytes
  header_pos : 0 < (env.dumpStored r.stored).length
  header : env.loadStored (env.dumpStored r.stored) = some r.stored

/-- A whole record is read, unless its header is too long. -/
theorem readRecord_bytes (h : Writable env r) :
    ((env.dumpStored r.stored).length ≤ maxHeaderBytes →
      readRecord env (r.bytes env ++ rest) = .ok (some (r.stored, r.ciphertext, rest))) ∧
    (¬ (env.dumpStored r.stored).length ≤ maxHeaderBytes →
      ∃ reason, readRecord env (r.bytes env ++ rest) = .error (.invalid reason)) := by
  have header_pos := h.header_pos
  have hpos := h.pos
  have hsize := h.size
  have hunpack := Backup.unpackBE_packBE journalLengthBytes _ h.header_lt
  have hlength : r.ciphertext.length < 256 ^ journalLengthBytes := by
    refine lt_of_le_of_lt hsize ?_
    decide
  rw [Record.bytes_eq, readRecord, readExact_append (Backup.packBE_length _ _) (by decide)]
  simp only [hunpack]
  refine ⟨fun hsmall => ?_, fun hlarge => ?_⟩
  · rw [if_neg (by omega), readPart_append rfl header_pos]
    simp only [bind, Except.bind, h.header, readPart_append (Backup.packBE_length _ _)
      (show 0 < journalLengthBytes by decide), Backup.unpackBE_packBE _ _ hlength]
    rw [if_neg (by omega), readPart_append rfl hpos]
    rfl
  · rw [if_pos (by omega)]
    exact ⟨_, rfl⟩

/-- The loop expects the records of the journal. -/
structure Follows (identity : Identity) (n : ℕ) (hash : Bytes) (scan : Scan) : Prop where
  count : scan.chunkCount = n
  hash : scan.previousHash = hash
  bound : ∀ bound ∈ scan.bound,
    bound = (identity.playbackSessionId, identity.sourceType, identity.sourceId)

/-- The loop after a record. -/
def Scan.after (scan : Scan) (identity : Identity) (r : Record) : Scan where
  chunkCount := scan.chunkCount + 1
  eventCount := scan.eventCount + r.events.length
  previousHash := r.stored.currentChunkHash
  bound := some (identity.playbackSessionId, identity.sourceType, identity.sourceId)
  events := scan.events ++ r.events

theorem Follows.after {scan : Scan} (h : Follows identity n hash scan) (r : Record) :
    Follows identity (n + 1) r.stored.currentChunkHash (scan.after identity r) where
  count := congrArg (· + 1) h.count
  hash := rfl
  bound _ hb := (Option.some.inj hb).symm

/-- What comes out of the record of a chunk. -/
theorem decodeRecord_makeRecord (hlaw : Lawful env chunks) (hchunk : chunk ∈ chunks)
    (hne : chunk.events ≠ []) :
    ((∀ event ∈ chunk.events, event.Unseparated) →
      decodeRecord env (makeRecord env identity n hash chunk).stored.header
        (makeRecord env identity n hash chunk).ciphertext = .ok chunk.events) ∧
    ((∃ event ∈ chunk.events, ¬ event.Unseparated) →
      ∃ reason, decodeRecord env (makeRecord env identity n hash chunk).stored.header
        (makeRecord env identity n hash chunk).ciphertext = .error (.invalid reason)) := by
  have hplain : (encodeUtf8 (plaintext chunk.events)).length ≠ 0 := by
    obtain ⟨event, events, heq⟩ := List.exists_cons_of_ne_nil hne
    obtain ⟨body, hbody, -⟩ := dumps_event event
    rw [heq, plaintext, List.flatMap_cons, hbody, encodeUtf8, List.cons_append, List.cons_append,
      List.flatMap_cons, List.length_append]
    have : 0 < (String.utf8EncodeChar '{').length := by decide
    omega
  have hcount : chunk.events.length ≠ 0 := fun h => hne (List.length_eq_zero_iff.1 h)
  simp only [decodeRecord, makeRecord, chunk.nonce_length, hlaw.keys chunk hchunk, hlaw.aead,
    hlaw.zlib, decodeUtf8_encodeUtf8, Option.bind_some, hplain, hcount, ne_eq, not_true_eq_false,
    false_or, if_false]
  refine ⟨fun hclean => ?_, fun hseparated => ?_⟩
  · rw [decode_plaintext hclean (hlaw.events chunk hchunk)]
    simp
  · cases hdecode : decodeLines env.loads (plaintext chunk.events) with
    | none => exact ⟨_, rfl⟩
    | some decoded =>
      have hlength := decode_plaintext_separated hseparated hdecode
      simp only [hlength, not_false_eq_true, if_true]
      exact ⟨_, rfl⟩

/-- **A record of the journal**: it is accepted, or the loop stops at it, if its events are
separated. -/
theorem checkRecord_makeRecord (hlaw : Lawful env chunks) (hchunk : chunk ∈ chunks)
    (hne : chunk.events ≠ []) {scan : Scan} (h : Follows identity n hash scan)
    (hexpected : ∀ other ∈ expected, other = identity) :
    ((∀ event ∈ chunk.events, event.Unseparated) →
      checkRecord env expected journalSchemaVersion scan
        (makeRecord env identity n hash chunk).stored
        (makeRecord env identity n hash chunk).ciphertext =
          .ok (scan.after identity (makeRecord env identity n hash chunk))) ∧
    ((∃ event ∈ chunk.events, ¬ event.Unseparated) →
      ∃ reason, checkRecord env expected journalSchemaVersion scan
        (makeRecord env identity n hash chunk).stored
        (makeRecord env identity n hash chunk).ciphertext = .error (.invalid reason)) := by
  obtain ⟨hclean, hseparated⟩ :=
    @decodeRecord_makeRecord env identity chunk chunks n hash hlaw hchunk hne
  have hidentity : checkIdentity expected journalSchemaVersion scan
      (makeRecord env identity n hash chunk).stored.header = .ok () := by
    have hschema : (makeRecord env identity n hash chunk).stored.header.schemaVersion =
        journalSchemaVersion := rfl
    rw [checkIdentity, if_neg (not_not.2 hschema), if_neg fun hid =>
      identity.sourceId_ne hid.2, if_neg,
      if_neg, if_neg, if_neg]
    · rintro ⟨other, hother, -, hdiff⟩
      exact hdiff (congrArg Identity.sourceId (hexpected other hother)).symm
    · rintro ⟨other, hother, -, hdiff⟩
      exact hdiff (congrArg Identity.sourceType (hexpected other hother)).symm
    · rintro ⟨other, hother, -, hdiff⟩
      exact hdiff (congrArg Identity.playbackSessionId (hexpected other hother)).symm
    · rintro ⟨bound, hbound, hdiff⟩
      rw [h.bound bound hbound] at hdiff
      rcases hdiff with hdiff | hdiff | ⟨-, hdiff⟩ <;> exact hdiff rfl
  have hsequence : (makeRecord env identity n hash chunk).stored.header.chunkSequence =
      scan.chunkCount + 1 := by rw [h.count]; rfl
  have hprevious : (makeRecord env identity n hash chunk).stored.header.previousChunkHash =
      scan.previousHash := h.hash.symm
  have hhash : (makeRecord env identity n hash chunk).stored.currentChunkHash =
      env.sha256 (scan.previousHash ++
        env.dumpHeader (makeRecord env identity n hash chunk).stored.header ++
        (makeRecord env identity n hash chunk).ciphertext) := by rw [h.hash]; rfl
  -- the identity, the place in the chain and the hash are what the scan expects
  rw [checkRecord, hidentity]
  simp only [bind, Except.bind]
  rw [if_neg (not_not.2 hsequence), if_neg (not_not.2 hprevious), if_neg (not_not.2 hhash)]
  refine ⟨fun hc => ?_, fun hs => ?_⟩
  · rw [hclean hc]
    have hbound : scan.bound.getD (identity.playbackSessionId, identity.sourceType,
      identity.sourceId) =
        (identity.playbackSessionId, identity.sourceType, identity.sourceId) := by
      cases hb : scan.bound with
      | none => rfl
      | some bound => exact h.bound bound hb
    exact congrArg (fun b => Except.ok (Scan.mk _ _ _ (some b) _)) hbound
  · obtain ⟨reason, hreason⟩ := hseparated hs
    rw [hreason]
    exact ⟨reason, rfl⟩

/-- The loop after records. -/
def Scan.afterAll (scan : Scan) (identity : Identity) (rs : List Record) : Scan :=
  rs.foldl (fun scan r => scan.after identity r) scan

/-- The bytes of records. -/
def recordBytes (env : Env) (rs : List Record) : Bytes := rs.flatMap fun r => r.bytes env

/-- No chunk is empty, and their records can be written. -/
structure Fits (env : Env) (identity : Identity) (n : ℕ) (hash : Bytes)
    (chunks : List Chunk) : Prop where
  events : ∀ chunk ∈ chunks, chunk.events ≠ []
  records : ∀ r ∈ records env identity n hash chunks, Writable env r

theorem Fits.tail (h : Fits env identity n hash (chunk :: chunks)) :
    Fits env identity (n + 1)
        (makeRecord env identity n hash chunk).stored.currentChunkHash chunks :=
  ⟨fun c hc => h.events c (List.mem_cons_of_mem _ hc), fun r hr =>
    h.records r (List.mem_cons_of_mem _ hr)⟩

/-- The first record of the loop. -/
theorem readRecords_cons {all : List Chunk} (hlaw : Lawful env all) (hchunk : chunk ∈ all)
    (hfits : Fits env identity n hash (chunk :: chunks)) {scan : Scan}
    (h : Follows identity n hash scan)
    (hexpected : ∀ other ∈ expected, other = identity) (fuel : ℕ) :
    (Good env (makeRecord env identity n hash chunk) →
      readRecords env expected journalSchemaVersion (fuel + 1) scan
          ((makeRecord env identity n hash chunk).bytes env ++ rest) =
        readRecords env expected journalSchemaVersion fuel
          (scan.after identity (makeRecord env identity n hash chunk)) rest) ∧
    (¬ Good env (makeRecord env identity n hash chunk) →
      ∃ reason, readRecords env expected journalSchemaVersion (fuel + 1) scan
          ((makeRecord env identity n hash chunk).bytes env ++ rest) =
        (scan, (makeRecord env identity n hash chunk).bytes env ++ rest,
            some (.invalid reason))) := by
  have hne := hfits.events chunk (List.mem_cons_self ..)
  have hread := @readRecord_bytes env rest (makeRecord env identity n hash chunk)
    (hfits.records _ (List.mem_cons_self ..))
  have hcheck :=
    @checkRecord_makeRecord env identity chunk all n hash expected hlaw hchunk hne scan h hexpected
  rw [readRecords]
  constructor
  · intro hgood
    rw [hread.1 hgood.1]
    simp only
    rw [hcheck.1 hgood.2]
  · intro hbad
    by_cases hsmall : (env.dumpStored (makeRecord env identity n hash chunk).stored).length ≤
      maxHeaderBytes
    · rw [hread.1 hsmall]
      have hseparated : ∃ event ∈ chunk.events, ¬ event.Unseparated := by
        by_contra hno
        refine hbad ⟨hsmall, fun event hevent => ?_⟩
        by_contra hevt
        exact hno ⟨event, hevent, hevt⟩
      obtain ⟨reason, hreason⟩ := hcheck.2 hseparated
      simp only
      rw [hreason]
      exact ⟨reason, rfl⟩
    · obtain ⟨reason, hreason⟩ := hread.2 hsmall
      rw [hreason]
      exact ⟨reason, rfl⟩

/-- **The loop** reads good records to their end, and stops with an error at one that is not. -/
theorem readRecords_records {all : List Chunk} (hlaw : Lawful env all)
    (hexpected : ∀ other ∈ expected, other = identity) :
    ∀ {chunks : List Chunk} {n : ℕ} {hash : Bytes} {scan : Scan} (fuel : ℕ),
      (∀ c ∈ chunks, c ∈ all) → Fits env identity n hash chunks → Follows identity n hash scan →
      ((∀ r ∈ records env identity n hash chunks, Good env r) →
        readRecords env expected journalSchemaVersion (chunks.length + fuel) scan
            (recordBytes env (records env identity n hash chunks) ++ rest) =
          readRecords env expected journalSchemaVersion fuel
            (scan.afterAll identity (records env identity n hash chunks)) rest) ∧
      ((∃ r ∈ records env identity n hash chunks, ¬ Good env r) →
        ∃ scan' s reason, readRecords env expected journalSchemaVersion (chunks.length + fuel) scan
            (recordBytes env (records env identity n hash chunks) ++ rest) =
          (scan', s, some (.invalid reason))) := by
  intro chunks
  induction chunks with
  | nil =>
    intro n hash scan fuel _ _ _
    refine ⟨fun _ => by rw [List.length_nil, Nat.zero_add]; rfl, ?_⟩
    rintro ⟨r, hr, -⟩
    exact absurd hr List.not_mem_nil
  | cons chunk chunks ih =>
    intro n hash scan fuel hall hfits h
    have hfuel : (chunk :: chunks).length + fuel = chunks.length + fuel + 1 := by
      rw [List.length_cons]
      omega
    have hbytes : recordBytes env (records env identity n hash (chunk :: chunks)) ++ rest =
        (makeRecord env identity n hash chunk).bytes env ++
          (recordBytes env (records env identity (n + 1)
          (makeRecord env identity n hash chunk).stored.currentChunkHash chunks) ++ rest) := by
      rw [records, recordBytes, List.flatMap_cons, List.append_assoc]
      rfl
    obtain ⟨hgood, hbad⟩ := @readRecords_cons env identity chunk chunks n hash
      (recordBytes env (records env identity (n + 1)
        (makeRecord env identity n hash chunk).stored.currentChunkHash chunks) ++ rest)
      expected all hlaw (hall chunk (List.mem_cons_self ..)) hfits scan h hexpected
        (chunks.length + fuel)
    obtain ⟨hgoods, hbads⟩ := ih fuel (fun c hc => hall c (List.mem_cons_of_mem _ hc)) hfits.tail
      (h.after (makeRecord env identity n hash chunk))
    rw [hfuel, hbytes]
    constructor
    · intro hall'
      rw [hgood (hall' _ (List.mem_cons_self ..)), hgoods fun r hr =>
        hall' r (List.mem_cons_of_mem _ hr)]
      rfl
    · rintro ⟨r, hr, hnot⟩
      -- the loop ends at the first record that is not good
      by_cases hfirst : Good env (makeRecord env identity n hash chunk)
      · rw [hgood hfirst]
        refine hbads ⟨r, (List.mem_cons.1 hr).resolve_left ?_, hnot⟩
        rintro rfl
        exact hnot hfirst
      · obtain ⟨reason, hreason⟩ := hbad hfirst
        exact ⟨_, _, reason, hreason⟩

theorem records_length (n : ℕ) (hash : Bytes) (chunks : List Chunk) :
    (records env identity n hash chunks).length = chunks.length := by
  induction chunks generalizing n hash with
  | nil => rfl
  | cons chunk chunks ih => rw [records, List.length_cons, List.length_cons, ih]

theorem records_append (n : ℕ) (hash : Bytes) (chunks more : List Chunk) :
    records env identity n hash (chunks ++ more) = records env identity n hash chunks ++
      records env identity (n + chunks.length)
          (hashAfter hash (records env identity n hash chunks)) more := by
  induction chunks generalizing n hash with
  | nil => rfl
  | cons chunk chunks ih =>
    rw [List.cons_append, records, records, ih, List.cons_append, List.length_cons]
    have hcount : n + 1 + chunks.length = n + (chunks.length + 1) := by omega
    rw [hcount]
    rfl

theorem records_events (n : ℕ) (hash : Bytes) (chunks : List Chunk) :
    (records env identity n hash chunks).map Record.events = chunks.map Chunk.events := by
  induction chunks generalizing n hash with
  | nil => rfl
  | cons chunk chunks ih =>
    rw [records, List.map_cons, List.map_cons, ih]
    rfl

/-- Where the loop is after records. -/
theorem afterAll_spec (rs : List Record) (scan : Scan) :
    (scan.afterAll identity rs).chunkCount = scan.chunkCount + rs.length ∧
      (scan.afterAll identity rs).eventCount = scan.eventCount + (rs.flatMap Record.events).length ∧
      (scan.afterAll identity rs).previousHash = hashAfter scan.previousHash rs ∧
      (scan.afterAll identity rs).events = scan.events ++ rs.flatMap Record.events := by
  induction rs generalizing scan with
  | nil =>
    rw [List.flatMap_nil, List.append_nil]
    exact ⟨rfl, rfl, rfl, rfl⟩
  | cons r rs ih =>
    obtain ⟨hcount, hevents, hhash, hlist⟩ := ih (scan.after identity r)
    have hstep : scan.afterAll identity (r :: rs) =
      (scan.after identity r).afterAll identity rs := rfl
    rw [hstep, hcount, hevents, hhash, hlist, List.flatMap_cons, List.length_append,
      List.length_cons]
    refine ⟨?_, ?_, rfl, ?_⟩
    · simp only [Scan.after]
      omega
    · simp only [Scan.after]
      omega
    · simp only [Scan.after, List.append_assoc]

/-- Every record has a byte. -/
theorem length_le_recordBytes (rs : List Record) : rs.length ≤ (recordBytes env rs).length := by
  induction rs with
  | nil => exact Nat.zero_le _
  | cons r rs ih =>
    have hpos : 8 ≤ (r.bytes env).length := by
      simp only [Record.bytes, List.length_append, Backup.packBE_length, journalLengthBytes]
      omega
    rw [recordBytes, List.flatMap_cons, List.length_append, List.length_cons]
    rw [recordBytes] at ih
    omega

/-- **A file of records, and what follows them.** -/
theorem verifyJournal_records {chunks : List Chunk} (hlaw : Lawful env chunks)
    (hexpected : ∀ other ∈ expected, other = identity) (hfits : Fits env identity 0 zeroHash chunks)
    (tail : Bytes) :
    ((∀ r ∈ records env identity 0 zeroHash chunks, Good env r) → ∃ fuel,
      let v := readRecords env expected journalSchemaVersion (fuel + 1)
        (Scan.start.afterAll identity (records env identity 0 zeroHash chunks)) tail
      verifyJournal env expected
          (some (journalMagic ++
            recordBytes env (records env identity 0 zeroHash chunks) ++ tail)) =
        ⟨v.1, (journalMagic ++ recordBytes env
          (records env identity 0 zeroHash chunks) ++ tail).length - v.2.1.length, v.2.2⟩) ∧
    ((∃ r ∈ records env identity 0 zeroHash chunks, ¬ Good env r) → ∃ reason,
      (verifyJournal env expected
      (some (journalMagic ++ recordBytes env
        (records env identity 0 zeroHash chunks) ++ tail))).error = some (.invalid reason)) := by
  set rs := records env identity 0 zeroHash chunks with hrs
  have hstart : Follows identity 0 zeroHash Scan.start := ⟨rfl, rfl, fun _ hb => by cases hb⟩
  have hlength : chunks.length ≤ (recordBytes env rs).length := by
    rw [← @records_length env identity 0 zeroHash chunks]
    exact length_le_recordBytes rs
  obtain ⟨fuel, hfuel⟩ : ∃ fuel, (journalMagic ++ recordBytes env rs ++ tail).length + 1 =
      chunks.length + (fuel + 1) := by
    refine ⟨(journalMagic ++ recordBytes env rs ++ tail).length - chunks.length, ?_⟩
    rw [List.length_append, List.length_append]
    omega
  obtain ⟨hgood, hbad⟩ := @readRecords_records env identity tail expected chunks hlaw hexpected
    chunks 0 zeroHash Scan.start (fuel + 1) (fun c hc => hc) hfits hstart
  have htake : (journalMagic ++ recordBytes env rs ++ tail).take journalMagic.length =
      journalMagic := by
    rw [List.append_assoc]
    exact List.take_left
  have hdrop : (journalMagic ++ recordBytes env rs ++ tail).drop journalMagic.length =
      recordBytes env rs ++ tail := by
    rw [List.append_assoc]
    exact List.drop_left
  have hverify : verifyJournal env expected (some (journalMagic ++ recordBytes env rs ++ tail)) =
      let v := readRecords env expected journalSchemaVersion (chunks.length + (fuel + 1)) .start
        (recordBytes env rs ++ tail)
      ⟨v.1, (journalMagic ++ recordBytes env rs ++ tail).length - v.2.1.length, v.2.2⟩ := by
    rw [verifyJournal, htake, hdrop, hfuel]
    simp
  rw [hverify]
  refine ⟨fun hall => ⟨fuel, ?_⟩, fun hex => ?_⟩
  · rw [hgood hall]
  · obtain ⟨scan', s, reason, heq⟩ := hbad hex
    rw [heq]
    exact ⟨reason, rfl⟩

/-- A whole file is valid if and only if its records are good, and then they have been read. -/
theorem verifyJournal_whole {chunks : List Chunk} (hlaw : Lawful env chunks)
    (hexpected : ∀ other ∈ expected, other = identity)
    (hfits : Fits env identity 0 zeroHash chunks) : ((verifyJournal env expected
      (some (journalMagic ++ recordBytes env (records env identity 0 zeroHash chunks)))).valid ↔
      ∀ r ∈ records env identity 0 zeroHash chunks, Good env r) ∧
    ((∀ r ∈ records env identity 0 zeroHash chunks, Good env r) →
      (verifyJournal env expected
        (some (journalMagic ++ recordBytes env (records env identity 0 zeroHash chunks)))).scan =
          Scan.start.afterAll identity (records env identity 0 zeroHash chunks)) := by
  have hwhole := @verifyJournal_records env identity expected chunks hlaw hexpected hfits []
  rw [List.append_nil] at hwhole
  obtain ⟨hgood, hbad⟩ := hwhole
  have hvalid : (∀ r ∈ records env identity 0 zeroHash chunks, Good env r) →
      (verifyJournal env expected
        (some (journalMagic ++ recordBytes env (records env identity 0 zeroHash chunks)))).valid ∧
      (verifyJournal env expected
        (some (journalMagic ++ recordBytes env (records env identity 0 zeroHash chunks)))).scan =
          Scan.start.afterAll identity (records env identity 0 zeroHash chunks) := by
    intro hall
    obtain ⟨fuel, hfuel⟩ := hgood hall
    rw [hfuel]
    exact ⟨rfl, rfl⟩
  refine ⟨⟨fun h => ?_, fun hall => (hvalid hall).1⟩, fun hall => (hvalid hall).2⟩
  by_contra hno
  push Not at hno
  obtain ⟨reason, hreason⟩ := hbad hno
  rw [Verification.valid, hreason] at h
  cases h

end Written

/-! ### Runs -/

/-- An append, or the journal object is made anew. -/
inductive Act
  | append (chunk : Chunk)
  | reopen

/-- A journal object and its file. -/
structure Store where
  journal : EncryptedJournal
  file : Option Bytes

def Store.act (env : Env) (s : Store) : Act → Option Store
  | .append chunk => (s.journal.append env s.file chunk).map fun result => ⟨result.1, result.2⟩
  | .reopen => (openJournal env s.journal.identity s.file).map fun result => ⟨result.1, result.2.1⟩

/-- A journal object of a file that is not there. -/
def Store.fresh (identity : Identity) : Store := ⟨⟨identity, 0, zeroHash⟩, none⟩

def chunksOf : List Act → List Chunk
  | [] => []
  | .append chunk :: rest => chunk :: chunksOf rest
  | .reopen :: rest => chunksOf rest

section Runs

variable {env} {identity : Identity} {chunk : Chunk} {chunks more : List Chunk}

/-- The journal and its file after the chunks. -/
def Store.written (env : Env) (identity : Identity) (chunks : List Chunk) : Store where
  journal := ⟨identity, chunks.length, hashAfter zeroHash (records env identity 0 zeroHash chunks)⟩
  file :=
    if chunks = [] then none
    else some (journalMagic ++ recordBytes env (records env identity 0 zeroHash chunks))

theorem written_nil : Store.written env identity [] = .fresh identity := rfl

theorem Fits.left (h : Fits env identity 0 zeroHash (chunks ++ more)) :
    Fits env identity 0 zeroHash chunks := by
  refine ⟨fun c hc => h.events c (List.mem_append_left _ hc), fun r hr => h.records r ?_⟩
  rw [records_append]
  exact List.mem_append_left _ hr

theorem Lawful.left (h : Lawful env (chunks ++ more)) : Lawful env chunks :=
  { h with
    events := fun c hc => h.events c (List.mem_append_left _ hc)
    keys := fun c hc => h.keys c (List.mem_append_left _ hc) }

theorem records_concat : records env identity 0 zeroHash (chunks ++ [chunk]) =
    records env identity 0 zeroHash chunks ++ [makeRecord env identity chunks.length
      (hashAfter zeroHash (records env identity 0 zeroHash chunks)) chunk] := by
  rw [records_append, Nat.zero_add]
  rfl

/-- An append that does not raise. -/
theorem append_eq {journal : EncryptedJournal} (file : Option Bytes) (hne : chunk.events ≠ [])
    (hsize : (makeRecord env journal.identity journal.chunkSequence journal.previousChunkHash
      chunk).ciphertext.length ≤ maxJournalChunkBytes) :
    journal.append env file chunk = some ({ journal with
        chunkSequence := journal.chunkSequence + 1
        previousChunkHash := (makeRecord env journal.identity journal.chunkSequence
          journal.previousChunkHash chunk).stored.currentChunkHash },
      some ((if file.getD [] = [] then journalMagic else file.getD []) ++
        (makeRecord env journal.identity
        journal.chunkSequence journal.previousChunkHash chunk).bytes env)) := by
  rw [EncryptedJournal.append, if_neg hne]
  exact if_neg (not_lt.2 hsize)

/-- An append adds its record. -/
theorem act_append (hfits : Fits env identity 0 zeroHash (chunks ++ [chunk])) :
    (Store.written env identity chunks).act env (.append chunk) =
      some (.written env identity (chunks ++ [chunk])) := by
  have hne := hfits.events chunk (List.mem_append_right _ (List.mem_singleton_self _))
  have hsize := (hfits.records (makeRecord env identity chunks.length
    (hashAfter zeroHash (records env identity 0 zeroHash chunks)) chunk) (by
      rw [records_concat]
      exact List.mem_append_right _ (List.mem_singleton_self _))).size
  have hcons : chunks ++ [chunk] ≠ [] := List.append_ne_nil_of_right_ne_nil _ (List.cons_ne_nil _ _)
  have hbefore : (if (Store.written env identity chunks).file.getD [] = [] then journalMagic
      else (Store.written env identity chunks).file.getD []) =
      journalMagic ++ recordBytes env (records env identity 0 zeroHash chunks) := by
    by_cases hnil : chunks = []
    · subst hnil
      exact (List.append_nil _).symm
    · rw [Store.written, if_neg hnil, Option.getD_some, if_neg]
      exact List.append_ne_nil_of_left_ne_nil (by decide) _
  rw [Store.act, @append_eq env chunk (Store.written env identity chunks).journal _ hne hsize,
    hbefore, Option.map_some, Store.written, Store.written, if_neg hcons, records_concat,
    hashAfter, hashAfter, List.foldl_append, List.length_append, recordBytes, recordBytes,
    List.flatMap_append, List.flatMap_singleton, List.append_assoc]
  rfl

/-- A re-opening finds what was there, or raises. -/
theorem act_reopen (hlaw : Lawful env chunks) (hfits : Fits env identity 0 zeroHash chunks) :
    ((∀ r ∈ records env identity 0 zeroHash chunks, Good env r) →
      (Store.written env identity chunks).act env .reopen = some (.written env identity chunks)) ∧
    ((∃ r ∈ records env identity 0 zeroHash chunks, ¬ Good env r) →
      (Store.written env identity chunks).act env .reopen = none) := by
  by_cases hnil : chunks = []
  · subst hnil
    refine ⟨fun _ => rfl, ?_⟩
    rintro ⟨r, hr, -⟩
    exact absurd hr List.not_mem_nil
  have hexpected : ∀ other ∈ some identity, other = identity := fun _ h => (Option.some.inj h).symm
  have hfile : (Store.written env identity chunks).file =
      some (journalMagic ++ recordBytes env (records env identity 0 zeroHash chunks)) := by
    rw [Store.written, if_neg hnil]
  rw [Store.act, hfile]
  constructor
  · intro hall
    obtain ⟨hiff, hscan⟩ := verifyJournal_whole hlaw hexpected hfits
    have herror := hiff.2 hall
    rw [Verification.valid] at herror
    have hidentity : (Store.written env identity chunks).journal.identity = identity := rfl
    obtain ⟨hcount, -, hhash, -⟩ :=
      @afterAll_spec identity (records env identity 0 zeroHash chunks) Scan.start
    rw [records_length] at hcount
    rw [openJournal, hidentity, hscan hall, hcount, hhash]
    simp only [herror, Option.map_some]
    rw [Store.written, if_neg hnil]
    simp only [Scan.start, Nat.zero_add]
  · intro hex
    have hwhole :=
      @verifyJournal_records env identity (some identity) chunks hlaw hexpected hfits []
    rw [List.append_nil] at hwhole
    obtain ⟨reason, hreason⟩ := hwhole.2 hex
    have hidentity : (Store.written env identity chunks).journal.identity = identity := rfl
    rw [openJournal, hidentity, hreason]
    rfl

/-- **A run** ends with all its records written; if they are good, it comes to its end. -/
theorem run_written : ∀ {acts : List Act} {chunks : List Chunk},
    Lawful env (chunks ++ chunksOf acts) → Fits env identity 0 zeroHash (chunks ++ chunksOf acts) →
    (∀ s, runFrom (Store.act env) (.written env identity chunks) acts = some s →
      s = .written env identity (chunks ++ chunksOf acts)) ∧
    ((∀ r ∈ records env identity 0 zeroHash (chunks ++ chunksOf acts), Good env r) →
      runFrom (Store.act env) (.written env identity chunks) acts =
        some (.written env identity (chunks ++ chunksOf acts))) := by
  intro acts
  induction acts with
  | nil =>
    intro chunks _ _
    rw [chunksOf, List.append_nil]
    exact ⟨fun s h => (Option.some.inj h).symm, fun _ => rfl⟩
  | cons act acts ih =>
    intro chunks hlaw hfits
    cases act with
    | append chunk =>
      have hassoc : chunks ++ chunksOf (.append chunk :: acts) = chunks ++ [chunk] ++
          chunksOf acts := by
        rw [chunksOf, List.append_assoc]
        rfl
      rw [hassoc] at hlaw hfits ⊢
      rw [runFrom, act_append hfits.left]
      exact ih hlaw hfits
    | reopen =>
      obtain ⟨hgood, hbad⟩ := act_reopen hlaw.left hfits.left
      rw [chunksOf] at hlaw hfits ⊢
      rw [runFrom]
      by_cases hall : ∀ r ∈ records env identity 0 zeroHash chunks, Good env r
      · rw [hgood hall]
        exact ih hlaw hfits
      · rw [hbad (by push Not at hall; exact hall)]
        refine ⟨fun s h => (by cases h), fun hgoods => absurd (fun r hr => hgoods r ?_) hall⟩
        rw [records_append]
        exact List.mem_append_left _ hr

end Runs

/-- A run of appends and re-openings comes to its end, and its journal is valid with exactly the
events that were appended, if and only if every record has a short header and no event with a
separator in a string. -/
theorem journal_round_trip (env : Env) (identity : Identity) (acts : List Act)
    (hlaw : Lawful env (chunksOf acts)) (hfits : Fits env identity 0 zeroHash (chunksOf acts)) :
    (∃ s, runFrom (Store.act env) (.fresh identity) acts = some s ∧
      (verifyJournal env none s.file).valid ∧
      (verifyJournal env none s.file).scan.events = (chunksOf acts).flatMap Chunk.events ∧
      (verifyJournal env none s.file).scan.chunkCount = (chunksOf acts).length ∧
      (verifyJournal env none s.file).scan.eventCount =
        ((chunksOf acts).flatMap Chunk.events).length) ↔
    ∀ r ∈ records env identity 0 zeroHash (chunksOf acts), Good env r := by
  have hexpected : ∀ other ∈ (none : Option Identity), other = identity := fun _ h => by cases h
  obtain ⟨hends, hruns⟩ := @run_written env identity acts [] hlaw hfits
  rw [List.nil_append, written_nil] at hends hruns
  have hevents : (records env identity 0 zeroHash (chunksOf acts)).flatMap Record.events =
      (chunksOf acts).flatMap Chunk.events := by
    rw [List.flatMap_def, List.flatMap_def, records_events]
  obtain ⟨hcount, heventCount, -, hlist⟩ :=
    @afterAll_spec identity (records env identity 0 zeroHash (chunksOf acts)) Scan.start
  rw [records_length] at hcount
  by_cases hnil : chunksOf acts = []
  · have hnone : (Store.written env identity (chunksOf acts)).file = none := by
      rw [Store.written, if_pos hnil]
    have hgood : ∀ r ∈ records env identity 0 zeroHash (chunksOf acts), Good env r := by
      rw [hnil]
      exact fun r hr => absurd hr List.not_mem_nil
    refine ⟨fun _ => hgood, fun _ => ⟨_, hruns hgood, ?_⟩⟩
    rw [hnone, hnil]
    exact ⟨rfl, rfl, rfl, rfl⟩
  · have hfile : (Store.written env identity (chunksOf acts)).file =
        some (journalMagic ++
            recordBytes env (records env identity 0 zeroHash (chunksOf acts))) := by
      rw [Store.written, if_neg hnil]
    obtain ⟨hiff, hscan⟩ := @verifyJournal_whole env identity none (chunksOf acts)
      hlaw hexpected hfits
    constructor
    · rintro ⟨s, hrun, hvalid, -⟩
      rw [hends s hrun, hfile] at hvalid
      exact hiff.1 hvalid
    · intro hall
      refine ⟨_, hruns hall, ?_⟩
      rw [hfile, hscan hall, hcount, heventCount, hlist, hevents]
      exact ⟨hiff.2 hall, rfl, Nat.zero_add _, Nat.zero_add _⟩

section Examples

/-- A store that keeps some events as they are, in a file with some headers; the bytes of a header
are as many as the number of its chunk. -/
def plainEnv (events : List Event) (stored : List StoredHeader) : Env where
  loads line := events.find? fun event => decide ((Value.object event).dumps = line)
  dumpHeader _ := Backup.ascii "header"
  dumpStored header := List.replicate header.header.chunkSequence 0
  loadStored data := stored.find? fun header => header.header.chunkSequence == data.length
  sha256 data := data
  compress data := 0 :: data
  decompress data := some data.tail
  loadKey _ := some []
  encrypt _ _ data _ := data
  decrypt _ _ data _ := some data

def plainIdentity : Identity := ⟨"session", "client", "client_session", by decide⟩

def plainChunk (events : List Event) : Chunk where
  events := events
  nonce := List.replicate 12 0
  createdAtUtc := "2026-01-01T00:00:00+00:00"
  keyId := "key"
  key := []
  nonce_length := rfl

/-- The records of chunks in a new file. -/
def plainRecords (chunks : List (List Event)) : List Record :=
  records (plainEnv [] []) plainIdentity 0 zeroHash (chunks.map plainChunk)

/-- The store that knows these chunks. -/
abbrev plainStore (chunks : List (List Event)) : Env :=
  plainEnv chunks.flatten ((plainRecords chunks).map Record.stored)

/-- An event with a character in its platform. -/
def platformEvent (c : Char) : Event := [("platform", .str (String.ofList ['a', c, 'b']))]

variable {chunks : List (List Event)}

/-- Events of different texts are told apart. -/
theorem plain_loads {events : List Event} {stored : List StoredHeader} {event : Event}
    (hmem : event ∈ events) (hapart : (events.map fun event => (Value.object event).dumps).Nodup) :
    (plainEnv events stored).loads (Value.object event).dumps = some event := by
  show events.find? _ = _
  induction events with
  | nil => cases hmem
  | cons first rest ih =>
    rw [List.map_cons, List.nodup_cons] at hapart
    rcases List.mem_cons.1 hmem with rfl | hrest
    · exact List.find?_cons_of_pos (decide_eq_true rfl)
    · have hne : (Value.object first).dumps ≠ (Value.object event).dumps := fun heq =>
        hapart.1 (heq ▸ List.mem_map_of_mem hrest)
      rw [List.find?_cons_of_neg (by simpa using hne)]
      exact ih hrest hapart.2

theorem plain_lawful (h : (chunks.flatten.map fun event => (Value.object event).dumps).Nodup) :
    Lawful (plainStore chunks) (chunks.map plainChunk) where
  events chunk hchunk e he := by
    obtain ⟨events, hevents, rfl⟩ := List.mem_map.1 hchunk
    exact plain_loads (List.mem_flatten.2 ⟨events, hevents, he⟩) h
  zlib _ := rfl
  aead _ _ _ _ := rfl
  keys chunk hchunk := by
    obtain ⟨events, -, rfl⟩ := List.mem_map.1 hchunk
    rfl

/-- What the store can load makes no difference to the records. -/
theorem plain_records {events : List Event} {stored : List StoredHeader}
    {identity : Identity} {n : ℕ} {hash : Bytes} {appended : List Chunk} :
    records (plainEnv events stored) identity n hash appended =
      records (plainEnv [] []) identity n hash appended := by
  induction appended generalizing n hash with
  | nil => rfl
  | cons chunk rest ih =>
    rw [records, records, ih]
    rfl

theorem plain_fits (hne : ∀ events ∈ chunks, events ≠ [])
    (hsize : ∀ r ∈ plainRecords chunks, r.ciphertext.length ≤ maxJournalChunkBytes ∧
      0 < r.ciphertext.length ∧ r.stored.header.chunkSequence < 256 ^ journalLengthBytes ∧
        0 < r.stored.header.chunkSequence)
    (hload : ∀ r ∈ plainRecords chunks,
      (plainStore chunks).loadStored ((plainStore chunks).dumpStored r.stored) = some r.stored) :
    Fits (plainStore chunks) plainIdentity 0 zeroHash (chunks.map plainChunk) where
  events chunk hchunk := by
    obtain ⟨events, hevents, rfl⟩ := List.mem_map.1 hchunk
    exact hne events hevents
  records r hr := by
    rw [plain_records] at hr
    have hlength : ((plainStore chunks).dumpStored r.stored).length =
        r.stored.header.chunkSequence :=
      List.length_replicate
    obtain ⟨hsmall, hpos, hshort, hnumber⟩ := hsize r hr
    refine ⟨hsmall, hpos, ?_, ?_, hload r hr⟩
    · rwa [hlength]
    · rwa [hlength]

theorem platform_unseparated {c : Char} (hc : c ∉ separators) : (platformEvent c).Unseparated := by
  intro text htext
  have htexts : (Value.object (platformEvent c)).texts =
    ["platform", String.ofList ['a', c, 'b']] := rfl
  rw [htexts] at htext
  rcases List.mem_cons.1 htext with rfl | htext
  · exact forall_of_all (by decide)
  · cases List.mem_singleton.1 htext
    rw [String.toList_ofList]
    intro d hd
    rcases List.mem_cons.1 hd with rfl | hd
    · decide
    rcases List.mem_cons.1 hd with rfl | hd
    · exact hc
    · cases List.mem_singleton.1 hd
      decide

/-- Two events in one chunk, and one in another. -/
def twoChunks : List (List Event) := [[platformEvent 'c', platformEvent 'd'], [platformEvent 'e']]

theorem twoChunks_lawful : Lawful (plainStore twoChunks) (twoChunks.map plainChunk) :=
  plain_lawful (by decide +kernel)

theorem twoChunks_fits : Fits (plainStore twoChunks) plainIdentity 0 zeroHash
    (twoChunks.map plainChunk) := by
  refine plain_fits ?_ ?_ ?_
  · intro events hevents
    rcases List.mem_cons.1 hevents with rfl | hevents
    · exact List.cons_ne_nil _ _
    · cases List.mem_singleton.1 hevents
      exact List.cons_ne_nil _ _
  · exact List.forall_iff_forall_mem.1 (by decide +kernel)
  · exact List.forall_iff_forall_mem.1 ⟨rfl, rfl⟩

theorem twoChunks_good : ∀ r ∈ records (plainStore twoChunks) plainIdentity 0 zeroHash
    (twoChunks.map plainChunk), Good (plainStore twoChunks) r := by
  intro r hr
  rcases List.mem_cons.1 hr with rfl | hr
  · refine ⟨by decide, fun event hevent => ?_⟩
    rcases List.mem_cons.1 hevent with rfl | hevent
    · exact platform_unseparated (by decide)
    · cases List.mem_singleton.1 hevent
      exact platform_unseparated (by decide)
  · cases List.mem_singleton.1 hr
    refine ⟨by decide, fun event hevent => ?_⟩
    cases List.mem_singleton.1 hevent
    exact platform_unseparated (by decide)

/-- Two chunks, with the journal opened again between them. -/
theorem journal_round_trip_plain :
    ∃ s, runFrom (Store.act (plainStore twoChunks)) (.fresh plainIdentity)
        [.append (plainChunk [platformEvent 'c', platformEvent 'd']), .reopen,
          .append (plainChunk [platformEvent 'e'])] = some s ∧
      (verifyJournal (plainStore twoChunks) none s.file).valid ∧
      (verifyJournal (plainStore twoChunks) none s.file).scan.events =
        [platformEvent 'c', platformEvent 'd', platformEvent 'e'] ∧
      (verifyJournal (plainStore twoChunks) none s.file).scan.chunkCount = 2 ∧
      (verifyJournal (plainStore twoChunks) none s.file).scan.eventCount = 3 :=
  (journal_round_trip (plainStore twoChunks) plainIdentity
    [.append (plainChunk [platformEvent 'c', platformEvent 'd']), .reopen,
      .append (plainChunk [platformEvent 'e'])] twoChunks_lawful twoChunks_fits).2 twoChunks_good

/-- U+2028, the line separator. -/
def lineSeparator : Char := Char.ofNat 0x2028

/-- A store of one event in one chunk. -/
theorem single_lawful {event : Event} : Lawful (plainStore [[event]]) [plainChunk [event]] :=
  plain_lawful (List.pairwise_singleton _ _)

theorem single_fits {c : Char}
    (hsmall : ∀ r ∈ plainRecords [[platformEvent c]], r.ciphertext.length ≤ maxJournalChunkBytes) :
    Fits (plainStore [[platformEvent c]]) plainIdentity 0 zeroHash
        [plainChunk [platformEvent c]] := by
  refine plain_fits ?_ ?_ ?_
  · intro events hevents
    cases List.mem_singleton.1 hevents
    exact List.cons_ne_nil _ _
  · intro r hr
    refine ⟨hsmall r hr, ?_⟩
    cases List.mem_singleton.1 hr
    have hlow : 1 < 256 ^ journalLengthBytes := by decide
    exact ⟨Nat.succ_pos _, hlow, Nat.one_pos⟩
  · intro r hr
    cases List.mem_singleton.1 hr
    rfl

/-- The sanitizer lets a line separator through, the journal writes it, and cannot read it again. -/
theorem separated_event_unreadable :
    sanitizeEvent ⟨Char.isAlphanum, Char.isDigit⟩ (platformEvent lineSeparator) =
      some (platformEvent lineSeparator) ∧
    Lawful (plainStore [[platformEvent lineSeparator]]) [plainChunk [platformEvent lineSeparator]] ∧
    Fits (plainStore [[platformEvent lineSeparator]]) plainIdentity 0 zeroHash
      [plainChunk [platformEvent lineSeparator]] ∧
    ∃ s, runFrom (Store.act (plainStore [[platformEvent lineSeparator]])) (.fresh plainIdentity)
        [.append (plainChunk [platformEvent lineSeparator])] = some s ∧
      ¬ (verifyJournal (plainStore [[platformEvent lineSeparator]]) none s.file).valid := by
  have hfits : Fits (plainStore [[platformEvent lineSeparator]]) plainIdentity 0 zeroHash
    [plainChunk [platformEvent lineSeparator]] := single_fits (by decide +kernel)
  have hact : (Store.fresh plainIdentity).act (plainStore [[platformEvent lineSeparator]])
      (.append (plainChunk [platformEvent lineSeparator])) =
        some (.written _ plainIdentity [plainChunk [platformEvent lineSeparator]]) :=
    @act_append (plainStore [[platformEvent lineSeparator]]) plainIdentity
      (plainChunk [platformEvent lineSeparator]) [] hfits
  refine ⟨rfl, single_lawful, hfits, _, by rw [runFrom, hact]; rfl, fun hvalid => ?_⟩
  have hgood := (verifyJournal_whole single_lawful (fun _ h => by cases h) hfits).1.1 hvalid
  have hevent : (platformEvent lineSeparator).Unseparated :=
    (hgood _ (List.mem_singleton_self _)).2 _ (List.mem_singleton_self _)
  refine hevent (String.ofList ['a', lineSeparator, 'b']) ?_ lineSeparator ?_ ?_
  · exact List.mem_cons_of_mem _ (List.mem_singleton_self _)
  · decide
  · decide

end Examples

end Journal
