/-
The second version of the backup envelope.

* `readV2Header_eq`, `splitEnvelope_eq` — what is read by seeking in a file is what is cut out of
  its bytes;
* `decryptStream_eq` — the windows of the file decrypt to what the whole ciphertext decrypts to;
* `decoders_agree` — so the two decoders have the same result, or raise the same;
* `foldlM_write`, `readV2HeaderBytes_append` — what a writer has written, and what is read back of
  it;
* `backup_envelope` — the round trip, and the rejection of every shorter or longer file.
-/
import Mathlib.Data.List.TakeDrop
import Elvern.BackupEnvelope
import Elvern.Exceptions

namespace Backup

/-! ### Numbers -/

theorem packBE_length (width n : ℕ) : (packBE width n).length = width := by
  induction width generalizing n with
  | zero => rfl
  | succ width ih => rw [packBE, List.length_append, ih, List.length_singleton]

theorem unpackBE_packBE (width n : ℕ) (h : n < 256 ^ width) : unpackBE (packBE width n) = n := by
  induction width generalizing n with
  | zero =>
    rw [Nat.pow_zero, Nat.lt_one_iff] at h
    rw [h]
    rfl
  | succ width ih =>
    have hdiv : n / 256 < 256 ^ width := by
      rw [Nat.div_lt_iff_lt_mul (by decide)]
      rwa [Nat.pow_succ] at h
    have hbyte : (UInt8.ofNat (n % 256)).toNat = n % 256 := by
      rw [UInt8.toNat_ofNat']
      exact Nat.mod_mod n 256
    rw [packBE, unpackBE, List.foldl_append, ← unpackBE, ih _ hdiv, List.foldl_cons, List.foldl_nil,
      hbyte]
    omega

/-- What the envelope relies on about AES-GCM: it is a stream cipher that is its own inverse, and
its tags have sixteen bytes. -/
structure Env.LawfulGcm (env : Env) : Prop where
  ctr_append : ∀ key nonce position a b,
    env.ctr key nonce position (a ++ b) =
      env.ctr key nonce position a ++ env.ctr key nonce (position + a.length) b
  ctr_length : ∀ key nonce position a, (env.ctr key nonce position a).length = a.length
  ctr_ctr : ∀ key nonce position a,
    env.ctr key nonce position (env.ctr key nonce position a) = a
  gcmTag_length : ∀ key nonce aad ciphertext,
    (env.gcmTag key nonce aad ciphertext).length = tagBytesV2

/-! ### Two ways to read -/

variable {env : Env}

theorem isPrefixOf_take {l blob : Bytes} {n : ℕ} (hn : l.length ≤ n) :
    l.isPrefixOf (blob.take n) = l.isPrefixOf blob := by
  rw [Bool.eq_iff_iff, List.isPrefixOf_iff_prefix, List.isPrefixOf_iff_prefix]
  constructor
  · exact fun h => h.trans (List.take_prefix n blob)
  · intro h
    rw [List.prefix_take_iff]
    exact ⟨h, hn⟩

/-- The reader of files reads the same header. -/
theorem readV2Header_eq (blob : Bytes) : readV2Header env blob = readV2HeaderBytes env blob := by
  rw [readV2Header, readV2HeaderBytes]
  have hmagic : headerMagicV2.length = 17 := by decide
  by_cases hshort : blob.length < headerMagicV2.length + 4
  · have hfront : (blob.take (headerMagicV2.length + 4)).length < headerMagicV2.length + 4 := by
      rw [List.length_take]
      omega
    rw [if_pos (.inl hfront), if_pos (.inl hshort)]
  have hfront : (blob.take (headerMagicV2.length + 4)).length = headerMagicV2.length + 4 := by
    rw [List.length_take]
    omega
  simp only [hfront, lt_irrefl, hshort, false_or, isPrefixOf_take (Nat.le_add_right _ 4)]
  split
  · rfl
  simp only [Nat.add_sub_cancel]
  split
  · rfl
  · set headerLength := unpackBE ((blob.take (headerMagicV2.length + 4)).drop headerMagicV2.length)
    have hlength : ((blob.drop (headerMagicV2.length + 4)).take headerLength).length =
        min headerLength (blob.length - (headerMagicV2.length + 4)) := by
      rw [List.length_take, List.length_drop]
    by_cases hcut : blob.length < headerMagicV2.length + 4 + headerLength
    · rw [if_pos hcut, if_pos (by omega)]
    · rw [if_neg hcut, if_neg (by omega), ← List.take_add, List.drop_take,
        Nat.add_sub_cancel_left]

theorem take_drop_eq_drop {blob : Bytes} {n k : ℕ} (h : blob.length ≤ n + k) :
    (blob.drop n).take k = blob.drop n :=
  List.take_of_length_le (by rw [List.length_drop]; omega)

/-- What is cut out of the bytes is what is found in the file. -/
theorem splitEnvelope_eq (blob aad : Bytes) (header : Header) :
    splitEnvelope env blob aad header =
      (locateCiphertext env blob aad.length header).map fun x =>
        ((blob.drop aad.length).take x.1, x.2) := by
  rw [splitEnvelope, locateCiphertext]
  rcases envelopeRevision env header with e | revision
  · rfl
  simp only [bind, Except.bind]
  have hfooter : footerBytesV2 = 16 := rfl
  have htag : tagBytesV2 = 16 := rfl
  split
  · split
    · rfl
    · next hlength =>
      have hfooterEq : readAt blob (blob.length - footerBytesV2) footerBytesV2 =
          blob.drop (blob.length - footerBytesV2) := take_drop_eq_drop (by omega)
      rw [hfooterEq]
      split
      · rfl
      split
      · rfl
      · rw [List.drop_take, List.drop_take]
        have hsize : blob.length - footerBytesV2 - (blob.length - footerBytesV2 - tagBytesV2) =
            tagBytesV2 := by omega
        rw [hsize]
        rfl
  split
  · split
    · rfl
    · next hlength =>
      have htagEq : readAt blob (blob.length - tagBytesV2) tagBytesV2 =
          blob.drop (blob.length - tagBytesV2) := take_drop_eq_drop (by omega)
      have hsize : blob.length - tagBytesV2 - aad.length = blob.length - aad.length -
          tagBytesV2 := by
        omega
      rw [htagEq, List.drop_take, hsize]
      rfl
  · rfl

/-- Window by window the ciphertext decrypts to what it decrypts to as a whole. -/
theorem decryptStream_eq (hgcm : env.LawfulGcm) (key nonce : Bytes) (n : ℕ) :
    ∀ source seen : Bytes, n ≤ source.length →
      decryptStream env key nonce n source seen =
        .ok (env.ctr key nonce seen.length (source.take n), seen ++ source.take n) := by
  induction n using Nat.strong_induction_on with
  | _ n ih =>
    intro source seen hlength
    have hnil : env.ctr key nonce seen.length [] = [] :=
      List.length_eq_zero_iff.mp (hgcm.ctr_length key nonce seen.length [])
    rw [decryptStream]
    by_cases hzero : n = 0
    · rw [dif_pos hzero, hzero, List.take_zero, hnil, List.append_nil]
    rw [dif_neg hzero]
    set size := min streamChunkBytes n with hsize
    have hstream : 0 < streamChunkBytes := by decide
    have hchunkLength : (source.take size).length = size := by
      rw [List.length_take]
      omega
    have hchunk : source.take size ≠ [] := by
      intro hnil
      rw [hnil, List.length_nil] at hchunkLength
      omega
    have hsplit : source.take n = source.take size ++ (source.drop size).take (n - size) := by
      rw [← List.take_add, Nat.add_sub_cancel' (by omega)]
    have hrest := ih (n - size) (by omega) (source.drop size) (seen ++ source.take size)
      (by rw [List.length_drop]; omega)
    dsimp only
    rw [dif_neg hchunk, hchunkLength, hrest, hsplit, hgcm.ctr_append, List.length_append,
      hchunkLength, ← List.append_assoc]
    rfl

/-- The two decoders of one envelope: the same plaintext, or exceptions of one class; a file that
the second has made is gone when it raises. -/
def Agree (env : Env) (settings : Settings) (passphrase : Option String) (blob : Bytes)
    (destination : Option Bytes) : Prop :=
  (∃ plaintext header, decryptBackup env settings passphrase blob = .ok plaintext ∧
    decryptBackupFileV2 env settings passphrase blob destination = (.ok header, some plaintext)) ∨
  ∃ e e', decryptBackup env settings passphrase blob = .error e ∧
    (decryptBackupFileV2 env settings passphrase blob destination).1 = .error e' ∧ e'.cls = e.cls ∧
    ((decryptBackupFileV2 env settings passphrase blob destination).2 = destination ∨
      (decryptBackupFileV2 env settings passphrase blob destination).2 = none)

theorem locateCiphertext_le {file : Bytes} {start n : ℕ} {header : Header} {tag : Bytes}
    (h : locateCiphertext env file start header = .ok (n, tag)) : n ≤ (file.drop start).length := by
  rw [locateCiphertext] at h
  obtain ⟨revision, -, h⟩ := Except.bind_eq_ok_iff.mp h
  rw [List.length_drop]
  have hfooter : footerBytesV2 = 16 := rfl
  have htag : tagBytesV2 = 16 := rfl
  dsimp only at h
  split at h
  · split at h
    · cases h
    split at h
    · cases h
    split at h
    · cases h
    · cases h
      omega
  split at h
  · split at h
    · cases h
    · cases h
      omega
  · cases h

/-- The decoders agree on every text with the magic of the second version. -/
theorem decoders_agree (hgcm : env.LawfulGcm) {blob : Bytes}
    (hmagic : headerMagicV2.isPrefixOf blob = true) (settings : Settings)
    (passphrase : Option String) (destination : Option Bytes) :
    Agree env settings passphrase blob destination := by
  rw [Agree, decryptBackup, if_pos hmagic, decryptBackupFileV2, readV2Header_eq]
  rcases hread : readV2HeaderBytes env blob with e | ⟨aad, header⟩
  · exact .inr ⟨e, e, rfl, rfl, rfl, .inl rfl⟩
  simp only [bind, Except.bind, splitEnvelope_eq]
  rcases hlocate : locateCiphertext env blob aad.length header with e | ⟨n, tag⟩
  · exact .inr ⟨e, e, rfl, rfl, rfl, .inl rfl⟩
  simp only [Except.map]
  rcases hkey : resolveV2Key env settings header passphrase with e | key
  · exact .inr ⟨e, e, rfl, rfl, rfl, .inl rfl⟩
  dsimp only
  rcases hnonce : decodeNonce env header with e | nonce
  · exact .inr ⟨e, e, rfl, rfl, rfl, .inl rfl⟩
  dsimp only
  rcases haes : env.aes key with e | -
  · exact .inr ⟨e, e, rfl, rfl, rfl, .inl rfl⟩
  have hstream := decryptStream_eq hgcm key nonce n (blob.drop aad.length) []
    (locateCiphertext_le hlocate)
  simp only [pure, Except.pure, hstream, List.length_nil, List.nil_append]
  by_cases haccepts : env.gcmAccepts key nonce aad ((blob.drop aad.length).take n) tag = true
  · rw [if_pos haccepts, if_pos haccepts]
    exact .inl ⟨_, header, rfl, rfl⟩
  · rw [if_neg haccepts, if_neg haccepts]
    exact .inr ⟨_, _, rfl, rfl, rfl, .inr rfl⟩

/-! ### What a writer writes -/

/-- A writer that has been given so many bytes. -/
structure V2EncryptingWriter.Written (env : Env) (start w : V2EncryptingWriter) (data : Bytes) :
    Prop where
  key : w.key = start.key
  nonce : w.nonce = start.nonce
  aad : w.aad = start.aad
  header : w.header = start.header
  closed : w.closed = start.closed
  handle : w.handle = start.aad ++ w.ciphertext
  ciphertext : w.ciphertext = env.ctr start.key start.nonce 0 data
  bytesIn : w.bytesIn = data.length

/-- Writing chunk by chunk encrypts what the chunks are together. -/
theorem foldlM_write (hgcm : env.LawfulGcm) {start : V2EncryptingWriter}
    (hopen : start.closed = false) (chunks : List Bytes) :
    ∀ (w : V2EncryptingWriter) (data : Bytes), V2EncryptingWriter.Written env start w data →
      ∃ w', chunks.foldlM (V2EncryptingWriter.write env) w = .ok w' ∧
        V2EncryptingWriter.Written env start w' (data ++ chunks.flatten) := by
  induction chunks with
  | nil =>
    intro w data hw
    exact ⟨w, rfl, by rwa [List.flatten_nil, List.append_nil]⟩
  | cons chunk chunks ih =>
    intro w data hw
    have hwrite : ∃ w', V2EncryptingWriter.write env w chunk = .ok w' ∧
        V2EncryptingWriter.Written env start w' (data ++ chunk) := by
      have hclosed : w.closed = false := hw.closed.trans hopen
      rw [V2EncryptingWriter.write, if_neg (by rw [hclosed]; exact Bool.false_ne_true)]
      by_cases hchunk : chunk = []
      · rw [if_pos hchunk]
        exact ⟨w, rfl, by rwa [hchunk, List.append_nil]⟩
      · rw [if_neg hchunk]
        have hencrypted : w.ciphertext ++ env.ctr w.key w.nonce w.ciphertext.length chunk =
            env.ctr start.key start.nonce 0 (data ++ chunk) := by
          rw [hgcm.ctr_append, hw.key, hw.nonce, hw.ciphertext, hgcm.ctr_length, Nat.zero_add]
        refine ⟨_, rfl, hw.key, hw.nonce, hw.aad, hw.header, hw.closed, ?_, hencrypted, ?_⟩
        · rw [hw.handle, List.append_assoc]
        · rw [hw.bytesIn, List.length_append]
    obtain ⟨w', hstep, hw'⟩ := hwrite
    obtain ⟨w'', hrest, hw''⟩ := ih w' (data ++ chunk) hw'
    refine ⟨w'', ?_, ?_⟩
    · rw [List.foldlM_cons, hstep]
      exact hrest
    · rwa [List.flatten_cons, ← List.append_assoc]

/-- The header of an envelope is read back, whatever follows it. -/
theorem readV2HeaderBytes_append {header : Header} {aad : Bytes}
    (hencode : encodeV2Header env header = .ok aad)
    (hjson : env.jsonLoads (env.jsonDumps header) = .ok (.object header))
    (hne : env.jsonDumps header ≠ []) (rest : Bytes) :
    readV2HeaderBytes env (aad ++ rest) = .ok (aad, header) := by
  rw [encodeV2Header] at hencode
  split at hencode
  · cases hencode
  next hsize =>
  rw [← Except.ok.inj hencode]
  set json := env.jsonDumps header with hdef
  have hpos : 0 < json.length := List.length_pos_iff.mpr hne
  set front := headerMagicV2 ++ packBE 4 json.length with hfront
  have hfrontLength : front.length = headerMagicV2.length + 4 := by
    rw [hfront, List.length_append, packBE_length]
  have hnumber : unpackBE ((((front ++ json) ++ rest).take (headerMagicV2.length + 4)).drop
      headerMagicV2.length) = json.length := by
    rw [List.append_assoc, ← hfrontLength, List.take_left, hfront, List.drop_left]
    exact unpackBE_packBE 4 _ (by omega)
  have hend : ((front ++ json) ++ rest).take (headerMagicV2.length + 4 + json.length) =
      front ++ json := by
    rw [← hfrontLength, ← List.length_append, List.take_left]
  have hmagic : headerMagicV2.isPrefixOf ((front ++ json) ++ rest) = true := by
    rw [List.isPrefixOf_iff_prefix, hfront, List.append_assoc, List.append_assoc]
    exact List.prefix_append _ _
  have hlong : headerMagicV2.length + 4 + json.length ≤ ((front ++ json) ++ rest).length := by
    rw [List.length_append, List.length_append, hfrontLength]
    omega
  rw [readV2HeaderBytes]
  dsimp only
  rw [if_neg (by rw [hmagic]; simp only [Bool.true_eq_false, or_false]; omega), hnumber,
    if_neg (by omega), if_neg (by omega), hend, ← hfrontLength, List.drop_left, parseHeader, hjson]
  rfl

/-- What the envelope of a header relies on about JSON, base64, `int` and `str`. -/
structure Env.Reads (env : Env) (random : Randomness) (header : Header) : Prop where
  json : env.jsonLoads (env.jsonDumps header) = .ok (.object header)
  json_ne_nil : env.jsonDumps header ≠ []
  nonce : env.b64decode (env.b64encode random.nonce) = .ok random.nonce
  salt : env.b64decode (env.b64encode random.salt) = .ok random.salt
  int : ∀ n, env.intOf (.int n) = .ok n
  str : ∀ s, env.strOf (.str s) = s
  b64_ascii : ∀ bytes, ∀ c ∈ (env.b64encode bytes).toList, c.toNat < 128

/-- The key that an active key of the keyring is read back as. -/
theorem activeWriteKey_read {settings settings' : Settings} {newKeyId keyId : String}
    {newKey key : Bytes}
    (h : settings.activeWriteKey env newKeyId newKey = .ok (keyId, key, settings')) :
    settings'.readKey env keyId = .ok key := by
  rw [Settings.activeWriteKey] at h
  obtain ⟨keyring, hload, h⟩ := Except.bind_eq_ok_iff.mp h
  obtain ⟨key', hkey, h⟩ := Except.bind_eq_ok_iff.mp h
  obtain ⟨rfl, hrest⟩ := Prod.mk.inj (Except.ok.inj h)
  obtain ⟨rfl, rfl⟩ := Prod.mk.inj hrest
  rw [Settings.readKey]
  exact Except.bind_eq_ok_iff.mpr ⟨keyring, hload, hkey⟩

section Header

variable {keyId : Option String} {keySource : String} {key nonce salt : Bytes} {iterations : ℕ}

theorem newHeader_format : ((newHeader env keyId keySource key nonce salt iterations).get
    "format_version") = some (.int 2) :=
  rfl

theorem newHeader_algorithm : ((newHeader env keyId keySource key nonce salt iterations).get
    "algorithm") = some (.str "AES-256-GCM") :=
  rfl

theorem newHeader_revision : ((newHeader env keyId keySource key nonce salt iterations).get
    "envelope_revision") = some (.int 2) :=
  rfl

theorem newHeader_nonce : ((newHeader env keyId keySource key nonce salt iterations).get
    "nonce_b64") = some (.str (env.b64encode nonce)) :=
  rfl

theorem newHeader_verifier : ((newHeader env keyId keySource key nonce salt iterations).get
    "key_verifier") = some (.str (keyVerifier env key nonce)) :=
  rfl

theorem newHeader_source : ((newHeader env keyId keySource key nonce salt iterations).get
    "key_source") = some (.str keySource) :=
  rfl

theorem newHeader_keyId : ((newHeader env keyId keySource key nonce salt iterations).get
    "key_id") = some (keyId.elim .null .str) :=
  rfl

theorem newHeader_iterations : ((newHeader env keyId keySource key nonce salt iterations).get
    "pbkdf2_iterations") = some (.int iterations) :=
  rfl

theorem newHeader_salt : ((newHeader env keyId keySource key nonce salt iterations).get
    "salt_b64") = some (.str (if salt = [] then "" else env.b64encode salt)) :=
  rfl

end Header

/-- A text of the header as it is looked at, empty or not. -/
theorem getTrue_str {header : Header} {name text : String} (hstr : ∀ s, env.strOf (.str s) = s)
    (h : header.get name = some (.str text)) :
    ((header.getTrue name).map env.strOf).getD "" = text := by
  rw [Header.getTrue, h, Option.filter_some]
  by_cases htext : text = ""
  · simp [Json.truthy, htext]
  · simp [Json.truthy, htext, hstr]

/-- The key of a new envelope is found again, where its source gives it. -/
theorem resolveV2Key_new {random : Randomness} {settings : Settings} {passphrase : Option String}
    {keyId : Option String} {keySource : String} {key salt : Bytes} {iterations : ℕ}
    (hreads : env.Reads random (newHeader env keyId keySource key random.nonce salt iterations))
    (hsource : sourceKey env settings (newHeader env keyId keySource key random.nonce
      salt iterations) passphrase = .ok key) :
    resolveV2Key env settings (newHeader env keyId keySource key random.nonce salt iterations)
        passphrase = .ok key ∧
      decodeNonce env (newHeader env keyId keySource key random.nonce salt iterations) =
        .ok random.nonce ∧
      envelopeRevision env (newHeader env keyId keySource key random.nonce salt iterations) =
        .ok 2 := by
  have hnonce : decodeNonce env (newHeader env keyId keySource key random.nonce salt iterations) =
      .ok random.nonce := by
    rw [decodeNonce, newHeader_nonce]
    dsimp only
    rw [hreads.str, hreads.nonce]
  refine ⟨?_, hnonce, ?_⟩
  · have hcompare : compareDigest (keyVerifier env key random.nonce)
        (keyVerifier env key random.nonce) = .ok true := by
      rw [compareDigest, if_pos]
      · rw [decide_eq_true rfl]
      · rw [List.all_eq_true]
        intro c hc
        rw [List.mem_append, or_self] at hc
        exact decide_eq_true (hreads.b64_ascii _ c hc)
    have hlength : ¬random.nonce.length ≠ nonceBytesV2 := not_not.mpr random.nonce_length
    rw [resolveV2Key, newHeader_format, newHeader_algorithm, hnonce,
      if_neg (by simp [Json.eqInt, Json.eqStr])]
    dsimp only
    rw [if_neg hlength, hsource]
    simp only [bind, Except.bind, getTrue_str hreads.str newHeader_verifier, hcompare, if_true]
    rfl
  · rw [envelopeRevision, Header.getTrue, newHeader_revision]
    exact hreads.int 2

/-- The key source of a new header gives its key. -/
theorem sourceKey_new {settings settings' : Settings} {random : Randomness}
    {passphrase : Option String} {key : Bytes} {header : Header}
    (h : V2EncryptingWriter.keyAndHeader env settings random passphrase =
      .ok (key, header, settings')) :
    ∃ keyId keySource salt iterations,
      header = newHeader env keyId keySource key random.nonce salt iterations ∧
        (env.Reads random header → sourceKey env settings' header passphrase = .ok key) := by
  rw [V2EncryptingWriter.keyAndHeader] at h
  rcases hgiven : givenPassphrase passphrase with _ | given
  · rw [hgiven] at h
    obtain ⟨⟨keyId, key', found⟩, hactive, h⟩ := Except.bind_eq_ok_iff.mp h
    obtain ⟨rfl, hrest⟩ := Prod.mk.inj (Except.ok.inj h)
    obtain ⟨rfl, rfl⟩ := Prod.mk.inj hrest
    refine ⟨some keyId, "auto", [], 0, rfl, fun hreads => ?_⟩
    have hauto : (Json.str "auto").eqStr "auto" = true := by decide
    rw [sourceKey, newHeader_source]
    dsimp only
    rw [if_pos hauto, getTrue_str hreads.str newHeader_keyId, activeWriteKey_read hactive]
  · rw [hgiven] at h
    obtain ⟨checked, hchecked, h⟩ := Except.bind_eq_ok_iff.mp h
    obtain ⟨key', hkey, h⟩ := Except.bind_eq_ok_iff.mp h
    obtain ⟨rfl, hrest⟩ := Prod.mk.inj (Except.ok.inj h)
    obtain ⟨rfl, rfl⟩ := Prod.mk.inj hrest
    refine ⟨none, "passphrase", random.salt, pbkdf2IterationsBackup, rfl, fun hreads => ?_⟩
    have hauto : (Json.str "passphrase").eqStr "auto" = false := by decide
    have hpassphrase : (Json.str "passphrase").eqStr "passphrase" = true := by decide
    have hsalt : random.salt ≠ [] := by
      intro hnil
      have hlength := random.salt_length
      rw [hnil] at hlength
      cases hlength
    have hparameters : passphraseParameters env (newHeader env none "passphrase" key'
        random.nonce random.salt pbkdf2IterationsBackup) =
        .ok (random.salt, (pbkdf2IterationsBackup : ℤ)) := by
      rw [passphraseParameters, newHeader_salt, newHeader_iterations, if_neg hsalt]
      simp only [hreads.str, hreads.salt, hreads.int, bind, Except.bind, pure, Except.pure]
      rw [if_neg (by rw [random.salt_length]; simp)]
    rw [sourceKey, newHeader_source]
    simp only [hauto, hpassphrase, hgiven, hparameters, Bool.false_eq_true, if_false, if_true, bind,
      Except.bind]
    rw [hchecked]
    exact hkey

/-- What a new writer starts from, and the key that its header leads back to. -/
theorem new_spec {settings settings' : Settings} {random : Randomness} {passphrase : Option String}
    {w : V2EncryptingWriter}
    (h : V2EncryptingWriter.new env settings random passphrase = .ok (w, settings')) :
    (w.closed = false ∧ w.handle = w.aad ∧ w.ciphertext = [] ∧ w.bytesIn = 0) ∧
      encodeV2Header env w.header = .ok w.aad ∧ env.aes w.key = .ok () ∧
      (env.Reads random w.header →
        resolveV2Key env settings' w.header passphrase = .ok w.key ∧
          decodeNonce env w.header = .ok w.nonce ∧ envelopeRevision env w.header = .ok 2) := by
  rw [V2EncryptingWriter.new] at h
  obtain ⟨⟨key, header, found⟩, hkey, h⟩ := Except.bind_eq_ok_iff.mp h
  obtain ⟨aad, haad, h⟩ := Except.bind_eq_ok_iff.mp h
  obtain ⟨⟨⟩, haes, h⟩ := Except.bind_eq_ok_iff.mp h
  obtain ⟨rfl, rfl⟩ := Prod.mk.inj (Except.ok.inj h)
  refine ⟨⟨rfl, rfl, rfl, rfl⟩, haad, haes, fun hreads => ?_⟩
  obtain ⟨keyId, keySource, salt, iterations, rfl, hsource⟩ := sourceKey_new hkey
  exact resolveV2Key_new hreads (hsource hreads)

/-- Ciphertext and tag of a written envelope are found where they are. -/
theorem splitEnvelope_written (aad : Bytes) {ciphertext tag : Bytes} {header : Header}
    (hrevision : envelopeRevision env header = .ok 2) (htag : tag.length = tagBytesV2)
    (hsize : ciphertext.length < 2 ^ 64) :
    splitEnvelope env (aad ++ ciphertext ++ tag ++ (footerMagicV2 ++ packBE 8 ciphertext.length))
      aad header = .ok (ciphertext, tag) := by
  have hfooterMagic : footerMagicV2.length = 8 := by decide
  have hfooter : footerBytesV2 = 16 := rfl
  have htagBytes : tagBytesV2 = 16 := rfl
  have hfootLength : (footerMagicV2 ++ packBE 8 ciphertext.length).length = footerBytesV2 := by
    rw [List.length_append, packBE_length, hfooterMagic, hfooter]
  set foot := footerMagicV2 ++ packBE 8 ciphertext.length with hfoot
  have hlength : (aad ++ ciphertext ++ tag ++ foot).length =
      (aad ++ ciphertext ++ tag).length + footerBytesV2 := by
    rw [List.length_append, hfootLength]
  have hbody : (aad ++ ciphertext ++ tag).length = (aad ++ ciphertext).length + tagBytesV2 := by
    rw [List.length_append, htag]
  have hmagic : footerMagicV2.isPrefixOf foot = true := by
    rw [List.isPrefixOf_iff_prefix]
    exact List.prefix_append _ _
  have hdeclared : unpackBE (foot.drop footerMagicV2.length) = ciphertext.length := by
    rw [hfoot, List.drop_left]
    exact unpackBE_packBE 8 _ (by omega)
  have hactual : (aad ++ ciphertext).length - aad.length = ciphertext.length := by
    rw [List.length_append, Nat.add_sub_cancel_left]
  have hlong : ¬(aad ++ ciphertext ++ tag ++ foot).length < aad.length + tagBytesV2 +
      footerBytesV2 := by
    rw [hlength, hbody, List.length_append]
    omega
  rw [splitEnvelope, hrevision]
  simp only [bind, Except.bind, if_true, if_neg hlong]
  have hstart : (aad ++ ciphertext ++ tag ++ foot).length - footerBytesV2 =
      (aad ++ ciphertext ++ tag).length := by
    rw [hlength, Nat.add_sub_cancel]
  have htagStart : (aad ++ ciphertext ++ tag).length - tagBytesV2 = (aad ++ ciphertext).length := by
    rw [hbody, Nat.add_sub_cancel]
  have htake : (aad ++ ciphertext ++ tag ++ foot).take (aad ++ ciphertext).length =
      aad ++ ciphertext := by
    rw [List.append_assoc, List.take_left]
  rw [hstart, List.drop_left, htagStart, hdeclared, hactual, htake, List.drop_left, List.take_left,
    List.drop_left, if_neg (by rw [hmagic]; exact Bool.noConfusion), if_neg (not_not.mpr rfl)]
  rfl

/-- What AES-GCM accepts under the nonce and the associated data of a written envelope: its
ciphertext and tag under its key, and no other ciphertext or tag under any key. -/
structure Env.Ideal (env : Env) (w : V2EncryptingWriter) : Prop where
  accepts : env.gcmAccepts w.key w.nonce w.aad w.ciphertext
    (env.gcmTag w.key w.nonce w.aad w.ciphertext) = true
  only : ∀ key ciphertext tag, env.gcmAccepts key w.nonce w.aad ciphertext tag = true →
    ciphertext = w.ciphertext ∧ tag = env.gcmTag w.key w.nonce w.aad w.ciphertext

/-- What a closed writer has written of its chunks. -/
theorem writeAll_spec (hgcm : env.LawfulGcm) {settings settings' : Settings} {random : Randomness}
    {passphrase : Option String} {chunks : List Bytes} {w : V2EncryptingWriter}
    (h : V2EncryptingWriter.writeAll env settings random passphrase chunks = .ok (w, settings')) :
    w.ciphertext = env.ctr w.key w.nonce 0 chunks.flatten ∧ w.ciphertext.length < 2 ^ 64 ∧
      w.handle = w.aad ++ w.ciphertext ++ env.gcmTag w.key w.nonce w.aad w.ciphertext ++
        (footerMagicV2 ++ packBE 8 w.ciphertext.length) ∧
      encodeV2Header env w.header = .ok w.aad ∧ env.aes w.key = .ok () ∧
      (env.Reads random w.header →
        resolveV2Key env settings' w.header passphrase = .ok w.key ∧
          decodeNonce env w.header = .ok w.nonce ∧ envelopeRevision env w.header = .ok 2) := by
  rw [V2EncryptingWriter.writeAll] at h
  obtain ⟨⟨start, found⟩, hnew, h⟩ := Except.bind_eq_ok_iff.mp h
  obtain ⟨written, hwritten, h⟩ := Except.bind_eq_ok_iff.mp h
  obtain ⟨closed, hclose, h⟩ := Except.bind_eq_ok_iff.mp h
  obtain ⟨rfl, rfl⟩ := Prod.mk.inj (Except.ok.inj h)
  obtain ⟨⟨hopen, hhandle, hciphertext, hbytes⟩, haad, haes, hreads⟩ := new_spec hnew
  have hnil : env.ctr start.key start.nonce 0 [] = [] :=
    List.length_eq_zero_iff.mp (hgcm.ctr_length _ _ _ [])
  have hstart : V2EncryptingWriter.Written env start start [] :=
    ⟨rfl, rfl, rfl, rfl, rfl, by rw [hhandle, hciphertext, List.append_nil],
      by rw [hciphertext, hnil], hbytes⟩
  obtain ⟨written', hfold, hdata⟩ := foldlM_write hgcm hopen chunks start [] hstart
  rw [hfold] at hwritten
  cases hwritten
  rw [List.nil_append] at hdata
  rw [V2EncryptingWriter.close,
    if_neg (by rw [hdata.closed, hopen]; exact Bool.false_ne_true)] at hclose
  split at hclose
  · cases hclose
  next hsize =>
  cases hclose
  have hlength : written.ciphertext.length = written.bytesIn := by
    rw [hdata.ciphertext, hgcm.ctr_length, hdata.bytesIn]
  refine ⟨?_, ?_, ?_, ?_, ?_, fun h => ?_⟩
  · show written.ciphertext = env.ctr written.key written.nonce 0 chunks.flatten
    rw [hdata.key, hdata.nonce, hdata.ciphertext]
  · show written.ciphertext.length < 2 ^ 64
    omega
  · show written.handle ++ env.gcmTag written.key written.nonce written.aad written.ciphertext ++
        footerMagicV2 ++ packBE 8 written.bytesIn = written.aad ++ written.ciphertext ++
        env.gcmTag written.key written.nonce written.aad written.ciphertext ++
        (footerMagicV2 ++ packBE 8 written.ciphertext.length)
    rw [hdata.handle, ← hdata.aad, hlength,
      ← List.append_assoc (written.aad ++ written.ciphertext ++ _)]
  · show encodeV2Header env written.header = .ok written.aad
    rw [hdata.header, hdata.aad, haad]
  · show env.aes written.key = .ok ()
    rw [hdata.key, haes]
  · have hmine : env.Reads random start.header := by
      rw [← hdata.header]
      exact h
    show resolveV2Key env found written.header passphrase = .ok written.key ∧
      decodeNonce env written.header = .ok written.nonce ∧ _
    rw [hdata.header, hdata.key, hdata.nonce]
    exact hreads hmine

/-- A decryption that succeeds has been accepted by AES-GCM, with a ciphertext that is as long as
the envelope leaves room for. -/
theorem decryptBackup_ok {settings : Settings} {passphrase : Option String}
    {blob aad nonce plaintext : Bytes} {header : Header}
    (hmagic : headerMagicV2.isPrefixOf blob = true)
    (hread : readV2HeaderBytes env blob = .ok (aad, header))
    (hrevision : envelopeRevision env header = .ok 2)
    (hnonce : decodeNonce env header = .ok nonce)
    (h : decryptBackup env settings passphrase blob = .ok plaintext) :
    ∃ key ciphertext tag, env.gcmAccepts key nonce aad ciphertext tag = true ∧
      blob.length = aad.length + ciphertext.length + tagBytesV2 + footerBytesV2 := by
  rw [decryptBackup, if_pos hmagic] at h
  obtain ⟨⟨aad', header'⟩, hread', h⟩ := Except.bind_eq_ok_iff.mp h
  rw [hread] at hread'
  cases hread'
  obtain ⟨⟨ciphertext, tag⟩, hsplit, h⟩ := Except.bind_eq_ok_iff.mp h
  obtain ⟨key, -, h⟩ := Except.bind_eq_ok_iff.mp h
  obtain ⟨nonce', hnonce', h⟩ := Except.bind_eq_ok_iff.mp h
  rw [hnonce] at hnonce'
  cases hnonce'
  obtain ⟨-, -, h⟩ := Except.bind_eq_ok_iff.mp h
  have haccepts : env.gcmAccepts key nonce aad ciphertext tag = true := by
    by_contra hnot
    rw [if_neg hnot] at h
    cases h
  refine ⟨key, ciphertext, tag, haccepts, ?_⟩
  rw [splitEnvelope, hrevision] at hsplit
  simp only [bind, Except.bind, if_true] at hsplit
  split at hsplit
  · cases hsplit
  next hlong =>
  split at hsplit
  · cases hsplit
  split at hsplit
  · cases hsplit
  · cases hsplit
    have htag : tagBytesV2 = 16 := rfl
    have hfooter : footerBytesV2 = 16 := rfl
    rw [List.length_drop, List.length_take]
    omega

/-- An envelope that ends within its header is not read. -/
theorem readV2HeaderBytes_short {header : Header} {aad blob : Bytes}
    (hencode : encodeV2Header env header = .ok aad) (hne : env.jsonDumps header ≠ [])
    (hstarts : blob <+: aad) (hshort : blob.length < aad.length) :
    ∃ e, readV2HeaderBytes env blob = .error e := by
  rw [encodeV2Header] at hencode
  split at hencode
  · cases hencode
  next hsize =>
  rw [← Except.ok.inj hencode] at hstarts hshort
  set json := env.jsonDumps header with hdef
  have hpos : 0 < json.length := List.length_pos_iff.mpr hne
  rw [readV2HeaderBytes]
  by_cases hfront : blob.length < headerMagicV2.length + 4
  · rw [if_pos (.inl hfront)]
    exact ⟨_, rfl⟩
  have hfrontLength : (headerMagicV2 ++ packBE 4 json.length).length =
      headerMagicV2.length + 4 := by
    rw [List.length_append, packBE_length]
  have htake : blob.take (headerMagicV2.length + 4) = headerMagicV2 ++ packBE 4 json.length := by
    have h := List.prefix_iff_eq_take.mp hstarts
    rw [h, List.take_take, min_eq_left (not_lt.mp hfront), ← hfrontLength, List.take_left]
  have hnumber : unpackBE ((blob.take (headerMagicV2.length + 4)).drop headerMagicV2.length) =
      json.length := by
    rw [htake, List.drop_left]
    exact unpackBE_packBE 4 _ (by omega)
  have hcut : blob.length < headerMagicV2.length + 4 + json.length := by
    rwa [List.length_append, hfrontLength] at hshort
  dsimp only
  split
  · exact ⟨_, rfl⟩
  rw [hnumber, if_neg (by omega), if_pos hcut]
  exact ⟨_, rfl⟩

/-- A text that stops before the magic of the second version does, or that has it. -/
theorem decryptBackup_of_no_magic {settings : Settings} {passphrase : Option String} {blob : Bytes}
    (hstarts : ∃ rest, blob <+: headerMagicV2 ++ rest)
    (hmagic : ¬headerMagicV2.isPrefixOf blob = true) (destination : Option Bytes) :
    (∃ e, decryptBackup env settings passphrase blob = .error e) ∧
      ∃ e, (decryptBackupFileV2 env settings passphrase blob destination).1 = .error e := by
  obtain ⟨rest, hrest⟩ := hstarts
  constructor
  · have hold : headerMagic.isPrefixOf blob = false := by
      rw [Bool.eq_false_iff, Ne, List.isPrefixOf_iff_prefix]
      intro h
      have h16 := List.prefix_iff_eq_take.mp (h.trans hrest)
      rw [List.take_append_of_le_length (by decide)] at h16
      revert h16
      decide
    rw [decryptBackup, if_neg hmagic, decryptBackupV1, if_pos hold]
    exact ⟨_, rfl⟩
  · have hfalse : headerMagicV2.isPrefixOf blob = false := Bool.eq_false_iff.mpr hmagic
    have hread : ∃ e, readV2HeaderBytes env blob = .error e := by
      rw [readV2HeaderBytes, if_pos (.inr hfalse)]
      exact ⟨_, rfl⟩
    obtain ⟨e, hread⟩ := hread
    rw [decryptBackupFileV2, readV2Header_eq, hread]
    exact ⟨e, rfl⟩

/-- **The second version of the backup envelope.**  What a writer has written and closed is
decrypted by both decoders to the chunks that it was given; every file that stops earlier or goes on
is rejected by both; and the two agree on every text with the magic. -/
theorem backup_envelope (env : Env) (hgcm : env.LawfulGcm) (settings settings' : Settings)
    (random : Randomness) (passphrase : Option String) (chunks : List Bytes)
    (w : V2EncryptingWriter)
    (hwritten : V2EncryptingWriter.writeAll env settings random passphrase chunks =
      .ok (w, settings'))
    (hreads : env.Reads random w.header) (hideal : env.Ideal w) :
    (decryptBackup env settings' passphrase w.handle = .ok chunks.flatten ∧
      ∀ destination, ∃ header, decryptBackupFileV2 env settings' passphrase w.handle destination =
        (.ok header, some chunks.flatten)) ∧
    (∀ blob, blob ≠ w.handle → blob <+: w.handle ∨ w.handle <+: blob →
      ∀ settings passphrase destination,
        (∃ e, decryptBackup env settings passphrase blob = .error e) ∧
          ∃ e, (decryptBackupFileV2 env settings passphrase blob destination).1 = .error e) ∧
    ∀ blob, headerMagicV2.isPrefixOf blob = true → ∀ settings passphrase destination,
      Agree env settings passphrase blob destination := by
  obtain ⟨hciphertext, hsize, hhandle, hencode, haes, hheader⟩ := writeAll_spec hgcm hwritten
  obtain ⟨hkey, hnonce, hrevision⟩ := hheader hreads
  set tag := env.gcmTag w.key w.nonce w.aad w.ciphertext with htag
  have htagLength : tag.length = tagBytesV2 := hgcm.gcmTag_length _ _ _ _
  have hread : ∀ rest, readV2HeaderBytes env (w.aad ++ rest) = .ok (w.aad, w.header) :=
    readV2HeaderBytes_append hencode hreads.json hreads.json_ne_nil
  -- the header begins with the magic
  obtain ⟨front, hfront⟩ : ∃ front, w.aad = headerMagicV2 ++ front := by
    rw [encodeV2Header] at hencode
    split at hencode
    · cases hencode
    · exact ⟨_, by rw [← Except.ok.inj hencode, List.append_assoc]⟩
  have hmagicOf : ∀ rest, headerMagicV2.isPrefixOf (w.aad ++ rest) = true := by
    intro rest
    rw [List.isPrefixOf_iff_prefix, hfront, List.append_assoc]
    exact List.prefix_append _ _
  have hagree := fun (blob : Bytes) (h : headerMagicV2.isPrefixOf blob = true) =>
    decoders_agree hgcm h
  set rest := w.ciphertext ++ tag ++ (footerMagicV2 ++ packBE 8 w.ciphertext.length) with hrest
  have hhandle' : w.handle = w.aad ++ rest := by
    rw [hhandle, hrest, List.append_assoc w.aad, List.append_assoc w.aad]
  have hplain : decryptBackup env settings' passphrase w.handle = .ok chunks.flatten := by
    have hsplit := splitEnvelope_written w.aad hrevision htagLength hsize
    rw [← hhandle] at hsplit
    rw [decryptBackup, if_pos (hhandle' ▸ hmagicOf rest)]
    refine Except.bind_eq_ok_iff.mpr ⟨(w.aad, w.header), hhandle' ▸ hread rest, ?_⟩
    refine Except.bind_eq_ok_iff.mpr ⟨(w.ciphertext, tag), hsplit, ?_⟩
    refine Except.bind_eq_ok_iff.mpr ⟨w.key, hkey, ?_⟩
    refine Except.bind_eq_ok_iff.mpr ⟨w.nonce, hnonce, ?_⟩
    refine Except.bind_eq_ok_iff.mpr ⟨(), haes, ?_⟩
    rw [if_pos hideal.accepts, hciphertext, hgcm.ctr_ctr]
    rfl
  refine ⟨⟨hplain, fun destination => ?_⟩, fun blob hne hcut settings passphrase destination => ?_,
    fun blob hmagic settings passphrase destination =>
      hagree blob hmagic settings passphrase destination⟩
  · rcases hagree w.handle (hhandle' ▸ hmagicOf rest) settings' passphrase destination with
      ⟨plaintext, header, hok, hfile⟩ | ⟨e, e', he, -⟩
    · rw [hplain] at hok
      exact ⟨header, by rw [hfile, Except.ok.inj hok]⟩
    · rw [hplain] at he
      cases he
  · by_cases hmagic : headerMagicV2.isPrefixOf blob = true
    swap
    · refine decryptBackup_of_no_magic ?_ hmagic destination
      rcases hcut with hcut | hcut
      · exact ⟨front ++ rest, by rwa [hhandle', hfront, List.append_assoc] at hcut⟩
      · refine absurd ?_ hmagic
        obtain ⟨more, rfl⟩ := hcut
        rw [hhandle', List.append_assoc]
        exact hmagicOf _
    have hdecrypt : ∃ e, decryptBackup env settings passphrase blob = .error e := by
      rcases hresult : decryptBackup env settings passphrase blob with e | plaintext
      · exact ⟨e, rfl⟩
      exfalso
      by_cases hshort : blob.length < w.aad.length
      · have hstarts : blob <+: w.aad := by
          rcases hcut with hcut | hcut
          · exact List.prefix_of_prefix_length_le hcut (hhandle' ▸ List.prefix_append _ _) hshort.le
          · have hle := hcut.length_le
            rw [hhandle', List.length_append] at hle
            omega
        obtain ⟨e, he⟩ := readV2HeaderBytes_short hencode hreads.json_ne_nil hstarts hshort
        rw [decryptBackup, if_pos hmagic, he] at hresult
        cases hresult
      · obtain ⟨more, rfl⟩ : ∃ more, blob = w.aad ++ more := by
          have haad : w.aad <+: blob := by
            rcases hcut with hcut | hcut
            · exact List.prefix_of_prefix_length_le (hhandle' ▸ List.prefix_append _ _) hcut
                (not_lt.mp hshort)
            · exact (hhandle' ▸ List.prefix_append w.aad rest : w.aad <+: w.handle).trans hcut
          obtain ⟨more, hmore⟩ := haad
          exact ⟨more, hmore.symm⟩
        obtain ⟨key, ciphertext, tag', haccepts, hlength⟩ :=
          decryptBackup_ok hmagic (hread more) hrevision hnonce hresult
        obtain ⟨hsame, -⟩ := hideal.only key ciphertext tag' haccepts
        have hwhole : (w.aad ++ more).length = w.handle.length := by
          have hfooter : footerBytesV2 = 8 + 8 := rfl
          have hfooterMagic : footerMagicV2.length = 8 := by decide
          rw [hlength, hsame, hhandle]
          simp only [List.length_append, packBE_length, htagLength, hfooterMagic, hfooter]
        refine hne ?_
        rcases hcut with hcut | hcut
        · exact hcut.eq_of_length hwhole
        · exact (hcut.eq_of_length hwhole.symm).symm
    refine ⟨hdecrypt, ?_⟩
    obtain ⟨e, he⟩ := hdecrypt
    rcases hagree blob hmagic settings passphrase destination with
      ⟨plaintext, header, hok, -⟩ | ⟨-, e', -, he', -⟩
    · rw [he] at hok
      cases hok
    · exact ⟨e', he'⟩

/-! ### An envelope -/

/-- A nonce of zeros, and a keyring with a key of zeros. -/
def zeroRandom : Randomness where
  nonce := List.replicate 12 0
  salt := List.replicate 16 0
  newKeyId := "bk-1"
  newKey := []
  nonce_length := by decide
  salt_length := by decide

def zeroSettings : Settings where
  keyring := .file ⟨"bk-0", fun keyId =>
    if keyId = "bk-0" then some "AAAAAAAAAAAAAAAAAAAAAAAAAAAAAAAAAAAAAAAAAAA=" else none⟩
  sessionSecret := "secret"

/-- The verifier of the key of zeros with the nonce of zeros. -/
def zeroVerifier : Bytes :=
  [250, 172, 76, 147, 122, 134, 250, 231, 19, 239, 84, 4, 88, 252, 211, 219]

def zeroHeader : Header :=
  [("algorithm", .str "AES-256-GCM"), ("envelope_revision", .int 2), ("format_version", .int 2),
    ("key_id", .str "bk-0"), ("key_source", .str "auto"),
    ("key_verifier", .str "+qxMk3qG+ucT71QEWPzT2w=="), ("nonce_b64", .str "AAAAAAAAAAAAAAAA"),
    ("pbkdf2_iterations", .int 0), ("salt_b64", .str "")]

/-- The key stream of AES-256-GCM for that key and nonce. -/
def zeroStream (position : ℕ) : UInt8 :=
  [206, 167, 64, 61, 77, 96, 107, 110, 7, 78, 197, 211, 186, 243, 157, 24].getD position 0

/-- The tag of the text `abc` under them. -/
def zeroTag : Bytes := [43, 128, 41, 84, 77, 169, 234, 104, 113, 198, 160, 27, 125, 66, 104, 62]

/-- Library functions with their values for the envelope of `abc` under that key and nonce. -/
def zeroEnv : Env where
  jsonDumps := fun _ => 123 :: ascii
    ("\"algorithm\":\"AES-256-GCM\",\"envelope_revision\":2,\"format_version\":2," ++
      "\"key_id\":\"bk-0\",\"key_source\":\"auto\"," ++
      "\"key_verifier\":\"+qxMk3qG+ucT71QEWPzT2w==\"," ++
      "\"nonce_b64\":\"AAAAAAAAAAAAAAAA\",\"pbkdf2_iterations\":0,\"salt_b64\":\"\"") ++ [125]
  jsonLoads := fun _ => .ok (.object zeroHeader)
  intOf := fun value => match value with
    | .int n => .ok n
    | _ => .error ⟨.typeError, "int"⟩
  strOf := fun value => match value with
    | .str s => s
    | _ => ""
  b64encode := fun bytes =>
    if bytes = zeroVerifier then "+qxMk3qG+ucT71QEWPzT2w=="
    else if bytes.length = 12 then "AAAAAAAAAAAAAAAA"
    else "AAAAAAAAAAAAAAAAAAAAAA=="
  b64decode := fun text =>
    if text = "AAAAAAAAAAAAAAAA" then .ok (List.replicate 12 0)
    else if text = "AAAAAAAAAAAAAAAAAAAAAA==" then .ok (List.replicate 16 0)
    else .ok (List.replicate 32 0)
  hmacSha256 := fun _ _ => zeroVerifier
  pbkdf2 := fun _ _ _ => .error ⟨.valueError, "pbkdf2"⟩
  aes := fun key => if key.length = 32 then .ok () else .error ⟨.valueError, "key size"⟩
  ctr := fun _ _ position data => data.mapIdx fun i b => b ^^^ zeroStream (position + i)
  gcmTag := fun _ _ _ _ => zeroTag
  gcmAccepts := fun _ _ _ ciphertext tag => decide (ciphertext = [175, 197, 35] ∧ tag = zeroTag)
  deriveBackupKeyAuto := fun _ => []
  deriveBackupKeyPassphrase := fun _ _ _ => []
  fernetDecrypt := fun _ _ => none

theorem zeroEnv_lawfulGcm : zeroEnv.LawfulGcm where
  ctr_append := by
    intro key nonce position a b
    simp only [zeroEnv, List.mapIdx_append]
    congr 2
    funext i byte
    rw [Nat.add_assoc, Nat.add_comm i]
  ctr_length := by
    intro key nonce position a
    simp only [zeroEnv, List.length_mapIdx]
  ctr_ctr := by
    intro key nonce position a
    refine List.ext_getElem? fun i => ?_
    simp only [zeroEnv, List.getElem?_mapIdx, Option.map_map]
    rcases a[i]? with _ | b
    · rfl
    · show some ((b ^^^ zeroStream (position + i)) ^^^ zeroStream (position + i)) = some b
      rw [UInt8.xor_assoc, UInt8.xor_self, UInt8.xor_zero]
  gcmTag_length := fun _ _ _ _ => rfl

/-- The envelope of the chunks `a` and `bc`. -/
def zeroWriter : V2EncryptingWriter where
  handle := headerMagicV2 ++ packBE 4 (zeroEnv.jsonDumps zeroHeader).length ++
    zeroEnv.jsonDumps zeroHeader ++ [175, 197, 35] ++ zeroTag ++ footerMagicV2 ++ packBE 8 3
  key := List.replicate 32 0
  nonce := List.replicate 12 0
  aad := headerMagicV2 ++ packBE 4 (zeroEnv.jsonDumps zeroHeader).length ++
    zeroEnv.jsonDumps zeroHeader
  ciphertext := [175, 197, 35]
  header := zeroHeader
  closed := true
  bytesIn := 3

set_option maxRecDepth 8000 in
theorem zero_written : V2EncryptingWriter.writeAll zeroEnv zeroSettings zeroRandom none
    [[97], [98, 99]] = .ok (zeroWriter, zeroSettings) := by
  rfl

theorem zero_reads : zeroEnv.Reads zeroRandom zeroWriter.header where
  json := rfl
  json_ne_nil := List.cons_ne_nil _ _
  nonce := rfl
  salt := rfl
  int := fun _ => rfl
  str := fun _ => rfl
  b64_ascii := by
    intro bytes
    simp only [zeroEnv]
    split
    · simp
    · split
      · simp
      · simp

theorem zero_ideal : zeroEnv.Ideal zeroWriter where
  accepts := rfl
  only := by
    intro key ciphertext tag h
    exact of_decide_eq_true h

/-- Sealing the two chunks and opening the envelope again gives `abc`. -/
theorem backup_envelope_abc :
    decryptBackup zeroEnv zeroSettings none zeroWriter.handle = .ok [97, 98, 99] :=
  (backup_envelope zeroEnv zeroEnv_lawfulGcm zeroSettings zeroSettings zeroRandom none
    [[97], [98, 99]] zeroWriter zero_written zero_reads zero_ideal).1.1

end Backup
