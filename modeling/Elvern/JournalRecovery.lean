/-
What is left of an append that was cut off (`EncryptedJournal.__init__`,
`verify_journal(recover=True)`).

The file has whole records, and so many bytes of one more. A cut in the record leaves an incomplete
tail, wherever it falls, and the tail is taken away. A cut in the magic of a new file leaves no
magic.

* `readRecord_cut` — what is read of a record that was cut;
* `openJournal_cut` — the journal that is opened after a cut in a record;
* `openJournal_magic_cut` — none is opened after a cut in the magic;
* `recovers_after_cut` — when a journal recovers.
-/
import Elvern.EncryptedJournal

namespace Journal

section Cut

variable {env : Env} {identity : Identity} {chunks : List Chunk} {r : Record} {k : ℕ}

theorem take_append_le {l m : Bytes} (h : l.length ≤ k) :
    (l ++ m).take k = l ++ m.take (k - l.length) := by
  rw [List.take_append, List.take_of_length_le h]

theorem take_append_lt {l m : Bytes} (h : k < l.length) : ((l ++ m).take k).length < l.length := by
  rw [List.length_take]
  omega

/-- **A record that was cut**: nothing is left, or an incomplete tail, unless its header is too
long. -/
theorem readRecord_cut (h : Writable env r) (hk : k < (r.bytes env).length) :
    (k < journalLengthBytes ∨ (env.dumpStored r.stored).length ≤ maxHeaderBytes →
      readRecord env ((r.bytes env).take k) = if k = 0 then .ok none else .error .incompleteTail) ∧
    (¬ (k < journalLengthBytes ∨ (env.dumpStored r.stored).length ≤ maxHeaderBytes) →
      ∃ reason, readRecord env ((r.bytes env).take k) = .error (.invalid reason)) := by
  have header_pos := h.header_pos
  have hpos := h.pos
  have hsize := h.size
  have hunpack := Backup.unpackBE_packBE journalLengthBytes _ h.header_lt
  have hlength : r.ciphertext.length < 256 ^ journalLengthBytes := by
    refine lt_of_le_of_lt hsize ?_
    decide
  have hbytes := @Record.bytes_eq env [] r
  rw [List.append_nil, List.append_nil] at hbytes
  have hfirst := Backup.packBE_length journalLengthBytes (env.dumpStored r.stored).length
  have hsecond := Backup.packBE_length journalLengthBytes r.ciphertext.length
  rw [hbytes] at hk ⊢
  by_cases hbegin : k < journalLengthBytes
  · -- the cut is in the length of the header
    refine ⟨fun _ => ?_, fun hno => absurd (Or.inl hbegin) hno⟩
    by_cases hzero : k = 0
    · subst hzero
      rfl
    · have hshort := @take_append_lt k (Backup.packBE journalLengthBytes
        (env.dumpStored r.stored).length) (env.dumpStored r.stored ++
          (Backup.packBE journalLengthBytes r.ciphertext.length ++ r.ciphertext))
            (hfirst.symm ▸ hbegin)
      rw [hfirst] at hshort
      rw [readRecord, readExact_short hshort, if_neg hzero]
      refine List.ne_nil_of_length_pos ?_
      rw [List.length_take]
      omega
  rw [take_append_le (by omega), hfirst, readRecord, readExact_append hfirst (by decide)]
  simp only [hunpack]
  constructor
  · rintro (hno | hsmall)
    · exact absurd hno hbegin
    have hzero : k ≠ 0 := by
      rintro rfl
      exact hbegin (by decide)
    rw [if_neg (by omega), if_neg hzero]
    by_cases hheader : k - journalLengthBytes < (env.dumpStored r.stored).length
    · -- in the header
      rw [readPart_short (take_append_lt hheader)]
      rfl
    rw [take_append_le (by omega), readPart_append rfl header_pos]
    simp only [bind, Except.bind, h.header]
    by_cases hmiddle : k - journalLengthBytes - (env.dumpStored r.stored).length <
      journalLengthBytes
    · -- in the length of the ciphertext
      have hshort := @take_append_lt (k - journalLengthBytes - (env.dumpStored r.stored).length)
        (Backup.packBE journalLengthBytes r.ciphertext.length) r.ciphertext (hsecond.symm ▸ hmiddle)
      rw [hsecond] at hshort
      rw [readPart_short hshort]
    -- in the ciphertext
    rw [take_append_le (by omega), readPart_append hsecond (by decide)]
    simp only [Backup.unpackBE_packBE _ _ hlength]
    rw [if_neg (by omega), readPart_short]
    rw [List.length_take]
    simp only [List.length_append, hfirst, hsecond] at hk ⊢
    omega
  · intro hno
    rw [if_pos (by omega)]
    exact ⟨_, rfl⟩

/-- The whole part of a file. -/
def wholeFile (env : Env) (identity : Identity) (chunks : List Chunk) : Bytes :=
  journalMagic ++ recordBytes env (records env identity 0 zeroHash chunks)

/-- **After a cut in a record** the journal is that of the whole records, and the tail is taken
away. -/
theorem openJournal_cut (hlaw : Lawful env chunks) (hfits : Fits env identity 0 zeroHash chunks)
    (h : Writable env r) (hk : k < (r.bytes env).length) :
    ((∀ r ∈ records env identity 0 zeroHash chunks, Good env r) →
      k < journalLengthBytes ∨ (env.dumpStored r.stored).length ≤ maxHeaderBytes →
      openJournal env identity (some (wholeFile env identity chunks ++ (r.bytes env).take k)) =
        some (⟨identity, chunks.length,
          hashAfter zeroHash (records env identity 0 zeroHash chunks)⟩,
          some (wholeFile env identity chunks), (r.bytes env).take k)) ∧
    (¬ ((∀ r ∈ records env identity 0 zeroHash chunks, Good env r) ∧
        (k < journalLengthBytes ∨ (env.dumpStored r.stored).length ≤ maxHeaderBytes)) →
      openJournal env identity (some (wholeFile env identity chunks ++ (r.bytes env).take k)) =
          none) := by
  have hexpected : ∀ other ∈ some identity, other = identity := fun _ h => (Option.some.inj h).symm
  obtain ⟨hgood, hbad⟩ := @verifyJournal_records env identity (some identity)
    chunks hlaw hexpected hfits ((r.bytes env).take k)
  obtain ⟨hcut, hlong⟩ := readRecord_cut h hk
  obtain ⟨hcount, -, hhash, -⟩ :=
    @afterAll_spec identity (records env identity 0 zeroHash chunks) Scan.start
  rw [records_length] at hcount
  simp only [wholeFile]
  constructor
  · intro hall hshort
    obtain ⟨fuel, hverify⟩ := hgood hall
    rw [openJournal, hverify]
    simp only [readRecords, hcut hshort]
    by_cases hzero : k = 0
    · subst hzero
      simp only [if_true, List.take_zero, List.append_nil, hcount, hhash]
      simp only [Scan.start, Nat.zero_add]
    · simp only [if_neg hzero, hcount, hhash, List.length_append, Nat.add_sub_cancel,
        Option.map_some, Option.getD_some]
      have hlength : journalMagic.length +
          (recordBytes env (records env identity 0 zeroHash chunks)).length =
          (journalMagic ++ recordBytes env (records env identity 0 zeroHash chunks)).length :=
        List.length_append.symm
      rw [hlength, List.take_left, List.drop_left]
      simp only [Scan.start, Nat.zero_add]
  · intro hno
    by_cases hall : ∀ r ∈ records env identity 0 zeroHash chunks, Good env r
    · obtain ⟨fuel, hverify⟩ := hgood hall
      obtain ⟨reason, hreason⟩ := hlong fun hshort => hno ⟨hall, hshort⟩
      rw [openJournal, hverify]
      simp only [readRecords, hreason]
    · push Not at hall
      obtain ⟨reason, hreason⟩ := hbad hall
      rw [openJournal, hreason]

/-- **After a cut in the magic** no journal is opened. -/
theorem openJournal_magic_cut {file : Bytes} (h : file.length < journalMagic.length) :
    openJournal env identity (some file) = none := by
  have hne : ∀ magic : Bytes, magic.length = journalMagic.length →
      file.take journalMagic.length ≠ magic := by
    rintro magic hmagic heq
    have := congrArg List.length heq
    rw [List.length_take] at this
    omega
  have hlegacy : legacyJournalMagic.length = journalMagic.length := by decide
  have herror : (verifyJournal env (some identity) (some file)).error =
      some (.invalid "Invalid diagnostics journal magic") := by
    rw [verifyJournal, if_pos ⟨hne journalMagic rfl, hne legacyJournalMagic hlegacy⟩]
  simp only [openJournal, herror]

end Cut

/-- The bytes on disk when the append of `next` was cut off. -/
def cutFile (env : Env) (identity : Identity) (chunks : List Chunk) (next : Chunk)
    (k : ℕ) : Bytes :=
  (wholeFile env identity (chunks ++ [next])).take k

/-- A journal opens on the file: it keeps the chunks and nothing else, its sequence and its hash are
those of the last, and an append to it can be verified. -/
def Recovered (env : Env) (identity : Identity) (chunks : List Chunk) (following : Chunk)
    (file : Bytes) : Prop :=
  ∃ kept tail, file = kept ++ tail ∧
    openJournal env identity (some file) = some (⟨identity, chunks.length,
      hashAfter zeroHash (records env identity 0 zeroHash chunks)⟩, some kept, tail) ∧
    kept = wholeFile env identity chunks ∧
    (verifyJournal env none (some kept)).valid ∧
    (verifyJournal env none (some kept)).scan.events = chunks.flatMap Chunk.events ∧
    ∃ result, EncryptedJournal.append env ⟨identity, chunks.length,
        hashAfter zeroHash (records env identity 0 zeroHash chunks)⟩ (some kept)
          following = some result ∧
      (verifyJournal env none result.2).valid

section Recovery

variable {env : Env} {identity : Identity} {chunks : List Chunk} {following : Chunk}

theorem wholeFile_concat : wholeFile env identity (chunks ++ [following]) =
    wholeFile env identity chunks ++
    (makeRecord env identity chunks.length
      (hashAfter zeroHash (records env identity 0 zeroHash chunks)) following).bytes env := by
  rw [wholeFile, wholeFile, records_concat, recordBytes, recordBytes, List.flatMap_append,
    List.flatMap_singleton, List.append_assoc]

/-- The append after a recovery. -/
theorem append_whole (hfits : Fits env identity 0 zeroHash (chunks ++ [following])) :
    ∃ journal, EncryptedJournal.append env ⟨identity, chunks.length,
        hashAfter zeroHash (records env identity 0 zeroHash chunks)⟩
      (some (wholeFile env identity chunks)) following =
        some (journal, some (wholeFile env identity (chunks ++ [following]))) := by
  have hne := hfits.events following (List.mem_append_right _ (List.mem_singleton_self _))
  have hsize := (hfits.records (makeRecord env identity chunks.length
    (hashAfter zeroHash (records env identity 0 zeroHash chunks)) following) (by
      rw [records_concat]
      exact List.mem_append_right _ (List.mem_singleton_self _))).size
  have hsome : wholeFile env identity chunks ≠ [] := List.append_ne_nil_of_left_ne_nil (by decide) _
  rw [@append_eq env following ⟨identity, chunks.length,
    hashAfter zeroHash (records env identity 0 zeroHash chunks)⟩ _ hne hsize, Option.getD_some,
    if_neg hsome, wholeFile_concat]
  exact ⟨_, rfl⟩

/-- What `Recovered` says of a journal that opens. -/
theorem recovered_iff (hlaw : Lawful env (chunks ++ [following]))
    (hfits : Fits env identity 0 zeroHash (chunks ++ [following])) {file tail : Bytes}
    (hopen : openJournal env identity (some file) = some (⟨identity, chunks.length,
      hashAfter zeroHash (records env identity 0 zeroHash chunks)⟩,
      some (wholeFile env identity chunks), tail))
    (hfile : file = wholeFile env identity chunks ++ tail) :
    Recovered env identity chunks following file ↔
      ∀ r ∈ records env identity 0 zeroHash (chunks ++ [following]), Good env r := by
  have hnone : ∀ other ∈ (none : Option Identity), other = identity := fun _ h => by cases h
  obtain ⟨hkept, hscan⟩ := @verifyJournal_whole env identity none chunks hlaw.left hnone hfits.left
  obtain ⟨hafter, -⟩ := @verifyJournal_whole env identity none _ hlaw hnone hfits
  obtain ⟨journal, happend⟩ := append_whole hfits
  constructor
  · rintro ⟨kept, tail', -, -, rfl, -, -, result, hresult, hvalid⟩
    rw [happend] at hresult
    cases hresult
    exact hafter.1 hvalid
  · intro hall
    have hgood : ∀ r ∈ records env identity 0 zeroHash chunks, Good env r := by
      intro r hr
      refine hall r ?_
      rw [records_concat]
      exact List.mem_append_left _ hr
    refine ⟨_, tail, hfile, hopen, rfl, hkept.2 hgood, ?_, _, happend, hafter.2 hall⟩
    obtain ⟨-, -, -, hlist⟩ :=
      @afterAll_spec identity (records env identity 0 zeroHash chunks) Scan.start
    rw [wholeFile, hscan hgood, hlist, List.flatMap_def, records_events, ← List.flatMap_def]
    rfl

end Recovery

/-- After an append that was cut off the journal recovers, if and only if the cut is not in the
magic of the file, the records can be read again, and the header that was cut was not too long. -/
theorem recovers_after_cut (env : Env) (identity : Identity) (chunks : List Chunk)
    (next following : Chunk) (k : ℕ) (hlaw : Lawful env (chunks ++ [following]))
    (hfits : Fits env identity 0 zeroHash (chunks ++ [following]))
    (hnext : Fits env identity 0 zeroHash (chunks ++ [next]))
    (hwritten : chunks ≠ [] → (wholeFile env identity chunks).length ≤ k)
    (hcut : k < (wholeFile env identity (chunks ++ [next])).length) :
    Recovered env identity chunks following (cutFile env identity chunks next k) ↔
      journalMagic.length ≤ k ∧
      (∀ r ∈ records env identity 0 zeroHash (chunks ++ [following]), Good env r) ∧
      (k < (wholeFile env identity chunks).length + journalLengthBytes ∨
        (env.dumpStored (makeRecord env identity chunks.length
          (hashAfter zeroHash (records env identity 0 zeroHash chunks)) next).stored).length ≤
            maxHeaderBytes) := by
  set r := makeRecord env identity chunks.length
    (hashAfter zeroHash (records env identity 0 zeroHash chunks)) next with hr
  have hwritable : Writable env r := hnext.records r (by
    rw [records_concat]
    exact List.mem_append_right _ (List.mem_singleton_self _))
  by_cases hmagic : (wholeFile env identity chunks).length ≤ k
  · -- the cut is in the record
    have hfile : cutFile env identity chunks next k = wholeFile env identity chunks ++
        (r.bytes env).take (k - (wholeFile env identity chunks).length) := by
      rw [cutFile, wholeFile_concat, take_append_le hmagic]
    have hlength : journalMagic.length ≤ (wholeFile env identity chunks).length := by
      rw [wholeFile, List.length_append]
      omega
    rw [wholeFile_concat, List.length_append, ← hr] at hcut
    obtain ⟨hopen, hraises⟩ := @openJournal_cut env identity chunks r
      (k - (wholeFile env identity chunks).length) hlaw.left hfits.left hwritable (by omega)
    have hshort : k - (wholeFile env identity chunks).length < journalLengthBytes ↔
        k < (wholeFile env identity chunks).length + journalLengthBytes := by omega
    rw [hshort] at hopen hraises
    rw [hfile]
    constructor
    · intro hrec
      -- where the records before the cut cannot be read, or its header is too long, nothing opens
      by_cases hcond : (∀ r ∈ records env identity 0 zeroHash chunks, Good env r) ∧
          (k < (wholeFile env identity chunks).length + journalLengthBytes ∨
            (env.dumpStored r.stored).length ≤ maxHeaderBytes)
      · exact ⟨by omega, (recovered_iff hlaw hfits (hopen hcond.1 hcond.2) rfl).1 hrec, hcond.2⟩
      · obtain ⟨kept, tail, -, hsome, -⟩ := hrec
        rw [hraises hcond] at hsome
        cases hsome
    · rintro ⟨-, hall, hheader⟩
      have hgood : ∀ r ∈ records env identity 0 zeroHash chunks, Good env r := by
        intro r hr
        refine hall r ?_
        rw [records_concat]
        exact List.mem_append_left _ hr
      exact (recovered_iff hlaw hfits (hopen hgood hheader) rfl).2 hall
  · -- the cut is in the magic
    have hnil : chunks = [] := by
      by_contra hne
      exact hmagic (hwritten hne)
    subst hnil
    have hlength : (wholeFile env identity []).length = journalMagic.length := rfl
    rw [hlength] at hmagic
    have hshort : (cutFile env identity [] next k).length < journalMagic.length := by
      rw [cutFile, List.length_take]
      omega
    constructor
    · rintro ⟨kept, tail, -, hsome, -⟩
      rw [openJournal_magic_cut hshort] at hsome
      cases hsome
    · rintro ⟨hno, -⟩
      exact absurd hno hmagic

section Examples

/-- The second append is cut off in its ciphertext, after a first one of two events. -/
theorem recovers_after_cut_plain :
    Recovered (plainStore twoChunks) plainIdentity [plainChunk [platformEvent 'c',
      platformEvent 'd']]
      (plainChunk [platformEvent 'e']) (cutFile (plainStore twoChunks) plainIdentity
        [plainChunk [platformEvent 'c', platformEvent 'd']]
            (plainChunk [platformEvent 'e']) 72) := by
  refine (recovers_after_cut (plainStore twoChunks) plainIdentity
    [plainChunk [platformEvent 'c', platformEvent 'd']] (plainChunk [platformEvent 'e'])
    (plainChunk [platformEvent 'e']) 72 twoChunks_lawful twoChunks_fits twoChunks_fits
    (fun _ => ?_) ?_).2 ⟨by decide, twoChunks_good, .inr ?_⟩
  · decide +kernel
  · decide +kernel
  · decide +kernel

/-- The first append to a new file, cut after three bytes of the magic: the journal does not
open. -/
theorem magic_cut_never_opens :
    Lawful (plainStore [[platformEvent 'c']]) [plainChunk [platformEvent 'c']] ∧
    Fits (plainStore [[platformEvent 'c']]) plainIdentity 0 zeroHash
      [plainChunk [platformEvent 'c']] ∧
    openJournal (plainStore [[platformEvent 'c']]) plainIdentity (some (cutFile
      (plainStore [[platformEvent 'c']]) plainIdentity []
        (plainChunk [platformEvent 'c']) 3)) = none ∧
    ¬ Recovered (plainStore [[platformEvent 'c']]) plainIdentity [] (plainChunk [platformEvent 'c'])
      (cutFile (plainStore [[platformEvent 'c']]) plainIdentity []
          (plainChunk [platformEvent 'c']) 3) := by
  have hnone : openJournal (plainStore [[platformEvent 'c']]) plainIdentity (some (cutFile
      (plainStore [[platformEvent 'c']]) plainIdentity [] (plainChunk [platformEvent 'c'])
          3)) = none := by
    refine openJournal_magic_cut ?_
    decide +kernel
  refine ⟨single_lawful, single_fits (by decide +kernel), hnone, ?_⟩
  rintro ⟨kept, tail, -, hsome, -⟩
  rw [hnone] at hsome
  cases hsome

end Examples

end Journal
