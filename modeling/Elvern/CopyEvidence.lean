/-
What a scan knows a local file by (`db_hidden_movie_keys.py`, as `media_scan.py` calls it).

* `MediaItem`, `Alias`, `Db` — the rows that a scan reads and writes;
* `localCopyEvidenceHashes` — the inode of a file and a sample of its content;
* `findLocalCopyIdentityCandidates` — the identities that the aliases give a file;
* `resolveHiddenCopyIdentity` — the identity of a row, made and stored where there is none.

The digests are taken to be free of collisions: a piece of evidence is what is digested.
-/
import Elvern.LibraryFolders

namespace MediaScan

/-- The texts of `file_path`: an absolute path, the staging path of a scan job, or another. -/
inductive FilePath
  | disk (path : Path)
  | staging (job row : ℕ)
  | other (text : String)
  deriving DecidableEq

/-- The folder columns of a row. -/
structure FolderColumns where
  seriesFolderKey : Option String
  seriesFolderName : Option String
  libraryCategory : Option String
  libraryCategoryPath : Option String
  libraryCategoryName : Option String
  libraryFolderRole : Option String
  libraryFolderPath : Option String
  libraryFolderName : Option String
  deriving DecidableEq

/-- What `ffprobe` says about a file; durations in hundredths of a second. -/
structure MediaMetadata where
  durationSeconds : Option ℤ
  width : Option ℤ
  height : Option ℤ
  videoCodec : Option String
  audioCodec : Option String
  container : Option String
  deriving DecidableEq

/-- A row of `media_items`. An identity is the number that its digits spell. -/
structure MediaItem where
  id : ℕ
  title : String
  originalFilename : String
  filePath : FilePath
  isLocal : Bool
  librarySourceId : Option ℕ
  hiddenCopyIdentity : Option ℕ
  fileSize : ℕ
  fileMtime : ℚ
  metadata : MediaMetadata
  year : Option ℤ
  folder : FolderColumns
  deriving DecidableEq

/-- The inode in two versions and the content sample, each in the scope of a source. -/
inductive Evidence
  | inodeV2 (source dev ino size : ℕ) (mtimeNs ctimeNs : ℤ)
  | inodeV1 (source dev ino : ℕ)
  | sample (source : ℕ) (content : ContentSample)
  deriving DecidableEq

/-- A row of `hidden_copy_identity_aliases` of a local source. -/
structure Alias where
  identity : ℕ
  source : ℕ
  locator : Path
  evidence : Evidence
  deriving DecidableEq

/-- A file that a scan looks at: what `stat` and the content sample give, and the columns of its
folder. -/
structure ScannedFile where
  path : Path
  stat : FileStat
  sample : Option ContentSample
  folder : FolderColumns
  deriving DecidableEq

structure Subtitle where
  language : Option String
  title : Option String
  codec : Option String
  dispositionDefault : ℤ
  deriving DecidableEq

/-- The tables; `nextId` is above every id that has been given out. -/
structure Db where
  items : List MediaItem
  aliases : List Alias
  subtitles : List (ℕ × Subtitle)
  nextId : ℕ
  nextJob : ℕ
  catalogRevision : ℕ
  deriving DecidableEq

/-- `int(row["library_source_id"] or 0)`. -/
def MediaItem.source (row : MediaItem) : ℕ := row.librarySourceId.getD 0

/-! ### Evidence -/

def Evidence.isSample : Evidence → Bool
  | .sample .. => true
  | _ => false

def Evidence.isInodeV2 : Evidence → Bool
  | .inodeV2 .. => true
  | _ => false

def Evidence.isInodeV1 : Evidence → Bool
  | .inodeV1 .. => true
  | _ => false

/-- `local_copy_evidence_hashes` of a file in the scope of a source. -/
def localCopyEvidenceHashes (source : ℕ) (file : ScannedFile) (includeContentSample : Bool) :
    List Evidence :=
  if file.stat.regular then
    let stat := file.stat
    (if 0 < stat.ino then
        [.inodeV2 source stat.dev stat.ino stat.size stat.mtimeNs stat.ctimeNs,
          .inodeV1 source stat.dev stat.ino]
      else []) ++
      if includeContentSample then (file.sample.map (.sample source)).toList else []
  else []

/-- How aliases are looked up: at the locator of the file only, with the content sample as
evidence, and not at all without one. -/
structure Lookup where
  requireLocator : Bool
  includeContentSample : Bool
  requireSample : Bool
  deriving DecidableEq

/-- The aliases that a look-up finds for a file. -/
def matchingAliases (aliases : List Alias) (source : ℕ) (file : ScannedFile) (lookup : Lookup) :
    List Alias :=
  (localCopyEvidenceHashes source file lookup.includeContentSample).flatMap fun evidence =>
    aliases.filter fun a => decide (a.source = source ∧ a.evidence = evidence ∧
      (lookup.requireLocator = true → a.locator = file.path))

/-- The aliases found are enough for the identity: the sample where there is one, else the inode
in both versions. -/
def sufficient (evidence : List Evidence) (found : List Alias) (identity : ℕ) : Bool :=
  let has (p : Evidence → Bool) := found.any fun a => decide (a.identity = identity) && p a.evidence
  if evidence.any Evidence.isSample then has Evidence.isSample
  else if evidence.any Evidence.isInodeV2 && !has Evidence.isInodeV2 then false
  else if evidence.any Evidence.isInodeV1 && !has Evidence.isInodeV1 then false
  else true

/-- `find_local_copy_identity_candidates`. -/
def findLocalCopyIdentityCandidates (aliases : List Alias) (source : ℕ) (file : ScannedFile)
    (lookup : Lookup) : List ℕ :=
  let evidence := localCopyEvidenceHashes source file lookup.includeContentSample
  let found := matchingAliases aliases source file lookup
  if lookup.requireSample && !evidence.any Evidence.isSample then []
  else ((found.map (·.identity)).eraseDups.filter (sufficient evidence found)).insertionSort (· ≤ ·)

/-- `record_local_copy_identity_aliases`. -/
def recordLocalCopyIdentityAliases (aliases : List Alias) (source : ℕ) (file : ScannedFile)
    (identity : ℕ) (includeContentSample : Bool) : List Alias :=
  (localCopyEvidenceHashes source file includeContentSample).foldl (fun aliases evidence =>
    let new : Alias := ⟨identity, source, file.path, evidence⟩
    if new ∈ aliases then aliases else aliases ++ [new]) aliases

/-! ### Identities -/

namespace Db

/-- `_active_identity_owner(…) is not None`. -/
def activeIdentityOwner (db : Db) (identity excludingMediaItemId : ℕ) : Bool :=
  db.items.any fun row =>
    decide (row.hiddenCopyIdentity = some identity ∧ row.id ≠ excludingMediaItemId)

/-- `_new_hidden_copy_identity`: 32 random bytes, which no identity in the tables has. -/
def newHiddenCopyIdentity (db : Db) : ℕ :=
  (db.items.filterMap (·.hiddenCopyIdentity) ++ db.aliases.map (·.identity)).foldr max 0 + 1

/-- `UPDATE media_items SET hidden_copy_identity = ? WHERE id = ?`. -/
def setIdentity (db : Db) (id identity : ℕ) : Db :=
  { db with items := db.items.map fun row =>
      if row.id = id then { row with hiddenCopyIdentity := some identity } else row }

/-- `resolve_hidden_copy_identity` of a local row. An identity from the aliases that is in use by
another row is not taken, so the unique index on the identities holds. -/
def resolveHiddenCopyIdentity (db : Db) (row : MediaItem) (file : ScannedFile)
    (includeContentSample : Bool) (disallowed : List ℕ) : Db :=
  match row.hiddenCopyIdentity with
  | some existing =>
    { db with aliases :=
        recordLocalCopyIdentityAliases db.aliases row.source file existing includeContentSample }
  | none =>
    let candidates := (findLocalCopyIdentityCandidates db.aliases row.source file
      ⟨true, includeContentSample, false⟩).filter fun identity =>
        !db.activeIdentityOwner identity row.id && decide (identity ∉ disallowed)
    let identity :=
      match candidates with
      | [identity] => identity
      | _ => db.newHiddenCopyIdentity
    let updated := db.setIdentity row.id identity
    { updated with aliases :=
        recordLocalCopyIdentityAliases db.aliases row.source file identity includeContentSample }

end Db

/-! ### Aliases found and recorded -/

variable {aliases aliases' : List Alias} {source identity : ℕ} {file : ScannedFile}
  {lookup : Lookup} {sampled : Bool}

theorem mem_recordAliases {a : Alias} :
    a ∈ recordLocalCopyIdentityAliases aliases source file identity sampled ↔
      a ∈ aliases ∨ ∃ e ∈ localCopyEvidenceHashes source file sampled,
        a = ⟨identity, source, file.path, e⟩ := by
  rw [recordLocalCopyIdentityAliases]
  generalize localCopyEvidenceHashes source file sampled = es
  induction es generalizing aliases with
  | nil => simp
  | cons e es ih =>
    rw [List.foldl_cons, ih]
    simp only [List.mem_cons, exists_eq_or_imp]
    split_ifs with hold
    · grind
    · rw [List.mem_append, List.mem_singleton, or_assoc]

theorem mem_matchingAliases {a : Alias} :
    a ∈ matchingAliases aliases source file lookup ↔
      a ∈ aliases ∧ a.source = source ∧
        a.evidence ∈ localCopyEvidenceHashes source file lookup.includeContentSample ∧
        (lookup.requireLocator = true → a.locator = file.path) := by
  simp only [matchingAliases, List.mem_flatMap, List.mem_filter, decide_eq_true_eq]
  constructor
  · rintro ⟨e, he, ha, hs, rfl, hl⟩
    exact ⟨ha, hs, he, hl⟩
  · rintro ⟨ha, hs, he, hl⟩
    exact ⟨a.evidence, he, ha, hs, rfl, hl⟩

/-- A candidate has an alias that is found, and enough of them. -/
theorem mem_findCandidates :
    identity ∈ findLocalCopyIdentityCandidates aliases source file lookup ↔
      (lookup.requireSample = true →
        (localCopyEvidenceHashes source file lookup.includeContentSample).any
          Evidence.isSample = true) ∧
      (∃ a ∈ matchingAliases aliases source file lookup, a.identity = identity) ∧
      sufficient (localCopyEvidenceHashes source file lookup.includeContentSample)
        (matchingAliases aliases source file lookup) identity = true := by
  rw [findLocalCopyIdentityCandidates]
  split_ifs with hsample
  · simp only [Bool.and_eq_true, Bool.not_eq_true'] at hsample
    simp [hsample.1, hsample.2]
  · simp only [Bool.and_eq_true, Bool.not_eq_true', not_and, Bool.not_eq_false] at hsample
    rw [List.mem_insertionSort, List.mem_filter, List.mem_eraseDups, List.mem_map]
    exact (and_iff_right hsample).symm

/-- More aliases of an identity are as good. -/
theorem sufficient_mono {evidence : List Evidence} {found found' : List Alias}
    (hsub : ∀ a ∈ found, a.identity = identity → a ∈ found')
    (h : sufficient evidence found identity = true) :
    sufficient evidence found' identity = true := by
  have hmono : ∀ p : Evidence → Bool,
      (found.any fun a => decide (a.identity = identity) && p a.evidence) = true →
      (found'.any fun a => decide (a.identity = identity) && p a.evidence) = true := by
    intro p hany
    obtain ⟨a, ha, hp⟩ := List.any_eq_true.1 hany
    have hid : a.identity = identity := by
      rw [Bool.and_eq_true, decide_eq_true_eq] at hp
      exact hp.1
    exact List.any_eq_true.2 ⟨a, hsub a ha hid, hp⟩
  have h₁ := hmono Evidence.isSample
  have h₂ := hmono Evidence.isInodeV2
  have h₃ := hmono Evidence.isInodeV1
  simp only [sufficient] at h ⊢
  grind

/-- Whether an identity is a candidate depends on its own aliases only. -/
theorem mem_findCandidates_mono
    (hsub : ∀ a ∈ aliases, a.identity = identity → a ∈ aliases')
    (h : identity ∈ findLocalCopyIdentityCandidates aliases source file lookup) :
    identity ∈ findLocalCopyIdentityCandidates aliases' source file lookup := by
  have hfound : ∀ a ∈ matchingAliases aliases source file lookup, a.identity = identity →
      a ∈ matchingAliases aliases' source file lookup := by
    intro a ha hid
    rw [mem_matchingAliases] at ha ⊢
    exact ⟨hsub a ha.1 hid, ha.2⟩
  rw [mem_findCandidates] at h ⊢
  obtain ⟨hsample, ⟨a, ha, hid⟩, hsuf⟩ := h
  exact ⟨hsample, ⟨a, hfound a ha hid, hid⟩, sufficient_mono hfound hsuf⟩

end MediaScan
