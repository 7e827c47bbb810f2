/-
A scan of the local library (`media_scan.py`), up to its hidden keys.

* `currentFiles` — the discovered files that are in a reference location and no posters;
* `classify` — which rows are stable, and what the others may have become;
* `renameTarget`, `removableRows` — the row that a file takes over, the rows that go;
* `applyRecords` — the staging, deleting and writing, with the unique paths in force;
* `scanMediaLibrary` — the whole scan, rolled back where it raises.
-/
import Mathlib.Data.List.Dedup
import Elvern.CopyEvidence

namespace MediaScan

inductive ScanError
  | osError
  | integrityError
  | stopIteration
  deriving DecidableEq

/-- What a scan works with: the disk, the settings, the reference locations, the shared local
source with its path as the `LIKE` sees it, the title parser and `ffprobe` (`none` where it
raises). -/
structure Env where
  fs : FileSystem
  config : Config
  referenceLocations : List Path
  sharedLocalSourceId : ℕ
  underSharedPath : FilePath → Bool
  inferYear : String → Option ℤ
  extract : Path → Option (MediaMetadata × List Subtitle)
  revisionEnabled : Bool

/-! ### The files -/

def Category.text : Category → String
  | .movies => "movies"
  | .tv => "tv"
  | .anime => "anime"
  | .cartoon => "cartoon"

def Role.text : Role → String
  | .list => "list"
  | .single => "single"
  | .category => "category"
  | .smartSingle => "smart_single"
  | .legacy => "legacy"

/-- `_scan_metadata_for_file`. -/
def scanMetadataForFile (config : Config) (metadata : FolderScanMetadata) : FolderColumns :=
  { seriesFolderKey := metadata.inherited.seriesFolderKey
    seriesFolderName := metadata.inherited.seriesFolderName
    libraryCategory := metadata.inherited.category.map Category.text
    libraryCategoryPath := metadata.inherited.categoryPath.map config.pathText
    libraryCategoryName := metadata.inherited.categoryDisplayName
    libraryFolderRole := some metadata.role.text
    libraryFolderPath := some (config.pathText metadata.folderPath)
    libraryFolderName := some metadata.folderDisplayName }

/-- The discovered files that count, with their `stat`. -/
def currentFiles (env : Env) (discovered : List DiscoveredMediaFile) :
    Except ScanError (List ScannedFile) :=
  (discovered.filter fun f =>
    (env.referenceLocations.map env.fs.resolve).any (Path.inside (env.fs.resolve f.path)) &&
      !Path.inside (env.fs.resolve f.path) env.config.posterReferencePath).mapM fun f =>
    match env.fs.stat (env.fs.resolve f.path) with
    | none => .error .osError
    | some stat => .ok
        { path := env.fs.resolve f.path
          stat := stat
          sample := env.fs.sample (env.fs.resolve f.path)
          folder := scanMetadataForFile env.config f.metadata }

/-! ### Classification -/

/-- `row[key] or None`. -/
def orNone (value : Option String) : Option String := value.filter (· ≠ "")

/-- `_scan_metadata_matches`. -/
def scanMetadataMatches (row folder : FolderColumns) : Bool :=
  decide (orNone row.seriesFolderKey = orNone folder.seriesFolderKey ∧
    orNone row.seriesFolderName = orNone folder.seriesFolderName ∧
    orNone row.libraryCategory = orNone folder.libraryCategory ∧
    orNone row.libraryCategoryPath = orNone folder.libraryCategoryPath ∧
    orNone row.libraryCategoryName = orNone folder.libraryCategoryName ∧
    orNone row.libraryFolderRole = orNone folder.libraryFolderRole ∧
    orNone row.libraryFolderPath = orNone folder.libraryFolderPath ∧
    orNone row.libraryFolderName = orNone folder.libraryFolderName)

/-- Size and modification time are those of the row. -/
def statUnchanged (row : MediaItem) (file : ScannedFile) : Bool :=
  decide (row.fileSize = file.stat.size ∧ row.fileMtime = file.stat.mtime)

/-- The look-ups of a scan: at the place of the file by its inode, there by its sample, and
anywhere by its sample. -/
def Lookup.inPlace : Lookup := ⟨true, false, false⟩

def Lookup.sampledInPlace : Lookup := ⟨true, true, true⟩

def Lookup.anywhere : Lookup := ⟨false, true, true⟩

/-- What the scan finds out about a file before it changes anything. -/
structure Record where
  file : ScannedFile
  existing : Option MediaItem
  stable : Bool
  candidateIdentities : List ℕ
  legacySamePathTarget : Option MediaItem
  deriving DecidableEq

/-- The classification of one file: its record, and the database, where identities and aliases of
stable rows are written. -/
def classifyFile (existingRows : List MediaItem) (shared : ℕ) (db : Db) (file : ScannedFile) :
    Record × Db :=
  let existing := existingRows.find? fun row => decide (row.filePath = .disk file.path)
  let record (stable : Bool) (candidates : List ℕ) (legacy : Option MediaItem) : Record :=
    ⟨file, existing, stable, candidates, legacy⟩
  let unmatched := record false
    (findLocalCopyIdentityCandidates db.aliases shared file .anywhere) none
  match existing with
  | none => (unmatched, db)
  | some row =>
    if statUnchanged row file then
      match row.hiddenCopyIdentity with
      | some identity =>
        if scanMetadataMatches row.folder file.folder then
          if identity ∈ findLocalCopyIdentityCandidates db.aliases row.source file .inPlace then
            (record true [] none, db)
          else if identity ∈
              findLocalCopyIdentityCandidates db.aliases row.source file .sampledInPlace then
            (record true [] none, db.resolveHiddenCopyIdentity row file true [])
          else (unmatched, db)
        else (unmatched, db)
      | none =>
        if scanMetadataMatches row.folder file.folder then
          (record true [] none, db.resolveHiddenCopyIdentity row file false [])
        else (record false [] (some row), db)
    else (unmatched, db)

/-- The loop over the files. -/
def classify (existingRows : List MediaItem) (shared : ℕ) : Db → List ScannedFile →
    List Record × Db
  | db, [] => ([], db)
  | db, file :: rest =>
    let (record, db) := classifyFile existingRows shared db file
    let (records, db) := classify existingRows shared db rest
    (record :: records, db)

section Matching

variable (existingRows : List MediaItem) (records : List Record)

/-- `stable_existing_ids`. -/
def stableExistingIds : List ℕ :=
  (records.filter (·.stable)).filterMap fun record => record.existing.map (·.id)

/-- `displaced_rows`. -/
def displacedRows : List MediaItem :=
  existingRows.filter fun row => row.id ∉ stableExistingIds records

/-- `record["candidate_row_ids"]`. -/
def candidateRowIds (record : Record) : List ℕ :=
  match record.legacySamePathTarget with
  | some row => [row.id]
  | none =>
    ((displacedRows existingRows records).filter fun row =>
      row.hiddenCopyIdentity.any (· ∈ record.candidateIdentities)).map (·.id)

/-- `candidate_paths_by_row_id[row_id]`. -/
def candidatePaths (id : ℕ) : List Path :=
  ((records.filter fun record =>
    !record.stable && decide (id ∈ candidateRowIds existingRows records record)).map
      (·.file.path)).dedup

/-- The only row that a file can have been, if it can have been that file only. -/
def matchedExistingId (record : Record) : Option ℕ :=
  if record.stable then none
  else
    match candidateRowIds existingRows records record with
    | [id] => if (candidatePaths existingRows records id).length = 1 then some id else none
    | _ => none

/-- `record["rename_target"]`; `next(…)` raises where the row is not displaced. -/
def renameTarget (record : Record) : Except ScanError (Option MediaItem) :=
  match matchedExistingId existingRows records record with
  | none => .ok none
  | some id =>
    match (displacedRows existingRows records).find? fun row => decide (row.id = id) with
    | none => .error .stopIteration
    | some row => .ok (some row)

/-- `matched_existing_ids`. -/
def matchedExistingIds : List ℕ := records.filterMap (matchedExistingId existingRows records)

/-- `removable_rows`. -/
def removableRows : List MediaItem :=
  (displacedRows existingRows records).filter fun row =>
    row.id ∉ matchedExistingIds existingRows records

/-- The changed records with the rows they take over. -/
def changedRecords : Except ScanError (List (Record × Option MediaItem)) :=
  (records.filter (!·.stable)).mapM fun record => do
    return (record, ← renameTarget existingRows records record)

end Matching

/-! ### The changes -/

namespace Db

/-- Another row has the path. -/
def pathTaken (db : Db) (path : FilePath) (except : Option ℕ) : Bool :=
  db.items.any fun row => decide (row.filePath = path ∧ some row.id ≠ except)

/-- `UPDATE media_items SET … WHERE id = ?`. -/
def updateItem (db : Db) (id : ℕ) (f : MediaItem → MediaItem) : Db :=
  { db with items := db.items.map fun row => if row.id = id then f row else row }

/-- The row leaves its path for the staging path of the job. -/
def stage (db : Db) (job id : ℕ) : Except ScanError Db :=
  if db.pathTaken (.staging job id) (some id) then .error .integrityError
  else .ok (db.updateItem id fun row => { row with filePath := .staging job id })

/-- `DELETE FROM media_items WHERE id = ?`, with the subtitles that go with the row. -/
def deleteItem (db : Db) (id : ℕ) : Db :=
  { db with
    items := db.items.filter (·.id ≠ id)
    subtitles := db.subtitles.filter (·.1 ≠ id) }

end Db

/-- `_preserve_known_year`. -/
def preserveKnownYear (inferred existing : Option ℤ) : Option ℤ := inferred.or existing

/-- The columns that a scan writes. -/
def scannedColumns (env : Env) (file : ScannedFile) (metadata : MediaMetadata) (year : Option ℤ)
    (row : MediaItem) : MediaItem :=
  let name := file.path.getLast?.getD ""
  { row with
    title := PyText.pathStem name
    originalFilename := name
    filePath := .disk file.path
    isLocal := true
    librarySourceId := some env.sharedLocalSourceId
    fileSize := file.stat.size
    fileMtime := file.stat.mtime
    metadata := metadata
    year := year
    folder := file.folder }

/-- `_write_scanned_local_media_item`: the row that is taken over is updated, else a row is
inserted. -/
def writeScannedLocalMediaItem (env : Env) (db : Db) (target : Option MediaItem)
    (file : ScannedFile) (metadata : MediaMetadata) (year : Option ℤ) :
    Except ScanError (Db × ℕ) :=
  if db.pathTaken (.disk file.path) (target.map (·.id)) then .error .integrityError
  else
    match target with
    | some row => .ok (db.updateItem row.id (scannedColumns env file metadata year), row.id)
    | none =>
      let blank : MediaItem :=
        { id := db.nextId
          title := ""
          originalFilename := ""
          filePath := .disk file.path
          isLocal := true
          librarySourceId := none
          hiddenCopyIdentity := none
          fileSize := 0
          fileMtime := 0
          metadata := metadata
          year := none
          folder := file.folder }
      .ok ({ db with
          items := db.items ++ [scannedColumns env file metadata year blank]
          nextId := db.nextId + 1 }, db.nextId)

/-- `_replace_scanned_subtitles`. -/
def replaceScannedSubtitles (db : Db) (id : ℕ) (subtitles : List Subtitle) : Db :=
  { db with subtitles := db.subtitles.filter (·.1 ≠ id) ++ subtitles.map fun s => (id, s) }

/-- The candidate identities of displaced rows, which a new row does not take. -/
def blockedIdentities (displaced : List MediaItem) (record : Record) : List ℕ :=
  record.candidateIdentities.filter fun identity =>
    displaced.any fun row => decide (row.hiddenCopyIdentity = some identity)

/-- The writing of one changed record. -/
def applyRecord (env : Env) (displaced : List MediaItem) (db : Db)
    (change : Record × Option MediaItem) : Except ScanError Db :=
  let (record, target) := change
  match env.extract record.file.path with
  | none => .error .osError
  | some (metadata, subtitles) => do
    let inferred := env.inferYear (PyText.pathStem (record.file.path.getLast?.getD ""))
    let (db, id) ← writeScannedLocalMediaItem env db target record.file metadata
      (preserveKnownYear inferred (target.bind (·.year)))
    let db :=
      match db.items.find? fun row => decide (row.id = id) with
      | none => db
      | some row => db.resolveHiddenCopyIdentity row record.file true
          (if target.isNone then blockedIdentities displaced record else [])
    return replaceScannedSubtitles db id subtitles

/-- The staging of one changed record. -/
def stageRecord (job : ℕ) (db : Db) (change : Record × Option MediaItem) : Except ScanError Db :=
  match change.2 with
  | none => .ok db
  | some row => if row.filePath = .disk change.1.file.path then .ok db else db.stage job row.id

/-- All changes: staging, deleting, writing. -/
def applyRecords (env : Env) (job : ℕ) (displaced removable : List MediaItem)
    (changes : List (Record × Option MediaItem)) (db : Db) : Except ScanError Db := do
  let db ← changes.foldlM (stageRecord job) db
  let db := removable.foldl (fun db row => db.deleteItem row.id) db
  changes.foldlM (applyRecord env displaced) db

/-- The local rows. -/
def Db.existingRows (db : Db) : List MediaItem := db.items.filter (·.isLocal)

/-- What a scan does between its savepoint and the hidden keys. -/
def mediaScanMutations (env : Env) (job : ℕ) (files : List ScannedFile) (db : Db) :
    Except ScanError Db := do
  let (records, classified) := classify db.existingRows env.sharedLocalSourceId db files
  let changes ← changedRecords db.existingRows records
  let removable := removableRows db.existingRows records
  let claimed :=
    if env.revisionEnabled ∧ (changes ≠ [] ∨ removable ≠ []) then
      { classified with catalogRevision := classified.catalogRevision + 1 }
    else classified
  applyRecords env job (displacedRows db.existingRows records) removable changes claimed

/-- A local row without source, under the shared path, is given the shared source. -/
def bindRow (env : Env) (row : MediaItem) : MediaItem :=
  if row.isLocal && row.librarySourceId.isNone && env.underSharedPath row.filePath then
    { row with librarySourceId := some env.sharedLocalSourceId }
  else row

/-- `bind_unassigned_local_media_items_to_shared_source`. -/
def Db.bindUnassigned (env : Env) (db : Db) : Db := { db with items := db.items.map (bindRow env) }

/-- What the discovery finds in the reference locations. -/
def libraryDiscovery (env : Env) : LibraryFolderDiscovery :=
  (discoverLibraryFolders env.fs env.config env.referenceLocations).get
    (Option.isSome_iff_exists.2 (discoverLibraryFolders_isSome env.referenceLocations))

/-- `scan_media_library`. The rows are bound and the job is made before the savepoint. -/
def scanMediaLibrary (env : Env) (db : Db) : Db × Except ScanError Unit :=
  let bound := { db.bindUnassigned env with nextJob := db.nextJob + 1 }
  match (currentFiles env (libraryDiscovery env).files).bind fun files =>
      mediaScanMutations env db.nextJob files bound with
  | .ok scanned => (scanned, .ok ())
  | .error error => (bound, .error error)

end MediaScan
