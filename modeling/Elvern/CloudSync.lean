/-
A sync of a Google Drive source (`cloud_source_sync_service.py`).

* `upsertCloudMediaItem` — one listed file, found by its id, or by its virtual path, or inserted;
* `preserveHiddenMovieKeysForMediaItem` — the marks of a row that goes become copy keys;
* `syncGoogleDriveLibrarySource` — all files, then what is no longer listed goes;
* `sync` — the transaction around it.

Of the columns of a row those are kept that identities, keys and paths are made from.
-/
import Elvern.CollisionRepair

namespace HiddenKeys

/-- A listed file. -/
structure DriveRow where
  id : String
  name : Option String
  resourceKey : Option String
  deriving DecidableEq

/-- The parser of titles, and the merging of rows of one file, which no sync has more than one
of. -/
structure DriveEnv where
  inferYear : String → Option ℤ
  collapse : ℕ → List ℕ → Db → Db

/-- The database with the sequence of `AUTOINCREMENT`. -/
structure Library where
  state : State
  sequence : ℕ

abbrev Library.db (lib : Library) : Db := lib.state.db

/-- `build_cloud_virtual_path` -/
def buildCloudVirtualPath (resourceId fileId filename : String) : String :=
  let safeName := PyText.orElse (PyText.pathName (PyText.orElse filename fileId)) fileId
  "gdrive://" ++ resourceId ++ "/" ++ fileId ++ "/" ++ safeName

namespace DriveRow

/-- `str(row.get("name") or row.get("id") or "Google Drive file")` -/
def fileName (row : DriveRow) : String :=
  PyText.orElse (PyText.orElse (row.name.getD "") row.id) "Google Drive file"

/-- `Path(name).stem or name` -/
def stem (row : DriveRow) : String :=
  PyText.orElse (PyText.pathStem (PyText.pathName row.fileName)) row.fileName

def virtualPath (resourceId : String) (row : DriveRow) : String :=
  buildCloudVirtualPath resourceId row.id row.fileName

end DriveRow

/-- `COALESCE(source_kind, 'local') = 'cloud' AND library_source_id = ?` -/
def MediaRow.ofSource (sourceId : ℕ) (r : MediaRow) : Bool :=
  decide (r.sourceKind = "cloud" ∧ r.librarySourceId = some sourceId)

/-- … `AND external_media_id = ?` -/
def MediaRow.ofFile (sourceId : ℕ) (externalMediaId : String) (r : MediaRow) : Bool :=
  r.ofSource sourceId && decide (r.externalMediaId = some externalMediaId)

namespace Db

/-- An update of the row with an id, which keeps the id. -/
def updateRow (db : Db) (id : ℕ) (f : MediaRow → MediaRow) (hf : ∀ r, (f r).id = r.id) : Db where
  media := db.media.map fun r => if r.id = id then f r else r
  items := db.items
  keys := db.keys
  aliases := db.aliases
  ids_nodup := by
    have hids : (db.media.map fun r => if r.id = id then f r else r).map MediaRow.id =
        db.media.map MediaRow.id := by
      rw [List.map_map]
      refine List.map_congr_left fun r _ => ?_
      simp only [Function.comp_apply]
      split
      · exact hf r
      · rfl
    rw [hids]
    exact db.ids_nodup

/-- The largest id in use. -/
def lastId (db : Db) : ℕ := (db.media.map MediaRow.id).foldr max 0

theorem le_lastId {db : Db} {r : MediaRow} (hr : r ∈ db.media) : r.id ≤ db.lastId := by
  have hle : ∀ {xs : List ℕ} {x : ℕ}, x ∈ xs → x ≤ xs.foldr max 0 := by
    intro xs x hx
    induction xs with
    | nil => cases hx
    | cons y ys ih =>
      rw [List.foldr_cons]
      rcases List.mem_cons.1 hx with rfl | hx
      · exact le_max_left _ _
      · exact (ih hx).trans (le_max_right _ _)
  exact hle (List.mem_map_of_mem hr)

/-- A row is inserted with an id above all that are in use. -/
def insertRow (db : Db) (r : MediaRow) (hid : db.lastId < r.id) : Db where
  media := db.media ++ [r]
  items := db.items
  keys := db.keys
  aliases := db.aliases
  ids_nodup := by
    rw [List.map_append, List.map_singleton]
    refine List.nodup_append.2 ⟨db.ids_nodup, List.nodup_singleton _, fun i hi j hj => ?_⟩
    obtain ⟨q, hq, rfl⟩ := List.mem_map.1 hi
    rw [List.mem_singleton.1 hj]
    exact Nat.ne_of_lt (Nat.lt_of_le_of_lt (le_lastId hq) hid)

/-- Rows are deleted; their marks go with them, and records forget them as representatives. -/
def deleteRows (db : Db) (p : MediaRow → Bool) : Db where
  media := db.media.filter fun r => !p r
  items := db.items.filter fun item =>
    !db.media.any fun r => p r && decide (r.id = item.mediaItemId)
  keys := db.keys.map fun key =>
    if db.media.any fun r => p r && decide (some r.id = key.representativeMediaItemId) then
      { key with representativeMediaItemId := none }
    else key
  aliases := db.aliases
  ids_nodup := (List.filter_sublist.map MediaRow.id).nodup db.ids_nodup

end Db

variable (env : Env) (drive : DriveEnv)

/-- The columns that a sync writes. -/
def cloudColumns (sourceId : ℕ) (resourceId : String) (row : DriveRow) (r : MediaRow) : MediaRow :=
  let resourceKey := PyText.strip env.uni (row.resourceKey.getD "")
  { r with
    title := row.stem
    year := (drive.inferYear row.stem).or r.year
    originalFilename := row.fileName
    filePath := row.virtualPath resourceId
    sourceKind := "cloud"
    librarySourceId := some sourceId
    externalMediaId := some row.id
    cloudResourceKey := if resourceKey = "" then none else some resourceKey }

@[simp] theorem cloudColumns_id (sourceId : ℕ) (resourceId : String) (row : DriveRow)
    (r : MediaRow) : (cloudColumns env drive sourceId resourceId row r).id = r.id := by
  rw [cloudColumns]

/-- A row without content. -/
def blankRow (id : ℕ) : MediaRow := ⟨id, "", none, "", "", "", none, none, none, none⟩

/-- `_collapse_duplicate_cloud_media_rows` -/
def collapseDuplicates (canonicalId : ℕ) (duplicateIds : List ℕ) (db : Db) : Db :=
  if duplicateIds = [] then db else drive.collapse canonicalId duplicateIds db

/-- The rows of a file in the order of their ids. -/
def rowsOfFile (db : Db) (sourceId : ℕ) (externalMediaId : String) : List MediaRow :=
  (db.media.filter (MediaRow.ofFile sourceId externalMediaId)).insertionSort fun a b => a.id ≤ b.id

/-- The row with an id is read again and resolved. -/
def resolveById (s : State) (id : ℕ) : Except DbError State :=
  match s.db.media.find? fun r => decide (r.id = id) with
  | none => .ok s
  | some r => resolveRow env s r

/-- The `INSERT … ON CONFLICT(file_path) DO UPDATE`. -/
def insertOrTakeOver (lib : Library) (sourceId : ℕ) (resourceId : String) (row : DriveRow) :
    Library :=
  match lib.db.media.find? fun r => decide (r.filePath = row.virtualPath resourceId) with
  | some r =>
    let db := lib.db.updateRow r.id (cloudColumns env drive sourceId resourceId row)
      (cloudColumns_id env drive sourceId resourceId row)
    { lib with state := { lib.state with db := db } }
  | none =>
    let id := max lib.sequence lib.db.lastId + 1
    let db := lib.db.insertRow (cloudColumns env drive sourceId resourceId row (blankRow id)) (by
      rw [cloudColumns_id]
      exact Nat.lt_succ_of_le (le_max_right _ _))
    { state := { lib.state with db := db }, sequence := id }

/-- `_upsert_cloud_media_item` -/
def upsertCloudMediaItem (sourceId : ℕ) (resourceId : String) (lib : Library) (row : DriveRow) :
    Except DbError Library := do
  let s ← lib.state.look env
  match rowsOfFile s.db sourceId row.id with
  | existing :: duplicates =>
    let db := collapseDuplicates drive existing.id (duplicates.map (·.id)) s.db
    let s ← State.look env { s with db := db }
    if s.db.media.any fun r =>
        decide (r.filePath = row.virtualPath resourceId ∧ r.id ≠ existing.id) then
      throw .integrityError
    let db := s.db.updateRow existing.id (cloudColumns env drive sourceId resourceId row)
      (cloudColumns_id env drive sourceId resourceId row)
    let s ← resolveById env { s with db := db } existing.id
    return { lib with state := s }
  | [] =>
    let s ← s.look env
    let lib := insertOrTakeOver env drive { lib with state := s } sourceId resourceId row
    match rowsOfFile lib.db sourceId row.id with
    | [] => return lib
    | inserted :: _ =>
      let s ← resolveById env lib.state inserted.id
      return { lib with state := s }

/-- `preserve_hidden_movie_keys_for_media_item`, of a row in the cloud, for which no aliases are
recorded anyway -/
def preserveHiddenMovieKeysForMediaItem (s : State) (mediaItemId : ℕ) : Except DbError State :=
  match s.db.media.find? fun r => decide (r.id = mediaItemId) with
  | none => .ok s
  | some r => do
    let (payload, s) ← resolveHiddenCopyIdentityPayload env s r
    match payload with
    | none => return s
    | some payload =>
      let marks := s.db.items.filter fun item => decide (item.mediaItemId = mediaItemId)
      (marks.filter fun item => decide (item.scope ≠ .everyone)).foldlM (fun s item =>
          insertCopyKey env s (payload.record item.scope item.hiddenByUserId item.hiddenAt)) s
        >>= fun s => (marks.filter fun item => decide (item.scope = .everyone)).foldlM
          (fun s item => insertCopyKey env s
            (payload.record item.scope item.hiddenByUserId item.hiddenAt)) s

/-- The rows of the source that are no longer listed, as the loop over them computes it. -/
def staleRows (db : Db) (sourceId : ℕ) (discovered : List String) : List MediaRow :=
  db.media.filter fun r => r.ofSource sourceId &&
    (decide (discovered = []) || decide (r.externalMediaId.getD "" ∉ discovered))

/-- The rows that the `DELETE` finds: `NOT IN` does not hold of NULL. -/
def deletable (sourceId : ℕ) (discovered : List String) (r : MediaRow) : Bool :=
  r.ofSource sourceId &&
    (decide (discovered = []) || r.externalMediaId.any fun id => decide (id ∉ discovered))

/-- `_sync_google_drive_library_source`, once the files are listed; the last looks update the
source and commit. -/
def syncGoogleDriveLibrarySource (sourceId : ℕ) (resourceId : String) (rows : List DriveRow)
    (lib : Library) : Except DbError Library := do
  let lib ← rows.foldlM (upsertCloudMediaItem env drive sourceId resourceId) lib
  let discovered := rows.map (·.id)
  let s ← lib.state.look env
  let s ← (staleRows s.db sourceId discovered).foldlM (fun s r =>
    preserveHiddenMovieKeysForMediaItem env s r.id) s
  let s ← s.look env
  let s := { s with db := s.db.deleteRows (deletable sourceId discovered) }
  let s ← s.look env
  let s ← s.look env
  return { lib with state := s }

/-- A sync: where the looks outside the database have got to, the resource id that Drive gives the
source, and the listed files; without files the listing has failed. -/
structure Sync where
  tick : ℕ
  resourceId : String
  rows : Option (List DriveRow)

/-- What a sync has to commit, if it gets there. -/
def attempt (sourceId : ℕ) (lib : Library) (e : Sync) : Except DbError Library :=
  match e.rows with
  | none => .error .operationalError
  | some rows => syncGoogleDriveLibrarySource env drive sourceId e.resourceId rows
      { lib with state := { lib.state with tick := e.tick } }

/-- The transaction of a sync: an exception rolls everything back. -/
def sync (sourceId : ℕ) (lib : Library) (e : Sync) : Library :=
  match attempt env drive sourceId lib e with
  | .ok lib' => lib'
  | .error _ => lib

end HiddenKeys
