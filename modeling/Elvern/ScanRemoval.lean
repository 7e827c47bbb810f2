/-
The rows that a scan deletes, and what it could not read.

* `Db.KeepsIds` — what the changes of a scan do to the ids;
* `scan_keeps_iff` — a successful scan keeps a row if it stays or is matched with a file;
* `Unreadable` — at or below a location or folder with a warning;
* `unreadable_kept_iff` — when nothing that could not be read is deleted;
* `not_stays_of_unreadable` — without links, no row in an unreadable folder stays;
* `unmounted_row_lost` — a missing location costs the rows below it.
-/
import Elvern.Exceptions
import Elvern.ScanClassification

namespace MediaScan

/-! ### Ids -/

/-- The ids below `n` are as before, and no new one is below it. -/
structure Db.KeepsIds (n : ℕ) (gone : List ℕ) (db db' : Db) : Prop where
  nextId : n ≤ db.nextId → n ≤ db'.nextId
  mem : n ≤ db.nextId → ∀ i < n,
    ((∃ row ∈ db'.items, row.id = i) ↔ (∃ row ∈ db.items, row.id = i) ∧ i ∉ gone)

section Ids

variable {n : ℕ} {gone gone' : List ℕ} {db db' db'' : Db}

theorem Db.KeepsIds.refl : Db.KeepsIds n [] db db :=
  ⟨fun h => h, fun _ _ _ => (and_iff_left (List.not_mem_nil)).symm⟩

theorem Db.KeepsIds.trans (h : Db.KeepsIds n gone db db') (h' : Db.KeepsIds n gone' db' db'') :
    Db.KeepsIds n (gone ++ gone') db db'' where
  nextId hn := h'.nextId (h.nextId hn)
  mem hn i hi := by
    rw [h'.mem (h.nextId hn) i hi, h.mem hn i hi, and_assoc, List.mem_append, not_or]

/-- An update that leaves the ids of the rows alone. -/
theorem Db.KeepsIds.map {f : MediaItem → MediaItem} (hf : ∀ row, (f row).id = row.id)
    (hitems : db'.items = db.items.map f) (hnext : db'.nextId = db.nextId) :
    Db.KeepsIds n [] db db' where
  nextId hn := hnext ▸ hn
  mem _ i _ := by
    rw [hitems, and_iff_left (List.not_mem_nil)]
    constructor
    · rintro ⟨row, hrow, rfl⟩
      obtain ⟨r, hr, rfl⟩ := List.mem_map.1 hrow
      exact ⟨r, hr, (hf r).symm⟩
    · rintro ⟨row, hrow, rfl⟩
      exact ⟨f row, List.mem_map_of_mem hrow, hf row⟩

theorem Db.KeepsIds.deleteItem (db : Db) (id : ℕ) : Db.KeepsIds n [id] db (db.deleteItem id) where
  nextId hn := hn
  mem _ i _ := by
    simp only [Db.deleteItem, List.mem_filter, decide_eq_true_eq, List.mem_singleton]
    constructor
    · rintro ⟨row, ⟨hrow, hne⟩, rfl⟩
      exact ⟨⟨row, hrow, rfl⟩, hne⟩
    · rintro ⟨⟨row, hrow, rfl⟩, hne⟩
      exact ⟨row, ⟨hrow, hne⟩, rfl⟩

/-- A row is inserted with an id that was not in use. -/
theorem Db.KeepsIds.insert {row : MediaItem} (hid : row.id = db.nextId)
    (hitems : db'.items = db.items ++ [row]) (hnext : db'.nextId = db.nextId + 1) :
    Db.KeepsIds n [] db db' where
  nextId hn := hnext ▸ Nat.le_succ_of_le hn
  mem hn i hi := by
    rw [hitems, and_iff_left (List.not_mem_nil)]
    constructor
    · rintro ⟨r, hr, rfl⟩
      rcases List.mem_append.1 hr with hr | hr
      · exact ⟨r, hr, rfl⟩
      · rw [List.mem_singleton.1 hr, hid] at hi
        exact absurd hn (Nat.not_le.2 hi)
    · rintro ⟨r, hr, rfl⟩
      exact ⟨r, List.mem_append_left _ hr, rfl⟩

theorem keepsIds_resolve (row : MediaItem) (file : ScannedFile) (sampled : Bool)
    (disallowed : List ℕ) :
    Db.KeepsIds n [] db (db.resolveHiddenCopyIdentity row file sampled disallowed) := by
  rw [Db.resolveHiddenCopyIdentity]
  split
  · exact .map (f := fun r => r) (fun _ => rfl) (List.map_id _).symm rfl
  · refine .map (f := fun r => if r.id = row.id then { r with hiddenCopyIdentity := _ } else r)
      (fun r => ?_) rfl rfl
    split_ifs <;> rfl

theorem keepsIds_stageRecord {job : ℕ} {change : Record × Option MediaItem}
    (h : stageRecord job db change = .ok db') : Db.KeepsIds n [] db db' := by
  rw [stageRecord] at h
  split at h
  · cases h
    exact .refl
  · next row _ =>
    split_ifs at h
    · cases h
      exact .refl
    · rw [Db.stage] at h
      split_ifs at h
      cases h
      refine .map (f := fun r => if r.id = row.id then { r with filePath := .staging job row.id }
        else r) (fun r => ?_) rfl rfl
      split_ifs <;> rfl

theorem scannedColumns_id (env : Env) (file : ScannedFile) (metadata : MediaMetadata)
    (year : Option ℤ) (row : MediaItem) :
    (scannedColumns env file metadata year row).id = row.id := by
  rw [scannedColumns]

theorem keepsIds_write {env : Env} {target : Option MediaItem} {file : ScannedFile}
    {metadata : MediaMetadata} {year : Option ℤ} {id : ℕ}
    (h : writeScannedLocalMediaItem env db target file metadata year = .ok (db', id)) :
    Db.KeepsIds n [] db db' := by
  unfold writeScannedLocalMediaItem at h
  split_ifs at h
  cases target with
  | some row =>
    cases h
    refine .map (f := fun r => if r.id = row.id then scannedColumns env file metadata year r else r)
      (fun r => ?_) rfl rfl
    split_ifs
    · exact scannedColumns_id ..
    · exact Eq.refl r.id
  | none =>
    cases h
    exact .insert rfl rfl rfl

/-- Subtitles are no rows of `media_items`. -/
theorem keepsIds_replaceScannedSubtitles (id : ℕ) (subtitles : List Subtitle) :
    Db.KeepsIds n [] db (replaceScannedSubtitles db id subtitles) :=
  .map (f := fun r => r) (fun _ => rfl) (List.map_id _).symm rfl

theorem keepsIds_applyRecord {env : Env} {displaced : List MediaItem}
    {change : Record × Option MediaItem} (h : applyRecord env displaced db change = .ok db') :
    Db.KeepsIds n [] db db' := by
  rw [applyRecord] at h
  simp only at h
  split at h
  · cases h
  · next metadata subtitles _ =>
    cases hwrite : writeScannedLocalMediaItem env db change.2 change.1.file metadata
        (preserveKnownYear (env.inferYear (PyText.pathStem (change.1.file.path.getLast?.getD "")))
          (change.2.bind (·.year))) with
    | error e =>
      rw [hwrite] at h
      cases h
    | ok written =>
      rw [hwrite] at h
      cases h
      have hw := keepsIds_write (n := n) hwrite
      change Db.KeepsIds n ([] ++ [] ++ []) db _
      refine (hw.trans ?_).trans (keepsIds_replaceScannedSubtitles ..)
      split
      · exact .refl
      · exact keepsIds_resolve ..

theorem keepsIds_foldlM {α : Type} {f : Db → α → Except ScanError Db}
    (hf : ∀ db x db', f db x = .ok db' → Db.KeepsIds n [] db db') :
    ∀ {xs : List α} {db db' : Db}, xs.foldlM f db = .ok db' → Db.KeepsIds n [] db db' := by
  intro xs
  induction xs with
  | nil =>
    intro db db' h
    cases h
    exact .refl
  | cons x xs ih =>
    intro db db' h
    rw [List.foldlM_cons] at h
    cases hx : f db x with
    | error e =>
      rw [hx] at h
      cases h
    | ok db₁ =>
      rw [hx] at h
      exact (hf db x db₁ hx).trans (ih h)

theorem keepsIds_deletes : ∀ (removable : List MediaItem) (db : Db),
    Db.KeepsIds n (removable.map (·.id)) db
      (removable.foldl (fun db row => db.deleteItem row.id) db)
  | [], _ => .refl
  | row :: rest, db => (Db.KeepsIds.deleteItem db row.id).trans (keepsIds_deletes rest _)

/-- The changes of a scan delete the removable rows only. -/
theorem keepsIds_applyRecords {env : Env} {job : ℕ} {displaced removable : List MediaItem}
    {changes : List (Record × Option MediaItem)}
    (h : applyRecords env job displaced removable changes db = .ok db') :
    Db.KeepsIds n (removable.map (·.id)) db db' := by
  rw [applyRecords] at h
  cases hstage : changes.foldlM (stageRecord job) db with
  | error e =>
    rw [hstage] at h
    cases h
  | ok staged =>
    rw [hstage] at h
    have h₁ : Db.KeepsIds n [] db staged :=
      keepsIds_foldlM (fun _ _ _ => keepsIds_stageRecord) hstage
    have h₃ := keepsIds_foldlM (n := n) (fun _ _ _ => keepsIds_applyRecord) h
    have hall := (h₁.trans (keepsIds_deletes removable staged)).trans h₃
    rw [List.nil_append, List.append_nil] at hall
    exact hall

end Ids

/-! ### The rows that a scan keeps -/

section Scan

variable {env : Env} {db db' : Db} {files : List ScannedFile}

/-- The files of a scan are what the disk has at their paths. -/
theorem currentFiles_disk (h : currentFiles env (libraryDiscovery env).files = .ok files) :
    ∀ f ∈ files, env.fs.stat f.path = some f.stat ∧ f.sample = env.fs.sample f.path := by
  intro f hf
  obtain ⟨d, -, hread⟩ := mem_of_forall₂ (Except.forall₂_of_mapM_eq_ok h).flip hf
  split at hread
  · cases hread
  · next stat hstat =>
    cases hread
    exact ⟨hstat, rfl⟩

/-- On the disk of a scan, what is at a path does not change. -/
theorem fixedDisk_currentFiles (h : currentFiles env (libraryDiscovery env).files = .ok files) :
    FixedDisk files := by
  intro f hf g hg hpath
  obtain ⟨hfstat, hfsample⟩ := currentFiles_disk h f hf
  obtain ⟨hgstat, hgsample⟩ := currentFiles_disk h g hg
  refine ⟨?_, ?_⟩
  · rw [hpath, hgstat] at hfstat
    exact (Option.some.inj hfstat).symm
  · rw [hfsample, hgsample, hpath]

/-- The ids of the rows after the classification. -/
theorem Grown.keepsIds {stays : MediaItem → Prop} {n : ℕ} (h : Grown stays db db') :
    Db.KeepsIds n [] db db' where
  nextId hn := h.nextId ▸ hn
  mem _ i _ := by
    rw [and_iff_left (List.not_mem_nil)]
    have hback : List.Forall₂ (fun row' row => Filled row row') db'.items db.items := h.items.flip
    constructor
    · rintro ⟨row', hrow', rfl⟩
      obtain ⟨row, hrow, hfilled⟩ := mem_of_forall₂ hback hrow'
      exact ⟨row, hrow, hfilled.id_eq.symm⟩
    · rintro ⟨row, hrow, rfl⟩
      obtain ⟨row', hrow', hfilled⟩ := mem_of_forall₂ h.items hrow
      exact ⟨row', hrow', hfilled.id_eq⟩

@[simp] theorem bindRow_id (row : MediaItem) : (bindRow env row).id = row.id := by
  rw [bindRow]
  split_ifs <;> rfl

@[simp] theorem bindRow_filePath (row : MediaItem) : (bindRow env row).filePath = row.filePath := by
  rw [bindRow]
  split_ifs <;> rfl

@[simp] theorem bindRow_identity (row : MediaItem) :
    (bindRow env row).hiddenCopyIdentity = row.hiddenCopyIdentity := by
  rw [bindRow]
  split_ifs <;> rfl

@[simp] theorem bindRow_isLocal (row : MediaItem) : (bindRow env row).isLocal = row.isLocal := by
  rw [bindRow]
  split_ifs <;> rfl

/-- The database at the savepoint: the rows are bound and the job has its number. -/
def Db.atSavepoint (env : Env) (db : Db) : Db :=
  { db.bindUnassigned env with nextJob := db.nextJob + 1 }

/-- A sound database is sound at the savepoint. -/
theorem Db.Sound.atSavepoint (h : db.Sound) : (db.atSavepoint env).Sound where
  ids := by
    have hids : (db.items.map (bindRow env)).map (·.id) = db.items.map (·.id) := by
      rw [List.map_map]
      exact List.map_congr_left fun row _ => bindRow_id row
    exact (congrArg List.Nodup hids).mpr h.ids
  paths := by
    have hpaths : (db.items.map (bindRow env)).map (·.filePath) = db.items.map (·.filePath) := by
      rw [List.map_map]
      exact List.map_congr_left fun row _ => bindRow_filePath row
    exact (congrArg List.Nodup hpaths).mpr h.paths
  identities row hrow row' hrow' identity hidentity hidentity' := by
    obtain ⟨r, hr, rfl⟩ := List.mem_map.1 hrow
    obtain ⟨r', hr', rfl⟩ := List.mem_map.1 hrow'
    rw [bindRow_identity] at hidentity hidentity'
    rw [h.identities r hr r' hr' identity hidentity hidentity']
  nextId row hrow := by
    obtain ⟨r, hr, rfl⟩ := List.mem_map.1 hrow
    rw [bindRow_id]
    exact h.nextId r hr

/-- Binding keeps every row in its place. -/
theorem keepsIds_atSavepoint {n : ℕ} : Db.KeepsIds n [] db (db.atSavepoint env) :=
  .map bindRow_id rfl rfl

/-- What successful changes have gone through. -/
structure Mutated (env : Env) (job : ℕ) (files : List ScannedFile) (db db' : Db)
    (records : List Record) (classified : Db) (changes : List (Record × Option MediaItem)) :
    Prop where
  recordsOk : RecordsOk db env.sharedLocalSourceId files records
  grown : Grown (Stays db.aliases files) db classified
  changed : changedRecords db.existingRows records = .ok changes
  applied : applyRecords env job (displacedRows db.existingRows records)
    (removableRows db.existingRows records) changes
    (if env.revisionEnabled ∧ (changes ≠ [] ∨ removableRows db.existingRows records ≠ []) then
      { classified with catalogRevision := classified.catalogRevision + 1 }
    else classified) = .ok db'

theorem mediaScanMutations_spec {job : ℕ} (hsound : db.Sound) (hdisk : FixedDisk files)
    (h : mediaScanMutations env job files db = .ok db') :
    ∃ records classified changes, Mutated env job files db db' records classified changes := by
  rw [mediaScanMutations] at h
  obtain ⟨heq, hok, hgrown⟩ := @classify_spec db env.sharedLocalSourceId _ hsound hdisk _ _
    Grown.refl (fun file hfile => hfile)
  rcases hclassify : classify db.existingRows env.sharedLocalSourceId db files with
    ⟨records, classified⟩
  rw [hclassify] at h heq hok hgrown
  cases hchanges : changedRecords db.existingRows records with
  | error e =>
    simp only [hchanges] at h
    cases h
  | ok changes =>
    simp only [hchanges] at h
    exact ⟨records, classified, changes, ⟨hsound, heq, hok⟩, hgrown, hchanges, h⟩

/-- The local rows as the scan finds them, bound to the shared source. -/
def boundRows (env : Env) (db : Db) : List MediaItem := (db.bindUnassigned env).existingRows

/-- The scan has a use for the row: it stays, or a file has become of it. -/
def Recognised (env : Env) (db : Db) (files : List ScannedFile) (row : MediaItem) : Prop :=
  Stays db.aliases files row ∨
    ∃ file ∈ files, Matched db.aliases (boundRows env db) env.sharedLocalSourceId files file row

/-- The catalog counter is no row. -/
theorem keepsIds_claim {n : ℕ} {p : Prop} [Decidable p] {claimed : ℕ} :
    Db.KeepsIds n [] db (if p then { db with catalogRevision := claimed } else db) := by
  split_ifs
  · exact .map (f := fun row => row) (fun _ => rfl) (List.map_id _).symm rfl
  · exact .refl

theorem scanMediaLibrary_ok (hfiles : currentFiles env (libraryDiscovery env).files = .ok files)
    (hscan : scanMediaLibrary env db = (db', .ok ())) :
    mediaScanMutations env db.nextJob files (db.atSavepoint env) = .ok db' := by
  rw [scanMediaLibrary, hfiles] at hscan
  simp only [Except.bind] at hscan
  split at hscan
  · next scanned hmutations =>
    cases hscan
    exact hmutations
  · cases hscan

/-- A successful scan deletes the local rows that it does not recognise, and no other. -/
theorem scan_keeps_iff (hsound : db.Sound)
    (hfiles : currentFiles env (libraryDiscovery env).files = .ok files)
    (hscan : scanMediaLibrary env db = (db', .ok ())) {i : ℕ} (hi : i < db.nextId) :
    (∃ row ∈ db'.items, row.id = i) ↔
      (∃ row ∈ db.items, row.id = i) ∧
        ∀ row ∈ boundRows env db, row.id = i → Recognised env db files row := by
  obtain ⟨records, classified, changes, hm⟩ :=
    mediaScanMutations_spec hsound.atSavepoint (fixedDisk_currentFiles hfiles)
      (scanMediaLibrary_ok hfiles hscan)
  have hsavepoint : Db.KeepsIds db.nextId [] db (db.atSavepoint env) := keepsIds_atSavepoint
  have hclaimed := hsavepoint.trans hm.grown.keepsIds
  have happlied := hclaimed.trans (keepsIds_claim.trans (keepsIds_applyRecords hm.applied))
  rw [happlied.mem le_rfl i hi]
  refine and_congr_right fun _ => ?_
  simp only [List.nil_append, List.mem_map, not_exists, not_and]
  constructor
  · intro hkeep row hrow hid
    by_contra hnot
    rw [Recognised, not_or] at hnot
    exact hkeep row (hm.recordsOk.mem_removableRows.2 ⟨hrow, hnot.1, hnot.2⟩) hid
  · intro hall row hrow hid
    obtain ⟨hexisting, hstays, hmatched⟩ := hm.recordsOk.mem_removableRows.1 hrow
    exact (hall row hexisting hid).elim hstays hmatched

end Scan

/-! ### What could not be read -/

/-- At or below a location that is not there, or a folder that could not be listed. -/
def Unreadable (discovery : LibraryFolderDiscovery) (path : Path) : Prop :=
  ∃ p, (.locationUnavailable p ∈ discovery.warnings ∨ .folderUnreadable p ∈ discovery.warnings) ∧
    Path.inside path p = true

/-- The row lies in what could not be read. -/
def MediaItem.Hidden (discovery : LibraryFolderDiscovery) (row : MediaItem) : Prop :=
  ∃ path, row.filePath = .disk path ∧ Unreadable discovery path

section Unread

variable {env : Env} {db db' : Db} {files : List ScannedFile}

/-- A successful scan deletes no row in what it could not read if and only if it recognises each
local row there, from what it could read. -/
theorem unreadable_kept_iff (hsound : db.Sound)
    (hfiles : currentFiles env (libraryDiscovery env).files = .ok files)
    (hscan : scanMediaLibrary env db = (db', .ok ())) :
    (∀ row ∈ db.items, row.Hidden (libraryDiscovery env) → ∃ row' ∈ db'.items, row'.id = row.id) ↔
      ∀ row ∈ boundRows env db, row.Hidden (libraryDiscovery env) →
          Recognised env db files row := by
  constructor
  · intro hkept row hrow hhidden
    obtain ⟨hitem, -⟩ := mem_existingRows.1 hrow
    obtain ⟨r, hr, rfl⟩ := List.mem_map.1 hitem
    obtain ⟨path, hpath, hunreadable⟩ := hhidden
    rw [bindRow_filePath] at hpath
    obtain ⟨row', hrow', hid⟩ := hkept r hr ⟨path, hpath, hunreadable⟩
    have hkeep := (scan_keeps_iff hsound hfiles hscan (hsound.nextId r hr)).1 ⟨row', hrow', hid⟩
    exact hkeep.2 _ hrow (bindRow_id r)
  · intro hall row hrow hhidden
    rw [scan_keeps_iff hsound hfiles hscan (hsound.nextId row hrow)]
    refine ⟨⟨row, hrow, rfl⟩, fun r hr hid => ?_⟩
    -- ids are unique, so `r` is the row as it was bound
    obtain ⟨hitem, -⟩ := mem_existingRows.1 hr
    obtain ⟨q, hq, rfl⟩ := List.mem_map.1 hitem
    rw [bindRow_id] at hid
    have heq : q = row := hsound.eq_of_id hq hrow hid
    subst heq
    obtain ⟨path, hpath, hunreadable⟩ := hhidden
    exact hall _ hr ⟨path, by rw [bindRow_filePath, hpath], hunreadable⟩

theorem libraryDiscovery_eq : discoverLibraryFolders env.fs env.config env.referenceLocations =
    some (libraryDiscovery env) := (Option.some_get _).symm

theorem mem_currentFiles (h : currentFiles env (libraryDiscovery env).files = .ok files)
    {file : ScannedFile} (hfile : file ∈ files) :
    ∃ d ∈ (libraryDiscovery env).files, file.path = env.fs.resolve d.path := by
  rw [currentFiles] at h
  have hmap := Except.forall₂_of_mapM_eq_ok h
  obtain ⟨d, hd, hread⟩ := mem_of_forall₂ hmap.flip hfile
  refine ⟨d, (List.mem_filter.1 hd).1, ?_⟩
  split at hread
  · cases hread
  · cases hread
    rfl

/-- Where no link leads to a film, no row directly in a folder that could not be listed stays. -/
theorem not_stays_of_unreadable (hfiles : currentFiles env (libraryDiscovery env).files = .ok files)
    (hlinks : ∀ path, isVideoFile env.fs env.config path = true → env.fs.resolve path = path)
    {folder : Path} {name : String}
    (hwarning : .folderUnreadable folder ∈ (libraryDiscovery env).warnings) {aliases : List Alias}
    {row : MediaItem} (hpath : row.filePath = .disk (folder ++ [name])) :
    ¬ Stays aliases files row := by
  rintro ⟨file, hfile, hstable⟩
  simp only [stableAt, Bool.and_eq_true, decide_eq_true_eq] at hstable
  have hplace : file.path = folder ++ [name] :=
    FilePath.disk.inj (hstable.1.1.1.symm.trans hpath)
  obtain ⟨d, hd, hresolved⟩ := mem_currentFiles hfiles hfile
  have hreadable : Readable env.fs env.config (libraryDiscovery env) :=
    discovery_readable libraryDiscovery_eq
  obtain ⟨hlisted, found, hvideo, hdpath⟩ := hreadable.files d hd
  -- the path of the file is that of an entry of a folder that was listed
  have hentry : file.path = d.metadata.folderPath ++ [found] := by
    rw [hresolved, hdpath, hlinks _ hvideo, hlinks _ hvideo]
  have hfolder : d.metadata.folderPath = folder :=
    (List.append_inj' (hentry.symm.trans hplace) rfl).1
  rw [hfolder] at hlisted
  exact hlisted (hreadable.warnings folder hwarning)

end Unread

/-! ### A disk that is not mounted -/

/-- A disk where nothing is there. -/
def unmountedDisk : FileSystem where
  resolve path := path
  exist _ := false
  isDir _ := some false
  isFile _ := false
  iterdir _ := none
  stat _ := none
  sample _ := none
  folders := []
  resolve_mem_folders _ h := by cases h

def unmountedEnv : Env where
  fs := unmountedDisk
  config :=
    { uni := ⟨fun c => decide (c = ' '), Char.isDigit, fun c => [c.toLower]⟩
      allowedVideoExtensions := [".mkv"]
      posterReferencePath := ["mnt", "Posters"]
      restricted := fun _ => false
      folderKey := fun path => "/".intercalate path
      pathText := fun path => "/".intercalate path }
  referenceLocations := [["mnt"]]
  sharedLocalSourceId := 1
  underSharedPath _ := true
  inferYear _ := none
  extract _ := some (⟨none, none, none, none, none, none⟩, [])
  revisionEnabled := true

/-- A film of the disk that has been watched. -/
def unmountedRow : MediaItem where
  id := 1
  title := "Heat"
  originalFilename := "Heat.mkv"
  filePath := .disk ["mnt", "Heat.mkv"]
  isLocal := true
  librarySourceId := some 1
  hiddenCopyIdentity := some 7
  fileSize := 10
  fileMtime := 5
  metadata := ⟨none, none, none, none, none, none⟩
  year := some 1995
  folder := ⟨none, none, none, none, none, none, none, none⟩

def unmountedDb : Db := ⟨[unmountedRow], [], [], 2, 1, 0⟩

theorem unmountedDb_sound : unmountedDb.Sound where
  ids := List.nodup_singleton _
  paths := List.nodup_singleton _
  identities row hrow row' hrow' _ _ _ :=
    (List.mem_singleton.1 hrow).trans (List.mem_singleton.1 hrow').symm
  nextId row hrow := by
    rw [List.mem_singleton.1 hrow]
    decide

theorem unmounted_scan :
    scanMediaLibrary unmountedEnv unmountedDb = (⟨[], [], [], 2, 2, 1⟩, .ok ()) := by
  decide +kernel

theorem unmountedRow_hidden : unmountedRow.Hidden (libraryDiscovery unmountedEnv) :=
  ⟨["mnt", "Heat.mkv"], rfl, ["mnt"], Or.inl (List.mem_singleton_self _), rfl⟩

/-- A missing location costs the rows below it. -/
theorem unmounted_row_lost :
    ¬ ∀ (env : Env) (db db' : Db), db.Sound → scanMediaLibrary env db = (db', .ok ()) →
      ∀ row ∈ db.items, row.Hidden (libraryDiscovery env) → ∃ row' ∈ db'.items,
          row'.id = row.id := by
  intro h
  obtain ⟨row', hrow', -⟩ := h unmountedEnv unmountedDb _ unmountedDb_sound unmounted_scan
    unmountedRow (List.mem_singleton_self _) unmountedRow_hidden
  cases hrow'

theorem unreadable_kept_iff_unmounted :
    (∀ row ∈ unmountedDb.items, row.Hidden (libraryDiscovery unmountedEnv) →
        ∃ row' ∈ ([] : List MediaItem), row'.id = row.id) ↔
      ∀ row ∈ boundRows unmountedEnv unmountedDb, row.Hidden (libraryDiscovery unmountedEnv) →
        Recognised unmountedEnv unmountedDb [] row :=
  unreadable_kept_iff unmountedDb_sound rfl unmounted_scan

end MediaScan
