/-
What a run of scans makes of files that are moved, added and removed.

A file is known by its content sample, so that two scans speak of the same file if and only if they
find the same sample.

* `scanAndPrune` — a scan with the pruning of the hidden keys at its end;
* `Kept` — the invariant of the scans: a local row for every file, and its identity tells its
  content;
* `renames_keep_history` — a file that two scans in a row find keeps its row and identity, if no
  file ever replaces another with its inode and times;
* `recycled_inode_loses_row` — a file that has done so loses its row when it is moved.
-/
import Elvern.ScanWrites

namespace MediaScan

/-! ### The end of a scan -/

/-- What the pruning meets: whether a legacy key is stored, and what `_derive_hidden_copy_identity`
gives a cloud row. -/
structure StoredKeys where
  legacyKeys : Bool
  derive : MediaItem → Option ℕ

/-- What is at the path of a row. -/
def MediaItem.fileNow (env : Env) (row : MediaItem) : ScannedFile :=
  match row.filePath with
  | .disk path =>
    { path := path
      stat := (env.fs.stat path).getD ⟨false, 0, 0, 0, 0, 0, 0⟩
      sample := env.fs.sample path
      folder := row.folder }
  | _ => { path := [], stat := ⟨false, 0, 0, 0, 0, 0, 0⟩, sample := none, folder := row.folder }

/-- `resolve_hidden_copy_identity` of any row. -/
def resolveRow (env : Env) (keys : StoredKeys) (db : Db) (row : MediaItem) : Except ScanError Db :=
  if row.isLocal then .ok (db.resolveHiddenCopyIdentity row (row.fileNow env) true [])
  else
    match row.hiddenCopyIdentity with
    | some _ => .ok db
    | none =>
      match keys.derive row with
      | none => .ok db
      | some identity =>
        if db.activeIdentityOwner identity row.id then .error .integrityError
        else .ok (db.setIdentity row.id identity)

/-- `_load_identity_rows`. -/
def Db.loadIdentityRows (env : Env) (keys : StoredKeys) (db : Db) : Except ScanError Db :=
  (db.items.mergeSort fun a b => decide (a.id ≤ b.id)).foldlM (resolveRow env keys) db

/-- `prune_recreated_local_hidden_movie_keys`, on the rows and aliases. -/
def Db.pruneRecreated (env : Env) (keys : StoredKeys) (db : Db) : Except ScanError Db :=
  if keys.legacyKeys then db.loadIdentityRows env keys else .ok db

/-- `scan_media_library` to its end. -/
def scanAndPrune (env : Env) (keys : StoredKeys) (db : Db) : Db × Except ScanError Unit :=
  match scanMediaLibrary env db with
  | (scanned, .ok ()) =>
    match scanned.pruneRecreated env keys with
    | .ok pruned => (pruned, .ok ())
    | .error error => (db.atSavepoint env, .error error)
  | failed => failed

/-! ### Runs of scans -/

/-- Successful scans of one library, with the files that they found, the last scan first. -/
inductive Scans (shared : ℕ) (start : Db) : List (List ScannedFile) → Db → Prop
  | start : Scans shared start [] start
  | scan {seen : List (List ScannedFile)} {files : List ScannedFile} {db db' : Db} {env : Env}
      {keys : StoredKeys} (h : Scans shared start seen db)
        (hshared : env.sharedLocalSourceId = shared)
      (hfiles : currentFiles env (libraryDiscovery env).files = .ok files)
      (hscan : scanAndPrune env keys db = (db', .ok ())) : Scans shared start (files :: seen) db'

/-- A library without local files, now or before. -/
structure EmptyLibrary (db : Db) : Prop where
  sound : db.Sound
  rows : ∀ row ∈ db.items, row.isLocal = false
  aliases : db.aliases = []

/-- Every file can be read, and no two files at a time have the same content sample. -/
structure ToldApart (files : List ScannedFile) : Prop where
  readable : ∀ f ∈ files, ∃ content, f.Has content
  place : ∀ f ∈ files, ∀ g ∈ files, f.sample = g.sample → f.path = g.path

/-- The invariant between scans. -/
structure Kept (shared : ℕ) (seen files : List ScannedFile) (db : Db) : Prop where
  writing : Writing shared seen files (fun _ => False) db
  cover : ∀ f ∈ files, ∀ content, f.Has content → HasRow db content

section Scan

variable {shared : ℕ} {seen files files' : List ScannedFile} {db db' : Db} {env : Env}
  {row row' : MediaItem} {f g : ScannedFile} {identity : ℕ} {content : ContentSample}

theorem EmptyLibrary.kept (h : EmptyLibrary db) : Kept shared [] [] db where
  writing := by
    refine ⟨h.sound, ?_, fun row hrow hlocal => ?_⟩
    · rw [h.aliases]
      exact told_nil
    · rw [h.rows row hrow] at hlocal
      cases hlocal
  cover f hf := absurd hf List.not_mem_nil

/-- A local row between scans is that of a file, with an identity of its content. -/
theorem Kept.holds (h : Kept shared seen files db) (hrow : row ∈ db.items)
    (hlocal : row.isLocal = true) : ∃ f ∈ files, Holds shared db.aliases row f :=
  (h.writing.rows row hrow hlocal).resolve_right id

/-- Two rows whose identities have one content are one. -/
theorem Kept.row_unique (h : Kept shared seen files db) (hapart : ToldApart files)
    (hrow : row ∈ db.items) (hlocal : row.isLocal = true) (hrow' : row' ∈ db.items)
    (hlocal' : row'.isLocal = true) {identity' : ℕ}
    (hidentity : row.hiddenCopyIdentity = some identity)
    (hidentity' : row'.hiddenCopyIdentity = some identity')
    (hcontent : Content db.aliases identity content)
    (hcontent' : Content db.aliases identity' content) : row = row' := by
  have key : ∀ r ∈ db.items, r.isLocal = true → ∀ i, r.hiddenCopyIdentity = some i →
      Content db.aliases i content → ∃ f ∈ files, r.filePath = .disk f.path ∧
          f.sample = some content := by
    intro r hr hl i hi hc
    obtain ⟨f, hf, hholds⟩ := h.holds hr hl
    obtain ⟨j, c, hj, hhas, hjc⟩ := hholds.content
    cases hi.symm.trans hj
    rw [h.writing.told.one i content c hc hjc]
    exact ⟨f, hf, hholds.filePath, hhas.sample⟩
  obtain ⟨f, hf, hpath, hsample⟩ := key row hrow hlocal identity hidentity hcontent
  obtain ⟨g, hg, hpath', hsample'⟩ := key row' hrow' hlocal' identity' hidentity' hcontent'
  refine h.writing.sound.eq_of_path hrow hrow' ?_
  rw [hpath, hpath', hapart.place f hf g hg (hsample.trans hsample'.symm)]

/-- The binding before the savepoint finds nothing to bind. -/
theorem Kept.atSavepoint_items (h : Kept shared seen files db) (env : Env) :
    (db.atSavepoint env).items = db.items := by
  have hbind : ∀ row ∈ db.items, bindRow env row = row := by
    intro row hrow
    rw [bindRow]
    cases hlocal : row.isLocal with
    | false => rfl
    | true =>
      obtain ⟨f, -, hholds⟩ := h.holds hrow hlocal
      rw [hholds.source]
      rfl
  exact (List.map_congr_left hbind).trans (List.map_id _)

theorem Kept.atSavepoint (h : Kept shared seen files db) :
    Kept shared seen files (db.atSavepoint env) := by
  have hitems := h.atSavepoint_items env
  refine ⟨⟨h.writing.sound.congr hitems rfl, h.writing.told, ?_⟩, ?_⟩
  · rw [hitems]
    exact h.writing.rows
  · intro f hf content hhas
    obtain ⟨row, hrow, hrest⟩ := h.cover f hf content hhas
    exact ⟨row, hitems.symm ▸ hrow, hrest⟩

/-! ### The judgement of a scan -/

/-- What a scan with new files needs to know of them. -/
structure Next (seen files files' : List ScannedFile) : Prop where
  apart : ToldApart files
  apart' : ToldApart files'
  unreplaced : Unreplaced (files' ++ seen)

/-- A row is stable at a file with its content only. -/
theorem Kept.stable_content (h : Kept shared seen files db) (hnext : Next seen files files')
    (hrow : row ∈ db.existingRows) (hf : f ∈ files') (hhas : f.Has content)
    (hidentity : row.hiddenCopyIdentity = some identity)
    (hstable : stableAt db.aliases row f = true) : Content db.aliases identity content := by
  obtain ⟨hitem, hlocal⟩ := mem_existingRows.1 hrow
  obtain ⟨g, -, hholds⟩ := h.holds hitem hlocal
  have hsource : row.source = shared := by rw [MediaItem.source, hholds.source, Option.getD_some]
  exact h.writing.told.stable_content (fun g hg => List.mem_append_right _ hg) hnext.unreplaced
    (List.mem_append_left _ hf) hhas hsource hidentity hstable

/-- A row whose content is that of a file stays, or is matched with the file. -/
theorem Kept.matched (h : Kept shared seen files db) (hnext : Next seen files files')
    (hrow : row ∈ db.existingRows) (hidentity : row.hiddenCopyIdentity = some identity)
    (hcontent : Content db.aliases identity content) (hf : f ∈ files') (hhas : f.Has content)
    (hstays : ¬ Stays db.aliases files' row) :
    Matched db.aliases db.existingRows shared files' f row := by
  obtain ⟨hitem, hlocal⟩ := mem_existingRows.1 hrow
  have hidentified : ∀ r ∈ db.existingRows, ∃ i c, r.hiddenCopyIdentity = some i ∧
      Content db.aliases i c := by
    intro r hr
    obtain ⟨hr, hl⟩ := mem_existingRows.1 hr
    obtain ⟨g, -, hholds⟩ := h.holds hr hl
    obtain ⟨i, c, hi, -, hc⟩ := hholds.content
    exact ⟨i, c, hi, hc⟩
  have hnoup : ∀ r ∈ db.existingRows, ∀ g, upgradedAt r g = false := by
    intro r hr g
    obtain ⟨i, -, hi, -⟩ := hidentified r hr
    rw [upgradedAt, hi, Option.isNone_some, Bool.and_false]
  have hunique : ∀ r ∈ db.existingRows, ∀ i, r.hiddenCopyIdentity = some i →
      Content db.aliases i content → r = row := by
    intro r hr i hi hc
    obtain ⟨hr, hl⟩ := mem_existingRows.1 hr
    exact h.row_unique hnext.apart hr hl hitem hlocal hi hidentity hc hcontent
  -- a row that is stable at the file has its content, and is the row
  have hunsettled : Unsettled db.aliases db.existingRows f := by
    intro r hr
    by_contra hstable
    rw [Bool.not_eq_false] at hstable
    obtain ⟨i, -, hi, -⟩ := hidentified r hr
    have heq := hunique r hr i hi (h.stable_content hnext hr hf hhas hi hstable)
    exact hstays ⟨f, hf, heq ▸ hstable⟩
  have hcandidate := h.writing.told.candidate_of_content hhas hcontent
  refine ⟨⟨hunsettled, hrow, Or.inr ⟨fun r hr => hnoup r hr f, hstays, identity, hidentity,
    hcandidate⟩⟩, ?_, ?_⟩
  · rintro r ⟨-, hr, hup | ⟨-, -, i, hi, hc⟩⟩
    · rw [hnoup r hr f] at hup
      cases hup
    · exact hunique r hr i hi (Told.candidate_content hhas rfl hc)
  · rintro g hg ⟨-, -, hup | ⟨-, -, i, hi, hc⟩⟩
    · rw [hnoup row hrow g] at hup
      cases hup
    · cases hidentity.symm.trans hi
      obtain ⟨c, hgc⟩ := hnext.apart'.readable g hg
      have hsame :=
        h.writing.told.one identity content c hcontent (Told.candidate_content hgc rfl hc)
      refine hnext.apart'.place g hg f hf ?_
      rw [hgc.sample, hhas.sample, hsame]

/-- A row that is matched with a file has its content. -/
theorem Kept.matched_content (h : Kept shared seen files db)
    (hmatched : Matched db.aliases db.existingRows shared files' f row) (hhas : f.Has content) :
    ∃ identity, row.hiddenCopyIdentity = some identity ∧ Content db.aliases identity content := by
  obtain ⟨⟨-, hrow, hup | ⟨-, -, identity, hidentity, hc⟩⟩, -⟩ := hmatched
  · obtain ⟨hitem, hlocal⟩ := mem_existingRows.1 hrow
    obtain ⟨g, -, hholds⟩ := h.holds hitem hlocal
    obtain ⟨i, -, hi, -⟩ := hholds.content
    rw [upgradedAt, hi, Option.isNone_some, Bool.and_false] at hup
    cases hup
  · exact ⟨identity, hidentity, Told.candidate_content hhas rfl hc⟩

/-! ### One scan -/

/-- The changes of a scan that goes through, and what they come to. -/
theorem mediaScanMutations_changes {job : ℕ} (h : mediaScanMutations env job files db = .ok db') :
    ∃ changes, changedRecords db.existingRows
        (classify db.existingRows env.sharedLocalSourceId db files).1 = .ok changes ∧
      ∃ revision, applyRecords env job
        (displacedRows db.existingRows
          (classify db.existingRows env.sharedLocalSourceId db files).1)
        (removableRows db.existingRows
          (classify db.existingRows env.sharedLocalSourceId db files).1)
        changes { (classify db.existingRows env.sharedLocalSourceId db files).2 with
          catalogRevision := revision } = .ok db' := by
  rw [mediaScanMutations] at h
  rcases hclassify : classify db.existingRows env.sharedLocalSourceId db files with
    ⟨records, classified⟩
  rw [hclassify] at h
  cases hchanges : changedRecords db.existingRows records with
  | error e =>
    simp only [hchanges] at h
    cases h
  | ok changes =>
    simp only [hchanges] at h
    refine ⟨changes, rfl, ?_⟩
    change applyRecords env job _ _ changes (if _ then _ else _) = .ok db' at h
    split_ifs at h
    · exact ⟨_, h⟩
    · exact ⟨classified.catalogRevision, h⟩

/-- The changed records are the unstable ones, each with the row that it is matched with. -/
theorem changedRecords_spec {rows : List MediaItem} {records : List Record}
    {changes : List (Record × Option MediaItem)} (h : changedRecords rows records = .ok changes) :
    (∀ change ∈ changes, change.1 ∈ records ∧ change.1.stable = false ∧
      ∀ row, change.2 = some row →
        row ∈ displacedRows rows records ∧ matchedExistingId rows records change.1 = some row.id) ∧
    ∀ record ∈ records, record.stable = false → ∃ target, (record, target) ∈ changes ∧
      ∀ id, matchedExistingId rows records record = some id → ∃ row, target = some row ∧
          row.id = id := by
  have hall := Except.forall₂_of_mapM_eq_ok h
  have htarget : ∀ record change, (do return (record, ← renameTarget rows records record) :
      Except ScanError (Record × Option MediaItem)) = .ok change →
      change.1 = record ∧ renameTarget rows records record = .ok change.2 := by
    intro record change heq
    cases hr : renameTarget rows records record with
    | error e =>
      rw [hr] at heq
      cases heq
    | ok target =>
      rw [hr] at heq
      cases heq
      exact ⟨rfl, rfl⟩
  constructor
  · intro change hchange
    obtain ⟨record, hrecord, heq⟩ := mem_of_forall₂ hall.flip hchange
    obtain ⟨rfl, hrename⟩ := htarget record change heq
    obtain ⟨hmem, hstable⟩ := List.mem_filter.1 hrecord
    refine ⟨hmem, by simpa using hstable, fun row hrow => ?_⟩
    rw [renameTarget] at hrename
    split at hrename
    · rw [← Except.ok.inj hrename] at hrow
      cases hrow
    · next id hid =>
      split at hrename
      · cases hrename
      · next r hfind =>
        rw [← Except.ok.inj hrename] at hrow
        cases hrow
        have hrid := List.find?_some hfind
        rw [decide_eq_true_eq] at hrid
        exact ⟨List.mem_of_find?_eq_some hfind, hrid ▸ hid⟩
  · intro record hrecord hstable
    have hmem : record ∈ records.filter (!·.stable) :=
      List.mem_filter.2 ⟨hrecord, by rw [hstable]; rfl⟩
    obtain ⟨change, hchange, heq⟩ := mem_of_forall₂ hall hmem
    obtain ⟨rfl, hrename⟩ := htarget record change heq
    refine ⟨change.2, hchange, fun id hid => ?_⟩
    rw [renameTarget, hid] at hrename
    simp only at hrename
    split at hrename
    · cases hrename
    · next r hfind =>
      have hrid := List.find?_some hfind
      rw [decide_eq_true_eq] at hrid
      exact ⟨r, (Except.ok.inj hrename).symm, hrid⟩

/-- Before the first change of a scan every row stays at a file with its content, is to be removed,
or is to be taken over. -/
theorem Kept.opens (h : Kept shared seen files db) (hnext : Next seen files files')
    {records : List Record}
    {changes : List (Record × Option MediaItem)} {aliases : List Alias} {revision : ℕ}
    (hr : RecordsOk db shared files' records)
    (hchanged : ∀ record ∈ records, record.stable = false → ∃ target, (record, target) ∈ changes ∧
      ∀ id, matchedExistingId db.existingRows records record = some id →
        ∃ row, target = some row ∧ row.id = id)
    (htold : Told shared (files' ++ seen) aliases) (hsub : ∀ a ∈ db.aliases, a ∈ aliases) :
    Writing shared (files' ++ seen) files' (fun i =>
        i ∈ (removableRows db.existingRows records).map (·.id) ∨
          ∃ change ∈ changes, ∃ row, change.2 = some row ∧ row.id = i)
      { db with aliases := aliases, catalogRevision := revision } := by
  refine ⟨h.writing.sound.congr rfl rfl, htold, fun row hrow hlocal => ?_⟩
  have hexisting : row ∈ db.existingRows := mem_existingRows.2 ⟨hrow, hlocal⟩
  by_cases hstays : Stays db.aliases files' row
  · obtain ⟨f, hf, hstable⟩ := hstays
    obtain ⟨content, hhas⟩ := hnext.apart'.readable f hf
    obtain ⟨g, -, hholds⟩ := h.holds hrow hlocal
    obtain ⟨identity, -, hidentity, -⟩ := hholds.content
    have hc := h.stable_content hnext hexisting hf hhas hidentity hstable
    have hpath := hstable
    simp only [stableAt, Bool.and_eq_true, decide_eq_true_eq] at hpath
    exact Or.inl ⟨f, hf, hpath.1.1.1, hholds.source, identity, content, hidentity,
      hhas, hc.mono hsub⟩
  · right
    by_cases hrem : row ∈ removableRows db.existingRows records
    · exact Or.inl (List.mem_map_of_mem hrem)
    · -- the row is matched with a file, whose record takes it over
      right
      have hmatched : ∃ file ∈ files',
          Matched db.aliases db.existingRows shared files' file row := by
        by_contra hno
        exact hrem (hr.mem_removableRows.2 ⟨hexisting, hstays, hno⟩)
      obtain ⟨f, hf, hmatched⟩ := hmatched
      obtain ⟨record, hrecord, rfl⟩ := hr.record_of hf
      have hunstable := (hr.ok record hrecord).unsettled.2 hmatched.1.1
      obtain ⟨target, hmem, hid⟩ := hchanged record hrecord hunstable
      obtain ⟨q, hq, hqid⟩ := hid row.id
        ((hr.matchedExistingId_eq_some hrecord).2 ⟨row, rfl, hmatched⟩)
      exact ⟨_, hmem, q, hq, hqid⟩

/-- The rows of a scan are those of the shared source, and know their content. -/
theorem Kept.existing_known (h : Kept shared seen files db) : ∀ row ∈ db.existingRows,
    row.source = shared ∧ row.hiddenCopyIdentity ≠ none := by
  intro row hrow
  obtain ⟨hitem, hlocal⟩ := mem_existingRows.1 hrow
  obtain ⟨f, -, hholds⟩ := h.holds hitem hlocal
  obtain ⟨i, -, hi, -⟩ := hholds.content
  refine ⟨by rw [MediaItem.source, hholds.source, Option.getD_some], ?_⟩
  rw [hi]
  exact Option.some_ne_none i

/-- A row that is taken over is matched with the file. -/
theorem RecordsOk.matched_of_displaced {records : List Record}
    (hr : RecordsOk db shared files' records)
    {record : Record} (hmem : record ∈ records) {row : MediaItem}
    (hdisplaced : row ∈ displacedRows db.existingRows records)
    (hid : matchedExistingId db.existingRows records record = some row.id) :
    row ∈ db.existingRows ∧ Matched db.aliases db.existingRows shared files' record.file row := by
  obtain ⟨r, hrid, hmatched⟩ := (hr.matchedExistingId_eq_some hmem).1 hid
  have hexisting := (hr.mem_displacedRows.1 hdisplaced).1
  rw [hr.eq_of_id hmatched.1.2.1 hexisting hrid] at hmatched
  exact ⟨hexisting, hmatched⟩

/-- A row that is kept does not share its id with one that is removed. -/
theorem RecordsOk.id_notMem_removable {records : List Record}
    (hr : RecordsOk db shared files' records) {row : MediaItem} (hrow : row ∈ db.existingRows)
    (hnot : row ∉ removableRows db.existingRows records) :
    row.id ∉ (removableRows db.existingRows records).map (·.id) := by
  intro hmem
  obtain ⟨r, hrem, hid⟩ := List.mem_map.1 hmem
  rw [hr.eq_of_id (hr.mem_removableRows.1 hrem).1 hrow hid] at hrem
  exact hnot hrem

/-- **The changes of one scan** keep the invariant, and the row of every file that is found
again. -/
theorem Kept.mutations (h : Kept shared seen files db) (hnext : Next seen files files')
    (hdisk : FixedDisk files') (hshared : env.sharedLocalSourceId = shared) {job : ℕ}
    (hscan : mediaScanMutations env job files' db = .ok db') :
    Kept shared (files' ++ seen) files' db' ∧ (∀ a ∈ db.aliases, a ∈ db'.aliases) ∧
      ∀ row ∈ db.items, row.isLocal = true → ∀ identity content,
        row.hiddenCopyIdentity = some identity →
        Content db.aliases identity content → (∃ f ∈ files', f.Has content) →
        ∃ row' ∈ db'.items, row'.id = row.id ∧ row'.isLocal = true ∧
          row'.hiddenCopyIdentity = some identity := by
  subst hshared
  obtain ⟨heq, hok, -⟩ := @classify_spec db env.sharedLocalSourceId files'
    h.writing.sound hdisk files' db Grown.refl (fun file hfile => hfile)
  have htold : Told env.sharedLocalSourceId (files' ++ seen) db.aliases :=
    h.writing.told.see fun f hf => List.mem_append_right _ hf
  obtain ⟨aliases, hclassified, htold', hsub⟩ := Told.classify h.existing_known htold
    fun f hf => ⟨List.mem_append_left _ hf, hnext.apart'.readable f hf⟩
  obtain ⟨changes, hchanges, revision, happly⟩ := mediaScanMutations_changes hscan
  generalize hrecords :
    (classify db.existingRows env.sharedLocalSourceId db files').1 = records at *
  have hr : RecordsOk db env.sharedLocalSourceId files' records := ⟨h.writing.sound, heq, hok⟩
  obtain ⟨hchange, hchanged⟩ := changedRecords_spec hchanges
  rw [hclassified] at happly
  set removable := removableRows db.existingRows records with hremovable
  set db₀ : Db := { db with aliases := aliases, catalogRevision := revision } with hdb₀
  have htarget : ∀ change ∈ changes, ∀ row, change.2 = some row → row ∈ db.existingRows ∧
      Matched db.aliases db.existingRows env.sharedLocalSourceId files' change.1.file row := by
    intro change hc row hrow
    obtain ⟨hmem, -, hrest⟩ := hchange change hc
    exact hr.matched_of_displaced hmem (hrest row hrow).1 (hrest row hrow).2
  have hstart :=
    @Kept.opens _ _ _ _ _ h hnext records changes aliases revision hr hchanged htold' hsub
  -- the three phases
  rw [applyRecords] at happly
  cases hstage : changes.foldlM (stageRecord job) db₀ with
  | error e =>
    rw [hstage] at happly
    cases happly
  | ok staged =>
    rw [hstage] at happly
    obtain ⟨hstaged, honStage⟩ := hstart.stages
      (fun change hc row hrow => Or.inr ⟨change, hc, row, hrow, rfl⟩) hstage
    have hdeleted := hstaged.deletes removable
    obtain ⟨hitems, haliases, -⟩ := deletes_spec removable staged
    have honDelete : ∀ row ∈ db.items, row.isLocal = true → row ∉ removable → ∀ identity,
        row.hiddenCopyIdentity = some identity →
        ∃ r ∈ (removable.foldl (fun db row => db.deleteItem row.id) staged).items,
          r.id = row.id ∧ r.isLocal = true ∧ r.hiddenCopyIdentity = some identity := by
      intro row hrow hlocal hnot identity hidentity
      obtain ⟨r, hrmem, hid, hl, hi⟩ := honStage.rows row hrow hlocal identity hidentity
      refine ⟨r, ?_, hid, hl, hi⟩
      rw [hitems, List.mem_filter, decide_eq_true_eq]
      exact ⟨hrmem, hid ▸ hr.id_notMem_removable (mem_existingRows.2 ⟨hrow, hlocal⟩) hnot⟩
    have hopen : Writing env.sharedLocalSourceId (files' ++ seen) files'
        (fun i => ∃ change ∈ changes, ∃ row, change.2 = some row ∧ row.id = i)
        (removable.foldl (fun db row => db.deleteItem row.id) staged) :=
      ⟨hdeleted.sound, hdeleted.told, fun row hrow hlocal =>
        (hdeleted.rows row hrow hlocal).imp_right fun ho => ho.1.resolve_left ho.2⟩
    have hsubDelete : ∀ a ∈ db.aliases,
        a ∈ (removable.foldl (fun db row => db.deleteItem row.id) staged).aliases := by
      intro a ha
      rw [haliases]
      exact honStage.aliases a (hsub a ha)
    have hfits : ∀ change ∈ changes, change.1.file ∈ files' ∧ change.1.file ∈ files' ++ seen ∧
        Fit (removable.foldl (fun db row => db.deleteItem row.id) staged) change := by
      intro change hc
      have hfile := (hr.ok change.1 (hchange change hc).1).file
      obtain ⟨content, hhas⟩ := hnext.apart'.readable _ hfile
      refine ⟨hfile, List.mem_append_left _ hfile, content, hhas, fun row hrow => ?_⟩
      obtain ⟨hexisting, hmatched⟩ := htarget change hc row hrow
      obtain ⟨hitem, hlocal⟩ := mem_existingRows.1 hexisting
      obtain ⟨identity, hidentity, hcontent⟩ := h.matched_content hmatched hhas
      have hnot : row ∉ removable := fun hrem =>
        (hr.mem_removableRows.1 hrem).2.2 ⟨_, hfile, hmatched⟩
      obtain ⟨r, hrmem, hid, hl, hi⟩ := honDelete row hitem hlocal hnot identity hidentity
      exact ⟨r, hrmem, hid, hl, identity, hi, hcontent.mono hsubDelete⟩
    obtain ⟨hwriting, honApply, hwritten⟩ := Writing.applies rfl hopen hfits happly
    have hagain : ∀ row ∈ db.items, row.isLocal = true → ∀ identity content,
        row.hiddenCopyIdentity = some identity → Content db.aliases identity content →
        (∃ f ∈ files', f.Has content) → ∃ row' ∈ db'.items, row'.id = row.id ∧
          row'.isLocal = true ∧ row'.hiddenCopyIdentity = some identity := by
      rintro row hrow hlocal identity content hidentity hcontent ⟨f, hf, hhas⟩
      have hexisting : row ∈ db.existingRows := mem_existingRows.2 ⟨hrow, hlocal⟩
      have hnot : row ∉ removable := by
        intro hrem
        obtain ⟨-, hstays, hno⟩ := hr.mem_removableRows.1 hrem
        exact hno ⟨f, hf, h.matched hnext hexisting hidentity hcontent hf hhas hstays⟩
      obtain ⟨r, hrmem, hid, hl, hi⟩ := honDelete row hrow hlocal hnot identity hidentity
      obtain ⟨r', hr', hid', hl', hi'⟩ := honApply.rows r hrmem hl identity hi
      exact ⟨r', hr', hid'.trans hid, hl', hi'⟩
    have hsub' : ∀ a ∈ db.aliases, a ∈ db'.aliases := fun a ha =>
      honApply.aliases a (hsubDelete a ha)
    refine ⟨⟨hwriting, fun f hf content hhas => ?_⟩, hsub', hagain⟩
    obtain ⟨record, hrecord, rfl⟩ := hr.record_of hf
    cases hstable : record.stable with
    | true =>
      -- the row that is stable at the file is found again
      obtain ⟨row, hexisting, hs⟩ := (hr.ok record hrecord).stable.1 hstable
      obtain ⟨hitem, hlocal⟩ := mem_existingRows.1 hexisting
      obtain ⟨g, -, hholds⟩ := h.holds hitem hlocal
      obtain ⟨identity, -, hidentity, -⟩ := hholds.content
      have hc := h.stable_content hnext hexisting hf hhas hidentity hs
      obtain ⟨r, hrmem, -, hl, hi⟩ := hagain row hitem hlocal identity content hidentity
        hc ⟨_, hf, hhas⟩
      exact ⟨r, hrmem, hl, identity, hi, hc.mono hsub'⟩
    | false =>
      obtain ⟨target, hmem, -⟩ := hchanged record hrecord hstable
      obtain ⟨c, hhas', hrow⟩ := hwritten _ hmem
      have hsame : c = content := Option.some.inj (hhas'.sample.symm.trans hhas.sample)
      exact hsame ▸ hrow

/-! ### The pruning -/

theorem recordAliases_congr {aliases : List Alias} {sampled : Bool} (hpath : g.path = f.path)
    (hstat : g.stat = f.stat) (hsample : g.sample = f.sample) :
    recordLocalCopyIdentityAliases aliases shared g identity sampled =
      recordLocalCopyIdentityAliases aliases shared f identity sampled := by
  simp only [recordLocalCopyIdentityAliases, localCopyEvidenceHashes, hpath, hstat, hsample]

/-- What the pruning has done to the rows so far. -/
structure Resolved (shared : ℕ) (seen files : List ScannedFile) (db db' : Db) : Prop where
  kept : Kept shared seen files db'
  onward : Onward db db'
  rows : db'.items.map (fun r => (r.id, r.isLocal)) = db.items.map fun r => (r.id, r.isLocal)

/-- A row is resolved: a local one where its file is, a cloud one without any. -/
theorem Resolved.step {keys : StoredKeys} {db'' : Db} (h : Resolved shared seen files db db')
    (hstart : Kept shared seen files db) (hseen : ∀ f ∈ files, f ∈ seen)
    (hdisk : ∀ f ∈ files, env.fs.stat f.path = some f.stat ∧ f.sample = env.fs.sample f.path)
    (hrow : row ∈ db.items) (hok : resolveRow env keys db' row = .ok db'') :
    Resolved shared seen files db db'' := by
  rw [resolveRow] at hok
  cases hlocal : row.isLocal with
  | true =>
    rw [hlocal, if_pos rfl] at hok
    obtain ⟨f, hf, hholds⟩ := hstart.holds hrow hlocal
    obtain ⟨i, content, hi, hhas, hcontent⟩ := hholds.content
    obtain ⟨hstat, hsample⟩ := hdisk f hf
    have hsource : row.source = shared := by rw [MediaItem.source, hholds.source, Option.getD_some]
    have hnow : recordLocalCopyIdentityAliases db'.aliases shared (row.fileNow env) i true =
        recordLocalCopyIdentityAliases db'.aliases shared f i true := by
      refine recordAliases_congr ?_ ?_ ?_
      · simp only [MediaItem.fileNow, hholds.filePath]
      · simp only [MediaItem.fileNow, hholds.filePath, hstat, Option.getD_some]
      · simp only [MediaItem.fileNow, hholds.filePath]
        exact hsample.symm
    rw [resolve_identified hi, hsource, hnow] at hok
    cases hok
    obtain ⟨hwriting, hon, -⟩ := h.kept.writing.record (hseen f hf) hhas fun content' hc' =>
      h.kept.writing.told.one i content' content hc' (hcontent.mono h.onward.aliases)
    exact ⟨⟨hwriting, fun g hg c hgc => (h.kept.cover g hg c hgc).onward hon⟩,
      h.onward.trans hon, h.rows⟩
  | false =>
    rw [hlocal, if_neg Bool.false_ne_true] at hok
    split at hok
    · cases hok
      exact h
    · split at hok
      · cases hok
        exact h
      · next i _ =>
        split_ifs at hok with howner
        cases hok
        -- only the row itself changes, and it is no local one
        have hcloud : ∀ r ∈ db'.items, r.id = row.id → r.isLocal = false := by
          intro r hr hid
          have hmem : (r.id, r.isLocal) ∈ db.items.map fun r => (r.id, r.isLocal) :=
            h.rows ▸ List.mem_map_of_mem hr
          obtain ⟨q, hq, heq⟩ := List.mem_map.1 hmem
          obtain ⟨hqid, hql⟩ := Prod.mk.inj heq
          rw [hstart.writing.sound.eq_of_id hq hrow (hqid.trans hid), hlocal] at hql
          exact hql.symm
        have hsame : ∀ r ∈ db'.items, r.isLocal = true → r ∈ (db'.setIdentity row.id i).items := by
          intro r hr hl
          refine List.mem_map.2 ⟨r, hr, if_neg fun hid => ?_⟩
          rw [hcloud r hr hid] at hl
          cases hl
        have hon : Onward db' (db'.setIdentity row.id i) :=
          ⟨fun r hr hl j hj => ⟨r, hsame r hr hl, rfl, hl, hj⟩, fun _ ha => ha⟩
        refine ⟨⟨⟨h.kept.writing.sound.setIdentity fun r hr hri => ?_, h.kept.writing.told,
          fun r hr hl => ?_⟩, fun g hg c hgc => (h.kept.cover g hg c hgc).onward hon⟩,
          h.onward.trans hon, ?_⟩
        · rw [Db.activeIdentityOwner, Bool.not_eq_true, List.any_eq_false] at howner
          have hno := howner r hr
          rw [decide_eq_true_eq, not_and, not_not] at hno
          exact hno hri
        · obtain ⟨q, hq, rfl⟩ := List.mem_map.1 hr
          split_ifs at hl ⊢ with hid
          · rw [hcloud q hq hid] at hl
            cases hl
          · exact h.kept.writing.rows q hq hl
        · rw [← h.rows, Db.setIdentity, List.map_map]
          refine List.map_congr_left fun r _ => ?_
          simp only [Function.comp]
          split_ifs <;> rfl

theorem Resolved.steps {keys : StoredKeys} (hstart : Kept shared seen files db)
    (hseen : ∀ f ∈ files, f ∈ seen)
    (hdisk : ∀ f ∈ files, env.fs.stat f.path = some f.stat ∧ f.sample = env.fs.sample f.path) :
    ∀ {rows : List MediaItem} {db' db'' : Db}, Resolved shared seen files db db' →
      (∀ row ∈ rows, row ∈ db.items) → rows.foldlM (resolveRow env keys) db' = .ok db'' →
      Resolved shared seen files db db'' := by
  intro rows
  induction rows with
  | nil =>
    intro db' db'' h _ hok
    cases hok
    exact h
  | cons row rest ih =>
    intro db' db'' h hmem hok
    rw [List.foldlM_cons] at hok
    cases hfirst : resolveRow env keys db' row with
    | error e =>
      rw [hfirst] at hok
      cases hok
    | ok db₁ =>
      rw [hfirst] at hok
      exact ih (h.step hstart hseen hdisk (hmem row (List.mem_cons_self ..)) hfirst)
        (fun r hr => hmem r (List.mem_cons_of_mem _ hr)) hok

theorem Kept.prune (h : Kept shared seen files db) (hseen : ∀ f ∈ files, f ∈ seen)
    (hdisk : ∀ f ∈ files, env.fs.stat f.path = some f.stat ∧ f.sample = env.fs.sample f.path)
    {keys : StoredKeys} (hok : db.pruneRecreated env keys = .ok db') :
    Kept shared seen files db' ∧ Onward db db' := by
  rw [Db.pruneRecreated] at hok
  split_ifs at hok
  · have hstart : Resolved shared seen files db db := ⟨h, .refl db, rfl⟩
    have hend := Resolved.steps h hseen hdisk hstart
      (fun row hrow => (List.mergeSort_perm _ _).mem_iff.1 hrow) hok
    exact ⟨hend.kept, hend.onward⟩
  · cases hok
    exact ⟨h, .refl db⟩

/-- **One scan** keeps the invariant, and the row of every file that is found again. -/
theorem Kept.scan (h : Kept shared seen files db) (hnext : Next seen files files')
    (hshared : env.sharedLocalSourceId = shared)
    (hfiles : currentFiles env (libraryDiscovery env).files = .ok files') {keys : StoredKeys}
    (hscan : scanAndPrune env keys db = (db', .ok ())) :
    Kept shared (files' ++ seen) files' db' ∧ (∀ a ∈ db.aliases, a ∈ db'.aliases) ∧
      ∀ row ∈ db.items, row.isLocal = true → ∀ identity content,
        row.hiddenCopyIdentity = some identity →
        Content db.aliases identity content → (∃ f ∈ files', f.Has content) →
        ∃ row' ∈ db'.items, row'.id = row.id ∧ row'.isLocal = true ∧
          row'.hiddenCopyIdentity = some identity := by
  rw [scanAndPrune] at hscan
  split at hscan
  · next scanned hmutated =>
    split at hscan
    · next pruned hprune =>
      cases hscan
      obtain ⟨hkept, hsub, hagain⟩ :=
        h.atSavepoint.mutations hnext (fixedDisk_currentFiles hfiles) hshared
        (scanMediaLibrary_ok hfiles hmutated)
      obtain ⟨hkept', hon⟩ := hkept.prune (fun f hf => List.mem_append_left _ hf)
        (currentFiles_disk hfiles) hprune
      refine ⟨hkept', fun a ha => hon.aliases a (hsub a ha),
        fun row hrow hlocal identity content hidentity hcontent hfound => ?_⟩
      have hrow' : row ∈ (db.atSavepoint env).items := (h.atSavepoint_items env).symm ▸ hrow
      obtain ⟨r, hr, hid, hl, hi⟩ :=
        hagain row hrow' hlocal identity content hidentity hcontent hfound
      obtain ⟨r', hr', hid', hl', hi'⟩ := hon.rows r hr hl identity hi
      exact ⟨r', hr', hid'.trans hid, hl', hi'⟩
    · cases hscan
  · next hfailed => exact (hfailed _ hscan).elim

end Scan

/-! ### Runs -/

section Runs

variable {shared : ℕ} {start db : Db} {seen : List (List ScannedFile)}

theorem Unreplaced.mono {files files' : List ScannedFile} (h : Unreplaced files')
    (hsub : ∀ f ∈ files, f ∈ files') : Unreplaced files :=
  fun f hf g hg => h f (hsub f hf) g (hsub g hg)

/-- The invariant holds after every run of scans. -/
theorem Scans.kept (h : Scans shared start seen db) (hempty : EmptyLibrary start)
    (hapart : ∀ files ∈ seen, ToldApart files) (hunreplaced : Unreplaced seen.flatten) :
    Kept shared seen.flatten (seen.head?.getD []) db := by
  induction h with
  | start => exact hempty.kept
  | @scan seen files db db' env keys h hshared hfiles hscan ih =>
    have hprevious : Kept shared seen.flatten (seen.head?.getD []) db :=
      ih (fun fs hfs => hapart fs (List.mem_cons_of_mem _ hfs))
        (hunreplaced.mono fun f hf => List.mem_append_right _ hf)
    have hhead : ToldApart (seen.head?.getD []) := by
      cases seen with
      | nil =>
        exact ⟨fun f hf => absurd hf List.not_mem_nil, fun f hf => absurd hf List.not_mem_nil⟩
      | cons fs rest => exact hapart fs (List.mem_cons_of_mem _ (List.mem_cons_self ..))
    have hnext : Next seen.flatten (seen.head?.getD []) files :=
      ⟨hhead, hapart files (List.mem_cons_self ..), hunreplaced⟩
    exact (hprevious.scan hnext hshared hfiles hscan).1

end Runs

/-- Between two scans that succeed one after the other, in a run of scans from an empty library in
which the files are told apart by their content samples, and in which no file ever stands at the
place of another with its device, inode, size and times: every file has its row, and where the
second scan finds it again, wherever that is, the row is there, with its id and its identity. -/
theorem renames_keep_history (shared : ℕ) (start db db' : Db) (seen : List (List ScannedFile))
    (files files' : List ScannedFile) (env : Env) (keys : StoredKeys) (hempty : EmptyLibrary start)
    (hscans : Scans shared start (files :: seen) db) (hshared : env.sharedLocalSourceId = shared)
    (hfiles : currentFiles env (libraryDiscovery env).files = .ok files')
    (hscan : scanAndPrune env keys db = (db', .ok ()))
    (hapart : ∀ fs ∈ files' :: files :: seen, ToldApart fs)
    (hunreplaced : Unreplaced (files' :: files :: seen).flatten) :
    (∀ f ∈ files, ∃ row ∈ db.items, row.isLocal = true ∧ row.filePath = .disk f.path) ∧
    ∀ row ∈ db.items, row.isLocal = true → ∃ f ∈ files, row.filePath = .disk f.path ∧
      row.hiddenCopyIdentity ≠ none ∧ ∀ f' ∈ files', f'.sample = f.sample →
        ∃ row' ∈ db'.items, row'.isLocal = true ∧ row'.filePath = .disk f'.path ∧
          row'.id = row.id ∧ row'.hiddenCopyIdentity = row.hiddenCopyIdentity := by
  have hapart₀ : ToldApart files := hapart files (List.mem_cons_of_mem _ (List.mem_cons_self ..))
  have hapart' : ToldApart files' := hapart files' (List.mem_cons_self ..)
  have hkept : Kept shared (files :: seen).flatten files db :=
    hscans.kept hempty (fun fs hfs => hapart fs (List.mem_cons_of_mem _ hfs))
      (hunreplaced.mono fun f hf => List.mem_append_right _ hf)
  obtain ⟨hkept', hsub, hagain⟩ := hkept.scan ⟨hapart₀, hapart', hunreplaced⟩ hshared hfiles hscan
  constructor
  · intro f hf
    obtain ⟨content, hhas⟩ := hapart₀.readable f hf
    obtain ⟨row, hrow, hlocal, identity, hidentity, hcontent⟩ := hkept.cover f hf content hhas
    obtain ⟨g, hg, hholds⟩ := hkept.holds hrow hlocal
    obtain ⟨i, c, hi, hgc, hc⟩ := hholds.content
    cases hidentity.symm.trans hi
    -- the file that the row is of has the content, and so is at the same place
    have hsame := hkept.writing.told.one identity content c hcontent hc
    refine ⟨row, hrow, hlocal, ?_⟩
    rw [hholds.filePath, hapart₀.place g hg f hf (by rw [hgc.sample, hhas.sample, hsame])]
  · intro row hrow hlocal
    obtain ⟨f, hf, hholds⟩ := hkept.holds hrow hlocal
    obtain ⟨identity, content, hidentity, hhas, hcontent⟩ := hholds.content
    refine ⟨f, hf, hholds.filePath, ?_, fun f' hf' hsample => ?_⟩
    · rw [hidentity]
      exact Option.some_ne_none identity
    · have hhas' : f'.Has content := by
        obtain ⟨c, hc⟩ := hapart'.readable f' hf'
        exact ⟨hc.regular, hsample.trans hhas.sample⟩
      obtain ⟨row', hrow', hid, hlocal', hidentity'⟩ :=
        hagain row hrow hlocal identity content hidentity hcontent ⟨f', hf', hhas'⟩
      obtain ⟨g, hg, hholds'⟩ := hkept'.holds hrow' hlocal'
      obtain ⟨i, c, hi, hgc, hc⟩ := hholds'.content
      cases hidentity'.symm.trans hi
      refine ⟨row', hrow', hlocal', ?_, hid, hidentity'.trans hidentity.symm⟩
      -- the identity still has the content of the file
      have hsame : c = content :=
        hkept'.writing.told.one identity c content hc (hcontent.mono hsub)
      rw [hholds'.filePath, hapart'.place g hg f' hf' (by rw [hgc.sample, hhas'.sample, hsame])]

/-! ### One film at a time -/

/-- A disk with one film in its only folder. Every film is given the same inode and times. -/
def filmDisk (name : String) (content : ContentSample) : FileSystem where
  resolve path := path
  exist path := decide (path = ["lib"] ∨ path = ["lib", name])
  isDir path := some (decide (path = ["lib"]))
  isFile path := decide (path = ["lib", name])
  iterdir path := if path = ["lib"] then some [name] else none
  stat path := if path = ["lib", name] then some ⟨true, 1, 7, 10, 5, 5, 9⟩ else none
  sample path := if path = ["lib", name] then some content else none
  folders := [["lib"]]
  resolve_mem_folders path h := by
    rw [Option.some.injEq, decide_eq_true_eq] at h
    exact List.mem_singleton.2 h

def filmEnv (name : String) (content : ContentSample) : Env :=
  { unmountedEnv with
    fs := filmDisk name content
    referenceLocations := [["lib"]] }

/-- The film as a scan finds it. -/
def filmFile (name : String) (content : ContentSample) : ScannedFile where
  path := ["lib", name]
  stat := ⟨true, 1, 7, 10, 5, 5, 9⟩
  sample := some content
  folder := ⟨none, none, none, none, none, some "smart_single", some "lib", some "lib"⟩

def heat : ContentSample := ⟨10, [1], [1]⟩

def ronin : ContentSample := ⟨10, [2], [2]⟩

def emptyDb : Db := ⟨[], [], [], 1, 1, 0⟩

def noLegacyKeys : StoredKeys := ⟨false, fun _ => none⟩

/-- The library after a scan of the film. -/
def filmScanned (name : String) (content : ContentSample) (db : Db) : Db :=
  (scanAndPrune (filmEnv name content) noLegacyKeys db).1

theorem emptyDb_empty : EmptyLibrary emptyDb where
  sound := ⟨List.nodup_nil, List.nodup_nil, (fun _ h => absurd h List.not_mem_nil),
    fun _ h => absurd h List.not_mem_nil⟩
  rows _ h := by cases h
  aliases := rfl

theorem filmFile_toldApart {name : String} {content : ContentSample} :
    ToldApart [filmFile name content] where
  readable f hf := by
    rw [List.mem_singleton.1 hf]
    exact ⟨content, rfl, rfl⟩
  place f hf g hg _ := by rw [List.mem_singleton.1 hf, List.mem_singleton.1 hg]

/-- The film is scanned for the first time. -/
theorem heat_scanned :
    Scans 1 emptyDb [[filmFile "Heat.mkv" heat]] (filmScanned "Heat.mkv" heat emptyDb) :=
  have hfiles : currentFiles (filmEnv "Heat.mkv" heat)
      (libraryDiscovery (filmEnv "Heat.mkv" heat)).files = .ok [filmFile "Heat.mkv" heat] := by
    decide +kernel
  have hscan : scanAndPrune (filmEnv "Heat.mkv" heat) noLegacyKeys emptyDb =
      (filmScanned "Heat.mkv" heat emptyDb, .ok ()) := by
    decide +kernel
  .scan .start rfl hfiles hscan

/-- The library of the film, moved to another name between the scans. -/
theorem renames_keep_history_moved :
    ∃ row' ∈ (filmScanned "Ronin.mkv" heat (filmScanned "Heat.mkv" heat emptyDb)).items,
      row'.isLocal = true ∧ row'.filePath = .disk ["lib", "Ronin.mkv"] ∧ row'.id = 1 := by
  have hkept := renames_keep_history 1 emptyDb _
    (filmScanned "Ronin.mkv" heat (filmScanned "Heat.mkv" heat emptyDb)) []
    [filmFile "Heat.mkv" heat] [filmFile "Ronin.mkv" heat] (filmEnv "Ronin.mkv" heat) noLegacyKeys
    emptyDb_empty heat_scanned rfl (by decide +kernel) (by decide +kernel) ?_ ?_
  · have hrow : ∃ row ∈ (filmScanned "Heat.mkv" heat emptyDb).items,
        row.isLocal = true ∧ row.id = 1 := by
      decide +kernel
    obtain ⟨row, hrow, hlocal, hid⟩ := hrow
    obtain ⟨f, hf, -, -, hagain⟩ := hkept.2 row hrow hlocal
    rw [List.mem_singleton.1 hf] at hagain
    obtain ⟨row', hrow', hlocal', hpath, hid', -⟩ :=
      hagain (filmFile "Ronin.mkv" heat) (List.mem_singleton_self _) rfl
    exact ⟨row', hrow', hlocal', hpath, hid'.trans hid⟩
  · intro fs hfs
    rcases List.mem_cons.1 hfs with rfl | hfs
    · exact filmFile_toldApart
    · rw [List.mem_singleton.1 hfs]
      exact filmFile_toldApart
  · intro f hf g hg _ _ _ _ _ _
    have hsample : ∀ file ∈ [filmFile "Ronin.mkv" heat, filmFile "Heat.mkv" heat],
        file.sample = some heat := by
      decide
    rw [hsample f hf, hsample g hg]

/-- Another film takes the place of the first with its inode and times, and is then moved: its row
is deleted. -/
theorem recycled_inode_loses_row :
    ¬ ∀ (shared : ℕ) (start db db' : Db) (seen : List (List ScannedFile))
      (files files' : List ScannedFile) (env : Env) (keys : StoredKeys), EmptyLibrary start →
      Scans shared start (files :: seen) db → env.sharedLocalSourceId = shared →
      currentFiles env (libraryDiscovery env).files = .ok files' →
      scanAndPrune env keys db = (db', .ok ()) →
      (∀ fs ∈ files' :: files :: seen, ToldApart fs) →
      ∀ row ∈ db.items, row.isLocal = true → ∃ f ∈ files, row.filePath = .disk f.path ∧
        ∀ f' ∈ files', f'.sample = f.sample → ∃ row' ∈ db'.items, row'.id = row.id := by
  intro h
  have hscans : Scans 1 emptyDb [[filmFile "Heat.mkv" ronin], [filmFile "Heat.mkv" heat]]
      (filmScanned "Heat.mkv" ronin (filmScanned "Heat.mkv" heat emptyDb)) := by
    have hfiles : currentFiles (filmEnv "Heat.mkv" ronin)
        (libraryDiscovery (filmEnv "Heat.mkv" ronin)).files = .ok [filmFile "Heat.mkv" ronin] := by
      decide +kernel
    have hscan : scanAndPrune (filmEnv "Heat.mkv" ronin) noLegacyKeys
        (filmScanned "Heat.mkv" heat emptyDb) =
        (filmScanned "Heat.mkv" ronin (filmScanned "Heat.mkv" heat emptyDb), .ok ()) := by
      decide +kernel
    exact .scan heat_scanned rfl hfiles hscan
  have hlost := h 1 emptyDb _ (filmScanned "Ronin.mkv" ronin
      (filmScanned "Heat.mkv" ronin (filmScanned "Heat.mkv" heat emptyDb)))
        _ _ [filmFile "Ronin.mkv" ronin]
    (filmEnv "Ronin.mkv" ronin) noLegacyKeys emptyDb_empty hscans rfl (by decide +kernel)
    (by decide +kernel) ?_
  · have hrow : ∃ row ∈ (filmScanned "Heat.mkv" ronin (filmScanned "Heat.mkv" heat emptyDb)).items,
        row.isLocal = true ∧ row.id = 1 := by
      decide +kernel
    obtain ⟨row, hrow, hlocal, hid⟩ := hrow
    obtain ⟨f, hf, -, hagain⟩ := hlost row hrow hlocal
    rw [List.mem_singleton.1 hf] at hagain
    have hgone : ∀ row' ∈ (filmScanned "Ronin.mkv" ronin
        (filmScanned "Heat.mkv" ronin (filmScanned "Heat.mkv" heat emptyDb))).items,
            row'.id ≠ 1 := by
      decide +kernel
    obtain ⟨row', hrow', hid'⟩ :=
      hagain (filmFile "Ronin.mkv" ronin) (List.mem_singleton_self _) rfl
    exact hgone row' hrow' (hid'.trans hid)
  · intro fs hfs
    rcases List.mem_cons.1 hfs with rfl | hfs
    · exact filmFile_toldApart
    rcases List.mem_cons.1 hfs with rfl | hfs
    · exact filmFile_toldApart
    · rw [List.mem_singleton.1 hfs]
      exact filmFile_toldApart

end MediaScan
