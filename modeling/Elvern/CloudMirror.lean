/-
What a sync leaves of its source.

* `SourceOk` — the rows of the source: one for a file, each with the identity of its file;
* `PathsFree`, `SyncOk` — what a listing must be like: an inserted file finds its path free;
* `Upserted` — what the loop over the listed files keeps;
* `sync_mirrors` — a sync that commits leaves one row for each listed file, and no other.
-/
import Elvern.CloudSync

namespace HiddenKeys

variable (env : Env) (drive : DriveEnv) (sourceId : ℕ)

/-- An id that stripping leaves alone, and leaves something of. -/
structure CleanId (id : String) : Prop where
  strip : PyText.strip env.uni id = id
  ne : id ≠ ""

/-- The identity of a file of the source. -/
def fileIdentity (externalMediaId : String) : CopyIdentity :=
  env.derivedDigest (.cloudExternalId sourceId externalMediaId)

/-- Each row of the source is of a file, with its identity; a file has one row; and marks are of
rows. -/
structure SourceOk (db : Db) : Prop where
  files : ∀ r ∈ db.media, r.ofSource sourceId = true → ∃ id, r.externalMediaId = some id ∧
    CleanId env id ∧ r.hiddenCopyIdentity = some (fileIdentity env sourceId id)
  single : ∀ r ∈ db.media, ∀ r' ∈ db.media, r.ofSource sourceId = true →
    r'.ofSource sourceId = true → r.externalMediaId = r'.externalMediaId → r = r'
  marks : ∀ item ∈ db.items, ∃ r ∈ db.media, r.id = item.mediaItemId

/-- A file that is listed without a row finds its virtual path free: no row has it that keeps its
path until then, and no file that is listed before. -/
def PathsFree (db : Db) (resourceId : String) (rows : List DriveRow) : Prop :=
  ∀ done row rest, rows = done ++ row :: rest → (∀ r ∈ db.media, r.ofFile sourceId row.id = false) →
    row.id ∉ done.map DriveRow.id →
      (∀ r ∈ db.media, (∀ row' ∈ done, r.ofFile sourceId row'.id = false) →
        r.filePath ≠ row.virtualPath resourceId) ∧
      ∀ row' ∈ done, row'.virtualPath resourceId ≠ row.virtualPath resourceId

/-- The ids of the listed files are clean, and inserted files find their paths free. -/
def SyncOk (lib : Library) (e : Sync) : Prop :=
  ∀ rows, e.rows = some rows →
    (∀ row ∈ rows, CleanId env row.id) ∧ PathsFree sourceId lib.db e.resourceId rows

/-- A row with the columns and the identity of a listed file. -/
def listedRow (resourceId : String) (row : DriveRow) (r : MediaRow) : MediaRow :=
  (cloudColumns env drive sourceId resourceId row r).withIdentity (fileIdentity env sourceId row.id)

/-- One row has become that of a listed file: the row that the file had, or a new one. -/
structure Upserts (resourceId : String) (row : DriveRow) (base : MediaRow) (db db' : Db) :
    Prop where
  items : db'.items = db.items
  keys : db'.keys = db.keys
  source : base ∈ db.media ∧ base.ofFile sourceId row.id = true ∨
    (∀ r ∈ db.media, r.ofFile sourceId row.id = false) ∧ (∀ r ∈ db.media, r.id ≠ base.id) ∧
      base = blankRow base.id
  media : ∀ r, r ∈ db'.media ↔ r ∈ db.media ∧ r.id ≠ base.id ∨
    r = listedRow env drive sourceId resourceId row base

/-- What a file without a row is inserted as. -/
def listedAs (resourceId : String) (rows : List DriveRow) (externalMediaId : String) : MediaRow :=
  (rows.filter fun row => decide (row.id = externalMediaId)).foldl
    (fun r row => cloudColumns env drive sourceId resourceId row r) (blankRow 0)

/-- What legacy keys are made from. -/
def MediaRow.names (r : MediaRow) : String × Option ℤ × String :=
  (r.title, r.year, r.originalFilename)

/-- What the upserts of some files have made of a database. -/
structure Upserted (resourceId : String) (db₀ : Db) (done : List DriveRow) (db : Db) : Prop where
  ok : SourceOk env sourceId db
  items : db.items = db₀.items
  keys : db.keys = db₀.keys
  others : ∀ r, r.ofSource sourceId = false → (r ∈ db.media ↔ r ∈ db₀.media)
  kept : ∀ r ∈ db₀.media, r.ofSource sourceId = true → ∃ r' ∈ db.media,
    r'.id = r.id ∧ r'.ofSource sourceId = true ∧ r'.externalMediaId = r.externalMediaId
  listed : ∀ row ∈ done, ∃ r ∈ db.media, r.ofFile sourceId row.id = true
  origin : ∀ r' ∈ db.media, r'.ofSource sourceId = true →
    (∃ r ∈ db₀.media, r.ofSource sourceId = true ∧ r.id = r'.id ∧
      r.externalMediaId = r'.externalMediaId) ∨
    (∀ r ∈ db₀.media, r.id ≠ r'.id) ∧ ∃ row ∈ done, r'.externalMediaId = some row.id ∧
      r'.names = (listedAs env drive sourceId resourceId done row.id).names
  paths : ∀ r' ∈ db.media,
    (r' ∈ db₀.media ∧ ∀ row ∈ done, r'.ofFile sourceId row.id = false) ∨
      ∃ row ∈ done, r'.filePath = row.virtualPath resourceId

/-- What a sync that commits has made of a database. -/
structure Synced (resourceId : String) (rows : List DriveRow) (db db' : Db) : Prop where
  ok : SourceOk env sourceId db'
  others : ∀ r, r.ofSource sourceId = false → (r ∈ db'.media ↔ r ∈ db.media)
  listed : ∀ row ∈ rows, ∃ r ∈ db'.media, r.ofFile sourceId row.id = true
  unlisted : ∀ r ∈ db'.media, r.ofSource sourceId = true →
    ∃ row ∈ rows, r.externalMediaId = some row.id
  kept : ∀ r ∈ db.media, ∀ row ∈ rows, r.ofFile sourceId row.id = true →
    ∃ r' ∈ db'.media, r'.id = r.id ∧ r'.ofFile sourceId row.id = true
  origin : ∀ r' ∈ db'.media, r'.ofSource sourceId = true →
    (∃ r ∈ db.media, r.ofSource sourceId = true ∧ r.id = r'.id ∧
      r.externalMediaId = r'.externalMediaId) ∨
    (∀ r ∈ db.media, r.id ≠ r'.id) ∧ ∃ row ∈ rows, r'.externalMediaId = some row.id ∧
      r'.names = (listedAs env drive sourceId resourceId rows row.id).names
  items : ∀ item, item ∈ db'.items ↔ item ∈ db.items ∧ ∃ r ∈ db'.media, r.id = item.mediaItemId
  keys : ∀ scope key, db'.HasKey scope key ↔ db.HasKey scope key ∨
    ∃ r ∈ db.media, ∃ id, r.ofFile sourceId id = true ∧ id ∉ rows.map DriveRow.id ∧
      (fileIdentity env sourceId id).text = key ∧ db.HasItem scope r.id

variable {env drive sourceId}

theorem ofFile_iff {r : MediaRow} {id : String} : r.ofFile sourceId id = true ↔
    r.ofSource sourceId = true ∧ r.externalMediaId = some id := by
  rw [MediaRow.ofFile, Bool.and_eq_true, decide_eq_true_eq]

theorem ofSource_iff {r : MediaRow} : r.ofSource sourceId = true ↔
    r.sourceKind = "cloud" ∧ r.librarySourceId = some sourceId := by
  rw [MediaRow.ofSource, decide_eq_true_eq]

theorem mem_rowsOfFile {db : Db} {id : String} {r : MediaRow} :
    r ∈ rowsOfFile db sourceId id ↔ r ∈ db.media ∧ r.ofFile sourceId id = true := by
  rw [rowsOfFile, List.mem_insertionSort, List.mem_filter]

/-- A file of the source has one row at most. -/
theorem SourceOk.rowsOfFile_eq {db : Db} (h : SourceOk env sourceId db) {id : String}
    {existing : MediaRow} {duplicates : List MediaRow}
    (hrows : rowsOfFile db sourceId id = existing :: duplicates) :
    duplicates = [] ∧ existing ∈ db.media ∧ existing.ofFile sourceId id = true := by
  have hmem : ∀ r ∈ existing :: duplicates, r ∈ db.media ∧ r.ofFile sourceId id = true := by
    intro r hr
    rw [← hrows] at hr
    exact mem_rowsOfFile.1 hr
  have hexisting := hmem existing (List.mem_cons_self ..)
  refine ⟨?_, hexisting⟩
  have hnodup : (existing :: duplicates).Nodup := by
    rw [← hrows]
    have hmedia : db.media.Nodup := List.Nodup.of_map _ db.ids_nodup
    exact (List.perm_insertionSort _ _).nodup_iff.2 (hmedia.filter _)
  rw [List.eq_nil_iff_forall_not_mem]
  intro r hr
  obtain ⟨hmedia, hfile⟩ := hmem r (List.mem_cons_of_mem _ hr)
  rw [ofFile_iff] at hfile
  have hsame := h.single r hmedia existing hexisting.1 hfile.1 (ofFile_iff.1 hexisting.2).1
    (hfile.2.trans (ofFile_iff.1 hexisting.2).2.symm)
  exact (List.nodup_cons.1 hnodup).1 (hsame ▸ hr)

/-! ### Identities -/

/-- Python's `"cloud".strip().lower()`. -/
def CloudText (env : Env) : Prop := PyText.lower env.uni (PyText.strip env.uni "cloud") = "cloud"

theorem localSourceScope_cloud (hcloud : CloudText env) {r : MediaRow}
    (hr : r.ofSource sourceId = true) : localSourceScope env r = ("cloud", sourceId) := by
  obtain ⟨hkind, hsource⟩ := ofSource_iff.1 hr
  rw [localSourceScope, hkind, hsource]
  have horElse : PyText.orElse "cloud" "local" = "cloud" := rfl
  rw [horElse, hcloud]
  rfl

/-- The identity that a row of the source is given is that of its file. -/
theorem derive_file (hcloud : CloudText env) {r : MediaRow} {id : String}
    (hr : r.ofFile sourceId id = true) (hid : CleanId env id) :
    deriveHiddenCopyIdentity env r = some (fileIdentity env sourceId id) := by
  obtain ⟨hsource, hext⟩ := ofFile_iff.1 hr
  have hmaterial : copyIdentityMaterial env r = some (.cloudExternalId sourceId id) := by
    rw [copyIdentityMaterial, localSourceScope_cloud hcloud hsource, hext]
    simp [hid.strip, hid.ne]
  rw [deriveHiddenCopyIdentity, hmaterial]
  rfl

/-- Recording aliases does nothing for a row in the cloud. -/
theorem recordAliases_cloud (hcloud : CloudText env) {s : State} {r : MediaRow}
    (hr : r.ofSource sourceId = true) (identity : CopyIdentity) :
    recordLocalCopyIdentityAliases env s r identity = .ok s := by
  have hnone : localLocatorHash env r = none := by
    rw [localLocatorHash, localSourceScope_cloud hcloud hr]
    exact if_pos (Or.inl (show "cloud" ≠ "local" by decide))
  rw [recordLocalCopyIdentityAliases, hnone]

/-- Resolving a row of the source that has an identity changes nothing. -/
theorem resolve_file (hcloud : CloudText env) {s : State} {r : MediaRow}
    (hr : r.ofSource sourceId = true) {identity : CopyIdentity}
    (hidentity : r.hiddenCopyIdentity = some identity) :
    resolveHiddenCopyIdentity env s r = .ok (some identity, s) := by
  rw [resolveHiddenCopyIdentity, hidentity]
  simp only [recordAliases_cloud hcloud hr]
  rfl

/-- Resolving a new row of the source gives it the identity of its file. -/
theorem resolve_new_file (hcloud : CloudText env) {s s' : State} {r : MediaRow} {id : String}
    (hr : r.ofFile sourceId id = true) (hid : CleanId env id)
    (hnone : r.hiddenCopyIdentity = none) (h : resolveRow env s r = .ok s') :
    s'.db = s.db.setIdentity (fileIdentity env sourceId id) r.id := by
  have hsource := (ofFile_iff.1 hr).1
  rw [resolveRow] at h
  obtain ⟨⟨identity, resolved⟩, hresolve, h⟩ := Except.bind_eq_ok_iff.1 h
  cases h
  rw [resolveHiddenCopyIdentity, hnone] at hresolve
  simp only [localSourceScope_cloud hcloud hsource, derive_file hcloud hr hid] at hresolve
  rw [if_neg (by decide)] at hresolve
  obtain ⟨looked, hlook, hresolve⟩ := Except.bind_eq_ok_iff.1 hresolve
  have hdb := State.look_eq hlook
  split_ifs at hresolve
  · cases hresolve
  · obtain ⟨recorded, hrecord, hresolve⟩ := Except.bind_eq_ok_iff.1 hresolve
    rw [recordAliases_cloud hcloud hsource] at hrecord
    cases hrecord
    cases hresolve
    rw [hdb]

/-! ### One file -/

/-- The row with an id is found. -/
theorem Db.find_id {db : Db} {r : MediaRow} (hr : r ∈ db.media) {id : ℕ} (hid : r.id = id) :
    db.media.find? (fun q => decide (q.id = id)) = some r := by
  rcases hfind : db.media.find? (fun q => decide (q.id = id)) with _ | q
  · have hnot := List.find?_eq_none.1 hfind r hr
    exact absurd hid (of_decide_eq_false (Bool.eq_false_iff.2 hnot))
  · have hq := List.mem_of_find?_eq_some hfind
    have hqid :=
      of_decide_eq_true (List.find?_some (p := fun q : MediaRow => decide (q.id = id)) hfind)
    rw [hfind, db.row_eq hq hr (hqid.trans hid.symm)]

theorem Db.mem_updateRow {db : Db} {r₀ : MediaRow} (hr₀ : r₀ ∈ db.media) (f : MediaRow → MediaRow)
    (hf : ∀ r, (f r).id = r.id) {r : MediaRow} :
    r ∈ (db.updateRow r₀.id f hf).media ↔ r ∈ db.media ∧ r.id ≠ r₀.id ∨ r = f r₀ := by
  constructor
  · intro hr
    obtain ⟨q, hq, rfl⟩ := List.mem_map.1 hr
    by_cases hid : q.id = r₀.id
    · rw [if_pos hid, db.row_eq hq hr₀ hid]
      exact Or.inr rfl
    · rw [if_neg hid]
      exact Or.inl ⟨hq, hid⟩
  · rintro (⟨hr, hid⟩ | rfl)
    · exact List.mem_map.2 ⟨r, hr, if_neg hid⟩
    · exact List.mem_map.2 ⟨r₀, hr₀, if_pos rfl⟩

theorem cloudColumns_ofFile (resourceId : String) (row : DriveRow) (r : MediaRow) :
    (cloudColumns env drive sourceId resourceId row r).ofFile sourceId row.id = true :=
  ofFile_iff.2 ⟨ofSource_iff.2 ⟨rfl, rfl⟩, rfl⟩

theorem cloudColumns_identity (resourceId : String) (row : DriveRow) (r : MediaRow) :
    (cloudColumns env drive sourceId resourceId row r).hiddenCopyIdentity =
      r.hiddenCopyIdentity := by
  rw [cloudColumns]

theorem listedRow_of_identity {resourceId : String} {row : DriveRow} {r : MediaRow}
    (h : r.hiddenCopyIdentity = some (fileIdentity env sourceId row.id)) :
    listedRow env drive sourceId resourceId row r =
      cloudColumns env drive sourceId resourceId row r := by
  rw [listedRow, MediaRow.withIdentity, ← h, ← @cloudColumns_identity env drive sourceId
    resourceId row r]

/-- A listed file that has a row. -/
theorem upsert_existing (hcloud : CloudText env) {resourceId : String} {lib : Library}
    {s s' : State} {row : DriveRow} {existing : MediaRow} (hok : SourceOk env sourceId lib.db)
    (hmem : existing ∈ lib.db.media) (hfile : existing.ofFile sourceId row.id = true)
    (hs : s.db = lib.db.updateRow existing.id (cloudColumns env drive sourceId resourceId row)
      (cloudColumns_id env drive sourceId resourceId row))
    (h : resolveById env s existing.id = .ok s') :
    Upserts env drive sourceId resourceId row existing lib.db s'.db := by
  obtain ⟨hsource, hext⟩ := ofFile_iff.1 hfile
  obtain ⟨id, hid, -, hidentity⟩ := hok.files existing hmem hsource
  cases Option.some.inj (hext.symm.trans hid)
  have hrow : listedRow env drive sourceId resourceId row existing =
      cloudColumns env drive sourceId resourceId row existing := listedRow_of_identity hidentity
  have hupdated : ∀ r, r ∈ s.db.media ↔ r ∈ lib.db.media ∧ r.id ≠ existing.id ∨
      r = cloudColumns env drive sourceId resourceId row existing := by
    intro r
    rw [hs]
    exact Db.mem_updateRow hmem _ _
  have hnew := (hupdated _).2 (Or.inr rfl)
  rw [resolveById, Db.find_id hnew (cloudColumns_id ..)] at h
  -- the updated row has the identity of its file already
  have hsame : s' = s := by
    obtain ⟨⟨identity, resolved⟩, hresolve, h⟩ := Except.bind_eq_ok_iff.1 h
    cases h
    rw [resolve_file hcloud (ofFile_iff.1 (cloudColumns_ofFile resourceId row existing)).1
      ((cloudColumns_identity resourceId row existing).trans hidentity)] at hresolve
    cases hresolve
    rfl
  rw [hsame]
  refine ⟨?_, ?_, Or.inl ⟨hmem, hfile⟩, fun r => ?_⟩
  · rw [hs]
    rfl
  · rw [hs]
    rfl
  · rw [hrow]
    exact hupdated r

/-- A listed file that has no row and finds its path free. -/
theorem upsert_inserted (hcloud : CloudText env) {resourceId : String} {db : Db} {s s' : State}
    {row : DriveRow} {id : ℕ} {new : MediaRow} {hid : db.lastId < new.id}
    (hclean : CleanId env row.id) (hnone : ∀ r ∈ db.media, r.ofFile sourceId row.id = false)
    (hnew : new = cloudColumns env drive sourceId resourceId row (blankRow id))
    (hs : s.db = db.insertRow new hid) (h : resolveById env s new.id = .ok s') :
    Upserts env drive sourceId resourceId row (blankRow id) db s'.db := by
  have hnewid : new.id = id := by
    rw [hnew, cloudColumns_id]
    rfl
  have hfresh : ∀ r ∈ db.media, r.id ≠ id := fun r hr =>
    hnewid ▸ Nat.ne_of_lt (Nat.lt_of_le_of_lt (Db.le_lastId hr) hid)
  have hmem : new ∈ s.db.media := by
    rw [hs]
    exact List.mem_append_right _ (List.mem_singleton_self _)
  rw [resolveById, Db.find_id hmem rfl] at h
  have hfile : new.ofFile sourceId row.id = true := by
    rw [hnew]
    exact cloudColumns_ofFile resourceId row _
  have hno : new.hiddenCopyIdentity = none := by
    rw [hnew, cloudColumns_identity]
    rfl
  have hdb := resolve_new_file hcloud hfile hclean hno h
  have hlisted : new.withIdentity (fileIdentity env sourceId row.id) =
      listedRow env drive sourceId resourceId row (blankRow id) := by
    rw [listedRow, hnew]
  refine ⟨?_, ?_, Or.inr ⟨hnone, hfresh, rfl⟩, fun r => ?_⟩
  · rw [hdb, hs]
    rfl
  · rw [hdb, hs]
    rfl
  · rw [hdb, hs, ← hlisted]
    constructor
    · intro hr
      obtain ⟨q, hq, rfl⟩ := List.mem_map.1 hr
      rcases List.mem_append.1 hq with hq | hq
      · have hne : q.id ≠ new.id := hnewid ▸ hfresh q hq
        rw [if_neg hne]
        exact Or.inl ⟨hq, hfresh q hq⟩
      · rw [List.mem_singleton.1 hq, if_pos rfl]
        exact Or.inr rfl
    · rintro (⟨hr, -⟩ | rfl)
      · exact List.mem_map.2 ⟨r, List.mem_append_left _ hr, if_neg (hnewid ▸ hfresh r hr)⟩
      · exact List.mem_map.2 ⟨new, List.mem_append_right _ (List.mem_singleton_self _), if_pos rfl⟩

/-- Where the path is free a row is inserted. -/
theorem insertOrTakeOver_free {resourceId : String} {lib : Library} {row : DriveRow}
    (hfree : ∀ r ∈ lib.db.media, r.filePath ≠ row.virtualPath resourceId) :
    ∃ id new, ∃ hid : lib.db.lastId < new.id,
      new = cloudColumns env drive sourceId resourceId row (blankRow id) ∧
        (insertOrTakeOver env drive lib sourceId resourceId row).db = lib.db.insertRow new hid := by
  have hfind : lib.db.media.find? (fun r => decide (r.filePath = row.virtualPath resourceId)) =
      none := by
    rw [List.find?_eq_none]
    intro r hr hpath
    exact hfree r hr (of_decide_eq_true hpath)
  rw [insertOrTakeOver]
  split
  · next hfound =>
    rw [hfind] at hfound
    cases hfound
  · refine ⟨max lib.sequence lib.db.lastId + 1, _, ?_, rfl, rfl⟩
    rw [cloudColumns_id]
    exact Nat.lt_succ_of_le (le_max_right _ _)

/-- What `_upsert_cloud_media_item` does for a file with a clean id, where a new row finds its path
free. -/
theorem upsert_spec (hcloud : CloudText env) {resourceId : String} {lib lib' : Library}
    {row : DriveRow} (hok : SourceOk env sourceId lib.db) (hclean : CleanId env row.id)
    (hfree : (∀ r ∈ lib.db.media, r.ofFile sourceId row.id = false) →
      ∀ r ∈ lib.db.media, r.filePath ≠ row.virtualPath resourceId)
    (h : upsertCloudMediaItem env drive sourceId resourceId lib row = .ok lib') :
    ∃ base, Upserts env drive sourceId resourceId row base lib.db lib'.db := by
  rw [upsertCloudMediaItem] at h
  obtain ⟨s, hlook, h⟩ := Except.bind_eq_ok_iff.1 h
  have hdb : s.db = lib.db := State.look_eq hlook
  rcases hrows : rowsOfFile s.db sourceId row.id with _ | ⟨existing, duplicates⟩
  · rw [hrows] at h
    obtain ⟨s₁, hlook₁, h⟩ := Except.bind_eq_ok_iff.1 h
    have hdb₁ : s₁.db = lib.db := (State.look_eq hlook₁).trans hdb
    have hnone : ∀ r ∈ lib.db.media, r.ofFile sourceId row.id = false := by
      intro r hr
      rw [Bool.eq_false_iff]
      intro hfile
      have hmem := mem_rowsOfFile.2 ⟨hdb ▸ hr, hfile⟩
      rw [hrows] at hmem
      cases hmem
    obtain ⟨id, new, hid, hnew, hinsert⟩ := @insertOrTakeOver_free env drive sourceId
      resourceId { lib with state := s₁ } row fun r hr => hfree hnone r (hdb₁ ▸ hr)
    set inserted := insertOrTakeOver env drive { lib with state := s₁ } sourceId resourceId row
      with hinserted
    have hnewFile : new.ofFile sourceId row.id = true := by
      rw [hnew]
      exact cloudColumns_ofFile resourceId row _
    rcases hfound : rowsOfFile inserted.db sourceId row.id with _ | ⟨first, others⟩
    · have hmem : new ∈ inserted.db.media := by
        rw [hinsert]
        exact List.mem_append_right _ (List.mem_singleton_self _)
      have hno := mem_rowsOfFile.2 ⟨hmem, hnewFile⟩
      rw [hfound] at hno
      cases hno
    · have hfirst : first = new := by
        have hmem := mem_rowsOfFile.1 (hfound ▸ List.mem_cons_self (a := first) (l := others))
        rw [hinsert] at hmem
        rcases List.mem_append.1 hmem.1 with hold | hold
        · have hnot := hnone first (hdb₁ ▸ hold)
          rw [hmem.2] at hnot
          cases hnot
        · exact List.mem_singleton.1 hold
      dsimp only at h
      rw [hfound] at h
      obtain ⟨s₂, hresolve, h⟩ := Except.bind_eq_ok_iff.1 h
      cases h
      rw [hfirst] at hresolve
      refine ⟨blankRow id, ?_⟩
      rw [← hdb₁]
      exact upsert_inserted hcloud hclean (hdb₁ ▸ hnone) hnew hinsert hresolve
  · rw [hrows] at h
    obtain ⟨rfl, hmem, hfile⟩ := SourceOk.rowsOfFile_eq (hdb.symm ▸ hok) hrows
    obtain ⟨s₁, hlook₁, h⟩ := Except.bind_eq_ok_iff.1 h
    have hdb₁ : s₁.db = lib.db := (State.look_eq hlook₁).trans hdb
    split_ifs at h
    · cases h
    · obtain ⟨s₂, hresolve, h⟩ := Except.bind_eq_ok_iff.1 h
      cases h
      refine ⟨existing, upsert_existing hcloud hok (hdb ▸ hmem) hfile ?_ hresolve⟩
      dsimp only
      rw [hdb₁]

/-! ### All files -/

@[simp] theorem withIdentity_id (r : MediaRow) (c : CopyIdentity) : (r.withIdentity c).id = r.id :=
  rfl

@[simp] theorem withIdentity_ofFile (r : MediaRow) (c : CopyIdentity) (id : String) :
    (r.withIdentity c).ofFile sourceId id = r.ofFile sourceId id := rfl

@[simp] theorem listedRow_id (resourceId : String) (row : DriveRow) (r : MediaRow) :
    (listedRow env drive sourceId resourceId row r).id = r.id := by
  rw [listedRow, withIdentity_id, cloudColumns_id]

theorem listedRow_ofFile (resourceId : String) (row : DriveRow) (r : MediaRow) :
    (listedRow env drive sourceId resourceId row r).ofFile sourceId row.id = true := by
  rw [listedRow, withIdentity_ofFile]
  exact cloudColumns_ofFile resourceId row r

theorem listedRow_names {resourceId : String} {row : DriveRow} {r r' : MediaRow}
    (h : r.names = r'.names) :
    (listedRow env drive sourceId resourceId row r).names =
      (cloudColumns env drive sourceId resourceId row r').names := by
  have hyear : r.year = r'.year := congrArg (fun names => names.2.1) h
  rw [listedRow, MediaRow.withIdentity, cloudColumns, cloudColumns, MediaRow.names, MediaRow.names,
    hyear]

theorem listedAs_append_of_ne {resourceId : String} {rows : List DriveRow} {row : DriveRow}
    {id : String} (h : row.id ≠ id) :
    listedAs env drive sourceId resourceId (rows ++ [row]) id =
      listedAs env drive sourceId resourceId rows id := by
  rw [listedAs, listedAs, List.filter_append, List.filter_singleton, decide_eq_false h]
  simp

theorem listedAs_append_self (resourceId : String) (rows : List DriveRow) (row : DriveRow) :
    listedAs env drive sourceId resourceId (rows ++ [row]) row.id =
      cloudColumns env drive sourceId resourceId row
        (listedAs env drive sourceId resourceId rows row.id) := by
  rw [listedAs, listedAs, List.filter_append, List.filter_singleton, decide_eq_true rfl,
    List.foldl_append]
  rfl

theorem listedAs_of_not_mem {resourceId : String} {rows : List DriveRow} {id : String}
    (h : id ∉ rows.map DriveRow.id) :
    listedAs env drive sourceId resourceId rows id = blankRow 0 := by
  have hnil : rows.filter (fun row => decide (row.id = id)) = [] := by
    rw [List.filter_eq_nil_iff]
    intro row hrow hid
    exact h (List.mem_map.2 ⟨row, hrow, of_decide_eq_true hid⟩)
  rw [listedAs, hnil]
  rfl

namespace Upserts

variable {resourceId : String} {row : DriveRow} {base : MediaRow} {db db' : Db}

/-- No other row than the base is of the file. -/
theorem not_file (hu : Upserts env drive sourceId resourceId row base db db')
    (hok : SourceOk env sourceId db) {r : MediaRow} (hr : r ∈ db.media) (hid : r.id ≠ base.id) :
    r.ofFile sourceId row.id = false := by
  rcases hu.source with ⟨hbase, hfile⟩ | ⟨hnone, -, -⟩
  · rw [Bool.eq_false_iff]
    intro hrfile
    have hr' := ofFile_iff.1 hrfile
    have hb := ofFile_iff.1 hfile
    exact hid (congrArg MediaRow.id
      (hok.single r hr base hbase hr'.1 hb.1 (hr'.2.trans hb.2.symm)))
  · exact hnone r hr

/-- A row with the id of the base is the row that the file had. -/
theorem eq_base (hu : Upserts env drive sourceId resourceId row base db db') {r : MediaRow}
    (hr : r ∈ db.media) (hid : r.id = base.id) : r = base ∧ r.ofFile sourceId row.id = true := by
  rcases hu.source with ⟨hbase, hfile⟩ | ⟨-, hfresh, -⟩
  · rw [db.row_eq hr hbase hid]
    exact ⟨rfl, hfile⟩
  · exact absurd hid (hfresh r hr)

theorem mem_new (hu : Upserts env drive sourceId resourceId row base db db') :
    listedRow env drive sourceId resourceId row base ∈ db'.media :=
  (hu.media _).2 (Or.inr rfl)

/-- A row goes on, as it is or as that of the listed file. -/
theorem goes_on (hu : Upserts env drive sourceId resourceId row base db db') {r : MediaRow}
    (hr : r ∈ db.media) : r ∈ db'.media ∨ r.ofFile sourceId row.id = true ∧
      r.id = (listedRow env drive sourceId resourceId row base).id := by
  by_cases hid : r.id = base.id
  · exact Or.inr ⟨(hu.eq_base hr hid).2, hid.trans (listedRow_id ..).symm⟩
  · exact Or.inl ((hu.media r).2 (Or.inl ⟨hr, hid⟩))

theorem sourceOk (hu : Upserts env drive sourceId resourceId row base db db')
    (hok : SourceOk env sourceId db) (hclean : CleanId env row.id) :
    SourceOk env sourceId db' where
  files := by
    intro r hr hsource
    rcases (hu.media r).1 hr with ⟨hold, -⟩ | rfl
    · exact hok.files r hold hsource
    · exact ⟨row.id, (ofFile_iff.1 (listedRow_ofFile resourceId row base)).2, hclean, rfl⟩
  single := by
    have hnew := ofFile_iff.1 (@listedRow_ofFile env drive sourceId resourceId row base)
    intro r hr r' hr' hsource hsource' hext
    rcases (hu.media r).1 hr with ⟨hold, hid⟩ | rfl
    · rcases (hu.media r').1 hr' with ⟨hold', -⟩ | rfl
      · exact hok.single r hold r' hold' hsource hsource' hext
      · have hnot := hu.not_file hok hold hid
        rw [ofFile_iff.2 ⟨hsource, hext.trans hnew.2⟩] at hnot
        cases hnot
    · rcases (hu.media r').1 hr' with ⟨hold', hid'⟩ | rfl
      · have hnot := hu.not_file hok hold' hid'
        rw [ofFile_iff.2 ⟨hsource', hext.symm.trans hnew.2⟩] at hnot
        cases hnot
      · rfl
  marks := by
    intro item hitem
    rw [hu.items] at hitem
    obtain ⟨r, hr, hid⟩ := hok.marks item hitem
    rcases hu.goes_on hr with hr' | ⟨-, hnew⟩
    · exact ⟨r, hr', hid⟩
    · exact ⟨_, hu.mem_new, hnew.symm.trans hid⟩

end Upserts

namespace Upserted

variable {resourceId : String} {row : DriveRow} {done : List DriveRow} {base : MediaRow}
  {db₀ db db' : Db}

theorem start (hok : SourceOk env sourceId db₀) :
    Upserted env drive sourceId resourceId db₀ [] db₀ where
  ok := hok
  items := rfl
  keys := rfl
  others := fun _ _ => Iff.rfl
  kept := fun r hr hsource => ⟨r, hr, rfl, hsource, rfl⟩
  listed := fun row hrow => by cases hrow
  origin := fun r' hr' hsource => Or.inl ⟨r', hr', hsource, rfl, rfl⟩
  paths := fun r' hr' => Or.inl ⟨hr', fun row hrow => by cases hrow⟩

/-- Every row of before is a row still, at least by its id. -/
theorem id_kept (h : Upserted env drive sourceId resourceId db₀ done db) {r : MediaRow}
    (hr : r ∈ db₀.media) : ∃ r' ∈ db.media, r'.id = r.id := by
  rcases hsource : r.ofSource sourceId with _ | _
  · exact ⟨r, (h.others r hsource).2 hr, rfl⟩
  · obtain ⟨r', hr', hid, -, -⟩ := h.kept r hr hsource
    exact ⟨r', hr', hid⟩

/-- A file without a row has not been listed yet. -/
theorem not_listed (h : Upserted env drive sourceId resourceId db₀ done db) {id : String}
    (hnone : ∀ r ∈ db.media, r.ofFile sourceId id = false) : id ∉ done.map DriveRow.id := by
  intro hmem
  obtain ⟨row, hrow, rfl⟩ := List.mem_map.1 hmem
  obtain ⟨r, hr, hfile⟩ := h.listed row hrow
  rw [hnone r hr] at hfile
  cases hfile

/-- What one more file changes. -/
theorem step (h : Upserted env drive sourceId resourceId db₀ done db) (hclean : CleanId env row.id)
    (hu : Upserts env drive sourceId resourceId row base db db') :
    Upserted env drive sourceId resourceId db₀ (done ++ [row]) db' where
  ok := hu.sourceOk h.ok hclean
  items := hu.items.trans h.items
  keys := hu.keys.trans h.keys
  others := by
    intro r hsource
    have hnew : r ≠ listedRow env drive sourceId resourceId row base := by
      rintro rfl
      rw [(ofFile_iff.1 (listedRow_ofFile resourceId row base)).1] at hsource
      cases hsource
    rw [← h.others r hsource, hu.media r]
    constructor
    · rintro (⟨hr, -⟩ | hr)
      · exact hr
      · exact absurd hr hnew
    · intro hr
      refine Or.inl ⟨hr, fun hid => ?_⟩
      rw [(ofFile_iff.1 (hu.eq_base hr hid).2).1] at hsource
      cases hsource
  kept := by
    intro r hr hsource
    obtain ⟨r', hr', hid, hsource', hext⟩ := h.kept r hr hsource
    rcases hu.goes_on hr' with hgo | ⟨hfile, hnew⟩
    · exact ⟨r', hgo, hid, hsource', hext⟩
    · have hlisted := ofFile_iff.1 (@listedRow_ofFile env drive sourceId resourceId row base)
      exact ⟨_, hu.mem_new, hnew.symm.trans hid, hlisted.1,
        hlisted.2.trans ((ofFile_iff.1 hfile).2.symm.trans hext)⟩
  listed := by
    intro row' hrow'
    rcases List.mem_append.1 hrow' with hrow' | hrow'
    · -- the row of a file before goes on, or it is the one that is written now
      obtain ⟨r, hr, hfile⟩ := h.listed row' hrow'
      rcases hu.goes_on hr with hgo | ⟨hfile', -⟩
      · exact ⟨r, hgo, hfile⟩
      · have hsame := Option.some.inj ((ofFile_iff.1 hfile).2.symm.trans (ofFile_iff.1 hfile').2)
        rw [hsame]
        exact ⟨_, hu.mem_new, listedRow_ofFile resourceId row base⟩
    · rw [List.mem_singleton.1 hrow']
      exact ⟨_, hu.mem_new, listedRow_ofFile resourceId row base⟩
  origin := by
    intro r' hr' hsource
    rcases (hu.media r').1 hr' with ⟨hold, hid⟩ | rfl
    · rcases h.origin r' hold hsource with hfrom | ⟨hfresh, row', hrow', hext, hnames⟩
      · exact Or.inl hfrom
      · refine Or.inr ⟨hfresh, row', List.mem_append_left _ hrow', hext, ?_⟩
        have hne : row.id ≠ row'.id := by
          intro hsame
          have hnot := hu.not_file h.ok hold hid
          rw [ofFile_iff.2 ⟨hsource, hsame ▸ hext⟩] at hnot
          cases hnot
        rw [hnames, listedAs_append_of_ne hne]
    have hext := (ofFile_iff.1 (@listedRow_ofFile env drive sourceId resourceId row base)).2
    -- a row of the file was found and updated, or a new one is inserted
    rcases hu.source with ⟨hbase, hfile⟩ | ⟨hnone, hfresh, hblank⟩
    · obtain ⟨hbaseSource, hbaseExt⟩ := ofFile_iff.1 hfile
      rcases h.origin base hbase hbaseSource with ⟨r, hr, hrsource, hid, hrext⟩ |
        ⟨hfresh, row', hrow', hext', hnames⟩
      · exact Or.inl ⟨r, hr, hrsource, hid.trans (listedRow_id ..).symm,
          hrext.trans (hbaseExt.trans hext.symm)⟩
      · refine Or.inr ⟨fun r hr => ?_, row, List.mem_append_right _ (List.mem_singleton_self _),
          hext, ?_⟩
        · rw [listedRow_id]
          exact hfresh r hr
        · rw [listedAs_append_self, listedRow_names]
          rw [hnames, Option.some.inj (hext'.symm.trans hbaseExt)]
    · refine Or.inr ⟨fun r hr => ?_, row, List.mem_append_right _ (List.mem_singleton_self _),
        hext, ?_⟩
      · obtain ⟨r', hr', hid⟩ := h.id_kept hr
        rw [listedRow_id, ← hid]
        exact hfresh r' hr'
      · rw [listedAs_append_self, listedAs_of_not_mem (h.not_listed hnone), hblank]
        exact listedRow_names rfl
  paths := by
    intro r' hr'
    rcases (hu.media r').1 hr' with ⟨hold, hid⟩ | rfl
    · rcases h.paths r' hold with ⟨hbefore, hnot⟩ | ⟨row', hrow', hpath⟩
      · refine Or.inl ⟨hbefore, fun row' hrow' => ?_⟩
        rcases List.mem_append.1 hrow' with hrow' | hrow'
        · exact hnot row' hrow'
        · rw [List.mem_singleton.1 hrow']
          exact hu.not_file h.ok hold hid
      · exact Or.inr ⟨row', List.mem_append_left _ hrow', hpath⟩
    · exact Or.inr ⟨row, List.mem_append_right _ (List.mem_singleton_self _), rfl⟩

/-- A new row finds its path free, if the listing leaves it free. -/
theorem path_free (h : Upserted env drive sourceId resourceId db₀ done db) {rest : List DriveRow}
    (hpaths : PathsFree sourceId db₀ resourceId (done ++ row :: rest))
    (hnone : ∀ r ∈ db.media, r.ofFile sourceId row.id = false) :
    ∀ r ∈ db.media, r.filePath ≠ row.virtualPath resourceId := by
  have hbefore : ∀ r ∈ db₀.media, r.ofFile sourceId row.id = false := by
    intro r hr
    rw [Bool.eq_false_iff]
    intro hfile
    obtain ⟨hsource, hext⟩ := ofFile_iff.1 hfile
    obtain ⟨r', hr', -, hsource', hext'⟩ := h.kept r hr hsource
    have hnot := hnone r' hr'
    rw [ofFile_iff.2 ⟨hsource', hext'.trans hext⟩] at hnot
    cases hnot
  obtain ⟨hold, hdone⟩ := hpaths done row rest rfl hbefore (h.not_listed hnone)
  intro r hr
  rcases h.paths r hr with ⟨hmem, hnot⟩ | ⟨row', hrow', hpath⟩
  · exact hold r hmem hnot
  · rw [hpath]
    exact hdone row' hrow'

/-- The loop over the listed files. -/
theorem run (hcloud : CloudText env) {rest : List DriveRow} {lib lib' : Library}
    (h : Upserted env drive sourceId resourceId db₀ done lib.db)
    (hclean : ∀ row ∈ rest, CleanId env row.id)
    (hpaths : PathsFree sourceId db₀ resourceId (done ++ rest))
    (hrun : rest.foldlM (upsertCloudMediaItem env drive sourceId resourceId) lib = .ok lib') :
    Upserted env drive sourceId resourceId db₀ (done ++ rest) lib'.db := by
  induction rest generalizing done lib with
  | nil =>
    cases hrun
    rw [List.append_nil]
    exact h
  | cons row rest ih =>
    rw [List.foldlM_cons] at hrun
    obtain ⟨next, hupsert, hrun⟩ := Except.bind_eq_ok_iff.1 hrun
    have hrow := hclean row (List.mem_cons_self ..)
    obtain ⟨base, hu⟩ := upsert_spec hcloud h.ok hrow (fun hnone =>
      h.path_free hpaths hnone) hupsert
    have hsplit : done ++ row :: rest = done ++ [row] ++ rest := by simp
    rw [hsplit] at hpaths ⊢
    exact ih (h.step hrow hu) (fun row' hrow' => hclean row' (List.mem_cons_of_mem _ hrow'))
      hpaths hrun

end Upserted

/-! ### What is no longer listed -/

/-- The marks of a row of the source become keys of its identity. -/
theorem preserve_spec (hcloud : CloudText env) {s s' : State} {r : MediaRow} {c : CopyIdentity}
    (hr : r ∈ s.db.media) (hsource : r.ofSource sourceId = true)
    (hidentity : r.hiddenCopyIdentity = some c)
    (h : preserveHiddenMovieKeysForMediaItem env s r.id = .ok s') :
    s'.db.media = s.db.media ∧ s'.db.items = s.db.items ∧
      ∀ scope key, s'.db.HasKey scope key ↔
        s.db.HasKey scope key ∨ c.text = key ∧ s.db.HasItem scope r.id := by
  rw [preserveHiddenMovieKeysForMediaItem, Db.find_id hr rfl] at h
  obtain ⟨⟨payload, resolved⟩, hresolve, h⟩ := Except.bind_eq_ok_iff.1 h
  rw [resolveHiddenCopyIdentityPayload, resolve_file hcloud hsource hidentity] at hresolve
  cases hresolve
  obtain ⟨next, husers, heveryone⟩ := Except.bind_eq_ok_iff.1 h
  obtain ⟨hmedia, hitems, hkeys⟩ := insertPayload_spec env husers
  obtain ⟨hmedia', hitems', hkeys'⟩ := insertPayload_spec env heveryone
  refine ⟨hmedia'.trans hmedia, hitems'.trans hitems, fun scope key => ?_⟩
  rw [hkeys' scope key, hkeys scope key, or_assoc, ← and_or_left]
  have hmarks : ((∃ item ∈ (s.db.items.filter fun item => decide (item.mediaItemId = r.id)).filter
        fun item => decide (item.scope ≠ .everyone), item.scope = scope) ∨
      ∃ item ∈ (s.db.items.filter fun item => decide (item.mediaItemId = r.id)).filter
        fun item => decide (item.scope = .everyone), item.scope = scope) ↔
      s.db.HasItem scope r.id := by
    simp only [List.mem_filter, decide_eq_true_eq]
    constructor
    · rintro (⟨item, ⟨⟨hitem, hid⟩, -⟩, hscope⟩ | ⟨item, ⟨⟨hitem, hid⟩, -⟩, hscope⟩)
      · exact ⟨item, hitem, hscope, hid⟩
      · exact ⟨item, hitem, hscope, hid⟩
    · rintro ⟨item, hitem, hscope, hid⟩
      by_cases heveryone : item.scope = .everyone
      · exact Or.inr ⟨item, ⟨⟨hitem, hid⟩, heveryone⟩, hscope⟩
      · exact Or.inl ⟨item, ⟨⟨hitem, hid⟩, heveryone⟩, hscope⟩
  rw [hmarks]
  rfl

/-- The marks of some rows of the source become keys of their identities. -/
theorem preserveRows_spec (hcloud : CloudText env) {rows : List MediaRow} {s s' : State}
    (hrows : ∀ r ∈ rows, r ∈ s.db.media ∧ r.ofSource sourceId = true ∧
      ∃ c, r.hiddenCopyIdentity = some c)
    (h : rows.foldlM (fun s r => preserveHiddenMovieKeysForMediaItem env s r.id) s = .ok s') :
    s'.db.media = s.db.media ∧ s'.db.items = s.db.items ∧
      ∀ scope key, s'.db.HasKey scope key ↔ s.db.HasKey scope key ∨
        ∃ r ∈ rows, (∃ c, r.hiddenCopyIdentity = some c ∧ c.text = key) ∧
          s.db.HasItem scope r.id := by
  induction rows generalizing s with
  | nil =>
    cases h
    simp
  | cons r rest ih =>
    rw [List.foldlM_cons] at h
    obtain ⟨next, hpreserve, h⟩ := Except.bind_eq_ok_iff.1 h
    obtain ⟨hr, hsource, c, hc⟩ := hrows r (List.mem_cons_self ..)
    obtain ⟨hmedia, hitems, hkeys⟩ := preserve_spec hcloud hr hsource hc hpreserve
    have hrest : ∀ r ∈ rest, r ∈ next.db.media ∧ r.ofSource sourceId = true ∧
        ∃ c, r.hiddenCopyIdentity = some c := by
      intro r' hr'
      rw [hmedia]
      exact hrows r' (List.mem_cons_of_mem _ hr')
    obtain ⟨hmedia', hitems', hkeys'⟩ := ih hrest h
    have hitem : ∀ {scope i}, next.db.HasItem scope i ↔ s.db.HasItem scope i := by
      intro scope i
      rw [Db.HasItem, Db.HasItem, hitems]
    refine ⟨hmedia'.trans hmedia, hitems'.trans hitems, fun scope key => ?_⟩
    rw [hkeys' scope key, hkeys scope key]
    simp only [List.mem_cons, exists_eq_or_imp, hitem, hc, Option.some.injEq,
      exists_eq_left', or_assoc]

/-- Deleting rows deletes no key. -/
theorem hasKey_deleteRows {db : Db} {p : MediaRow → Bool} {scope : Scope} {key : String} :
    (db.deleteRows p).HasKey scope key ↔ db.HasKey scope key := by
  rw [Db.HasKey, Db.HasKey, Db.deleteRows]
  simp only [List.mem_map, exists_exists_and_eq_and]
  refine exists_congr fun k => and_congr_right fun _ => ?_
  split
  · exact Iff.rfl
  · exact Iff.rfl

theorem mem_deleteRows {db : Db} {p : MediaRow → Bool} {r : MediaRow} :
    r ∈ (db.deleteRows p).media ↔ r ∈ db.media ∧ p r = false := by
  rw [Db.deleteRows, List.mem_filter, Bool.not_eq_true']

/-- A mark of a row is kept, if the row is. -/
theorem mem_items_deleteRows {db : Db} {p : MediaRow → Bool} {item : HiddenItem} {r : MediaRow}
    (hr : r ∈ db.media) (hid : r.id = item.mediaItemId) :
    item ∈ (db.deleteRows p).items ↔ item ∈ db.items ∧ p r = false := by
  rw [Db.deleteRows, List.mem_filter, Bool.not_eq_true', List.any_eq_false]
  refine and_congr_right fun _ => ?_
  simp only [Bool.and_eq_true, decide_eq_true_eq, not_and]
  constructor
  · intro hnone
    rw [Bool.eq_false_iff]
    exact fun hdelete => hnone r hr hdelete hid
  · intro hnot q hq hdelete hqid
    rw [db.row_eq hq hr (hqid.trans hid.symm), hnot] at hdelete
    cases hdelete

/-- The loop and the `DELETE` find the same rows. -/
theorem mem_staleRows {db : Db} (hok : SourceOk env sourceId db) {discovered : List String}
    {r : MediaRow} : r ∈ staleRows db sourceId discovered ↔
      r ∈ db.media ∧ deletable sourceId discovered r = true := by
  rw [staleRows, List.mem_filter]
  refine and_congr_right fun hr => ?_
  rw [deletable]
  rcases hsource : r.ofSource sourceId with _ | _
  · exact Iff.rfl
  · obtain ⟨id, hid, -⟩ := hok.files r hr hsource
    rw [hid]
    rfl

theorem deletable_iff {discovered : List String} {r : MediaRow} {id : String}
    (hid : r.externalMediaId = some id) : deletable sourceId discovered r = true ↔
      r.ofSource sourceId = true ∧ id ∉ discovered := by
  rw [deletable, hid, Bool.and_eq_true, Bool.or_eq_true, decide_eq_true_eq]
  refine and_congr_right fun _ => ?_
  constructor
  · rintro (rfl | hnot)
    · exact List.not_mem_nil
    · exact of_decide_eq_true hnot
  · exact fun hnot => Or.inr (decide_eq_true hnot)

/-- The row of a file that is left. -/
theorem not_deletable_iff {db : Db} (hok : SourceOk env sourceId db) {discovered : List String}
    {r : MediaRow} (hr : r ∈ db.media) : deletable sourceId discovered r = false ↔
      (r.ofSource sourceId = true → ∃ id ∈ discovered, r.externalMediaId = some id) := by
  rw [← Bool.not_eq_true]
  constructor
  · intro hnot hsource
    obtain ⟨id, hid, -⟩ := hok.files r hr hsource
    rw [deletable_iff hid] at hnot
    exact ⟨id, by_contra fun hout => hnot ⟨hsource, hout⟩, hid⟩
  · intro hleft hdelete
    have hsource : r.ofSource sourceId = true := (Bool.and_eq_true_iff.1 hdelete).1
    obtain ⟨id, hmem, hid⟩ := hleft hsource
    exact ((deletable_iff hid).1 hdelete).2 hmem

namespace Upserted

variable {resourceId : String} {rows : List DriveRow} {db₀ db : Db} {s : State}

/-- The stale rows after the upserts are those that were there before and are not listed. -/
theorem stale_iff (h : Upserted env drive sourceId resourceId db₀ rows db) {scope : Scope}
    {key : String} :
    (∃ r ∈ staleRows db sourceId (rows.map DriveRow.id),
      (∃ c, r.hiddenCopyIdentity = some c ∧ c.text = key) ∧ db.HasItem scope r.id) ↔
    ∃ r ∈ db₀.media, ∃ id, r.ofFile sourceId id = true ∧ id ∉ rows.map DriveRow.id ∧
      (fileIdentity env sourceId id).text = key ∧ db₀.HasItem scope r.id := by
  have hitem : ∀ i, db.HasItem scope i ↔ db₀.HasItem scope i := by
    intro i
    rw [Db.HasItem, Db.HasItem, h.items]
  constructor
  · rintro ⟨r, hr, ⟨c, hc, hkey⟩, hhas⟩
    obtain ⟨hmem, hdelete⟩ := (mem_staleRows h.ok).1 hr
    have hsource : r.ofSource sourceId = true := (Bool.and_eq_true_iff.1 hdelete).1
    obtain ⟨id, hid, -, hidentity⟩ := h.ok.files r hmem hsource
    have hout := ((deletable_iff hid).1 hdelete).2
    rcases h.origin r hmem hsource with ⟨r₀, hr₀, hsource₀, hsame, hext⟩ | ⟨-, row, hrow, hext, -⟩
    · refine ⟨r₀, hr₀, id, ofFile_iff.2 ⟨hsource₀, hext.trans hid⟩, hout, ?_, ?_⟩
      · rw [← hkey, Option.some.inj (hidentity.symm.trans hc)]
      · rw [hsame]
        exact (hitem r.id).1 hhas
    · rw [Option.some.inj (hid.symm.trans hext)] at hout
      exact absurd (List.mem_map_of_mem hrow) hout
  · rintro ⟨r₀, hr₀, id, hfile, hout, hkey, hhas⟩
    obtain ⟨hsource₀, hext₀⟩ := ofFile_iff.1 hfile
    obtain ⟨r, hr, hsame, hsource, hext⟩ := h.kept r₀ hr₀ hsource₀
    have hid := hext.trans hext₀
    obtain ⟨id', hid', -, hidentity⟩ := h.ok.files r hr hsource
    rw [← Option.some.inj (hid.symm.trans hid')] at hidentity
    refine ⟨r, (mem_staleRows h.ok).2 ⟨hr, (deletable_iff hid).2 ⟨hsource, hout⟩⟩,
      ⟨_, hidentity, hkey⟩, ?_⟩
    rw [hsame]
    exact (hitem r₀.id).2 hhas

/-- Keeping the marks of what is no longer listed, and deleting it. -/
theorem synced (h : Upserted env drive sourceId resourceId db₀ rows db)
    (hmedia : s.db.media = db.media) (hitems : s.db.items = db.items)
    (hkeys : ∀ scope key, s.db.HasKey scope key ↔ db.HasKey scope key ∨
      ∃ r ∈ staleRows db sourceId (rows.map DriveRow.id),
        (∃ c, r.hiddenCopyIdentity = some c ∧ c.text = key) ∧ db.HasItem scope r.id) :
    Synced env drive sourceId resourceId rows db₀
      (s.db.deleteRows (deletable sourceId (rows.map DriveRow.id))) := by
  set db' := s.db.deleteRows (deletable sourceId (rows.map DriveRow.id)) with hdb'
  have hleft : ∀ r, r ∈ db'.media ↔ r ∈ db.media ∧
      (r.ofSource sourceId = true → ∃ row ∈ rows, r.externalMediaId = some row.id) := by
    intro r
    rw [hdb', mem_deleteRows, hmedia]
    refine and_congr_right fun hr => ?_
    rw [not_deletable_iff h.ok hr]
    simp only [List.mem_map, exists_exists_and_eq_and]
  have hitemsLeft : ∀ item, item ∈ db'.items ↔
      item ∈ db₀.items ∧ ∃ r ∈ db'.media, r.id = item.mediaItemId := by
    intro item
    rw [← h.items]
    by_cases hitem : item ∈ db.items
    · obtain ⟨r, hr, hid⟩ := h.ok.marks item hitem
      have hrs : r ∈ s.db.media := hmedia ▸ hr
      rw [hdb', mem_items_deleteRows hrs hid, hitems]
      refine and_congr_right fun _ => ⟨fun hnot => ⟨r, mem_deleteRows.2 ⟨hrs, hnot⟩, hid⟩, ?_⟩
      rintro ⟨r', hr', hid'⟩
      obtain ⟨hmem, hnot⟩ := mem_deleteRows.1 hr'
      rw [s.db.row_eq hrs hmem (hid.trans hid'.symm)]
      exact hnot
    · refine iff_of_false (fun hmem => hitem ?_) fun hmem => hitem hmem.1
      rw [← hitems]
      exact (List.mem_filter.1 hmem).1
  refine ⟨⟨?_, ?_, ?_⟩, ?_, ?_, ?_, ?_, ?_, hitemsLeft, ?_⟩
  · exact fun r hr => h.ok.files r ((hleft r).1 hr).1
  · exact fun r hr r' hr' => h.ok.single r ((hleft r).1 hr).1 r' ((hleft r').1 hr').1
  · exact fun item hitem => ((hitemsLeft item).1 hitem).2
  · intro r hsource
    rw [hleft r, ← h.others r hsource]
    refine and_iff_left fun hother => ?_
    rw [hsource] at hother
    cases hother
  · intro row hrow
    obtain ⟨r, hr, hfile⟩ := h.listed row hrow
    exact ⟨r, (hleft r).2 ⟨hr, fun _ => ⟨row, hrow, (ofFile_iff.1 hfile).2⟩⟩, hfile⟩
  · exact fun r hr => ((hleft r).1 hr).2
  · intro r hr row hrow hfile
    obtain ⟨hsource, hext⟩ := ofFile_iff.1 hfile
    obtain ⟨r', hr', hid, hsource', hext'⟩ := h.kept r hr hsource
    exact ⟨r', (hleft r').2 ⟨hr', fun _ => ⟨row, hrow, hext'.trans hext⟩⟩, hid,
      ofFile_iff.2 ⟨hsource', hext'.trans hext⟩⟩
  · exact fun r hr => h.origin r ((hleft r).1 hr).1
  · intro scope key
    rw [hasKey_deleteRows, hkeys scope key, h.stale_iff, Db.HasKey, Db.HasKey, h.keys]

end Upserted

/-- What a sync that commits has made of the library. -/
theorem attempt_spec (hcloud : CloudText env) {lib lib' : Library} {e : Sync}
    (hok : SourceOk env sourceId lib.db) (he : SyncOk env sourceId lib e)
    (h : attempt env drive sourceId lib e = .ok lib') :
    ∃ rows, e.rows = some rows ∧
      Synced env drive sourceId e.resourceId rows lib.db lib'.db := by
  rw [attempt] at h
  rcases hrows : e.rows with _ | rows
  · rw [hrows] at h
    cases h
  rw [hrows] at h
  dsimp only at h
  refine ⟨rows, rfl, ?_⟩
  obtain ⟨hclean, hpaths⟩ := he rows hrows
  rw [syncGoogleDriveLibrarySource] at h
  obtain ⟨upserted, hrun, h⟩ := Except.bind_eq_ok_iff.1 h
  obtain ⟨s₁, hlook₁, h⟩ := Except.bind_eq_ok_iff.1 h
  obtain ⟨s₂, hpreserve, h⟩ := Except.bind_eq_ok_iff.1 h
  obtain ⟨s₃, hlook₃, h⟩ := Except.bind_eq_ok_iff.1 h
  obtain ⟨s₄, hlook₄, h⟩ := Except.bind_eq_ok_iff.1 h
  obtain ⟨s₅, hlook₅, h⟩ := Except.bind_eq_ok_iff.1 h
  cases h
  have hall : Upserted env drive sourceId e.resourceId lib.db ([] ++ rows) upserted.db := by
    refine Upserted.run hcloud ?_ hclean hpaths hrun
    exact .start hok
  rw [List.nil_append] at hall
  have hdb₁ : s₁.db = upserted.db := State.look_eq hlook₁
  have hstale : ∀ r ∈ staleRows s₁.db sourceId (rows.map DriveRow.id),
      r ∈ s₁.db.media ∧ r.ofSource sourceId = true ∧ ∃ c, r.hiddenCopyIdentity = some c := by
    intro r hr
    rw [hdb₁] at hr ⊢
    obtain ⟨hmem, hdelete⟩ := (mem_staleRows hall.ok).1 hr
    have hsource : r.ofSource sourceId = true := (Bool.and_eq_true_iff.1 hdelete).1
    obtain ⟨id, -, -, hidentity⟩ := hall.ok.files r hmem hsource
    exact ⟨hmem, hsource, _, hidentity⟩
  obtain ⟨hmedia, hitems, hkeys⟩ := preserveRows_spec hcloud hstale hpreserve
  rw [hdb₁] at hmedia hitems hkeys
  have hdb₃ := State.look_eq hlook₃
  have hafter := hall.synced hmedia hitems hkeys
  have hdb : s₅.db = s₂.db.deleteRows (deletable sourceId (rows.map DriveRow.id)) := by
    rw [State.look_eq hlook₅, State.look_eq hlook₄, ← hdb₃]
  rw [← hdb] at hafter
  exact hafter

end HiddenKeys
