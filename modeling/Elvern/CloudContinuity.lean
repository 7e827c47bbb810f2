/-
A file that leaves a source of Google Drive and comes back.

What hides the row of a file is its id, its copy identity and its legacy keys.  A sync that finds
the file gone makes the marks of the id into keys of the identity, which the row that comes back
derives again.  Of the legacy keys it makes nothing: the new row has those of its new name.

* `hidden_again_iff` — when what comes back is hidden as before;
* `sync_mirrors_and_remembers` — runs of syncs whose listings are `SyncOk`.
-/
import Elvern.CloudMirror
import Elvern.Runs

namespace HiddenKeys

variable (env : Env) (drive : DriveEnv) (sourceId : ℕ)

/-- One of the legacy keys of the row is hidden at the scope. -/
def Db.LegacyHidden (db : Db) (scope : Scope) (r : MediaRow) : Prop :=
  ∃ key ∈ legacyHiddenKeysForRow env r, db.HasKey scope key

/-- A listing without a file. -/
def Sync.Lacks (e : Sync) (externalMediaId : String) : Prop :=
  ∀ rows, e.rows = some rows → externalMediaId ∉ rows.map DriveRow.id

/-- The syncs of the source. -/
def SyncRun (ok : Library → Sync → Prop) : Library → Library → Prop :=
  Runs.Reach (fun lib e => some (sync env drive sourceId lib e)) ok

/-- The rows of the source are those of the listed files, one for each, and keep their ids; other
rows stay as they are. -/
structure Mirrors (rows : List DriveRow) (db db' : Db) : Prop where
  listed : ∀ row ∈ rows, ∃! r, r ∈ db'.media ∧ r.ofFile sourceId row.id = true
  unlisted : ∀ r ∈ db'.media, r.ofSource sourceId = true →
    ∃ row ∈ rows, r.ofFile sourceId row.id = true
  kept : ∀ r ∈ db.media, ∀ row ∈ rows, r.ofFile sourceId row.id = true →
    ∃ r' ∈ db'.media, r'.id = r.id ∧ r'.ofFile sourceId row.id = true
  others : ∀ r, r.ofSource sourceId = false → (r ∈ db'.media ↔ r ∈ db.media)

/-- A file with a row leaves, is away, and comes back. -/
structure Returns (externalMediaId : String) (r : MediaRow) (lib : Library) (back : Sync)
    (rows : List DriveRow) (r' : MediaRow) (lib' : Library) : Prop where
  row : r ∈ lib.db.media ∧ r.ofFile sourceId externalMediaId = true
  away : ∃ leave gone away, SyncOk env sourceId lib leave ∧ leave.Lacks externalMediaId ∧
    attempt env drive sourceId lib leave = .ok gone ∧
    SyncRun env drive sourceId (fun lib e => SyncOk env sourceId lib e ∧ e.Lacks externalMediaId)
      gone away ∧
    SyncOk env sourceId away back ∧ attempt env drive sourceId away back = .ok lib'
  rows : back.rows = some rows
  row' : r' ∈ lib'.db.media ∧ r'.ofFile sourceId externalMediaId = true

variable {env drive sourceId}

/-! ### Keys -/

/-- The legacy keys come from title, year and file name. -/
theorem legacyHiddenKeys_names {r r' : MediaRow} (h : r.names = r'.names) :
    legacyHiddenKeysForRow env r = legacyHiddenKeysForRow env r' := by
  have htitle : r.title = r'.title := congrArg (fun names => names.1) h
  have hyear : r.year = r'.year := congrArg (fun names => names.2.1) h
  have hname : r.originalFilename = r'.originalFilename := congrArg (fun names => names.2.2) h
  rw [legacyHiddenKeysForRow, legacyHiddenKeysForRow, hiddenMovieKey, hiddenMovieKey,
    hiddenMovieGroupKey, hiddenMovieGroupKey, legacyIdentityMetadata, legacyIdentityMetadata,
    htitle, hyear, hname]

/-- What hides a row with the identity of its file. -/
theorem rowHidden_iff {db : Db} {scope : Scope} {r : MediaRow} {c : CopyIdentity}
    (hc : r.hiddenCopyIdentity = some c) : db.RowHidden env scope r ↔
      (db.HasItem scope r.id ∨ db.HasKey scope c.text) ∨ db.LegacyHidden env scope r := by
  rw [Db.RowHidden, or_assoc]
  refine or_congr_right ?_
  constructor
  · rintro ⟨key, hkey, hhas⟩
    rcases (mem_hiddenKeyCandidates env).1 hkey with ⟨c', hc', rfl⟩ | hlegacy
    · rw [← Option.some.inj (hc.symm.trans hc')] at hhas
      exact Or.inl hhas
    · exact Or.inr ⟨key, hlegacy, hhas⟩
  · rintro (hhas | ⟨key, hlegacy, hhas⟩)
    · exact ⟨c.text, (mem_hiddenKeyCandidates env).2 (Or.inl ⟨c, hc, rfl⟩), hhas⟩
    · exact ⟨key, (mem_hiddenKeyCandidates env).2 (Or.inr hlegacy), hhas⟩

/-- Identities of different files are different. -/
def DigestsDiffer (env : Env) (sourceId : ℕ) : Prop :=
  ∀ id id', fileIdentity env sourceId id = fileIdentity env sourceId id' → id = id'

namespace Synced

variable {resourceId : String} {rows : List DriveRow} {db db' : Db}

theorem mirrors (h : Synced env drive sourceId resourceId rows db db') :
    Mirrors sourceId rows db db' where
  listed := by
    intro row hrow
    obtain ⟨r, hr, hfile⟩ := h.listed row hrow
    refine ⟨r, ⟨hr, hfile⟩, ?_⟩
    rintro r' ⟨hr', hfile'⟩
    obtain ⟨hsource, hext⟩ := ofFile_iff.1 hfile
    obtain ⟨hsource', hext'⟩ := ofFile_iff.1 hfile'
    exact h.ok.single r' hr' r hr hsource' hsource (hext'.trans hext.symm)
  unlisted := by
    intro r hr hsource
    obtain ⟨row, hrow, hext⟩ := h.unlisted r hr hsource
    exact ⟨row, hrow, ofFile_iff.2 ⟨hsource, hext⟩⟩
  kept := h.kept
  others := h.others

/-- A sync makes no legacy keys, -/
theorem hasKey_legacy (h : Synced env drive sourceId resourceId rows db db') {scope : Scope}
    {key : String} (hkey : isCopyKey key = false) : db'.HasKey scope key ↔ db.HasKey scope key := by
  rw [h.keys]
  refine or_iff_left ?_
  rintro ⟨r, -, id, -, -, rfl, -⟩
  rw [(fileIdentity env sourceId id).isCopyKey_text] at hkey
  cases hkey

theorem legacyHidden_iff (h : Synced env drive sourceId resourceId rows db db') {scope : Scope}
    {r : MediaRow} : db'.LegacyHidden env scope r ↔ db.LegacyHidden env scope r :=
  exists_congr fun _ => and_congr_right fun hkey =>
    h.hasKey_legacy (not_isCopyKey_of_mem_legacy env hkey)

/-- and keys of the identity of a file only if that leaves. -/
theorem hasKey_file (h : Synced env drive sourceId resourceId rows db db')
    (hdigest : DigestsDiffer env sourceId) {scope : Scope} {id : String} :
    db'.HasKey scope (fileIdentity env sourceId id).text ↔
      db.HasKey scope (fileIdentity env sourceId id).text ∨
        ∃ r ∈ db.media, r.ofFile sourceId id = true ∧ id ∉ rows.map DriveRow.id ∧
          db.HasItem scope r.id := by
  rw [h.keys]
  refine or_congr_right ⟨?_, ?_⟩
  · rintro ⟨r, hr, id', hfile, hout, htext, hhas⟩
    cases hdigest id' id (CopyIdentity.ext htext)
    exact ⟨r, hr, hfile, hout, hhas⟩
  · rintro ⟨r, hr, hfile, hout, hhas⟩
    exact ⟨r, hr, id, hfile, hout, rfl, hhas⟩

theorem no_row (h : Synced env drive sourceId resourceId rows db db') {id : String}
    (hout : id ∉ rows.map DriveRow.id) : ∀ r ∈ db'.media, r.ofFile sourceId id = false := by
  intro r hr
  rw [Bool.eq_false_iff]
  intro hfile
  obtain ⟨hsource, hext⟩ := ofFile_iff.1 hfile
  obtain ⟨row, hrow, hext'⟩ := h.unlisted r hr hsource
  rw [Option.some.inj (hext.symm.trans hext')] at hout
  exact hout (List.mem_map_of_mem hrow)

end Synced

/-! ### Runs -/

theorem sync_eq_of_error {lib : Library} {e : Sync} {err : DbError}
    (h : attempt env drive sourceId lib e = .error err) : sync env drive sourceId lib e = lib := by
  rw [sync, h]

/-- A sync commits, or it changes nothing. -/
theorem sync_cases (hcloud : CloudText env) {lib : Library} {e : Sync}
    (hok : SourceOk env sourceId lib.db) (he : SyncOk env sourceId lib e) :
    (∃ rows, e.rows = some rows ∧ Synced env drive sourceId e.resourceId rows lib.db
        (sync env drive sourceId lib e).db) ∨
      sync env drive sourceId lib e = lib := by
  rcases h : attempt env drive sourceId lib e with err | lib'
  · exact Or.inr (sync_eq_of_error h)
  · rw [sync, h]
    exact Or.inl (attempt_spec hcloud hok he h)

theorem sourceOk_run (hcloud : CloudText env) {start lib : Library}
    (hstart : SourceOk env sourceId start.db)
    (hrun : SyncRun env drive sourceId (SyncOk env sourceId) start lib) :
    SourceOk env sourceId lib.db := by
  refine Runs.Reach.invariant (P := fun lib => SourceOk env sourceId lib.db) hstart ?_ hrun
  intro lib e lib' _ hok he hstep
  cases Option.some.inj hstep
  rcases @sync_cases env drive sourceId hcloud lib e hok he with ⟨rows, -, hsynced⟩ | hsame
  · exact hsynced.ok
  · rw [hsame]
    exact hok

/-- What stays as it is while a file is away. -/
structure Away (env : Env) (sourceId : ℕ) (externalMediaId : String) (db db' : Db) : Prop where
  ok : SourceOk env sourceId db'
  no_row : ∀ r ∈ db'.media, r.ofFile sourceId externalMediaId = false
  key : ∀ scope, db'.HasKey scope (fileIdentity env sourceId externalMediaId).text ↔
    db.HasKey scope (fileIdentity env sourceId externalMediaId).text
  legacy : ∀ scope r, db'.LegacyHidden env scope r ↔ db.LegacyHidden env scope r

theorem away_run (hcloud : CloudText env) (hdigest : DigestsDiffer env sourceId) {id : String}
    {gone away : Library} (hok : SourceOk env sourceId gone.db)
    (hno : ∀ r ∈ gone.db.media, r.ofFile sourceId id = false)
    (hrun : SyncRun env drive sourceId (fun lib e => SyncOk env sourceId lib e ∧ e.Lacks id)
      gone away) :
    Away env sourceId id gone.db away.db := by
  refine Runs.Reach.invariant (P := fun lib => Away env sourceId id gone.db lib.db)
    ⟨hok, hno, fun _ => Iff.rfl, fun _ _ => Iff.rfl⟩ ?_ hrun
  rintro lib e lib' - haway ⟨he, hlacks⟩ hstep
  cases Option.some.inj hstep
  rcases @sync_cases env drive sourceId hcloud lib e haway.ok he with ⟨rows, hrows, hsynced⟩ | hsame
  · refine ⟨hsynced.ok, hsynced.no_row (hlacks rows hrows), fun scope => ?_, fun scope r => ?_⟩
    · rw [hsynced.hasKey_file hdigest, ← haway.key scope]
      refine or_iff_left ?_
      rintro ⟨r, hr, hfile, -⟩
      rw [haway.no_row r hr] at hfile
      cases hfile
    · rw [hsynced.legacyHidden_iff, haway.legacy scope r]
  · rw [hsame]
    exact haway

/-- A file that comes back is hidden as it was exactly if its id or its identity was hidden, or its
legacy keys are hidden under its new name as they were under the old one. -/
theorem hidden_again_iff (hcloud : CloudText env) (hdigest : DigestsDiffer env sourceId)
    {lib lib' : Library} {back : Sync} {rows : List DriveRow} {r r' : MediaRow} {id : String}
    (hok : SourceOk env sourceId lib.db)
    (h : Returns env drive sourceId id r lib back rows r' lib') (scope : Scope) :
    (lib'.db.RowHidden env scope r' ↔ lib.db.RowHidden env scope r) ↔
      lib.db.HasItem scope r.id ∨ lib.db.HasKey scope (fileIdentity env sourceId id).text ∨
        (lib.db.LegacyHidden env scope
            (listedAs env drive sourceId back.resourceId rows id) ↔
          lib.db.LegacyHidden env scope r) := by
  obtain ⟨⟨hr, hfile⟩, ⟨leave, gone, away, hleave, hlacks, hgone, hrun, hback, hreturn⟩, hrows,
    hr', hfile'⟩ := h
  obtain ⟨hsource, hext⟩ := ofFile_iff.1 hfile
  obtain ⟨hsource', hext'⟩ := ofFile_iff.1 hfile'
  -- leaving
  obtain ⟨rowsGone, hrowsGone, hleft⟩ := attempt_spec hcloud hok hleave hgone
  have hout := hlacks rowsGone hrowsGone
  have haway := away_run hcloud hdigest hleft.ok (hleft.no_row hout) hrun
  -- coming back
  obtain ⟨rowsBack, hrowsBack, hreturned⟩ := attempt_spec hcloud haway.ok hback hreturn
  cases Option.some.inj (hrows.symm.trans hrowsBack)
  have hnew : (∀ q ∈ away.db.media, q.id ≠ r'.id) ∧
      r'.names = (listedAs env drive sourceId back.resourceId rows id).names := by
    rcases hreturned.origin r' hr' hsource' with ⟨q, hq, hqsource, -, hqext⟩ |
      ⟨hfresh, row, -, hrowExt, hnames⟩
    · have hnot := haway.no_row q hq
      rw [ofFile_iff.2 ⟨hqsource, hqext.trans hext'⟩] at hnot
      cases hnot
    · rw [← Option.some.inj (hext'.symm.trans hrowExt)] at hnames
      exact ⟨hfresh, hnames⟩
  have hitem : ¬lib'.db.HasItem scope r'.id := by
    rintro ⟨item, hitem, -, hid⟩
    obtain ⟨q, hq, hqid⟩ := haway.ok.marks item ((hreturned.items item).1 hitem).1
    exact hnew.1 q hq (hqid.trans hid)
  have hkey : lib'.db.HasKey scope (fileIdentity env sourceId id).text ↔
      lib.db.HasItem scope r.id ∨ lib.db.HasKey scope (fileIdentity env sourceId id).text := by
    rw [hreturned.hasKey_file hdigest, haway.key scope, hleft.hasKey_file hdigest]
    constructor
    · rintro ((hkey | ⟨q, hq, hqfile, -, hhas⟩) | ⟨q, hq, hqfile, -⟩)
      · exact Or.inr hkey
      · obtain ⟨hqsource, hqext⟩ := ofFile_iff.1 hqfile
        rw [hok.single q hq r hr hqsource hsource (hqext.trans hext.symm)] at hhas
        exact Or.inl hhas
      · rw [haway.no_row q hq] at hqfile
        cases hqfile
    · rintro (hhas | hkey)
      · exact Or.inl (Or.inr ⟨r, hr, hfile, hout, hhas⟩)
      · exact Or.inl (Or.inl hkey)
  have hlegacy : lib'.db.LegacyHidden env scope r' ↔ lib.db.LegacyHidden env scope
      (listedAs env drive sourceId back.resourceId rows id) := by
    rw [hreturned.legacyHidden_iff, haway.legacy, hleft.legacyHidden_iff, Db.LegacyHidden,
      legacyHiddenKeys_names hnew.2]
    rfl
  have hidentity : ∀ {db : Db} {q : MediaRow}, SourceOk env sourceId db → q ∈ db.media →
      q.ofFile sourceId id = true →
        q.hiddenCopyIdentity = some (fileIdentity env sourceId id) := by
    intro db q hdb hq hqfile
    obtain ⟨hqsource, hqext⟩ := ofFile_iff.1 hqfile
    obtain ⟨id', hid', -, hidentity⟩ := hdb.files q hq hqsource
    rw [Option.some.inj (hqext.symm.trans hid')]
    exact hidentity
  rw [rowHidden_iff (hidentity hreturned.ok hr' hfile'), rowHidden_iff (hidentity hok hr hfile),
    hkey, hlegacy, or_iff_right hitem, ← or_assoc (c := _ ↔ _)]
  by_cases hmarked : lib.db.HasItem scope r.id ∨
      lib.db.HasKey scope (fileIdentity env sourceId id).text
  · exact iff_of_true (iff_of_true (Or.inl hmarked) (Or.inl hmarked)) (Or.inl hmarked)
  · rw [or_iff_right hmarked, or_iff_right hmarked, or_iff_right hmarked]

/-- In a run of syncs whose listings have clean ids and leave the paths of new files free, a sync
that commits mirrors its listing, one that fails changes nothing, and a file that comes back is
hidden as before exactly where its legacy keys do not decide it or decide it as before. -/
theorem sync_mirrors_and_remembers (env : Env) (drive : DriveEnv) (sourceId : ℕ)
    (hcloud : CloudText env) (hdigest : DigestsDiffer env sourceId) (start lib : Library)
    (hstart : SourceOk env sourceId start.db)
    (hrun : SyncRun env drive sourceId (SyncOk env sourceId) start lib) :
    (∀ e lib', SyncOk env sourceId lib e → attempt env drive sourceId lib e = .ok lib' →
      sync env drive sourceId lib e = lib' ∧
        ∃ rows, e.rows = some rows ∧ Mirrors sourceId rows lib.db lib'.db) ∧
    (∀ e err, attempt env drive sourceId lib e = .error err →
      sync env drive sourceId lib e = lib) ∧
    ∀ id r back rows r' lib', Returns env drive sourceId id r lib back rows r' lib' → ∀ scope,
      ((lib'.db.RowHidden env scope r' ↔ lib.db.RowHidden env scope r) ↔
        lib.db.HasItem scope r.id ∨ lib.db.HasKey scope (fileIdentity env sourceId id).text ∨
          (lib.db.LegacyHidden env scope
              (listedAs env drive sourceId back.resourceId rows id) ↔
            lib.db.LegacyHidden env scope r)) := by
  have hok := sourceOk_run hcloud hstart hrun
  refine ⟨fun e lib' he hattempt => ?_, fun e err => sync_eq_of_error, ?_⟩
  · obtain ⟨rows, hrows, hsynced⟩ := attempt_spec hcloud hok he hattempt
    rw [sync, hattempt]
    exact ⟨rfl, rows, hrows, hsynced.mirrors⟩
  · intro id r back rows r' lib' hreturns scope
    exact hidden_again_iff hcloud hdigest hok hreturns scope

/-! ### A film that is renamed while it is away -/

/-- Titles end before a bracket, which the year follows, and digests are the ids. -/
def filmEnv : Env :=
  { cloudEnv with
    resolveTitleMetadata := fun title _ _ =>
      (some (String.ofList ((title.toList.takeWhile (· ≠ '(')).reverse.dropWhile
        (· = ' ')).reverse), some "standard")
    derivedDigest := fun material =>
      match material with
      | .cloudExternalId _ externalMediaId => copyIdentity externalMediaId
      | _ => copyIdentity "" }

def filmDrive : DriveEnv where
  inferYear := fun text =>
    let digits := ((text.toList.dropWhile (· ≠ '(')).drop 1).takeWhile Char.isDigit
    if digits = [] then none else some (digits.foldl (fun n c => 10 * n + (c.toNat - 48)) 0)
  collapse := fun _ _ db => db

def filmRow : MediaRow :=
  ⟨1, "Up (2009)", some 2009, "Up (2009).mkv", "gdrive://films/abc/Up (2009).mkv", "cloud", some 3,
    some "abc", none, some (copyIdentity "abc")⟩

/-- A library with the film, and what hides it. -/
def filmLibrary (items : List HiddenItem) (keys : List HiddenKey) : Library where
  state := ⟨⟨[filmRow], items, keys, [], by decide⟩, 0⟩
  sequence := 1

def leave : Sync := ⟨0, "films", some []⟩

def renamedFile : DriveRow := ⟨"abc", some "Oben (2009).mkv", none⟩

def back : Sync := ⟨0, "films", some [renamedFile]⟩

theorem filmEnv_cloud : CloudText filmEnv := by
  show PyText.lower filmEnv.uni (PyText.strip filmEnv.uni "cloud") = "cloud"
  decide +kernel

theorem filmEnv_digests : DigestsDiffer filmEnv 3 := by
  intro id id' h
  have htext : hiddenCopyIdentityPrefix ++ id = hiddenCopyIdentityPrefix ++ id' :=
    congrArg CopyIdentity.text h
  rw [← String.toList_inj, String.toList_append, String.toList_append] at htext
  exact String.toList_inj.1 (List.append_cancel_left htext)

theorem cleanId_abc : CleanId filmEnv "abc" := ⟨by decide +kernel, by decide⟩

theorem filmLibrary_ok {items : List HiddenItem} {keys : List HiddenKey}
    (hitems : ∀ item ∈ items, item.mediaItemId = 1) :
    SourceOk filmEnv 3 (filmLibrary items keys).db where
  files := by
    intro r hr _
    rw [List.mem_singleton.1 hr]
    exact ⟨"abc", rfl, cleanId_abc, rfl⟩
  single := by
    intro r hr r' hr' _ _ _
    rw [List.mem_singleton.1 hr, List.mem_singleton.1 hr']
  marks := fun item hitem => ⟨filmRow, List.mem_singleton_self _, (hitems item hitem).symm⟩

theorem leave_ok (lib : Library) : SyncOk filmEnv 3 lib leave := by
  intro rows hrows
  cases Option.some.inj hrows
  refine ⟨fun row hrow => (by cases hrow), fun done row rest hsplit => ?_⟩
  exact absurd hsplit.symm (List.append_ne_nil_of_right_ne_nil _ (List.cons_ne_nil _ _))

theorem leave_lacks (externalMediaId : String) : leave.Lacks externalMediaId := by
  intro rows hrows
  cases Option.some.inj hrows
  exact List.not_mem_nil

/-- A file that is listed alone finds its path free, where no row has it. -/
theorem back_ok {lib : Library} (hmedia : lib.db.media = []) : SyncOk filmEnv 3 lib back := by
  intro rows hrows
  cases Option.some.inj hrows
  refine ⟨fun row hrow => ?_, fun done row rest hsplit _ _ =>
    ⟨fun r hr => ?_, fun row' hrow' => ?_⟩⟩
  · rw [List.mem_singleton.1 hrow]
    exact cleanId_abc
  · rw [hmedia] at hr
    cases hr
  · rcases done with _ | ⟨first, done⟩
    · cases hrow'
    · have hnil := (List.cons.inj hsplit).2
      exact absurd hnil.symm (List.append_ne_nil_of_right_ne_nil _ (List.cons_ne_nil _ _))

/-- The record that user 7 has hidden the film by its legacy key. -/
def filmKey : HiddenKey :=
  ⟨.user 7, "up|2009|standard", "Up", 2009, "standard", some 1, 7, "2025-05-05T00:00:00+00:00"⟩

/-- The record that user 7 has hidden the item. -/
def filmMark : HiddenItem := ⟨.user 7, 1, 7, "2025-05-05T00:00:00+00:00"⟩

/-- A film that a legacy key hides is shown again when it comes back with another name. -/
theorem renamed_film_shown : ∃ r' lib',
    SourceOk filmEnv 3 (filmLibrary [] [filmKey]).db ∧
      Returns filmEnv filmDrive 3 "abc" filmRow (filmLibrary [] [filmKey]) back [renamedFile] r'
        lib' ∧
      (filmLibrary [] [filmKey]).db.RowHidden filmEnv (.user 7) filmRow ∧
      ¬lib'.db.RowHidden filmEnv (.user 7) r' := by
  refine ⟨_, _, filmLibrary_ok (fun item hitem => (by cases hitem)),
    ⟨⟨List.mem_singleton_self _, by decide +kernel⟩,
      ⟨leave, _, _, leave_ok _, leave_lacks _, rfl, .start, back_ok rfl, rfl⟩, rfl,
      ⟨List.mem_singleton_self _, ?_⟩⟩, ?_, ?_⟩
  · decide +kernel
  · decide +kernel
  · decide +kernel

/-- A film that is hidden by its id stays hidden. -/
theorem sync_mirrors_and_remembers_film : ∃ r' lib',
    Returns filmEnv filmDrive 3 "abc" filmRow (filmLibrary [filmMark] []) back [renamedFile] r'
        lib' ∧
      lib'.db.RowHidden filmEnv (.user 7) r' := by
  have hok : SourceOk filmEnv 3 (filmLibrary [filmMark] []).db :=
    filmLibrary_ok fun item hitem => by rw [List.mem_singleton.1 hitem]; rfl
  obtain ⟨r', lib', hreturns⟩ : ∃ r' lib', Returns filmEnv filmDrive 3 "abc" filmRow
      (filmLibrary [filmMark] []) back [renamedFile] r' lib' :=
    ⟨_, _, ⟨List.mem_singleton_self _, by decide +kernel⟩,
      ⟨leave, _, _, leave_ok _, leave_lacks _, rfl, .start, back_ok rfl, rfl⟩, rfl,
      ⟨List.mem_singleton_self _, by decide +kernel⟩⟩
  obtain ⟨-, -, hcontinuity⟩ := sync_mirrors_and_remembers filmEnv filmDrive 3 filmEnv_cloud
    filmEnv_digests (filmLibrary [filmMark] []) (filmLibrary [filmMark] []) hok .start
  have hitem : (filmLibrary [filmMark] []).db.HasItem (.user 7) filmRow.id :=
    ⟨filmMark, List.mem_singleton_self _, rfl, rfl⟩
  have hsame := (hcontinuity _ _ _ _ _ _ hreturns (.user 7)).2 (Or.inl hitem)
  exact ⟨r', lib', hreturns, hsame.2 (Or.inl hitem)⟩

end HiddenKeys
