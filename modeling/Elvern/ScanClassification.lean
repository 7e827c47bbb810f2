/-
What the classification of a scan comes to.

The loop over the files writes identities and aliases while it looks aliases up. None of this
counts: each file and each row is judged as if all look-ups had been made at the start.

* `stableAt`, `Stays` — a row whose file is where and as it was;
* `MayBe`, `Matched` — the rows that a file may have been, and the only one;
* `Grown` — what the loop may have written so far;
* `classify_spec` — the records say what the database said at the start;
* `RecordsOk.mem_removableRows` — a row goes if it neither stays nor is matched.
-/
import Mathlib.Data.List.Nodup
import Mathlib.Data.List.Forall2
import Elvern.MediaScan

namespace MediaScan

/-! ### The judgement -/

section Judgement

variable (aliases : List Alias)

/-- The identity of the row, if it has one, is known at the place of the file. -/
def identityConfirmed (row : MediaItem) (file : ScannedFile) : Bool :=
  match row.hiddenCopyIdentity with
  | none => true
  | some identity =>
    decide (identity ∈ findLocalCopyIdentityCandidates aliases row.source file .inPlace ∨
      identity ∈ findLocalCopyIdentityCandidates aliases row.source file .sampledInPlace)

/-- The file of the row is where it was, and unchanged. -/
def stableAt (row : MediaItem) (file : ScannedFile) : Bool :=
  decide (row.filePath = .disk file.path) && statUnchanged row file &&
    scanMetadataMatches row.folder file.folder && identityConfirmed aliases row file

/-- A row without identity whose file is as it was, in a folder that is not. -/
def upgradedAt (row : MediaItem) (file : ScannedFile) : Bool :=
  decide (row.filePath = .disk file.path) && statUnchanged row file &&
    !scanMetadataMatches row.folder file.folder && row.hiddenCopyIdentity.isNone

variable (rows : List MediaItem) (shared : ℕ) (files : List ScannedFile)

/-- The scan finds the row stable. -/
def Stays (row : MediaItem) : Prop := ∃ file ∈ files, stableAt aliases row file = true

/-- No row is stable at the file. -/
def Unsettled (file : ScannedFile) : Prop := ∀ row ∈ rows, stableAt aliases row file = false

/-- The file may be what the row was: the row is upgraded in place, or no row is and it has been
displaced with a known sample of the content. -/
def MayBe (file : ScannedFile) (row : MediaItem) : Prop :=
  Unsettled aliases rows file ∧ row ∈ rows ∧
    (upgradedAt row file = true ∨
      (∀ r ∈ rows, upgradedAt r file = false) ∧ ¬ Stays aliases files row ∧
        ∃ identity, row.hiddenCopyIdentity = some identity ∧
          identity ∈ findLocalCopyIdentityCandidates aliases shared file .anywhere)

/-- The file can have been this row only, and the row this file only. -/
def Matched (file : ScannedFile) (row : MediaItem) : Prop :=
  MayBe aliases rows shared files file row ∧
    (∀ row', MayBe aliases rows shared files file row' → row' = row) ∧
    ∀ file' ∈ files, MayBe aliases rows shared files file' row → file'.path = file.path

end Judgement

/-- Ids, paths and identities are those of one row each, and the next id is new. -/
structure Db.Sound (db : Db) : Prop where
  ids : (db.items.map (·.id)).Nodup
  paths : (db.items.map (·.filePath)).Nodup
  identities : ∀ row ∈ db.items, ∀ row' ∈ db.items, ∀ identity,
    row.hiddenCopyIdentity = some identity → row'.hiddenCopyIdentity = some identity → row = row'
  nextId : ∀ row ∈ db.items, row.id < db.nextId

/-- On a fixed disk, what is at a path does not change. -/
def FixedDisk (files : List ScannedFile) : Prop :=
  ∀ f ∈ files, ∀ g ∈ files, f.path = g.path → f.stat = g.stat ∧ f.sample = g.sample

/-! ### What the loop writes -/

/-- The same row, with an identity where it had none. -/
def Filled (row row' : MediaItem) : Prop :=
  row' = { row with hiddenCopyIdentity := row'.hiddenCopyIdentity } ∧
    ∀ identity, row.hiddenCopyIdentity = some identity → row'.hiddenCopyIdentity = some identity

theorem Filled.refl (row : MediaItem) : Filled row row := ⟨rfl, fun _ h => h⟩

theorem Filled.id_eq {row row' : MediaItem} (h : Filled row row') : row'.id = row.id := by
  rw [h.1]

/-- What the database may have become while the loop runs: rows have gained identities, and
aliases have been added, of rows that stay or of identities that no row had. -/
structure Grown (stays : MediaItem → Prop) (db₀ db : Db) : Prop where
  items : List.Forall₂ Filled db₀.items db.items
  old : ∀ a ∈ db₀.aliases, a ∈ db.aliases
  new : ∀ a ∈ db.aliases, a ∈ db₀.aliases ∨
    (∃ row ∈ db₀.items, row.hiddenCopyIdentity = some a.identity ∧ stays row) ∨
    ∀ row ∈ db₀.items, row.hiddenCopyIdentity ≠ some a.identity
  nextId : db.nextId = db₀.nextId
  subtitles : db.subtitles = db₀.subtitles
  catalogRevision : db.catalogRevision = db₀.catalogRevision

theorem forall₂_filled_refl : ∀ items : List MediaItem, List.Forall₂ Filled items items
  | [] => .nil
  | row :: rest => .cons (.refl row) (forall₂_filled_refl rest)

theorem mem_of_forall₂ {α β : Type} {R : α → β → Prop} {xs : List α} {ys : List β}
    (h : List.Forall₂ R xs ys) {x : α} (hx : x ∈ xs) : ∃ y ∈ ys, R x y := by
  induction h with
  | nil => cases hx
  | cons hr _ ih =>
    rcases List.mem_cons.1 hx with rfl | hx
    · exact ⟨_, List.mem_cons_self .., hr⟩
    · obtain ⟨y, hy, hxy⟩ := ih hx
      exact ⟨y, List.mem_cons_of_mem _ hy, hxy⟩

theorem Db.Sound.eq_of_id {db : Db} (h : db.Sound) {row row' : MediaItem} (hrow : row ∈ db.items)
    (hrow' : row' ∈ db.items) (hid : row.id = row'.id) : row = row' :=
  List.inj_on_of_nodup_map h.ids hrow hrow' hid

theorem Db.Sound.eq_of_path {db : Db} (h : db.Sound) {row row' : MediaItem} (hrow : row ∈ db.items)
    (hrow' : row' ∈ db.items) (hpath : row.filePath = row'.filePath) : row = row' :=
  List.inj_on_of_nodup_map h.paths hrow hrow' hpath

/-- A new identity is above those in the tables. -/
theorem lt_newHiddenCopyIdentity {db : Db} {identity : ℕ}
    (h : identity ∈ db.items.filterMap (·.hiddenCopyIdentity) ++ db.aliases.map (·.identity)) :
    identity < db.newHiddenCopyIdentity := by
  have hle : ∀ {xs : List ℕ} {x : ℕ}, x ∈ xs → x ≤ xs.foldr max 0 := by
    intro xs x hx
    induction xs with
    | nil => cases hx
    | cons y ys ih =>
      rw [List.foldr_cons]
      rcases List.mem_cons.1 hx with rfl | hx
      · exact le_max_left _ _
      · exact (ih hx).trans (le_max_right _ _)
  exact Nat.lt_succ_of_le (hle h)

theorem newHiddenCopyIdentity_ne {db : Db} {row : MediaItem} (hrow : row ∈ db.items) :
    row.hiddenCopyIdentity ≠ some db.newHiddenCopyIdentity := by
  intro heq
  exact absurd (lt_newHiddenCopyIdentity
    (List.mem_append_left _ (List.mem_filterMap.2 ⟨row, hrow, heq⟩))) (lt_irrefl _)

section Loop

variable {db₀ db : Db} {stays : MediaItem → Prop} {row : MediaItem} {file : ScannedFile}
  {sampled : Bool}

theorem Grown.refl : Grown stays db₀ db₀ :=
  ⟨forall₂_filled_refl _, fun _ h => h, fun _ h => Or.inl h, rfl, rfl, rfl⟩

/-- Aliases of the identity of a row that stays, or of no row, may be recorded. -/
theorem Grown.record (h : Grown stays db₀ db) {identity : ℕ}
    (hidentity : (∃ r ∈ db₀.items, r.hiddenCopyIdentity = some identity ∧ stays r) ∨
      ∀ r ∈ db₀.items, r.hiddenCopyIdentity ≠ some identity) (source : ℕ) :
    Grown stays db₀ { db with aliases :=
      recordLocalCopyIdentityAliases db.aliases source file identity sampled } where
  items := h.items
  old a ha := mem_recordAliases.2 (Or.inl (h.old a ha))
  new a ha := by
    rcases mem_recordAliases.1 ha with ha | ⟨e, -, rfl⟩
    · exact h.new a ha
    · exact Or.inr hidentity
  nextId := h.nextId
  subtitles := h.subtitles
  catalogRevision := h.catalogRevision

/-- A row without identity may be given one. -/
theorem Grown.setIdentity (h : Grown stays db₀ db) (hsound : db₀.Sound) (hrow : row ∈ db₀.items)
    (hnone : row.hiddenCopyIdentity = none) (identity : ℕ) :
    Grown stays db₀ (db.setIdentity row.id identity) where
  items := by
    -- rows that had an identity keep it, as their id is another
    have key : ∀ {xs ys : List MediaItem}, List.Forall₂ Filled xs ys →
        (∀ r ∈ xs, r ∈ db₀.items) →
        List.Forall₂ Filled xs (ys.map fun r =>
          if r.id = row.id then { r with hiddenCopyIdentity := some identity } else r) := by
      intro xs ys hxy
      induction hxy with
      | nil => exact fun _ => .nil
      | @cons r r' _ _ hr _ ih =>
        intro hmem
        refine .cons ?_ (ih fun q hq => hmem q (List.mem_cons_of_mem _ hq))
        beta_reduce
        split_ifs with hid
        · have heq : r = row :=
            hsound.eq_of_id (hmem r (List.mem_cons_self ..)) hrow (hr.id_eq.symm.trans hid)
          refine ⟨?_, fun c hc => ?_⟩
          · conv_lhs => rw [hr.1]
          · rw [heq, hnone] at hc
            cases hc
        · exact hr
    exact key h.items fun _ hr => hr
  old := h.old
  new := h.new
  nextId := h.nextId
  subtitles := h.subtitles
  catalogRevision := h.catalogRevision

/-- An identity that no other row of the grown database has was that of no row. -/
theorem Grown.unowned (h : Grown stays db₀ db) (hsound : db₀.Sound) (hrow : row ∈ db₀.items)
    (hnone : row.hiddenCopyIdentity = none) {identity : ℕ}
    (howner : ∀ r ∈ db.items, r.hiddenCopyIdentity = some identity → r.id = row.id) :
    ∀ r ∈ db₀.items, r.hiddenCopyIdentity ≠ some identity := by
  intro r hr heq
  obtain ⟨r', hr', hfilled⟩ := mem_of_forall₂ h.items hr
  have hid : r'.id = row.id := howner r' hr' (hfilled.2 identity heq)
  have hsame : r = row := hsound.eq_of_id hr hrow (hfilled.id_eq.symm.trans hid)
  rw [hsame, hnone] at heq
  cases heq

/-- The identity of a row that stays is resolved. -/
theorem Grown.resolve (h : Grown stays db₀ db) (hsound : db₀.Sound) (hrow : row ∈ db₀.items)
    (hstays : stays row) : Grown stays db₀ (db.resolveHiddenCopyIdentity row file sampled []) := by
  rw [Db.resolveHiddenCopyIdentity]
  split
  · next identity hidentity => exact h.record (Or.inl ⟨row, hrow, hidentity, hstays⟩) _
  · next hnone =>
    simp only
    refine (h.setIdentity hsound hrow hnone _).record (Or.inr ?_) row.source
    split
    · next identity hcandidates =>
      refine h.unowned hsound hrow hnone fun r hr hidentity => ?_
      -- the filter has left the identities that no other row has
      have hmem : identity ∈ (findLocalCopyIdentityCandidates db.aliases row.source file
          ⟨true, sampled, false⟩).filter fun identity =>
            !db.activeIdentityOwner identity row.id && decide (identity ∉ ([] : List ℕ)) := by
        rw [hcandidates]
        exact List.mem_singleton_self _
      have howner := (List.mem_filter.1 hmem).2
      rw [Bool.and_eq_true, Bool.not_eq_true', Db.activeIdentityOwner, List.any_eq_false] at howner
      have hr := howner.1 r hr
      rw [decide_eq_true_eq, not_and, not_not] at hr
      exact hr hidentity
    · exact h.unowned hsound hrow hnone fun r hr hidentity =>
        absurd hidentity (newHiddenCopyIdentity_ne hr)

end Loop

/-! ### The records -/

section Records

variable {db₀ db : Db} {shared : ℕ} {files : List ScannedFile} {file : ScannedFile}
  {row : MediaItem}

theorem mem_existingRows : row ∈ db.existingRows ↔ row ∈ db.items ∧ row.isLocal = true := by
  rw [Db.existingRows, List.mem_filter]

/-- What is known at a place depends on what is there. -/
theorem identityConfirmed_congr {aliases : List Alias} {f g : ScannedFile} (hpath : f.path = g.path)
    (hstat : f.stat = g.stat) (hsample : f.sample = g.sample) :
    identityConfirmed aliases row f = identityConfirmed aliases row g := by
  have hfind : ∀ lookup, findLocalCopyIdentityCandidates aliases row.source f lookup =
      findLocalCopyIdentityCandidates aliases row.source g lookup := by
    intro lookup
    simp only [findLocalCopyIdentityCandidates, matchingAliases, localCopyEvidenceHashes, hpath,
      hstat, hsample]
  rw [identityConfirmed, identityConfirmed, hfind, hfind]

/-- Where an identity is a candidate now but was none at the start, it is the identity of a row
that stays, or of no row. -/
theorem Grown.candidate (h : Grown (Stays db₀.aliases files) db₀ db) (hsound : db₀.Sound)
    (hrow : row ∈ db₀.items) {identity : ℕ} (hidentity : row.hiddenCopyIdentity = some identity)
    {source : ℕ} {lookup : Lookup}
    (hnow : identity ∈ findLocalCopyIdentityCandidates db.aliases source file lookup) :
    Stays db₀.aliases files row ∨
      identity ∈ findLocalCopyIdentityCandidates db₀.aliases source file lookup := by
  by_cases hstays : Stays db₀.aliases files row
  · exact Or.inl hstays
  · refine Or.inr (mem_findCandidates_mono (fun a ha hid => ?_) hnow)
    rcases h.new a ha with hold | ⟨r, hr, hrid, hrs⟩ | hnone
    · exact hold
    · rw [hid] at hrid
      rw [hsound.identities r hr row hrow identity hrid hidentity] at hrs
      exact absurd hrs hstays
    · rw [hid] at hnone
      exact absurd hidentity (hnone row hrow)

/-- The look-ups in the grown database confirm what was confirmed at the start. -/
theorem Grown.confirmed (h : Grown (Stays db₀.aliases files) db₀ db) (hsound : db₀.Sound)
    (hdisk : FixedDisk files) (hrow : row ∈ db₀.items) (hfile : file ∈ files)
    (hpath : row.filePath = .disk file.path) :
    identityConfirmed db.aliases row file = identityConfirmed db₀.aliases row file := by
  rw [Bool.eq_iff_iff]
  cases hidentity : row.hiddenCopyIdentity with
  | none => simp [identityConfirmed, hidentity]
  | some identity =>
    have hdef : ∀ aliases, identityConfirmed aliases row file = true ↔
        identity ∈ findLocalCopyIdentityCandidates aliases row.source file .inPlace ∨
          identity ∈ findLocalCopyIdentityCandidates aliases row.source file .sampledInPlace := by
      intro aliases
      rw [identityConfirmed, hidentity, decide_eq_true_eq]
    constructor
    · intro hnow
      -- a row that stays has been confirmed at the same place
      have hstaying : Stays db₀.aliases files row →
          identityConfirmed db₀.aliases row file = true := by
        rintro ⟨f, hf, hstable⟩
        simp only [stableAt, Bool.and_eq_true, decide_eq_true_eq] at hstable
        obtain ⟨⟨⟨hfpath, -⟩, -⟩, hconfirmed⟩ := hstable
        have hsame : f.path = file.path := FilePath.disk.inj (hfpath.symm.trans hpath)
        obtain ⟨hstat, hsample⟩ := hdisk f hf file hfile hsame
        rw [← identityConfirmed_congr hsame hstat hsample]
        exact hconfirmed
      rcases (hdef _).1 hnow with hnow | hnow
      · rcases h.candidate hsound hrow hidentity hnow with hs | hc
        · exact hstaying hs
        · exact (hdef _).2 (Or.inl hc)
      · rcases h.candidate hsound hrow hidentity hnow with hs | hc
        · exact hstaying hs
        · exact (hdef _).2 (Or.inr hc)
    · intro hstart
      rw [hdef] at hstart ⊢
      exact hstart.imp (mem_findCandidates_mono fun a ha _ => h.old a ha)
        (mem_findCandidates_mono fun a ha _ => h.old a ha)

/-- A record says what the database said at the start. -/
structure RecordOk (db₀ : Db) (shared : ℕ) (files : List ScannedFile) (record : Record) : Prop where
  file : record.file ∈ files
  existing : ∀ row, record.existing = some row ↔
    row ∈ db₀.existingRows ∧ row.filePath = .disk record.file.path
  stable : record.stable = true ↔
    ∃ row ∈ db₀.existingRows, stableAt db₀.aliases row record.file = true
  legacy : ∀ row, record.legacySamePathTarget = some row ↔
    row ∈ db₀.existingRows ∧ upgradedAt row record.file = true
  candidates : record.stable = false → record.legacySamePathTarget = none →
    ∀ row ∈ db₀.existingRows, ¬ Stays db₀.aliases files row →
      ∀ identity, row.hiddenCopyIdentity = some identity →
        (identity ∈ record.candidateIdentities ↔
          identity ∈ findLocalCopyIdentityCandidates db₀.aliases shared record.file .anywhere)

/-- The row that has the path of a file. -/
theorem find_existing (hsound : db₀.Sound) :
    (db₀.existingRows.find? fun r => decide (r.filePath = .disk file.path)) = some row ↔
      row ∈ db₀.existingRows ∧ row.filePath = .disk file.path := by
  constructor
  · intro h
    have hpath := List.find?_some h
    rw [decide_eq_true_eq] at hpath
    exact ⟨List.mem_of_find?_eq_some h, hpath⟩
  · rintro ⟨hrow, hpath⟩
    cases hfind : db₀.existingRows.find? fun r => decide (r.filePath = .disk file.path) with
    | none =>
      rw [List.find?_eq_none] at hfind
      exact absurd (decide_eq_true hpath) (hfind row hrow)
    | some r =>
      have hr := List.mem_of_find?_eq_some hfind
      have hrpath := List.find?_some hfind
      rw [decide_eq_true_eq] at hrpath
      rw [hsound.eq_of_path (mem_existingRows.1 hr).1 (mem_existingRows.1 hrow).1
        (hrpath.trans hpath.symm)]

section AtPath

variable (hsound : db₀.Sound) (hrow : row ∈ db₀.existingRows)
  (hpath : row.filePath = .disk file.path)

include hsound hrow hpath

/-- The row at the path is the only one. -/
theorem eq_of_existing {r : MediaItem} (hr : r ∈ db₀.existingRows)
    (hrpath : r.filePath = .disk file.path) : r = row :=
  hsound.eq_of_path (mem_existingRows.1 hr).1 (mem_existingRows.1 hrow).1 (hrpath.trans hpath.symm)

theorem existing_iff (r : MediaItem) :
    some row = some r ↔ r ∈ db₀.existingRows ∧ r.filePath = .disk file.path := by
  constructor
  · intro heq
    cases heq
    exact ⟨hrow, hpath⟩
  · rintro ⟨hr, hrpath⟩
    rw [eq_of_existing hsound hrow hpath hr hrpath]

/-- Only the row at the path can be stable. -/
theorem exists_stableAt_iff : (∃ r ∈ db₀.existingRows, stableAt db₀.aliases r file = true) ↔
    stableAt db₀.aliases row file = true := by
  constructor
  · rintro ⟨r, hr, hs⟩
    have hrpath := hs
    simp only [stableAt, Bool.and_eq_true, decide_eq_true_eq] at hrpath
    rw [eq_of_existing hsound hrow hpath hr hrpath.1.1.1] at hs
    exact hs
  · exact fun hs => ⟨row, hrow, hs⟩

/-- Only the row at the path can be upgraded. -/
theorem upgradedAt_iff (r : MediaItem) : (r ∈ db₀.existingRows ∧ upgradedAt r file = true) ↔
    r = row ∧ upgradedAt row file = true := by
  constructor
  · rintro ⟨hr, hs⟩
    have hrpath := hs
    simp only [upgradedAt, Bool.and_eq_true, decide_eq_true_eq] at hrpath
    have heq := eq_of_existing hsound hrow hpath hr hrpath.1.1.1
    exact ⟨heq, heq ▸ hs⟩
  · rintro ⟨rfl, hs⟩
    exact ⟨hrow, hs⟩

end AtPath

/-- The classification of one file. -/
theorem classifyFile_spec (h : Grown (Stays db₀.aliases files) db₀ db) (hsound : db₀.Sound)
    (hdisk : FixedDisk files) (hfile : file ∈ files) :
    (classifyFile db₀.existingRows shared db file).1.file = file ∧
      RecordOk db₀ shared files (classifyFile db₀.existingRows shared db file).1 ∧
      Grown (Stays db₀.aliases files) db₀ (classifyFile db₀.existingRows shared db file).2 := by
  have hcandidates : ∀ row ∈ db₀.existingRows, ¬ Stays db₀.aliases files row →
      ∀ identity, row.hiddenCopyIdentity = some identity →
        (identity ∈ findLocalCopyIdentityCandidates db.aliases shared file .anywhere ↔
          identity ∈ findLocalCopyIdentityCandidates db₀.aliases shared file .anywhere) := by
    intro row hrow hstays identity hidentity
    refine ⟨fun hnow => ?_, mem_findCandidates_mono fun a ha _ => h.old a ha⟩
    exact (h.candidate hsound (mem_existingRows.1 hrow).1 hidentity hnow).resolve_left hstays
  rw [classifyFile]
  simp only
  cases hfind : db₀.existingRows.find? fun r => decide (r.filePath = .disk file.path) with
  | none =>
    have hnone : ∀ row ∈ db₀.existingRows, row.filePath ≠ .disk file.path := by
      intro row hrow hpath
      rw [(find_existing hsound).2 ⟨hrow, hpath⟩] at hfind
      cases hfind
    refine ⟨rfl, ⟨hfile, fun row => ?_, ?_, fun row => ?_, fun _ _ => hcandidates⟩, h⟩
    · exact ⟨(fun hsome => by cases hsome), fun hrow => absurd hrow.2 (hnone row hrow.1)⟩
    · refine ⟨(fun hs => by cases hs), ?_⟩
      rintro ⟨row, hrow, hstable⟩
      simp only [stableAt, Bool.and_eq_true, decide_eq_true_eq] at hstable
      exact absurd hstable.1.1.1 (hnone row hrow)
    · refine ⟨(fun hs => by cases hs), fun hrow => ?_⟩
      have hup := hrow.2
      simp only [upgradedAt, Bool.and_eq_true, decide_eq_true_eq] at hup
      exact absurd hup.1.1.1 (hnone row hrow.1)
  | some row =>
    obtain ⟨hrow, hpath⟩ := (find_existing hsound).1 hfind
    have hitem := (mem_existingRows.1 hrow).1
    have hexisting := existing_iff hsound hrow hpath
    have hstable := exists_stableAt_iff hsound hrow hpath
    have hupgraded := upgradedAt_iff hsound hrow hpath
    have hconfirmed := h.confirmed hsound hdisk hitem hfile hpath
    have hstaying : stableAt db₀.aliases row file = true → Stays db₀.aliases files row :=
      fun hs => ⟨file, hfile, hs⟩
    -- what is known of the row decides between the branches
    have hstableAt : stableAt db₀.aliases row file =
        (statUnchanged row file && scanMetadataMatches row.folder file.folder &&
          identityConfirmed db.aliases row file) := by
      rw [stableAt, hpath, decide_eq_true rfl, Bool.true_and, hconfirmed]
    have hupgradedAt : upgradedAt row file =
        (statUnchanged row file && !scanMetadataMatches row.folder file.folder &&
          row.hiddenCopyIdentity.isNone) := by
      rw [upgradedAt, hpath, decide_eq_true rfl, Bool.true_and]
    have hunmatched : stableAt db₀.aliases row file = false → upgradedAt row file = false →
        RecordOk db₀ shared files ⟨file, some row, false,
          findLocalCopyIdentityCandidates db.aliases shared file .anywhere, none⟩ := by
      intro hns hnu
      refine ⟨hfile, hexisting, ?_, fun r => ?_, fun _ _ => hcandidates⟩
      · rw [hstable, hns]
      · rw [hupgraded, hnu]
        simp
    have hfound : stableAt db₀.aliases row file = true → upgradedAt row file = false →
        RecordOk db₀ shared files ⟨file, some row, true, [], none⟩ := by
      intro hs hnu
      refine ⟨hfile, hexisting, ?_, fun r => ?_, (fun hf => by cases hf)⟩
      · rw [hstable, hs]
      · rw [hupgraded, hnu]
        simp
    by_cases hstat : statUnchanged row file = true
    · simp only [if_pos hstat]
      by_cases hfolder : scanMetadataMatches row.folder file.folder = true
      · cases hidentity : row.hiddenCopyIdentity with
        | some identity =>
          have hdef : identityConfirmed db.aliases row file = decide (identity ∈
              findLocalCopyIdentityCandidates db.aliases row.source file .inPlace ∨
                identity ∈ findLocalCopyIdentityCandidates db.aliases row.source file
                  .sampledInPlace) := by
            rw [identityConfirmed, hidentity]
          have hnu : upgradedAt row file = false := by
            rw [hupgradedAt, hfolder]
            simp
          simp only [if_pos hfolder]
          by_cases hplace : identity ∈
              findLocalCopyIdentityCandidates db.aliases row.source file .inPlace
          · have hs : stableAt db₀.aliases row file = true := by
              rw [hstableAt, hstat, hfolder, hdef, decide_eq_true (Or.inl hplace)]
              rfl
            simp only [if_pos hplace]
            exact ⟨trivial, hfound hs hnu, h⟩
          · simp only [if_neg hplace]
            by_cases hsampled : identity ∈
                findLocalCopyIdentityCandidates db.aliases row.source file .sampledInPlace
            · have hs : stableAt db₀.aliases row file = true := by
                rw [hstableAt, hstat, hfolder, hdef, decide_eq_true (Or.inr hsampled)]
                rfl
              simp only [if_pos hsampled]
              exact ⟨trivial, hfound hs hnu, h.resolve hsound hitem (hstaying hs)⟩
            · have hns : stableAt db₀.aliases row file = false := by
                rw [hstableAt, hdef, decide_eq_false (not_or.2 ⟨hplace, hsampled⟩), Bool.and_false]
              simp only [if_neg hsampled]
              exact ⟨trivial, hunmatched hns hnu, h⟩
        | none =>
          have hs : stableAt db₀.aliases row file = true := by
            rw [hstableAt, hstat, hfolder, identityConfirmed, hidentity]
            rfl
          have hnu : upgradedAt row file = false := by
            rw [hupgradedAt, hfolder]
            simp
          simp only [if_pos hfolder]
          exact ⟨trivial, hfound hs hnu, h.resolve hsound hitem (hstaying hs)⟩
      · have hns : stableAt db₀.aliases row file = false := by
          rw [hstableAt, Bool.eq_false_of_not_eq_true hfolder]
          simp
        cases hidentity : row.hiddenCopyIdentity with
        | some identity =>
          have hnu : upgradedAt row file = false := by
            rw [hupgradedAt, hidentity]
            simp
          simp only [if_neg hfolder]
          exact ⟨trivial, hunmatched hns hnu, h⟩
        | none =>
          have hu : upgradedAt row file = true := by
            rw [hupgradedAt, hstat, Bool.eq_false_of_not_eq_true hfolder, hidentity]
            rfl
          simp only [if_neg hfolder]
          refine ⟨trivial, ⟨hfile, hexisting, ?_, fun r => ?_, (fun _ hl => by cases hl)⟩, h⟩
          · rw [hstable, hns]
          · rw [hupgraded, hu, and_iff_left rfl]
            exact ⟨fun heq => (Option.some.inj heq).symm, fun heq => by rw [heq]⟩
    · have hns : stableAt db₀.aliases row file = false := by
        rw [hstableAt, Bool.eq_false_of_not_eq_true hstat]
        simp
      have hnu : upgradedAt row file = false := by
        rw [hupgradedAt, Bool.eq_false_of_not_eq_true hstat]
        simp
      simp only [if_neg hstat]
      exact ⟨trivial, hunmatched hns hnu, h⟩

/-- The records of a scan, and what the loop leaves behind. -/
theorem classify_spec (hsound : db₀.Sound) (hdisk : FixedDisk files) :
    ∀ {rest : List ScannedFile} {db : Db}, Grown (Stays db₀.aliases files) db₀ db →
      (∀ file ∈ rest, file ∈ files) →
      (classify db₀.existingRows shared db rest).1.map (·.file) = rest ∧
        (∀ record ∈ (classify db₀.existingRows shared db rest).1,
          RecordOk db₀ shared files record) ∧
        Grown (Stays db₀.aliases files) db₀ (classify db₀.existingRows shared db rest).2 := by
  intro rest
  induction rest with
  | nil =>
    intro db h _
    exact ⟨rfl, (fun record hrecord => by cases hrecord), h⟩
  | cons file rest ih =>
    intro db h hmem
    obtain ⟨hfile, hok, hgrown⟩ := @classifyFile_spec _ _ shared _ _ h hsound hdisk
      (hmem file (List.mem_cons_self ..))
    obtain ⟨hfiles, hrecords, hgrown'⟩ := ih hgrown fun f hf => hmem f (List.mem_cons_of_mem _ hf)
    rw [classify]
    refine ⟨?_, fun record hrecord => ?_, hgrown'⟩
    · rw [List.map_cons, hfile, hfiles]
    · rcases List.mem_cons.1 hrecord with rfl | hrecord
      · exact hok
      · exact hrecords record hrecord

end Records

/-! ### Matching -/

/-- One path remains when the repetitions are erased. -/
theorem length_dedup_eq_one {α : Type} [DecidableEq α] {xs : List α} {x : α} (hx : x ∈ xs) :
    xs.dedup.length = 1 ↔ ∀ y ∈ xs, y = x := by
  have hmem : x ∈ xs.dedup := List.mem_dedup.2 hx
  constructor
  · intro hlength y hy
    obtain ⟨z, hz⟩ := List.length_eq_one_iff.1 hlength
    have hyz : y ∈ xs.dedup := List.mem_dedup.2 hy
    rw [hz, List.mem_singleton] at hyz hmem
    rw [hyz, hmem]
  · intro hall
    have hsub : xs.dedup ⊆ [x] := fun y hy =>
      List.mem_singleton.2 (hall y (List.mem_dedup.1 hy))
    have hle : xs.dedup.length ≤ 1 :=
      (List.subperm_of_subset (List.nodup_dedup xs) hsub).length_le
    exact Nat.le_antisymm hle (List.length_pos_of_mem hmem)

/-- A list without repetitions is a singleton if and only if it has one element. -/
theorem eq_singleton_iff {α : Type} {xs : List α} {x : α} (hnodup : xs.Nodup) :
    xs = [x] ↔ x ∈ xs ∧ ∀ y ∈ xs, y = x := by
  constructor
  · rintro rfl
    exact ⟨List.mem_singleton_self x, fun y hy => List.mem_singleton.1 hy⟩
  · rintro ⟨hx, hall⟩
    refine List.Perm.eq_singleton ?_
    exact (List.perm_ext_iff_of_nodup hnodup (List.nodup_singleton x)).2 fun y =>
      ⟨fun hy => List.mem_singleton.2 (hall y hy), fun hy => List.mem_singleton.1 hy ▸ hx⟩

section Matching

variable {db₀ : Db} {shared : ℕ} {files : List ScannedFile} {records : List Record}
  {record : Record} {row : MediaItem} {id : ℕ}

/-- The records are those of the files, and say what the database said at the start. -/
structure RecordsOk (db₀ : Db) (shared : ℕ) (files : List ScannedFile) (records : List Record) :
    Prop where
  sound : db₀.Sound
  eq_files : records.map (·.file) = files
  ok : ∀ record ∈ records, RecordOk db₀ shared files record

theorem RecordsOk.record_of (h : RecordsOk db₀ shared files records) {file : ScannedFile}
    (hfile : file ∈ files) : ∃ record ∈ records, record.file = file := by
  rw [← h.eq_files, List.mem_map] at hfile
  exact hfile

theorem RecordsOk.eq_of_id (h : RecordsOk db₀ shared files records) {row' : MediaItem}
    (hrow : row ∈ db₀.existingRows) (hrow' : row' ∈ db₀.existingRows) (hid : row.id = row'.id) :
    row = row' :=
  h.sound.eq_of_id (mem_existingRows.1 hrow).1 (mem_existingRows.1 hrow').1 hid

/-- A record is unstable where no row is stable at its file. -/
theorem RecordOk.unsettled (h : RecordOk db₀ shared files record) :
    record.stable = false ↔ Unsettled db₀.aliases db₀.existingRows record.file := by
  rw [← Bool.not_eq_true, h.stable, Unsettled]
  simp

theorem RecordsOk.mem_stableExistingIds (h : RecordsOk db₀ shared files records) :
    id ∈ stableExistingIds records ↔
      ∃ row ∈ db₀.existingRows, row.id = id ∧ Stays db₀.aliases files row := by
  simp only [stableExistingIds, List.mem_filterMap, List.mem_filter, Option.map_eq_some_iff]
  constructor
  · rintro ⟨record, ⟨hrecord, hstable⟩, row, hexisting, rfl⟩
    have hok := h.ok record hrecord
    obtain ⟨r, hr, hs⟩ := hok.stable.1 hstable
    obtain ⟨hrow, hpath⟩ := (hok.existing row).1 hexisting
    have hrpath := hs
    simp only [stableAt, Bool.and_eq_true, decide_eq_true_eq] at hrpath
    have heq : r = row := h.sound.eq_of_path (mem_existingRows.1 hr).1 (mem_existingRows.1 hrow).1
      (hrpath.1.1.1.trans hpath.symm)
    exact ⟨row, hrow, rfl, record.file, hok.file, heq ▸ hs⟩
  · rintro ⟨row, hrow, rfl, file, hfile, hs⟩
    obtain ⟨record, hrecord, rfl⟩ := h.record_of hfile
    have hok := h.ok record hrecord
    have hpath := hs
    simp only [stableAt, Bool.and_eq_true, decide_eq_true_eq] at hpath
    exact ⟨record, ⟨hrecord, hok.stable.2 ⟨row, hrow, hs⟩⟩, row,
      (hok.existing row).2 ⟨hrow, hpath.1.1.1⟩, rfl⟩

theorem RecordsOk.mem_displacedRows (h : RecordsOk db₀ shared files records) :
    row ∈ displacedRows db₀.existingRows records ↔
      row ∈ db₀.existingRows ∧ ¬ Stays db₀.aliases files row := by
  rw [displacedRows, List.mem_filter, decide_eq_true_eq, h.mem_stableExistingIds]
  refine and_congr_right fun hrow => not_congr ⟨?_, fun hs => ⟨row, hrow, rfl, hs⟩⟩
  rintro ⟨r, hr, hid, hs⟩
  exact h.eq_of_id hr hrow hid ▸ hs

/-- Rows of one path are one row. -/
theorem RecordsOk.upgraded_unique (h : RecordsOk db₀ shared files records) {row' : MediaItem}
    {file : ScannedFile} (hrow : row ∈ db₀.existingRows) (hrow' : row' ∈ db₀.existingRows)
    (hup : upgradedAt row file = true) (hup' : upgradedAt row' file = true) : row = row' := by
  simp only [upgradedAt, Bool.and_eq_true, decide_eq_true_eq] at hup hup'
  exact h.sound.eq_of_path (mem_existingRows.1 hrow).1 (mem_existingRows.1 hrow').1
    (hup.1.1.1.trans hup'.1.1.1.symm)

/-- The candidate rows of an unstable record are those that its file may have been. -/
theorem RecordsOk.mem_candidateRowIds (h : RecordsOk db₀ shared files records)
    (hrecord : record ∈ records) (hstable : record.stable = false) :
    id ∈ candidateRowIds db₀.existingRows records record ↔
      ∃ row, row.id = id ∧
        MayBe db₀.aliases db₀.existingRows shared files record.file row := by
  have hok := h.ok record hrecord
  have hunsettled := hok.unsettled.1 hstable
  rw [candidateRowIds]
  cases hlegacy : record.legacySamePathTarget with
  | some r =>
    obtain ⟨hr, hup⟩ := (hok.legacy r).1 hlegacy
    simp only [List.mem_singleton]
    constructor
    · rintro rfl
      exact ⟨r, rfl, hunsettled, hr, Or.inl hup⟩
    · rintro ⟨row, rfl, -, hrow, hup' | ⟨hno, -⟩⟩
      · rw [h.upgraded_unique hrow hr hup' hup]
      · exact absurd hup (by rw [hno r hr]; exact Bool.false_ne_true)
  | none =>
    have hno : ∀ r ∈ db₀.existingRows, upgradedAt r record.file = false := by
      intro r hr
      by_contra hup
      rw [Bool.not_eq_false] at hup
      rw [(hok.legacy r).2 ⟨hr, hup⟩] at hlegacy
      cases hlegacy
    simp only [List.mem_map, List.mem_filter, h.mem_displacedRows, Option.any_eq_true_iff_get,
      decide_eq_true_eq]
    constructor
    · rintro ⟨row, ⟨⟨hrow, hstays⟩, hsome, hmem⟩, rfl⟩
      have hidentity : row.hiddenCopyIdentity = some (row.hiddenCopyIdentity.get hsome) :=
        (Option.some_get hsome).symm
      exact ⟨row, rfl, hunsettled, hrow, Or.inr ⟨hno, hstays, _, hidentity,
        (hok.candidates hstable hlegacy row hrow hstays _ hidentity).1 hmem⟩⟩
    · rintro ⟨row, rfl, -, hrow, hup | ⟨-, hstays, identity, hidentity, hmem⟩⟩
      · exact absurd hup (by rw [hno row hrow]; exact Bool.false_ne_true)
      · refine ⟨row, ⟨⟨hrow, hstays⟩, ?_, ?_⟩, rfl⟩
        · rw [hidentity]
          rfl
        · simp only [hidentity, Option.get_some]
          exact (hok.candidates hstable hlegacy row hrow hstays identity hidentity).2 hmem

theorem RecordsOk.nodup_candidateRowIds (h : RecordsOk db₀ shared files records) :
    (candidateRowIds db₀.existingRows records record).Nodup := by
  rw [candidateRowIds]
  split
  · exact List.nodup_singleton _
  · have hsub : ((displacedRows db₀.existingRows records).filter fun row =>
        row.hiddenCopyIdentity.any (· ∈ record.candidateIdentities)).Sublist db₀.items :=
      (List.filter_sublist.trans List.filter_sublist).trans List.filter_sublist
    exact (hsub.map (·.id)).nodup h.sound.ids

/-- The paths of the files that may have been a row. -/
theorem RecordsOk.mem_paths (h : RecordsOk db₀ shared files records) {path : Path} :
    path ∈ (records.filter fun record =>
        !record.stable && decide (id ∈ candidateRowIds db₀.existingRows records record)).map
          (·.file.path) ↔
      ∃ file ∈ files, file.path = path ∧ ∃ row, row.id = id ∧
        MayBe db₀.aliases db₀.existingRows shared files file row := by
  simp only [List.mem_map, List.mem_filter, Bool.and_eq_true, Bool.not_eq_true', decide_eq_true_eq]
  constructor
  · rintro ⟨record, ⟨hrecord, hstable, hid⟩, rfl⟩
    exact ⟨record.file, (h.ok record hrecord).file, rfl,
      (h.mem_candidateRowIds hrecord hstable).1 hid⟩
  · rintro ⟨file, hfile, rfl, row, rfl, hmay⟩
    obtain ⟨record, hrecord, rfl⟩ := h.record_of hfile
    have hstable := (h.ok record hrecord).unsettled.2 hmay.1
    exact ⟨record, ⟨hrecord, hstable, (h.mem_candidateRowIds hrecord hstable).2 ⟨row, rfl, hmay⟩⟩,
      rfl⟩

/-- A record is matched with the row that its file alone can have been. -/
theorem RecordsOk.matchedExistingId_eq_some (h : RecordsOk db₀ shared files records)
    (hrecord : record ∈ records) :
    matchedExistingId db₀.existingRows records record = some id ↔
      ∃ row, row.id = id ∧ Matched db₀.aliases db₀.existingRows shared files record.file row := by
  have hok := h.ok record hrecord
  -- the two uniqueness conditions, for a row that the file may have been
  have key : record.stable = false → ∀ row,
      MayBe db₀.aliases db₀.existingRows shared files record.file row →
      ((candidateRowIds db₀.existingRows records record = [row.id] ∧
          (candidatePaths db₀.existingRows records row.id).length = 1) ↔
        Matched db₀.aliases db₀.existingRows shared files record.file row) := by
    intro hstable row hmay
    have hpath : record.file.path ∈ (records.filter fun record =>
        !record.stable && decide (row.id ∈ candidateRowIds db₀.existingRows records record)).map
          (·.file.path) := h.mem_paths.2 ⟨record.file, hok.file, rfl, row, rfl, hmay⟩
    rw [eq_singleton_iff h.nodup_candidateRowIds, candidatePaths, length_dedup_eq_one hpath]
    simp only [h.mem_candidateRowIds hrecord hstable, h.mem_paths]
    constructor
    · rintro ⟨⟨-, hrows⟩, hpaths⟩
      refine ⟨hmay, fun row' hmay' => ?_, fun file' hfile' hmay' => ?_⟩
      · exact h.eq_of_id hmay'.2.1 hmay.2.1 (hrows row'.id ⟨row', rfl, hmay'⟩)
      · exact hpaths _ ⟨file', hfile', rfl, row, rfl, hmay'⟩
    · rintro ⟨-, hrows, hpaths⟩
      refine ⟨⟨⟨row, rfl, hmay⟩, ?_⟩, ?_⟩
      · rintro id' ⟨row', rfl, hmay'⟩
        rw [hrows row' hmay']
      · rintro path ⟨file', hfile', rfl, row', hid, hmay'⟩
        rw [h.eq_of_id hmay'.2.1 hmay.2.1 hid] at hmay'
        exact hpaths file' hfile' hmay'
  rw [matchedExistingId]
  by_cases hstable : record.stable = true
  · rw [if_pos hstable]
    refine ⟨(fun hs => by cases hs), ?_⟩
    rintro ⟨row, -, hmatched⟩
    rw [hok.unsettled.2 hmatched.1.1] at hstable
    cases hstable
  · rw [if_neg hstable]
    rw [Bool.not_eq_true] at hstable
    constructor
    · intro hsome
      split at hsome
      · next id' hids =>
        split_ifs at hsome with hlength
        cases hsome
        have hmem : id ∈ candidateRowIds db₀.existingRows records record := by
          rw [hids]
          exact List.mem_singleton_self _
        obtain ⟨row, rfl, hmay⟩ := (h.mem_candidateRowIds hrecord hstable).1 hmem
        exact ⟨row, rfl, (key hstable row hmay).1 ⟨hids, hlength⟩⟩
      · cases hsome
    · rintro ⟨row, rfl, hmatched⟩
      obtain ⟨hids, hlength⟩ := (key hstable row hmatched.1).2 hmatched
      rw [hids]
      exact if_pos hlength

/-- A row goes if it neither stays nor is matched with a file. -/
theorem RecordsOk.mem_removableRows (h : RecordsOk db₀ shared files records) :
    row ∈ removableRows db₀.existingRows records ↔
      row ∈ db₀.existingRows ∧ ¬ Stays db₀.aliases files row ∧
        ¬ ∃ file ∈ files, Matched db₀.aliases db₀.existingRows shared files file row := by
  rw [removableRows, List.mem_filter, h.mem_displacedRows, decide_eq_true_eq, and_assoc,
    matchedExistingIds]
  refine and_congr_right fun hrow => and_congr_right fun _ => not_congr ?_
  rw [List.mem_filterMap]
  constructor
  · rintro ⟨record, hrecord, hid⟩
    obtain ⟨r, hr, hmatched⟩ := (h.matchedExistingId_eq_some hrecord).1 hid
    rw [h.eq_of_id hmatched.1.2.1 hrow hr] at hmatched
    exact ⟨record.file, (h.ok record hrecord).file, hmatched⟩
  · rintro ⟨file, hfile, hmatched⟩
    obtain ⟨record, hrecord, rfl⟩ := h.record_of hfile
    exact ⟨record, hrecord, (h.matchedExistingId_eq_some hrecord).2 ⟨row, rfl, hmatched⟩⟩

end Matching

end MediaScan
