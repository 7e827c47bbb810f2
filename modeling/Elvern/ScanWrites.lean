/-
The writes of a scan over files that are known by their content.

* `Holds` — the row is that of a file;
* `Writing` — the invariant of the writes: every local row is that of a file, or still open;
* `Onward` — identified local rows stay, with their ids and identities, and aliases are added only;
* `Writing.stages`, `Writing.deletes`, `Writing.applies` — the three phases.
-/
import Elvern.AliasHistory

namespace MediaScan

/-- The row is that of the file: at its place, and with an identity of its content. -/
structure Holds (shared : ℕ) (aliases : List Alias) (row : MediaItem) (f : ScannedFile) : Prop where
  filePath : row.filePath = .disk f.path
  source : row.librarySourceId = some shared
  content : ∃ identity content, row.hiddenCopyIdentity = some identity ∧ f.Has content ∧
    Content aliases identity content

/-- Every local row is that of a file, or open. -/
structure Writing (shared : ℕ) (seen files : List ScannedFile) (isOpen : ℕ → Prop) (db : Db) :
    Prop where
  sound : db.Sound
  told : Told shared seen db.aliases
  rows : ∀ row ∈ db.items, row.isLocal = true →
    (∃ f ∈ files, Holds shared db.aliases row f) ∨ isOpen row.id

/-- Identified local rows and aliases stay. -/
structure Onward (db db' : Db) : Prop where
  rows : ∀ row ∈ db.items, row.isLocal = true → ∀ identity, row.hiddenCopyIdentity = some identity →
    ∃ row' ∈ db'.items, row'.id = row.id ∧ row'.isLocal = true ∧
      row'.hiddenCopyIdentity = some identity
  aliases : ∀ a ∈ db.aliases, a ∈ db'.aliases

/-- A local row has an identity of the content. -/
def HasRow (db : Db) (content : ContentSample) : Prop :=
  ∃ row ∈ db.items, row.isLocal = true ∧ ∃ identity, row.hiddenCopyIdentity = some identity ∧
    Content db.aliases identity content

section Relations

variable {db db' db'' : Db} {shared : ℕ} {aliases aliases' : List Alias} {row : MediaItem}
  {f : ScannedFile} {content : ContentSample}

theorem Onward.refl (db : Db) : Onward db db :=
  ⟨fun row hrow hlocal _ hidentity => ⟨row, hrow, rfl, hlocal, hidentity⟩, fun _ ha => ha⟩

theorem Onward.trans (h : Onward db db') (h' : Onward db' db'') : Onward db db'' where
  rows := by
    intro row hrow hlocal identity hidentity
    obtain ⟨row₁, hrow₁, hid₁, hlocal₁, hidentity₁⟩ := h.rows row hrow hlocal identity hidentity
    obtain ⟨row₂, hrow₂, hid₂, hlocal₂, hidentity₂⟩ :=
      h'.rows row₁ hrow₁ hlocal₁ identity hidentity₁
    exact ⟨row₂, hrow₂, hid₂.trans hid₁, hlocal₂, hidentity₂⟩
  aliases a ha := h'.aliases a (h.aliases a ha)

theorem HasRow.onward (h : HasRow db content) (hon : Onward db db') : HasRow db' content := by
  obtain ⟨row, hrow, hlocal, identity, hidentity, hcontent⟩ := h
  obtain ⟨row', hrow', -, hlocal', hidentity'⟩ := hon.rows row hrow hlocal identity hidentity
  exact ⟨row', hrow', hlocal', identity, hidentity', hcontent.mono hon.aliases⟩

theorem Holds.mono (h : Holds shared aliases row f) (hsub : ∀ a ∈ aliases, a ∈ aliases') :
    Holds shared aliases' row f := by
  obtain ⟨identity, content, hidentity, hhas, hcontent⟩ := h.content
  exact ⟨h.filePath, h.source, identity, content, hidentity, hhas, hcontent.mono hsub⟩

end Relations

/-! ### Sound writes -/

section Sound

variable {db : Db} {id identity : ℕ} {f : MediaItem → MediaItem} {path : FilePath}

theorem Db.Sound.congr {db' : Db} (h : db.Sound) (hitems : db'.items = db.items)
    (hnext : db'.nextId = db.nextId) : db'.Sound :=
  ⟨hitems ▸ h.ids, hitems ▸ h.paths, hitems ▸ h.identities, by
    rw [hitems, hnext]
    exact h.nextId⟩

theorem mem_updateItem {row : MediaItem} : row ∈ (db.updateItem id f).items ↔
    ∃ r ∈ db.items, (if r.id = id then f r else r) = row := List.mem_map

/-- One row gets a path that no other has. -/
theorem Db.Sound.updateItem (h : db.Sound) (hid : ∀ row, (f row).id = row.id)
    (hidentity : ∀ row, (f row).hiddenCopyIdentity = row.hiddenCopyIdentity)
    (hpath : ∀ row, (f row).filePath = path)
    (hfree : ∀ row ∈ db.items, row.filePath = path → row.id = id) : (db.updateItem id f).Sound where
  ids := by
    have hids : ((db.updateItem id f).items.map (·.id)) = db.items.map (·.id) := by
      rw [Db.updateItem, List.map_map]
      refine List.map_congr_left fun row _ => ?_
      simp only [Function.comp]
      split_ifs
      · exact hid row
      · rfl
    rw [hids]
    exact h.ids
  paths := by
    rw [Db.updateItem, List.map_map]
    refine List.Nodup.map_on (fun r hr r' hr' heq => ?_) h.ids.of_map
    simp only [Function.comp] at heq
    split_ifs at heq with hr₁ hr₂ hr₂
    · exact h.eq_of_id hr hr' (hr₁.trans hr₂.symm)
    · rw [hpath] at heq
      exact absurd (hfree r' hr' heq.symm) hr₂
    · rw [hpath] at heq
      exact absurd (hfree r hr heq) hr₁
    · exact h.eq_of_path hr hr' heq
  identities row hrow row' hrow' i hi hi' := by
    obtain ⟨r, hr, rfl⟩ := mem_updateItem.1 hrow
    obtain ⟨r', hr', rfl⟩ := mem_updateItem.1 hrow'
    have hback : ∀ r : MediaItem, (if r.id = id then f r else r).hiddenCopyIdentity =
        r.hiddenCopyIdentity := by
      intro r
      split_ifs
      · exact hidentity r
      · rfl
    rw [hback] at hi hi'
    rw [h.identities r hr r' hr' i hi hi']
  nextId row hrow := by
    obtain ⟨r, hr, rfl⟩ := mem_updateItem.1 hrow
    have hlt := h.nextId r hr
    split_ifs
    · exact (hid r).symm ▸ hlt
    · exact hlt

/-- One row gets an identity that no other has. -/
theorem Db.Sound.setIdentity (h : db.Sound)
    (hfree : ∀ row ∈ db.items, row.hiddenCopyIdentity = some identity → row.id = id) :
    (db.setIdentity id identity).Sound := by
  have hmem : ∀ row ∈ (db.setIdentity id identity).items, ∃ r ∈ db.items, r.id = row.id ∧
      r.filePath = row.filePath ∧ ∀ i, row.hiddenCopyIdentity = some i →
        r.hiddenCopyIdentity = some i ∨ i = identity ∧ r.id = id := by
    intro row hrow
    obtain ⟨r, hr, rfl⟩ := List.mem_map.1 hrow
    split_ifs with hid
    · exact ⟨r, hr, rfl, rfl, fun i hi => Or.inr ⟨(Option.some.inj hi).symm, hid⟩⟩
    · exact ⟨r, hr, rfl, rfl, fun i hi => Or.inl hi⟩
  have hmap : ∀ {α : Type} (g : MediaItem → α), (∀ row : MediaItem,
      g { row with hiddenCopyIdentity := some identity } = g row) →
      (db.setIdentity id identity).items.map g = db.items.map g := by
    intro α g hg
    rw [Db.setIdentity, List.map_map]
    refine List.map_congr_left fun row _ => ?_
    simp only [Function.comp]
    split_ifs
    · exact hg row
    · rfl
  refine ⟨?_, ?_, fun row hrow row' hrow' i hi hi' => ?_, fun row hrow => ?_⟩
  · rw [hmap (·.id) fun _ => rfl]
    exact h.ids
  · rw [hmap (·.filePath) fun _ => rfl]
    exact h.paths
  · -- the rows from which the two came have the same id
    have hids : row.id = row'.id := by
      obtain ⟨r, hr, hid, -, hidentity⟩ := hmem row hrow
      obtain ⟨r', hr', hid', -, hidentity'⟩ := hmem row' hrow'
      rw [← hid, ← hid']
      rcases hidentity i hi with ha | ⟨rfl, ha⟩ <;> rcases hidentity' i hi' with hb | ⟨hb, hb'⟩
      · rw [h.identities r hr r' hr' i ha hb]
      · rw [hb', hfree r hr (hb ▸ ha)]
      · rw [ha, hfree r' hr' hb]
      · rw [ha, hb']
    have hnodup : ((db.setIdentity id identity).items.map (·.id)).Nodup := by
      rw [hmap (·.id) fun _ => rfl]
      exact h.ids
    exact List.inj_on_of_nodup_map hnodup hrow hrow' hids
  · obtain ⟨r, hr, hid, -⟩ := hmem row hrow
    rw [← hid]
    exact h.nextId r hr

/-- A row without identity is inserted, with the next id and a path that no row has. -/
theorem Db.Sound.insert (h : db.Sound) {row : MediaItem} (hid : row.id = db.nextId)
    (hpath : ∀ r ∈ db.items, r.filePath ≠ row.filePath)
    (hidentity : row.hiddenCopyIdentity = none) :
    Db.Sound { db with items := db.items ++ [row], nextId := db.nextId + 1 } where
  ids := by
    rw [List.map_append, List.map_singleton]
    refine h.ids.append (List.nodup_singleton _) fun i hi hi' => ?_
    obtain ⟨r, hr, rfl⟩ := List.mem_map.1 hi
    have hlt := h.nextId r hr
    rw [List.mem_singleton.1 hi', hid] at hlt
    exact absurd hlt (lt_irrefl _)
  paths := by
    rw [List.map_append, List.map_singleton]
    refine h.paths.append (List.nodup_singleton _) fun p hp hp' => ?_
    obtain ⟨r, hr, rfl⟩ := List.mem_map.1 hp
    exact hpath r hr (List.mem_singleton.1 hp')
  identities r hr r' hr' i hi hi' := by
    have hold : ∀ q ∈ db.items ++ [row], q.hiddenCopyIdentity = some i → q ∈ db.items := by
      intro q hq hqi
      rcases List.mem_append.1 hq with hq | hq
      · exact hq
      · rw [List.mem_singleton.1 hq, hidentity] at hqi
        cases hqi
    exact h.identities r (hold r hr hi) r' (hold r' hr' hi') i hi hi'
  nextId r hr := by
    rcases List.mem_append.1 hr with hr | hr
    · exact Nat.lt_succ_of_lt (h.nextId r hr)
    · rw [List.mem_singleton.1 hr, hid]
      exact Nat.lt_succ_self _

theorem pathTaken_eq_false {except : Option ℕ} (h : ¬ db.pathTaken path except = true) :
    ∀ row ∈ db.items, row.filePath = path → some row.id = except := by
  intro row hrow hp
  by_contra hne
  exact h (List.any_eq_true.2 ⟨row, hrow, decide_eq_true ⟨hp, hne⟩⟩)

end Sound

/-! ### The phases -/

section Phases

variable {shared : ℕ} {seen files : List ScannedFile} {isOpen isOpen' : ℕ → Prop} {db db' : Db}
  {env : Env} {f : ScannedFile} {content : ContentSample}

/-- An open row gets a path that no other has. -/
theorem Writing.updateItem (h : Writing shared seen files isOpen db) {id : ℕ}
    {g : MediaItem → MediaItem} {path : FilePath} (hid : ∀ row, (g row).id = row.id)
    (hidentity : ∀ row, (g row).hiddenCopyIdentity = row.hiddenCopyIdentity)
    (hlocal : ∀ row, row.isLocal = true → (g row).isLocal = true)
    (hpath : ∀ row, (g row).filePath = path)
    (hfree : ∀ row ∈ db.items, row.filePath = path → row.id = id)
    (hself : ∀ row ∈ db.items, row.id = id →
      (∃ f ∈ files, Holds shared db.aliases (g row) f) ∨ isOpen' id)
    (hother : ∀ i, i ≠ id → isOpen i → isOpen' i) :
    Writing shared seen files isOpen' (db.updateItem id g) ∧ Onward db (db.updateItem id g) := by
  refine ⟨⟨h.sound.updateItem hid hidentity hpath hfree, h.told, fun row hrow hl => ?_⟩,
    fun row hrow hl identity hi => ?_, fun _ ha => ha⟩
  · obtain ⟨r, hr, rfl⟩ := mem_updateItem.1 hrow
    split_ifs at hl ⊢ with hrid
    · exact (hself r hr hrid).imp_right fun ho => by rw [hid, hrid]; exact ho
    · exact (h.rows r hr hl).imp_right (hother r.id hrid)
  · refine ⟨_, mem_updateItem.2 ⟨row, hrow, rfl⟩, ?_⟩
    split_ifs
    · exact ⟨hid row, hlocal row hl, (hidentity row).trans hi⟩
    · exact ⟨rfl, hl, hi⟩

theorem Writing.stage (h : Writing shared seen files isOpen db) {job : ℕ}
    {change : Record × Option MediaItem} (hopen : ∀ row, change.2 = some row → isOpen row.id)
    (hst : stageRecord job db change = .ok db') :
    Writing shared seen files isOpen db' ∧ Onward db db' := by
  rw [stageRecord] at hst
  split at hst
  · cases hst
    exact ⟨h, .refl db⟩
  · next row hrow =>
    split_ifs at hst
    · cases hst
      exact ⟨h, .refl db⟩
    · rw [Db.stage] at hst
      split_ifs at hst with htaken
      cases hst
      exact h.updateItem (fun _ => rfl) (fun _ => rfl) (fun _ hl => hl) (fun _ => rfl)
        (fun r hr hp => Option.some.inj (pathTaken_eq_false htaken r hr hp))
        (fun _ _ _ => Or.inr (hopen row hrow)) fun _ _ ho => ho

/-- The staging of the rows that are taken over. -/
theorem Writing.stages {job : ℕ} : ∀ {changes : List (Record × Option MediaItem)} {db db' : Db},
    Writing shared seen files isOpen db →
    (∀ change ∈ changes, ∀ row, change.2 = some row → isOpen row.id) →
    changes.foldlM (stageRecord job) db = .ok db' →
    Writing shared seen files isOpen db' ∧ Onward db db' := by
  intro changes
  induction changes with
  | nil =>
    intro db db' h _ hst
    cases hst
    exact ⟨h, .refl db⟩
  | cons change rest ih =>
    intro db db' h hopen hst
    rw [List.foldlM_cons] at hst
    cases hfirst : stageRecord job db change with
    | error e =>
      rw [hfirst] at hst
      cases hst
    | ok db₁ =>
      rw [hfirst] at hst
      obtain ⟨h₁, hon₁⟩ := h.stage (hopen change (List.mem_cons_self ..)) hfirst
      obtain ⟨h₂, hon₂⟩ := ih h₁ (fun c hc => hopen c (List.mem_cons_of_mem _ hc)) hst
      exact ⟨h₂, hon₁.trans hon₂⟩

theorem deletes_spec : ∀ (removable : List MediaItem) (db : Db),
    (removable.foldl (fun db row => db.deleteItem row.id) db).items =
        db.items.filter (fun row => row.id ∉ removable.map (·.id)) ∧
      (removable.foldl (fun db row => db.deleteItem row.id) db).aliases = db.aliases ∧
      (removable.foldl (fun db row => db.deleteItem row.id) db).nextId = db.nextId
  | [], db => ⟨(List.filter_eq_self.2 fun _ _ => by simp).symm, rfl, rfl⟩
  | row :: rest, db => by
    obtain ⟨hitems, haliases, hnext⟩ := deletes_spec rest (db.deleteItem row.id)
    refine ⟨?_, haliases, hnext⟩
    rw [List.foldl_cons, hitems, Db.deleteItem, List.filter_filter]
    refine List.filter_congr fun r _ => ?_
    rw [← Bool.decide_and]
    refine decide_eq_decide.2 ?_
    rw [List.map_cons, List.mem_cons, not_or, and_comm]

/-- The open rows that are deleted are open no more; the others stay. -/
theorem Writing.deletes (h : Writing shared seen files isOpen db) (removable : List MediaItem) :
    Writing shared seen files (fun i => isOpen i ∧ i ∉ removable.map (·.id))
      (removable.foldl (fun db row => db.deleteItem row.id) db) := by
  obtain ⟨hitems, haliases, hnext⟩ := deletes_spec removable db
  have hmem : ∀ row ∈ (removable.foldl (fun db row => db.deleteItem row.id) db).items,
      row ∈ db.items ∧ row.id ∉ removable.map (·.id) := by
    intro row hrow
    rw [hitems, List.mem_filter, decide_eq_true_eq] at hrow
    exact hrow
  have hsub : (removable.foldl (fun db row => db.deleteItem row.id) db).items.Sublist db.items :=
    hitems ▸ List.filter_sublist
  refine ⟨⟨h.sound.ids.sublist (hsub.map _), h.sound.paths.sublist (hsub.map _),
    fun row hrow row' hrow' => h.sound.identities row (hmem row hrow).1 row' (hmem row' hrow').1,
    fun row hrow => hnext ▸ h.sound.nextId row (hmem row hrow).1⟩, haliases ▸ h.told,
    fun row hrow hlocal => ?_⟩
  rw [haliases]
  exact (h.rows row (hmem row hrow).1 hlocal).imp_right fun ho => ⟨ho, (hmem row hrow).2⟩

/-- The aliases of a file are recorded. -/
theorem Writing.record (h : Writing shared seen files isOpen db) {identity : ℕ} (hf : f ∈ seen)
    (hhas : f.Has content)
    (hfits : ∀ content', Content db.aliases identity content' → content' = content) :
    Writing shared seen files isOpen
        { db with aliases := recordLocalCopyIdentityAliases db.aliases shared f identity true } ∧
      Onward db { db with
        aliases := recordLocalCopyIdentityAliases db.aliases shared f identity true } ∧
      Content (recordLocalCopyIdentityAliases db.aliases shared f identity true)
          identity content := by
  obtain ⟨htold, hcontent, hsub⟩ := h.told.record hf hhas hfits
  refine ⟨⟨h.sound.congr rfl rfl, htold, fun row hrow hlocal => ?_⟩,
    ⟨fun row hrow hlocal identity hi => ⟨row, hrow, rfl, hlocal, hi⟩, hsub⟩, hcontent⟩
  refine (h.rows row hrow hlocal).imp_left ?_
  rintro ⟨g, hg, hholds⟩
  exact ⟨g, hg, hholds.mono hsub⟩

theorem newHiddenCopyIdentity_content {identity : ℕ} (hc : Content db.aliases identity content) :
    identity ≠ db.newHiddenCopyIdentity := by
  rintro rfl
  obtain ⟨a, ha, hid, -⟩ := hc
  have hlt : a.identity < db.newHiddenCopyIdentity :=
    lt_newHiddenCopyIdentity (List.mem_append_right _ (List.mem_map_of_mem ha))
  exact absurd hid hlt.ne

/-- The identity that a new row of a file is given: no other row has it, and it has the content of
the file or none. -/
theorem resolve_unidentified {row : MediaItem} {disallowed : List ℕ}
    (hidentity : row.hiddenCopyIdentity = none) (htold : Told shared seen db.aliases)
    (hsource : row.source = shared) (hhas : f.Has content) :
    ∃ identity, db.resolveHiddenCopyIdentity row f true disallowed =
        { db.setIdentity row.id identity with
          aliases := recordLocalCopyIdentityAliases db.aliases shared f identity true } ∧
      (∀ r ∈ db.items, r.hiddenCopyIdentity = some identity → r.id = row.id) ∧
      ∀ content', Content db.aliases identity content' → content' = content := by
  rw [Db.resolveHiddenCopyIdentity, hidentity]
  simp only [hsource]
  split
  · next identity hcandidates =>
    have hmem : identity ∈ (findLocalCopyIdentityCandidates db.aliases shared f
        ⟨true, true, false⟩).filter fun identity =>
          !db.activeIdentityOwner identity row.id && decide (identity ∉ disallowed) := by
      rw [hcandidates]
      exact List.mem_singleton_self _
    obtain ⟨hfound, howner⟩ := List.mem_filter.1 hmem
    refine ⟨identity, rfl, fun r hr hi => ?_, fun content' hc' => ?_⟩
    · rw [Bool.and_eq_true, Bool.not_eq_true', Db.activeIdentityOwner, List.any_eq_false] at howner
      have hno := howner.1 r hr
      rw [decide_eq_true_eq, not_and, not_not] at hno
      exact hno hi
    · exact htold.one identity content' content hc' (Told.candidate_content hhas rfl hfound)
  · exact ⟨_, rfl, fun r hr hi => absurd hi (newHiddenCopyIdentity_ne hr),
      fun _ hc' => absurd rfl (newHiddenCopyIdentity_content hc')⟩

/-- A changed record writes a row, resolves its identity and replaces its subtitles. -/
theorem applyRecord_ok {displaced : List MediaItem} {change : Record × Option MediaItem}
    (h : applyRecord env displaced db change = .ok db') :
    ∃ metadata year subtitles written id disallowed,
      writeScannedLocalMediaItem env db change.2 change.1.file metadata year = .ok (written, id) ∧
      db' = replaceScannedSubtitles
        (((written.items.find? fun row => decide (row.id = id)).map fun row =>
          written.resolveHiddenCopyIdentity row change.1.file true disallowed).getD written)
        id subtitles := by
  rw [applyRecord] at h
  simp only at h
  split at h
  · cases h
  · next metadata subtitles _ =>
    cases hwrite : writeScannedLocalMediaItem env db change.2 change.1.file metadata
        (preserveKnownYear (env.inferYear (PyText.pathStem (change.1.file.path.getLast?.getD "")))
          (change.2.bind (·.year))) with
    | error e =>
      rw [hwrite] at h
      cases h
    | ok written =>
      rw [hwrite] at h
      cases h
      refine ⟨metadata, _, subtitles, written.1, written.2,
        if change.2.isNone then blockedIdentities displaced change.1 else [], hwrite, ?_⟩
      congr 1
      cases written.1.items.find? fun row => decide (row.id = written.2) <;> rfl

/-- The row that a record takes over is known by the content of its file. -/
def Fit (db : Db) (change : Record × Option MediaItem) : Prop :=
  ∃ content, change.1.file.Has content ∧ ∀ row, change.2 = some row →
    ∃ r ∈ db.items, r.id = row.id ∧ r.isLocal = true ∧ ∃ identity,
      r.hiddenCopyIdentity = some identity ∧ Content db.aliases identity content

theorem Fit.onward {change : Record × Option MediaItem} (h : Fit db change) (hon : Onward db db') :
    Fit db' change := by
  obtain ⟨content, hhas, htarget⟩ := h
  refine ⟨content, hhas, fun row hrow => ?_⟩
  obtain ⟨r, hr, hid, hlocal, identity, hidentity, hcontent⟩ := htarget row hrow
  obtain ⟨r', hr', hid', hlocal', hidentity'⟩ := hon.rows r hr hlocal identity hidentity
  exact ⟨r', hr', hid'.trans hid, hlocal', identity, hidentity', hcontent.mono hon.aliases⟩

/-- A row with the id that `find?` looks for. -/
theorem find_id (hsound : db.Sound) {row : MediaItem} (hrow : row ∈ db.items) :
    (db.items.find? fun r => decide (r.id = row.id)) = some row := by
  cases hfind : db.items.find? fun r => decide (r.id = row.id) with
  | none =>
    rw [List.find?_eq_none] at hfind
    exact absurd (decide_eq_true rfl) (hfind row hrow)
  | some r =>
    have hid := List.find?_some hfind
    rw [decide_eq_true_eq] at hid
    rw [hsound.eq_of_id (List.mem_of_find?_eq_some hfind) hrow hid]

/-- Subtitles do not matter. -/
theorem Writing.subtitles (h : Writing shared seen files isOpen db) (id : ℕ)
    (subtitles : List Subtitle) :
    Writing shared seen files isOpen (replaceScannedSubtitles db id subtitles) :=
  ⟨h.sound.congr rfl rfl, h.told, h.rows⟩

theorem scannedColumns_isLocal (file : ScannedFile) (metadata : MediaMetadata) (year : Option ℤ)
    (row : MediaItem) : (scannedColumns env file metadata year row).isLocal = true := by
  rw [scannedColumns]

theorem scannedColumns_filePath (file : ScannedFile) (metadata : MediaMetadata) (year : Option ℤ)
    (row : MediaItem) : (scannedColumns env file metadata year row).filePath = .disk file.path := by
  rw [scannedColumns]

theorem scannedColumns_identity (file : ScannedFile) (metadata : MediaMetadata) (year : Option ℤ)
    (row : MediaItem) :
    (scannedColumns env file metadata year row).hiddenCopyIdentity = row.hiddenCopyIdentity := by
  rw [scannedColumns]

theorem scannedColumns_librarySourceId (file : ScannedFile) (metadata : MediaMetadata)
    (year : Option ℤ) (row : MediaItem) :
    (scannedColumns env file metadata year row).librarySourceId = some env.sharedLocalSourceId := by
  rw [scannedColumns]

/-- A record that takes a row over. -/
theorem Writing.takeOver (h : Writing shared seen files isOpen db)
    (hshared : env.sharedLocalSourceId = shared) {displaced : List MediaItem} {record : Record}
    {row : MediaItem} (hfile : record.file ∈ files) (hseen : record.file ∈ seen)
    (hfit : Fit db (record, some row))
    (hok : applyRecord env displaced db (record, some row) = .ok db') :
    Writing shared seen files (fun i => isOpen i ∧ i ≠ row.id) db' ∧ Onward db db' ∧
      ∃ content, record.file.Has content ∧ HasRow db' content := by
  obtain ⟨content, hhas, htarget⟩ := hfit
  obtain ⟨r, hr, hid, hlocal, identity, hidentity, hcontent⟩ := htarget row rfl
  obtain ⟨metadata, year, subtitles, written, id, disallowed, hwrite, rfl⟩ := applyRecord_ok hok
  rw [writeScannedLocalMediaItem] at hwrite
  split_ifs at hwrite with htaken
  simp only [Except.ok.injEq, Prod.mk.injEq] at hwrite
  obtain ⟨rfl, rfl⟩ := hwrite
  obtain ⟨g, hg, gid, glocal, gpath, gidentity, gsource⟩ : ∃ g : MediaItem → MediaItem,
      scannedColumns env record.file metadata year = g ∧ (∀ q, (g q).id = q.id) ∧
      (∀ q, (g q).isLocal = true) ∧ (∀ q, (g q).filePath = .disk record.file.path) ∧
      (∀ q, (g q).hiddenCopyIdentity = q.hiddenCopyIdentity) ∧
      ∀ q, (g q).librarySourceId = some env.sharedLocalSourceId :=
    ⟨_, rfl, scannedColumns_id env record.file metadata year,
      scannedColumns_isLocal record.file metadata year,
        scannedColumns_filePath record.file metadata year,
      scannedColumns_identity record.file metadata year,
      scannedColumns_librarySourceId record.file metadata year⟩
  rw [hg]
  have hholds : Holds shared db.aliases (g r) record.file :=
    ⟨gpath r, hshared ▸ gsource r, identity, content, (gidentity r).trans hidentity, hhas, hcontent⟩
  obtain ⟨h₁, hon₁⟩ : Writing shared seen files (fun i => isOpen i ∧ i ≠ row.id)
      (db.updateItem row.id g) ∧ Onward db (db.updateItem row.id g) := by
    refine h.updateItem gid gidentity (fun q _ => glocal q) gpath
      (fun q hq hp => Option.some.inj (pathTaken_eq_false htaken q hq hp)) (fun q hq hqid => ?_)
      fun i hi ho => ⟨ho, hi⟩
    rw [h.sound.eq_of_id hq hr (hqid.trans hid.symm)]
    exact Or.inl ⟨record.file, hfile, hholds⟩
  -- the row is found under its id, with the identity that it had
  have hmem : g r ∈ (db.updateItem row.id g).items := mem_updateItem.2 ⟨r, hr, by rw [if_pos hid]⟩
  have hfind := find_id h₁.sound hmem
  rw [(gid r).trans hid] at hfind
  obtain ⟨h₂, hon₂, hcontent₂⟩ := h₁.record hseen hhas fun content' hc' =>
    h.told.one identity content' content hc' hcontent
  have hsource : (g r).source = shared := by rw [MediaItem.source, hholds.source, Option.getD_some]
  rw [hfind, Option.map_some, Option.getD_some,
    resolve_identified ((gidentity r).trans hidentity), hsource]
  refine ⟨h₂.subtitles row.id subtitles, ?_, content, hhas, g r, hmem, glocal r, identity,
    (gidentity r).trans hidentity, hcontent₂⟩
  have hon := hon₁.trans hon₂
  exact ⟨hon.rows, hon.aliases⟩

/-- A record whose file is new to the library. -/
theorem Writing.insert (h : Writing shared seen files isOpen db)
    (hshared : env.sharedLocalSourceId = shared) {displaced : List MediaItem} {record : Record}
    (hfile : record.file ∈ files) (hseen : record.file ∈ seen) (hhas : record.file.Has content)
    (hok : applyRecord env displaced db (record, none) = .ok db') :
    Writing shared seen files isOpen db' ∧ Onward db db' ∧ HasRow db' content := by
  obtain ⟨metadata, year, subtitles, written, id, disallowed, hwrite, rfl⟩ := applyRecord_ok hok
  rw [writeScannedLocalMediaItem] at hwrite
  split_ifs at hwrite with htaken
  obtain ⟨n, hwritten, nid, nlocal, npath, nidentity, nsource⟩ : ∃ n : MediaItem,
      (written, id) = ({ db with items := db.items ++ [n], nextId := db.nextId + 1 }, db.nextId) ∧
      n.id = db.nextId ∧ n.isLocal = true ∧ n.filePath = .disk record.file.path ∧
      n.hiddenCopyIdentity = none ∧ n.librarySourceId = some shared := by
    refine ⟨_, (Except.ok.inj hwrite).symm, scannedColumns_id .., scannedColumns_isLocal ..,
      scannedColumns_filePath .., ?_, ?_⟩
    · rw [scannedColumns_identity]
    · rw [scannedColumns_librarySourceId, hshared]
  obtain ⟨rfl, rfl⟩ := Prod.mk.inj hwritten
  set db₁ : Db := { db with items := db.items ++ [n], nextId := db.nextId + 1 } with hdb₁
  have hsound₁ : db₁.Sound := by
    refine h.sound.insert nid (fun r hr hp => ?_) nidentity
    have hnone := pathTaken_eq_false htaken r hr (hp.trans npath)
    cases hnone
  have hmem : n ∈ db₁.items := List.mem_append_right _ (List.mem_singleton_self n)
  have hfind := find_id hsound₁ hmem
  rw [nid] at hfind
  have htold₁ : Told shared seen db₁.aliases := h.told
  obtain ⟨identity, hresolve, hfree, hfits⟩ :=
    @resolve_unidentified shared seen db₁ record.file content
    n disallowed nidentity htold₁ (by rw [MediaItem.source, nsource, Option.getD_some]) hhas
  rw [hfind, Option.map_some, Option.getD_some, hresolve]
  obtain ⟨htold, hcontent, hsub⟩ := htold₁.record hseen hhas hfits
  -- the new row has the identity, and the others are as they were
  have hnew : { n with hiddenCopyIdentity := some identity } ∈
      (db₁.setIdentity n.id identity).items :=
    List.mem_map.2 ⟨n, hmem, if_pos rfl⟩
  have hold : ∀ r ∈ db.items, r ∈ (db₁.setIdentity n.id identity).items := by
    intro r hr
    refine List.mem_map.2 ⟨r, List.mem_append_left _ hr, if_neg ?_⟩
    rw [nid]
    exact (h.sound.nextId r hr).ne
  have hback : ∀ r ∈ (db₁.setIdentity n.id identity).items,
      r ∈ db.items ∨ r = { n with hiddenCopyIdentity := some identity } := by
    intro r hr
    obtain ⟨q, hq, rfl⟩ := List.mem_map.1 hr
    rcases List.mem_append.1 hq with hq | hq
    · rw [if_neg (by rw [nid]; exact (h.sound.nextId q hq).ne)]
      exact Or.inl hq
    · rw [List.mem_singleton.1 hq, if_pos rfl]
      exact Or.inr rfl
  refine ⟨⟨(hsound₁.setIdentity hfree).congr rfl rfl, htold, fun r hr hlocal => ?_⟩,
    ⟨fun r hr hlocal i hi => ⟨r, hold r hr, rfl, hlocal, hi⟩, hsub⟩,
    { n with hiddenCopyIdentity := some identity }, hnew, nlocal, identity, rfl, hcontent⟩
  rcases hback r hr with hr | rfl
  · refine (h.rows r hr hlocal).imp_left ?_
    rintro ⟨g, hg, hholds⟩
    exact ⟨g, hg, hholds.mono hsub⟩
  · exact Or.inl ⟨record.file, hfile, npath, nsource, identity, content, rfl, hhas, hcontent⟩

/-- The writing of the changed records closes the rows that are taken over, and leaves a row of
every file written. -/
theorem Writing.applies (hshared : env.sharedLocalSourceId = shared) {displaced : List MediaItem} :
    ∀ {changes : List (Record × Option MediaItem)} {db db' : Db},
      Writing shared seen files
        (fun i => ∃ change ∈ changes, ∃ row, change.2 = some row ∧ row.id = i) db →
      (∀ change ∈ changes, change.1.file ∈ files ∧ change.1.file ∈ seen ∧ Fit db change) →
      changes.foldlM (applyRecord env displaced) db = .ok db' →
      Writing shared seen files (fun _ => False) db' ∧ Onward db db' ∧
        ∀ change ∈ changes, ∃ content, change.1.file.Has content ∧ HasRow db' content := by
  intro changes
  induction changes with
  | nil =>
    intro db db' h _ hok
    cases hok
    refine ⟨⟨h.sound, h.told, fun row hrow hlocal => (h.rows row hrow hlocal).imp_right ?_⟩,
      .refl db,
      fun change hc => absurd hc List.not_mem_nil⟩
    rintro ⟨change, hc, -⟩
    exact absurd hc List.not_mem_nil
  | cons change rest ih =>
    intro db db' h hfits hok
    rw [List.foldlM_cons] at hok
    cases hfirst : applyRecord env displaced db change with
    | error e =>
      rw [hfirst] at hok
      cases hok
    | ok db₁ =>
      rw [hfirst] at hok
      obtain ⟨hfile, hseen, hfit⟩ := hfits change (List.mem_cons_self ..)
      -- what is open after the first record is open for a later one
      obtain ⟨h₁, hon₁, content, hhas, hrow₁⟩ : Writing shared seen files
          (fun i => ∃ change ∈ rest, ∃ row, change.2 = some row ∧ row.id = i) db₁ ∧
          Onward db db₁ ∧ ∃ content, change.1.file.Has content ∧ HasRow db₁ content := by
        obtain ⟨record, _ | row⟩ := change
        · obtain ⟨content, hhas, -⟩ := hfit
          obtain ⟨h₁, hon₁, hrow₁⟩ := h.insert hshared hfile hseen hhas hfirst
          refine ⟨⟨h₁.sound, h₁.told, fun r hr hl => (h₁.rows r hr hl).imp_right ?_⟩, hon₁, content,
            hhas, hrow₁⟩
          rintro ⟨c, hc, row, hcrow, hid⟩
          rcases List.mem_cons.1 hc with rfl | hc
          · cases hcrow
          · exact ⟨c, hc, row, hcrow, hid⟩
        · obtain ⟨h₁, hon₁, content, hhas, hrow₁⟩ := h.takeOver hshared hfile hseen hfit hfirst
          refine ⟨⟨h₁.sound, h₁.told, fun r hr hl => (h₁.rows r hr hl).imp_right ?_⟩, hon₁, content,
            hhas, hrow₁⟩
          rintro ⟨⟨c, hc, q, hcrow, hid⟩, hne⟩
          rcases List.mem_cons.1 hc with rfl | hc
          · cases hcrow
            exact absurd hid.symm hne
          · exact ⟨c, hc, q, hcrow, hid⟩
      obtain ⟨h₂, hon₂, hrows₂⟩ := ih h₁ (fun c hc => by
        obtain ⟨hcf, hcs, hcfit⟩ := hfits c (List.mem_cons_of_mem _ hc)
        exact ⟨hcf, hcs, hcfit.onward hon₁⟩) hok
      refine ⟨h₂, hon₁.trans hon₂, fun c hc => ?_⟩
      rcases List.mem_cons.1 hc with rfl | hc
      · exact ⟨content, hhas, hrow₁.onward hon₂⟩
      · exact hrows₂ c hc

end Phases

end MediaScan
