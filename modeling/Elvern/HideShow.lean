/-
Hiding and showing one item.

Both first replace the legacy keys of the item by the copy identities of all rows that carry
them, and then write the records of the item alone.  What they change of what is hidden is
therefore one item at one scope, besides the rows that were given an identity that was hidden.

* `materialize_spec` — the replacement changes nothing that is hidden;
* `prepare_spec` — the state before the records of the item are written;
* `hide_show_change_one_item` — what is hidden afterwards.
-/
import Elvern.LegacyMigration

namespace HiddenKeys

variable (env : Env)

/-! ### The two statements -/

/-- The scopes of `materialize_legacy_hidden_coverage_for_item`. -/
def coverageScopes (userId : Option ℕ) (includeGlobal : Bool) : List Scope :=
  userId.toList.map Scope.user ++ if includeGlobal then [.everyone] else []

/-- A legacy key at one scope is replaced by the copy keys of all rows that carry it. -/
def materializeRecord (rows : List MediaRow) (s : State) (legacyKey : String) (scope : Scope) :
    Except DbError State :=
  match s.db.keys.find? fun key => decide (key.scope = scope ∧ key.movieKey = legacyKey) with
  | none => .ok s
  | some record =>
    if legacyCandidates env rows legacyKey = [] then .ok s
    else do
      let (_, s) ← replaceLegacyKey env s record (legacyCandidates env rows legacyKey)
      return s

/-- `materialize_legacy_hidden_coverage_for_item` -/
def materializeLegacyHiddenCoverageForItem (s : State) (mediaItemId : ℕ) (userId : Option ℕ)
    (includeGlobal : Bool) : Except DbError State :=
  match s.db.media.find? fun row => decide (row.id = mediaItemId) with
  | none => .ok s
  | some selected =>
    let matching := legacyHiddenKeysForRow env selected
    let scopes := (coverageScopes userId includeGlobal).filter fun scope =>
      matching.any fun legacyKey => decide (s.db.HasKey scope legacyKey)
    if scopes = [] then .ok s
    else do
      let (rows, s) ← loadIdentityRows env s
      matching.foldlM (fun s legacyKey => scopes.foldlM (fun s scope =>
        materializeRecord env rows s legacyKey scope) s) s

/-- `_load_hidden_media_identity` -/
def loadHiddenMediaIdentity (s : State) (itemId : ℕ) :
    Except DbError ((Option MediaRow × Option Payload) × State) :=
  match s.db.media.find? fun row => decide (row.id = itemId) with
  | none => .ok ((none, none), s)
  | some row => do
    let (payload, s) ← resolveHiddenCopyIdentityPayload env s row
    return ((some row, payload), s)

/-- How all four functions begin. -/
def prepare (s : State) (itemId : ℕ) (userId : Option ℕ) (includeGlobal : Bool) :
    Except DbError ((Option MediaRow × Option Payload) × State) := do
  let s ← materializeLegacyHiddenCoverageForItem env s itemId userId includeGlobal
  loadHiddenMediaIdentity env s itemId

/-- `representative_media_item_id = excluded.representative_media_item_id` -/
def takeRepresentative (new old : HiddenKey) : HiddenKey :=
  { old with representativeMediaItemId := new.representativeMediaItemId }

/-- `_hide_for_user_in_connection`, and at the scope `everyone` `_hide_globally_in_connection` -/
def hideInConnection (s : State) (scope : Scope) (hiddenByUserId itemId : ℕ)
    (movieIdentity : Option Payload) (hiddenAt : String) : Except DbError State := do
  let s ← s.look env
  let known := s.db.items.any fun item => decide (item.scope = scope ∧ item.mediaItemId = itemId)
  let s := { s with db := { s.db with
    items := if known then s.db.items
      else s.db.items ++ [⟨scope, itemId, hiddenByUserId, hiddenAt⟩] } }
  match movieIdentity with
  | none => return s
  | some payload =>
    let s ← s.look env
    let new := { payload.record scope hiddenByUserId hiddenAt with
      representativeMediaItemId := some itemId }
    return { s with db := { s.db with keys := upsertKey s.db.keys new (takeRepresentative new) } }

/-- `_show_for_user_in_connection`, and at the scope `everyone` `_show_globally_in_connection` -/
def showInConnection (s : State) (scope : Scope) (itemId : ℕ) (movieIdentity : Option Payload) :
    Except DbError State := do
  let s ← s.look env
  let s := { s with db := { s.db with
    items := s.db.items.filter fun item =>
      !decide (item.scope = scope ∧ item.mediaItemId = itemId) } }
  match movieIdentity with
  | none => return s
  | some payload => deleteKey env s scope payload.movieKey

/-- A transaction: an exception rolls everything back. -/
def transaction (s : State) (body : Except DbError State) : Except DbError Unit × State :=
  match body with
  | .ok s' => (.ok (), s')
  | .error e => (.error e, s)

/-- `hide_media_item_for_user` -/
def hideMediaItemForUser (s : State) (userId itemId : ℕ) : Except DbError Unit × State :=
  transaction s do
    let (item, s) ← prepare env s itemId (some userId) false
    if item.1 = none then throw .notFound
    let s ← hideInConnection env s (.user userId) userId itemId item.2 (env.now s.tick)
    s.look env

/-- `hide_media_item_globally`; the last look but one writes the audit event. -/
def hideMediaItemGlobally (s : State) (actorUserId itemId : ℕ) : Except DbError Unit × State :=
  transaction s do
    let (item, s) ← prepare env s itemId none true
    if item.1 = none then throw .notFound
    let s ← hideInConnection env s .everyone actorUserId itemId item.2 (env.now s.tick)
    let s ← s.look env
    s.look env

/-- `show_media_item_for_user` -/
def showMediaItemForUser (s : State) (userId itemId : ℕ) : Except DbError Unit × State :=
  transaction s do
    let (item, s) ← prepare env s itemId (some userId) false
    let s ← showInConnection env s (.user userId) itemId item.2
    s.look env

/-- `show_media_item_globally`; the last look but one writes the audit event. -/
def showMediaItemGlobally (s : State) (itemId : ℕ) : Except DbError Unit × State :=
  transaction s do
    let (item, s) ← prepare env s itemId none true
    let s ← showInConnection env s .everyone itemId item.2
    let s ← s.look env
    s.look env

/-! ### Replacing the legacy keys of an item -/

/-- A key of `db` that is gone stands at all rows that carry it with their copy identities. -/
def Covering (db db' : Db) : Prop :=
  ∀ scope key, db.HasKey scope key → db'.HasKey scope key ∨
    ∀ row, db.Carries env key row → ∃ c, row.hiddenCopyIdentity = some c ∧ db'.HasKey scope c.text

variable {env}

/-- Replacements by all rows change nothing that is hidden. -/
theorem Covering.hiddenAt {db db' : Db} (h : Covering env db db')
    (hmigrating : Migrating env db db') (hdistinct : db.DistinctIdentities) (scope : Scope) :
    db'.HiddenAt env scope = db.HiddenAt env scope := by
  refine Set.Subset.antisymm (hmigrating.hiddenAt_subset hdistinct scope) ?_
  rintro i ⟨row, hrow, rfl, hhidden⟩
  rcases hhidden with hitem | ⟨key, hkey, hhas⟩
  · exact hmigrating.hidden_of_direct hrow (Or.inl hitem)
  · rcases (mem_hiddenKeyCandidates env).mp hkey with ⟨c, hc, rfl⟩ | hlegacy
    · exact hmigrating.hidden_of_direct hrow (Or.inr ⟨c, hc, hhas⟩)
    · rcases h scope key hhas with hkept | hall
      · exact ⟨row, hmigrating.media ▸ hrow, rfl, Or.inr ⟨key, hkey, hkept⟩⟩
      · obtain ⟨c, hc, hnew⟩ := hall row ⟨hrow, hlegacy⟩
        exact ⟨row, hmigrating.media ▸ hrow, rfl, Or.inr ⟨c.text,
          (mem_hiddenKeyCandidates env).mpr (Or.inl ⟨c, hc, rfl⟩), hnew⟩⟩

/-- A part of the replacements that `db` and the state are apart. -/
structure Materialized (env : Env) (db : Db) (s s' : State) : Prop where
  migrating : Migrating env db s'.db
  covering : Covering env db s'.db
  legacy : ∀ scope key, isCopyKey key = false → s'.db.HasKey scope key → s.db.HasKey scope key

/-- One legacy key at one scope; all rows have copy identities. -/
theorem materializeRecord_spec {db : Db} {s s' : State} {legacyKey : String} {scope : Scope}
    (hmigrating : Migrating env db s.db) (hcovering : Covering env db s.db)
    (hidentities : ∀ row ∈ db.media, ∃ c, row.hiddenCopyIdentity = some c)
    (hlegacy : isCopyKey legacyKey = false)
    (h : materializeRecord env db.media s legacyKey scope = .ok s') :
    Materialized env db s s' ∧
      ((∃ row, db.Carries env legacyKey row) → ¬s'.db.HasKey scope legacyKey) := by
  have hsame : Materialized env db s s := ⟨hmigrating, hcovering, fun _ _ _ hhas => hhas⟩
  rw [materializeRecord] at h
  split at h
  · -- there is no record of the key
    next hfind =>
    rw [← Except.ok.inj h]
    refine ⟨hsame, fun _ => ?_⟩
    rintro ⟨key, hkey, hscope, hmovie⟩
    exact List.find?_eq_none.mp hfind key hkey (decide_eq_true ⟨hscope, hmovie⟩)
  next record hfind =>
  have hfound := List.find?_some hfind
  obtain ⟨rfl, rfl⟩ := of_decide_eq_true hfound
  split at h
  · -- no row carries the key
    next hnone =>
    rw [← Except.ok.inj h]
    refine ⟨hsame, ?_⟩
    rintro ⟨row, hcarries⟩
    have hmem := mem_legacyCandidates.mpr hcarries
    rw [hnone] at hmem
    cases hmem
  next hsome =>
  obtain ⟨⟨done, replaced⟩, hreplace, h⟩ := Except.bind_eq_ok_iff.mp h
  have hstate := Except.ok.inj h
  subst hstate
  have hrows : ∀ row ∈ legacyCandidates env db.media record.movieKey,
      Resolved env row ∧ db.Carries env record.movieKey row := by
    intro row hrow
    have hcarries := mem_legacyCandidates.mp hrow
    exact ⟨Or.inl (hidentities row hcarries.1), hcarries⟩
  have hhas : s.db.HasKey record.scope record.movieKey :=
    ⟨record, List.mem_of_find?_eq_some hfind, rfl, rfl⟩
  have hmigrating' := replaceLegacyKey_migrating hmigrating hrows hsome
    (hmigrating.hasKey_of_legacy hlegacy hhas)
    (Or.inr fun row hcarries => mem_legacyCandidates.mpr hcarries) hreplace
  obtain ⟨-, -, ⟨-, -, row, hrow, hnone⟩ | ⟨-, -, hkeys⟩⟩ :=
    replaceLegacyKey_spec (fun row hrow => (hrows row hrow).1) hreplace
  -- every row has an identity, and so the key is replaced
  · obtain ⟨c, hc⟩ := hidentities row (hrows row hrow).2.1
    rw [hnone] at hc
    cases hc
  have hcopies : ∀ scope (c : CopyIdentity), s.db.HasKey scope c.text →
      replaced.db.HasKey scope c.text := by
    intro scope c hold
    refine (hkeys scope c.text).mpr ⟨Or.inl hold, fun heq => ?_⟩
    rw [← heq.2, c.isCopyKey_text] at hlegacy
    cases hlegacy
  refine ⟨⟨hmigrating', fun scope key hbase => ?_, fun scope key hkey hnew => ?_⟩,
    fun _ hnew => ((hkeys _ _).mp hnew).2 ⟨rfl, rfl⟩⟩
  · rcases hcovering scope key hbase with hmid | hall
    · by_cases heq : scope = record.scope ∧ key = record.movieKey
      · obtain ⟨rfl, rfl⟩ := heq
        refine Or.inr fun row hcarries => ?_
        obtain ⟨c, hc⟩ := hidentities row hcarries.1
        refine ⟨c, hc, (hkeys _ c.text).mpr ⟨Or.inr ⟨rfl, row,
          mem_legacyCandidates.mpr hcarries, c, hc, rfl⟩, fun heq => ?_⟩⟩
        rw [← heq.2, c.isCopyKey_text] at hlegacy
        cases hlegacy
      · exact Or.inl ((hkeys scope key).mpr ⟨Or.inl hmid, heq⟩)
    · refine Or.inr fun row hcarries => ?_
      obtain ⟨c, hc, hmid⟩ := hall row hcarries
      exact ⟨c, hc, hcopies scope c hmid⟩
  · obtain ⟨hold | ⟨-, -, -, c, -, rfl⟩, -⟩ := (hkeys scope key).mp hnew
    · exact hold
    · rw [c.isCopyKey_text] at hkey
      cases hkey

theorem Materialized.trans {db : Db} {s s' s'' : State} (h : Materialized env db s s')
    (h' : Materialized env db s' s'') : Materialized env db s s'' where
  migrating := h'.migrating
  covering := h'.covering
  legacy := fun scope key hkey hhas => h.legacy scope key hkey (h'.legacy scope key hkey hhas)

/-- One legacy key at some scopes. -/
theorem materializeScopes_spec {db : Db} {scopes : List Scope} {s s' : State} {legacyKey : String}
    (hmigrating : Migrating env db s.db) (hcovering : Covering env db s.db)
    (hidentities : ∀ row ∈ db.media, ∃ c, row.hiddenCopyIdentity = some c)
    (hlegacy : isCopyKey legacyKey = false)
    (h : scopes.foldlM (fun s scope => materializeRecord env db.media s legacyKey scope) s =
      .ok s') :
    Materialized env db s s' ∧ ((∃ row, db.Carries env legacyKey row) →
      ∀ scope ∈ scopes, ¬s'.db.HasKey scope legacyKey) := by
  induction scopes generalizing s with
  | nil =>
    rw [← Except.ok.inj h]
    refine ⟨⟨hmigrating, hcovering, fun _ _ _ hhas => hhas⟩, fun _ scope hscope => ?_⟩
    cases hscope
  | cons scope rest ih =>
    rw [List.foldlM_cons] at h
    obtain ⟨next, hrecord, h⟩ := Except.bind_eq_ok_iff.mp h
    obtain ⟨hstep, hgone⟩ :=
      materializeRecord_spec hmigrating hcovering hidentities hlegacy hrecord
    obtain ⟨hafter, hrest⟩ := ih hstep.migrating hstep.covering h
    refine ⟨hstep.trans hafter, fun hcarried scope' hscope => ?_⟩
    rcases List.mem_cons.mp hscope with rfl | hscope
    · exact fun hhas => hgone hcarried (hafter.legacy _ _ hlegacy hhas)
    · exact hrest hcarried scope' hscope

/-- Some legacy keys at some scopes. -/
theorem materializeKeys_spec {db : Db} {scopes : List Scope} {keys : List String} {s s' : State}
    (hmigrating : Migrating env db s.db) (hcovering : Covering env db s.db)
    (hidentities : ∀ row ∈ db.media, ∃ c, row.hiddenCopyIdentity = some c)
    (hkeys : ∀ key ∈ keys, ∃ row, db.Carries env key row)
    (h : keys.foldlM (fun s legacyKey => scopes.foldlM (fun s scope =>
      materializeRecord env db.media s legacyKey scope) s) s = .ok s') :
    Materialized env db s s' ∧
      ∀ key ∈ keys, ∀ scope ∈ scopes, ¬s'.db.HasKey scope key := by
  induction keys generalizing s with
  | nil =>
    rw [← Except.ok.inj h]
    refine ⟨⟨hmigrating, hcovering, fun _ _ _ hhas => hhas⟩, fun key hkey => ?_⟩
    cases hkey
  | cons key rest ih =>
    rw [List.foldlM_cons] at h
    obtain ⟨next, hscopes, h⟩ := Except.bind_eq_ok_iff.mp h
    obtain ⟨row, hcarries⟩ := hkeys key (List.mem_cons_self ..)
    have hlegacy := not_isCopyKey_of_mem_legacy env hcarries.2
    obtain ⟨hstep, hgone⟩ :=
      materializeScopes_spec hmigrating hcovering hidentities hlegacy hscopes
    obtain ⟨hafter, hrest⟩ :=
      ih hstep.migrating hstep.covering (fun k hk => hkeys k (List.mem_cons_of_mem _ hk)) h
    refine ⟨hstep.trans hafter, fun k hk scope hscope => ?_⟩
    rcases List.mem_cons.mp hk with rfl | hk
    · exact fun hhas => hgone ⟨row, hcarries⟩ scope hscope (hafter.legacy _ _ hlegacy hhas)
    · exact hrest k hk scope hscope

/-- No legacy key of the item is left at the scopes. -/
def Cleared (env : Env) (db : Db) (itemId : ℕ) (scopes : List Scope) : Prop :=
  ∀ row ∈ db.media, row.id = itemId → ∀ scope ∈ scopes, ∀ key ∈ legacyHiddenKeysForRow env row,
    ¬db.HasKey scope key

/-- The replacement either finds nothing to do, or resolves all rows and replaces by all rows. -/
theorem materialize_spec {s s' : State} {itemId : ℕ} {userId : Option ℕ} {includeGlobal : Bool}
    (hderivable : ∀ row ∈ s.db.media, ¬Underivable env row)
    (h : materializeLegacyHiddenCoverageForItem env s itemId userId includeGlobal = .ok s') :
    Cleared env s'.db itemId (coverageScopes userId includeGlobal) ∧
      (s' = s ∨ ∃ db, Resolves s.db db ∧ Migrating env db s'.db ∧ Covering env db s'.db ∧
        ∀ row ∈ db.media, ∃ c, row.hiddenCopyIdentity = some c) := by
  rw [materializeLegacyHiddenCoverageForItem] at h
  split at h
  · next hfind =>
    have hstate := Except.ok.inj h
    subst hstate
    refine ⟨fun row hrow hid => ?_, Or.inl rfl⟩
    exact absurd (decide_eq_true hid) (List.find?_eq_none.mp hfind row hrow)
  next selected hfind =>
  have hselected := List.mem_of_find?_eq_some hfind
  have hselectedId : selected.id = itemId := by
    have hfound := List.find?_some hfind
    exact of_decide_eq_true hfound
  dsimp only at h
  split at h
  · next hnone =>
    have hstate := Except.ok.inj h
    subst hstate
    refine ⟨fun row hrow hid scope hscope key hkey hhas => ?_, Or.inl rfl⟩
    rw [s.db.row_eq hrow hselected (hid.trans hselectedId.symm)] at hkey
    refine List.filter_eq_nil_iff.mp hnone scope hscope ?_
    exact List.any_eq_true.mpr ⟨key, hkey, decide_eq_true hhas⟩
  · obtain ⟨⟨rows, loaded⟩, hload, h⟩ := Except.bind_eq_ok_iff.mp h
    obtain ⟨hresolves, rfl, hresolved⟩ := loadIdentityRows_spec hload
    have hidentities : ∀ row ∈ loaded.db.media, ∃ c, row.hiddenCopyIdentity = some c := by
      intro row hrow
      rcases hresolved row hrow with hsome | hunder
      · exact hsome
      · obtain ⟨r, hr, rfl | ⟨-, c, rfl⟩⟩ := hresolves.row_of hrow
        · exact absurd hunder (hderivable row hr)
        · exact ⟨c, rfl⟩
    obtain ⟨selected', hselected', hfilled⟩ := hresolves.row hselected
    have hbase : Covering env loaded.db loaded.db := fun _ _ hhas => Or.inl hhas
    have hcarried : ∀ key ∈ legacyHiddenKeysForRow env selected,
        ∃ row, loaded.db.Carries env key row := by
      intro key hkey
      exact ⟨selected', hselected', hfilled.legacy ▸ hkey⟩
    obtain ⟨hmaterialized, hgone⟩ :=
      materializeKeys_spec (Migrating.of_eq rfl rfl rfl) hbase hidentities hcarried h
    refine ⟨fun row hrow hid scope hscope key hkey hhas => ?_, Or.inr ⟨loaded.db, hresolves,
      hmaterialized.migrating, hmaterialized.covering, hidentities⟩⟩
    rw [hmaterialized.migrating.media] at hrow
    have hrowId : row.id = selected'.id := hid.trans (hselectedId.symm.trans hfilled.id_eq.symm)
    rw [loaded.db.row_eq hrow hselected' hrowId, hfilled.legacy] at hkey
    -- the scopes at which there was no legacy key of the item have none now
    by_cases hopen : scope ∈ (coverageScopes userId includeGlobal).filter fun scope =>
        (legacyHiddenKeysForRow env selected).any fun legacyKey =>
          decide (s.db.HasKey scope legacyKey)
    · exact hgone key hkey scope hopen hhas
    · refine hopen (List.mem_filter.mpr ⟨hscope, List.any_eq_true.mpr ⟨key, hkey, ?_⟩⟩)
      have hold := hmaterialized.legacy scope key (not_isCopyKey_of_mem_legacy env hkey) hhas
      exact decide_eq_true (hresolves.hasKey_iff.mp hold)

/-! ### Before the records of the item are written -/

/-- What the four functions start from. -/
structure Prepared (env : Env) (db : Db) (itemId : ℕ) (scopes : List Scope)
    (found : Option MediaRow × Option Payload) (db' : Db) : Prop where
  base : ∃ mid, Resolves db mid ∧ Migrating env mid db' ∧ Covering env mid db'
  cleared : Cleared env db' itemId scopes
  found : found.1 = none ∧ found.2 = none ∧ (∀ row ∈ db'.media, row.id ≠ itemId) ∨
    ∃ row ∈ db'.media, row.id = itemId ∧ ∃ c payload, row.hiddenCopyIdentity = some c ∧
      found.1 ≠ none ∧ found.2 = some payload ∧ payload.movieKey = c.text

theorem Prepared.hiddenAt {db db' : Db} {itemId : ℕ} {scopes : List Scope}
    {found : Option MediaRow × Option Payload} (h : Prepared env db itemId scopes found db')
    (hdistinct : db.DistinctIdentities) (scope : Scope) :
    db'.HiddenAt env scope = db.HiddenAt env scope ∪ Gained db db' scope := by
  obtain ⟨mid, hresolves, hmigrating, hcovering⟩ := h.base
  have hgained : Gained db db' scope = Gained db mid scope := by
    rw [Gained, Gained, hmigrating.media]
  rw [hcovering.hiddenAt hmigrating (hresolves.distinct hdistinct), hresolves.hiddenAt, hgained]

theorem Prepared.distinct {db db' : Db} {itemId : ℕ} {scopes : List Scope}
    {found : Option MediaRow × Option Payload} (h : Prepared env db itemId scopes found db')
    (hdistinct : db.DistinctIdentities) : db'.DistinctIdentities := by
  obtain ⟨mid, hresolves, hmigrating, -⟩ := h.base
  rw [Db.DistinctIdentities, hmigrating.media]
  exact hresolves.distinct hdistinct

theorem prepare_spec {s s' : State} {itemId : ℕ} {userId : Option ℕ} {includeGlobal : Bool}
    {found : Option MediaRow × Option Payload}
    (hderivable : ∀ row ∈ s.db.media, ¬Underivable env row)
    (h : prepare env s itemId userId includeGlobal = .ok (found, s')) :
    Prepared env s.db itemId (coverageScopes userId includeGlobal) found s'.db := by
  rw [prepare] at h
  obtain ⟨covered, hmaterialize, h⟩ := Except.bind_eq_ok_iff.mp h
  obtain ⟨hcleared, hcases⟩ := materialize_spec hderivable hmaterialize
  rw [loadHiddenMediaIdentity] at h
  split at h
  · next hfind =>
    obtain ⟨rfl, hstate⟩ := Prod.mk.inj (Except.ok.inj h)
    subst hstate
    refine ⟨?_, hcleared, Or.inl ⟨rfl, rfl, fun row hrow hid => ?_⟩⟩
    · rcases hcases with rfl | ⟨db, hresolves, hmigrating, hcovering, -⟩
      · exact ⟨_, Resolves.refl _, Migrating.of_eq rfl rfl rfl, fun _ _ hhas => Or.inl hhas⟩
      · exact ⟨db, hresolves, hmigrating, hcovering⟩
    · exact List.find?_eq_none.mp hfind row hrow (decide_eq_true hid)
  next row hfind =>
  have hrow := List.mem_of_find?_eq_some hfind
  have hrowId : row.id = itemId := by
    have hfound := List.find?_some hfind
    exact of_decide_eq_true hfound
  obtain ⟨⟨payload, resolved⟩, hpayload, h⟩ := Except.bind_eq_ok_iff.mp h
  obtain ⟨rfl, hstate⟩ := Prod.mk.inj (Except.ok.inj h)
  subst hstate
  rw [resolveHiddenCopyIdentityPayload] at hpayload
  obtain ⟨⟨identity, resolved'⟩, hresolve, hpayload⟩ := Except.bind_eq_ok_iff.mp hpayload
  obtain ⟨rfl, hstate⟩ := Prod.mk.inj (Except.ok.inj hpayload)
  subst hstate
  obtain ⟨hresolves', row', hrow', hfilled, hresolved, hidentity⟩ := resolve_resolves hrow hresolve
  have hkeep : Cleared env resolved'.db itemId (coverageScopes userId includeGlobal) := by
    intro r hr hid scope hscope key hkey hhas
    rw [resolved'.db.row_eq hr hrow' (hid.trans (hrowId.symm.trans hfilled.id_eq.symm)),
      hfilled.legacy] at hkey
    exact hcleared row hrow hrowId scope hscope key hkey (hresolves'.hasKey_iff.mp hhas)
  have hfound : ∃ c, identity = some c := by
    rcases hresolved with ⟨c, hc⟩ | hunder
    · exact ⟨c, hidentity ▸ hc⟩
    · -- the row is one of those that the library began with, or has an identity
      rcases hcases with rfl | ⟨db, -, hmigrating, -, hidentities⟩
      · obtain rfl | ⟨-, c, rfl⟩ := hfilled
        · exact absurd hunder (hderivable row' hrow)
        · cases hunder.1
      · obtain ⟨c, hc⟩ := hidentities row (hmigrating.media ▸ hrow)
        exact ⟨c, hidentity ▸ hfilled.identity hc⟩
  obtain ⟨c, rfl⟩ := hfound
  refine ⟨?_, hkeep, Or.inr ⟨row', hrow', hfilled.id_eq.trans hrowId, c, payloadOf env row c,
    hidentity, Option.some_ne_none _, rfl, rfl⟩⟩
  rcases hcases with rfl | ⟨db, hresolves, hmigrating, hcovering, hidentities⟩
  · exact ⟨_, hresolves', Migrating.of_eq rfl rfl rfl, fun _ _ hhas => Or.inl hhas⟩
  · have hdone : Resolved env row := Or.inl (hidentities row (hmigrating.media ▸ hrow))
    obtain ⟨-, hmedia, hitems, hkeys⟩ := resolve_resolved hdone hresolve
    refine ⟨db, hresolves, hmigrating.trans (Migrating.of_eq hmedia hitems hkeys), ?_⟩
    intro scope key hhas
    have hsame : ∀ scope key, resolved'.db.HasKey scope key ↔ covered.db.HasKey scope key := by
      intro scope key
      rw [Db.HasKey, Db.HasKey, hkeys]
    simp only [hsame]
    exact hcovering scope key hhas

/-! ### The records of the item -/

theorem hideInConnection_spec {s s' : State} {scope : Scope} {hiddenByUserId itemId : ℕ}
    {payload : Payload} {hiddenAt : String}
    (h : hideInConnection env s scope hiddenByUserId itemId (some payload) hiddenAt = .ok s') :
    s'.db.media = s.db.media ∧
      (∀ scope' i, s'.db.HasItem scope' i ↔
        s.db.HasItem scope' i ∨ scope = scope' ∧ itemId = i) ∧
      ∀ scope' key, s'.db.HasKey scope' key ↔
        s.db.HasKey scope' key ∨ scope = scope' ∧ payload.movieKey = key := by
  rw [hideInConnection] at h
  obtain ⟨looked, hlook, h⟩ := Except.bind_eq_ok_iff.mp h
  obtain ⟨looked', hlook', h⟩ := Except.bind_eq_ok_iff.mp h
  have hdb := State.look_eq hlook
  have hdb' := State.look_eq hlook'
  rw [← Except.ok.inj h]
  simp only [hdb', hdb]
  refine ⟨trivial, fun scope' i => ?_, fun scope' key => upsertKey_hasKey fun old => ⟨rfl, rfl⟩⟩
  simp only [Db.HasItem]
  split
  · next hknown =>
    obtain ⟨item, hitem, hsame⟩ := List.any_eq_true.mp hknown
    obtain ⟨hscope, hid⟩ := of_decide_eq_true hsame
    refine ⟨Or.inl, ?_⟩
    rintro (hold | ⟨rfl, rfl⟩)
    · exact hold
    · exact ⟨item, hitem, hscope, hid⟩
  · constructor
    · rintro ⟨item, hitem, hscope, hid⟩
      rcases List.mem_append.mp hitem with hitem | hitem
      · exact Or.inl ⟨item, hitem, hscope, hid⟩
      · rw [List.mem_singleton.mp hitem] at hscope hid
        exact Or.inr ⟨hscope, hid⟩
    · rintro (⟨item, hitem, hscope, hid⟩ | ⟨hscope, hid⟩)
      · exact ⟨item, List.mem_append_left _ hitem, hscope, hid⟩
      · exact ⟨_, List.mem_append_right _ (List.mem_singleton_self _), hscope, hid⟩

theorem showInConnection_spec {s s' : State} {scope : Scope} {itemId : ℕ}
    {movieIdentity : Option Payload}
    (h : showInConnection env s scope itemId movieIdentity = .ok s') :
    s'.db.media = s.db.media ∧
      (∀ scope' i, s'.db.HasItem scope' i ↔
        s.db.HasItem scope' i ∧ ¬(scope' = scope ∧ i = itemId)) ∧
      ∀ scope' key, s'.db.HasKey scope' key ↔ s.db.HasKey scope' key ∧
        ∀ payload, movieIdentity = some payload → ¬(scope' = scope ∧ key = payload.movieKey) := by
  rw [showInConnection] at h
  obtain ⟨looked, hlook, h⟩ := Except.bind_eq_ok_iff.mp h
  have hdb := State.look_eq hlook
  have hitems : ∀ scope' i, (∃ item ∈ s.db.items.filter fun item =>
        !decide (item.scope = scope ∧ item.mediaItemId = itemId),
        item.scope = scope' ∧ item.mediaItemId = i) ↔
      s.db.HasItem scope' i ∧ ¬(scope' = scope ∧ i = itemId) := by
    intro scope' i
    simp only [Db.HasItem, List.mem_filter, Bool.not_eq_true', decide_eq_false_iff_not]
    constructor
    · rintro ⟨item, ⟨hitem, hnot⟩, rfl, rfl⟩
      exact ⟨⟨item, hitem, rfl, rfl⟩, hnot⟩
    · rintro ⟨⟨item, hitem, rfl, rfl⟩, hnot⟩
      exact ⟨item, ⟨hitem, hnot⟩, rfl, rfl⟩
  rcases movieIdentity with _ | payload
  · rw [← Except.ok.inj h]
    simp only [hdb]
    refine ⟨trivial, hitems, fun scope' key => ?_⟩
    refine ⟨fun hhas => ⟨hhas, fun payload hnone => ?_⟩, And.left⟩
    cases hnone
  · obtain ⟨hmedia, hdeleted, hkeys⟩ := deleteKey_spec h
    dsimp only at hmedia hdeleted hkeys
    rw [hdb] at hmedia hdeleted
    refine ⟨hmedia, fun scope' i => ?_, fun scope' key => ?_⟩
    · rw [Db.HasItem, hdeleted]
      exact hitems scope' i
    · have hsame : s.db.HasKey scope' key ↔ looked.db.HasKey scope' key := by rw [hdb]
      rw [hkeys scope' key, hsame]
      refine and_congr_right fun _ => ?_
      constructor
      · intro hnot payload' hsome
        cases Option.some.inj hsome
        exact hnot
      · exact fun hall => hall payload rfl

/-- Records of one item at one scope hide that item there, and nothing else. -/
theorem hiddenAt_hide {db db' : Db} {scope : Scope} {row : MediaRow} {c : CopyIdentity}
    (hdistinct : db.DistinctIdentities) (hrow : row ∈ db.media)
    (hc : row.hiddenCopyIdentity = some c) (hmedia : db'.media = db.media)
    (hitem : ∀ scope' i, db'.HasItem scope' i ↔ db.HasItem scope' i ∨ scope = scope' ∧ row.id = i)
    (hkey : ∀ scope' key, db'.HasKey scope' key ↔
      db.HasKey scope' key ∨ scope = scope' ∧ c.text = key) (scope' : Scope) :
    db'.HiddenAt env scope' =
      if scope' = scope then db.HiddenAt env scope' ∪ {row.id} else db.HiddenAt env scope' := by
  have hsubset : db.HiddenAt env scope' ⊆ db'.HiddenAt env scope' := by
    rintro i ⟨r, hr, rfl, hhidden⟩
    refine ⟨r, hmedia ▸ hr, rfl, ?_⟩
    rcases hhidden with hhas | ⟨key, hcandidate, hhas⟩
    · exact Or.inl ((hitem _ _).mpr (Or.inl hhas))
    · exact Or.inr ⟨key, hcandidate, (hkey _ _).mpr (Or.inl hhas)⟩
  -- a row that is hidden by a new record is the row itself
  have hnew : ∀ i ∈ db'.HiddenAt env scope', i ∈ db.HiddenAt env scope' ∨
      scope = scope' ∧ i = row.id := by
    rintro i ⟨r, hr, rfl, hhidden⟩
    rw [hmedia] at hr
    rcases hhidden with hhas | ⟨key, hcandidate, hhas⟩
    · rcases (hitem _ _).mp hhas with hold | ⟨hscope, hid⟩
      · exact Or.inl ⟨r, hr, rfl, Or.inl hold⟩
      · exact Or.inr ⟨hscope, hid.symm⟩
    · rcases (hkey _ _).mp hhas with hold | ⟨hscope, htext⟩
      · exact Or.inl ⟨r, hr, rfl, Or.inr ⟨key, hcandidate, hold⟩⟩
      · rcases (mem_hiddenKeyCandidates env).mp hcandidate with ⟨c', hc', htext'⟩ | hlegacy
        · rw [CopyIdentity.ext (htext'.trans htext.symm)] at hc'
          rw [hdistinct r hr row hrow c hc' hc]
          exact Or.inr ⟨hscope, rfl⟩
        · have hcopy := not_isCopyKey_of_mem_legacy env hlegacy
          rw [← htext, c.isCopyKey_text] at hcopy
          cases hcopy
  split
  · next hscope =>
    refine Set.Subset.antisymm (fun i hi => ?_) (Set.union_subset hsubset ?_)
    · exact (hnew i hi).imp_right fun h => h.2
    · rintro i rfl
      exact ⟨row, hmedia ▸ hrow, rfl, Or.inl ((hitem _ _).mpr (Or.inr ⟨hscope.symm, rfl⟩))⟩
  · next hscope =>
    refine Set.Subset.antisymm (fun i hi => ?_) hsubset
    exact (hnew i hi).resolve_right fun h => hscope h.1.symm

/-- Without its records and legacy keys at a scope an item is not hidden there, and nothing else
has changed. -/
theorem hiddenAt_show {db db' : Db} {scope : Scope} {itemId : ℕ} {movieIdentity : Option Payload}
    (hdistinct : db.DistinctIdentities) (hmedia : db'.media = db.media)
    (hcleared : ∀ row ∈ db.media, row.id = itemId →
      ∀ key ∈ legacyHiddenKeysForRow env row, ¬db.HasKey scope key)
    (hfound : (∀ row ∈ db.media, row.id ≠ itemId) ∧ movieIdentity = none ∨
      ∃ row ∈ db.media, row.id = itemId ∧ ∃ c payload, row.hiddenCopyIdentity = some c ∧
        movieIdentity = some payload ∧ payload.movieKey = c.text)
    (hitem : ∀ scope' i, db'.HasItem scope' i ↔
      db.HasItem scope' i ∧ ¬(scope' = scope ∧ i = itemId))
    (hkey : ∀ scope' key, db'.HasKey scope' key ↔ db.HasKey scope' key ∧
      ∀ payload, movieIdentity = some payload → ¬(scope' = scope ∧ key = payload.movieKey))
    (scope' : Scope) :
    db'.HiddenAt env scope' =
      if scope' = scope then db.HiddenAt env scope' \ {itemId} else db.HiddenAt env scope' := by
  have hsubset : db'.HiddenAt env scope' ⊆ db.HiddenAt env scope' := by
    rintro i ⟨r, hr, rfl, hhidden⟩
    refine ⟨r, hmedia ▸ hr, rfl, ?_⟩
    rcases hhidden with hhas | ⟨key, hcandidate, hhas⟩
    · exact Or.inl ((hitem _ _).mp hhas).1
    · exact Or.inr ⟨key, hcandidate, ((hkey _ _).mp hhas).1⟩
  -- the records of other items, and those at other scopes, are still there
  have hother : ∀ r ∈ db.media, r.id ≠ itemId ∨ scope' ≠ scope →
      db.RowHidden env scope' r → db'.RowHidden env scope' r := by
    rintro r hr hne (hhas | ⟨key, hcandidate, hhas⟩)
    · refine Or.inl ((hitem _ _).mpr ⟨hhas, fun heq => ?_⟩)
      exact hne.elim (fun hid => hid heq.2) fun hscope => hscope heq.1
    · refine Or.inr ⟨key, hcandidate, (hkey _ _).mpr ⟨hhas, fun payload hpayload heq => ?_⟩⟩
      rcases hne with hid | hscope
      · rcases hfound with ⟨-, hnone⟩ | ⟨row, hrow, hrowId, c, payload', hc, hsome, htext⟩
        · rw [hnone] at hpayload
          cases hpayload
        · rw [hsome] at hpayload
          cases Option.some.inj hpayload
          rcases (mem_hiddenKeyCandidates env).mp hcandidate with ⟨c', hc', htext'⟩ | hlegacy
          · rw [CopyIdentity.ext (htext'.trans (heq.2.trans htext))] at hc'
            rw [hdistinct r hr row hrow c hc' hc] at hid
            exact hid hrowId
          · have hcopy := not_isCopyKey_of_mem_legacy env hlegacy
            rw [heq.2, htext, c.isCopyKey_text] at hcopy
            cases hcopy
      · exact hscope heq.1
  split
  · next hscope =>
    subst hscope
    refine Set.Subset.antisymm (fun i hi => ⟨hsubset hi, ?_⟩) ?_
    · rintro rfl
      obtain ⟨r, hr, rfl, hhidden⟩ := hi
      rw [hmedia] at hr
      rcases hhidden with hhas | ⟨key, hcandidate, hhas⟩
      · exact ((hitem _ _).mp hhas).2 ⟨rfl, rfl⟩
      · obtain ⟨hold, hnot⟩ := (hkey _ _).mp hhas
        rcases (mem_hiddenKeyCandidates env).mp hcandidate with ⟨c', hc', rfl⟩ | hlegacy
        · rcases hfound with ⟨hnone, -⟩ | ⟨row, hrow, hrowId, c, payload, hc, hsome, htext⟩
          · exact hnone r hr rfl
          · rw [db.row_eq hr hrow hrowId.symm, hc] at hc'
            cases Option.some.inj hc'
            exact hnot payload hsome ⟨rfl, htext.symm⟩
        · exact hcleared r hr rfl key hlegacy hold
    · rintro i ⟨⟨r, hr, rfl, hhidden⟩, hne⟩
      exact ⟨r, hmedia ▸ hr, rfl, hother r hr (Or.inl hne) hhidden⟩
  · next hscope =>
    refine Set.Subset.antisymm hsubset ?_
    rintro i ⟨r, hr, rfl, hhidden⟩
    exact ⟨r, hmedia ▸ hr, rfl, hother r hr (Or.inr hscope) hhidden⟩

/-! ### The four functions -/

/-- When the call returns, it has changed what is hidden by `change`, besides the rows that were
given an identity that was hidden; when it raises, nothing has changed. -/
def Changes (env : Env) (db : Db) (outcome : Except DbError Unit × State)
    (change : Scope → Set ℕ → Set ℕ) : Prop :=
  match outcome with
  | (.ok _, s') => ∀ scope, s'.db.HiddenAt env scope =
      change scope (db.HiddenAt env scope ∪ Gained db s'.db scope)
  | (.error _, s') => s'.db = db

/-- Hiding from a prepared state. -/
theorem Prepared.hide {db : Db} {s s' : State} {itemId hiddenByUserId : ℕ} {scopes : List Scope}
    {scope : Scope} {found : Option MediaRow × Option Payload} {hiddenAt : String}
    (hprepared : Prepared env db itemId scopes found s.db) (hdistinct : db.DistinctIdentities)
    (hfound : found.1 ≠ none)
    (h : hideInConnection env s scope hiddenByUserId itemId found.2 hiddenAt = .ok s')
    (scope' : Scope) :
    s'.db.HiddenAt env scope' =
      if scope' = scope then (db.HiddenAt env scope' ∪ Gained db s'.db scope') ∪ {itemId}
      else db.HiddenAt env scope' ∪ Gained db s'.db scope' := by
  rcases hprepared.found with ⟨hnone, -⟩ | ⟨row, hrow, rfl, c, payload, hc, -, hsome, htext⟩
  · exact absurd hnone hfound
  rw [hsome] at h
  obtain ⟨hmedia, hitem, hkey⟩ := hideInConnection_spec h
  simp only [htext] at hkey
  have hgained : Gained db s'.db scope' = Gained db s.db scope' := by
    rw [Gained, Gained, hmedia]
  rw [hiddenAt_hide (hprepared.distinct hdistinct) hrow hc hmedia hitem hkey, hgained,
    hprepared.hiddenAt hdistinct]

/-- Showing from a prepared state. -/
theorem Prepared.show {db : Db} {s s' : State} {itemId : ℕ} {scopes : List Scope} {scope : Scope}
    {found : Option MediaRow × Option Payload}
    (hprepared : Prepared env db itemId scopes found s.db) (hdistinct : db.DistinctIdentities)
    (hscope : scope ∈ scopes) (h : showInConnection env s scope itemId found.2 = .ok s')
    (scope' : Scope) :
    s'.db.HiddenAt env scope' =
      if scope' = scope then (db.HiddenAt env scope' ∪ Gained db s'.db scope') \ {itemId}
      else db.HiddenAt env scope' ∪ Gained db s'.db scope' := by
  obtain ⟨hmedia, hitem, hkey⟩ := showInConnection_spec h
  have hgained : Gained db s'.db scope' = Gained db s.db scope' := by
    rw [Gained, Gained, hmedia]
  have hfound : (∀ row ∈ s.db.media, row.id ≠ itemId) ∧ found.2 = none ∨
      ∃ row ∈ s.db.media, row.id = itemId ∧ ∃ c payload, row.hiddenCopyIdentity = some c ∧
        found.2 = some payload ∧ payload.movieKey = c.text := by
    rcases hprepared.found with ⟨-, hnone, hall⟩ | ⟨row, hrow, hid, c, payload, hc, -, hrest⟩
    · exact Or.inl ⟨hall, hnone⟩
    · exact Or.inr ⟨row, hrow, hid, c, payload, hc, hrest⟩
  rw [hiddenAt_show (hprepared.distinct hdistinct) hmedia
    (fun row hrow hid => hprepared.cleared row hrow hid scope hscope) hfound hitem hkey, hgained,
    hprepared.hiddenAt hdistinct]

theorem changes_transaction {s : State} {body : Except DbError State}
    {change : Scope → Set ℕ → Set ℕ}
    (h : ∀ s', body = .ok s' → ∀ scope, s'.db.HiddenAt env scope =
      change scope (s.db.HiddenAt env scope ∪ Gained s.db s'.db scope)) :
    Changes env s.db (transaction s body) change := by
  rcases body with e | s'
  · exact (rfl : s.db = s.db)
  · exact h s' rfl

/-- **Hiding and showing change one item.**  Hiding an item for a user adds it to what is hidden for
the user, showing it takes it away, and the same holds of the global functions; at every other
scope nothing changes; and a call that raises changes nothing. -/
theorem hide_show_change_one_item (env : Env) (s : State) (hdistinct : s.db.DistinctIdentities)
    (hderivable : ∀ row ∈ s.db.media, ¬Underivable env row) (userId itemId : ℕ) :
    Changes env s.db (hideMediaItemForUser env s userId itemId)
        (fun scope hidden => if scope = .user userId then hidden ∪ {itemId} else hidden) ∧
      Changes env s.db (showMediaItemForUser env s userId itemId)
        (fun scope hidden => if scope = .user userId then hidden \ {itemId} else hidden) ∧
      Changes env s.db (hideMediaItemGlobally env s userId itemId)
        (fun scope hidden => if scope = .everyone then hidden ∪ {itemId} else hidden) ∧
      Changes env s.db (showMediaItemGlobally env s itemId)
        (fun scope hidden => if scope = .everyone then hidden \ {itemId} else hidden) := by
  have huser : Scope.user userId ∈ coverageScopes (some userId) false := List.mem_cons_self ..
  have heveryone : Scope.everyone ∈ coverageScopes none true := List.mem_cons_self ..
  refine ⟨changes_transaction fun s' h scope => ?_, changes_transaction fun s' h scope => ?_,
    changes_transaction fun s' h scope => ?_, changes_transaction fun s' h scope => ?_⟩
  · obtain ⟨⟨found, prepared⟩, hprepare, h⟩ := Except.bind_eq_ok_iff.mp h
    dsimp only at h
    split at h
    · cases h
    next hfound =>
    obtain ⟨written, hwrite, hcommit⟩ := Except.bind_eq_ok_iff.mp h
    rw [State.look_eq hcommit]
    exact (prepare_spec hderivable hprepare).hide hdistinct hfound hwrite scope
  · obtain ⟨⟨found, prepared⟩, hprepare, h⟩ := Except.bind_eq_ok_iff.mp h
    obtain ⟨written, hwrite, hcommit⟩ := Except.bind_eq_ok_iff.mp h
    rw [State.look_eq hcommit]
    exact (prepare_spec hderivable hprepare).show hdistinct huser hwrite scope
  · obtain ⟨⟨found, prepared⟩, hprepare, h⟩ := Except.bind_eq_ok_iff.mp h
    dsimp only at h
    split at h
    · cases h
    next hfound =>
    obtain ⟨written, hwrite, h⟩ := Except.bind_eq_ok_iff.mp h
    obtain ⟨audited, haudit, hcommit⟩ := Except.bind_eq_ok_iff.mp h
    rw [State.look_eq hcommit, State.look_eq haudit]
    exact (prepare_spec hderivable hprepare).hide hdistinct hfound hwrite scope
  · obtain ⟨⟨found, prepared⟩, hprepare, h⟩ := Except.bind_eq_ok_iff.mp h
    obtain ⟨written, hwrite, h⟩ := Except.bind_eq_ok_iff.mp h
    obtain ⟨audited, haudit, hcommit⟩ := Except.bind_eq_ok_iff.mp h
    rw [State.look_eq hcommit, State.look_eq haudit]
    exact (prepare_spec hderivable hprepare).show hdistinct heveryone hwrite scope

instance (env : Env) (row : MediaRow) : Decidable (Underivable env row) :=
  inferInstanceAs (Decidable (row.hiddenCopyIdentity = none ∧
    (localSourceScope env row).1 ≠ "local" ∧ deriveHiddenCopyIdentity env row = none))

/-- User 8 has hidden the film that has no identity yet, in another copy. -/
def recreatedLibrary : Db where
  media := [cloudRow 1 "Up" 2009 "Up.mkv" "abc" none]
  items := []
  keys := [⟨.user 8, (cloudEnv.derivedDigest (.cloudExternalId 3 "abc")).text, "Up", 2009,
    "standard", none, 8, "2025-05-05T00:00:00+00:00"⟩]
  aliases := []
  ids_nodup := by decide

/-- When user 7 hides the film, it gets its identity, and is hidden for user 8 as well. -/
theorem hide_hides_for_another :
    recreatedLibrary.DistinctIdentities ∧
      (∀ row ∈ recreatedLibrary.media, ¬Underivable cloudEnv row) ∧
      ∃ s', hideMediaItemForUser cloudEnv ⟨recreatedLibrary, 0⟩ 7 1 = (.ok (), s') ∧
        1 ∉ recreatedLibrary.HiddenAt cloudEnv (.user 8) ∧
        1 ∈ s'.db.HiddenAt cloudEnv (.user 8) := by
  refine ⟨Db.distinctIdentities_of_nodup (by decide +kernel), by decide +kernel, _, rfl, ?_, ?_⟩
  · decide +kernel
  · decide +kernel

/-- Showing one of the two copies that a legacy key hides. -/
theorem hide_show_change_one_item_legacyLibrary :
    (showMediaItemForUser cloudEnv ⟨legacyLibrary, 0⟩ 7 2).1 = .ok () ∧
      Changes cloudEnv legacyLibrary (showMediaItemForUser cloudEnv ⟨legacyLibrary, 0⟩ 7 2)
        (fun scope hidden => if scope = .user 7 then hidden \ {2} else hidden) :=
  ⟨rfl, (hide_show_change_one_item cloudEnv ⟨legacyLibrary, 0⟩
    (Db.distinctIdentities_of_nodup (by decide +kernel)) (by decide +kernel) 7 2).2.1⟩

end HiddenKeys
