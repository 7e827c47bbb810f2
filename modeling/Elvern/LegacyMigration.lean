/-
Replacing legacy hidden keys by copy identities.

A legacy key may be shared by several rows.  It is replaced by the copy identities of the rows
that are hidden directly and carry it, or by that of the one row that carries it; otherwise it
stays.  `Migrating db db'` says that `db'` comes from `db` by such replacements, and carries
all that is known about what is hidden afterwards.

* `replaceLegacyKey_spec` — one key;
* `Migrating.hiddenAt_subset`, `Migrating.hiddenAt_eq` — what is hidden afterwards;
* `migrate_conservative` — the migration, after the identities of all rows have been resolved.
-/
import Elvern.CollisionRepair

namespace HiddenKeys

variable (env : Env)

/-! ### The migration -/

/-- The rows that carry a legacy key, `_legacy_candidate_index(rows)[key]`. -/
def legacyCandidates (rows : List MediaRow) (movieKey : String) : List MediaRow :=
  rows.filter fun row => decide (movieKey ∈ legacyHiddenKeysForRow env row)

/-- The rows that are hidden directly and carry a legacy key. -/
def directMatches (rows : List MediaRow) (items : List HiddenItem) (scope : Scope)
    (movieKey : String) : List MediaRow :=
  legacyCandidates env ((items.filter fun item => decide (item.scope = scope)).filterMap fun item =>
    rows.find? fun row => decide (row.id = item.mediaItemId)) movieKey

/-- One more row of a list of payloads. -/
def payloadsStep (sofar : List Payload × State) (row : MediaRow) :
    Except DbError (List Payload × State) := do
  let (payload, s) ← resolveHiddenCopyIdentityPayload env sofar.2 row
  return (sofar.1 ++ payload.toList, s)

/-- The payloads of some rows. -/
def payloadsOf (s : State) (rows : List MediaRow) : Except DbError (List Payload × State) :=
  rows.foldlM (payloadsStep env) ([], s)

/-- A legacy record is replaced by the copy keys of some rows, if all of them have one. -/
def replaceLegacyKey (s : State) (record : HiddenKey) (rows : List MediaRow) :
    Except DbError (Bool × State) := do
  let (payloads, s) ← payloadsOf env s rows
  if payloads.length ≠ rows.length then return (false, s)
  else
    let s ← payloads.foldlM (fun s payload => insertCopyKey env s
      (payload.record record.scope record.hiddenByUserId record.hiddenAt)) s
    let s ← deleteKey env s record.scope record.movieKey
    return (true, s)

/-- The rows that a legacy record is replaced by. -/
def migrationRows (rows : List MediaRow) (items : List HiddenItem) (scope : Scope)
    (movieKey : String) : List MediaRow :=
  if directMatches env rows items scope movieKey = [] then legacyCandidates env rows movieKey
  else directMatches env rows items scope movieKey

/-- One legacy record of the migration; `true` when it has been migrated. -/
def migrateRecord (rows : List MediaRow) (items : List HiddenItem) (s : State)
    (record : HiddenKey) : Except DbError (Bool × State) :=
  if directMatches env rows items record.scope record.movieKey = [] ∧
      (migrationRows env rows items record.scope record.movieKey).length ≠ 1 then
    .ok (false, s)
  else replaceLegacyKey env s record (migrationRows env rows items record.scope record.movieKey)

/-- A legacy record, with the numbers of records migrated and retained so far. -/
def migrateStep (rows : List MediaRow) (items : List HiddenItem) (sofar : (ℕ × ℕ) × State)
    (record : HiddenKey) : Except DbError ((ℕ × ℕ) × State) := do
  let (done, s) ← migrateRecord env rows items sofar.2 record
  return (if done then (sofar.1.1 + 1, sofar.1.2) else (sofar.1.1, sofar.1.2 + 1), s)

/-- The counters of `migrate_legacy_hidden_movie_keys`. -/
structure MigrationSummary where
  userLegacyKeysMigrated : ℕ
  userLegacyKeysRetained : ℕ
  globalLegacyKeysMigrated : ℕ
  globalLegacyKeysRetained : ℕ
  deriving DecidableEq

/-- The legacy records of the users, or the ones for everyone. -/
def legacyRecords (db : Db) (ofUsers : Bool) : List HiddenKey :=
  db.keys.filter fun key => !isCopyKey key.movieKey && key.scope.userId.isSome == ofUsers

/-- `migrate_legacy_hidden_movie_keys` -/
def migrateLegacyHiddenMovieKeys (s : State) : Except DbError (MigrationSummary × State) := do
  if s.db.keys.any (fun key => !isCopyKey key.movieKey) = false then return (⟨0, 0, 0, 0⟩, s)
  else
    let (rows, s) ← loadIdentityRows env s
    let items := s.db.items
    let (users, s) ← (legacyRecords s.db true).foldlM (migrateStep env rows items) ((0, 0), s)
    let (everyone, s) ← (legacyRecords s.db false).foldlM (migrateStep env rows items) ((0, 0), s)
    return (⟨users.1, users.2, everyone.1, everyone.2⟩, s)

/-! ### What a replacement does to what is hidden -/

/-- The rows that carry a legacy key, and of these the ones that are hidden directly. -/
def Db.Carries (db : Db) (movieKey : String) (row : MediaRow) : Prop :=
  row ∈ db.media ∧ movieKey ∈ legacyHiddenKeysForRow env row

/-- The legacy key has been replaced by the copy keys of rows that carry it: of all that are hidden
directly, or of all. -/
def Settled (db db' : Db) (scope : Scope) (movieKey : String) : Prop :=
  isCopyKey movieKey = false ∧ ∃ rows : List MediaRow, rows ≠ [] ∧
    (∀ row ∈ rows, db.Carries env movieKey row ∧
      ∃ c, row.hiddenCopyIdentity = some c ∧ db'.HasKey scope c.text) ∧
    ((∃ row ∈ rows, db.HasItem scope row.id) ∧
        (∀ row, db.Carries env movieKey row → db.HasItem scope row.id → row ∈ rows) ∨
      ∀ row, db.Carries env movieKey row → row ∈ rows)

/-- `db'` comes from `db` by replacements of legacy keys. -/
structure Migrating (db db' : Db) : Prop where
  media : db'.media = db.media
  items : db'.items = db.items
  sound : ∀ scope key, db'.HasKey scope key → db.HasKey scope key ∨
    ∃ row ∈ db.media, ∃ c, row.hiddenCopyIdentity = some c ∧ c.text = key ∧
      ∃ legacy ∈ legacyHiddenKeysForRow env row, db.HasKey scope legacy
  copies : ∀ scope (c : CopyIdentity), db.HasKey scope c.text → db'.HasKey scope c.text
  settled : ∀ scope key, db.HasKey scope key →
    db'.HasKey scope key ∨ Settled env db db' scope key

variable {env}

namespace Migrating

variable {db db' db'' : Db}

theorem of_eq (hmedia : db'.media = db.media) (hitems : db'.items = db.items)
    (hkeys : db'.keys = db.keys) : Migrating env db db' := by
  have hhas : ∀ scope key, db'.HasKey scope key ↔ db.HasKey scope key := by
    intro scope key
    rw [Db.HasKey, Db.HasKey, hkeys]
  exact
    { media := hmedia
      items := hitems
      sound := fun scope key h => Or.inl ((hhas scope key).mp h)
      copies := fun scope c h => (hhas scope c.text).mpr h
      settled := fun scope key h => Or.inl ((hhas scope key).mpr h) }

theorem hasItem_iff (h : Migrating env db db') {scope : Scope} {i : ℕ} :
    db'.HasItem scope i ↔ db.HasItem scope i := by
  rw [Db.HasItem, Db.HasItem, h.items]

theorem carries_iff (h : Migrating env db db') {key : String} {row : MediaRow} :
    db'.Carries env key row ↔ db.Carries env key row := by
  rw [Db.Carries, Db.Carries, h.media]

/-- A legacy key is never new. -/
theorem hasKey_of_legacy (h : Migrating env db db') {scope : Scope} {key : String}
    (hlegacy : isCopyKey key = false) (hhas : db'.HasKey scope key) : db.HasKey scope key := by
  rcases h.sound scope key hhas with hold | ⟨row, -, c, -, rfl, -⟩
  · exact hold
  · rw [c.isCopyKey_text] at hlegacy
    cases hlegacy

theorem trans (h : Migrating env db db') (h' : Migrating env db' db'') :
    Migrating env db db'' where
  media := h'.media.trans h.media
  items := h'.items.trans h.items
  sound := by
    intro scope key hhas
    rcases h'.sound scope key hhas with hmid | ⟨row, hrow, c, hc, htext, legacy, hlegacy, hmid⟩
    · exact h.sound scope key hmid
    · refine Or.inr ⟨row, h.media ▸ hrow, c, hc, htext, legacy, hlegacy, ?_⟩
      exact h.hasKey_of_legacy (not_isCopyKey_of_mem_legacy env hlegacy) hmid
  copies := fun scope c hhas => h'.copies scope c (h.copies scope c hhas)
  settled := by
    intro scope key hhas
    rcases h.settled scope key hhas with hmid | ⟨hlegacy, rows, hne, hrows, hall⟩
    · rcases h'.settled scope key hmid with hend | ⟨hlegacy, rows, hne, hrows, hall⟩
      · exact Or.inl hend
      · refine Or.inr ⟨hlegacy, rows, hne, fun row hrow => ?_, ?_⟩
        · exact ⟨h.carries_iff.mp (hrows row hrow).1, (hrows row hrow).2⟩
        · simp only [h.carries_iff, h.hasItem_iff] at hall
          exact hall
    · refine Or.inr ⟨hlegacy, rows, hne, fun row hrow => ?_, hall⟩
      obtain ⟨hcarries, c, hc, hmid⟩ := hrows row hrow
      exact ⟨hcarries, c, hc, h'.copies scope c hmid⟩

/-- Nothing is hidden that was not. -/
theorem hiddenAt_subset (h : Migrating env db db') (hdistinct : db.DistinctIdentities)
    (scope : Scope) : db'.HiddenAt env scope ⊆ db.HiddenAt env scope := by
  rintro i ⟨row, hrow, rfl, hhidden⟩
  rw [h.media] at hrow
  refine ⟨row, hrow, rfl, ?_⟩
  rcases hhidden with hitem | ⟨key, hkey, hhas⟩
  · exact Or.inl (h.hasItem_iff.mp hitem)
  · rcases h.sound scope key hhas with hold | ⟨other, hother, c, hc, htext, legacy, hlegacy, hold⟩
    · exact Or.inr ⟨key, hkey, hold⟩
    · rcases (mem_hiddenKeyCandidates env).mp hkey with ⟨c', hc', htext'⟩ | hlegacyKey
      · -- the copy key is that of the row itself, which carries the legacy key
        rw [CopyIdentity.ext (htext'.trans htext.symm)] at hc'
        rw [hdistinct row hrow other hother c hc' hc]
        exact Or.inr ⟨legacy, (mem_hiddenKeyCandidates env).mpr (Or.inr hlegacy), hold⟩
      · have hcopy := not_isCopyKey_of_mem_legacy env hlegacyKey
        rw [← htext, c.isCopyKey_text] at hcopy
        cases hcopy

/-- What is hidden by its id or by its copy identity stays hidden. -/
theorem hidden_of_direct (h : Migrating env db db') {scope : Scope} {row : MediaRow}
    (hrow : row ∈ db.media)
    (hdirect : db.HasItem scope row.id ∨
      ∃ c, row.hiddenCopyIdentity = some c ∧ db.HasKey scope c.text) :
    row.id ∈ db'.HiddenAt env scope := by
  refine ⟨row, h.media ▸ hrow, rfl, ?_⟩
  rcases hdirect with hitem | ⟨c, hc, hhas⟩
  · exact Or.inl (h.hasItem_iff.mpr hitem)
  · exact Or.inr ⟨c.text, (mem_hiddenKeyCandidates env).mpr (Or.inl ⟨c, hc, rfl⟩),
      h.copies scope c hhas⟩

/-- What is hidden is the same, where no legacy key stands at rows of which some are hidden directly
and some are not. -/
theorem hiddenAt_eq (h : Migrating env db db') (hdistinct : db.DistinctIdentities) {scope : Scope}
    (huniform : ∀ key, isCopyKey key = false → db.HasKey scope key →
      (∀ row, db.Carries env key row → ¬db.HasItem scope row.id) ∨
        ∀ row, db.Carries env key row → db.HasItem scope row.id) :
    db'.HiddenAt env scope = db.HiddenAt env scope := by
  refine Set.Subset.antisymm (h.hiddenAt_subset hdistinct scope) ?_
  rintro i ⟨row, hrow, rfl, hhidden⟩
  rcases hhidden with hitem | ⟨key, hkey, hhas⟩
  · exact h.hidden_of_direct hrow (Or.inl hitem)
  · rcases (mem_hiddenKeyCandidates env).mp hkey with ⟨c, hc, rfl⟩ | hlegacy
    · exact h.hidden_of_direct hrow (Or.inr ⟨c, hc, hhas⟩)
    · rcases h.settled scope key hhas with hkept | ⟨hcopy, rows, -, hrows, hall⟩
      · exact ⟨row, h.media ▸ hrow, rfl, Or.inr ⟨key, hkey, hkept⟩⟩
      · have hmem : row ∈ rows := by
          rcases hall with ⟨⟨found, hfound, hitem⟩, hdirect⟩ | hall
          · rcases huniform key hcopy hhas with hnone | hevery
            · exact absurd hitem (hnone found (hrows found hfound).1)
            · exact hdirect row ⟨hrow, hlegacy⟩ (hevery row ⟨hrow, hlegacy⟩)
          · exact hall row ⟨hrow, hlegacy⟩
        obtain ⟨-, c, hc, hnew⟩ := hrows row hmem
        exact ⟨row, h.media ▸ hrow, rfl, Or.inr ⟨c.text,
          (mem_hiddenKeyCandidates env).mpr (Or.inl ⟨c, hc, rfl⟩), hnew⟩⟩

end Migrating

/-! ### One key -/

theorem payloadsOf_spec {rows : List MediaRow} {s s' : State} {payloads : List Payload}
    (hrows : ∀ row ∈ rows, Resolved env row) (h : payloadsOf env s rows = .ok (payloads, s')) :
    s'.db.media = s.db.media ∧ s'.db.items = s.db.items ∧ s'.db.keys = s.db.keys ∧
      payloads = rows.filterMap fun row => row.hiddenCopyIdentity.map (payloadOf env row) := by
  suffices hfrom : ∀ (before : List Payload) (s : State),
      rows.foldlM (payloadsStep env) (before, s) = .ok (payloads, s') →
      s'.db.media = s.db.media ∧ s'.db.items = s.db.items ∧ s'.db.keys = s.db.keys ∧
        payloads = before ++
          rows.filterMap fun row => row.hiddenCopyIdentity.map (payloadOf env row) from
    hfrom [] s h
  clear h
  induction rows with
  | nil =>
    intro before s h
    obtain ⟨hpayloads, hstate⟩ := Prod.mk.inj (Except.ok.inj h)
    subst hstate
    exact ⟨rfl, rfl, rfl, by rw [← hpayloads, List.filterMap_nil, List.append_nil]⟩
  | cons row rest ih =>
    intro before s h
    rw [List.foldlM_cons] at h
    obtain ⟨⟨payloads₁, next⟩, hstep, h⟩ := Except.bind_eq_ok_iff.mp h
    rw [payloadsStep] at hstep
    obtain ⟨⟨payload, resolved⟩, hpayload, hnext⟩ := Except.bind_eq_ok_iff.mp hstep
    obtain ⟨hpayloads₁, hstate⟩ := Prod.mk.inj (Except.ok.inj hnext)
    subst hstate
    rw [resolveHiddenCopyIdentityPayload] at hpayload
    obtain ⟨⟨identity, resolved'⟩, hresolve, hpayload⟩ := Except.bind_eq_ok_iff.mp hpayload
    obtain ⟨hvalue, hstate⟩ := Prod.mk.inj (Except.ok.inj hpayload)
    subst hstate
    obtain ⟨hidentity, hmedia, hitems, hkeys⟩ :=
      resolve_resolved (hrows row (List.mem_cons_self ..)) hresolve
    obtain ⟨hmedia', hitems', hkeys', hpayloads⟩ :=
      ih (fun r hr => hrows r (List.mem_cons_of_mem _ hr)) payloads₁ resolved' h
    refine ⟨hmedia'.trans hmedia, hitems'.trans hitems, hkeys'.trans hkeys, ?_⟩
    rw [hpayloads, ← hpayloads₁, ← hvalue, hidentity, List.append_assoc, List.filterMap_cons]
    rcases row.hiddenCopyIdentity with _ | c
    · rfl
    · rfl

theorem insertPayloads_spec {payloads : List Payload} {record : HiddenKey} {s s' : State}
    (h : payloads.foldlM (fun s payload => insertCopyKey env s
      (payload.record record.scope record.hiddenByUserId record.hiddenAt)) s = .ok s') :
    s'.db.media = s.db.media ∧ s'.db.items = s.db.items ∧
      ∀ scope key, s'.db.HasKey scope key ↔ s.db.HasKey scope key ∨
        record.scope = scope ∧ ∃ payload ∈ payloads, payload.movieKey = key := by
  obtain ⟨hmedia, hitems, hkeys⟩ := insertCopyKeys_spec env h
  refine ⟨hmedia, hitems, fun scope key => (hkeys scope key).trans (or_congr_right ?_)⟩
  constructor
  · rintro ⟨payload, hpayload, hscope, hkey⟩
    exact ⟨hscope, payload, hpayload, hkey⟩
  · rintro ⟨hscope, payload, hpayload, hkey⟩
    exact ⟨payload, hpayload, hscope, hkey⟩

theorem deleteKey_spec {s s' : State} {scope : Scope} {movieKey : String}
    (h : deleteKey env s scope movieKey = .ok s') :
    s'.db.media = s.db.media ∧ s'.db.items = s.db.items ∧
      ∀ scope' key, s'.db.HasKey scope' key ↔
        s.db.HasKey scope' key ∧ ¬(scope' = scope ∧ key = movieKey) := by
  rw [deleteKey] at h
  obtain ⟨looked, hlook, h⟩ := Except.bind_eq_ok_iff.mp h
  have hdb := State.look_eq hlook
  rw [← Except.ok.inj h, ← hdb]
  refine ⟨rfl, rfl, fun scope' key => ?_⟩
  simp only [Db.HasKey, List.mem_filter, Bool.not_eq_true', decide_eq_false_iff_not]
  constructor
  · rintro ⟨k, ⟨hk, hnot⟩, rfl, rfl⟩
    exact ⟨⟨k, hk, rfl, rfl⟩, hnot⟩
  · rintro ⟨⟨k, hk, rfl, rfl⟩, hnot⟩
    exact ⟨k, ⟨hk, hnot⟩, rfl, rfl⟩

/-- A legacy record stays where some of the rows has no copy identity, and otherwise gives way to
the identities of the rows. -/
theorem replaceLegacyKey_spec {s s' : State} {record : HiddenKey} {rows : List MediaRow}
    {done : Bool} (hrows : ∀ row ∈ rows, Resolved env row)
    (h : replaceLegacyKey env s record rows = .ok (done, s')) :
    s'.db.media = s.db.media ∧ s'.db.items = s.db.items ∧
      (s'.db.keys = s.db.keys ∧ done = false ∧ (∃ row ∈ rows, row.hiddenCopyIdentity = none) ∨
        done = true ∧ (∀ row ∈ rows, ∃ c, row.hiddenCopyIdentity = some c) ∧
        ∀ scope key, s'.db.HasKey scope key ↔
          (s.db.HasKey scope key ∨ record.scope = scope ∧
            ∃ row ∈ rows, ∃ c, row.hiddenCopyIdentity = some c ∧ c.text = key) ∧
          ¬(scope = record.scope ∧ key = record.movieKey)) := by
  rw [replaceLegacyKey] at h
  obtain ⟨⟨payloads, read⟩, hpayloads, h⟩ := Except.bind_eq_ok_iff.mp h
  obtain ⟨hmedia, hitems, hkeys, hvalues⟩ := payloadsOf_spec hrows hpayloads
  have hlength : payloads.length = rows.length ↔
      ∀ row ∈ rows, ∃ c, row.hiddenCopyIdentity = some c := by
    rw [hvalues, List.filterMap_length_eq_length]
    refine forall₂_congr fun row _ => ?_
    rw [Option.isSome_map, Option.isSome_iff_exists]
  dsimp only at h
  split at h
  · next hdiffer =>
    obtain ⟨rfl, hstate⟩ := Prod.mk.inj (Except.ok.inj h)
    subst hstate
    refine ⟨hmedia, hitems, Or.inl ⟨hkeys, rfl, ?_⟩⟩
    rw [Ne, hlength] at hdiffer
    push Not at hdiffer
    obtain ⟨row, hrow, hnone⟩ := hdiffer
    exact ⟨row, hrow, Option.eq_none_iff_forall_ne_some.mpr hnone⟩
  · next hsame =>
    rw [not_not, hlength] at hsame
    obtain ⟨inserted, hinsert, h⟩ := Except.bind_eq_ok_iff.mp h
    obtain ⟨deleted, hdelete, h⟩ := Except.bind_eq_ok_iff.mp h
    obtain ⟨rfl, hstate⟩ := Prod.mk.inj (Except.ok.inj h)
    subst hstate
    obtain ⟨hmedia₁, hitems₁, hkeys₁⟩ := insertPayloads_spec hinsert
    obtain ⟨hmedia₂, hitems₂, hkeys₂⟩ := deleteKey_spec hdelete
    refine ⟨hmedia₂.trans (hmedia₁.trans hmedia), hitems₂.trans (hitems₁.trans hitems),
      Or.inr ⟨rfl, hsame, fun scope key => ?_⟩⟩
    have hread : read.db.HasKey scope key ↔ s.db.HasKey scope key := by
      rw [Db.HasKey, Db.HasKey, hkeys]
    have hfound : (∃ payload ∈ payloads, payload.movieKey = key) ↔
        ∃ row ∈ rows, ∃ c, row.hiddenCopyIdentity = some c ∧ c.text = key := by
      rw [hvalues]
      constructor
      · rintro ⟨payload, hpayload, hkey⟩
        obtain ⟨row, hrow, hmap⟩ := List.mem_filterMap.mp hpayload
        obtain ⟨c, hc, rfl⟩ := Option.map_eq_some_iff.mp hmap
        exact ⟨row, hrow, c, hc, hkey⟩
      · rintro ⟨row, hrow, c, hc, hkey⟩
        exact ⟨payloadOf env row c, List.mem_filterMap.mpr ⟨row, hrow, by rw [hc]; rfl⟩, hkey⟩
    rw [hkeys₂, hkeys₁, hread, hfound]

/-- Replacing a legacy record by rows that carry it is a migration, if they are all that carry it,
or some of them is hidden directly and they are all of that kind. -/
theorem replaceLegacyKey_migrating {db : Db} {s s' : State} {record : HiddenKey}
    {rows : List MediaRow} {done : Bool} (hbase : Migrating env db s.db)
    (hrows : ∀ row ∈ rows, Resolved env row ∧ db.Carries env record.movieKey row)
    (hne : rows ≠ []) (hrecord : db.HasKey record.scope record.movieKey)
    (hall : (∃ row ∈ rows, db.HasItem record.scope row.id) ∧
        (∀ row, db.Carries env record.movieKey row → db.HasItem record.scope row.id → row ∈ rows) ∨
      ∀ row, db.Carries env record.movieKey row → row ∈ rows)
    (h : replaceLegacyKey env s record rows = .ok (done, s')) :
    Migrating env db s'.db := by
  have hlegacy : isCopyKey record.movieKey = false := by
    obtain ⟨row, hrow⟩ := List.exists_mem_of_ne_nil rows hne
    exact not_isCopyKey_of_mem_legacy env (hrows row hrow).2.2
  obtain ⟨hmedia, hitems, ⟨hkeys, -, -⟩ | ⟨-, hidentities, hkeys⟩⟩ :=
    replaceLegacyKey_spec (fun row hrow => (hrows row hrow).1) h
  · exact hbase.trans (Migrating.of_eq hmedia hitems hkeys)
  have hcopy : ∀ (c : CopyIdentity), c.text ≠ record.movieKey := by
    intro c htext
    rw [← htext, c.isCopyKey_text] at hlegacy
    cases hlegacy
  have hcopies : ∀ scope (c : CopyIdentity), s.db.HasKey scope c.text →
      s'.db.HasKey scope c.text :=
    fun scope c hhas => (hkeys scope c.text).mpr ⟨Or.inl hhas, fun heq => hcopy c heq.2⟩
  refine ⟨hmedia.trans hbase.media, hitems.trans hbase.items, fun scope key hhas => ?_,
    fun scope c hhas => hcopies scope c (hbase.copies scope c hhas), fun scope key hhas => ?_⟩
  · obtain ⟨hold | ⟨rfl, row, hrow, c, hc, htext⟩, -⟩ := (hkeys scope key).mp hhas
    · exact hbase.sound scope key hold
    · exact Or.inr ⟨row, (hrows row hrow).2.1, c, hc, htext, record.movieKey,
        (hrows row hrow).2.2, hrecord⟩
  · rcases hbase.settled scope key hhas with hmid | ⟨hkey, settled, hsome, hsettled, hevery⟩
    · by_cases hsame : scope = record.scope ∧ key = record.movieKey
      · obtain ⟨rfl, rfl⟩ := hsame
        refine Or.inr ⟨hlegacy, rows, hne, fun row hrow => ⟨(hrows row hrow).2, ?_⟩, hall⟩
        obtain ⟨c, hc⟩ := hidentities row hrow
        exact ⟨c, hc, (hkeys _ c.text).mpr ⟨Or.inr ⟨rfl, row, hrow, c, hc, rfl⟩,
          fun heq => hcopy c heq.2⟩⟩
      · exact Or.inl ((hkeys scope key).mpr ⟨Or.inl hmid, hsame⟩)
    · refine Or.inr ⟨hkey, settled, hsome, fun row hrow => ?_, hevery⟩
      obtain ⟨hcarries, c, hc, hmid⟩ := hsettled row hrow
      exact ⟨hcarries, c, hc, hcopies scope c hmid⟩

/-! ### The whole migration -/

/-- Why the migration keeps a legacy record. -/
def Retained (env : Env) (db : Db) (scope : Scope) (movieKey : String) : Prop :=
  directMatches env db.media db.items scope movieKey = [] ∧
      (migrationRows env db.media db.items scope movieKey).length ≠ 1 ∨
    ∃ row ∈ migrationRows env db.media db.items scope movieKey, row.hiddenCopyIdentity = none

theorem mem_legacyCandidates {rows : List MediaRow} {movieKey : String} {row : MediaRow} :
    row ∈ legacyCandidates env rows movieKey ↔
      row ∈ rows ∧ movieKey ∈ legacyHiddenKeysForRow env row := by
  rw [legacyCandidates, List.mem_filter, decide_eq_true_eq]

/-- The direct matches of a key. -/
theorem mem_directMatches {db : Db} {scope : Scope} {movieKey : String} {row : MediaRow} :
    row ∈ directMatches env db.media db.items scope movieKey ↔
      db.Carries env movieKey row ∧ db.HasItem scope row.id := by
  rw [directMatches, mem_legacyCandidates, List.mem_filterMap, Db.Carries, Db.HasItem]
  constructor
  · rintro ⟨⟨item, hitem, hfind⟩, hlegacy⟩
    obtain ⟨hmem, hscope⟩ := List.mem_filter.mp hitem
    have hid := List.find?_some hfind
    exact ⟨⟨List.mem_of_find?_eq_some hfind, hlegacy⟩, item, hmem, of_decide_eq_true hscope,
      (of_decide_eq_true hid).symm⟩
  · rintro ⟨⟨hrow, hlegacy⟩, item, hitem, hscope, hid⟩
    refine ⟨⟨item, List.mem_filter.mpr ⟨hitem, decide_eq_true hscope⟩, ?_⟩, hlegacy⟩
    have hsome : (db.media.find? fun r => decide (r.id = item.mediaItemId)).isSome :=
      List.find?_isSome.mpr ⟨row, hrow, decide_eq_true hid.symm⟩
    obtain ⟨found, hfound⟩ := Option.isSome_iff_exists.mp hsome
    have hfoundId := List.find?_some hfound
    rw [hfound, db.row_eq (List.mem_of_find?_eq_some hfound) hrow
      ((of_decide_eq_true hfoundId).trans hid)]

/-- One record of the migration: a replacement, or nothing, where there is a reason to keep it. -/
theorem migrateRecord_spec {db : Db} {s s' : State} {record : HiddenKey} {done : Bool}
    (hbase : Migrating env db s.db) (hresolved : ∀ row ∈ db.media, Resolved env row)
    (hrecord : db.HasKey record.scope record.movieKey)
    (h : migrateRecord env db.media db.items s record = .ok (done, s')) :
    Migrating env db s'.db ∧
      (∀ scope key, isCopyKey key = false → s'.db.HasKey scope key → s.db.HasKey scope key) ∧
      (Retained env db record.scope record.movieKey ∨
        ¬s'.db.HasKey record.scope record.movieKey) := by
  rw [migrateRecord] at h
  split at h
  · next hkeep =>
    obtain ⟨-, hstate⟩ := Prod.mk.inj (Except.ok.inj h)
    subst hstate
    exact ⟨hbase, fun _ _ _ hhas => hhas, Or.inl (Or.inl hkeep)⟩
  next hreplace =>
  have hrows : ∀ row ∈ migrationRows env db.media db.items record.scope record.movieKey,
      Resolved env row ∧ db.Carries env record.movieKey row := by
    intro row hrow
    have hcarries : db.Carries env record.movieKey row := by
      rw [migrationRows] at hrow
      split at hrow
      · exact mem_legacyCandidates.mp hrow
      · exact (mem_directMatches.mp hrow).1
    exact ⟨hresolved row hcarries.1, hcarries⟩
  have hall : (∃ row ∈ migrationRows env db.media db.items record.scope record.movieKey,
          db.HasItem record.scope row.id) ∧
        (∀ row, db.Carries env record.movieKey row → db.HasItem record.scope row.id →
          row ∈ migrationRows env db.media db.items record.scope record.movieKey) ∨
      ∀ row, db.Carries env record.movieKey row →
        row ∈ migrationRows env db.media db.items record.scope record.movieKey := by
    rw [migrationRows]
    split
    · exact Or.inr fun row hcarries => mem_legacyCandidates.mpr hcarries
    · next hdirect =>
      obtain ⟨row, hrow⟩ := List.exists_mem_of_ne_nil _ hdirect
      exact Or.inl ⟨⟨row, hrow, (mem_directMatches.mp hrow).2⟩, fun row hcarries hitem =>
        mem_directMatches.mpr ⟨hcarries, hitem⟩⟩
  have hne : migrationRows env db.media db.items record.scope record.movieKey ≠ [] := by
    intro hnil
    by_cases hdirect : directMatches env db.media db.items record.scope record.movieKey = []
    · refine hreplace ⟨hdirect, ?_⟩
      rw [hnil]
      exact Nat.zero_ne_one
    · rw [migrationRows, if_neg hdirect] at hnil
      exact hdirect hnil
  refine ⟨replaceLegacyKey_migrating hbase hrows hne hrecord hall h, ?_⟩
  obtain ⟨-, -, ⟨hsame, -, hnone⟩ | ⟨-, -, hkeys⟩⟩ :=
    replaceLegacyKey_spec (fun row hrow => (hrows row hrow).1) h
  · refine ⟨fun scope key _ hhas => ?_, Or.inl (Or.inr hnone)⟩
    rw [Db.HasKey, hsame] at hhas
    exact hhas
  · refine ⟨fun scope key hlegacy hhas => ?_, Or.inr fun hhas => ((hkeys _ _).mp hhas).2 ⟨rfl, rfl⟩⟩
    obtain ⟨hold | ⟨-, -, -, c, -, rfl⟩, -⟩ := (hkeys scope key).mp hhas
    · exact hold
    · rw [c.isCopyKey_text] at hlegacy
      cases hlegacy

/-- A record that is to be kept is kept, and nothing else happens. -/
theorem migrateRecord_retained {db : Db} {s s' : State} {record : HiddenKey} {done : Bool}
    (hresolved : ∀ row ∈ db.media, Resolved env row)
    (hretained : Retained env db record.scope record.movieKey)
    (h : migrateRecord env db.media db.items s record = .ok (done, s')) :
    s'.db.media = s.db.media ∧ s'.db.items = s.db.items ∧ s'.db.keys = s.db.keys := by
  rw [migrateRecord] at h
  split at h
  · obtain ⟨-, hstate⟩ := Prod.mk.inj (Except.ok.inj h)
    subst hstate
    exact ⟨rfl, rfl, rfl⟩
  next hreplace =>
  have hrows : ∀ row ∈ migrationRows env db.media db.items record.scope record.movieKey,
      Resolved env row := by
    intro row hrow
    rw [migrationRows] at hrow
    split at hrow
    · exact hresolved row (mem_legacyCandidates.mp hrow).1
    · exact hresolved row (mem_directMatches.mp hrow).1.1
  obtain ⟨hmedia, hitems, ⟨hkeys, -, -⟩ | ⟨-, hidentities, -⟩⟩ := replaceLegacyKey_spec hrows h
  · exact ⟨hmedia, hitems, hkeys⟩
  · obtain ⟨row, hrow, hnone⟩ := hretained.resolve_left hreplace
    obtain ⟨c, hc⟩ := hidentities row hrow
    rw [hnone] at hc
    cases hc

theorem migrateStep_eq_ok {rows : List MediaRow} {items : List HiddenItem} {record : HiddenKey}
    {sofar sofar' : (ℕ × ℕ) × State} (h : migrateStep env rows items sofar record = .ok sofar') :
    ∃ done, migrateRecord env rows items sofar.2 record = .ok (done, sofar'.2) := by
  rw [migrateStep] at h
  obtain ⟨⟨done, after⟩, hrecord, hnext⟩ := Except.bind_eq_ok_iff.mp h
  rw [← Except.ok.inj hnext]
  exact ⟨done, hrecord⟩

/-- The legacy records of one table. -/
theorem migrateRecords_spec {db : Db} {records : List HiddenKey} {sofar sofar' : (ℕ × ℕ) × State}
    (hbase : Migrating env db sofar.2.db) (hresolved : ∀ row ∈ db.media, Resolved env row)
    (hrecords : ∀ record ∈ records, db.HasKey record.scope record.movieKey ∧
      isCopyKey record.movieKey = false)
    (h : records.foldlM (migrateStep env db.media db.items) sofar = .ok sofar') :
    Migrating env db sofar'.2.db ∧ (∀ scope key, isCopyKey key = false →
        sofar'.2.db.HasKey scope key → sofar.2.db.HasKey scope key) ∧
      ∀ record ∈ records, Retained env db record.scope record.movieKey ∨
        ¬sofar'.2.db.HasKey record.scope record.movieKey := by
  induction records generalizing sofar with
  | nil =>
    rw [← Except.ok.inj h]
    refine ⟨hbase, fun _ _ _ hhas => hhas, fun record hrecord => ?_⟩
    cases hrecord
  | cons record rest ih =>
    rw [List.foldlM_cons] at h
    obtain ⟨next, hstep, h⟩ := Except.bind_eq_ok_iff.mp h
    obtain ⟨done, hrecord⟩ := migrateStep_eq_ok hstep
    obtain ⟨hhas, hlegacy⟩ := hrecords record (List.mem_cons_self ..)
    obtain ⟨hmigrating, hmono, hdone⟩ := migrateRecord_spec hbase hresolved hhas hrecord
    obtain ⟨hafter, hmono', hrest⟩ :=
      ih hmigrating (fun r hr => hrecords r (List.mem_cons_of_mem _ hr)) h
    refine ⟨hafter, fun scope key hkey hlast => hmono scope key hkey (hmono' scope key hkey hlast),
      fun r hr => ?_⟩
    rcases List.mem_cons.mp hr with rfl | hr
    · exact hdone.imp_right fun hgone hlast => hgone (hmono' _ _ hlegacy hlast)
    · exact hrest r hr

/-- Where all legacy records of a table are to be kept. -/
theorem migrateRecords_retained {db : Db} {records : List HiddenKey}
    {sofar sofar' : (ℕ × ℕ) × State} (hresolved : ∀ row ∈ db.media, Resolved env row)
    (hrecords : ∀ record ∈ records, Retained env db record.scope record.movieKey)
    (h : records.foldlM (migrateStep env db.media db.items) sofar = .ok sofar') :
    sofar'.2.db.media = sofar.2.db.media ∧ sofar'.2.db.items = sofar.2.db.items ∧
      sofar'.2.db.keys = sofar.2.db.keys := by
  induction records generalizing sofar with
  | nil =>
    rw [← Except.ok.inj h]
    exact ⟨rfl, rfl, rfl⟩
  | cons record rest ih =>
    rw [List.foldlM_cons] at h
    obtain ⟨next, hstep, h⟩ := Except.bind_eq_ok_iff.mp h
    obtain ⟨done, hrecord⟩ := migrateStep_eq_ok hstep
    obtain ⟨hmedia, hitems, hkeys⟩ :=
      migrateRecord_retained hresolved (hrecords record (List.mem_cons_self ..)) hrecord
    obtain ⟨hmedia', hitems', hkeys'⟩ :=
      ih (fun r hr => hrecords r (List.mem_cons_of_mem _ hr)) h
    exact ⟨hmedia'.trans hmedia, hitems'.trans hitems, hkeys'.trans hkeys⟩

/-- Loading rows that have all been resolved. -/
theorem loadIdentityRows_resolved {s s' : State} {rows : List MediaRow}
    (hresolved : ∀ row ∈ s.db.media, Resolved env row)
    (h : loadIdentityRows env s = .ok (rows, s')) :
    rows = s.db.media ∧ s'.db.media = s.db.media ∧ s'.db.items = s.db.items ∧
      s'.db.keys = s.db.keys := by
  rw [loadIdentityRows] at h
  obtain ⟨resolved, hfold, h⟩ := Except.bind_eq_ok_iff.mp h
  obtain ⟨hrows, hstate⟩ := Prod.mk.inj (Except.ok.inj h)
  subst hstate
  suffices hfrom : ∀ (rows : List MediaRow) (start : State), (∀ row ∈ rows, Resolved env row) →
      rows.foldlM (resolveRow env) start = .ok resolved →
      resolved.db.media = start.db.media ∧ resolved.db.items = start.db.items ∧
        resolved.db.keys = start.db.keys by
    obtain ⟨hmedia, hitems, hkeys⟩ := hfrom s.db.media s hresolved hfold
    exact ⟨hrows.symm.trans hmedia, hmedia, hitems, hkeys⟩
  intro rows
  induction rows with
  | nil =>
    intro start _ hfold
    rw [← Except.ok.inj hfold]
    exact ⟨rfl, rfl, rfl⟩
  | cons row rest ih =>
    intro start hall hfold
    rw [List.foldlM_cons] at hfold
    obtain ⟨next, hstep, hfold⟩ := Except.bind_eq_ok_iff.mp hfold
    rw [resolveRow] at hstep
    obtain ⟨⟨identity, after⟩, hresolve, hnext⟩ := Except.bind_eq_ok_iff.mp hstep
    have hnext := Except.ok.inj hnext
    subst hnext
    obtain ⟨-, hmedia, hitems, hkeys⟩ :=
      resolve_resolved (hall row (List.mem_cons_self ..)) hresolve
    obtain ⟨hmedia', hitems', hkeys'⟩ :=
      ih after (fun r hr => hall r (List.mem_cons_of_mem _ hr)) hfold
    exact ⟨hmedia'.trans hmedia, hitems'.trans hitems, hkeys'.trans hkeys⟩

theorem mem_legacyRecords {db : Db} {ofUsers : Bool} {record : HiddenKey} :
    record ∈ legacyRecords db ofUsers ↔ record ∈ db.keys ∧ isCopyKey record.movieKey = false ∧
      record.scope.userId.isSome = ofUsers := by
  rw [legacyRecords, List.mem_filter, Bool.and_eq_true, Bool.not_eq_true', beq_iff_eq]

/-- What a migration does that finds a legacy record: it resolves all rows and replaces legacy
records, and there is a reason to keep each that it leaves. -/
theorem migrate_spec {s s' : State} {summary : MigrationSummary}
    (h : migrateLegacyHiddenMovieKeys env s = .ok (summary, s')) :
    s' = s ∧ (∀ record ∈ s.db.keys, isCopyKey record.movieKey = true) ∨
      ∃ db, Resolves s.db db ∧ Migrating env db s'.db ∧ (∀ row ∈ db.media, Resolved env row) ∧
        ∀ scope key, isCopyKey key = false → s'.db.HasKey scope key →
          Retained env db scope key := by
  rw [migrateLegacyHiddenMovieKeys] at h
  split at h
  · next hnone =>
    obtain ⟨-, hstate⟩ := Prod.mk.inj (Except.ok.inj h)
    subst hstate
    refine Or.inl ⟨rfl, fun record hrecord => ?_⟩
    have hcopy := List.any_eq_false.mp hnone record hrecord
    rw [Bool.not_eq_true, Bool.not_eq_false'] at hcopy
    exact hcopy
  · obtain ⟨⟨rows, loaded⟩, hload, h⟩ := Except.bind_eq_ok_iff.mp h
    obtain ⟨users, husers, h⟩ := Except.bind_eq_ok_iff.mp h
    obtain ⟨everyone, heveryone, h⟩ := Except.bind_eq_ok_iff.mp h
    obtain ⟨-, hstate⟩ := Prod.mk.inj (Except.ok.inj h)
    subst hstate
    obtain ⟨hresolves, rfl, hresolved⟩ := loadIdentityRows_spec hload
    right
    refine ⟨loaded.db, hresolves, ?_⟩
    have hmine : ∀ record ∈ legacyRecords loaded.db true,
        loaded.db.HasKey record.scope record.movieKey ∧ isCopyKey record.movieKey = false := by
      intro record hrecord
      obtain ⟨hmem, hlegacy, -⟩ := mem_legacyRecords.mp hrecord
      exact ⟨⟨record, hmem, rfl, rfl⟩, hlegacy⟩
    have hbase : Migrating env loaded.db (((0, 0), loaded) : (ℕ × ℕ) × State).2.db :=
      Migrating.of_eq rfl rfl rfl
    obtain ⟨hmigrating, hmono, hdone⟩ := migrateRecords_spec hbase hresolved hmine husers
    have htheirs : ∀ record ∈ legacyRecords users.2.db false,
        loaded.db.HasKey record.scope record.movieKey ∧ isCopyKey record.movieKey = false := by
      intro record hrecord
      obtain ⟨hmem, hlegacy, -⟩ := mem_legacyRecords.mp hrecord
      exact ⟨hmono _ _ hlegacy ⟨record, hmem, rfl, rfl⟩, hlegacy⟩
    have hbase' : Migrating env loaded.db (((0, 0), users.2) : (ℕ × ℕ) × State).2.db := hmigrating
    obtain ⟨hmigrating', hmono', hdone'⟩ :=
      migrateRecords_spec hbase' hresolved htheirs heveryone
    refine ⟨hmigrating', hresolved, fun scope key hlegacy hhas => ?_⟩
    -- a record that is left was one of those that were looked at
    have hmid := hmono' scope key hlegacy hhas
    rcases hscope : scope.userId.isSome with _ | _
    · obtain ⟨record, hrecord, rfl, rfl⟩ := hmid
      have hlisted := mem_legacyRecords.mpr ⟨hrecord, hlegacy, hscope⟩
      exact (hdone' record hlisted).resolve_right fun hgone => hgone hhas
    · obtain ⟨record, hrecord, rfl, rfl⟩ := hmono scope key hlegacy hmid
      have hlisted := mem_legacyRecords.mpr ⟨hrecord, hlegacy, hscope⟩
      exact (hdone record hlisted).resolve_right fun hgone => hgone hmid

/-- Without a legacy record a migration returns at once. -/
theorem migrate_none (env : Env) {s : State}
    (h : ∀ record ∈ s.db.keys, isCopyKey record.movieKey = true) :
    migrateLegacyHiddenMovieKeys env s = .ok (⟨0, 0, 0, 0⟩, s) := by
  rw [migrateLegacyHiddenMovieKeys, if_pos]
  · rfl
  · rw [List.any_eq_false]
    intro record hrecord
    rw [h record hrecord]
    exact Bool.false_ne_true

theorem Retained.congr {db db' : Db} (hmedia : db'.media = db.media)
    (hitems : db'.items = db.items) {scope : Scope} {key : String} :
    Retained env db' scope key ↔ Retained env db scope key := by
  rw [Retained, Retained, hmedia, hitems]

/-- A migration after which there was a reason to keep each legacy record that is left. -/
theorem migrate_again {s s' : State} {summary : MigrationSummary}
    (hresolved : ∀ row ∈ s.db.media, Resolved env row)
    (hretained : ∀ scope key, isCopyKey key = false → s.db.HasKey scope key →
      Retained env s.db scope key)
    (h : migrateLegacyHiddenMovieKeys env s = .ok (summary, s')) :
    s'.db.media = s.db.media ∧ s'.db.items = s.db.items ∧ s'.db.keys = s.db.keys := by
  rw [migrateLegacyHiddenMovieKeys] at h
  split at h
  · obtain ⟨-, hstate⟩ := Prod.mk.inj (Except.ok.inj h)
    subst hstate
    exact ⟨rfl, rfl, rfl⟩
  obtain ⟨⟨rows, loaded⟩, hload, h⟩ := Except.bind_eq_ok_iff.mp h
  obtain ⟨users, husers, h⟩ := Except.bind_eq_ok_iff.mp h
  obtain ⟨everyone, heveryone, h⟩ := Except.bind_eq_ok_iff.mp h
  obtain ⟨-, hstate⟩ := Prod.mk.inj (Except.ok.inj h)
  subst hstate
  obtain ⟨hrows, hmedia, hitems, hkeys⟩ := loadIdentityRows_resolved hresolved hload
  rw [hrows, hitems] at husers heveryone
  have hlisted : ∀ ofUsers (db : Db), db.keys = s.db.keys →
      ∀ record ∈ legacyRecords db ofUsers, Retained env s.db record.scope record.movieKey := by
    intro ofUsers db hsame record hrecord
    obtain ⟨hmem, hlegacy, -⟩ := mem_legacyRecords.mp hrecord
    exact hretained _ _ hlegacy ⟨record, hsame ▸ hmem, rfl, rfl⟩
  obtain ⟨hmedia₁, hitems₁, hkeys₁⟩ :=
    migrateRecords_retained hresolved (hlisted true loaded.db hkeys) husers
  dsimp only at hmedia₁ hitems₁ hkeys₁
  obtain ⟨hmedia₂, hitems₂, hkeys₂⟩ := migrateRecords_retained hresolved
    (hlisted false users.2.db (hkeys₁.trans hkeys)) heveryone
  exact ⟨hmedia₂.trans (hmedia₁.trans hmedia), hitems₂.trans (hitems₁.trans hitems),
    hkeys₂.trans (hkeys₁.trans hkeys)⟩

theorem Filled.carries {db db' : Db} {row row' : MediaRow} (h : Filled row row') {key : String}
    (hrow : row ∈ db.media) (hrow' : row' ∈ db'.media) :
    db'.Carries env key row' ↔ db.Carries env key row := by
  rw [Db.Carries, Db.Carries, h.legacy]
  exact and_congr_left fun _ => iff_of_true hrow' hrow

/-- **The migration of legacy hidden keys is conservative, and a second one changes nothing.**  At
every scope nothing gets hidden but items that were given an identity that was hidden already, what
was hidden by its id or its copy identity stays hidden, and where no legacy key stands at items of
which some are hidden directly and some are not, nothing else changes.  A legacy key goes only where
a copy key of an item that carries it has come, and a second migration leaves the rows and the
hidden records as they are. -/
theorem migrate_conservative (env : Env) (s s' : State) (summary : MigrationSummary)
    (hdistinct : s.db.DistinctIdentities)
    (h : migrateLegacyHiddenMovieKeys env s = .ok (summary, s')) :
    (∀ scope, s'.db.HiddenAt env scope ⊆ s.db.HiddenAt env scope ∪ Gained s.db s'.db scope) ∧
      (∀ scope, ∀ row ∈ s.db.media, s.db.HasItem scope row.id ∨
          (∃ c, row.hiddenCopyIdentity = some c ∧ s.db.HasKey scope c.text) →
        row.id ∈ s'.db.HiddenAt env scope) ∧
      (∀ scope, (∀ key, isCopyKey key = false → s.db.HasKey scope key →
          (∀ row, s.db.Carries env key row → ¬s.db.HasItem scope row.id) ∨
            ∀ row, s.db.Carries env key row → s.db.HasItem scope row.id) →
        s'.db.HiddenAt env scope = s.db.HiddenAt env scope ∪ Gained s.db s'.db scope) ∧
      (∀ scope key, s.db.HasKey scope key → ¬s'.db.HasKey scope key →
        isCopyKey key = false ∧ ∃ row, s'.db.Carries env key row ∧
          ∃ c, row.hiddenCopyIdentity = some c ∧ s'.db.HasKey scope c.text) ∧
      ∀ tick summary' s'',
        migrateLegacyHiddenMovieKeys env ⟨s'.db, tick⟩ = .ok (summary', s'') →
        s''.db.media = s'.db.media ∧ s''.db.items = s'.db.items ∧ s''.db.keys = s'.db.keys := by
  rcases migrate_spec h with ⟨rfl, hnone⟩ | ⟨db, hresolves, hmigrating, hresolved, hretained⟩
  · -- there was no legacy key
    have hsame : ∀ scope, s'.db.HiddenAt env scope =
        s'.db.HiddenAt env scope ∪ Gained s'.db s'.db scope := (Resolves.refl s'.db).hiddenAt
    have hbase : Migrating env s'.db s'.db := Migrating.of_eq rfl rfl rfl
    refine ⟨fun scope => Set.subset_union_left, fun scope row hrow => hbase.hidden_of_direct hrow,
      fun scope _ => hsame scope, fun scope key hhas hnot => absurd hhas hnot, ?_⟩
    intro tick summary' s'' h'
    have hagain := migrate_none env (s := ⟨s'.db, tick⟩) hnone
    rw [h'] at hagain
    obtain ⟨-, hstate⟩ := Prod.mk.inj (Except.ok.inj hagain)
    subst hstate
    exact ⟨rfl, rfl, rfl⟩
  -- identities are only added while they are resolved, before any key is replaced
  have hgained : ∀ scope, Gained s.db s'.db scope = Gained s.db db scope := by
    intro scope
    rw [Gained, Gained, hmigrating.media]
  have hdistinct' := hresolves.distinct hdistinct
  refine ⟨fun scope => ?_, fun scope row hrow hdirect => ?_, fun scope huniform => ?_,
    fun scope key hhas hnot => ?_, fun tick summary' s'' h' => ?_⟩
  · rw [hgained scope, ← hresolves.hiddenAt scope]
    exact hmigrating.hiddenAt_subset hdistinct' scope
  · obtain ⟨row', hrow', hfilled⟩ := hresolves.row hrow
    rw [← hfilled.id_eq]
    refine hmigrating.hidden_of_direct hrow' ?_
    rcases hdirect with hitem | ⟨c, hc, hhas⟩
    · rw [hfilled.id_eq]
      exact Or.inl (hresolves.hasItem_iff.mpr hitem)
    · exact Or.inr ⟨c, hfilled.identity hc, hresolves.hasKey_iff.mpr hhas⟩
  · rw [hgained scope, ← hresolves.hiddenAt scope]
    refine hmigrating.hiddenAt_eq hdistinct' fun key hlegacy hhas => ?_
    have hitem : ∀ row', db.Carries env key row' → ∃ row, s.db.Carries env key row ∧
        (db.HasItem scope row'.id ↔ s.db.HasItem scope row.id) := by
      intro row' hcarries
      obtain ⟨row, hrow, hfilled⟩ := hresolves.row_of hcarries.1
      refine ⟨row, (hfilled.carries hrow hcarries.1).mp hcarries, ?_⟩
      rw [hfilled.id_eq]
      exact hresolves.hasItem_iff
    rcases huniform key hlegacy (hresolves.hasKey_iff.mp hhas) with hnone | hevery
    · refine Or.inl fun row' hcarries => ?_
      obtain ⟨row, hrow, hiff⟩ := hitem row' hcarries
      rw [hiff]
      exact hnone row hrow
    · refine Or.inr fun row' hcarries => ?_
      obtain ⟨row, hrow, hiff⟩ := hitem row' hcarries
      exact hiff.mpr (hevery row hrow)
  · -- a key that is gone was replaced by the copy keys of rows that carry it
    obtain ⟨hlegacy, rows, hne, hrows, -⟩ :=
      (hmigrating.settled scope key (hresolves.hasKey_iff.mpr hhas)).resolve_left hnot
    obtain ⟨row, hrow⟩ := List.exists_mem_of_ne_nil rows hne
    obtain ⟨hcarries, c, hc, hnew⟩ := hrows row hrow
    exact ⟨hlegacy, row, hmigrating.carries_iff.mpr hcarries, c, hc, hnew⟩
  · refine migrate_again (s := ⟨s'.db, tick⟩) ?_ ?_ h'
    · intro row hrow
      exact hresolved row (hmigrating.media ▸ hrow)
    · intro scope key hlegacy hhas
      exact (Retained.congr hmigrating.media hmigrating.items).mpr
        (hretained scope key hlegacy hhas)

/-- A film without an identity, whose copy user 7 has hidden before, and two copies of another film
that user 7 has hidden by its title, one of them also by its id. -/
def legacyLibrary : Db where
  media :=
    [cloudRow 1 "Up" 2009 "Up.mkv" "abc" none,
     cloudRow 2 "Heat" 1995 "Heat.mkv" "def" (some (copyIdentity "02")),
     cloudRow 3 "Heat" 1995 "Heat.4K.mkv" "ghi" (some (copyIdentity "03"))]
  items := [⟨.user 7, 3, 7, "2025-05-05T00:00:00+00:00"⟩]
  keys :=
    [⟨.user 7, "heat|1995|standard", "Heat", 1995, "standard", some 2, 7,
      "2025-05-05T00:00:00+00:00"⟩,
     ⟨.user 7, (cloudEnv.derivedDigest (.cloudExternalId 3 "abc")).text, "Up", 2009, "standard",
      none, 7, "2025-05-05T00:00:00+00:00"⟩]
  aliases := []
  ids_nodup := by decide

theorem legacyLibrary_distinct : legacyLibrary.DistinctIdentities :=
  Db.distinctIdentities_of_nodup (by decide +kernel)

/-- A local file with an identity, and a legacy key that nothing carries. -/
def localLibrary : Db where
  media := [{ cloudRow 1 "Up" 2009 "Up.mkv" "/films/Up.mkv" (some (copyIdentity "01")) with
    sourceKind := "local" }]
  items := []
  keys := [⟨.user 7, "heat|1995|standard", "Heat", 1995, "standard", none, 7,
    "2025-05-05T00:00:00+00:00"⟩]
  aliases := []
  ids_nodup := by decide

/-- `cloudEnv` with a file, and a clock that ticks. -/
def localEnv : Env :=
  { cloudEnv with
    evidence := fun _ _ => ["inode-v1:00"]
    now := fun n => "2026-01-02T03:04:0" ++ toString n ++ "+00:00" }

/-- The film that had no identity is hidden after the migration of `legacyLibrary`; and a second
migration of `localLibrary` renews the alias of its file. -/
theorem migrate_hides_and_changes :
    (legacyLibrary.DistinctIdentities ∧ ∃ summary s',
      migrateLegacyHiddenMovieKeys cloudEnv ⟨legacyLibrary, 0⟩ = .ok (summary, s') ∧
        1 ∉ legacyLibrary.HiddenAt cloudEnv (.user 7) ∧
        1 ∈ s'.db.HiddenAt cloudEnv (.user 7)) ∧
      ∃ summary s' summary' s'',
        migrateLegacyHiddenMovieKeys localEnv ⟨localLibrary, 0⟩ = .ok (summary, s') ∧
          migrateLegacyHiddenMovieKeys localEnv s' = .ok (summary', s'') ∧
          s''.db.aliases ≠ s'.db.aliases := by
  refine ⟨⟨legacyLibrary_distinct, _, _, rfl, ?_, ?_⟩, _, _, _, _, rfl, rfl, ?_⟩
  · decide +kernel
  · decide +kernel
  · decide +kernel

theorem migrate_conservative_legacyLibrary : ∃ summary s',
    migrateLegacyHiddenMovieKeys cloudEnv ⟨legacyLibrary, 0⟩ = .ok (summary, s') ∧
      summary = ⟨1, 0, 0, 0⟩ ∧
      ∀ scope, s'.db.HiddenAt cloudEnv scope ⊆
        legacyLibrary.HiddenAt cloudEnv scope ∪ Gained legacyLibrary s'.db scope :=
  ⟨_, _, rfl, by decide +kernel,
    (migrate_conservative cloudEnv ⟨legacyLibrary, 0⟩ _ _ legacyLibrary_distinct rfl).1⟩

end HiddenKeys
