/-
The hidden items of a library and the copy identities that they are known by.

A media item is hidden for a user, or for everyone, through its id, through its copy
identity, or through a legacy key of its title, year and file name, which other copies may
share.  The tables of the users and the ones for everyone are kept together: a row of
`user_hidden_movie_keys` has the scope of its user, one of `global_hidden_movie_keys` the
scope `everyone`.

* `resolveHiddenCopyIdentity` — the identity of a row, made and stored where there is none;
* `Db.HiddenAt` — what is hidden at a scope;
* `not_isCopyKey_of_mem_legacy` — no legacy key looks like a copy identity.
-/
import Mathlib.Data.List.Nodup
import Mathlib.Data.Nat.Find
import Mathlib.Data.List.Sort
import Mathlib.Order.Basic
import Elvern.PyText
import Elvern.Exceptions

namespace HiddenKeys

/-! ### Rows -/

def hiddenCopyIdentityPrefix : String := "copy-v2:"

/-- `movie_key LIKE 'copy-v2:%'` -/
def isCopyKey (key : String) : Bool := hiddenCopyIdentityPrefix.toList.isPrefixOf key.toList

/-- A copy identity: the prefix and a digest in hexadecimal digits. -/
structure CopyIdentity where
  text : String
  isCopyKey_text : isCopyKey text = true
  deriving DecidableEq

@[ext] theorem CopyIdentity.ext {c c' : CopyIdentity} (h : c.text = c'.text) : c = c' := by
  cases c
  cases c'
  cases h
  rfl

/-- The columns of `media_items` that are looked at.  The identity is NULL until a copy identity
has been made. -/
structure MediaRow where
  id : ℕ
  title : String
  year : Option ℤ
  originalFilename : String
  filePath : String
  sourceKind : String
  librarySourceId : Option ℕ
  externalMediaId : Option String
  cloudResourceKey : Option String
  hiddenCopyIdentity : Option CopyIdentity
  deriving DecidableEq

/-- Whom something is hidden from. -/
inductive Scope where
  | user (userId : ℕ)
  | everyone
  deriving DecidableEq

/-- A row of `user_hidden_media_items` or of `global_hidden_media_items`. -/
structure HiddenItem where
  scope : Scope
  mediaItemId : ℕ
  hiddenByUserId : ℕ
  hiddenAt : String
  deriving DecidableEq

/-- A row of `user_hidden_movie_keys` or of `global_hidden_movie_keys`. -/
structure HiddenKey where
  scope : Scope
  movieKey : String
  displayTitle : String
  year : ℤ
  editionIdentity : String
  representativeMediaItemId : Option ℕ
  hiddenByUserId : ℕ
  hiddenAt : String
  deriving DecidableEq

/-- A row of `hidden_copy_identity_aliases`. -/
structure CopyAlias where
  identity : CopyIdentity
  sourceKind : String
  librarySourceId : ℕ
  locatorHash : String
  evidenceHash : String
  createdAt : String
  lastSeenAt : String
  deriving DecidableEq

/-- The material of `_copy_identity_material`. -/
inductive CopyMaterial where
  | cloudExternalId (sourceId : ℕ) (externalMediaId : String)
  | cloudResourceKey (sourceId : ℕ) (cloudResourceKey : String)
  | localPath (sourceId : ℕ) (locator : String)
  | sourcePath (sourceKind : String) (sourceId : ℕ) (locator : String)
  deriving DecidableEq

structure Db where
  media : List MediaRow
  items : List HiddenItem
  keys : List HiddenKey
  aliases : List CopyAlias
  ids_nodup : (media.map MediaRow.id).Nodup

inductive DbError where
  | operationalError
  | integrityError
  | notFound
  | collisionRepairFailed
  deriving DecidableEq

/-- What the functions below look up outside the database: the title rules, the digests, the files
of local rows, random tokens and the clock.  What changes between two looks has the number of the
look as its first argument; `fault` says at which of them the database fails. -/
structure Env where
  uni : PyText.Unicode
  resolveTitleMetadata : String → Option ℤ → String → Option String × Option String
  extractEditionIdentityAnywhere : String → String → String
  normalizeTitleKey : String → String
  normalizeTitleSource : String → String
  normpath : String → String
  derivedDigest : CopyMaterial → CopyIdentity
  locatorDigest : String → ℕ → String → String
  evidence : ℕ → MediaRow → List String
  token : ℕ → CopyIdentity
  now : ℕ → String
  fault : ℕ → Bool
  normalizeTitleKey_dash : ∀ s, '-' ∉ (normalizeTitleKey s).toList
  token_eventually : ∀ (active : List CopyIdentity) (n : ℕ), ∃ k, n ≤ k ∧ token k ∉ active

/-- The database, and how often something outside it has been looked at. -/
structure State where
  db : Db
  tick : ℕ

variable (env : Env)

/-! ### Legacy keys -/

/-- `_legacy_identity_metadata` -/
def legacyIdentityMetadata (row : MediaRow) : Option String × Option ℤ × String :=
  let (baseTitle, edition) := env.resolveTitleMetadata row.title row.year row.originalFilename
  let edition := PyText.orElse (edition.getD "") "standard"
  let strict := env.extractEditionIdentityAnywhere row.title row.originalFilename
  let parts (s : String) : List String := (s.toList.splitOn '|').map String.ofList
  let edition :=
    if edition = "standard" then strict
    else if strict ≠ "standard" then
      "|".intercalate ((parts edition ++ parts strict).eraseDups.filter fun part =>
        decide (part ≠ ""))
    else edition
  (baseTitle, row.year, edition)

/-- `_build_hidden_movie_group_key` -/
def hiddenMovieGroupKey (row : MediaRow) : Option String :=
  match legacyIdentityMetadata env row with
  | (some baseTitle, some year, edition) =>
    if baseTitle = "" then none
    else some (env.normalizeTitleKey baseTitle ++ ("|" ++ toString year ++ "|" ++ edition))
  | _ => none

/-- `_build_hidden_movie_key` -/
def hiddenMovieKey (row : MediaRow) : Option String :=
  let signature := env.normalizeTitleKey (env.normalizeTitleSource
    (PyText.strip env.uni row.originalFilename))
  match hiddenMovieGroupKey env row with
  | some groupKey => if signature = "" then none else some (groupKey ++ ("|copy:" ++ signature))
  | none => none

/-- `_legacy_hidden_keys_for_row` -/
def legacyHiddenKeysForRow (row : MediaRow) : List String :=
  (hiddenMovieGroupKey env row).toList ++ (hiddenMovieKey env row).toList

/-- `hidden_key_candidates_for_row` -/
def hiddenKeyCandidatesForRow (row : MediaRow) : List String :=
  ((row.hiddenCopyIdentity.map CopyIdentity.text).toList ++
    legacyHiddenKeysForRow env row).eraseDups

/-- A text with a bar before any dash does not begin with the prefix of the copy identities. -/
theorem not_isCopyKey_of_bar {front : List Char} (rest : List Char) (h : '-' ∉ front) :
    hiddenCopyIdentityPrefix.toList.isPrefixOf (front ++ '|' :: rest) = false := by
  have hstarts : hiddenCopyIdentityPrefix.toList = ['c', 'o', 'p', 'y', '-', 'v', '2', ':'] := rfl
  rw [hstarts]
  rcases front with _ | ⟨a, front⟩
  · simp [List.isPrefixOf]
  rcases front with _ | ⟨b, front⟩
  · simp [List.isPrefixOf]
  rcases front with _ | ⟨c, front⟩
  · simp [List.isPrefixOf]
  rcases front with _ | ⟨d, front⟩
  · simp [List.isPrefixOf]
  rcases front with _ | ⟨e, front⟩
  · simp [List.isPrefixOf]
  · have hdash : '-' ≠ e := by
      rintro rfl
      exact h (by simp)
    simp [List.isPrefixOf, hdash]

/-- No legacy key is the text of a copy identity. -/
theorem not_isCopyKey_of_mem_legacy {row : MediaRow} {key : String}
    (h : key ∈ legacyHiddenKeysForRow env row) : isCopyKey key = false := by
  have hgroup : ∀ {groupKey : String}, hiddenMovieGroupKey env row = some groupKey →
      ∃ front rest, '-' ∉ front ∧ groupKey.toList = front ++ '|' :: rest := by
    intro groupKey hkey
    rw [hiddenMovieGroupKey] at hkey
    split at hkey
    · next baseTitle year edition hmetadata =>
      split at hkey
      · cases hkey
      · rw [← Option.some.inj hkey]
        refine ⟨(env.normalizeTitleKey baseTitle).toList,
          (toString year ++ "|" ++ edition).toList, env.normalizeTitleKey_dash _, ?_⟩
        simp [String.toList_append]
    · cases hkey
  have hbar : ∃ front rest, '-' ∉ front ∧ key.toList = front ++ '|' :: rest := by
    rcases List.mem_append.mp h with h | h
    · exact hgroup (Option.mem_toList.mp h)
    · have h := Option.mem_toList.mp h
      rw [hiddenMovieKey] at h
      split at h
      · next groupKey hkey =>
        split at h
        · cases h
        · obtain ⟨front, rest, hdash, htext⟩ := hgroup hkey
          rw [← Option.some.inj h]
          refine ⟨front, rest ++ ("|copy:" ++ env.normalizeTitleKey (env.normalizeTitleSource
            (PyText.strip env.uni row.originalFilename))).toList, hdash, ?_⟩
          rw [String.toList_append, htext, List.append_assoc, List.cons_append]
      · cases h
  obtain ⟨front, rest, hdash, htext⟩ := hbar
  rw [isCopyKey, htext]
  exact not_isCopyKey_of_bar rest hdash

theorem mem_hiddenKeyCandidates {row : MediaRow} {key : String} :
    key ∈ hiddenKeyCandidatesForRow env row ↔
      (∃ c, row.hiddenCopyIdentity = some c ∧ c.text = key) ∨
        key ∈ legacyHiddenKeysForRow env row := by
  rw [hiddenKeyCandidatesForRow, List.mem_eraseDups, List.mem_append, Option.mem_toList,
    Option.map_eq_some_iff]

/-! ### What is hidden -/

namespace Db

variable (db : Db)

/-- `identity` is the identity of some row. -/
def activeIdentities : List CopyIdentity := db.media.filterMap MediaRow.hiddenCopyIdentity

/-- No two rows have the same copy identity. -/
def DistinctIdentities : Prop :=
  ∀ r ∈ db.media, ∀ r' ∈ db.media, ∀ c, r.hiddenCopyIdentity = some c →
    r'.hiddenCopyIdentity = some c → r = r'

/-- There is a record of the item at the scope. -/
def HasItem (scope : Scope) (mediaItemId : ℕ) : Prop :=
  ∃ item ∈ db.items, item.scope = scope ∧ item.mediaItemId = mediaItemId

/-- There is a record of the key at the scope. -/
def HasKey (scope : Scope) (movieKey : String) : Prop :=
  ∃ key ∈ db.keys, key.scope = scope ∧ key.movieKey = movieKey

/-- The row is hidden at the scope, by its id or by one of its keys. -/
def RowHidden (scope : Scope) (row : MediaRow) : Prop :=
  db.HasItem scope row.id ∨ ∃ key ∈ hiddenKeyCandidatesForRow env row, db.HasKey scope key

/-- The media items that are hidden at the scope. -/
def HiddenAt (scope : Scope) : Set ℕ :=
  {i | ∃ row ∈ db.media, row.id = i ∧ db.RowHidden env scope row}

end Db

/-! ### Identities -/

/-- `str(row["source_kind"] or "local").strip().lower()` and `int(row["library_source_id"] or 0)` -/
def localSourceScope (row : MediaRow) : String × ℕ :=
  (PyText.lower env.uni (PyText.strip env.uni (PyText.orElse row.sourceKind "local")),
    row.librarySourceId.getD 0)

/-- `_normalized_local_locator` -/
def normalizedLocalLocator (path : String) : String :=
  let raw := PyText.strip env.uni path
  if raw = "" then "" else env.normpath raw

/-- `_local_locator_hash` -/
def localLocatorHash (row : MediaRow) : Option String :=
  let kind := (localSourceScope env row).1
  let sourceId := (localSourceScope env row).2
  let locator := normalizedLocalLocator env row.filePath
  if kind ≠ "local" ∨ locator = "" then none else some (env.locatorDigest kind sourceId locator)

/-- `local_copy_evidence_hashes`, with what the look at the file gives -/
def localCopyEvidenceHashes (tick : ℕ) (row : MediaRow) : List String :=
  if (localSourceScope env row).1 ≠ "local" then []
  else if PyText.strip env.uni row.filePath = "" then []
  else (env.evidence tick row).eraseDups

/-- A statement, or a look at something outside the database. -/
def State.look (s : State) : Except DbError State :=
  if env.fault s.tick then .error .operationalError else .ok { s with tick := s.tick + 1 }

/-- `INSERT INTO hidden_copy_identity_aliases … ON CONFLICT … DO UPDATE SET last_seen_at` -/
def upsertAlias (aliases : List CopyAlias) (new : CopyAlias) : List CopyAlias :=
  let same (old : CopyAlias) : Bool :=
    decide (old.identity = new.identity ∧ old.sourceKind = new.sourceKind ∧
      old.librarySourceId = new.librarySourceId ∧ old.locatorHash = new.locatorHash ∧
      old.evidenceHash = new.evidenceHash)
  if aliases.any same then
    aliases.map fun old => if same old then { old with lastSeenAt := new.lastSeenAt } else old
  else aliases ++ [new]

/-- `record_local_copy_identity_aliases` -/
def recordLocalCopyIdentityAliases (s : State) (row : MediaRow) (identity : CopyIdentity) :
    Except DbError State :=
  let kind := (localSourceScope env row).1
  let sourceId := (localSourceScope env row).2
  match localLocatorHash env row with
  | none => .ok s
  | some locatorHash => do
    let evidenceHashes := localCopyEvidenceHashes env s.tick row
    let now := env.now s.tick
    let s ← s.look env
    return { s with db := { s.db with
      aliases := evidenceHashes.foldl (fun aliases evidenceHash => upsertAlias aliases
        ⟨identity, kind, sourceId, locatorHash, evidenceHash, now, now⟩) s.db.aliases } }

/-- `_matching_alias_identities` with a locator, as `resolve_hidden_copy_identity` calls it -/
def matchingAliasIdentities (aliases : List CopyAlias) (tick : ℕ) (row : MediaRow) :
    List CopyIdentity :=
  let kind := (localSourceScope env row).1
  let sourceId := (localSourceScope env row).2
  let evidenceHashes := localCopyEvidenceHashes env tick row
  match localLocatorHash env row with
  | none => []
  | some locatorHash =>
    let rows := evidenceHashes.flatMap fun evidenceHash => aliases.filter fun old =>
      decide (old.sourceKind = kind ∧ old.librarySourceId = sourceId ∧
        old.evidenceHash = evidenceHash ∧ old.locatorHash = locatorHash)
    let having (start : String) : List String :=
      evidenceHashes.filter fun evidenceHash => PyText.startsWith start evidenceHash
    let meets (hashes : List String) (identity : CopyIdentity) : Bool :=
      rows.any fun old => decide (old.identity = identity ∧ old.evidenceHash ∈ hashes)
    let matched := (rows.map CopyAlias.identity).eraseDups.filter fun identity =>
      if having "sample-v1:" ≠ [] then meets (having "sample-v1:") identity
      else if having "inode-v2:" ≠ [] ∧ meets (having "inode-v2:") identity = false then false
      else if having "inode-v1:" ≠ [] ∧ meets (having "inode-v1:") identity = false then false
      else true
    matched.insertionSort fun a b => a.text ≤ b.text

/-- `_active_identity_owner(…) is not None` -/
def Db.activeIdentityOwner (db : Db) (identity : CopyIdentity) (excludingMediaItemId : ℕ) : Bool :=
  db.media.any fun r => decide (r.hiddenCopyIdentity = some identity ∧ r.id ≠ excludingMediaItemId)

/-- New identities until one is not among those in use. -/
def newHiddenCopyIdentity (s : State) (active : List CopyIdentity) : CopyIdentity × State :=
  let n := Nat.find (env.token_eventually active s.tick)
  (env.token n, { s with tick := n + 1 })

/-- `_copy_identity_material` -/
def copyIdentityMaterial (row : MediaRow) : Option CopyMaterial :=
  let kind := (localSourceScope env row).1
  let sourceId := (localSourceScope env row).2
  let externalMediaId := PyText.strip env.uni (row.externalMediaId.getD "")
  let cloudResourceKey := PyText.strip env.uni (row.cloudResourceKey.getD "")
  if kind = "cloud" ∧ externalMediaId ≠ "" then some (.cloudExternalId sourceId externalMediaId)
  else if kind = "cloud" ∧ cloudResourceKey ≠ "" then
    some (.cloudResourceKey sourceId cloudResourceKey)
  else
    let locator := normalizedLocalLocator env row.filePath
    if locator = "" then none
    else if kind = "local" then some (.localPath sourceId locator)
    else some (.sourcePath kind sourceId locator)

/-- `_derive_hidden_copy_identity` -/
def deriveHiddenCopyIdentity (row : MediaRow) : Option CopyIdentity :=
  match copyIdentityMaterial env row with
  | none => none
  | some (.localPath ..) => none
  | some material => some (env.derivedDigest material)

def MediaRow.withIdentity (row : MediaRow) (identity : CopyIdentity) : MediaRow :=
  { row with hiddenCopyIdentity := some identity }

/-- `UPDATE media_items SET hidden_copy_identity = ? WHERE id = ?` -/
def Db.setIdentity (db : Db) (identity : CopyIdentity) (mediaItemId : ℕ) : Db where
  media := db.media.map fun r => if r.id = mediaItemId then r.withIdentity identity else r
  items := db.items
  keys := db.keys
  aliases := db.aliases
  ids_nodup := by
    have hids : (db.media.map fun r => if r.id = mediaItemId then
      r.withIdentity identity else r).map
        MediaRow.id = db.media.map MediaRow.id := by
      rw [List.map_map]
      refine List.map_congr_left fun r _ => ?_
      simp only [Function.comp_apply]
      split <;> rfl
    rw [hids]
    exact db.ids_nodup

/-- The identity that a local row without one is given. -/
def newLocalIdentity (s : State) (row : MediaRow) : Except DbError (CopyIdentity × State) := do
  let candidates := (matchingAliasIdentities env s.db.aliases s.tick row).filter fun identity =>
    s.db.activeIdentityOwner identity row.id = false
  let s ← s.look env
  match candidates with
  | [identity] => return (identity, s)
  -- an identity that is in use makes the unique index refuse the update, and is made anew
  | _ =>
    let others := s.db.media.filter fun r => decide (r.id ≠ row.id)
    return newHiddenCopyIdentity env s (others.filterMap MediaRow.hiddenCopyIdentity)

/-- `resolve_hidden_copy_identity` of a row of `media_items`, with the unique index on the
identities in force -/
def resolveHiddenCopyIdentity (s : State) (row : MediaRow) :
    Except DbError (Option CopyIdentity × State) :=
  match row.hiddenCopyIdentity with
  | some existing => do
    let s ← recordLocalCopyIdentityAliases env s row existing
    return (some existing, s)
  | none =>
    if (localSourceScope env row).1 = "local" then do
      let (identity, s) ← newLocalIdentity env s row
      let s ← s.look env
      let s ← recordLocalCopyIdentityAliases env
        { s with db := s.db.setIdentity identity row.id } row identity
      return (some identity, s)
    else
      match deriveHiddenCopyIdentity env row with
      | none => return (none, s)
      | some identity => do
        let s ← s.look env
        if s.db.activeIdentityOwner identity row.id then throw .integrityError
        let s ← recordLocalCopyIdentityAliases env
          { s with db := s.db.setIdentity identity row.id } row identity
        return (some identity, s)

/-- The values of `resolve_hidden_copy_identity_payload`. -/
structure Payload where
  movieKey : String
  displayTitle : String
  year : ℤ
  editionIdentity : String
  representativeMediaItemId : ℕ
  deriving DecidableEq

/-- The payload of a row with its identity. -/
def payloadOf (row : MediaRow) (identity : CopyIdentity) : Payload :=
  let (baseTitle, year, edition) := legacyIdentityMetadata env row
  let title := PyText.orElse (PyText.orElse (baseTitle.getD "") row.title) "Untitled"
  { movieKey := identity.text
    displayTitle := PyText.orElse (PyText.strip env.uni title) "Untitled"
    year := year.getD 0
    editionIdentity := edition
    representativeMediaItemId := row.id }

/-- `resolve_hidden_copy_identity_payload` -/
def resolveHiddenCopyIdentityPayload (s : State) (row : MediaRow) :
    Except DbError (Option Payload × State) := do
  let (identity, s) ← resolveHiddenCopyIdentity env s row
  return (identity.map (payloadOf env row), s)

/-- A row of the loop of `_load_identity_rows`. -/
def resolveRow (s : State) (row : MediaRow) : Except DbError State := do
  let (_, s) ← resolveHiddenCopyIdentity env s row
  return s

/-- `_load_identity_rows`: the rows, after each has been resolved -/
def loadIdentityRows (s : State) : Except DbError (List MediaRow × State) := do
  let s ← s.db.media.foldlM (resolveRow env) s
  return (s.db.media, s)

/-! ### Records of keys -/

/-- The record of a payload. -/
def Payload.record (payload : Payload) (scope : Scope) (hiddenByUserId : ℕ) (hiddenAt : String) :
    HiddenKey :=
  ⟨scope, payload.movieKey, payload.displayTitle, payload.year, payload.editionIdentity,
    some payload.representativeMediaItemId, hiddenByUserId, hiddenAt⟩

/-- An insertion into a table of keys, where a record of the same scope and key is updated
instead. -/
def upsertKey (keys : List HiddenKey) (new : HiddenKey) (update : HiddenKey → HiddenKey) :
    List HiddenKey :=
  let same (old : HiddenKey) : Bool := decide (old.scope = new.scope ∧ old.movieKey = new.movieKey)
  if keys.any same then keys.map fun old => if same old then update old else old
  else keys ++ [new]

/-- `COALESCE(representative_media_item_id, excluded.representative_media_item_id)` -/
def keepRepresentative (new old : HiddenKey) : HiddenKey :=
  { old with representativeMediaItemId :=
      old.representativeMediaItemId.or new.representativeMediaItemId }

/-- `_insert_user_copy_key`, and at the scope `everyone` `_insert_global_copy_key` -/
def insertCopyKey (s : State) (new : HiddenKey) : Except DbError State := do
  let s ← s.look env
  return { s with db := { s.db with keys := upsertKey s.db.keys new (keepRepresentative new) } }

/-- `DELETE FROM …_hidden_movie_keys WHERE … movie_key = ?` -/
def deleteKey (s : State) (scope : Scope) (movieKey : String) : Except DbError State := do
  let s ← s.look env
  return { s with db := { s.db with
    keys := s.db.keys.filter fun key => !decide (key.scope = scope ∧ key.movieKey = movieKey) } }

end HiddenKeys
