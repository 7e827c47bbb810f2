/-
Age groups and age requirements of media items (`media_age_access_service.py`).

An item belongs to the group of its manual link, or else to the one that its title and year give;
a group may have an age requirement.  The source resolves this three times: for one item
(`effectiveGroup`), for a batch of ids (`loadAccessibleMediaItemIdsByAge`) and for the whole library
(`loadAllMediaAgeGroups`).  The parser of titles is a parameter (`TitleParser`).
-/
import Mathlib.Data.List.Nodup
import Elvern.AuthEnv

open PyText

namespace AgeAccess

/-- What `resolve_title_metadata` finds, as far as it is looked at. -/
structure TitleMetadata where
  suspiciousOutput : Bool
  parsedYear : Option ℕ
  posterMatchIdentityTitle : String
  posterMatchTitle : String
  baseTitle : String

/-- The parser of titles. -/
structure TitleParser where
  unicode : Unicode
  /-- `resolve_title_metadata`, of a title, a year and a filename -/
  resolveTitleMetadata : Option String → Option ℕ → Option String → TitleMetadata
  /-- `normalize_age_group_identity_title` -/
  normalizeIdentityTitle : String → ℕ → TitleMetadata → String

/-- `media_items`, as far as it is looked at; ids are handed out from 1 on. -/
structure MediaItemRow where
  id : ℕ
  title : Option String
  originalFilename : Option String
  year : Option ℕ
  id_pos : 0 < id

/-- The key of a manual link; `link_media_item_to_age_group` refuses the empty one. -/
abbrev LinkKey := { key : String // key ≠ "" }

/-- `media_age_requirements`, under its key -/
structure RequirementRow where
  displayTitle : String
  year : Option ℕ
  ageRequirement : Option ℕ

/-- `users`, as far as it is looked at -/
structure AgeUserRow where
  id : ℕ
  role : Option Role
  ageCredential : Option ℕ

/-- `native_playback_sessions` or `download_sessions`; `endedAt` is `closed_at` or
`completed_at`. -/
structure SessionRow where
  id : ℕ
  userId : ℕ
  mediaItemId : ℕ
  revokedAt : Option Time
  endedAt : Option Time
  lastError : Option String

/-- `desktop_vlc_handoffs` -/
structure HandoffRow where
  id : ℕ
  userId : ℕ
  mediaItemId : ℕ
  revokedAt : Option Time

/-- The tables; media items and users are distinct in their ids. -/
structure AgeDb where
  mediaItems : List MediaItemRow
  manualLinks : ℕ → Option LinkKey
  requirements : String → Option RequirementRow
  users : List AgeUserRow
  nativeSessions : List SessionRow
  downloadSessions : List SessionRow
  handoffs : List HandoffRow
  mediaItems_nodup : (mediaItems.map MediaItemRow.id).Nodup
  users_nodup : (users.map AgeUserRow.id).Nodup

/-- `AgeGroupResolution.source` -/
inductive GroupSource where
  | itemFallback
  | titleYear
  | manualLink
  deriving DecidableEq

/-- `AgeGroupResolution` -/
structure AgeGroup where
  ageGroupKey : String
  displayTitle : String
  year : Option ℕ
  source : GroupSource

/-- `_fallback_age_group` -/
def fallbackAgeGroup (parser : TitleParser) (row : MediaItemRow) : AgeGroup where
  ageGroupKey := "age:item:" ++ toString row.id
  displayTitle :=
    orElse (strip parser.unicode (row.title.getD "")) ("Media Item " ++ toString row.id)
  year := none
  source := .itemFallback

/-- `resolve_age_restriction_movie_group` -/
def resolveAgeRestrictionMovieGroup (parser : TitleParser) (row : MediaItemRow) : AgeGroup :=
  let metadata := parser.resolveTitleMetadata row.title row.year row.originalFilename
  if metadata.suspiciousOutput then fallbackAgeGroup parser row
  else
    -- `parsed_year or year`: a year zero does not count
    match (metadata.parsedYear.filter fun y => decide (y ≠ 0)).or row.year with
    | none => fallbackAgeGroup parser row
    | some year =>
      let identityTitle := strip parser.unicode
        (orElse metadata.posterMatchIdentityTitle
          (orElse metadata.posterMatchTitle metadata.baseTitle))
      let normalizedTitle := parser.normalizeIdentityTitle identityTitle year metadata
      if normalizedTitle = "" then fallbackAgeGroup parser row
      else
        { ageGroupKey := "age:title:" ++ normalizedTitle ++ "|" ++ toString year
          displayTitle := identityTitle
          year := some year
          source := .titleYear }

/-- `validate_age_requirement`, on `None` or a whole number -/
def validateAgeRequirement : Option ℕ → Except PyError (Option ℕ)
  | none => .ok none
  | some age =>
    if age < 1 ∨ 18 < age then
      .error (.http 400 "Age requirement must be None or a whole number from 1 to 18")
    else .ok (some age)

namespace AgeDb

variable (db : AgeDb) (parser : TitleParser)

/-- `SELECT … FROM media_items WHERE id = ?` -/
def mediaItem (id : ℕ) : Option MediaItemRow := db.mediaItems.find? fun row => decide (row.id = id)

/-- `_display_payload_for_age_group_key` -/
def displayPayload (key : String) : String × Option ℕ :=
  match db.requirements key with
  | some row => (row.displayTitle, row.year)
  | none =>
    match (db.mediaItems.map (resolveAgeRestrictionMovieGroup parser)).find? fun group =>
        decide (group.ageGroupKey = key) with
    | some group => (group.displayTitle, group.year)
    | none => (key, none)

/-- The first result of `_effective_group_for_row` -/
def effectiveGroup (row : MediaItemRow) : AgeGroup :=
  match db.manualLinks row.id with
  | none => resolveAgeRestrictionMovieGroup parser row
  | some key =>
    { ageGroupKey := key.val
      displayTitle := (db.displayPayload parser key.val).1
      year := (db.displayPayload parser key.val).2
      source := .manualLink }

/-- The age requirement of a group, if it has one that is not null. -/
def ageRequirement (key : String) : Option ℕ :=
  (db.requirements key).bind RequirementRow.ageRequirement

/-- `resolve_media_age_requirement(settings, item_id)["age_requirement"]` -/
def resolveMediaAgeRequirement (id : ℕ) : Except PyError (Option ℕ) :=
  match db.mediaItem id with
  | none => .error (.http 404 "Media item not found")
  | some row => .ok (db.ageRequirement (db.effectiveGroup parser row).ageGroupKey)

/-- `assert_user_can_access_media_by_age` -/
def assertUserCanAccessMediaByAge (user : AuthenticatedUser) (id : ℕ) : Except PyError Unit :=
  if user.role = .admin then .ok ()
  else do
    match ← db.resolveMediaAgeRequirement parser id with
    | none => return ()
    | some requirement =>
      let age ← validateAgeCredential user.ageCredential
      if age < requirement then throw (.http 403 (ageDeniedMessage requirement))

/-- The group key of a row in `load_accessible_media_item_ids_by_age` -/
def batchGroupKey (row : MediaItemRow) : String :=
  match (db.manualLinks row.id).map Subtype.val with
  | some key => key
  | none => (resolveAgeRestrictionMovieGroup parser row).ageGroupKey

/-- `load_accessible_media_item_ids_by_age` -/
def loadAccessibleMediaItemIdsByAge (user : AuthenticatedUser) (ids : List ℤ) :
    Except PyError (List ℤ) :=
  let normalized := ((ids.filter fun id => decide (0 < id)).dedup).mergeSort
    fun a b => decide (a ≤ b)
  if normalized = [] then .ok []
  else if user.role = .admin then .ok normalized
  else do
    let rows := db.mediaItems.filter fun row => normalized.contains (row.id : ℤ)
    let age ← validateAgeCredential user.ageCredential
    return (rows.filter fun row =>
      (db.ageRequirement (db.batchGroupKey parser row)).all fun requirement =>
        decide (requirement ≤ age)).map fun row => (row.id : ℤ)

/-- `_load_all_media_age_groups` -/
def loadAllMediaAgeGroups : List (ℕ × AgeGroup) :=
  db.mediaItems.map fun row =>
    let automatic := resolveAgeRestrictionMovieGroup parser row
    match (db.manualLinks row.id).map Subtype.val with
    | some key =>
      if key ≠ "" then
        (row.id, { automatic with ageGroupKey := key, source := .manualLink })
      else (row.id, automatic)
    | none => (row.id, automatic)

/-- `media_item_ids_for_age_group` -/
def mediaItemIdsForAgeGroup (key : String) : List ℕ :=
  (((db.loadAllMediaAgeGroups parser).filter fun x => decide (x.2.ageGroupKey = key)).map
    Prod.fst).mergeSort fun a b => decide (a ≤ b)

end AgeDb

end AgeAccess
