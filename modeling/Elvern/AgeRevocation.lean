/-
Revocation when an age requirement, a link or an age credential changes
(`media_age_access_service.py`).

Four operations change who is too young for which item, and each recomputes the pairs whose
sessions it revokes.

* `revokeFor_clean` — a change after which every newly forbidden pair is among those revoked, and
  only forbidden pairs are, keeps a clean state clean and revokes only pairs that became forbidden;
* `Operation.keeps_clean` — so it is for each of the four, by the pairs that it can forbid;
* `Operation.run_clean` — and for any sequence of them.
-/
import Elvern.AgeResolution
import Elvern.Exceptions

open PyText

namespace AgeAccess

/-- Not revoked and not ended. -/
def SessionRow.active (session : SessionRow) : Prop :=
  session.revokedAt = none ∧ session.endedAt = none

instance (session : SessionRow) : Decidable session.active := instDecidableAnd

/-- Not revoked. -/
def HandoffRow.active (handoff : HandoffRow) : Prop := handoff.revokedAt = none

instance (handoff : HandoffRow) : Decidable handoff.active :=
  inferInstanceAs (Decidable (handoff.revokedAt = none))

def SessionRow.revoke (now : Time) (reason : String) (session : SessionRow) : SessionRow :=
  { session with
    revokedAt := session.revokedAt.or (some now)
    lastError := session.lastError.or (some reason) }

def HandoffRow.revoke (now : Time) (handoff : HandoffRow) : HandoffRow :=
  { handoff with revokedAt := handoff.revokedAt.or (some now) }

/-- The row counts as a standard user unless its role is `admin`. -/
def AgeUserRow.isAdmin (user : AgeUserRow) : Prop := user.role.getD .standardUser = .admin

instance (user : AgeUserRow) : Decidable user.isAdmin :=
  inferInstanceAs (Decidable (user.role.getD .standardUser = .admin))

namespace AgeDb

variable (db : AgeDb) (parser : TitleParser)

/-- The three `UPDATE` statements, for pairs of these items and these users. -/
def revokeFor (now : Time) (reason : String) (itemIds userIds : List ℕ) : AgeDb :=
  { db with
    nativeSessions := db.nativeSessions.map fun session =>
      if session.mediaItemId ∈ itemIds ∧ session.userId ∈ userIds ∧ session.active then
        session.revoke now reason
      else session
    downloadSessions := db.downloadSessions.map fun session =>
      if session.mediaItemId ∈ itemIds ∧ session.userId ∈ userIds ∧ session.active then
        session.revoke now reason
      else session
    handoffs := db.handoffs.map fun handoff =>
      if handoff.mediaItemId ∈ itemIds ∧ handoff.userId ∈ userIds ∧ handoff.active then
        handoff.revoke now
      else handoff }

/-- The users below a requirement, as `_revoke_persistent_sessions_for_item_ids` selects them. -/
def usersBelow (requirement : ℕ) : List ℕ :=
  ((db.users.filter fun user =>
    decide (¬user.isAdmin ∧ user.ageCredential.getD 18 < requirement)).map AgeUserRow.id).dedup

/-- `_revoke_persistent_sessions_for_item_ids` -/
def revokePersistentSessionsForItemIds (itemIds : List ℕ) (ageRequirement : Option ℕ)
    (now : Time) (reason : String) : AgeDb :=
  match ageRequirement with
  | none => db
  | some requirement =>
    if itemIds = [] then db
    else if db.usersBelow requirement = [] then db
    else db.revokeFor now reason itemIds (db.usersBelow requirement)

/-- `revoke_persistent_sessions_for_age_group` -/
def revokePersistentSessionsForAgeGroup (key : String) (ageRequirement : Option ℕ) (now : Time)
    (reason : String) : AgeDb :=
  db.revokePersistentSessionsForItemIds (db.mediaItemIdsForAgeGroup parser key) ageRequirement now
    reason

/-- The tables with other manual links. -/
def setLinks (links : ℕ → Option LinkKey) : AgeDb := { db with manualLinks := links }

/-- The upsert of `link_media_item_to_age_group` -/
def setLink (id : ℕ) (key : LinkKey) : AgeDb :=
  db.setLinks (Function.update db.manualLinks id (some key))

/-- The deletion of `unlink_media_item_from_age_group` -/
def dropLink (id : ℕ) : AgeDb := db.setLinks (Function.update db.manualLinks id none)

/-- The upsert of `set_media_age_requirement` -/
def setRequirement (key : String) (row : RequirementRow) : AgeDb :=
  { db with requirements := Function.update db.requirements key (some row) }

/-- The new age credential of a user. -/
def setAgeCredential (userId age : ℕ) : AgeDb :=
  { db with
    users := db.users.map fun user =>
      if user.id = userId then { user with ageCredential := some age } else user
    users_nodup := by
      rw [List.map_map]
      convert db.users_nodup using 2
      refine funext fun user => ?_
      rw [Function.comp]
      split <;> rfl }

/-- The row of the target, or `_require_media_row`'s error. -/
def requireMediaRow (id : ℕ) : Except PyError MediaItemRow :=
  match db.mediaItem id with
  | none => .error (.http 404 "Media item not found")
  | some row => .ok row

/-- The key to link to: the source item's group, or the key that was given. -/
def targetGroupKey (sourceId : Option ℕ) (ageGroupKey : Option String) : Except PyError String :=
  match sourceId with
  | some id => do
    let row ← db.requireMediaRow id
    return (db.effectiveGroup parser row).ageGroupKey
  | none => .ok (strip parser.unicode (ageGroupKey.getD ""))

/-- `link_media_item_to_age_group` -/
def linkMediaItemToAgeGroup (now : Time) (targetId : ℕ) (sourceId : Option ℕ)
    (ageGroupKey : Option String) : Except PyError AgeDb := do
  if (ageGroupKey.getD "") = "" ∧ sourceId = none then
    throw (.http 400 "Choose an age group or source movie to link.")
  let _ ← db.requireMediaRow targetId
  let key ← db.targetGroupKey parser sourceId ageGroupKey
  if hkey : key = "" then throw (.http 400 "Age group key is required.")
  else
    let linked := db.setLink targetId ⟨key, hkey⟩
    let requirement ← linked.resolveMediaAgeRequirement parser targetId
    return linked.revokePersistentSessionsForItemIds [targetId] requirement now
      "age_group_manual_link_changed"

/-- `unlink_media_item_from_age_group` -/
def unlinkMediaItemFromAgeGroup (now : Time) (targetId : ℕ) : Except PyError AgeDb := do
  let row ← db.requireMediaRow targetId
  match db.manualLinks row.id with
  | none => return db
  | some _ =>
    let unlinked := db.dropLink targetId
    let requirement ← unlinked.resolveMediaAgeRequirement parser targetId
    return unlinked.revokePersistentSessionsForItemIds [targetId] requirement now
      "age_group_manual_link_removed"

/-- `set_media_age_requirement`, with the group's key and requirement that it returns -/
def setMediaAgeRequirement (itemId : ℕ) (ageRequirement : Option ℕ) :
    Except PyError (AgeDb × String × Option ℕ) := do
  let normalized ← validateAgeRequirement ageRequirement
  let row ← db.requireMediaRow itemId
  let group := db.effectiveGroup parser row
  let updated := db.setRequirement group.ageGroupKey ⟨group.displayTitle, group.year, normalized⟩
  let requirement ← updated.resolveMediaAgeRequirement parser itemId
  return (updated, (updated.effectiveGroup parser row).ageGroupKey, requirement)

/-- The route over it: `revoke_persistent_sessions_for_age_group` for what was set. -/
def setMediaAgeRequirementAndRevoke (now : Time) (itemId : ℕ) (ageRequirement : Option ℕ) :
    Except PyError AgeDb := do
  let (updated, key, requirement) ← db.setMediaAgeRequirement parser itemId ageRequirement
  return updated.revokePersistentSessionsForAgeGroup parser key requirement now
    "age_requirement_changed"

/-- The group keys with a requirement above an age. -/
def isRestricted (age : ℕ) (key : String) : Bool :=
  (db.ageRequirement key).any fun requirement => decide (age < requirement)

/-- `validate_age_credential` on a column, which may be null -/
def validateStoredAge : Option ℕ → Except PyError ℕ
  | none => .error (.http 400 "Age credential must be a whole number from 1 to 18")
  | some age => validateAgeCredential age

/-- `revoke_persistent_sessions_for_user_age_change` -/
def revokePersistentSessionsForUserAgeChange (now : Time) (userId : ℕ) (reason : String) :
    Except PyError AgeDb :=
  match db.users.find? fun user => decide (user.id = userId) with
  | none => .ok db
  | some user =>
    if user.isAdmin then .ok db
    else do
      let age ← validateStoredAge user.ageCredential
      let itemIds := ((db.loadAllMediaAgeGroups parser).filter fun x =>
        db.isRestricted age x.2.ageGroupKey).map Prod.fst
      if itemIds = [] then return db
      else return db.revokeFor now reason itemIds [userId]

/-- A changed age credential (`admin_service.py`), then the revocation. -/
def changeAgeCredentialAndRevoke (now : Time) (userId age : ℕ) : Except PyError AgeDb := do
  let normalized ← validateAgeCredential age
  (db.setAgeCredential userId normalized).revokePersistentSessionsForUserAgeChange parser now userId
    "user_age_credential_changed"

/-- The user is no administrator and below the requirement of the item's effective group; an age of
`NULL` counts as eighteen. -/
def Forbidden (userId itemId : ℕ) : Prop :=
  ∃ user ∈ db.users, user.id = userId ∧ ¬user.isAdmin ∧
    ∃ row ∈ db.mediaItems, row.id = itemId ∧
      ∃ requirement, db.ageRequirement (db.effectiveGroup parser row).ageGroupKey =
        some requirement ∧ user.ageCredential.getD 18 < requirement

/-- No active session of a forbidden pair. -/
structure Clean : Prop where
  native : ∀ s ∈ db.nativeSessions, s.active → ¬db.Forbidden parser s.userId s.mediaItemId
  download : ∀ s ∈ db.downloadSessions, s.active → ¬db.Forbidden parser s.userId s.mediaItemId
  handoff : ∀ h ∈ db.handoffs, h.active → ¬db.Forbidden parser h.userId h.mediaItemId

/-- Every session either stays as it is or is an active one of a pair that became forbidden and is
revoked. -/
structure RevokesOnly (db db' : AgeDb) : Prop where
  native : List.Forall₂ (fun s s' => s' = s ∨ s.active ∧
    db'.Forbidden parser s.userId s.mediaItemId ∧ ¬db.Forbidden parser s.userId s.mediaItemId ∧
      ∃ now reason, s' = s.revoke now reason) db.nativeSessions db'.nativeSessions
  download : List.Forall₂ (fun s s' => s' = s ∨ s.active ∧
    db'.Forbidden parser s.userId s.mediaItemId ∧ ¬db.Forbidden parser s.userId s.mediaItemId ∧
      ∃ now reason, s' = s.revoke now reason) db.downloadSessions db'.downloadSessions
  handoff : List.Forall₂ (fun h h' => h' = h ∨ h.active ∧
    db'.Forbidden parser h.userId h.mediaItemId ∧ ¬db.Forbidden parser h.userId h.mediaItemId ∧
      ∃ now, h' = h.revoke now) db.handoffs db'.handoffs

end AgeDb

/-- The four operations, with what they are called with. -/
inductive Operation where
  | link (now : Time) (targetId : ℕ) (sourceId : Option ℕ) (ageGroupKey : Option String)
  | unlink (now : Time) (targetId : ℕ)
  | setRequirement (now : Time) (itemId : ℕ) (ageRequirement : Option ℕ)
  | changeAge (now : Time) (userId age : ℕ)

/-- What an operation returns. -/
def Operation.call (parser : TitleParser) (db : AgeDb) : Operation → Except PyError AgeDb
  | .link now targetId sourceId ageGroupKey =>
    db.linkMediaItemToAgeGroup parser now targetId sourceId ageGroupKey
  | .unlink now targetId => db.unlinkMediaItemFromAgeGroup parser now targetId
  | .setRequirement now itemId ageRequirement =>
    db.setMediaAgeRequirementAndRevoke parser now itemId ageRequirement
  | .changeAge now userId age => db.changeAgeCredentialAndRevoke parser now userId age

/-- The state an operation ends in; one that raises has written nothing. -/
def Operation.apply (parser : TitleParser) (db : AgeDb) (op : Operation) : AgeDb :=
  match op.call parser db with
  | .ok db' => db'
  | .error _ => db

theorem SessionRow.not_active_revoke (now : Time) (reason : String) (s : SessionRow) :
    ¬(s.revoke now reason).active := by
  rintro ⟨h, -⟩
  rw [SessionRow.revoke] at h
  rcases hrevoked : s.revokedAt with _ | at' <;> simp [hrevoked] at h

theorem HandoffRow.not_active_revoke (now : Time) (h : HandoffRow) : ¬(h.revoke now).active := by
  intro hactive
  rw [HandoffRow.active, HandoffRow.revoke] at hactive
  rcases hrevoked : h.revokedAt with _ | at' <;> simp [hrevoked] at hactive

namespace AgeDb

variable {db changed : AgeDb} {parser : TitleParser}

theorem revokeFor_no_users (now : Time) (reason : String) (itemIds : List ℕ) :
    db.revokeFor now reason itemIds [] = db := by
  simp [revokeFor]

theorem revokeFor_no_items (now : Time) (reason : String) (userIds : List ℕ) :
    db.revokeFor now reason [] userIds = db := by
  simp [revokeFor]

/-- The early returns of the source do what the statements would. -/
theorem revokePersistentSessionsForItemIds_some (itemIds : List ℕ) (requirement : ℕ) (now : Time)
    (reason : String) :
    db.revokePersistentSessionsForItemIds itemIds (some requirement) now reason =
      db.revokeFor now reason itemIds (db.usersBelow requirement) := by
  rw [revokePersistentSessionsForItemIds]
  split
  · next hitems => rw [hitems, revokeFor_no_items]
  split
  · next husers => rw [husers, revokeFor_no_users]
  · rfl

theorem mem_usersBelow {requirement u : ℕ} : u ∈ db.usersBelow requirement ↔
    ∃ user ∈ db.users, user.id = u ∧ ¬user.isAdmin ∧ user.ageCredential.getD 18 < requirement := by
  rw [usersBelow, List.mem_dedup, List.mem_map]
  refine exists_congr fun user => ?_
  rw [List.mem_filter, decide_eq_true_eq]
  tauto

/-- What a change must be like for a revocation after it to be complete and exact: the tables of
sessions are as they were, every pair that it forbids is revoked, and only forbidden ones are. -/
theorem revokeFor_clean (hclean : db.Clean parser)
    (hnative : changed.nativeSessions = db.nativeSessions)
    (hdownload : changed.downloadSessions = db.downloadSessions)
    (hhandoff : changed.handoffs = db.handoffs) {itemIds userIds : List ℕ}
    (hnew : ∀ u i, changed.Forbidden parser u i → ¬db.Forbidden parser u i →
      i ∈ itemIds ∧ u ∈ userIds)
    (honly : ∀ u ∈ userIds, ∀ i ∈ itemIds, changed.Forbidden parser u i) (now : Time)
    (reason : String) :
    (changed.revokeFor now reason itemIds userIds).Clean parser ∧
      RevokesOnly parser db (changed.revokeFor now reason itemIds userIds) := by
  -- an active session of a pair that has become forbidden is among those that are revoked
  have hsessions : ∀ sessions : List SessionRow,
      (∀ s ∈ sessions, s.active → ¬db.Forbidden parser s.userId s.mediaItemId) →
      ∀ s' ∈ sessions.map fun s =>
          if s.mediaItemId ∈ itemIds ∧ s.userId ∈ userIds ∧ s.active then
            s.revoke now reason else s,
        s'.active → ¬changed.Forbidden parser s'.userId s'.mediaItemId := by
    intro sessions h s' hs' hactive hforbidden
    obtain ⟨s, hs, rfl⟩ := List.mem_map.mp hs'
    by_cases hin : s.mediaItemId ∈ itemIds ∧ s.userId ∈ userIds ∧ s.active
    · rw [if_pos hin] at hactive
      exact s.not_active_revoke now reason hactive
    · rw [if_neg hin] at hactive hforbidden
      obtain ⟨hi, hu⟩ := hnew _ _ hforbidden (h s hs hactive)
      exact hin ⟨hi, hu, hactive⟩
  -- and whatever is revoked was allowed before
  have honlySessions : ∀ sessions : List SessionRow,
      (∀ s ∈ sessions, s.active → ¬db.Forbidden parser s.userId s.mediaItemId) →
      List.Forall₂ (fun s s' => s' = s ∨ s.active ∧
        changed.Forbidden parser s.userId s.mediaItemId ∧
        ¬db.Forbidden parser s.userId s.mediaItemId ∧ ∃ now reason, s' = s.revoke now reason)
        sessions (sessions.map fun s =>
          if s.mediaItemId ∈ itemIds ∧ s.userId ∈ userIds ∧ s.active then s.revoke now reason
          else s) := by
    intro sessions h
    rw [List.forall₂_map_right_iff, List.forall₂_same]
    intro s hs
    split
    · next hin =>
      obtain ⟨hi, hu, hactive⟩ := hin
      exact .inr ⟨hactive, honly _ hu _ hi, h s hs hactive, now, reason, rfl⟩
    · exact .inl rfl
  have hhandoffs : ∀ h' ∈ db.handoffs.map fun h =>
        if h.mediaItemId ∈ itemIds ∧ h.userId ∈ userIds ∧ h.active then h.revoke now else h,
      h'.active → ¬changed.Forbidden parser h'.userId h'.mediaItemId := by
    intro h' hh' hactive hforbidden
    obtain ⟨h, hh, rfl⟩ := List.mem_map.mp hh'
    by_cases hin : h.mediaItemId ∈ itemIds ∧ h.userId ∈ userIds ∧ h.active
    · rw [if_pos hin] at hactive
      exact h.not_active_revoke now hactive
    · rw [if_neg hin] at hactive hforbidden
      obtain ⟨hi, hu⟩ := hnew _ _ hforbidden (hclean.handoff h hh hactive)
      exact hin ⟨hi, hu, hactive⟩
  constructor
  · refine ⟨?_, ?_, ?_⟩
    · show ∀ s ∈ changed.nativeSessions.map _, _
      rw [hnative]
      exact hsessions _ hclean.native
    · show ∀ s ∈ changed.downloadSessions.map _, _
      rw [hdownload]
      exact hsessions _ hclean.download
    · show ∀ h ∈ changed.handoffs.map _, _
      rw [hhandoff]
      exact hhandoffs
  · refine ⟨?_, ?_, ?_⟩
    · show List.Forall₂ _ _ (changed.nativeSessions.map _)
      rw [hnative]
      exact honlySessions _ hclean.native
    · show List.Forall₂ _ _ (changed.downloadSessions.map _)
      rw [hdownload]
      exact honlySessions _ hclean.download
    · show List.Forall₂ _ _ (changed.handoffs.map _)
      rw [hhandoff, List.forall₂_map_right_iff, List.forall₂_same]
      intro h hh
      split
      · next hin =>
        obtain ⟨hi, hu, hactive⟩ := hin
        exact .inr ⟨hactive, honly _ hu _ hi, hclean.handoff h hh hactive, now, rfl⟩
      · exact .inl rfl

/-- A change that forbids nothing needs no revocation. -/
theorem clean_of_nothing_new (hclean : db.Clean parser)
    (hnative : changed.nativeSessions = db.nativeSessions)
    (hdownload : changed.downloadSessions = db.downloadSessions)
    (hhandoff : changed.handoffs = db.handoffs)
    (hnew : ∀ u i, changed.Forbidden parser u i → db.Forbidden parser u i) :
    changed.Clean parser ∧ RevokesOnly parser db changed := by
  have hnone : ∀ u ∈ ([] : List ℕ), ∀ i ∈ ([] : List ℕ), changed.Forbidden parser u i :=
    fun u hu => absurd hu List.not_mem_nil
  have h := revokeFor_clean hclean hnative hdownload hhandoff
    (fun u i hf hnot => absurd (hnew u i hf) hnot) hnone 0 ""
  rwa [revokeFor_no_users] at h

/-- The revocation of items that have one requirement now, after a change to no other item. -/
theorem revokeItems_clean (hclean : db.Clean parser)
    (hnative : changed.nativeSessions = db.nativeSessions)
    (hdownload : changed.downloadSessions = db.downloadSessions)
    (hhandoff : changed.handoffs = db.handoffs) {itemIds : List ℕ} {requirement : Option ℕ}
    (hitems : ∀ i ∈ itemIds, ∃ row ∈ changed.mediaItems, row.id = i ∧
      changed.ageRequirement (changed.effectiveGroup parser row).ageGroupKey = requirement)
    (hrest : ∀ u i, i ∉ itemIds → changed.Forbidden parser u i → db.Forbidden parser u i)
    (now : Time) (reason : String) :
    (changed.revokePersistentSessionsForItemIds itemIds requirement now reason).Clean parser ∧
      RevokesOnly parser db
        (changed.revokePersistentSessionsForItemIds itemIds requirement now reason) := by
  have hsame : ∀ i ∈ itemIds, ∀ row ∈ changed.mediaItems, row.id = i →
      changed.ageRequirement (changed.effectiveGroup parser row).ageGroupKey = requirement := by
    intro i hi row hrow hid
    obtain ⟨row', hrow', hid', hreq⟩ := hitems i hi
    rwa [List.inj_on_of_nodup_map changed.mediaItems_nodup hrow hrow' (hid.trans hid'.symm)]
  rcases requirement with _ | requirement
  · show changed.Clean parser ∧ RevokesOnly parser db changed
    refine clean_of_nothing_new hclean hnative hdownload hhandoff fun u i hf => ?_
    refine hrest u i (fun hi => ?_) hf
    obtain ⟨user, -, -, -, row, hrow, hid, r, hr, -⟩ := hf
    rw [hsame i hi row hrow hid] at hr
    cases hr
  · rw [revokePersistentSessionsForItemIds_some]
    refine revokeFor_clean hclean hnative hdownload hhandoff (fun u i hf hnot => ?_)
      (fun u hu i hi => ?_) now reason
    · have hi : i ∈ itemIds := by
        by_contra hi
        exact hnot (hrest u i hi hf)
      obtain ⟨user, huser, huid, hadmin, row, hrow, hid, r, hr, hlt⟩ := hf
      rw [hsame i hi row hrow hid] at hr
      exact ⟨hi, mem_usersBelow.mpr ⟨user, huser, huid, hadmin, Option.some.inj hr ▸ hlt⟩⟩
    · obtain ⟨user, huser, huid, hadmin, hlt⟩ := mem_usersBelow.mp hu
      obtain ⟨row, hrow, hid, hreq⟩ := hitems i hi
      exact ⟨user, huser, huid, hadmin, row, hrow, hid, requirement, hreq, hlt⟩

theorem requireMediaRow_ok {id : ℕ} {row : MediaItemRow} :
    db.requireMediaRow id = .ok row ↔ row ∈ db.mediaItems ∧ row.id = id := by
  rw [← mediaItem_eq_some, requireMediaRow]
  rcases db.mediaItem id with _ | row' <;> simp

/-- The requirement of an item that exists. -/
theorem resolveMediaAgeRequirement_eq {row : MediaItemRow} (hrow : row ∈ db.mediaItems) :
    db.resolveMediaAgeRequirement parser row.id =
      .ok (db.ageRequirement (db.effectiveGroup parser row).ageGroupKey) := by
  rw [resolveMediaAgeRequirement, db.mediaItem_eq_some.mpr ⟨hrow, rfl⟩]

/-- Only the target's group depends on its link. -/
theorem forbidden_of_link_ne {links : ℕ → Option LinkKey} {target u i : ℕ}
    (hlinks : ∀ j, j ≠ target → links j = db.manualLinks j) (hne : i ≠ target)
    (hf : (db.setLinks links).Forbidden parser u i) : db.Forbidden parser u i := by
  obtain ⟨user, huser, huid, hadmin, row, hrow, hid, r, hr, hlt⟩ := hf
  refine ⟨user, huser, huid, hadmin, row, hrow, hid, r, ?_, hlt⟩
  have hkey : ((db.setLinks links).effectiveGroup parser row).ageGroupKey =
      (db.effectiveGroup parser row).ageGroupKey := by
    rw [effectiveGroup_key, effectiveGroup_key, ← hlinks row.id (by rwa [hid])]
    rfl
  rwa [hkey] at hr

/-- A changed link, then the revocation of its item with the requirement it has now. -/
theorem changedLink_clean (hclean : db.Clean parser) {links : ℕ → Option LinkKey}
    {row : MediaItemRow} (hrow : row ∈ db.mediaItems)
    (hlinks : ∀ j, j ≠ row.id → links j = db.manualLinks j) (now : Time) (reason : String)
    {result : AgeDb}
    (hresult : (do
      let requirement ← (db.setLinks links).resolveMediaAgeRequirement parser row.id
      return (db.setLinks links).revokePersistentSessionsForItemIds [row.id] requirement now
        reason : Except PyError AgeDb) = .ok result) :
    result.Clean parser ∧ RevokesOnly parser db result := by
  have hmem : row ∈ (db.setLinks links).mediaItems := hrow
  rw [resolveMediaAgeRequirement_eq hmem] at hresult
  cases hresult
  have hnative : (db.setLinks links).nativeSessions = db.nativeSessions := rfl
  refine revokeItems_clean hclean hnative rfl rfl (fun i hi => ?_) (fun u i hi hf => ?_) now reason
  · exact ⟨row, hrow, (List.mem_singleton.mp hi).symm, rfl⟩
  · exact forbidden_of_link_ne hlinks (fun h => hi (List.mem_singleton.mpr h)) hf

theorem link_clean (hclean : db.Clean parser) {now : Time} {targetId : ℕ} {sourceId : Option ℕ}
    {ageGroupKey : Option String} {result : AgeDb}
    (h : db.linkMediaItemToAgeGroup parser now targetId sourceId ageGroupKey = .ok result) :
    result.Clean parser ∧ RevokesOnly parser db result := by
  rw [linkMediaItemToAgeGroup] at h
  split at h
  · cases h
  obtain ⟨row, hrow, h⟩ := Except.bind_eq_ok_iff.mp h
  obtain ⟨hmem, rfl⟩ := requireMediaRow_ok.mp hrow
  obtain ⟨key, -, h⟩ := Except.bind_eq_ok_iff.mp h
  split at h
  · cases h
  · next hkey =>
    exact changedLink_clean hclean hmem (fun j hj => Function.update_of_ne hj _ _) _ _ h

theorem unlink_clean (hclean : db.Clean parser) {now : Time} {targetId : ℕ} {result : AgeDb}
    (h : db.unlinkMediaItemFromAgeGroup parser now targetId = .ok result) :
    result.Clean parser ∧ RevokesOnly parser db result := by
  rw [unlinkMediaItemFromAgeGroup] at h
  obtain ⟨row, hrow, h⟩ := Except.bind_eq_ok_iff.mp h
  obtain ⟨hmem, rfl⟩ := requireMediaRow_ok.mp hrow
  split at h
  · cases h
    exact clean_of_nothing_new hclean rfl rfl rfl fun u i hf => hf
  · exact changedLink_clean hclean hmem (fun j hj => Function.update_of_ne hj _ _) _ _ h

/-- The key of the group does not depend on the requirements. -/
theorem setRequirement_effectiveGroup_key (key : String) (requirement : RequirementRow)
    (row : MediaItemRow) :
    ((db.setRequirement key requirement).effectiveGroup parser row).ageGroupKey =
      (db.effectiveGroup parser row).ageGroupKey := by
  rw [effectiveGroup_key, effectiveGroup_key]
  rfl

theorem setRequirement_clean (hclean : db.Clean parser) {now : Time} {itemId : ℕ}
    {ageRequirement : Option ℕ} {result : AgeDb}
    (h : db.setMediaAgeRequirementAndRevoke parser now itemId ageRequirement = .ok result) :
    result.Clean parser ∧ RevokesOnly parser db result := by
  rw [setMediaAgeRequirementAndRevoke] at h
  obtain ⟨⟨updated, key, requirement⟩, hset, h⟩ := Except.bind_eq_ok_iff.mp h
  rw [setMediaAgeRequirement] at hset
  obtain ⟨normalized, -, hset⟩ := Except.bind_eq_ok_iff.mp hset
  obtain ⟨row, hrow, hset⟩ := Except.bind_eq_ok_iff.mp hset
  obtain ⟨hmem, rfl⟩ := requireMediaRow_ok.mp hrow
  set group := db.effectiveGroup parser row with hgroup
  set written := db.setRequirement group.ageGroupKey ⟨group.displayTitle, group.year, normalized⟩
    with hwritten
  have hmem' : row ∈ written.mediaItems := hmem
  have hresolved : (do
      let requirement ← written.resolveMediaAgeRequirement parser row.id
      return (written, (written.effectiveGroup parser row).ageGroupKey, requirement) :
        Except PyError (AgeDb × String × Option ℕ)) = .ok (updated, key, requirement) := hset
  rw [resolveMediaAgeRequirement_eq hmem'] at hresolved
  obtain ⟨rfl, hrest⟩ := Prod.mk.inj (Except.ok.inj hresolved)
  obtain ⟨rfl, rfl⟩ := Prod.mk.inj hrest
  rw [← Except.ok.inj h]
  have hkeys : ∀ r, (written.effectiveGroup parser r).ageGroupKey =
      (db.effectiveGroup parser r).ageGroupKey :=
    setRequirement_effectiveGroup_key _ _
  have hnative : written.nativeSessions = db.nativeSessions := rfl
  refine revokeItems_clean hclean hnative rfl rfl (fun i hi => ?_) (fun u i hi hf => ?_) _ _
  · obtain ⟨r, hr, hid, hkey⟩ := (mem_mediaItemIdsForAgeGroup _ _).mp hi
    exact ⟨r, hr, hid, by rw [hkey]⟩
  · -- an item outside the group keeps its requirement
    obtain ⟨user, huser, huid, hadmin, r, hr, hid, requirement, hreq, hlt⟩ := hf
    refine ⟨user, huser, huid, hadmin, r, hr, hid, requirement, ?_, hlt⟩
    have hne : (db.effectiveGroup parser r).ageGroupKey ≠ group.ageGroupKey := by
      intro heq
      refine hi ((mem_mediaItemIdsForAgeGroup _ _).mpr ⟨r, hr, hid, ?_⟩)
      rw [hkeys, heq, hkeys]
    have hkept : written.requirements (db.effectiveGroup parser r).ageGroupKey =
        db.requirements (db.effectiveGroup parser r).ageGroupKey := Function.update_of_ne hne _ _
    rw [hkeys, AgeDb.ageRequirement, hkept] at hreq
    exact hreq

/-- The users after a change of one age credential. -/
theorem mem_setAgeCredential_users {userId age : ℕ} {user : AgeUserRow} :
    user ∈ (db.setAgeCredential userId age).users ↔
      (user ∈ db.users ∧ user.id ≠ userId) ∨
      (user.id = userId ∧ user.ageCredential = some age ∧
        ∃ old ∈ db.users, old.id = userId ∧ old.role = user.role) := by
  rw [setAgeCredential, List.mem_map]
  constructor
  · rintro ⟨old, hold, rfl⟩
    split
    · next hid => exact .inr ⟨hid, rfl, old, hold, hid, rfl⟩
    · next hid => exact .inl ⟨hold, hid⟩
  · rintro (⟨hmem, hid⟩ | ⟨hid, hage, old, hold, holdId, hrole⟩)
    · exact ⟨user, hmem, if_neg hid⟩
    · refine ⟨old, hold, ?_⟩
      rw [if_pos holdId]
      rcases user with ⟨uid, role, credential⟩
      cases hid
      cases hage
      cases holdId
      cases hrole
      rfl

theorem changeAge_clean (hclean : db.Clean parser) {now : Time} {userId age : ℕ} {result : AgeDb}
    (h : db.changeAgeCredentialAndRevoke parser now userId age = .ok result) :
    result.Clean parser ∧ RevokesOnly parser db result := by
  rw [changeAgeCredentialAndRevoke] at h
  obtain ⟨normalized, -, h⟩ := Except.bind_eq_ok_iff.mp h
  set changed := db.setAgeCredential userId normalized with hchanged
  have hnative : changed.nativeSessions = db.nativeSessions := rfl
  -- the other users are as they were
  have hother : ∀ u i, u ≠ userId → changed.Forbidden parser u i → db.Forbidden parser u i := by
    rintro u i hne ⟨user, huser, huid, hadmin, hrest⟩
    rcases mem_setAgeCredential_users.mp huser with ⟨hmem, -⟩ | ⟨hid, -⟩
    · exact ⟨user, hmem, huid, hadmin, hrest⟩
    · exact absurd (huid.symm.trans hid) hne
  rw [revokePersistentSessionsForUserAgeChange] at h
  split at h
  · next hnone =>
    rw [← Except.ok.inj h]
    refine clean_of_nothing_new hclean hnative rfl rfl fun u i hf => hother u i ?_ hf
    rintro rfl
    obtain ⟨user, huser, huid, -⟩ := hf
    exact absurd huid (by simpa using List.find?_eq_none.mp hnone user huser)
  · next user hfind =>
    have hmem : user ∈ changed.users := List.mem_of_find?_eq_some hfind
    have hid : user.id = userId := by simpa using List.find?_some hfind
    have hunique : ∀ other ∈ changed.users, other.id = userId → other = user := fun other ho hoid =>
      List.inj_on_of_nodup_map changed.users_nodup ho hmem (hoid.trans hid.symm)
    split at h
    · next hadmin =>
      rw [← Except.ok.inj h]
      refine clean_of_nothing_new hclean hnative rfl rfl fun u i hf => hother u i ?_ hf
      rintro rfl
      obtain ⟨other, ho, hoid, hnot, -⟩ := hf
      rw [hunique other ho hoid] at hnot
      exact hnot hadmin
    · next hadmin =>
      obtain ⟨checked, hchecked, h⟩ := Except.bind_eq_ok_iff.mp h
      have hage : user.ageCredential.getD 18 = checked := by
        rcases hstored : user.ageCredential with _ | stored
        · rw [hstored, validateStoredAge] at hchecked
          cases hchecked
        · rw [hstored, validateStoredAge, validateAgeCredential] at hchecked
          split at hchecked <;> cases hchecked
          rfl
      -- the items above the new age, by their effective group
      have hitems : ∀ i, i ∈ ((changed.loadAllMediaAgeGroups parser).filter fun x =>
          changed.isRestricted checked x.2.ageGroupKey).map Prod.fst ↔
          changed.Forbidden parser userId i := by
        intro i
        rw [mem_loadAllMediaAgeGroups_filter]
        constructor
        · rintro ⟨row, hrow, hrid, hrestricted⟩
          obtain ⟨requirement, hreq, hlt⟩ := (Option.any_eq_true _ _).mp hrestricted
          exact ⟨user, hmem, hid, hadmin, row, hrow, hrid, requirement, hreq,
            hage ▸ of_decide_eq_true hlt⟩
        · rintro ⟨other, ho, hoid, -, row, hrow, hrid, requirement, hreq, hlt⟩
          rw [hunique other ho hoid, hage] at hlt
          refine ⟨row, hrow, hrid, ?_⟩
          rw [isRestricted, hreq, Option.any_some]
          exact decide_eq_true hlt
      have hrevoke : result = changed.revokeFor now "user_age_credential_changed"
          (((changed.loadAllMediaAgeGroups parser).filter fun x =>
            changed.isRestricted checked x.2.ageGroupKey).map Prod.fst) [userId] := by
        dsimp only at h
        split at h
        · next hnil =>
          rw [← Except.ok.inj h, hnil, revokeFor_no_items]
        · exact (Except.ok.inj h).symm
      rw [hrevoke]
      refine revokeFor_clean hclean hnative rfl rfl (fun u i hf hnot => ?_)
        (fun u hu i hi => ?_) _ _
      · have hu : u = userId := by
          by_contra hne
          exact hnot (hother u i hne hf)
        exact ⟨(hitems i).mpr (hu ▸ hf), List.mem_singleton.mpr hu⟩
      · rw [List.mem_singleton.mp hu]
        exact (hitems i).mp hi

end AgeDb

theorem Operation.call_clean {parser : TitleParser} {db db' : AgeDb} (hclean : db.Clean parser)
    {op : Operation} (hcall : op.call parser db = .ok db') :
    db'.Clean parser ∧ AgeDb.RevokesOnly parser db db' := by
  cases op with
  | link => exact AgeDb.link_clean hclean hcall
  | unlink => exact AgeDb.unlink_clean hclean hcall
  | setRequirement => exact AgeDb.setRequirement_clean hclean hcall
  | changeAge => exact AgeDb.changeAge_clean hclean hcall

/-- Any sequence of the operations. -/
theorem Operation.run_clean (parser : TitleParser) (ops : List Operation) :
    ∀ db : AgeDb, db.Clean parser →
        (ops.foldl (fun db op => op.apply parser db) db).Clean parser := by
  induction ops with
  | nil => exact fun db hclean => hclean
  | cons op ops ih =>
    intro db hclean
    refine ih _ ?_
    show (op.apply parser db).Clean parser
    rw [Operation.apply]
    rcases hcall : op.call parser db with e | db'
    · exact hclean
    · exact (Operation.call_clean hclean hcall).1

/-- Age revocation is complete and exact: from a clean state each operation ends in a clean state,
and the sessions it revokes are of pairs that became forbidden. -/
theorem Operation.keeps_clean (parser : TitleParser) (db : AgeDb) (hclean : db.Clean parser)
    (op : Operation) :
    (op.apply parser db).Clean parser ∧ AgeDb.RevokesOnly parser db (op.apply parser db) := by
  rw [Operation.apply]
  rcases hcall : op.call parser db with e | db'
  · exact AgeDb.clean_of_nothing_new hclean rfl rfl rfl fun _ _ hf => hf
  · exact Operation.call_clean hclean hcall

/-- The sample library with a stream of the film for adults, while its viewer is eighteen. -/
def sampleSessions : AgeDb :=
  { sampleLibrary with
    users := [⟨1, some .admin, none⟩, ⟨2, none, none⟩]
    users_nodup := by decide
    nativeSessions := [⟨10, 2, 2, none, none, none⟩]
    handoffs := [⟨11, 2, 3, none⟩] }

theorem sampleSessions_clean : sampleSessions.Clean plainParser := by
  have hnone : ∀ u i, ¬sampleSessions.Forbidden plainParser u i := by
    rintro u i ⟨user, huser, -, -, row, -, -, requirement, hreq, hlt⟩
    have hage : user.ageCredential.getD 18 = 18 := by
      have hall : ∀ user ∈ sampleSessions.users, user.ageCredential.getD 18 = 18 := by decide
      exact hall user huser
    rw [AgeDb.ageRequirement, sampleSessions, sampleLibrary] at hreq
    dsimp only at hreq
    split at hreq
    · cases hreq
      omega
    · cases hreq
  exact ⟨fun s _ _ => hnone _ _, fun s _ _ => hnone _ _, fun h _ _ => hnone _ _⟩

theorem Operation.keeps_clean_sampleSessions : sampleSessions.Clean plainParser ∧
    ((Operation.changeAge 5 2 12).apply plainParser sampleSessions).Clean plainParser ∧
    AgeDb.RevokesOnly plainParser sampleSessions
      ((Operation.changeAge 5 2 12).apply plainParser sampleSessions) :=
  ⟨sampleSessions_clean,
    Operation.keeps_clean plainParser sampleSessions sampleSessions_clean (.changeAge 5 2 12)⟩

/-- The stream is revoked when its viewer turns twelve; the other film's handoff is not. -/
example : ((Operation.changeAge 5 2 12).apply plainParser sampleSessions).nativeSessions.map
    SessionRow.revokedAt = [some 5] ∧
    ((Operation.changeAge 5 2 12).apply plainParser sampleSessions).handoffs.map
      HandoffRow.revokedAt = [none] := by decide +kernel

end AgeAccess
