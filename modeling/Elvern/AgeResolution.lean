/-
The three resolutions of age groups agree.

* `batchGroupKey_eq`, `loadAllMediaAgeGroups_eq` — every path finds the group key of
  `_effective_group_for_row`;
* `mem_mediaItemIdsForAgeGroup` — the ids of a group are those of the items whose effective group
  it is;
* `assert_ok_iff` — who passes the check of one item;
* `age_access_agrees` — the batch lets through exactly the items whose own check passes.
-/
import Elvern.AgeGroups
import Mathlib.Data.List.Dedup

open PyText

namespace AgeAccess

namespace AgeDb

variable (db : AgeDb) (parser : TitleParser)

/-- The key of the effective group. -/
theorem effectiveGroup_key (row : MediaItemRow) : (db.effectiveGroup parser row).ageGroupKey =
    ((db.manualLinks row.id).map Subtype.val).getD
      (resolveAgeRestrictionMovieGroup parser row).ageGroupKey := by
  rw [effectiveGroup]
  rcases db.manualLinks row.id with _ | key <;> rfl

theorem batchGroupKey_eq (row : MediaItemRow) :
    db.batchGroupKey parser row = (db.effectiveGroup parser row).ageGroupKey := by
  rw [effectiveGroup_key, batchGroupKey]
  rcases db.manualLinks row.id with _ | key <;> rfl

/-- The keys of the whole library. -/
theorem loadAllMediaAgeGroups_eq :
    (db.loadAllMediaAgeGroups parser).map (fun x => (x.1, x.2.ageGroupKey)) =
      db.mediaItems.map fun row => (row.id, (db.effectiveGroup parser row).ageGroupKey) := by
  rw [loadAllMediaAgeGroups, List.map_map]
  refine List.map_congr_left fun row _ => ?_
  rw [effectiveGroup_key, Function.comp]
  rcases hlink : db.manualLinks row.id with _ | key
  · rfl
  · simp [key.property]

/-- A selection of the whole library by group key. -/
theorem mem_loadAllMediaAgeGroups_filter (p : String → Bool) {id : ℕ} :
    id ∈ ((db.loadAllMediaAgeGroups parser).filter fun x => p x.2.ageGroupKey).map Prod.fst ↔
      ∃ row ∈ db.mediaItems, row.id = id ∧ p (db.effectiveGroup parser row).ageGroupKey = true := by
  have hpairs : (∃ x ∈ db.loadAllMediaAgeGroups parser, p x.2.ageGroupKey = true ∧ x.1 = id) ↔
      ∃ y ∈ (db.loadAllMediaAgeGroups parser).map (fun x => (x.1, x.2.ageGroupKey)),
        p y.2 = true ∧ y.1 = id := by
    simp only [List.mem_map, exists_exists_and_eq_and]
  have hmem : id ∈ ((db.loadAllMediaAgeGroups parser).filter fun x =>
      p x.2.ageGroupKey).map Prod.fst ↔
      ∃ x ∈ db.loadAllMediaAgeGroups parser, p x.2.ageGroupKey = true ∧ x.1 = id := by
    rw [List.mem_map]
    refine exists_congr fun x => ?_
    rw [List.mem_filter, and_assoc]
  rw [hmem, hpairs, loadAllMediaAgeGroups_eq]
  simp only [List.mem_map, exists_exists_and_eq_and]
  refine exists_congr fun row => and_congr_right fun _ => ?_
  rw [and_comm]

theorem mem_mediaItemIdsForAgeGroup {key : String} {id : ℕ} :
    id ∈ db.mediaItemIdsForAgeGroup parser key ↔
      ∃ row ∈ db.mediaItems, row.id = id ∧ (db.effectiveGroup parser row).ageGroupKey = key := by
  rw [mediaItemIdsForAgeGroup, List.mem_mergeSort,
    mem_loadAllMediaAgeGroups_filter db parser fun k => decide (k = key)]
  simp only [decide_eq_true_eq]

/-- An item is found under its id. -/
theorem mediaItem_eq_some {id : ℕ} {row : MediaItemRow} :
    db.mediaItem id = some row ↔ row ∈ db.mediaItems ∧ row.id = id := by
  rw [mediaItem]
  refine ⟨fun h => ⟨List.mem_of_find?_eq_some h, by simpa using List.find?_some h⟩, ?_⟩
  rintro ⟨hmem, rfl⟩
  have hsome : (db.mediaItems.find? fun r => decide (r.id = row.id)).isSome = true :=
    List.find?_isSome.mpr ⟨row, hmem, decide_eq_true rfl⟩
  obtain ⟨r, hfind⟩ := Option.isSome_iff_exists.mp hsome
  have hid : r.id = row.id := by simpa using List.find?_some hfind
  have heq : r = row :=
    List.inj_on_of_nodup_map db.mediaItems_nodup (List.mem_of_find?_eq_some hfind) hmem hid
  rw [hfind, heq]

/-- Who passes the check of one item. -/
theorem assert_ok_iff {user : AuthenticatedUser} (hrole : user.role ≠ .admin)
    (hage : 1 ≤ user.ageCredential ∧ user.ageCredential ≤ 18) {id : ℕ} :
    db.assertUserCanAccessMediaByAge parser user id = .ok () ↔
      ∃ row ∈ db.mediaItems, row.id = id ∧
        ∀ requirement, db.ageRequirement (db.effectiveGroup parser row).ageGroupKey =
          some requirement → requirement ≤ user.ageCredential := by
  have hvalid : validateAgeCredential user.ageCredential = .ok user.ageCredential := by
    rw [validateAgeCredential, if_neg (by omega)]
  rw [assertUserCanAccessMediaByAge, if_neg hrole, resolveMediaAgeRequirement]
  rcases hrow : db.mediaItem id with _ | row
  · refine iff_of_false (by simp [bind, Except.bind]) ?_
    rintro ⟨row, hmem, hid, -⟩
    rw [(db.mediaItem_eq_some).mpr ⟨hmem, hid⟩] at hrow
    cases hrow
  · obtain ⟨hmem, hid⟩ := db.mediaItem_eq_some.mp hrow
    have hone : (∃ r ∈ db.mediaItems, r.id = id ∧ ∀ requirement,
        db.ageRequirement (db.effectiveGroup parser r).ageGroupKey = some requirement →
          requirement ≤ user.ageCredential) ↔ ∀ requirement,
        db.ageRequirement (db.effectiveGroup parser row).ageGroupKey = some requirement →
          requirement ≤ user.ageCredential := by
      refine ⟨fun ⟨r, hr, hrid, h⟩ => ?_, fun h => ⟨row, hmem, hid, h⟩⟩
      rwa [← List.inj_on_of_nodup_map db.mediaItems_nodup hr hmem (hrid.trans hid.symm)]
    rw [hone]
    rcases hreq : db.ageRequirement (db.effectiveGroup parser row).ageGroupKey with _ | requirement
    · simp [bind, Except.bind, pure, Except.pure, hreq]
    · by_cases hlt : user.ageCredential < requirement
      · simp [bind, Except.bind, hreq, hvalid, hlt, throw, throwThe, MonadExceptOf.throw]
      · simp [bind, Except.bind, pure, Except.pure, hreq, hvalid, hlt, not_lt.mp hlt]

/-- Whom the batch lets through. -/
theorem mem_loadAccessible {user : AuthenticatedUser} (hrole : user.role ≠ .admin)
    (hage : 1 ≤ user.ageCredential ∧ user.ageCredential ≤ 18) (ids : List ℤ) :
    ∃ accessible, db.loadAccessibleMediaItemIdsByAge parser user ids = .ok accessible ∧
      ∀ x, x ∈ accessible ↔ x ∈ ids ∧ ∃ row ∈ db.mediaItems, (row.id : ℤ) = x ∧
        ∀ requirement, db.ageRequirement (db.effectiveGroup parser row).ageGroupKey =
          some requirement → requirement ≤ user.ageCredential := by
  have hvalid : validateAgeCredential user.ageCredential = .ok user.ageCredential := by
    rw [validateAgeCredential, if_neg (by omega)]
  have hnorm : ∀ x : ℤ, x ∈ ((ids.filter fun id => decide (0 < id)).dedup).mergeSort
      (fun a b => decide (a ≤ b)) ↔ x ∈ ids ∧ 0 < x := by
    intro x
    rw [List.mem_mergeSort, List.mem_dedup, List.mem_filter, decide_eq_true_eq]
  rw [loadAccessibleMediaItemIdsByAge]
  dsimp only
  split
  · next hnil =>
    refine ⟨[], rfl, fun x => iff_of_false List.not_mem_nil ?_⟩
    rintro ⟨hx, row, -, rfl, -⟩
    have hmem := (hnorm row.id).mpr ⟨hx, by have := row.id_pos; omega⟩
    rw [hnil] at hmem
    cases hmem
  rw [hvalid]
  refine ⟨_, rfl, fun x => ?_⟩
  simp only [List.mem_map, List.mem_filter, List.contains_iff_mem, hnorm, batchGroupKey_eq,
    Option.all_eq_true, decide_eq_true_eq]
  constructor
  · rintro ⟨row, ⟨⟨hmem, hx, -⟩, hreq⟩, rfl⟩
    exact ⟨hx, row, hmem, rfl, hreq⟩
  · rintro ⟨hx, row, hmem, rfl, hreq⟩
    exact ⟨row, ⟨⟨hmem, hx, by have := row.id_pos; omega⟩, hreq⟩, rfl⟩

/-- The batch, the check of one item and the whole library agree: the batch returns the requested
items whose own check passes, the group keys of the three are the same, and the ids of a group are
those of the items with that effective group. -/
theorem age_access_agrees (user : AuthenticatedUser)
    (hage : 1 ≤ user.ageCredential ∧ user.ageCredential ≤ 18) (ids : List ℤ) :
    (∃ accessible, db.loadAccessibleMediaItemIdsByAge parser user ids = .ok accessible ∧
      (user.role = .admin → ∀ x, x ∈ accessible ↔ x ∈ ids ∧ 0 < x) ∧
      (user.role ≠ .admin → ∀ x, x ∈ accessible ↔ x ∈ ids ∧ ∃ row ∈ db.mediaItems,
        (row.id : ℤ) = x ∧ db.assertUserCanAccessMediaByAge parser user row.id = .ok ())) ∧
    (∀ row ∈ db.mediaItems,
      db.batchGroupKey parser row = (db.effectiveGroup parser row).ageGroupKey ∧
      (∃ group, (row.id, group) ∈ db.loadAllMediaAgeGroups parser) ∧
      ∀ group, (row.id, group) ∈ db.loadAllMediaAgeGroups parser →
        group.ageGroupKey = (db.effectiveGroup parser row).ageGroupKey) ∧
    ∀ key id, id ∈ db.mediaItemIdsForAgeGroup parser key ↔
      ∃ row ∈ db.mediaItems, row.id = id ∧ (db.effectiveGroup parser row).ageGroupKey = key := by
  refine ⟨?_, fun row hrow => ⟨db.batchGroupKey_eq parser row, ?_, fun group hgroup => ?_⟩,
    fun key id => db.mem_mediaItemIdsForAgeGroup parser⟩
  · by_cases hrole : user.role = .admin
    · refine ⟨((ids.filter fun id => decide (0 < id)).dedup).mergeSort (fun a b => decide (a ≤ b)),
        ?_, fun _ x => ?_, fun h => absurd hrole h⟩
      · rw [loadAccessibleMediaItemIdsByAge, if_pos hrole]
        split
        · next hnil => rw [hnil]
        · rfl
      · rw [List.mem_mergeSort, List.mem_dedup, List.mem_filter, decide_eq_true_eq]
    · obtain ⟨accessible, hload, hmem⟩ := db.mem_loadAccessible parser hrole hage ids
      refine ⟨accessible, hload, fun h => absurd h hrole, fun _ x => ?_⟩
      rw [hmem]
      refine and_congr_right fun _ => exists_congr fun row => and_congr_right fun hrow =>
        and_congr_right fun _ => ?_
      rw [db.assert_ok_iff parser hrole hage]
      refine ⟨fun h => ⟨row, hrow, rfl, h⟩, fun ⟨r, hr, hid, h⟩ => ?_⟩
      rwa [← List.inj_on_of_nodup_map db.mediaItems_nodup hr hrow hid]
  · have hpair : (row.id, (db.effectiveGroup parser row).ageGroupKey) ∈
        (db.loadAllMediaAgeGroups parser).map fun x => (x.1, x.2.ageGroupKey) := by
      rw [loadAllMediaAgeGroups_eq]
      exact List.mem_map_of_mem hrow
    obtain ⟨x, hx, heq⟩ := List.mem_map.mp hpair
    exact ⟨x.2, by rwa [← (Prod.mk.inj heq).1]⟩
  · have hpair : (row.id, group.ageGroupKey) ∈
        (db.loadAllMediaAgeGroups parser).map fun x => (x.1, x.2.ageGroupKey) :=
      List.mem_map_of_mem hgroup
    rw [loadAllMediaAgeGroups_eq] at hpair
    obtain ⟨r, hr, heq⟩ := List.mem_map.mp hpair
    obtain ⟨hrid, hrkey⟩ := Prod.mk.inj heq
    rw [← hrkey, List.inj_on_of_nodup_map db.mediaItems_nodup hr hrow hrid]

end AgeDb

/-- A parser that takes a title as it is. -/
def plainParser : TitleParser where
  unicode := { isSpace := fun c => c = ' ', isDigit := Char.isDigit, lower := fun c => [c.toLower] }
  resolveTitleMetadata := fun title year _ =>
    { suspiciousOutput := false
      parsedYear := year
      posterMatchIdentityTitle := title.getD ""
      posterMatchTitle := ""
      baseTitle := "" }
  normalizeIdentityTitle := fun title _ _ => title

/-- One item that its title puts into a group for adults, one linked to that group, and one free. -/
def sampleLibrary : AgeDb where
  mediaItems :=
    [⟨1, some "dune", none, some 2021, by decide⟩, ⟨2, some "dune", none, none, by decide⟩,
      ⟨3, some "up", none, some 2009, by decide⟩]
  manualLinks := fun id => if id = 2 then some ⟨"age:title:dune|2021", by decide⟩ else none
  requirements := fun key =>
    if key = "age:title:dune|2021" then some ⟨"dune", some 2021, some 13⟩ else none
  users := [⟨1, some .admin, none⟩, ⟨2, none, some 12⟩]
  nativeSessions := []
  downloadSessions := []
  handoffs := []
  mediaItems_nodup := by decide
  users_nodup := by decide

theorem age_access_agrees_sampleLibrary : ∃ accessible,
    sampleLibrary.loadAccessibleMediaItemIdsByAge plainParser
      ⟨2, "kid", .standardUser, true, false, 12, none⟩ [3, 3, 2, 1, -1, 9] = .ok accessible ∧
    ∀ x, x ∈ accessible ↔ x ∈ ([3, 3, 2, 1, -1, 9] : List ℤ) ∧ ∃ row ∈ sampleLibrary.mediaItems,
      (row.id : ℤ) = x ∧ sampleLibrary.assertUserCanAccessMediaByAge plainParser
        ⟨2, "kid", .standardUser, true, false, 12, none⟩ row.id = .ok () := by
  obtain ⟨⟨accessible, hload, -, hmem⟩, -⟩ := AgeDb.age_access_agrees sampleLibrary plainParser
    ⟨2, "kid", .standardUser, true, false, 12, none⟩ (by decide) [3, 3, 2, 1, -1, 9]
  exact ⟨accessible, hload, hmem (by decide)⟩

end AgeAccess
