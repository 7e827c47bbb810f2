/-
The rows about copies of a cloud file (`cloud_source_sync_service.py`).

Where a file has several rows in `media_items`, what users have recorded about the copies is moved
to the first of them. Progress and hidden marks are merged, one row for each user; other rows only
get the new item. Seconds are exact.

* `mergeOwner`, `mergeCopies` — the rows of one user, and of all, into rows of the canonical item;
* `mem_mergeCopies` — what is in the table then, and that no unique constraint is violated;
* `collapseDuplicateCloudMediaRows` — all tables;
* `Merged` — one row for each user, with what `save_progress` establishes, and the earliest marks;
* `collapse_merges` — when the copies of an item are merged so;
* `watched_copies_lose_seconds` — two copies that were watched.
-/
import Mathlib.Algebra.BigOperators.Group.List.Basic
import Mathlib.Algebra.Order.Ring.Rat
import Mathlib.Data.List.Nodup
import Mathlib.Data.List.Sort
import Mathlib.Tactic.Common

namespace CloudCopies

/-! ### One row for each owner -/

section Merging

variable {ρ κ : Type} [DecidableEq κ] (id : ρ → ℕ) (owner : ρ → κ) (item : ρ → ℕ)

/-- The keys of `rows_by_user`. -/
def owners : List κ → List κ
  | [] => []
  | u :: rest => u :: (owners rest).filter (· ≠ u)

/-- The rows about the copies, `ORDER BY id`. -/
def aboutCopies (copies : List ℕ) (table : List ρ) : List ρ :=
  (table.filter fun r => decide (item r ∈ copies)).mergeSort fun a b => decide (id a ≤ id b)

/-- The row that is kept. -/
def canonicalRow (canonicalId : ℕ) (first : ρ) (rest : List ρ) : ρ :=
  ((first :: rest).find? fun r => decide (item r = canonicalId)).getD first

/-- The rows of one owner become one: `merge` gives its new values. `none` where the update violates
the unique constraint of owner and item. -/
def mergeOwner (canonicalId : ℕ) (merge : ρ → ρ → List ρ → ρ) (table : List ρ) :
    List ρ → Option (List ρ)
  | [] => some table
  | first :: rest =>
    let canonical := canonicalRow item canonicalId first rest
    let new := merge canonical first rest
    if table.any fun r => decide (id r ≠ id canonical ∧ owner r = owner new ∧
      item r = item new) then none
    else
      some ((table.map fun r => if id r = id canonical then new else r).filter fun r =>
        decide (id r = id canonical) || !(first :: rest).any fun q => decide (id q = id r))

/-- The loop over the owners of rows. -/
def mergeCopies (canonicalId : ℕ) (duplicateIds : List ℕ) (merge : ρ → ρ → List ρ → ρ)
    (table : List ρ) : Option (List ρ) :=
  let rows := aboutCopies id item (canonicalId :: duplicateIds) table
  (owners (rows.map owner)).foldlM (fun table u =>
    mergeOwner id owner item canonicalId merge table (rows.filter fun r =>
      decide (owner r = u))) table

variable {id owner item}

theorem mem_owners {l : List κ} {u : κ} : u ∈ owners l ↔ u ∈ l := by
  induction l with
  | nil => exact Iff.rfl
  | cons v rest ih =>
    rw [owners, List.mem_cons, List.mem_cons, List.mem_filter, ih, decide_eq_true_eq]
    by_cases huv : u = v
    · exact ⟨fun _ => .inl huv, fun _ => .inl huv⟩
    · exact or_congr_right (and_iff_left huv)

theorem owners_nodup (l : List κ) : (owners l).Nodup := by
  induction l with
  | nil => exact List.nodup_nil
  | cons v rest ih =>
    rw [owners, List.nodup_cons]
    refine ⟨fun hv => ?_, ih.filter _⟩
    have := (List.mem_filter.1 hv).2
    rw [decide_eq_true_eq] at this
    exact this rfl

/-- A table with its constraints: ids are unique, and so are owner and item together. -/
structure Keyed (id : ρ → ℕ) (owner : ρ → κ) (item : ρ → ℕ) (table : List ρ) : Prop where
  ids : ∀ a ∈ table, ∀ b ∈ table, id a = id b → a = b
  pairs : ∀ a ∈ table, ∀ b ∈ table, owner a = owner b → item a = item b → a = b

/-- The values of a merge keep the id and the owner, and are about the canonical item. -/
structure Merges (id : ρ → ℕ) (owner : ρ → κ) (item : ρ → ℕ) (canonicalId : ℕ)
    (merge : ρ → ρ → List ρ → ρ) : Prop where
  id : ∀ canonical first rest, id (merge canonical first rest) = id canonical
  owner : ∀ canonical first rest, owner (merge canonical first rest) = owner canonical
  item : ∀ canonical first rest, item (merge canonical first rest) = canonicalId

variable {canonicalId : ℕ} {duplicateIds copies : List ℕ} {merge : ρ → ρ → List ρ → ρ}
  {table : List ρ} {first : ρ} {rest : List ρ} {u : κ}

/-- The row that is kept is one of them, and the one of the canonical item if there is one. -/
theorem canonicalRow_spec :
    canonicalRow item canonicalId first rest ∈ first :: rest ∧
      ((∃ r ∈ first :: rest, item r = canonicalId) →
        item (canonicalRow item canonicalId first rest) = canonicalId) := by
  rw [canonicalRow]
  -- without a row of the canonical item the first row is kept
  cases hfind : (first :: rest).find? fun r => decide (item r = canonicalId) with
  | none =>
    refine ⟨List.mem_cons_self .., ?_⟩
    rintro ⟨r, hr, hitem⟩
    exact absurd (decide_eq_true hitem) (List.find?_eq_none.1 hfind r hr)
  | some r =>
    refine ⟨List.mem_of_find?_eq_some hfind, fun _ => ?_⟩
    have hitem := List.find?_some hfind
    exact of_decide_eq_true hitem

/-- **The rows of one owner**, which are its rows about the copies in the table: they become one
row, and no constraint is violated. -/
theorem mem_mergeOwner (hkeyed : Keyed id owner item table)
    (hmerge : Merges id owner item canonicalId merge) (hcanonical : canonicalId ∈ copies)
    (hrows : ∀ r, r ∈ first :: rest ↔ r ∈ table ∧ owner r = u ∧ item r ∈ copies) :
    ∃ table', mergeOwner id owner item canonicalId merge table (first :: rest) = some table' ∧
      Keyed id owner item table' ∧
      ∀ r, r ∈ table' ↔ (r ∈ table ∧ ¬ (owner r = u ∧ item r ∈ copies)) ∨
        r = merge (canonicalRow item canonicalId first rest) first rest := by
  obtain ⟨hmem, hitem⟩ := @canonicalRow_spec ρ item canonicalId first rest
  set canonical := canonicalRow item canonicalId first rest with hdef
  obtain ⟨hctable, hcowner, hccopies⟩ := (hrows canonical).1 hmem
  have hnew := hmerge.id canonical first rest
  have hnewOwner := (hmerge.owner canonical first rest).trans hcowner
  have hnewItem := hmerge.item canonical first rest
  have hmemiff : ∀ r,
    r ∈ ((table.map fun r => if id r = id canonical then merge canonical first rest
      else r).filter fun r => decide (id r = id canonical) ||
        !(first :: rest).any fun q => decide (id q = id r)) ↔
      (r ∈ table ∧ ¬ (owner r = u ∧ item r ∈ copies)) ∨ r = merge canonical first rest := by
    intro r
    rw [List.mem_filter, List.mem_map]
    constructor
    · rintro ⟨⟨q, hq, rfl⟩, hkeep⟩
      by_cases hid : id q = id canonical
      · rw [if_pos hid]
        exact .inr rfl
      · rw [if_neg hid] at hkeep ⊢
        refine .inl ⟨hq, fun hqu => ?_⟩
        rw [Bool.or_eq_true, decide_eq_true_eq, Bool.not_eq_true', List.any_eq_false] at hkeep
        exact hkeep.resolve_left hid q ((hrows q).2 ⟨hq, hqu.1, hqu.2⟩) (decide_eq_true rfl)
    · rintro (⟨hr, hno⟩ | rfl)
      · have hid : id r ≠ id canonical := by
          intro heq
          rw [hkeyed.ids r hr canonical hctable heq] at hno
          exact hno ⟨hcowner, hccopies⟩
        refine ⟨⟨r, hr, if_neg hid⟩, ?_⟩
        rw [Bool.or_eq_true, Bool.not_eq_true', List.any_eq_false]
        refine .inr fun q hq heq => hno ?_
        obtain ⟨hq, hqu⟩ := (hrows q).1 hq
        rw [← hkeyed.ids q hq r hr (of_decide_eq_true heq)]
        exact hqu
      · refine ⟨⟨canonical, hctable, if_pos rfl⟩, ?_⟩
        rw [Bool.or_eq_true]
        exact .inl (decide_eq_true hnew)
  -- the new row has the id of the kept one, and its owner and item are those of no other row
  refine ⟨_, ?_, ⟨?_, ?_⟩, hmemiff⟩
  · rw [mergeOwner]
    refine if_neg fun hany => ?_
    obtain ⟨r, hr, hconflict⟩ := List.any_eq_true.1 hany
    obtain ⟨hid, howner, hritem⟩ := of_decide_eq_true hconflict
    -- the row that is in the way is the one that is updated
    rw [hnewOwner] at howner
    rw [hnewItem] at hritem
    have hrmem : r ∈ first :: rest := (hrows r).2 ⟨hr, howner, hritem ▸ hcanonical⟩
    have heq := hkeyed.pairs r hr canonical hctable (howner.trans hcowner.symm)
      (hritem.trans (hitem ⟨r, hrmem, hritem⟩).symm)
    exact hid (congrArg id heq)
  · intro a ha b hb hab
    rcases (hmemiff a).1 ha with ⟨ha, hau⟩ | rfl <;> rcases (hmemiff b).1 hb with ⟨hb, hbu⟩ | rfl
    · exact hkeyed.ids a ha b hb hab
    · rw [hkeyed.ids a ha canonical hctable (hab.trans hnew)] at hau
      exact absurd ⟨hcowner, hccopies⟩ hau
    · rw [hkeyed.ids b hb canonical hctable (hab.symm.trans hnew)] at hbu
      exact absurd ⟨hcowner, hccopies⟩ hbu
    · rfl
  · intro a ha b hb hab hitems
    rcases (hmemiff a).1 ha with ⟨ha, hau⟩ | rfl <;> rcases (hmemiff b).1 hb with ⟨hb, hbu⟩ | rfl
    · exact hkeyed.pairs a ha b hb hab hitems
    · exact absurd ⟨hab.trans hnewOwner, by rw [hitems, hnewItem]; exact hcanonical⟩ hau
    · exact absurd ⟨hab.symm.trans hnewOwner, by rw [← hitems, hnewItem]; exact hcanonical⟩ hbu
    · rfl

/-- The row that the rows of an owner become. -/
def mergedRow (id : ρ → ℕ) (owner : ρ → κ) (item : ρ → ℕ) (canonicalId : ℕ) (copies : List ℕ)
    (merge : ρ → ρ → List ρ → ρ) (table : List ρ) (u : κ) : Option ρ :=
  match (aboutCopies id item copies table).filter fun r => decide (owner r = u) with
  | [] => none
  | first :: rest => some (merge (canonicalRow item canonicalId first rest) first rest)

theorem mem_group {r : ρ} : r ∈ ((aboutCopies id item copies table).filter fun r =>
    decide (owner r = u)) ↔ r ∈ table ∧ owner r = u ∧ item r ∈ copies := by
  rw [List.mem_filter, aboutCopies, List.mem_mergeSort, List.mem_filter, decide_eq_true_eq,
    decide_eq_true_eq, and_assoc, and_comm (a := item r ∈ copies)]

/-- Where an owner has a merged row, it has rows, and the merged row is made from them. -/
theorem mergedRow_some {r : ρ}
    (h : mergedRow id owner item canonicalId copies merge table u = some r) :
    ∃ first, first ∈ ((aboutCopies id item copies table).filter fun r => decide (owner r = u)) ∧
      ∃ rest, ((aboutCopies id item copies table).filter fun r =>
        decide (owner r = u)) = first :: rest ∧
        r = merge (canonicalRow item canonicalId first rest) first rest := by
  rw [mergedRow] at h
  split at h
  · cases h
  next first rest hgroup =>
    rw [hgroup]
    exact ⟨first, List.mem_cons_self .., rest, rfl, (Option.some.inj h).symm⟩

theorem mergedRow_owner {r : ρ} (hmerge : Merges id owner item canonicalId merge)
    (h : mergedRow id owner item canonicalId copies merge table u = some r) : owner r = u := by
  obtain ⟨first, hfirst, rest, hgroup, rfl⟩ := mergedRow_some h
  have hcanonical := (@canonicalRow_spec ρ item canonicalId first rest).1
  rw [← hgroup, mem_group] at hcanonical
  exact (hmerge.owner _ _ _).trans hcanonical.2.1

/-- The loop, from where some owners are `done`. -/
theorem mem_mergeLoop (hmerge : Merges id owner item canonicalId merge)
    (hcanonical : canonicalId ∈ copies) : ∀ {us done : List κ} {current : List ρ},
    us.Nodup → (∀ u ∈ us, u ∉ done ∧ ∃ r ∈ table, owner r = u ∧ item r ∈ copies) →
    Keyed id owner item current →
    (∀ r, r ∈ current ↔ (r ∈ table ∧ ¬ (owner r ∈ done ∧ item r ∈ copies)) ∨
      ∃ u ∈ done, mergedRow id owner item canonicalId copies merge table u = some r) →
    ∃ table', us.foldlM (fun current u => mergeOwner id owner item canonicalId merge current
        ((aboutCopies id item copies table).filter fun r => decide (owner r = u)))
          current = some table' ∧
      Keyed id owner item table' ∧
      ∀ r, r ∈ table' ↔ (r ∈ table ∧ ¬ (owner r ∈ done ++ us ∧ item r ∈ copies)) ∨
        ∃ u ∈ done ++ us, mergedRow id owner item canonicalId copies merge table u = some r := by
  intro us
  -- on the owners that are left; the table is that of the owners that are done
  induction us with
  | nil =>
    intro done current _ _ hkeyed hcurrent
    rw [List.append_nil]
    exact ⟨current, rfl, hkeyed, hcurrent⟩
  | cons u us ih =>
    intro done current hnodup hus hkeyed hcurrent
    obtain ⟨hu, hnodup⟩ := List.nodup_cons.1 hnodup
    obtain ⟨hdone, r₀, hr₀, howner₀, hitem₀⟩ := hus u (List.mem_cons_self ..)
    obtain ⟨first, rest, hgroup⟩ : ∃ first rest, (aboutCopies id item copies table).filter
        (fun r => decide (owner r = u)) = first :: rest := by
      refine List.exists_cons_of_ne_nil fun hnil => ?_
      have hmem : r₀ ∈ (aboutCopies id item copies table).filter fun r => decide (owner r = u) :=
        mem_group.2 ⟨hr₀, howner₀, hitem₀⟩
      rw [hnil] at hmem
      cases hmem
    have hnew : mergedRow id owner item canonicalId copies merge table u =
        some (merge (canonicalRow item canonicalId first rest) first rest) := by
      rw [mergedRow, hgroup]
    -- the rows of the owner are still those of the table
    have hrows : ∀ r, r ∈ first :: rest ↔ r ∈ current ∧ owner r = u ∧ item r ∈ copies := by
      intro r
      rw [← hgroup, mem_group, hcurrent]
      constructor
      · rintro ⟨hr, rfl, hitem⟩
        exact ⟨.inl ⟨hr, fun hno => hdone hno.1⟩, rfl, hitem⟩
      · rintro ⟨⟨hr, -⟩ | ⟨v, hv, hrow⟩, howner, hitem⟩
        · exact ⟨hr, howner, hitem⟩
        · rw [mergedRow_owner hmerge hrow] at howner
          exact absurd (howner ▸ hv) hdone
    obtain ⟨next, hnext, hnextKeyed, hmem⟩ := mem_mergeOwner hkeyed hmerge hcanonical hrows
    obtain ⟨table', hloop, hkeyed', hmem'⟩ := @ih (done ++ [u]) next hnodup (fun v hv => by
      refine ⟨fun hin => ?_, (hus v (List.mem_cons_of_mem _ hv)).2⟩
      rcases List.mem_append.1 hin with hin | hin
      · exact (hus v (List.mem_cons_of_mem _ hv)).1 hin
      · exact hu (List.mem_singleton.1 hin ▸ hv)) hnextKeyed (fun r => by
      rw [hmem r, hcurrent r]
      simp only [List.mem_append, List.mem_singleton]
      constructor
      · rintro (⟨⟨hr, hno⟩ | ⟨v, hv, hrow⟩, hnot⟩ | rfl)
        · exact .inl ⟨hr, fun hor => hor.1.elim (fun hin => hno ⟨hin, hor.2⟩) fun heq =>
            hnot ⟨heq, hor.2⟩⟩
        · exact .inr ⟨v, .inl hv, hrow⟩
        · exact .inr ⟨u, .inr rfl, hnew⟩
      · rintro (⟨hr, hno⟩ | ⟨v, hv | rfl, hrow⟩)
        · exact .inl ⟨.inl ⟨hr, fun hor => hno ⟨.inl hor.1, hor.2⟩⟩, fun hor =>
            hno ⟨.inr hor.1, hor.2⟩⟩
        · refine .inl ⟨.inr ⟨v, hv, hrow⟩, fun hor => ?_⟩
          rw [mergedRow_owner hmerge hrow] at hor
          exact hdone (hor.1 ▸ hv)
        · rw [hnew] at hrow
          exact .inr (Option.some.inj hrow).symm)
    refine ⟨table', ?_, hkeyed', ?_⟩
    · rw [List.foldlM_cons, hgroup, hnext]
      exact hloop
    · rw [List.append_assoc] at hmem'
      exact hmem'

/-- **All owners**: the rows about the copies become one row for each owner, and nothing is
violated. -/
theorem mem_mergeCopies (hmerge : Merges id owner item canonicalId merge)
    (hkeyed : Keyed id owner item table) :
    ∃ table', mergeCopies id owner item canonicalId duplicateIds merge table = some table' ∧
      Keyed id owner item table' ∧
      ∀ r, r ∈ table' ↔ (r ∈ table ∧ item r ∉ canonicalId :: duplicateIds) ∨
        ∃ u, mergedRow id owner item canonicalId (canonicalId :: duplicateIds)
            merge table u = some r := by
  have howners : ∀ u,
    u ∈ owners ((aboutCopies id item (canonicalId :: duplicateIds) table).map owner) ↔
      ∃ r ∈ table, owner r = u ∧ item r ∈ canonicalId :: duplicateIds := by
    intro u
    rw [mem_owners, List.mem_map]
    simp only [aboutCopies, List.mem_mergeSort, List.mem_filter, decide_eq_true_eq, and_assoc]
    exact exists_congr fun r => and_congr_right fun _ => and_comm
  obtain ⟨table', hloop, hkeyed', hmem⟩ := @mem_mergeLoop ρ κ _ id owner item canonicalId
    (canonicalId :: duplicateIds) merge table hmerge (List.mem_cons_self ..)
    (owners ((aboutCopies id item (canonicalId :: duplicateIds) table).map owner)) [] table
    (owners_nodup _) (fun u hu => ⟨List.not_mem_nil, (howners u).1 hu⟩) hkeyed (fun r => by simp)
  refine ⟨table', hloop, hkeyed', fun r => ?_⟩
  rw [hmem r, List.nil_append]
  refine or_congr (and_congr_right fun hr => ⟨fun hno hitem => ?_, fun hno hor => hno hor.2⟩)
    ⟨fun ⟨u, _, hrow⟩ => ⟨u, hrow⟩, fun ⟨u, hrow⟩ => ⟨u, ?_, hrow⟩⟩
  · exact hno ⟨(howners _).2 ⟨r, hr, rfl, hitem⟩, hitem⟩
  · obtain ⟨q, hq, -⟩ := mergedRow_some hrow
    exact (howners u).2 ⟨q, (mem_group.1 hq).1, (mem_group.1 hq).2⟩

end Merging

/-! ### The tables -/

/-- A recorded time, and what `_parse_recorded_timestamp` makes of it. -/
structure Stamp where
  text : String
  epoch : ℚ
  deriving DecidableEq

structure ProgressRow where
  id : ℕ
  userId : ℕ
  mediaItemId : ℕ
  positionSeconds : ℚ
  durationSeconds : Option ℚ
  watchSecondsTotal : ℚ
  completed : Bool
  updatedAt : Stamp
  deriving DecidableEq

structure UserHiddenRow where
  id : ℕ
  userId : ℕ
  mediaItemId : ℕ
  hiddenAt : Stamp
  deriving DecidableEq

structure GlobalHiddenRow where
  id : ℕ
  mediaItemId : ℕ
  hiddenByUserId : ℕ
  hiddenAt : Stamp
  deriving DecidableEq

structure WatchEvent where
  id : ℕ
  userId : ℕ
  mediaItemId : ℕ
  watchedSeconds : ℚ
  deriving DecidableEq

/-- A row of a table that only refers to an item. -/
structure Reference where
  tableName : String
  id : ℕ
  mediaItemId : ℕ
  deriving DecidableEq

/-- The tables besides the watch events whose rows get the canonical item. -/
def reassignedTables : List String :=
  ["playback_tracking_events", "subtitle_tracks", "native_playback_sessions",
    "desktop_vlc_handoffs", "audit_logs"]

structure Db where
  mediaItems : List ℕ
  progress : List ProgressRow
  userHidden : List UserHiddenRow
  globalHidden : List GlobalHiddenRow
  watchEvents : List WatchEvent
  references : List Reference
  deriving DecidableEq

/-- The row was updated later, or it is a later row. -/
def ProgressRow.after (a b : ProgressRow) : Prop :=
  b.updatedAt.epoch < a.updatedAt.epoch ∨ b.updatedAt.epoch = a.updatedAt.epoch ∧ b.id < a.id

instance (a b : ProgressRow) : Decidable (a.after b) := by
  unfold ProgressRow.after
  infer_instance

/-- The first row with the latest time and id. -/
def latestRow (first : ProgressRow) (rest : List ProgressRow) : ProgressRow :=
  rest.foldl (fun best r => if r.after best then r else best) first

/-- The first row that is least by time and id. -/
def earliestRow {ρ : Type} (hiddenAt : ρ → Stamp) (id : ρ → ℕ) (first : ρ) (rest : List ρ) : ρ :=
  rest.foldl (fun best r => if (hiddenAt r).epoch < (hiddenAt best).epoch ∨
    (hiddenAt r).epoch = (hiddenAt best).epoch ∧ id r < id best then r else best) first

/-- The new values of a progress row. -/
def mergeProgress (canonicalId : ℕ) (canonical first : ProgressRow) (rest : List ProgressRow) :
    ProgressRow where
  id := canonical.id
  userId := canonical.userId
  mediaItemId := canonicalId
  positionSeconds := (latestRow first rest).positionSeconds
  durationSeconds := (first :: rest).findSome? ProgressRow.durationSeconds
  watchSecondsTotal := (rest.map ProgressRow.watchSecondsTotal).foldl max first.watchSecondsTotal
  completed := (first :: rest).any ProgressRow.completed
  updatedAt := (latestRow first rest).updatedAt

def mergeUserHidden (canonicalId : ℕ) (canonical first : UserHiddenRow)
    (rest : List UserHiddenRow) :
    UserHiddenRow :=
  { canonical with
    mediaItemId := canonicalId
    hiddenAt := (earliestRow UserHiddenRow.hiddenAt UserHiddenRow.id first rest).hiddenAt }

def mergeGlobalHidden (canonicalId : ℕ) (canonical first : GlobalHiddenRow)
    (rest : List GlobalHiddenRow) : GlobalHiddenRow :=
  let earliest := earliestRow GlobalHiddenRow.hiddenAt GlobalHiddenRow.id first rest
  { canonical with
    mediaItemId := canonicalId
    hiddenByUserId := earliest.hiddenByUserId
    hiddenAt := earliest.hiddenAt }

variable (canonicalId : ℕ) (duplicateIds : List ℕ)

/-- `_merge_playback_progress_rows` -/
def mergePlaybackProgressRows (table : List ProgressRow) : Option (List ProgressRow) :=
  mergeCopies ProgressRow.id ProgressRow.userId ProgressRow.mediaItemId canonicalId duplicateIds
    (mergeProgress canonicalId) table

/-- `_merge_user_hidden_rows` -/
def mergeUserHiddenRows (table : List UserHiddenRow) : Option (List UserHiddenRow) :=
  mergeCopies UserHiddenRow.id UserHiddenRow.userId UserHiddenRow.mediaItemId
    canonicalId duplicateIds (mergeUserHidden canonicalId) table

/-- `_merge_global_hidden_rows`: all rows have one owner. -/
def mergeGlobalHiddenRows (table : List GlobalHiddenRow) : Option (List GlobalHiddenRow) :=
  mergeCopies GlobalHiddenRow.id (fun _ => ()) GlobalHiddenRow.mediaItemId canonicalId duplicateIds
    (mergeGlobalHidden canonicalId) table

/-- `_reassign_media_item_rows`, of one row -/
def reassigned (mediaItemId : ℕ) : ℕ :=
  if mediaItemId ∈ duplicateIds then canonicalId else mediaItemId

/-- `DELETE FROM media_items` of the duplicates, with what refers to them. -/
def Db.deleteItems (db : Db) : Db where
  mediaItems := db.mediaItems.filter (· ∉ duplicateIds)
  progress := db.progress.filter (·.mediaItemId ∉ duplicateIds)
  userHidden := db.userHidden.filter (·.mediaItemId ∉ duplicateIds)
  globalHidden := db.globalHidden.filter (·.mediaItemId ∉ duplicateIds)
  watchEvents := db.watchEvents.filter (·.mediaItemId ∉ duplicateIds)
  references := db.references.filter (·.mediaItemId ∉ duplicateIds)

/-- `_collapse_duplicate_cloud_media_rows`; `none` where a constraint is violated. -/
def collapseDuplicateCloudMediaRows (db : Db) : Option Db :=
  if duplicateIds = [] then some db
  else do
    let progress ← mergePlaybackProgressRows canonicalId duplicateIds db.progress
    let userHidden ← mergeUserHiddenRows canonicalId duplicateIds db.userHidden
    let globalHidden ← mergeGlobalHiddenRows canonicalId duplicateIds db.globalHidden
    let merged : Db :=
      { mediaItems := db.mediaItems
        progress := progress
        userHidden := userHidden
        globalHidden := globalHidden
        watchEvents := db.watchEvents.map fun e =>
          { e with mediaItemId := reassigned canonicalId duplicateIds e.mediaItemId }
        references := db.references.map fun r =>
          if r.tableName ∈ reassignedTables then
            { r with mediaItemId := reassigned canonicalId duplicateIds r.mediaItemId }
          else r }
    return merged.deleteItems duplicateIds

/-! ### What is merged -/

/-- The seconds that a user has watched of some items. -/
def watched (events : List WatchEvent) (userId : ℕ) (items : List ℕ) : ℚ :=
  ((events.filter fun e => decide (e.userId = userId ∧ e.mediaItemId ∈ items)).map
    WatchEvent.watchedSeconds).sum

/-- What `save_progress` establishes. -/
structure Established (db : Db) (r : ProgressRow) : Prop where
  position : r.completed = true → r.positionSeconds = 0
  total : r.watchSecondsTotal = watched db.watchEvents r.userId [r.mediaItemId]

/-- The constraints of the tables. -/
structure Db.Keyed (db : Db) : Prop where
  progress : CloudCopies.Keyed ProgressRow.id ProgressRow.userId ProgressRow.mediaItemId db.progress
  userHidden : CloudCopies.Keyed UserHiddenRow.id UserHiddenRow.userId UserHiddenRow.mediaItemId
    db.userHidden
  globalHidden : CloudCopies.Keyed GlobalHiddenRow.id (fun _ => ()) GlobalHiddenRow.mediaItemId
    db.globalHidden

/-- A table has a mark on the canonical item for each owner that had one on a copy, with the
earliest time. -/
structure MarksMerged {ρ κ : Type} (owner : ρ → κ) (item : ρ → ℕ) (hiddenAt : ρ → Stamp)
    (canonicalId : ℕ) (copies : List ℕ) (before after : List ρ) : Prop where
  marked : ∀ u, (∃ r ∈ after, owner r = u ∧ item r = canonicalId) ↔
    ∃ r ∈ before, owner r = u ∧ item r ∈ copies
  earliest : ∀ r ∈ after, item r = canonicalId →
    (∃ q ∈ before, owner q = owner r ∧ item q ∈ copies ∧ hiddenAt q = hiddenAt r) ∧
    ∀ q ∈ before, owner q = owner r → item q ∈ copies → (hiddenAt r).epoch ≤ (hiddenAt q).epoch
  others : ∀ r, item r ∉ copies → (r ∈ after ↔ r ∈ before)

/-- The copies are merged, and what `save_progress` establishes still holds. -/
structure Merged (canonicalId : ℕ) (copies : List ℕ) (db db' : Db) : Prop where
  progress : ∀ u, (∃ r ∈ db.progress, r.userId = u ∧ r.mediaItemId ∈ copies) →
    ∃ r, r.mediaItemId = canonicalId ∧ Established db' r ∧
      ∀ q, (q ∈ db'.progress ∧ q.userId = u ∧ q.mediaItemId ∈ copies) ↔ q = r
  otherProgress : ∀ r : ProgressRow, r.mediaItemId ∉ copies → (r ∈ db'.progress ↔ r ∈ db.progress)
  userHidden : MarksMerged UserHiddenRow.userId UserHiddenRow.mediaItemId UserHiddenRow.hiddenAt
    canonicalId copies db.userHidden db'.userHidden
  globalHidden : MarksMerged (fun _ => ()) GlobalHiddenRow.mediaItemId GlobalHiddenRow.hiddenAt
    canonicalId copies db.globalHidden db'.globalHidden
  otherEvents : ∀ e : WatchEvent, e.mediaItemId ∉ copies →
    (e ∈ db'.watchEvents ↔ e ∈ db.watchEvents)
  otherReferences : ∀ r : Reference, r.mediaItemId ∉ copies →
    (r ∈ db'.references ↔ r ∈ db.references)
  otherItems : ∀ i ∉ copies, i ∈ db'.mediaItems ↔ i ∈ db.mediaItems

/-- The rows of a user about the copies. -/
def Db.ofUser (db : Db) (copies : List ℕ) (u : ℕ) (r : ProgressRow) : Prop :=
  r ∈ db.progress ∧ r.userId = u ∧ r.mediaItemId ∈ copies

/-- The rows of a user can be merged: if one is completed, the latest is at the start, and the
largest total is all that the user has watched of the copies. -/
structure Mergeable (db : Db) (copies : List ℕ) (u : ℕ) : Prop where
  position : ∀ latest, db.ofUser copies u latest → (∀ r, db.ofUser copies u r → ¬ r.after latest) →
    (∃ r, db.ofUser copies u r ∧ r.completed = true) → latest.positionSeconds = 0
  total : ∀ r, db.ofUser copies u r →
    (∀ q, db.ofUser copies u q → q.watchSecondsTotal ≤ r.watchSecondsTotal) →
    r.watchSecondsTotal = watched db.watchEvents u copies

section Folds

/-- The latest row is one of the rows, and none is after it. -/
theorem latestRow_spec : ∀ {rest : List ProgressRow} {first : ProgressRow},
    latestRow first rest ∈ first :: rest ∧ ∀ r ∈ first :: rest,
        ¬ r.after (latestRow first rest) := by
  intro rest
  induction rest with
  | nil =>
    intro first
    refine ⟨List.mem_cons_self .., fun r hr => ?_⟩
    cases List.mem_singleton.1 hr
    rintro (hlt | ⟨-, hlt⟩)
    · exact lt_irrefl _ hlt
    · exact lt_irrefl _ hlt
  | cons q rest ih =>
    intro first
    have hstep : latestRow first (q :: rest) = latestRow (if q.after first then
      q else first) rest := rfl
    rw [hstep]
    by_cases hafter : q.after first
    · rw [if_pos hafter]
      obtain ⟨hmem, hmax⟩ := @ih q
      refine ⟨List.mem_cons_of_mem _ hmem, fun r hr => ?_⟩
      rcases List.mem_cons.1 hr with rfl | hr
      · -- the first row is before the second
        have hq := hmax q (List.mem_cons_self ..)
        intro hr'
        refine hq ?_
        simp only [ProgressRow.after] at hafter hr' ⊢
        rcases hafter with hafter | ⟨heq, hlt⟩ <;> rcases hr' with hr' | ⟨heq', hlt'⟩
        · exact .inl (hr'.trans hafter)
        · exact .inl (heq' ▸ hafter)
        · exact .inl (heq ▸ hr')
        · exact .inr ⟨heq'.trans heq, hlt'.trans hlt⟩
      · exact hmax r hr
    · rw [if_neg hafter]
      obtain ⟨hmem, hmax⟩ := @ih first
      refine ⟨?_, fun r hr => ?_⟩
      · rcases List.mem_cons.1 hmem with heq | hmem
        · rw [heq]
          exact List.mem_cons_self ..
        · exact List.mem_cons_of_mem _ (List.mem_cons_of_mem _ hmem)
      · rcases List.mem_cons.1 hr with rfl | hr
        · exact hmax r (List.mem_cons_self ..)
        rcases List.mem_cons.1 hr with rfl | hr
        · have hfirst := hmax first (List.mem_cons_self ..)
          intro hr'
          simp only [ProgressRow.after, not_or, not_and, not_lt] at hafter hfirst hr'
          rcases hr' with hr' | ⟨heq', hlt'⟩
          · exact absurd (hr'.trans_le (hafter.1.trans hfirst.1)) (lt_irrefl _)
          · have hle := hafter.1
            have heq : r.updatedAt.epoch = first.updatedAt.epoch :=
              le_antisymm hle (heq' ▸ hfirst.1)
            have hid := hafter.2 heq.symm
            have hid' := hfirst.2 (heq'.trans heq)
            omega
        · exact hmax r (List.mem_cons_of_mem _ hr)

/-- The earliest row is one of the rows, and its time is the least. -/
theorem earliestRow_spec {ρ : Type} {hiddenAt : ρ → Stamp} {id : ρ → ℕ} :
    ∀ {rest : List ρ} {first : ρ}, earliestRow hiddenAt id first rest ∈ first :: rest ∧
      ∀ r ∈ first :: rest, (hiddenAt (earliestRow hiddenAt id first rest)).epoch ≤
          (hiddenAt r).epoch := by
  intro rest
  induction rest with
  | nil =>
    intro first
    refine ⟨List.mem_cons_self .., fun r hr => ?_⟩
    cases List.mem_singleton.1 hr
    exact le_rfl
  | cons q rest ih =>
    intro first
    have hstep : earliestRow hiddenAt id first (q :: rest) =
      earliestRow hiddenAt id (if (hiddenAt q).epoch < (hiddenAt first).epoch ∨
        (hiddenAt q).epoch = (hiddenAt first).epoch ∧ id q < id first then q else first) rest := rfl
    rw [hstep]
    split_ifs with hless
    · obtain ⟨hmem, hmin⟩ := @ih q
      refine ⟨List.mem_cons_of_mem _ hmem, fun r hr => ?_⟩
      rcases List.mem_cons.1 hr with rfl | hr
      · have hq := hmin q (List.mem_cons_self ..)
        exact hq.trans (hless.elim le_of_lt fun heq => heq.1.le)
      · exact hmin r hr
    · obtain ⟨hmem, hmin⟩ := @ih first
      rw [not_or, not_lt] at hless
      refine ⟨?_, fun r hr => ?_⟩
      · rcases List.mem_cons.1 hmem with heq | hmem
        · rw [heq]
          exact List.mem_cons_self ..
        · exact List.mem_cons_of_mem _ (List.mem_cons_of_mem _ hmem)
      · rcases List.mem_cons.1 hr with rfl | hr
        · exact hmin r (List.mem_cons_self ..)
        rcases List.mem_cons.1 hr with rfl | hr
        · exact (hmin first (List.mem_cons_self ..)).trans hless.1
        · exact hmin r (List.mem_cons_of_mem _ hr)

/-- The largest total is that of a row. -/
theorem foldl_max_spec : ∀ {rest : List ℚ} {first : ℚ},
    rest.foldl max first ∈ first :: rest ∧ ∀ x ∈ first :: rest, x ≤ rest.foldl max first := by
  intro rest
  induction rest with
  | nil =>
    intro first
    refine ⟨List.mem_cons_self .., fun x hx => ?_⟩
    exact (List.mem_singleton.1 hx).le
  | cons y rest ih =>
    intro first
    obtain ⟨hmem, hmax⟩ := @ih (max first y)
    rw [List.foldl_cons]
    have hfirst := hmax (max first y) (List.mem_cons_self ..)
    refine ⟨?_, fun x hx => ?_⟩
    · rcases List.mem_cons.1 hmem with heq | hmem
      · rw [heq]
        rcases max_choice first y with hchoice | hchoice
        · rw [hchoice]
          exact List.mem_cons_self ..
        · rw [hchoice]
          exact List.mem_cons_of_mem _ (List.mem_cons_self ..)
      · exact List.mem_cons_of_mem _ (List.mem_cons_of_mem _ hmem)
    · rcases List.mem_cons.1 hx with rfl | hx
      · exact (le_max_left ..).trans hfirst
      rcases List.mem_cons.1 hx with rfl | hx
      · exact (le_max_right ..).trans hfirst
      · exact hmax x (List.mem_cons_of_mem _ hx)

end Folds

section Marks

variable {ρ κ : Type} [DecidableEq κ] {id : ρ → ℕ} {owner : ρ → κ} {item : ρ → ℕ}
  {hiddenAt : ρ → Stamp}
  {canonicalId : ℕ} {duplicateIds : List ℕ} {merge : ρ → ρ → List ρ → ρ}
    {table table' : List ρ} {u : κ}

/-- An owner with rows about the copies has a merged row. -/
theorem exists_mergedRow {copies : List ℕ} (h : ∃ r ∈ table, owner r = u ∧ item r ∈ copies) :
    ∃ r, mergedRow id owner item canonicalId copies merge table u = some r := by
  obtain ⟨r, hr, hrow⟩ := h
  rw [mergedRow]
  split
  next hnil =>
    have hmem : r ∈ (aboutCopies id item copies table).filter fun r => decide (owner r = u) :=
      mem_group.2 ⟨hr, hrow⟩
    rw [hnil] at hmem
    cases hmem
  next first rest _ => exact ⟨_, rfl⟩

/-- A table after the merge and the delete. -/
theorem mem_merged (hmerge : Merges id owner item canonicalId merge)
    (hcanonical : canonicalId ∉ duplicateIds)
    (hmem : ∀ r, r ∈ table' ↔ (r ∈ table ∧ item r ∉ canonicalId :: duplicateIds) ∨
      ∃ u, mergedRow id owner item canonicalId (canonicalId :: duplicateIds) merge table u =
        some r) (r : ρ) :
    r ∈ table'.filter (item · ∉ duplicateIds) ↔ (r ∈ table ∧ item r ∉ canonicalId :: duplicateIds) ∨
      ∃ u, mergedRow id owner item canonicalId (canonicalId :: duplicateIds)
          merge table u = some r := by
  rw [List.mem_filter, decide_eq_true_eq, hmem r]
  refine and_iff_left_of_imp ?_
  rintro (⟨-, hno⟩ | ⟨u, hrow⟩)
  · exact fun hin => hno (List.mem_cons_of_mem _ hin)
  · obtain ⟨first, -, rest, -, rfl⟩ := mergedRow_some hrow
    rw [hmerge.item]
    exact hcanonical

/-- **Marks** are merged to the earliest. -/
theorem marksMerged (hmerge : Merges id owner item canonicalId merge)
    (hhidden : ∀ canonical first rest,
      hiddenAt (merge canonical first rest) = hiddenAt (earliestRow hiddenAt id first rest))
    (hcanonical : canonicalId ∉ duplicateIds)
    (hmem : ∀ r, r ∈ table' ↔ (r ∈ table ∧ item r ∉ canonicalId :: duplicateIds) ∨
      ∃ u, mergedRow id owner item canonicalId (canonicalId :: duplicateIds)
        merge table u = some r) :
    MarksMerged owner item hiddenAt canonicalId (canonicalId :: duplicateIds) table
      (table'.filter (item · ∉ duplicateIds)) := by
  have hafter := mem_merged hmerge hcanonical hmem
  refine ⟨fun u => ?_, fun r hr hitem => ?_, fun r hno => ?_⟩
  · constructor
    · rintro ⟨r, hr, howner, hitem⟩
      rcases (hafter r).1 hr with ⟨-, hno⟩ | ⟨v, hrow⟩
      · rw [hitem] at hno
        exact absurd (List.mem_cons_self ..) hno
      · obtain ⟨first, hfirst, -⟩ := mergedRow_some hrow
        rw [← (mergedRow_owner hmerge hrow).symm.trans howner]
        exact ⟨first, mem_group.1 hfirst⟩
    · intro h
      obtain ⟨r, hrow⟩ := exists_mergedRow h
      refine ⟨r, (hafter r).2 (.inr ⟨u, hrow⟩), mergedRow_owner hmerge hrow, ?_⟩
      obtain ⟨first, -, rest, -, rfl⟩ := mergedRow_some hrow
      exact hmerge.item ..
  · rcases (hafter r).1 hr with ⟨-, hno⟩ | ⟨v, hrow⟩
    · rw [hitem] at hno
      exact absurd (List.mem_cons_self ..) hno
    · have howner := mergedRow_owner hmerge hrow
      obtain ⟨first, -, rest, hgroup, rfl⟩ := mergedRow_some hrow
      obtain ⟨hearliest, hmin⟩ := @earliestRow_spec ρ hiddenAt id rest first
      rw [hhidden, howner]
      refine ⟨⟨earliestRow hiddenAt id first rest, ?_⟩, fun q hq hqowner hqitem => hmin q ?_⟩
      · rw [← hgroup, mem_group] at hearliest
        exact ⟨hearliest.1, hearliest.2.1, hearliest.2.2, rfl⟩
      · rw [← hgroup, mem_group]
        exact ⟨hq, hqowner, hqitem⟩
  · rw [hafter r]
    refine ⟨fun h => (h.resolve_right ?_).1, fun hr => .inl ⟨hr, hno⟩⟩
    rintro ⟨u, hrow⟩
    obtain ⟨first, -, rest, -, rfl⟩ := mergedRow_some hrow
    rw [hmerge.item] at hno
    exact hno (List.mem_cons_self ..)

omit [DecidableEq κ] in
/-- Without duplicates nothing is done to the marks. -/
theorem marksMerged_refl (hkeyed : CloudCopies.Keyed id owner item table) :
    MarksMerged owner item hiddenAt canonicalId [canonicalId] table table := by
  refine ⟨fun u => ?_, fun r hr hitem => ⟨⟨r, hr, rfl, ?_, rfl⟩, fun q hq howner hqitem => ?_⟩,
    fun r _ => Iff.rfl⟩
  · simp only [List.mem_singleton]
  · exact List.mem_singleton.2 hitem
  · rw [hkeyed.pairs q hq r hr howner ((List.mem_singleton.1 hqitem).trans hitem.symm)]

end Marks

section Collapse

variable {canonicalId : ℕ} {duplicateIds : List ℕ} {db : Db} {u : ℕ}

theorem mergeProgress_merges :
    Merges ProgressRow.id ProgressRow.userId ProgressRow.mediaItemId canonicalId
      (mergeProgress canonicalId) := ⟨fun _ _ _ => rfl, fun _ _ _ => rfl, fun _ _ _ => rfl⟩

theorem mergeUserHidden_merges :
    Merges UserHiddenRow.id UserHiddenRow.userId UserHiddenRow.mediaItemId canonicalId
      (mergeUserHidden canonicalId) := ⟨fun _ _ _ => rfl, fun _ _ _ => rfl, fun _ _ _ => rfl⟩

theorem mergeGlobalHidden_merges :
    Merges GlobalHiddenRow.id (fun _ => ()) GlobalHiddenRow.mediaItemId canonicalId
      (mergeGlobalHidden canonicalId) := ⟨fun _ _ _ => rfl, fun _ _ _ => rfl, fun _ _ _ => rfl⟩

/-- What a user has watched of the copies, is watched of the canonical item. -/
theorem watched_reassigned (hcanonical : canonicalId ∉ duplicateIds) (events : List WatchEvent) :
    watched ((events.map fun e =>
      { e with mediaItemId := reassigned canonicalId duplicateIds e.mediaItemId }).filter
        (·.mediaItemId ∉ duplicateIds)) u [canonicalId] =
      watched events u (canonicalId :: duplicateIds) := by
  induction events with
  | nil => rfl
  | cons e events ih =>
    have hout : reassigned canonicalId duplicateIds e.mediaItemId ∉ duplicateIds := by
      rw [reassigned]
      split_ifs with hin
      · exact hcanonical
      · exact hin
    have hitem : reassigned canonicalId duplicateIds e.mediaItemId ∈ [canonicalId] ↔
        e.mediaItemId ∈ canonicalId :: duplicateIds := by
      rw [reassigned, List.mem_singleton, List.mem_cons]
      split_ifs with hin
      · exact ⟨fun _ => .inr hin, fun _ => rfl⟩
      · exact ⟨.inl, fun h => h.resolve_right hin⟩
    rw [watched, watched] at ih ⊢
    rw [List.map_cons, List.filter_cons, if_pos (decide_eq_true hout), List.filter_cons,
      List.filter_cons]
    by_cases he : e.userId = u ∧ e.mediaItemId ∈ canonicalId :: duplicateIds
    · rw [if_pos (decide_eq_true ⟨he.1, hitem.2 he.2⟩), if_pos (decide_eq_true he), List.map_cons,
        List.map_cons, List.sum_cons, List.sum_cons, ih]
    · have he' : ¬ (e.userId = u ∧
          reassigned canonicalId duplicateIds e.mediaItemId ∈ [canonicalId]) :=
        fun h => he ⟨h.1, hitem.1 h.2⟩
      rw [if_neg fun h => he' (of_decide_eq_true h), if_neg fun h => he (of_decide_eq_true h), ih]

/-- The merged row of a user has what `save_progress` establishes, if and only if its rows can be
merged. -/
theorem established_iff {copies : List ℕ} {first : ProgressRow} {rest : List ProgressRow}
    (hkeyed : db.Keyed) (hrows : ∀ r, r ∈ first :: rest ↔ db.ofUser copies u r) :
    (((first :: rest).any ProgressRow.completed = true →
      (latestRow first rest).positionSeconds = 0) ∧
      (rest.map ProgressRow.watchSecondsTotal).foldl max first.watchSecondsTotal =
        watched db.watchEvents u copies) ↔ Mergeable db copies u := by
  obtain ⟨hlatest, hafter⟩ := @latestRow_spec rest first
  obtain ⟨htotal, hmax⟩ := @foldl_max_spec (rest.map ProgressRow.watchSecondsTotal)
    first.watchSecondsTotal
  rw [← List.map_cons, List.mem_map] at htotal
  obtain ⟨largest, hlargest, heq⟩ := htotal
  have hle : ∀ r ∈ first :: rest, r.watchSecondsTotal ≤
      (rest.map ProgressRow.watchSecondsTotal).foldl max first.watchSecondsTotal := by
    intro r hr
    refine hmax _ ?_
    rw [← List.map_cons]
    exact List.mem_map_of_mem hr
  have hcompleted : (first :: rest).any ProgressRow.completed = true ↔
      ∃ r, db.ofUser copies u r ∧ r.completed = true := by
    rw [List.any_eq_true]
    exact exists_congr fun r => and_congr_left fun _ => hrows r
  constructor
  · rintro ⟨hposition, hsum⟩
    -- the row that no other is after is the one that the fold found, and so is the largest total
    refine ⟨fun latest hrow hnone hany => ?_, fun r hr hall => ?_⟩
    · -- there is one latest row
      have hfirst := hnone _ ((hrows _).1 hlatest)
      have hsecond := hafter latest ((hrows latest).2 hrow)
      simp only [ProgressRow.after, not_or, not_and, not_lt] at hfirst hsecond
      have hepoch := le_antisymm hfirst.1 hsecond.1
      have hid := le_antisymm (hfirst.2 hepoch.symm) (hsecond.2 hepoch)
      have hsame := hkeyed.progress.ids _ ((hrows _).1 hlatest).1 latest hrow.1 hid
      rw [← hsame]
      exact hposition (hcompleted.2 hany)
    · rw [← hsum, ← heq]
      refine le_antisymm ?_ (hall largest ((hrows _).1 hlargest))
      rw [heq]
      exact hle r ((hrows r).2 hr)
  · intro h
    refine ⟨fun hany => ?_, ?_⟩
    · exact h.position _ ((hrows _).1 hlatest) (fun r hr => hafter r ((hrows r).2 hr))
        (hcompleted.1 hany)
    · rw [← heq]
      refine h.total largest ((hrows _).1 hlargest) fun q hq => ?_
      rw [heq]
      exact hle q ((hrows q).2 hq)

/-- Without duplicates the rows of a user are one, and nothing is done. -/
theorem merged_refl (hkeyed : db.Keyed) (hestablished : ∀ r ∈ db.progress, Established db r) :
    Merged canonicalId [canonicalId] db db ∧ ∀ u, Mergeable db [canonicalId] u := by
  have hone : ∀ {u : ℕ} {a b : ProgressRow}, db.ofUser [canonicalId] u a →
    db.ofUser [canonicalId] u b →
      a = b := by
    rintro u a b ⟨ha, hau, hai⟩ ⟨hb, hbu, hbi⟩
    exact hkeyed.progress.pairs a ha b hb (hau.trans hbu.symm)
      ((List.mem_singleton.1 hai).trans (List.mem_singleton.1 hbi).symm)
  refine ⟨⟨fun u => ?_, fun _ _ => Iff.rfl, marksMerged_refl hkeyed.userHidden,
    marksMerged_refl hkeyed.globalHidden, fun _ _ => Iff.rfl, fun _ _ => Iff.rfl,
      fun _ _ => Iff.rfl⟩,
    fun u => ⟨fun latest hlatest _ hany => ?_, fun r hr _ => ?_⟩⟩
  · rintro ⟨r, hr, hu, hitem⟩
    refine ⟨r, List.mem_singleton.1 hitem, hestablished r hr, fun q => ⟨fun hq => ?_, ?_⟩⟩
    · exact hone hq ⟨hr, hu, hitem⟩
    · rintro rfl
      exact ⟨hr, hu, hitem⟩
  · obtain ⟨r, hr, hcompleted⟩ := hany
    rw [hone hr hlatest] at hcompleted
    exact (hestablished latest hlatest.1).position hcompleted
  · have htotal := (hestablished r hr.1).total
    rw [hr.2.1, List.mem_singleton.1 hr.2.2] at htotal
    exact htotal

/-- Rows about other items stay where they are. -/
theorem reassigned_eq_iff {i : ℕ} (hi : i ∉ canonicalId :: duplicateIds) (j : ℕ) :
    reassigned canonicalId duplicateIds j = i ↔ j = i := by
  rw [reassigned]
  split_ifs with hin
  · constructor
    · rintro rfl
      exact absurd (List.mem_cons_self ..) hi
    · rintro rfl
      exact absurd (List.mem_cons_of_mem _ hin) hi
  · exact Iff.rfl

/-- **All tables** after the copies are collapsed, which violates no constraint. -/
theorem collapse_spec (hkeyed : db.Keyed) (hcanonical : canonicalId ∉ duplicateIds)
    (hnil : duplicateIds ≠ []) :
    ∃ db', collapseDuplicateCloudMediaRows canonicalId duplicateIds db = some db' ∧
      (∀ r, r ∈ db'.progress ↔ (r ∈ db.progress ∧ r.mediaItemId ∉ canonicalId :: duplicateIds) ∨
        ∃ u, mergedRow ProgressRow.id ProgressRow.userId ProgressRow.mediaItemId canonicalId
          (canonicalId :: duplicateIds) (mergeProgress canonicalId) db.progress u = some r) ∧
      (∀ u, watched db'.watchEvents u [canonicalId] =
        watched db.watchEvents u (canonicalId :: duplicateIds)) ∧
      MarksMerged UserHiddenRow.userId UserHiddenRow.mediaItemId UserHiddenRow.hiddenAt canonicalId
        (canonicalId :: duplicateIds) db.userHidden db'.userHidden ∧
      MarksMerged (fun _ => ()) GlobalHiddenRow.mediaItemId GlobalHiddenRow.hiddenAt canonicalId
        (canonicalId :: duplicateIds) db.globalHidden db'.globalHidden ∧
      (∀ e : WatchEvent, e.mediaItemId ∉ canonicalId :: duplicateIds →
        (e ∈ db'.watchEvents ↔ e ∈ db.watchEvents)) ∧
      (∀ r : Reference, r.mediaItemId ∉ canonicalId :: duplicateIds →
        (r ∈ db'.references ↔ r ∈ db.references)) ∧
      ∀ i ∉ canonicalId :: duplicateIds, i ∈ db'.mediaItems ↔ i ∈ db.mediaItems := by
  obtain ⟨progress, hprogress, -, hmemProgress⟩ :=
    @mem_mergeCopies _ _ _ _ _ _ canonicalId duplicateIds _ _ mergeProgress_merges hkeyed.progress
  obtain ⟨userHidden, huserHidden, -, hmemUser⟩ :=
    @mem_mergeCopies _ _ _ _ _ _ canonicalId duplicateIds _ _ mergeUserHidden_merges
      hkeyed.userHidden
  obtain ⟨globalHidden, hglobalHidden, -, hmemGlobal⟩ :=
    @mem_mergeCopies _ _ _ _ _ _ canonicalId duplicateIds _ _ mergeGlobalHidden_merges
      hkeyed.globalHidden
  have hout : ∀ {i : ℕ}, i ∉ canonicalId :: duplicateIds → i ∉ duplicateIds :=
    fun hi hin => hi (List.mem_cons_of_mem _ hin)
  refine ⟨({ mediaItems := db.mediaItems
             progress := progress
             userHidden := userHidden
             globalHidden := globalHidden
             watchEvents := db.watchEvents.map fun e =>
               { e with mediaItemId := reassigned canonicalId duplicateIds e.mediaItemId }
             references := db.references.map fun r =>
               if r.tableName ∈ reassignedTables then
                 { r with mediaItemId := reassigned canonicalId duplicateIds r.mediaItemId }
               else r } : Db).deleteItems duplicateIds, ?_,
    mem_merged mergeProgress_merges hcanonical hmemProgress,
    fun u => watched_reassigned hcanonical db.watchEvents,
    marksMerged mergeUserHidden_merges (fun _ _ _ => rfl) hcanonical hmemUser,
    marksMerged mergeGlobalHidden_merges (fun _ _ _ => rfl) hcanonical hmemGlobal,
    fun e hno => ?_, fun r hno => ?_, fun i hno => ?_⟩
  · rw [collapseDuplicateCloudMediaRows, if_neg hnil, mergePlaybackProgressRows, hprogress,
      mergeUserHiddenRows, huserHidden, mergeGlobalHiddenRows, hglobalHidden]
    rfl
  · rw [Db.deleteItems, List.mem_filter, List.mem_map]
    constructor
    · rintro ⟨⟨q, hq, rfl⟩, -⟩
      have hsame : q.mediaItemId = reassigned canonicalId duplicateIds q.mediaItemId :=
        (reassigned_eq_iff hno q.mediaItemId).1 rfl
      rw [← hsame]
      exact hq
    · intro he
      refine ⟨⟨e, he, ?_⟩, decide_eq_true (hout hno)⟩
      rw [(reassigned_eq_iff hno e.mediaItemId).2 rfl]
  · rw [Db.deleteItems, List.mem_filter, List.mem_map]
    constructor
    · rintro ⟨⟨q, hq, rfl⟩, -⟩
      split_ifs at hno ⊢ with htable
      · have hsame : q.mediaItemId = reassigned canonicalId duplicateIds q.mediaItemId :=
          (reassigned_eq_iff hno q.mediaItemId).1 rfl
        rw [← hsame]
        exact hq
      · exact hq
    · intro hr
      refine ⟨⟨r, hr, ?_⟩, decide_eq_true (hout hno)⟩
      rw [(reassigned_eq_iff hno r.mediaItemId).2 rfl]
      split_ifs <;> rfl
  · rw [Db.deleteItems, List.mem_filter]
    exact and_iff_left (decide_eq_true (hout hno))

/-- The row that the rows of a user become is its only one about the copies, and it has what
`save_progress` establishes, if and only if the rows can be merged. -/
theorem mergedRow_established {db' : Db} {r₀ : ProgressRow} (hkeyed : db.Keyed)
    (hafter : ∀ r, r ∈ db'.progress ↔
      (r ∈ db.progress ∧ r.mediaItemId ∉ canonicalId :: duplicateIds) ∨
      ∃ u, mergedRow ProgressRow.id ProgressRow.userId ProgressRow.mediaItemId canonicalId
        (canonicalId :: duplicateIds) (mergeProgress canonicalId) db.progress u = some r)
    (hwatched : ∀ u, watched db'.watchEvents u [canonicalId] =
      watched db.watchEvents u (canonicalId :: duplicateIds))
    (hr₀ : mergedRow ProgressRow.id ProgressRow.userId ProgressRow.mediaItemId canonicalId
      (canonicalId :: duplicateIds) (mergeProgress canonicalId) db.progress u = some r₀) :
    r₀.mediaItemId = canonicalId ∧ (∀ q, db'.ofUser (canonicalId :: duplicateIds) u q ↔ q = r₀) ∧
      (Established db' r₀ ↔ Mergeable db (canonicalId :: duplicateIds) u) := by
  have howner := mergedRow_owner mergeProgress_merges hr₀
  obtain ⟨first, -, rest, hgroup, hvalues⟩ := mergedRow_some hr₀
  have hitem : r₀.mediaItemId = canonicalId := by
    rw [hvalues]
    rfl
  refine ⟨hitem, fun q => ⟨?_, ?_⟩, ?_⟩
  · rintro ⟨hq, hqu, hqi⟩
    rcases (hafter q).1 hq with ⟨-, hno⟩ | ⟨v, hv⟩
    · exact absurd hqi hno
    · rw [(mergedRow_owner mergeProgress_merges hv).symm.trans hqu, hr₀] at hv
      exact (Option.some.inj hv).symm
  · rintro rfl
    exact ⟨(hafter q).2 (.inr ⟨u, hr₀⟩), howner, hitem ▸ List.mem_cons_self ..⟩
  · have hrows : ∀ r, r ∈ first :: rest ↔ db.ofUser (canonicalId :: duplicateIds) u r := by
      intro r
      rw [← hgroup, mem_group]
      exact Iff.rfl
    -- the seconds that were watched of the copies are those of the canonical item now
    rw [← established_iff hkeyed hrows, ← hwatched u]
    constructor
    · rintro ⟨hposition, htotal⟩
      rw [howner, hitem] at htotal
      rw [hvalues] at hposition htotal
      exact ⟨hposition, htotal⟩
    · rintro ⟨hposition, htotal⟩
      refine ⟨?_, ?_⟩
      · rw [hvalues]
        exact hposition
      · rw [howner, hitem, ← htotal, hvalues]
        rfl

end Collapse

/-- The copies of an item are always collapsed without a constraint that is violated; and they are
merged as they should be, if and only if the rows of every user can be merged. -/
theorem collapse_merges (canonicalId : ℕ) (duplicateIds : List ℕ) (db : Db) (hkeyed : db.Keyed)
    (hestablished : ∀ r ∈ db.progress, Established db r) (hcanonical : canonicalId ∉ duplicateIds) :
    ∃ db', collapseDuplicateCloudMediaRows canonicalId duplicateIds db = some db' ∧
      (Merged canonicalId (canonicalId :: duplicateIds) db db' ↔
        ∀ u, Mergeable db (canonicalId :: duplicateIds) u) := by
  by_cases hnil : duplicateIds = []
  · subst hnil
    obtain ⟨hmerged, hmergeable⟩ := @merged_refl canonicalId db hkeyed hestablished
    exact ⟨db, if_pos rfl, fun _ => hmergeable, fun _ => hmerged⟩
  obtain ⟨db', hcollapse, hafter, hwatched, huserHidden, hglobalHidden, hevents,
      hreferences, hitems⟩ :=
    collapse_spec hkeyed hcanonical hnil
  have hexists : ∀ u,
    (∃ r ∈ db.progress, r.userId = u ∧ r.mediaItemId ∈ canonicalId :: duplicateIds) →
      ∃ r₀, mergedRow ProgressRow.id ProgressRow.userId ProgressRow.mediaItemId canonicalId
        (canonicalId :: duplicateIds) (mergeProgress canonicalId) db.progress u = some r₀ :=
    fun u hany => exists_mergedRow hany
  refine ⟨db', hcollapse, fun hmerged u => ?_, fun hmergeable => ⟨fun u hany => ?_, fun r hno => ?_,
    huserHidden, hglobalHidden, hevents, hreferences, hitems⟩⟩
  · by_cases hany : ∃ r ∈ db.progress, r.userId = u ∧ r.mediaItemId ∈ canonicalId :: duplicateIds
    · obtain ⟨r₀, hr₀⟩ := hexists u hany
      obtain ⟨-, hone, hiff⟩ := mergedRow_established hkeyed hafter hwatched hr₀
      obtain ⟨r, -, hestablished, honly⟩ := hmerged.progress u hany
      have hr := (honly r₀).1 ((hone r₀).2 rfl)
      rw [← hr] at hestablished
      exact hiff.1 hestablished
    · -- a user without rows about the copies has nothing to merge
      exact ⟨fun latest hlatest => absurd ⟨latest, hlatest⟩ hany, fun r hr => absurd ⟨r, hr⟩ hany⟩
  · obtain ⟨r₀, hr₀⟩ := hexists u hany
    obtain ⟨hitem, hone, hiff⟩ := mergedRow_established hkeyed hafter hwatched hr₀
    exact ⟨r₀, hitem, hiff.2 (hmergeable u), hone⟩
  · rw [hafter r]
    refine ⟨fun h => (h.resolve_right ?_).1, fun hr => .inl ⟨hr, hno⟩⟩
    rintro ⟨u, hmergedRow⟩
    obtain ⟨first, -, rest, -, rfl⟩ := mergedRow_some hmergedRow
    exact hno (List.mem_cons_self ..)

/-- One user with two copies of a film, of which one is watched. -/
def oneWatched : Db where
  mediaItems := [1, 2]
  progress :=
    [⟨1, 7, 1, 0, some 90, 0, false, ⟨"2026-01-01", 0⟩⟩, ⟨2, 7, 2, 60, some 90, 60, false,
      ⟨"2026-01-02", 1⟩⟩]
  userHidden := [⟨1, 7, 2, ⟨"2026-01-01", 0⟩⟩]
  globalHidden := []
  watchEvents := [⟨1, 7, 2, 60⟩]
  references := [⟨"audit_logs", 1, 2⟩]

theorem collapse_merges_oneWatched :
    oneWatched.Keyed ∧ (∀ r ∈ oneWatched.progress, Established oneWatched r) ∧
      ∃ db', collapseDuplicateCloudMediaRows 1 [2] oneWatched = some db' ∧
        (Merged 1 [1, 2] oneWatched db' ↔ ∀ u, Mergeable oneWatched [1, 2] u) := by
  have hkeyed : oneWatched.Keyed :=
    ⟨⟨by decide, by decide⟩, ⟨by decide, by decide⟩, ⟨by decide, by decide⟩⟩
  have hestablished : ∀ r ∈ oneWatched.progress, Established oneWatched r := by
    intro r hr
    rcases List.mem_cons.1 hr with rfl | hr
    · exact ⟨by decide, by decide +kernel⟩
    · rw [List.mem_singleton.1 hr]
      exact ⟨by decide, by decide +kernel⟩
  exact ⟨hkeyed, hestablished, collapse_merges 1 [2] oneWatched hkeyed hestablished (by decide)⟩

/-- One user who has watched two copies of a film. -/
def bothWatched : Db where
  mediaItems := [1, 2]
  progress :=
    [⟨1, 7, 1, 60, some 90, 60, false, ⟨"2026-01-01", 0⟩⟩, ⟨2, 7, 2, 40, some 90, 40, false,
      ⟨"2026-01-02", 1⟩⟩]
  userHidden := []
  globalHidden := []
  watchEvents := [⟨1, 7, 1, 60⟩, ⟨2, 7, 2, 40⟩]
  references := []

theorem aboutCopies_bothWatched :
    aboutCopies ProgressRow.id ProgressRow.mediaItemId [1, 2] bothWatched.progress =
      bothWatched.progress := List.mergeSort_of_pairwise (by decide)

/-- What the tables are then: the position is that of the second row, the seconds are those of the
first. -/
theorem collapse_bothWatched :
    collapseDuplicateCloudMediaRows 1 [2] bothWatched = some
      { mediaItems := [1]
        progress := [⟨1, 7, 1, 40, some 90, 60, false, ⟨"2026-01-02", 1⟩⟩]
        userHidden := []
        globalHidden := []
        watchEvents := [⟨1, 7, 1, 60⟩, ⟨2, 7, 1, 40⟩]
        references := [] } := by
  rw [collapseDuplicateCloudMediaRows, mergePlaybackProgressRows, mergeCopies,
    aboutCopies_bothWatched]
  decide +kernel

/-- The seconds of two watched copies are not the larger of the two totals. -/
theorem watched_copies_lose_seconds :
    bothWatched.Keyed ∧ (∀ r ∈ bothWatched.progress, Established bothWatched r) ∧
      ∃ db', collapseDuplicateCloudMediaRows 1 [2] bothWatched = some db' ∧
        db'.progress.map ProgressRow.watchSecondsTotal = [60] ∧
        watched db'.watchEvents 7 [1] = 100 ∧ ¬ Merged 1 [1, 2] bothWatched db' := by
  refine ⟨⟨⟨by decide, by decide⟩, ⟨by decide, by decide⟩, ⟨by decide, by decide⟩⟩, fun r hr => ?_,
    _, collapse_bothWatched, by decide +kernel, by decide +kernel, fun hmerged => ?_⟩
  · rcases List.mem_cons.1 hr with rfl | hr
    · exact ⟨by decide, by decide +kernel⟩
    · rw [List.mem_singleton.1 hr]
      exact ⟨by decide, by decide +kernel⟩
  · obtain ⟨r, -, hestablished, honly⟩ :=
      hmerged.progress 7 ⟨_, List.mem_cons_self .., rfl, by decide⟩
    have hr := (honly ⟨1, 7, 1, 40, some 90, 60, false, ⟨"2026-01-02", 1⟩⟩).1
      ⟨List.mem_cons_self .., rfl, by decide⟩
    rw [← hr] at hestablished
    exact absurd hestablished.total (by decide +kernel)

end CloudCopies
