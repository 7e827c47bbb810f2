/-
The rebuild of progress, run again (`progress.py`).

`refresh_recent_tracking` takes the times of the rows as the texts that they are,
and may meet any rows and any events.  What it leaves is a fixed point: a second
run, with no event in between, has nothing to change.

* `rebuiltRow_again`, `insertedRow_eq` -- one row is rebuilt once;
* `TextTables.refreshRecentTracking` -- the rebuild, with texts for times;
* `refresh_settles` -- what holds of each row of the user after it;
* `rebuild_fixpoint` -- the second run, and what the first one keeps.
-/
import Mathlib.Data.String.Basic
import Elvern.TrackingRebuild

namespace Progress

/-! ### One row -/

section Row

variable {watch : Option (ℚ × ℕ)} {selected : Option TrackingEvent} {ignored : Bool}
  {row : ProgressRow}

theorem cents_round2_max (x : ℚ) : round2 (max (round2 (max x 0)) 0) = round2 (max x 0) := by
  rw [round2_max_round2, max_assoc, max_self]

theorem aggregatedWatchSeconds_nonneg (watch : Option (ℚ × ℕ)) :
    0 ≤ aggregatedWatchSeconds watch := by
  refine round2_nonneg ?_
  cases watch with
  | none => exact le_rfl
  | some sum => exact le_max_right _ _

theorem round2_aggregated (watch : Option (ℚ × ℕ)) :
    round2 (max (aggregatedWatchSeconds watch) 0) = aggregatedWatchSeconds watch := by
  rw [max_eq_left (aggregatedWatchSeconds_nonneg watch)]
  exact (cents_round2 _).round2

/-- The larger of two totals as they are compared is compared as itself. -/
theorem round2_max_total (x : ℚ) (watch : Option (ℚ × ℕ)) :
    round2 (max (max (round2 (max x 0)) (aggregatedWatchSeconds watch)) 0)
      = max (round2 (max x 0)) (aggregatedWatchSeconds watch) := by
  rcases le_total (round2 (max x 0)) (aggregatedWatchSeconds watch) with h | h
  · rw [max_eq_right h, round2_aggregated]
  · rw [max_eq_left h, cents_round2_max]

/-- A rebuilt row is compared as it is. -/
theorem rebuiltRow_normalized :
    (rebuiltRow watch selected ignored row).normalized = rebuiltRow watch selected ignored row := by
  ext1
  · rcases selected with _ | e
    · exact cents_round2_max _
    · rcases hcompleted : e.completed with _ | _
      · rcases hposition : e.positionSeconds with _ | position
        · simp only [ProgressRow.normalized, rebuiltRow, hcompleted, hposition, Bool.false_eq_true,
            if_false]
          exact cents_round2_max _
        · simp only [ProgressRow.normalized, rebuiltRow, hcompleted, hposition, Bool.false_eq_true,
            if_false]
          exact cents_round2_max _
      · simp only [ProgressRow.normalized, rebuiltRow, hcompleted, if_true, max_self]
        exact cents_zero.round2
  · rfl
  · exact round2_max_total _ _
  · rfl
  · rfl

/-- A rebuilt row is rebuilt as it is. -/
theorem rebuiltRow_again :
    rebuiltRow watch selected ignored (rebuiltRow watch selected ignored row)
      = rebuiltRow watch selected ignored row := by
  ext1
  · rcases selected with _ | e
    · exact cents_round2_max _
    · rcases hcompleted : e.completed with _ | _
      · rcases hposition : e.positionSeconds with _ | position
        · simp only [rebuiltRow, ProgressRow.normalized, hcompleted, hposition,
            Bool.false_eq_true, if_false]
          exact cents_round2_max _
        · simp only [rebuiltRow, hcompleted, hposition, Bool.false_eq_true, if_false]
      · simp only [rebuiltRow, hcompleted, if_true]
  · show (selected.bind TrackingEvent.durationSeconds).or
      ((selected.bind TrackingEvent.durationSeconds).or row.durationSeconds) = _
    rw [← Option.or_assoc, Option.or_self]
    rfl
  · have htotal := round2_max_total row.watchSecondsTotal watch
    show max (round2 (max (max (round2 (max row.watchSecondsTotal 0))
      (aggregatedWatchSeconds watch)) 0)) (aggregatedWatchSeconds watch) = _
    rw [htotal, max_assoc, max_self]
    rfl
  · cases ignored
    · exact (Bool.or_assoc _ _ _).trans (congrArg _ (Bool.or_self _))
    · rfl
  · exact (max_assoc _ _ _).trans (congrArg _ (max_self _))

/-- An inserted row is what an empty row would be rebuilt to. -/
theorem insertedRow_eq {now : ℕ} (h : insertedRow now watch selected = some row) (ignored : Bool) :
    ∃ updatedAt, row = rebuiltRow watch selected ignored ⟨0, none, 0, false, updatedAt⟩ := by
  have hnone : ¬ (aggregatedWatchSeconds watch ≤ 0 ∧ selected = none) := by
    intro hnone
    rw [insertedRow, if_pos hnone] at h
    cases h
  rw [insertedRow, if_neg hnone] at h
  have h := Option.some.inj h
  have hzero : round2 (max 0 0) = 0 := by rw [max_self, cents_zero.round2]
  refine ⟨if latestEventTime watch selected = 0 then now else 0, ?_⟩
  rw [← h]
  ext1
  · rcases selected with _ | e
    · exact cents_zero.round2.trans hzero.symm
    · rcases hcompleted : e.completed with _ | _
      · rcases hposition : e.positionSeconds with _ | position
        · simp [rebuiltRow, ProgressRow.normalized, hcompleted, hposition]
        · simp [rebuiltRow, hcompleted, hposition]
      · simp [rebuiltRow, hcompleted]
  · exact (Option.or_none).symm
  · simp only [rebuiltRow, ProgressRow.normalized, hzero]
    exact (max_eq_right (aggregatedWatchSeconds_nonneg watch)).symm
  · cases ignored <;> simp [rebuiltRow, ProgressRow.normalized]
  · simp only [rebuiltRow, ProgressRow.normalized]
    split_ifs with hlatest
    · rw [hlatest, Nat.max_zero]
    · rw [Nat.zero_max]

/-- What a row keeps when it is rebuilt. -/
theorem rebuiltRow_keeps :
    round2 (max row.watchSecondsTotal 0) ≤ (rebuiltRow watch selected ignored row).watchSecondsTotal
      ∧ (row.completed = true → ignored = false →
        (rebuiltRow watch selected ignored row).completed = true) := by
  refine ⟨le_max_left _ _, fun hcompleted hignored => ?_⟩
  simp [rebuiltRow, ProgressRow.normalized, hcompleted, hignored]

end Row

/-! ### The rebuild, with texts for times -/

/-- `playback_progress`, under its key, with the text of `updated_at`. -/
@[ext]
structure TextRow where
  positionSeconds : ℚ
  durationSeconds : Option ℚ
  watchSecondsTotal : ℚ
  completed : Bool
  updatedAt : String
  deriving DecidableEq

/-- The row without its time. -/
def TextRow.untimed (row : TextRow) : ProgressRow :=
  ⟨row.positionSeconds, row.durationSeconds, row.watchSecondsTotal, row.completed, 0⟩

/-- A row with the text of its time. -/
def ProgressRow.timed (row : ProgressRow) (updatedAt : String) : TextRow :=
  ⟨row.positionSeconds, row.durationSeconds, row.watchSecondsTotal, row.completed, updatedAt⟩

/-- An existing row as it is compared. -/
def TextRow.normalized (row : TextRow) : TextRow := row.untimed.normalized.timed row.updatedAt

/-- The text of the time does not count for the rest of a row. -/
theorem rebuiltRow_timed (watch : Option (ℚ × ℕ)) (selected : Option TrackingEvent)
    (ignored : Bool) (row : ProgressRow) (text text' : String) :
    (rebuiltRow watch selected ignored (row.timed text).untimed).timed text'
      = (rebuiltRow watch selected ignored row).timed text' := by
  simp only [ProgressRow.timed, TextRow.untimed, rebuiltRow, ProgressRow.normalized]

theorem normalized_timed (row : ProgressRow) (text : String) :
    (row.timed text).normalized = row.normalized.timed text := rfl

theorem updatedAt_timed (row : ProgressRow) (text : String) : (row.timed text).updatedAt = text :=
  rfl

/-- The tables that the rebuild reads; events stand in the order of their ids. -/
structure TextTables where
  progress : ℕ → ℕ → Option TextRow
  watchEvents : List WatchEvent
  trackingEvents : List TrackingEvent
  sourceKind : ℕ → Option SourceKind

namespace TextTables

/-- The two event tables. -/
def log (db : TextTables) : Tables := ⟨fun _ _ => none, db.watchEvents, db.trackingEvents⟩

/-- Write the row of a user and an item. -/
def setProgress (db : TextTables) (user item : ℕ) (row : TextRow) : TextTables :=
  { db with progress := fun u i => if u = user ∧ i = item then some row else db.progress u i }

/-- The tracking row that is selected for an item. -/
def selected (db : TextTables) (user item : ℕ) : Option TrackingEvent :=
  selectRebuildTrackingRow (db.sourceKind item) (db.log.trackingRows db.sourceKind user item)

/-- `ignored_bogus_completion` -/
def ignored (db : TextTables) (user item : ℕ) : Bool :=
  rebuildIgnoredBogusCompletion (db.sourceKind item)
    (db.log.trackingRows db.sourceKind user item) (db.selected user item)

end TextTables

-- `datetime.fromtimestamp(epoch, tz=timezone.utc).isoformat()`, `none` where it raises, which it
-- does for an epoch after the year 9999
variable (isoformat : ℕ → Option String)

/-- The text of an epoch, empty where there is none. -/
def epochIso (epoch : ℕ) : Option String := if 0 < epoch then isoformat epoch else some ""

namespace TextTables

variable (db : TextTables) (user item : ℕ)

/-- `latest_watch_iso` -/
def latestWatchIso : Option String :=
  epochIso isoformat (((db.log.watchRow user item).map Prod.snd).getD 0)

/-- `latest_tracking_iso` -/
def latestTrackingIso : Option String :=
  epochIso isoformat (((db.selected user item).map TrackingEvent.recordedAtEpoch).getD 0)

/-- The `next_…` values for an existing row. -/
def rebuiltText (watchIso trackingIso : String) (row : TextRow) : TextRow :=
  (rebuiltRow (db.log.watchRow user item) (db.selected user item) (db.ignored user item)
    row.untimed).timed (max row.updatedAt (max watchIso trackingIso))

/-- The row that is inserted where there was none. -/
def insertedText (now watchIso trackingIso : String) : Option TextRow :=
  (insertedRow 0 (db.log.watchRow user item) (db.selected user item)).map fun row =>
    row.timed (if max watchIso trackingIso = "" then now else max watchIso trackingIso)

end TextTables

/-- What the rebuild leaves and returns. -/
@[ext]
structure TextRefreshed where
  db : TextTables
  rebuiltItems : ℕ
  insertedItems : ℕ

/-- The loop body of `refresh_recent_tracking`; `none` where it raises.  The loop does
not write the tables of the events, which the source reads before it. -/
def TextRefreshed.item (now : String) (user : ℕ) (r : TextRefreshed) (item : ℕ) :
    Option TextRefreshed := do
  let watchIso ← r.db.latestWatchIso isoformat user item
  let trackingIso ← r.db.latestTrackingIso isoformat user item
  match r.db.progress user item with
  | none =>
    match r.db.insertedText user item now watchIso trackingIso with
    | none => some r
    | some row =>
      some { r with
        db := r.db.setProgress user item row
        insertedItems := r.insertedItems + 1 }
  | some row =>
    if r.db.rebuiltText user item watchIso trackingIso row = row.normalized then some r
    else
      some { r with
        db := r.db.setProgress user item (r.db.rebuiltText user item watchIso trackingIso row)
        rebuiltItems := r.rebuiltItems + 1 }

/-- `refresh_recent_tracking`; it commits at its end, so that nothing is written where
it raises. -/
def TextTables.refreshRecentTracking (db : TextTables) (now : String) (user : ℕ) :
    Option TextRefreshed :=
  (db.log.candidateIds db.sourceKind user).foldlM (TextRefreshed.item isoformat now user) ⟨db, 0, 0⟩

/-! ### One turn -/

/-- The tables differ in the rows of progress only. -/
structure SameEvents (db db' : TextTables) : Prop where
  watchEvents : db'.watchEvents = db.watchEvents
  trackingEvents : db'.trackingEvents = db.trackingEvents
  sourceKind : db'.sourceKind = db.sourceKind

theorem SameEvents.refl (db : TextTables) : SameEvents db db := ⟨rfl, rfl, rfl⟩

theorem SameEvents.trans {db db' db'' : TextTables} (h : SameEvents db db')
    (h' : SameEvents db' db'') : SameEvents db db'' :=
  ⟨h'.watchEvents.trans h.watchEvents, h'.trackingEvents.trans h.trackingEvents,
    h'.sourceKind.trans h.sourceKind⟩

theorem sameEvents_setProgress (db : TextTables) (user item : ℕ) (row : TextRow) :
    SameEvents db (db.setProgress user item row) := ⟨rfl, rfl, rfl⟩

theorem SameEvents.log {db db' : TextTables} (h : SameEvents db db') : db'.log = db.log := by
  rw [TextTables.log, TextTables.log, h.watchEvents, h.trackingEvents]

theorem SameEvents.selected {db db' : TextTables} (h : SameEvents db db') :
    db'.selected = db.selected := by
  funext user item
  rw [TextTables.selected, TextTables.selected, h.log, h.sourceKind]

theorem SameEvents.ignored {db db' : TextTables} (h : SameEvents db db') :
    db'.ignored = db.ignored := by
  funext user item
  rw [TextTables.ignored, TextTables.ignored, h.log, h.sourceKind, h.selected]

namespace TextTables

variable {db db' : TextTables} {user item : ℕ} {watchIso trackingIso now : String}
  {row row' : TextRow}

/-- A turn of the item has nothing to do. -/
def Settled (db : TextTables) (user item : ℕ) : Prop :=
  ∃ watchIso trackingIso, db.latestWatchIso isoformat user item = some watchIso
    ∧ db.latestTrackingIso isoformat user item = some trackingIso
    ∧ match db.progress user item with
      | none => insertedRow 0 (db.log.watchRow user item) (db.selected user item) = none
      | some row => db.rebuiltText user item watchIso trackingIso row = row.normalized

theorem Settled.congr (hsame : SameEvents db db')
    (hrow : db'.progress user item = db.progress user item) (h : Settled isoformat db user item) :
    Settled isoformat db' user item := by
  unfold Settled latestWatchIso latestTrackingIso rebuiltText at h ⊢
  rw [hrow, hsame.log, hsame.selected, hsame.ignored]
  exact h

/-- A rebuilt row is settled. -/
theorem rebuiltText_again :
    db.rebuiltText user item watchIso trackingIso
      (db.rebuiltText user item watchIso trackingIso row)
      = (db.rebuiltText user item watchIso trackingIso row).normalized := by
  have hagain := @rebuiltRow_again (db.log.watchRow user item) (db.selected user item)
    (db.ignored user item) row.untimed
  have hnormalized := @rebuiltRow_normalized (db.log.watchRow user item) (db.selected user item)
    (db.ignored user item) row.untimed
  have htimes : max (max row.updatedAt (max watchIso trackingIso)) (max watchIso trackingIso)
      = max row.updatedAt (max watchIso trackingIso) := by rw [max_assoc, max_self]
  rw [rebuiltText, rebuiltText, rebuiltRow_timed, normalized_timed, updatedAt_timed, hagain,
    hnormalized, htimes]

/-- An inserted row is settled. -/
theorem rebuiltText_inserted
    (h : db.insertedText user item now watchIso trackingIso = some row) :
    db.rebuiltText user item watchIso trackingIso row = row.normalized := by
  obtain ⟨inserted, hinserted, rfl⟩ := Option.map_eq_some_iff.mp h
  obtain ⟨updatedAt, hrow⟩ := insertedRow_eq hinserted (db.ignored user item)
  have hagain : rebuiltRow (db.log.watchRow user item) (db.selected user item)
      (db.ignored user item) inserted = inserted := by
    rw [hrow]
    exact rebuiltRow_again
  have hnormalized : inserted.normalized = inserted := by
    rw [hrow]
    exact rebuiltRow_normalized
  have htimes : ∀ latest : String, max (if latest = "" then now else latest) latest
      = if latest = "" then now else latest := by
    intro latest
    split_ifs with hempty
    · rw [hempty]
      refine max_eq_left (not_lt.mp fun hlt => ?_)
      rw [String.lt_iff_toList_lt, String.toList_empty] at hlt
      exact List.not_lt_nil _ hlt
    · exact max_self latest
  rw [rebuiltText, rebuiltRow_timed, normalized_timed, updatedAt_timed, hagain, hnormalized, htimes]

/-- The newest tracking event of the item is a bogus completion. -/
def NewestBogus (db : TextTables) (user item : ℕ) : Prop :=
  ∃ latest rest, db.log.trackingRows db.sourceKind user item = latest :: rest
    ∧ isBogusCompletion (db.sourceKind item) latest = true

theorem newestBogus_of_ignored (h : db.ignored user item = true) : NewestBogus db user item := by
  rw [ignored, rebuildIgnoredBogusCompletion.eq_def] at h
  split at h
  · next latest rest row hrows hselected =>
    exact ⟨latest, rest, hrows, ((Bool.and_eq_true _ _).mp h).2⟩
  · cases h

/-- What a row keeps through a rebuild. -/
structure Kept (db : TextTables) (user item : ℕ) (row row' : TextRow) : Prop where
  total : row'.watchSecondsTotal = row.watchSecondsTotal
    ∨ round2 (max row.watchSecondsTotal 0) ≤ row'.watchSecondsTotal
      ∧ round2 (max row'.watchSecondsTotal 0) = row'.watchSecondsTotal
  updatedAt : row.updatedAt ≤ row'.updatedAt
  completed : row.completed = true → row'.completed = true ∨ NewestBogus db user item

theorem Kept.refl (db : TextTables) (user item : ℕ) (row : TextRow) : Kept db user item row row :=
  ⟨Or.inl rfl, le_rfl, Or.inl⟩

theorem Kept.trans {row'' : TextRow} (h : Kept db user item row row')
    (h' : Kept db user item row' row'') : Kept db user item row row'' := by
  refine ⟨?_, h.updatedAt.trans h'.updatedAt, fun hcompleted =>
    (h.completed hcompleted).elim h'.completed Or.inr⟩
  rcases h.total with hsame | ⟨hle, hround⟩
  · rw [← hsame]
    exact h'.total
  · rcases h'.total with hsame | ⟨hle', hround'⟩
    · rw [hsame]
      exact Or.inr ⟨hle, hround⟩
    · rw [hround] at hle'
      exact Or.inr ⟨hle.trans hle', hround'⟩

theorem kept_rebuiltText :
    Kept db user item row (db.rebuiltText user item watchIso trackingIso row) := by
  have hkeeps := @rebuiltRow_keeps (db.log.watchRow user item) (db.selected user item)
    (db.ignored user item) row.untimed
  refine ⟨Or.inr ⟨hkeeps.1, round2_max_total _ _⟩, le_max_left _ _, fun hcompleted => ?_⟩
  by_cases hignored : db.ignored user item = true
  · exact Or.inr (newestBogus_of_ignored hignored)
  · exact Or.inl (hkeeps.2 hcompleted (by simpa using hignored))

end TextTables

open TextTables

section Turn

variable {r r' : TextRefreshed} {now : String} {user item : ℕ}

/-- A turn of a settled item. -/
theorem TextRefreshed.item_of_settled (h : Settled isoformat r.db user item) :
    r.item isoformat now user item = some r := by
  obtain ⟨watchIso, trackingIso, hwatch, htracking, hrow⟩ := h
  rw [TextRefreshed.item, hwatch, htracking]
  simp only [Option.bind_eq_bind, Option.bind_some]
  rcases hprogress : r.db.progress user item with _ | row
  · rw [hprogress] at hrow
    simp only [insertedText, hrow, Option.map_none]
  · rw [hprogress] at hrow
    simp only [if_pos hrow]

/-- What a turn does. -/
theorem TextRefreshed.item_spec (h : r.item isoformat now user item = some r') :
    SameEvents r.db r'.db ∧ Settled isoformat r'.db user item
      ∧ (∀ u i, ¬ (u = user ∧ i = item) → r'.db.progress u i = r.db.progress u i)
      ∧ ∀ row, r.db.progress user item = some row → ∃ row',
        r'.db.progress user item = some row' ∧ Kept r.db user item row row' := by
  rw [TextRefreshed.item] at h
  simp only [Option.bind_eq_bind, Option.bind_eq_some_iff] at h
  obtain ⟨watchIso, hwatch, trackingIso, htracking, h⟩ := h
  have hset : ∀ row, (r.db.setProgress user item row).progress user item = some row := fun row =>
    if_pos ⟨rfl, rfl⟩
  have hother : ∀ row u i, ¬ (u = user ∧ i = item) →
      (r.db.setProgress user item row).progress u i = r.db.progress u i := fun row u i hne =>
    if_neg hne
  rcases hprogress : r.db.progress user item with _ | row
  · rw [hprogress] at h
    rcases hinserted : r.db.insertedText user item now watchIso trackingIso with _ | row
    · rw [hinserted] at h
      cases h
      refine ⟨.refl _, ⟨watchIso, trackingIso, hwatch, htracking, ?_⟩, fun _ _ _ => rfl,
        fun row hrow => by cases hrow⟩
      rw [hprogress]
      exact Option.map_eq_none_iff.mp hinserted
    · -- the inserted row is one that a rebuild leaves alone
      rw [hinserted] at h
      cases h
      refine ⟨sameEvents_setProgress _ _ _ _, ⟨watchIso, trackingIso, hwatch, htracking, ?_⟩,
        hother row, fun row hrow => by cases hrow⟩
      simp only [hset]
      exact rebuiltText_inserted hinserted
  · rw [hprogress] at h
    by_cases hsame : r.db.rebuiltText user item watchIso trackingIso row = row.normalized
    · simp only [if_pos hsame] at h
      cases h
      refine ⟨.refl _, ⟨watchIso, trackingIso, hwatch, htracking, ?_⟩, fun _ _ _ => rfl, ?_⟩
      · rw [hprogress]
        exact hsame
      · intro row' hrow'
        cases hrow'
        exact ⟨row, hprogress, .refl _ _ _ _⟩
    · -- the row that is written is rebuilt to itself
      simp only [if_neg hsame] at h
      cases h
      refine ⟨sameEvents_setProgress _ _ _ _, ⟨watchIso, trackingIso, hwatch, htracking, ?_⟩,
        hother _, ?_⟩
      · simp only [hset]
        exact rebuiltText_again
      · intro row' hrow'
        cases hrow'
        exact ⟨_, hset _, kept_rebuiltText⟩

/-- A turn whose times have texts does not raise. -/
theorem TextRefreshed.item_isSome (hwatch : (r.db.latestWatchIso isoformat user item).isSome)
    (htracking : (r.db.latestTrackingIso isoformat user item).isSome) :
    ∃ r', r.item isoformat now user item = some r' := by
  obtain ⟨watchIso, hwatch⟩ := Option.isSome_iff_exists.mp hwatch
  obtain ⟨trackingIso, htracking⟩ := Option.isSome_iff_exists.mp htracking
  rw [TextRefreshed.item, hwatch, htracking]
  simp only [Option.bind_eq_bind, Option.bind_some]
  split
  · split
    · exact ⟨_, rfl⟩
    · exact ⟨_, rfl⟩
  · split
    · exact ⟨_, rfl⟩
    · exact ⟨_, rfl⟩

end Turn

/-! ### All turns -/

section Turns

variable {r r' : TextRefreshed} {now : String} {user : ℕ} {items : List ℕ}

/-- A settled item stays so in the turns after its own. -/
theorem TextRefreshed.settled_item {i j : ℕ} (hi : Settled isoformat r.db user i)
    (h : r.item isoformat now user j = some r') : Settled isoformat r'.db user i := by
  obtain ⟨hsame, hsettled, hother, -⟩ := TextRefreshed.item_spec isoformat h
  by_cases heq : i = j
  · rw [heq]
    exact hsettled
  · exact hi.congr isoformat hsame (hother user i fun h => heq h.2)

theorem TextRefreshed.settled_foldlM {i : ℕ} (hi : Settled isoformat r.db user i)
    (h : items.foldlM (TextRefreshed.item isoformat now user) r = some r') :
    Settled isoformat r'.db user i := by
  induction items generalizing r with
  | nil =>
    cases h
    exact hi
  | cons item items ih =>
    obtain ⟨next, hnext, hrest⟩ := Option.bind_eq_some_iff.mp h
    exact ih (TextRefreshed.settled_item isoformat hi hnext) hrest

/-- What the turns do: all items are settled, and no other row is written. -/
theorem TextRefreshed.foldlM_spec
    (h : items.foldlM (TextRefreshed.item isoformat now user) r = some r') :
    SameEvents r.db r'.db ∧ (∀ i ∈ items, Settled isoformat r'.db user i)
      ∧ (∀ u i, u ≠ user → r'.db.progress u i = r.db.progress u i)
      ∧ ∀ i row, r.db.progress user i = some row → ∃ row',
        r'.db.progress user i = some row' ∧ Kept r.db user i row row' := by
  induction items generalizing r with
  | nil =>
    cases h
    exact ⟨.refl _, fun i hi => absurd hi List.not_mem_nil, fun _ _ _ => rfl,
      fun i row hrow => ⟨row, hrow, .refl _ _ _ _⟩⟩
  | cons item items ih =>
    obtain ⟨next, hnext, hturns⟩ := Option.bind_eq_some_iff.mp h
    obtain ⟨hsame, hsettled, hother, hkept⟩ := TextRefreshed.item_spec isoformat hnext
    obtain ⟨hsame', hsettled', hother', hkept'⟩ := ih hturns
    refine ⟨hsame.trans hsame', fun i hi => ?_, fun u i hne => ?_, fun i row hrow => ?_⟩
    · rcases List.mem_cons.mp hi with rfl | hi
      · exact TextRefreshed.settled_foldlM isoformat hsettled hturns
      · exact hsettled' i hi
    · rw [hother' u i hne, hother u i fun heq => hne heq.1]
    · obtain ⟨middle, hmiddle, hfirst⟩ : ∃ middle, next.db.progress user i = some middle
          ∧ Kept r.db user i row middle := by
        by_cases heq : i = item
        · subst heq
          exact hkept row hrow
        · exact ⟨row, by rw [hother user i fun h => heq h.2, hrow], .refl _ _ _ _⟩
      obtain ⟨row', hrow', hrest⟩ := hkept' i middle hmiddle
      refine ⟨row', hrow', hfirst.trans ⟨hrest.total, hrest.updatedAt, fun hcompleted => ?_⟩⟩
      -- the newest event is that of the tables before the turns
      refine (hrest.completed hcompleted).imp_right fun hbogus => ?_
      unfold NewestBogus at hbogus ⊢
      rw [hsame.log, hsame.sourceKind] at hbogus
      exact hbogus

/-- The turns of settled items. -/
theorem TextRefreshed.foldlM_of_settled (h : ∀ i ∈ items, Settled isoformat r.db user i) :
    items.foldlM (TextRefreshed.item isoformat now user) r = some r := by
  induction items with
  | nil => rfl
  | cons item items ih =>
    rw [List.foldlM_cons,
      TextRefreshed.item_of_settled isoformat (h item List.mem_cons_self)]
    exact ih fun i hi => h i (List.mem_cons_of_mem item hi)

/-- The turns do not raise where the times of all items have texts. -/
theorem TextRefreshed.foldlM_isSome
    (h : ∀ i, (r.db.latestWatchIso isoformat user i).isSome
      ∧ (r.db.latestTrackingIso isoformat user i).isSome) :
    ∃ r', items.foldlM (TextRefreshed.item isoformat now user) r = some r' := by
  induction items generalizing r with
  | nil => exact ⟨r, rfl⟩
  | cons item items ih =>
    obtain ⟨next, hnext⟩ := @TextRefreshed.item_isSome isoformat r now user item
      (h item).1 (h item).2
    obtain ⟨hsame, -⟩ := TextRefreshed.item_spec isoformat hnext
    obtain ⟨r', hr'⟩ := @ih next (by
      intro i
      unfold latestWatchIso latestTrackingIso
      rw [hsame.log, hsame.selected]
      exact h i)
    exact ⟨r', by rw [List.foldlM_cons, hnext]; exact hr'⟩

end Turns

/-! ### The rebuild, run again -/

section Refresh

variable {db : TextTables} {user : ℕ}

theorem foldr_max_mem (l : List ℕ) : l.foldr max 0 = 0 ∨ l.foldr max 0 ∈ l := by
  induction l with
  | nil => exact Or.inl rfl
  | cons x l ih =>
    rw [List.foldr_cons]
    rcases le_total x (l.foldr max 0) with hle | hle
    · rw [max_eq_right hle]
      exact ih.imp_right (List.mem_cons_of_mem x)
    · rw [max_eq_left hle]
      exact Or.inr List.mem_cons_self

/-- The times of the rebuild are those of events of the user. -/
theorem latestIso_isSome
    (hwatch : ∀ e ∈ db.watchEvents, e.userId = user →
      (epochIso isoformat e.recordedAtEpoch).isSome)
    (htracking : ∀ e ∈ db.trackingEvents, e.userId = user →
      (epochIso isoformat e.recordedAtEpoch).isSome) (item : ℕ) :
    (db.latestWatchIso isoformat user item).isSome
      ∧ (db.latestTrackingIso isoformat user item).isSome := by
  constructor
  · rw [latestWatchIso, Tables.watchRow.eq_def]
    rcases hevents : db.log.watchEventsOf user item with _ | ⟨e, events⟩
    · rfl
    · rcases foldr_max_mem ((e :: events).map WatchEvent.recordedAtEpoch) with hzero | hmem
      · simp only [Option.map_some, Option.getD_some, hzero]
        rfl
      · obtain ⟨latest, hlatest, hepoch⟩ := List.mem_map.mp hmem
        rw [← hevents] at hlatest
        obtain ⟨hlog, huser, -⟩ := Tables.mem_watchEventsOf.mp hlatest
        simp only [Option.map_some, Option.getD_some, ← hepoch]
        exact hwatch latest hlog huser
  · rw [latestTrackingIso]
    rcases hselected : db.selected user item with _ | e
    · rfl
    · obtain ⟨hlog, huser, -⟩ := Tables.mem_trackingRows (Tables.selected_mem hselected)
      exact htracking e hlog huser

/-- What holds after a rebuild. -/
theorem refresh_settles {now : String} {r : TextRefreshed}
    (h : db.refreshRecentTracking isoformat now user = some r) :
    SameEvents db r.db
      ∧ (∀ i ∈ db.log.candidateIds db.sourceKind user, Settled isoformat r.db user i)
      ∧ (∀ u i, u ≠ user → r.db.progress u i = db.progress u i)
      ∧ ∀ i row, db.progress user i = some row → ∃ row',
        r.db.progress user i = some row' ∧ Kept db user i row row' :=
  TextRefreshed.foldlM_spec isoformat h

/-- The rebuild returns where the epochs of the user's events have texts.  It leaves
the rows of other users as they are; it keeps `updated_at` and a total of two digits
from falling, and any total from falling below its two digits; it takes back a
completion only for a bogus one; and a second run changes nothing. -/
theorem rebuild_fixpoint (db : TextTables) (now : String) (user : ℕ) :
    ((∀ e ∈ db.watchEvents, e.userId = user → (epochIso isoformat e.recordedAtEpoch).isSome) →
      (∀ e ∈ db.trackingEvents, e.userId = user → (epochIso isoformat e.recordedAtEpoch).isSome) →
      ∃ r, db.refreshRecentTracking isoformat now user = some r)
    ∧ ∀ r, db.refreshRecentTracking isoformat now user = some r →
      (∀ later, r.db.refreshRecentTracking isoformat later user = some ⟨r.db, 0, 0⟩)
      ∧ (∀ other item, other ≠ user → r.db.progress other item = db.progress other item)
      ∧ ∀ item row, db.progress user item = some row → ∃ row',
        r.db.progress user item = some row'
          ∧ (row'.watchSecondsTotal = row.watchSecondsTotal
            ∨ round2 (max row.watchSecondsTotal 0) ≤ row'.watchSecondsTotal)
          ∧ (Cents row.watchSecondsTotal → row.watchSecondsTotal ≤ row'.watchSecondsTotal)
          ∧ row.updatedAt ≤ row'.updatedAt
          ∧ (row.completed = true → row'.completed = false → NewestBogus db user item) := by
  refine ⟨fun hwatch htracking => ?_, fun r h => ?_⟩
  · exact TextRefreshed.foldlM_isSome isoformat (latestIso_isSome isoformat hwatch htracking)
  · obtain ⟨hsame, hsettled, hother, hkept⟩ := refresh_settles isoformat h
    refine ⟨fun later => ?_, fun other item hne => hother other item hne, fun item row hrow => ?_⟩
    · refine TextRefreshed.foldlM_of_settled isoformat fun i hi => hsettled i ?_
      rw [hsame.log, hsame.sourceKind] at hi
      exact hi
    · obtain ⟨row', hrow', hkept⟩ := hkept item row hrow
      refine ⟨row', hrow', hkept.total.imp_right And.left, fun hcents => ?_, hkept.updatedAt,
        fun hcompleted hundone => ?_⟩
      · rcases hkept.total with hequal | ⟨hle, -⟩
        · exact hequal.ge
        · rcases le_total 0 row.watchSecondsTotal with hpos | hneg
          · rw [max_eq_left hpos, hcents.round2] at hle
            exact hle
          · rw [max_eq_right hneg, cents_zero.round2] at hle
            exact hneg.trans hle
      · refine (hkept.completed hcompleted).resolve_left fun hdone => ?_
        rw [hdone] at hundone
        cases hundone

/-- The text of one epoch. -/
def novemberIso (epoch : ℕ) : Option String :=
  if epoch = 1700000000 then some "2023-11-14T22:13:20+00:00" else none

/-- A row whose total has three digits, and a later event somewhere else in the film. -/
def threeDigits : TextTables where
  progress user item :=
    if user = 1 ∧ item = 7 then
      some ⟨0, none, 10004 / 1000, false, "2023-01-01T00:00:00+00:00"⟩
    else none
  watchEvents := []
  trackingEvents :=
    [⟨1, 7, .playbackProgress, .other, .other, some 60, none, false, 1700000000⟩]
  sourceKind := fun _ => some .other

theorem rebuild_fixpoint_threeDigits :
    ∃ r, threeDigits.refreshRecentTracking novemberIso "2024-01-01T00:00:00+00:00" 1 = some r
      ∧ ∀ later, r.db.refreshRecentTracking novemberIso later 1 = some ⟨r.db, 0, 0⟩ := by
  obtain ⟨hreturns, hkeeps⟩ := rebuild_fixpoint novemberIso threeDigits
    "2024-01-01T00:00:00+00:00" 1
  obtain ⟨r, hr⟩ := hreturns (fun e he => absurd he List.not_mem_nil) (by
    intro e he _
    rw [List.mem_singleton.mp he]
    rfl)
  exact ⟨r, hr, (hkeeps r hr).1⟩

/-- The total is rounded when the position changes. -/
theorem rebuild_rounds_total :
    ∃ r row row', threeDigits.refreshRecentTracking novemberIso "2024-01-01T00:00:00+00:00" 1
        = some r
      ∧ threeDigits.progress 1 7 = some row ∧ r.db.progress 1 7 = some row'
      ∧ row'.watchSecondsTotal < row.watchSecondsTotal := by
  have htotal : ((threeDigits.refreshRecentTracking novemberIso "2024-01-01T00:00:00+00:00" 1).bind
      fun r => (r.db.progress 1 7).map TextRow.watchSecondsTotal) = some 10 := by decide +kernel
  obtain ⟨r, hr, htotal⟩ := Option.bind_eq_some_iff.mp htotal
  obtain ⟨row', hrow', htotal⟩ := Option.map_eq_some_iff.mp htotal
  refine ⟨r, _, row', hr, rfl, hrow', ?_⟩
  rw [htotal]
  norm_num

end Refresh

end Progress
