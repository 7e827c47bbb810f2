/-
Playback progress and its event log (`progress.py`).

`save_progress` reads the row of the user and the item, and then writes the row, a watch event for
the watched seconds, and, where an event type and a playback mode are given, a tracking event;
`refresh_recent_tracking` rebuilds the rows of a user from the two event tables.  Seconds are exact
decimals; instants are microseconds of one clock, so that they compare as their ISO texts do.
-/
import Mathlib.Data.Rat.Floor
import Mathlib.Data.List.Dedup
import Mathlib.Data.List.Sort

namespace Progress

/-- `FIRST_PROGRESS_SAMPLE_CAP_SECONDS` -/
def firstProgressSampleCapSeconds : ℚ := 10

/-- `PROGRESS_SAMPLE_SLACK_SECONDS` -/
def progressSampleSlackSeconds : ℚ := 2

/-- `PROGRESS_SAMPLE_MAX_INCREMENT_SECONDS` -/
def progressSampleMaxIncrementSeconds : ℚ := 30

/-- `event_type`; the first four are `TRACKING_EVENT_PROGRESS_TYPES`. -/
inductive EventType where
  | playbackProgress
  | playbackSeeked
  | playbackStopped
  | playbackCompleted
  | other
  deriving DecidableEq

/-- The type is one of `TRACKING_EVENT_PROGRESS_TYPES`. -/
def EventType.tracksProgress (t : EventType) : Bool := decide (t ≠ .other)

/-- `playback_mode`, as far as it is looked at -/
inductive PlaybackMode where
  | vlcExternal
  | other
  deriving DecidableEq

/-- `tracking_source`, as far as it is looked at -/
inductive TrackingSource where
  | inferred
  | other
  deriving DecidableEq

/-- `COALESCE(source_kind, 'local')`, as far as it is looked at -/
inductive SourceKind where
  | cloud
  | other
  deriving DecidableEq

/-- `playback_progress`, under its key -/
@[ext]
structure ProgressRow where
  positionSeconds : ℚ
  durationSeconds : Option ℚ
  watchSecondsTotal : ℚ
  completed : Bool
  updatedAt : ℕ
  deriving DecidableEq

/-- `playback_watch_events` -/
structure WatchEvent where
  userId : ℕ
  mediaItemId : ℕ
  watchedSeconds : ℚ
  recordedAtEpoch : ℕ
  deriving DecidableEq

/-- `playback_tracking_events` -/
structure TrackingEvent where
  userId : ℕ
  mediaItemId : ℕ
  eventType : EventType
  playbackMode : PlaybackMode
  trackingSource : TrackingSource
  positionSeconds : Option ℚ
  durationSeconds : Option ℚ
  completed : Bool
  recordedAtEpoch : ℕ
  deriving DecidableEq

/-- The tables; events stand in the order of their ids. -/
structure Tables where
  progress : ℕ → ℕ → Option ProgressRow
  watchEvents : List WatchEvent
  trackingEvents : List TrackingEvent

/-- No progress and no events. -/
def Tables.empty : Tables :=
  { progress := fun _ _ => none, watchEvents := [], trackingEvents := [] }

/-- The nearest integer, the even one of two. -/
def roundHalfEven (x : ℚ) : ℤ :=
  let rest := x - ⌊x⌋
  if rest < 1 / 2 then ⌊x⌋
  else if 1 / 2 < rest then ⌊x⌋ + 1
  else if ⌊x⌋ % 2 = 0 then ⌊x⌋
  else ⌊x⌋ + 1

/-- `round(x, 2)` -/
def round2 (x : ℚ) : ℚ := roundHalfEven (100 * x) / 100

/-- `ROUND(x, 2)` of SQLite, which rounds halves away from zero. -/
def sqlRound2 (x : ℚ) : ℚ := if 0 ≤ x then ⌊100 * x + 1 / 2⌋ / 100 else -(⌊100 * -x + 1 / 2⌋ / 100)

/-- The arguments of `save_progress`, and the time of its clock. -/
structure SaveCall where
  userId : ℕ
  mediaItemId : ℕ
  positionSeconds : ℚ
  durationSeconds : Option ℚ
  completed : Bool
  playbackMode : Option PlaybackMode
  eventType : Option EventType
  occurredAt : Option ℕ
  trackingSource : TrackingSource
  countWatchIncrement : Bool
  now : ℕ

namespace SaveCall

variable (call : SaveCall)

/-- `clamped_position` -/
def clampedPosition : ℚ :=
  match call.durationSeconds with
  | some d => min (max call.positionSeconds 0) d
  | none => max call.positionSeconds 0

/-- `auto_completed` -/
def autoCompleted : Bool :=
  match call.durationSeconds with
  | some d => decide (0 < d) &&
      decide (max (d - call.clampedPosition) 0 ≤ max (d * (3 / 100)) 30)
  | none => false

/-- `is_completed` -/
def isCompleted : Bool := call.completed || call.autoCompleted

/-- `stored_position` -/
def storedPosition : ℚ := if call.isCompleted then 0 else round2 call.clampedPosition

/-- `recorded_at_epoch` -/
def recordedAtEpoch : ℕ := call.occurredAt.getD call.now / 1000000

/-- `_compute_watch_seconds_increment` -/
def watchSecondsIncrement (existing : Option ProgressRow) : ℚ :=
  if call.countWatchIncrement = false then 0
  else
    match existing with
    | none =>
      if call.clampedPosition ≤ 0 then 0
      else round2 (min call.clampedPosition firstProgressSampleCapSeconds)
    | some row =>
      let rawDelta := call.clampedPosition - row.positionSeconds
      if rawDelta ≤ 0 then 0
      else
        let elapsed : ℚ := max (((call.now : ℚ) - row.updatedAt) / 1000000) 0
        round2 (max (min rawDelta (min (elapsed + progressSampleSlackSeconds)
          progressSampleMaxIncrementSeconds)) 0)

/-- `watch_seconds_total` -/
def watchSecondsTotal (existing : Option ProgressRow) : ℚ :=
  round2 ((existing.map ProgressRow.watchSecondsTotal).getD 0 + call.watchSecondsIncrement existing)

/-- `stored_duration_seconds` -/
def storedDuration (existing : Option ProgressRow) : Option ℚ :=
  call.durationSeconds.or (existing.bind ProgressRow.durationSeconds)

/-- The tracking event of the call, if it logs one. -/
def trackingEvent (existing : Option ProgressRow) : Option TrackingEvent :=
  match call.eventType, call.playbackMode with
  | some eventType, some playbackMode => some
      { userId := call.userId
        mediaItemId := call.mediaItemId
        eventType
        playbackMode
        trackingSource := call.trackingSource
        positionSeconds :=
          some (if call.isCompleted then call.storedPosition else call.clampedPosition)
        durationSeconds := call.storedDuration existing
        completed := call.isCompleted
        recordedAtEpoch := call.recordedAtEpoch }
  | _, _ => none

end SaveCall

namespace Tables

/-- Write the row of a user and an item. -/
def setProgress (db : Tables) (user item : ℕ) (row : ProgressRow) : Tables :=
  { db with progress := fun u i => if u = user ∧ i = item then some row else db.progress u i }

/-- `SELECT … FROM playback_progress WHERE user_id = ? AND media_item_id = ?` of `save_progress` -/
def existingRow (db : Tables) (call : SaveCall) : Option ProgressRow :=
  db.progress call.userId call.mediaItemId

/-- The transaction of `save_progress`, when its `SELECT` has found `existing`. -/
def saveTransaction (db : Tables) (call : SaveCall) (existing : Option ProgressRow) : Tables :=
  let stored := call.storedDuration existing
  -- INSERT … ON CONFLICT(user_id, media_item_id) DO UPDATE
  let durationSeconds := stored.or ((db.existingRow call).bind ProgressRow.durationSeconds)
  let db := db.setProgress call.userId call.mediaItemId
    { positionSeconds := call.storedPosition
      durationSeconds
      watchSecondsTotal := call.watchSecondsTotal existing
      completed := call.isCompleted
      updatedAt := call.now }
  let watched := call.watchSecondsIncrement existing
  let db := if 0 < watched then
      { db with watchEvents := db.watchEvents ++
          [⟨call.userId, call.mediaItemId, watched, call.recordedAtEpoch⟩] }
    else db
  { db with trackingEvents := db.trackingEvents ++ (call.trackingEvent existing).toList }

/-- `save_progress`, with nothing between its `SELECT` and its transaction. -/
def saveProgress (db : Tables) (call : SaveCall) : Tables :=
  db.saveTransaction call (db.existingRow call)

/-- The watch events of a user for an item. -/
def watchEventsOf (db : Tables) (user item : ℕ) : List WatchEvent :=
  db.watchEvents.filter fun e => decide (e.userId = user ∧ e.mediaItemId = item)

/-- `SUM(watched_seconds)` -/
def watchedSeconds (db : Tables) (user item : ℕ) : ℚ :=
  ((db.watchEventsOf user item).map WatchEvent.watchedSeconds).sum

/-! ### The rebuild -/

/-- The watch row of an item: `ROUND(SUM(watched_seconds), 2)` and `MAX(recorded_at_epoch)`. -/
def watchRow (db : Tables) (user item : ℕ) : Option (ℚ × ℕ) :=
  match db.watchEventsOf user item with
  | [] => none
  | events => some (sqlRound2 (db.watchedSeconds user item),
      (events.map WatchEvent.recordedAtEpoch).foldr max 0)

/-- The tracking rows of an item, the latest first: of `TRACKING_EVENT_PROGRESS_TYPES`, and only
where the item is in `media_items`. -/
def trackingRows (db : Tables) (sourceKind : ℕ → Option SourceKind) (user item : ℕ) :
    List TrackingEvent :=
  if (sourceKind item).isSome then
    ((db.trackingEvents.filter fun e => decide (e.userId = user ∧ e.mediaItemId = item) &&
      e.eventType.tracksProgress).reverse).insertionSort
        fun e e' => e'.recordedAtEpoch ≤ e.recordedAtEpoch
  else []

/-- `candidate_media_item_ids` -/
def candidateIds (db : Tables) (sourceKind : ℕ → Option SourceKind) (user : ℕ) : List ℕ :=
  (((db.watchEvents.filter fun e => decide (e.userId = user)).map WatchEvent.mediaItemId ++
    (db.trackingEvents.filter fun e => decide (e.userId = user) && e.eventType.tracksProgress &&
      (sourceKind e.mediaItemId).isSome).map TrackingEvent.mediaItemId).dedup).insertionSort (· ≤ ·)

end Tables

/-- `_is_bogus_inferred_cloud_vlc_completion` -/
def isBogusCompletion (kind : Option SourceKind) (e : TrackingEvent) : Bool :=
  decide (e.trackingSource = .inferred) && decide (e.playbackMode = .vlcExternal) &&
    decide (kind = some .cloud) && e.completed && decide (e.positionSeconds.getD 0 ≤ 0)

/-- The event is of a playback that goes on somewhere after the start. -/
def isResumable (e : TrackingEvent) : Bool :=
  !e.completed && decide (0 < e.positionSeconds.getD 0)

/-- `_select_rebuild_tracking_row` -/
def selectRebuildTrackingRow (kind : Option SourceKind) : List TrackingEvent → Option TrackingEvent
  | [] => none
  | latest :: rows =>
    if isBogusCompletion kind latest then
      some (((latest :: rows).find? isResumable).getD latest)
    else some latest

/-- `_rebuild_ignored_bogus_completion` -/
def rebuildIgnoredBogusCompletion (kind : Option SourceKind) (rows : List TrackingEvent)
    (selected : Option TrackingEvent) : Bool :=
  match rows, selected with
  | latest :: _, some row => decide (latest ≠ row) && isBogusCompletion kind latest
  | _, _ => false

/-- `aggregated_watch_seconds` -/
def aggregatedWatchSeconds (watch : Option (ℚ × ℕ)) :
    ℚ := round2 ((watch.map fun w => max w.1 0).getD 0)

/-- The later of the instants of the watch row and of the selected tracking row, or `0`. -/
def latestEventTime (watch : Option (ℚ × ℕ)) (selected : Option TrackingEvent) : ℕ :=
  max ((watch.map Prod.snd).getD 0 * 1000000)
    ((selected.map TrackingEvent.recordedAtEpoch).getD 0 * 1000000)

/-- An existing row as it is compared. -/
def ProgressRow.normalized (row : ProgressRow) : ProgressRow :=
  { row with
    positionSeconds := round2 (max row.positionSeconds 0)
    watchSecondsTotal := round2 (max row.watchSecondsTotal 0) }

/-- The `next_…` values for an existing row. -/
def rebuiltRow (watch : Option (ℚ × ℕ)) (selected : Option TrackingEvent) (ignored : Bool)
    (row : ProgressRow) : ProgressRow :=
  let existing := row.normalized
  let completed := if ignored then false else existing.completed
  { positionSeconds :=
      match selected with
      | none => existing.positionSeconds
      | some e =>
        if e.completed then 0
        else
          match e.positionSeconds with
          | none => existing.positionSeconds
          | some position => round2 (max position 0)
    durationSeconds := (selected.bind TrackingEvent.durationSeconds).or existing.durationSeconds
    watchSecondsTotal := max existing.watchSecondsTotal (aggregatedWatchSeconds watch)
    completed := completed || (selected.map TrackingEvent.completed).getD false
    updatedAt := max existing.updatedAt (latestEventTime watch selected) }

/-- The row that is inserted where there was none. -/
def insertedRow (now : ℕ) (watch : Option (ℚ × ℕ)) (selected : Option TrackingEvent) :
    Option ProgressRow :=
  if aggregatedWatchSeconds watch ≤ 0 ∧ selected = none then none
  else
    let completed := (selected.map TrackingEvent.completed).getD false
    some
      { positionSeconds := if completed then 0
          else round2 ((selected.map fun e => max (e.positionSeconds.getD 0) 0).getD 0)
        durationSeconds := selected.bind TrackingEvent.durationSeconds
        watchSecondsTotal := aggregatedWatchSeconds watch
        completed
        updatedAt := if latestEventTime watch selected = 0 then now
          else latestEventTime watch selected }

/-- What `refresh_recent_tracking` leaves and returns. -/
structure Refreshed where
  db : Tables
  rebuiltItems : ℕ
  insertedItems : ℕ

/-- The loop body of `refresh_recent_tracking`: the events are those read before the loop. -/
def Refreshed.item (events : Tables) (sourceKind : ℕ → Option SourceKind) (now user : ℕ)
    (r : Refreshed) (item : ℕ) : Refreshed :=
  let watch := events.watchRow user item
  let rows := events.trackingRows sourceKind user item
  let selected := selectRebuildTrackingRow (sourceKind item) rows
  let ignored := rebuildIgnoredBogusCompletion (sourceKind item) rows selected
  match r.db.progress user item with
  | none =>
    match insertedRow now watch selected with
    | none => r
    | some row =>
      { r with db := r.db.setProgress user item row, insertedItems := r.insertedItems + 1 }
  | some row =>
    if rebuiltRow watch selected ignored row = row.normalized then r
    else
      { r with
        db := r.db.setProgress user item (rebuiltRow watch selected ignored row)
        rebuiltItems := r.rebuiltItems + 1 }

/-- `refresh_recent_tracking` -/
def Tables.refreshRecentTracking (db : Tables) (sourceKind : ℕ → Option SourceKind)
    (now user : ℕ) : Refreshed :=
  (db.candidateIds sourceKind user).foldl (Refreshed.item db sourceKind now user) ⟨db, 0, 0⟩

end Progress
