/-
The rebuild of progress after a run of saves.

`refresh_recent_tracking` recomputes each row from the two event tables.  After any run of saves:

* `saves_consistent` — the events are in the order of their epochs, none is later than its row, and
  the totals are the sums;
* `refresh_progress` — the rebuilt row of an item depends on its own events only;
* `rebuilt_of_agrees` — a row whose last save logged the selected event is rebuilt as it was;
* `refresh_keeps_progress` — what the rebuild changes in a row, by the last save of the item.
-/
import Mathlib.Algebra.Order.BigOperators.Group.List
import Mathlib.Data.List.Induction
import Elvern.WatchTime

open WatchTime

namespace Progress

/-! ### Rounding -/

theorem round2_nonpos {x : ℚ} (h : x ≤ 0) : round2 x ≤ 0 := by
  have hround : roundHalfEven (100 * x) ≤ 0 := by
    have hfloor : ⌊100 * x⌋ ≤ 0 := by
      have : (⌊100 * x⌋ : ℚ) ≤ 0 := (Int.floor_le _).trans (by linarith)
      exact_mod_cast this
    have hneg : ⌊100 * x⌋ = 0 → 100 * x - ⌊100 * x⌋ < 1 / 2 := by
      intro h0
      rw [h0, Int.cast_zero]
      linarith
    rw [roundHalfEven]
    split
    · exact hfloor
    · next hhalf =>
      have : ⌊100 * x⌋ ≠ 0 := fun h0 => hhalf (hneg h0)
      split
      · omega
      · split <;> omega
  have hcast : (roundHalfEven (100 * x) : ℚ) ≤ 0 := by exact_mod_cast hround
  exact div_nonpos_of_nonpos_of_nonneg hcast (by norm_num)

/-- The position of a row and the position of its event are rounded to the same. -/
theorem round2_max_round2 (x : ℚ) : round2 (max (round2 x) 0) = round2 (max x 0) := by
  rcases le_total 0 x with h | h
  · rw [max_eq_left h, max_eq_left (round2_nonneg h), (cents_round2 x).round2]
  · rw [max_eq_right h, max_eq_right (round2_nonpos h)]

theorem Cents.sqlRound2 {x : ℚ} (hx : Cents x) (h : 0 ≤ x) : sqlRound2 x = x := by
  obtain ⟨n, rfl⟩ := hx
  have hfloor : ⌊(100 : ℚ) * (n / 100) + 1 / 2⌋ = n := by
    rw [show (100 : ℚ) * (n / 100) + 1 / 2 = n + 1 / 2 by ring, Int.floor_intCast_add]
    norm_num
  rw [Progress.sqlRound2, if_pos h, hfloor]

namespace SaveCall

variable (call : SaveCall)

/-- The call logs an event of `TRACKING_EVENT_PROGRESS_TYPES`. -/
def logsProgress : Bool := (call.eventType.any EventType.tracksProgress) && call.playbackMode.isSome

/-- The event that the call logs is a bogus completion. -/
def isBogus (kind : Option SourceKind) : Bool :=
  decide (call.trackingSource = .inferred) && decide (call.playbackMode = some .vlcExternal) &&
    decide (kind = some .cloud) && call.isCompleted

/-- The event of a call that logs progress. -/
theorem trackingEvent_eq_some {existing : Option ProgressRow} {e : TrackingEvent}
    (h : call.trackingEvent existing = some e) :
    e.userId = call.userId ∧ e.mediaItemId = call.mediaItemId ∧
      e.eventType.tracksProgress = call.logsProgress ∧
      some e.playbackMode = call.playbackMode ∧ e.trackingSource = call.trackingSource ∧
      e.positionSeconds =
        some (if call.isCompleted then call.storedPosition else call.clampedPosition) ∧
      e.durationSeconds = call.storedDuration existing ∧ e.completed = call.isCompleted ∧
      e.recordedAtEpoch = call.recordedAtEpoch := by
  rw [trackingEvent] at h
  split at h
  · next htype hmode =>
    cases h
    refine ⟨rfl, rfl, ?_, hmode.symm, rfl, rfl, rfl, rfl, rfl⟩
    rw [logsProgress, htype, hmode, Option.any_some, Option.isSome_some, Bool.and_true]
  · cases h

theorem trackingEvent_isSome_of_logsProgress (h : call.logsProgress = true)
    (existing : Option ProgressRow) : ∃ e, call.trackingEvent existing = some e := by
  rw [logsProgress, Bool.and_eq_true] at h
  obtain ⟨htype, hmode⟩ := h
  obtain ⟨mode, hmode⟩ := Option.isSome_iff_exists.mp hmode
  obtain ⟨type, htype, -⟩ := (Option.any_eq_true _ _).mp htype
  rw [trackingEvent, htype, hmode]
  exact ⟨_, rfl⟩

end SaveCall

namespace Tables

variable (db : Tables) (call : SaveCall) (existing : Option ProgressRow)

theorem saveTransaction_trackingEvents : (db.saveTransaction call existing).trackingEvents =
    db.trackingEvents ++ (call.trackingEvent existing).toList := by
  simp only [saveTransaction, setProgress]
  split <;> rfl

theorem saveTransaction_watchEvents : (db.saveTransaction call existing).watchEvents =
    db.watchEvents ++ if 0 < call.watchSecondsIncrement existing then
      [⟨call.userId, call.mediaItemId, call.watchSecondsIncrement existing, call.recordedAtEpoch⟩]
    else [] := by
  simp only [saveTransaction, setProgress]
  split
  · rfl
  · rw [List.append_nil]

/-- What holds of the tables after saves up to an instant. -/
structure Consistent (db : Tables) (clock : ℕ) : Prop where
  balanced : Balanced db
  sorted : db.trackingEvents.Pairwise fun e e' => e.recordedAtEpoch ≤ e'.recordedAtEpoch
  tracked : ∀ e ∈ db.trackingEvents, ∃ row, db.progress e.userId e.mediaItemId = some row ∧
    e.recordedAtEpoch * 1000000 ≤ row.updatedAt
  watched : ∀ e ∈ db.watchEvents, 0 < e.watchedSeconds ∧
    ∃ row, db.progress e.userId e.mediaItemId = some row ∧
      e.recordedAtEpoch * 1000000 ≤ row.updatedAt
  updated : ∀ user item row, db.progress user item = some row → row.updatedAt ≤ clock

theorem consistent_empty (clock : ℕ) : Consistent .empty clock :=
  ⟨balanced_empty, List.Pairwise.nil, fun _ h => absurd h List.not_mem_nil,
    fun _ h => absurd h List.not_mem_nil, fun _ _ _ h => nomatch h⟩

variable {db call}

theorem Consistent.mono {clock clock' : ℕ} (h : db.Consistent clock) (hle : clock ≤ clock') :
    db.Consistent clock' :=
  { h with updated := fun user item row hrow => (h.updated user item row hrow).trans hle }

/-- One save at a clock that has not gone back. -/
theorem Consistent.saveProgress {clock : ℕ} (h : db.Consistent clock)
    (hoccurred : call.occurredAt = none) (hclock : clock ≤ call.now) :
    (db.saveProgress call).Consistent call.now := by
  have hepoch : call.recordedAtEpoch = call.now / 1000000 := by
    rw [SaveCall.recordedAtEpoch, hoccurred, Option.getD_none]
  have hepochLe : call.recordedAtEpoch * 1000000 ≤ call.now := by
    rw [hepoch]
    exact Nat.div_mul_le_self _ _
  have hrow := db.saveTransaction_progress call (db.existingRow call)
  -- the row of the call gets its time, the others keep theirs
  have hkeeps : ∀ user item row, db.progress user item = some row →
      ∃ row', (db.saveProgress call).progress user item = some row' ∧
        row.updatedAt ≤ row'.updatedAt := by
    intro user item row hold
    by_cases hkey : user = call.userId ∧ item = call.mediaItemId
    · obtain ⟨rfl, rfl⟩ := hkey
      exact ⟨_, hrow, (h.updated _ _ row hold).trans hclock⟩
    · exact ⟨row, by rw [Tables.saveProgress, saveTransaction_progress_ne _ _ _ hkey, hold], le_rfl⟩
  constructor
  · exact h.balanced.saveTransaction rfl
  · rw [Tables.saveProgress, saveTransaction_trackingEvents, List.pairwise_append]
    refine ⟨h.sorted, ?_, fun e he e' he' => ?_⟩
    · rcases call.trackingEvent (db.existingRow call) with _ | e
      · exact List.Pairwise.nil
      · exact List.pairwise_singleton _ e
    · obtain ⟨-, -, -, -, -, -, -, -, hrecorded⟩ :=
        call.trackingEvent_eq_some (Option.mem_toList.mp he')
      obtain ⟨row, hold, hle⟩ := h.tracked e he
      have hnow : e.recordedAtEpoch * 1000000 ≤ call.now :=
        hle.trans ((h.updated _ _ row hold).trans hclock)
      rw [hrecorded, hepoch]
      exact (Nat.le_div_iff_mul_le (by norm_num)).mpr hnow
  · intro e he
    rw [Tables.saveProgress, saveTransaction_trackingEvents, List.mem_append] at he
    rcases he with he | he
    · obtain ⟨row, hold, hle⟩ := h.tracked e he
      obtain ⟨row', hnew, hle'⟩ := hkeeps _ _ row hold
      exact ⟨row', hnew, hle.trans hle'⟩
    · obtain ⟨huser, hitem, -, -, -, -, -, -, hrecorded⟩ :=
        call.trackingEvent_eq_some (Option.mem_toList.mp he)
      rw [huser, hitem, hrecorded]
      exact ⟨_, hrow, hepochLe⟩
  · intro e he
    rw [Tables.saveProgress, saveTransaction_watchEvents, List.mem_append] at he
    rcases he with he | he
    · obtain ⟨hpos, row, hold, hle⟩ := h.watched e he
      obtain ⟨row', hnew, hle'⟩ := hkeeps _ _ row hold
      exact ⟨hpos, row', hnew, hle.trans hle'⟩
    · split at he
      · next hpos =>
        rw [List.mem_singleton.mp he]
        exact ⟨hpos, _, hrow, hepochLe⟩
      · cases he
  · intro user item row hnew
    by_cases hkey : user = call.userId ∧ item = call.mediaItemId
    · obtain ⟨rfl, rfl⟩ := hkey
      rw [Tables.saveProgress, hrow] at hnew
      rw [← Option.some.inj hnew]
    · rw [Tables.saveProgress, saveTransaction_progress_ne _ _ _ hkey] at hnew
      exact (h.updated user item row hnew).trans hclock

end Tables

/-- The tables after a run of saves. -/
def saves (calls : List SaveCall) : Tables := calls.foldl Tables.saveProgress .empty

theorem saves_append_singleton (calls : List SaveCall) (call : SaveCall) :
    saves (calls ++ [call]) = (saves calls).saveProgress call := by
  rw [saves, List.foldl_append, saves]
  rfl

/-- The tables of a run are consistent at any instant from its last save on. -/
theorem saves_consistent (calls : List SaveCall)
    (hclock : calls.Pairwise fun c c' => c.now ≤ c'.now)
    (hoccurred : ∀ c ∈ calls, c.occurredAt = none) :
    ∀ clock, (∀ c ∈ calls, c.now ≤ clock) → (saves calls).Consistent clock := by
  induction calls using List.reverseRecOn with
  | nil => exact fun clock _ => Tables.consistent_empty clock
  | append_singleton calls call ih =>
    intro clock hle
    obtain ⟨hbefore, -, hcross⟩ := List.pairwise_append.mp hclock
    have hstep := (ih hbefore (fun c hc => hoccurred c (List.mem_append_left _ hc)) call.now
      fun c hc => hcross c hc call List.mem_cons_self).saveProgress
        (hoccurred call (List.mem_append_right _ List.mem_cons_self)) le_rfl
    rw [saves_append_singleton]
    exact hstep.mono (hle call (List.mem_append_right _ List.mem_cons_self))

/-! ### One item of the rebuild -/

namespace Tables

variable {db : Tables} {clock user item : ℕ} {row : ProgressRow}

theorem mem_watchEventsOf {e : WatchEvent} : e ∈ db.watchEventsOf user item ↔
    e ∈ db.watchEvents ∧ e.userId = user ∧ e.mediaItemId = item := by
  rw [watchEventsOf, List.mem_filter, decide_eq_true_eq]

/-- The sum of the watch events is the total of the row, which is not negative. -/
theorem Consistent.watched_eq (h : db.Consistent clock) (hrow : db.progress user item = some row) :
    db.watchedSeconds user item = row.watchSecondsTotal ∧ 0 ≤ row.watchSecondsTotal ∧
      Cents row.watchSecondsTotal := by
  have htotal : db.watchTotal user item = row.watchSecondsTotal := by
    rw [watchTotal, hrow]
    rfl
  have heq := h.balanced.total user item
  rw [htotal] at heq
  refine ⟨heq.symm, ?_, htotal ▸ h.balanced.cents user item⟩
  rw [heq, watchedSeconds]
  refine List.sum_nonneg fun x hx => ?_
  obtain ⟨e, he, rfl⟩ := List.mem_map.mp hx
  exact (h.watched e (mem_watchEventsOf.mp he).1).1.le

/-- The watch events bring back the total of the row. -/
theorem Consistent.aggregated_eq (h : db.Consistent clock)
    (hrow : db.progress user item = some row) :
    aggregatedWatchSeconds (db.watchRow user item) = row.watchSecondsTotal := by
  obtain ⟨hsum, hnonneg, hcents⟩ := h.watched_eq hrow
  rw [aggregatedWatchSeconds, watchRow.eq_def]
  rcases hevents : db.watchEventsOf user item with _ | ⟨e, events⟩
  · have hzero : row.watchSecondsTotal = 0 := by
      rw [← hsum, watchedSeconds, hevents]
      rfl
    rw [hzero, Option.map_none, Option.getD_none, cents_zero.round2]
  · rw [Option.map_some, Option.getD_some, hsum, hcents.sqlRound2 hnonneg, max_eq_left hnonneg,
      hcents.round2]

theorem foldr_max_mul_le {l : List ℕ} {k bound : ℕ} (h : ∀ x ∈ l, x * k ≤ bound) :
    l.foldr max 0 * k ≤ bound := by
  induction l with
  | nil =>
    rw [List.foldr_nil, Nat.zero_mul]
    exact Nat.zero_le bound
  | cons x l ih =>
    have hhead := h x List.mem_cons_self
    have htail := ih fun y hy => h y (List.mem_cons_of_mem x hy)
    rw [List.foldr_cons]
    rcases le_total x (l.foldr max 0) with hle | hle
    · rwa [max_eq_right hle]
    · rwa [max_eq_left hle]

theorem mem_trackingRows {sourceKind : ℕ → Option SourceKind} {e : TrackingEvent}
    (he : e ∈ db.trackingRows sourceKind user item) :
    e ∈ db.trackingEvents ∧ e.userId = user ∧ e.mediaItemId = item ∧
      e.eventType.tracksProgress = true ∧ (sourceKind item).isSome = true := by
  rw [trackingRows] at he
  split at he
  · next hsource =>
    rw [List.mem_insertionSort, List.mem_reverse, List.mem_filter, Bool.and_eq_true,
      decide_eq_true_eq] at he
    exact ⟨he.1, he.2.1.1, he.2.1.2, he.2.2, hsource⟩
  · cases he

/-- The events of a run stand in the order of their epochs, so the rows are the reversed log. -/
theorem Consistent.trackingRows_eq (h : db.Consistent clock)
    (sourceKind : ℕ → Option SourceKind) (hsource : (sourceKind item).isSome = true) :
    db.trackingRows sourceKind user item =
      (db.trackingEvents.filter fun e => decide (e.userId = user ∧ e.mediaItemId = item) &&
        e.eventType.tracksProgress).reverse := by
  rw [trackingRows, if_pos hsource]
  refine List.Pairwise.insertionSort_eq ?_
  rw [List.pairwise_reverse]
  exact h.sorted.filter _

theorem selected_mem {kind : Option SourceKind} {rows : List TrackingEvent} {e : TrackingEvent}
    (h : selectRebuildTrackingRow kind rows = some e) : e ∈ rows := by
  rw [selectRebuildTrackingRow.eq_def] at h
  split at h
  · cases h
  · next latest rest =>
    split at h
    · rcases hfind : (latest :: rest).find? isResumable with _ | found
      · rw [hfind] at h
        cases h
        exact List.mem_cons_self
      · rw [hfind] at h
        cases h
        exact List.mem_of_find?_eq_some hfind
    · cases h
      exact List.mem_cons_self

/-- No event is later than the row. -/
theorem Consistent.latestEventTime_le (h : db.Consistent clock)
    (hrow : db.progress user item = some row) (sourceKind : ℕ → Option SourceKind) :
    latestEventTime (db.watchRow user item) (selectRebuildTrackingRow (sourceKind item)
      (db.trackingRows sourceKind user item)) ≤ row.updatedAt := by
  rw [latestEventTime, max_le_iff]
  constructor
  · rw [watchRow.eq_def]
    rcases hevents : db.watchEventsOf user item with _ | ⟨e, events⟩
    · rw [Option.map_none, Option.getD_none, Nat.zero_mul]
      exact Nat.zero_le row.updatedAt
    · refine foldr_max_mul_le fun x hx => ?_
      obtain ⟨e', he', rfl⟩ := List.mem_map.mp hx
      rw [← hevents] at he'
      obtain ⟨hmem, rfl, rfl⟩ := mem_watchEventsOf.mp he'
      obtain ⟨-, row', hrow', hle⟩ := h.watched e' hmem
      rw [hrow] at hrow'
      rwa [Option.some.inj hrow']
  · rcases hselected : selectRebuildTrackingRow (sourceKind item)
      (db.trackingRows sourceKind user item) with _ | e
    · rw [Option.map_none, Option.getD_none, Nat.zero_mul]
      exact Nat.zero_le row.updatedAt
    · obtain ⟨hmem, rfl, rfl, -⟩ := mem_trackingRows (selected_mem hselected)
      obtain ⟨row', hrow', hle⟩ := h.tracked e hmem
      rw [hrow] at hrow'
      rwa [Option.some.inj hrow']

/-- The total and the time of a row are rebuilt as they were. -/
theorem Consistent.rebuiltRow_kept (h : db.Consistent clock)
    (hrow : db.progress user item = some row) (sourceKind : ℕ → Option SourceKind)
    (ignored : Bool) : row.normalized.watchSecondsTotal = row.watchSecondsTotal ∧
      (rebuiltRow (db.watchRow user item) (selectRebuildTrackingRow (sourceKind item)
        (db.trackingRows sourceKind user item)) ignored row).watchSecondsTotal =
          row.watchSecondsTotal ∧
      (rebuiltRow (db.watchRow user item) (selectRebuildTrackingRow (sourceKind item)
        (db.trackingRows sourceKind user item)) ignored row).updatedAt = row.updatedAt := by
  obtain ⟨-, hnonneg, hcents⟩ := h.watched_eq hrow
  have hnormalized : row.normalized.watchSecondsTotal = row.watchSecondsTotal := by
    rw [ProgressRow.normalized, max_eq_left hnonneg, hcents.round2]
  refine ⟨hnormalized, ?_, ?_⟩
  · show max row.normalized.watchSecondsTotal (aggregatedWatchSeconds (db.watchRow user item)) = _
    rw [hnormalized, h.aggregated_eq hrow, max_self]
  · exact max_eq_left (h.latestEventTime_le hrow sourceKind)

end Tables

/-! ### The loop over the items -/

/-- The row of an item after its turn. -/
def rebuilt (db : Tables) (sourceKind : ℕ → Option SourceKind) (user item : ℕ)
    (row : ProgressRow) : ProgressRow :=
  let rows := db.trackingRows sourceKind user item
  let selected := selectRebuildTrackingRow (sourceKind item) rows
  let next := rebuiltRow (db.watchRow user item) selected
    (rebuildIgnoredBogusCompletion (sourceKind item) rows selected) row
  if next = row.normalized then row else next

variable {events : Tables} {sourceKind : ℕ → Option SourceKind} {now user item : ℕ}

theorem Refreshed.item_progress (r : Refreshed) {row : ProgressRow}
    (hrow : r.db.progress user item = some row) :
    (r.item events sourceKind now user item).db.progress user item =
      some (rebuilt events sourceKind user item row) := by
  rw [Refreshed.item, rebuilt]
  simp only [hrow]
  split
  · exact hrow
  · exact if_pos ⟨rfl, rfl⟩

theorem Refreshed.item_progress_ne (r : Refreshed) {other : ℕ} (hne : item ≠ other) :
    (r.item events sourceKind now user other).db.progress user item = r.db.progress user item := by
  have hset : ∀ row, (r.db.setProgress user other row).progress user item =
      r.db.progress user item := fun row => if_neg fun h => hne h.2
  rw [Refreshed.item]
  split
  · split
    · rfl
    · exact hset _
  · split
    · rfl
    · exact hset _

/-- Each item has one turn. -/
theorem Refreshed.foldl_progress (items : List ℕ) (hnodup : items.Nodup) :
    ∀ (r : Refreshed) (row : ProgressRow), r.db.progress user item = some row →
      (items.foldl (Refreshed.item events sourceKind now user) r).db.progress user item =
        some (if item ∈ items then rebuilt events sourceKind user item row else row) := by
  induction items with
  | nil => exact fun r row hrow => hrow
  | cons other items ih =>
    intro r row hrow
    obtain ⟨hnot, htail⟩ := List.nodup_cons.mp hnodup
    rw [List.foldl_cons]
    by_cases heq : item = other
    · subst heq
      rw [ih htail _ _ (r.item_progress hrow), if_neg hnot, if_pos List.mem_cons_self]
    · rw [ih htail _ _ ((r.item_progress_ne heq).trans hrow)]
      simp only [List.mem_cons, heq, false_or]

theorem rebuilt_of_not_mem {row : ProgressRow} (h : item ∉ events.candidateIds sourceKind user) :
    rebuilt events sourceKind user item row = row := by
  rw [Tables.candidateIds, List.mem_insertionSort, List.mem_dedup, List.mem_append, not_or] at h
  obtain ⟨hwatch, htracking⟩ := h
  have hevents : events.watchEventsOf user item = [] := by
    rw [List.eq_nil_iff_forall_not_mem]
    intro e he
    obtain ⟨hmem, huser, hitem⟩ := Tables.mem_watchEventsOf.mp he
    exact hwatch (List.mem_map.mpr ⟨e, List.mem_filter.mpr ⟨hmem, decide_eq_true huser⟩, hitem⟩)
  have hrows : events.trackingRows sourceKind user item = [] := by
    rw [List.eq_nil_iff_forall_not_mem]
    intro e he
    obtain ⟨hmem, huser, hitem, htype, hsource⟩ := Tables.mem_trackingRows he
    refine htracking (List.mem_map.mpr ⟨e, List.mem_filter.mpr ⟨hmem, ?_⟩, hitem⟩)
    rw [Bool.and_eq_true, Bool.and_eq_true, decide_eq_true_eq, hitem]
    exact ⟨⟨huser, htype⟩, hsource⟩
  have hwatchRow : events.watchRow user item = none := by
    rw [Tables.watchRow.eq_def, hevents]
  have hzero : aggregatedWatchSeconds none = 0 := cents_zero.round2
  have hnonneg : 0 ≤ row.normalized.watchSecondsTotal := round2_nonneg (le_max_right _ _)
  have hignored : rebuildIgnoredBogusCompletion (sourceKind item) [] none = false := rfl
  rw [rebuilt, hrows, hwatchRow]
  refine if_pos ?_
  rw [selectRebuildTrackingRow, hignored, rebuiltRow.eq_def, hzero]
  simp only [if_false, Option.map_none, Option.getD_none, Bool.or_false, Option.bind_none,
    Option.none_or, max_eq_left hnonneg, latestEventTime, Nat.zero_mul, max_self, Nat.max_zero,
    Bool.false_eq_true]

/-- The rebuilt row of an item depends on its own events only. -/
theorem refresh_progress {row : ProgressRow} (hrow : events.progress user item = some row) :
    (events.refreshRecentTracking sourceKind now user).db.progress user item =
      some (rebuilt events sourceKind user item row) := by
  have hnodup : (events.candidateIds sourceKind user).Nodup := by
    rw [Tables.candidateIds, (List.perm_insertionSort _ _).nodup_iff]
    exact List.nodup_dedup _
  rw [Tables.refreshRecentTracking, Refreshed.foldl_progress _ hnodup _ _ hrow]
  split
  · rfl
  · next hnot => rw [rebuilt_of_not_mem hnot]

/-! ### The last save -/

/-- The last save of an item by a user. -/
def lastSave (calls : List SaveCall) (user item : ℕ) : Option SaveCall :=
  (calls.filter fun c => decide (c.userId = user ∧ c.mediaItemId = item)).getLast?

/-- The event is of the item and of `TRACKING_EVENT_PROGRESS_TYPES`. -/
def progressOf (user item : ℕ) (e : TrackingEvent) : Bool :=
  decide (e.userId = user ∧ e.mediaItemId = item) && e.eventType.tracksProgress

/-- The progress event that a save adds to the log of an item, if any. -/
theorem filter_trackingEvent (call : SaveCall) (existing : Option ProgressRow) (user item : ℕ) :
    (call.trackingEvent existing).toList.filter (progressOf user item) =
      if (call.userId = user ∧ call.mediaItemId = item) ∧ call.logsProgress = true then
        (call.trackingEvent existing).toList
      else [] := by
  rcases hevent : call.trackingEvent existing with _ | e
  · simp
  · obtain ⟨huser, hitem, htype, -⟩ := call.trackingEvent_eq_some hevent
    rw [Option.toList_some, List.filter_singleton, cond_eq_ite, progressOf, huser, hitem, htype]
    simp only [Bool.and_eq_true, decide_eq_true_eq]

/-- No save of the item has logged progress. -/
theorem filter_saves_eq_nil {calls : List SaveCall} {user item : ℕ}
    (h : ∀ c ∈ calls, c.userId = user → c.mediaItemId = item → c.logsProgress = false) :
    (saves calls).trackingEvents.filter (progressOf user item) = [] := by
  induction calls using List.reverseRecOn with
  | nil => rfl
  | append_singleton calls call ih =>
    rw [saves_append_singleton, Tables.saveProgress, Tables.saveTransaction_trackingEvents,
      List.filter_append, ih fun c hc => h c (List.mem_append_left _ hc), List.nil_append,
      filter_trackingEvent]
    refine if_neg ?_
    rintro ⟨⟨huser, hitem⟩, hlogs⟩
    rw [h call (List.mem_append_right _ List.mem_cons_self) huser hitem] at hlogs
    cases hlogs

/-- The row and the log of an item after its last save. -/
theorem lastSave_row {calls : List SaveCall} {user item : ℕ} {call : SaveCall}
    (hlast : lastSave calls user item = some call) :
    ∃ row, (saves calls).progress user item = some row ∧
      row.positionSeconds = call.storedPosition ∧ row.completed = call.isCompleted ∧
      (call.logsProgress = true →
        ∃ e, ((saves calls).trackingEvents.filter (progressOf user item)).getLast? = some e ∧
          some e.playbackMode = call.playbackMode ∧ e.trackingSource = call.trackingSource ∧
          e.positionSeconds =
            some (if call.isCompleted then call.storedPosition else call.clampedPosition) ∧
          e.durationSeconds = row.durationSeconds ∧ e.completed = call.isCompleted) := by
  induction calls using List.reverseRecOn with
  | nil => cases hlast
  | append_singleton calls last ih =>
    rw [saves_append_singleton, Tables.saveProgress, Tables.saveTransaction_trackingEvents,
      List.filter_append, filter_trackingEvent]
    by_cases hkey : last.userId = user ∧ last.mediaItemId = item
    · have hcall : call = last := by
        rw [lastSave, List.filter_append, List.filter_singleton, decide_eq_true hkey, cond_true,
          List.getLast?_append, List.getLast?_singleton, Option.some_or] at hlast
        exact (Option.some.inj hlast).symm
      subst hcall
      obtain ⟨rfl, rfl⟩ := hkey
      refine ⟨_, Tables.saveTransaction_progress _ _ _, rfl, rfl, fun hlogs => ?_⟩
      obtain ⟨e, he⟩ := call.trackingEvent_isSome_of_logsProgress hlogs
        ((saves calls).existingRow call)
      obtain ⟨-, -, -, hmode, hsource, hposition, hduration, hcompleted, -⟩ :=
        call.trackingEvent_eq_some he
      refine ⟨e, ?_, hmode, hsource, hposition, ?_, hcompleted⟩
      · rw [if_pos ⟨⟨rfl, rfl⟩, hlogs⟩, he, Option.toList_some, List.getLast?_append,
          List.getLast?_singleton, Option.some_or]
      · rw [hduration, SaveCall.storedDuration, Option.or_assoc, Option.or_self]
    · have hlast' : lastSave calls user item = some call := by
        rw [lastSave, List.filter_append, List.filter_singleton, decide_eq_false hkey] at hlast
        rw [lastSave]
        simpa using hlast
      obtain ⟨row, hrow, hrest⟩ := ih hlast'
      have hne : ¬(user = last.userId ∧ item = last.mediaItemId) :=
        fun h => hkey ⟨h.1.symm, h.2.symm⟩
      rw [if_neg fun h => hkey h.1, List.append_nil]
      exact ⟨row, by rw [Tables.saveTransaction_progress_ne _ _ _ hne, hrow], hrest⟩

/-! ### What the rebuild changes -/

variable {clock : ℕ} {row : ProgressRow}

/-- Without a tracking row nothing changes. -/
theorem rebuilt_of_no_rows (h : events.Consistent clock)
    (hrow : events.progress user item = some row)
    (hrows : events.trackingRows sourceKind user item = []) :
    rebuilt events sourceKind user item row = row := by
  obtain ⟨hnormalized, htotal, hupdated⟩ := h.rebuiltRow_kept hrow sourceKind false
  rw [rebuilt]
  refine if_pos ?_
  rw [hrows] at htotal hupdated ⊢
  ext1
  · rfl
  · exact Option.none_or
  · exact htotal.trans hnormalized.symm
  · exact Bool.or_false _
  · exact hupdated

/-- A row that agrees with the selected event is rebuilt as it was. -/
theorem rebuilt_of_agrees (h : events.Consistent clock)
    (hrow : events.progress user item = some row) {e : TrackingEvent} {position : ℚ}
    (hselected : selectRebuildTrackingRow (sourceKind item)
      (events.trackingRows sourceKind user item) = some e)
    (hignored : rebuildIgnoredBogusCompletion (sourceKind item)
      (events.trackingRows sourceKind user item) (some e) = false)
    (hposition : e.positionSeconds = some position)
    (hcompleted : e.completed = row.completed)
    (hstored : row.positionSeconds = if row.completed then 0 else round2 position)
    (hduration : e.durationSeconds = row.durationSeconds) :
    rebuilt events sourceKind user item row = row := by
  obtain ⟨hnormalized, htotal, hupdated⟩ := h.rebuiltRow_kept hrow sourceKind false
  rw [rebuilt]
  refine if_pos ?_
  rw [hselected] at htotal hupdated ⊢
  rw [hignored]
  ext1
  · simp only [rebuiltRow, ProgressRow.normalized, hposition, hcompleted, hstored]
    split
    · rw [max_self, cents_zero.round2]
    · exact (round2_max_round2 position).symm
  · show e.durationSeconds.or row.durationSeconds = row.durationSeconds
    rw [hduration, Option.or_self]
  · exact htotal.trans hnormalized.symm
  · show (row.completed || e.completed) = row.completed
    rw [hcompleted, Bool.or_self]
  · exact hupdated

/-- A row whose last event is a bogus completion goes back to an event before it. -/
theorem rebuilt_of_ignored (h : events.Consistent clock)
    (hrow : events.progress user item = some row) (hcompleted : row.completed = true)
    {e : TrackingEvent} (hresumable : isResumable e = true)
    (hselected : selectRebuildTrackingRow (sourceKind item)
      (events.trackingRows sourceKind user item) = some e)
    (hignored : rebuildIgnoredBogusCompletion (sourceKind item)
      (events.trackingRows sourceKind user item) (some e) = true) :
    let row' := rebuilt events sourceKind user item row
    row'.completed = false ∧ row'.positionSeconds = round2 (e.positionSeconds.getD 0) ∧
      row'.durationSeconds = e.durationSeconds.or row.durationSeconds ∧
      row'.watchSecondsTotal = row.watchSecondsTotal ∧ row'.updatedAt = row.updatedAt := by
  obtain ⟨-, htotal, hupdated⟩ := h.rebuiltRow_kept hrow sourceKind true
  rw [isResumable, Bool.and_eq_true, Bool.not_eq_true', decide_eq_true_eq] at hresumable
  obtain ⟨hopen, hpositive⟩ := hresumable
  obtain ⟨position, hposition⟩ : ∃ position, e.positionSeconds = some position := by
    rcases hnone : e.positionSeconds with _ | position
    · rw [hnone] at hpositive
      exact absurd hpositive (lt_irrefl 0)
    · exact ⟨position, rfl⟩
  rw [hposition, Option.getD_some] at hpositive
  dsimp only
  rw [hselected] at htotal hupdated
  rw [rebuilt]
  simp only [hselected, hignored]
  rw [if_neg]
  · refine ⟨hopen, ?_, rfl, htotal, hupdated⟩
    simp only [rebuiltRow, hopen, hposition, Option.getD_some, max_eq_left hpositive.le,
      Bool.false_eq_true, if_false]
  · intro heq
    have : (rebuiltRow (events.watchRow user item) (some e) true row).completed =
        row.normalized.completed := by rw [heq]
    rw [show (rebuiltRow (events.watchRow user item) (some e) true row).completed = e.completed
      from rfl, hopen, show row.normalized.completed = row.completed from rfl, hcompleted] at this
    cases this

/-- The event of a save that logs progress, at the head of the rows of its item. -/
theorem isBogusCompletion_eq {call : SaveCall} {kind : Option SourceKind} {e : TrackingEvent}
    (hmode : some e.playbackMode = call.playbackMode)
    (hsource : e.trackingSource = call.trackingSource)
    (hposition : e.positionSeconds =
      some (if call.isCompleted then call.storedPosition else call.clampedPosition))
    (hcompleted : e.completed = call.isCompleted) :
    isBogusCompletion kind e = call.isBogus kind := by
  have hvlc : decide (e.playbackMode = .vlcExternal) =
      decide (call.playbackMode = some .vlcExternal) := by
    rw [← hmode]
    exact decide_eq_decide.mpr (Option.some_inj).symm
  rw [isBogusCompletion, SaveCall.isBogus, hsource, hvlc, hcompleted, hposition]
  rcases hflag : call.isCompleted with _ | _
  · rw [Bool.and_false, Bool.false_and]
  · simp [SaveCall.storedPosition, hflag]

/-- Rebuilding after any run of saves.  The total and the time of every row stay.  Where no save of
the item has logged progress, or its last save has and its event is no bogus completion, the whole
row stays.  Where that event is one, the row goes back to the latest event of a playback that goes
on somewhere, if there is one. -/
theorem refresh_keeps_progress (sourceKind : ℕ → Option SourceKind) (now user : ℕ)
    (calls : List SaveCall) (hclock : calls.Pairwise fun c c' => c.now ≤ c'.now)
    (hoccurred : ∀ c ∈ calls, c.occurredAt = none) (item : ℕ) (row : ProgressRow)
    (hrow : (saves calls).progress user item = some row) :
    ∃ row', ((saves calls).refreshRecentTracking sourceKind now user).db.progress user item =
        some row' ∧
      row'.watchSecondsTotal = row.watchSecondsTotal ∧ row'.updatedAt = row.updatedAt ∧
      ((∀ c ∈ calls, c.userId = user → c.mediaItemId = item → c.logsProgress = false) →
        row' = row) ∧
      ∀ call, lastSave calls user item = some call → call.logsProgress = true →
        (call.isBogus (sourceKind item) = false → row' = row) ∧
        (call.isBogus (sourceKind item) = true →
          match ((saves calls).trackingRows sourceKind user item).find? isResumable with
          | none => row' = row
          | some e => row'.completed = false ∧
              row'.positionSeconds = round2 (e.positionSeconds.getD 0) ∧
              row'.durationSeconds = e.durationSeconds.or row.durationSeconds) := by
  have hconsistent : (saves calls).Consistent (calls.map SaveCall.now).sum :=
    saves_consistent calls hclock hoccurred _ fun c hc =>
      List.le_sum_of_mem (List.mem_map_of_mem hc)
  have hkept : (rebuilt (saves calls) sourceKind user item row).watchSecondsTotal =
        row.watchSecondsTotal ∧
      (rebuilt (saves calls) sourceKind user item row).updatedAt = row.updatedAt := by
    rw [rebuilt]
    split
    · exact ⟨rfl, rfl⟩
    · exact (hconsistent.rebuiltRow_kept hrow sourceKind _).2
  refine ⟨_, refresh_progress hrow, hkept.1, hkept.2, fun hnone => ?_, fun call hlast hlogs => ?_⟩
  · refine rebuilt_of_no_rows hconsistent hrow ?_
    by_cases hsource : (sourceKind item).isSome = true
    · rw [hconsistent.trackingRows_eq sourceKind hsource]
      exact List.reverse_eq_nil_iff.mpr (filter_saves_eq_nil hnone)
    · rw [Tables.trackingRows, if_neg hsource]
  by_cases hsource : (sourceKind item).isSome = true
  swap
  · -- the item is gone from `media_items`, and its events with it
    have hrows : (saves calls).trackingRows sourceKind user item = [] := by
      rw [Tables.trackingRows, if_neg hsource]
    have heq := rebuilt_of_no_rows hconsistent hrow hrows
    rw [hrows]
    exact ⟨fun _ => heq, fun _ => heq⟩
  -- the row is what the last save has left, and the latest event is the one of that save
  obtain ⟨row', hrow', hposition, hcompleted, hevent⟩ := lastSave_row hlast
  rw [hrow] at hrow'
  cases hrow'
  obtain ⟨e, he, hmode, htracking, heposition, heduration, hecompleted⟩ := hevent hlogs
  have hrows : (saves calls).trackingRows sourceKind user item =
      ((saves calls).trackingEvents.filter (progressOf user item)).reverse :=
    hconsistent.trackingRows_eq sourceKind hsource
  obtain ⟨rest, hhead⟩ : ∃ rest, (saves calls).trackingRows sourceKind user item = e :: rest := by
    rw [hrows]
    refine List.head?_eq_some_iff.mp ?_
    rw [List.head?_reverse, he]
  have hbogus : isBogusCompletion (sourceKind item) e = call.isBogus (sourceKind item) :=
    isBogusCompletion_eq hmode htracking heposition hecompleted
  -- where that event is selected, the row agrees with it already
  have hagrees : selectRebuildTrackingRow (sourceKind item) (e :: rest) = some e →
      rebuilt (saves calls) sourceKind user item row = row := by
    intro hselected
    have hignored : rebuildIgnoredBogusCompletion (sourceKind item) (e :: rest)
        (some e) = false := by
      rw [rebuildIgnoredBogusCompletion, decide_eq_false (not_not.mpr rfl), Bool.false_and]
    rw [← hhead] at hselected hignored
    refine rebuilt_of_agrees hconsistent hrow hselected hignored heposition
      (hecompleted.trans hcompleted.symm) ?_ heduration
    rw [hposition, hcompleted, SaveCall.storedPosition]
    split <;> rfl
  constructor
  · intro hnot
    refine hagrees ?_
    rw [selectRebuildTrackingRow, if_neg (by rw [hbogus, hnot]; exact Bool.false_ne_true)]
  · intro hyes
    rw [hhead]
    rcases hfind : (e :: rest).find? isResumable with _ | found
    · refine hagrees ?_
      rw [selectRebuildTrackingRow, if_pos (hbogus.trans hyes), hfind, Option.getD_none]
    · have hresumable : isResumable found = true := List.find?_some hfind
      have hecomplete : e.completed = true := by
        rw [hecompleted]
        rw [SaveCall.isBogus, Bool.and_eq_true] at hyes
        exact hyes.2
      -- the event that goes on is an earlier one, as the latest is completed
      have hne : e ≠ found := by
        rintro rfl
        rw [isResumable, hecomplete] at hresumable
        cases hresumable
      have hselected : selectRebuildTrackingRow (sourceKind item)
          ((saves calls).trackingRows sourceKind user item) = some found := by
        rw [hhead, selectRebuildTrackingRow, if_pos (hbogus.trans hyes), hfind, Option.getD_some]
      have hignored : rebuildIgnoredBogusCompletion (sourceKind item)
          ((saves calls).trackingRows sourceKind user item) (some found) = true := by
        rw [hhead, rebuildIgnoredBogusCompletion, decide_eq_true hne, hbogus, hyes, Bool.and_true]
      obtain ⟨hopen, hplace, hduration, -⟩ := rebuilt_of_ignored hconsistent hrow
        (hcompleted.trans (hecompleted.symm.trans hecomplete)) hresumable hselected hignored
      exact ⟨hopen, hplace, hduration⟩

/-- Two saves of one film in the external player: a minute into it, and then to its end, where only
the second may be inferred. -/
def externalSaves (source : TrackingSource) : List SaveCall :=
  [{ userId := 1, mediaItemId := 7, positionSeconds := 60, durationSeconds := some 6000,
      completed := false, playbackMode := some .vlcExternal, eventType := some .playbackProgress,
      occurredAt := none, trackingSource := .other, countWatchIncrement := true, now := 1000000 },
    { userId := 1, mediaItemId := 7, positionSeconds := 5999, durationSeconds := some 6000,
      completed := false, playbackMode := some .vlcExternal, eventType := some .playbackProgress,
      occurredAt := none, trackingSource := source, countWatchIncrement := true, now := 9000000 }]

/-- The row after them. -/
def externalRow : ProgressRow :=
  { positionSeconds := 0, durationSeconds := some 6000, watchSecondsTotal := 20, completed := true,
    updatedAt := 9000000 }

theorem refresh_keeps_externalRow : ∃ row',
    ((saves (externalSaves .other)).refreshRecentTracking (fun _ => some .cloud)
      9500000 1).db.progress 1 7 = some row' ∧ row' = externalRow := by
  obtain ⟨row', hrow', -, -, -, hlast⟩ := refresh_keeps_progress (fun _ => some .cloud) 9500000 1
    (externalSaves .other) (by decide) (by decide) 7 externalRow (by decide +kernel)
  exact ⟨row', hrow', (hlast _ rfl rfl).1 rfl⟩

/-- An inferred completion of a film in the cloud is taken back. -/
theorem refresh_undoes_bogus_completion :
    ¬ ∀ (sourceKind : ℕ → Option SourceKind) (now user : ℕ) (calls : List SaveCall),
      (calls.Pairwise fun c c' => c.now ≤ c'.now) → (∀ c ∈ calls, c.occurredAt = none) →
      ∀ item row, (saves calls).progress user item = some row →
        ((saves calls).refreshRecentTracking sourceKind now user).db.progress user item =
          some row := by
  intro h
  have hkept := h (fun _ => some .cloud) 9500000 1 (externalSaves .inferred) (by decide) (by decide)
    7 externalRow (by decide +kernel)
  have hchanged : (((saves (externalSaves .inferred)).refreshRecentTracking
      (fun _ => some .cloud) 9500000 1).db.progress 1 7).map ProgressRow.completed =
          some false := by
    decide +kernel
  rw [hkept] at hchanged
  cases hchanged

end Progress
