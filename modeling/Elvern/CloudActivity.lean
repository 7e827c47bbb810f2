/-
Progress that is inferred from stream requests (`native_playback_service.py`).

An external player says nothing of where it is; the server takes the time since the last request, or
the place in the file that is asked for, and saves that as progress. For a cloud item in VLC on iOS
it stays clear of the end, so that a request never finishes the movie.

* `recordExternalStreamActivity` — the progress that a request saves, if any;
* `round2_mono`, `le_round2`, `round2_le` — rounding to two digits;
* `SessionRow.Keeps` — the exact condition on a session and a request under which the request
  neither finishes the movie nor goes back;
* `cloud_activity_kept` — it is that condition, and runs in which it holds do neither.
-/
import Mathlib.Algebra.Order.Round
import Mathlib.Tactic.Linarith
import Elvern.WatchTime

open Runs

namespace Progress

/-! ### The session and a request -/

def externalStreamInitialProgressSeconds : ℚ := 5
def externalStreamMinIncrementSeconds : ℚ := 15
def externalStreamMaxIncrementSeconds : ℚ := 30
def externalStreamSignificantPositionDeltaSeconds : ℚ := 15
def externalStreamNearEndRangeGuardSeconds : ℚ := 120
def linuxSameHostVlcDirectProgressFreshSeconds : ℚ := 9
def iosVlcCloudConservativeRangeBackoffSeconds : ℚ := 12

/-- `client_name`, as far as `_tracks_external_stream_activity` tells the names apart; `vlcFallback`
are the helper and the playlist. -/
inductive Client
  | linuxSameHostVlc
  | vlcFallback
  | iosVlcHandoff
  | iosInfuseHandoff
  | other
  deriving DecidableEq

/-- A row of `native_playback_sessions` with its media item. -/
structure SessionRow where
  userId : ℕ
  mediaItemId : ℕ
  client : Client
  playbackMode : PlaybackMode
  sourceKind : SourceKind
  lastPositionSeconds : ℚ
  lastDurationSeconds : Option ℚ
  /-- of the media item -/
  durationSeconds : Option ℚ
  fileSize : Option ℤ
  createdAt : Option ℤ
  lastProgressRecordedAt : Option ℤ

structure StreamRequest where
  /-- the first byte of the range, where the header is one that `EXTERNAL_STREAM_RANGE_PATTERN`
  matches -/
  startByte : Option ℕ
  now : ℤ
  /-- the clock of `save_progress` -/
  savedAt : ℕ

/-- `(now - then).total_seconds()` -/
def secondsSince (now since : ℤ) : ℚ := ((now - since : ℤ) : ℚ) / 1000000

/-- `_estimate_external_stream_position_from_range` -/
def estimateExternalStreamPositionFromRange (startByte : Option ℕ) (fileSize : Option ℤ)
    (duration : Option ℚ) : Option ℚ :=
  match startByte, duration with
  | some start, some d =>
    let size := fileSize.getD 0
    if d ≤ 0 ∨ size ≤ 0 then none
    else
      let clamped := min (start : ℤ) (max (size - 1) 0)
      some (round2 (max ((clamped : ℚ) / size * d) 0))
  | _, _ => none

/-- `_apply_conservative_ios_vlc_cloud_range_estimate` -/
def applyConservativeIosVlcCloudRangeEstimate (estimated current : ℚ) (duration : Option ℚ) : ℚ :=
  let backoff := min iosVlcCloudConservativeRangeBackoffSeconds (max (estimated * (1 / 100)) 5)
  let conservative := max current (max (estimated - backoff) 0)
  round2 (duration.elim conservative fun d => min conservative d)

/-- `_ios_vlc_cloud_completion_guard_seconds` -/
def iosVlcCloudCompletionGuardSeconds (duration : ℚ) : ℚ := max (duration * (3 / 100)) 30 + 1

namespace SessionRow

variable (row : SessionRow) (request : StreamRequest)

/-- `_is_ios_vlc_cloud_fallback` -/
def iosVlcCloudFallback : Bool := decide (row.client = .iosVlcHandoff ∧ row.sourceKind = .cloud)

/-- `current_position` -/
def currentPosition : ℚ := max row.lastPositionSeconds 0

/-- `resolved_duration` -/
def resolvedDuration : Option ℚ := row.lastDurationSeconds.or row.durationSeconds

/-- `_should_ignore_external_range_seek_estimate` -/
def shouldIgnoreExternalRangeSeekEstimate (now : ℤ) (estimated : ℚ) : Bool :=
  match row.resolvedDuration with
  | none => false
  | some d =>
    if d ≤ 0 ∨ iosVlcCloudCompletionGuardSeconds d < max (d - estimated) 0 then false
    else
      match row.createdAt with
      | none => true
      | some createdAt =>
        decide (secondsSince now createdAt ≤ externalStreamNearEndRangeGuardSeconds)

/-- `increment_seconds` -/
def incrementSeconds (now : ℤ) : ℚ :=
  match row.lastProgressRecordedAt with
  | none => externalStreamInitialProgressSeconds
  | some last =>
    let elapsed := max (secondsSince now last) 0
    if externalStreamMinIncrementSeconds ≤ elapsed then
      min elapsed externalStreamMaxIncrementSeconds
    else 0

/-- `estimated_range_position`, where it is not ignored -/
def estimatedRangePosition : Option ℚ :=
  let estimated := (estimateExternalStreamPositionFromRange request.startByte row.fileSize
    row.resolvedDuration).map fun e =>
      if row.iosVlcCloudFallback then
        applyConservativeIosVlcCloudRangeEstimate e row.currentPosition row.resolvedDuration
      else e
  estimated.filter fun e => !row.shouldIgnoreExternalRangeSeekEstimate request.now e

/-- `significant_position_change` -/
def significantPositionChange : Bool :=
  (row.estimatedRangePosition request).any fun e =>
    decide (externalStreamSignificantPositionDeltaSeconds ≤ e - row.currentPosition)

/-- `next_position` before it is kept clear of the end -/
def reachedPosition : ℚ :=
  let sought :=
    if row.significantPositionChange request then
      max row.currentPosition ((row.estimatedRangePosition request).getD row.currentPosition)
    else row.currentPosition
  let increment := row.incrementSeconds request.now
  if 0 < increment then max sought (row.currentPosition + increment) else sought

/-- `max_fallback_position` -/
def maxFallbackPosition (duration : ℚ) : ℚ :=
  max (duration - iosVlcCloudCompletionGuardSeconds duration) 0

/-- `next_position` -/
def nextPosition : ℚ :=
  let reached := row.reachedPosition request
  let guarded :=
    match row.iosVlcCloudFallback, row.resolvedDuration with
    | true, some d => min reached (maxFallbackPosition d)
    | _, _ => reached
  round2 (max (row.resolvedDuration.elim guarded fun d => min guarded d) 0)

/-- `_record_external_stream_activity`: the call of `save_progress` that it makes. -/
def recordExternalStreamActivity : Option SaveCall :=
  let increment := row.incrementSeconds request.now
  let significant := row.significantPositionChange request
  if row.client = .other then none
  else if row.client = .linuxSameHostVlc ∧ row.lastProgressRecordedAt.any fun last =>
      decide (secondsSince request.now last ≤ linuxSameHostVlcDirectProgressFreshSeconds) then none
  else if increment ≤ 0 ∧ row.estimatedRangePosition request = none ∧ significant = false then none
  else if row.nextPosition request = row.currentPosition ∧ significant = false ∧
    increment ≤ 0 then none
  else some
    { userId := row.userId
      mediaItemId := row.mediaItemId
      positionSeconds := row.nextPosition request
      durationSeconds := row.resolvedDuration
      completed := false
      playbackMode := some row.playbackMode
      eventType := some (if significant then .playbackSeeked else .playbackProgress)
      occurredAt := none
      trackingSource := .inferred
      countWatchIncrement := !significant
      now := request.savedAt }

end SessionRow

/-- The progress tables and a session. -/
structure Activity where
  tables : Tables
  session : SessionRow

/-- A stream request on the session: what it saves goes into the tables, and as a snapshot into the
session. -/
def Activity.step (s : Activity) (request : StreamRequest) : Option Activity :=
  some (match s.session.recordExternalStreamActivity request with
    | none => s
    | some call =>
      { tables := s.tables.saveProgress call
        session :=
          { s.session with
            lastPositionSeconds := call.storedPosition
            lastDurationSeconds := (call.storedDuration (s.tables.existingRow call)).or
              s.session.lastDurationSeconds
            lastProgressRecordedAt := some request.now } })

/-! ### Rounding -/

theorem roundHalfEven_near (x : ℚ) : |(roundHalfEven x : ℚ) - x| ≤ 1 / 2 := by
  have hlow := Int.floor_le x
  have hhigh := Int.lt_floor_add_one x
  rw [roundHalfEven, abs_le]
  split_ifs <;> push_cast <;> constructor <;> linarith

theorem roundHalfEven_mono {x y : ℚ} (h : x ≤ y) : roundHalfEven x ≤ roundHalfEven y := by
  by_contra hlt
  rw [not_le] at hlt
  have hx := (abs_le.1 (roundHalfEven_near x)).2
  have hy := (abs_le.1 (roundHalfEven_near y)).1
  have hstep : (roundHalfEven y : ℚ) + 1 ≤ roundHalfEven x := by exact_mod_cast hlt
  -- only halves of one another could be that far apart
  have hxy : x = y := by linarith
  rw [hxy] at hlt
  exact lt_irrefl _ hlt

theorem round2_mono {x y : ℚ} (h : x ≤ y) : round2 x ≤ round2 y := by
  have hround : (roundHalfEven (100 * x) : ℚ) ≤ roundHalfEven (100 * y) := by
    exact_mod_cast roundHalfEven_mono (by linarith)
  rw [round2, round2]
  linarith

theorem le_round2 (x : ℚ) : x - 1 / 200 ≤ round2 x := by
  have hnear := (abs_le.1 (roundHalfEven_near (100 * x))).1
  rw [round2]
  linarith

theorem round2_le (x : ℚ) : round2 x ≤ x + 1 / 200 := by
  have hnear := (abs_le.1 (roundHalfEven_near (100 * x))).2
  rw [round2]
  linarith

/-! ### A cloud item in VLC on iOS -/

namespace SessionRow

/-- The session is one of a cloud item, opened by VLC on iOS, with a position and a duration as they
are stored. -/
structure CloudHandoff (row : SessionRow) : Prop where
  client : row.client = .iosVlcHandoff
  cloud : row.sourceKind = .cloud
  position : 0 ≤ row.lastPositionSeconds
  duration : ∀ d ∈ row.resolvedDuration, 0 < d

/-- The request neither finishes the movie nor goes back: the duration is unknown; or there is
nothing to record, or nothing that would change; or the movie is longer than the 30 seconds that
count as its end anyway, the session is not nearer to the end than the guard, and where nothing is
added its position is not rounded down. -/
def Keeps (row : SessionRow) (request : StreamRequest) : Prop :=
  let increment := row.incrementSeconds request.now
  let significant := row.significantPositionChange request
  let position := row.lastPositionSeconds
  match row.resolvedDuration with
  | none => True
  | some d =>
    (increment ≤ 0 ∧ row.estimatedRangePosition request = none) ∨
    (increment ≤ 0 ∧ significant = false ∧
      round2 (min position (maxFallbackPosition d)) = position) ∨
    (30 < d ∧ position ≤ round2 (maxFallbackPosition d) ∧
      (0 < increment ∨ significant = true ∨ position ≤ round2 position))

section Cloud

variable {row : SessionRow} {request : StreamRequest} {d : ℚ}

theorem CloudHandoff.current (h : row.CloudHandoff) :
    row.currentPosition = row.lastPositionSeconds :=
  max_eq_left h.position

/-- What is added is five seconds at least. -/
theorem incrementSeconds_large {now : ℤ} (h : 0 < row.incrementSeconds now) :
    5 ≤ row.incrementSeconds now := by
  rw [incrementSeconds] at h ⊢
  cases hlast : row.lastProgressRecordedAt with
  | none => exact le_refl 5
  | some last =>
    rw [hlast] at h
    dsimp only at h ⊢
    split_ifs at h ⊢ with helapsed
    · rw [externalStreamMinIncrementSeconds] at helapsed
      rw [externalStreamMaxIncrementSeconds]
      exact le_min (by linarith) (by norm_num)
    · exact absurd h (lt_irrefl 0)

theorem significant_spec (h : row.significantPositionChange request = true) :
    ∃ e, row.estimatedRangePosition request = some e ∧ row.currentPosition + 15 ≤ e := by
  obtain ⟨e, he, hdelta⟩ := (Option.any_eq_true _ _).1 h
  have hle := of_decide_eq_true hdelta
  rw [externalStreamSignificantPositionDeltaSeconds] at hle
  exact ⟨e, he, by linarith⟩

theorem significant_of_none (h : row.estimatedRangePosition request = none) :
    row.significantPositionChange request = false := by
  rw [significantPositionChange, h, Option.any_none]

/-- Where something is added, it is five seconds or more. -/
theorem reached_added (h : 0 < row.incrementSeconds request.now ∨
    row.significantPositionChange request = true) :
    row.currentPosition + 5 ≤ row.reachedPosition request := by
  rw [reachedPosition]
  rcases h with hinc | hsig
  · rw [if_pos hinc]
    have hlarge := incrementSeconds_large hinc
    exact (by linarith : _ ≤ row.currentPosition + row.incrementSeconds request.now).trans
      (le_max_right _ _)
  · obtain ⟨e, he, hle⟩ := significant_spec hsig
    -- a jump of fifteen seconds is one of five
    have hsought : row.currentPosition + 5 ≤ max row.currentPosition e :=
      (by linarith : _ ≤ e).trans (le_max_right _ _)
    rw [if_pos hsig, he, Option.getD_some]
    split_ifs
    · exact hsought.trans (le_max_left _ _)
    · exact hsought

/-- Else the position stays. -/
theorem reached_same (hinc : row.incrementSeconds request.now ≤ 0)
    (hsig : row.significantPositionChange request = false) :
    row.reachedPosition request = row.currentPosition := by
  rw [reachedPosition]
  rw [hsig, if_neg Bool.false_ne_true, if_neg (not_lt.2 hinc)]

theorem current_le_reached : row.currentPosition ≤ row.reachedPosition request := by
  by_cases h : 0 < row.incrementSeconds request.now ∨ row.significantPositionChange request = true
  · have hadded := reached_added h
    linarith
  · rw [not_or, not_lt, Bool.not_eq_true] at h
    exact (reached_same h.1 h.2).ge

theorem maxFallback_nonneg : 0 ≤ maxFallbackPosition d := le_max_right _ _

theorem maxFallback_le (hd : 0 < d) : maxFallbackPosition d ≤ d := by
  have hguard : (30 : ℚ) ≤ max (d * (3 / 100)) 30 := le_max_right _ _
  rw [maxFallbackPosition, iosVlcCloudCompletionGuardSeconds]
  exact max_le (by linarith) hd.le

/-- The position that a session of a known duration comes to. -/
theorem CloudHandoff.next (h : row.CloudHandoff) (hd : row.resolvedDuration = some d) :
    row.nextPosition request =
        round2 (min (row.reachedPosition request) (maxFallbackPosition d)) := by
  have hpos : 0 < d := h.duration d hd
  have hfallback : row.iosVlcCloudFallback = true := decide_eq_true ⟨h.client, h.cloud⟩
  have hreached : 0 ≤ row.reachedPosition request :=
    (le_max_right row.lastPositionSeconds 0).trans current_le_reached
  rw [nextPosition, hfallback, hd]
  dsimp only [Option.elim_some]
  -- behind the cut that keeps clear of the end the cut at the duration does nothing
  rw [min_eq_left ((min_le_right _ _).trans (maxFallback_le hpos)),
    max_eq_left (le_min hreached maxFallback_nonneg)]

theorem next_le (hd : 0 < d) {x : ℚ} (hx : x ≤ maxFallbackPosition d) : round2 x ≤ d := by
  rcases le_total (d - iosVlcCloudCompletionGuardSeconds d) 0 with hshort | hlong
  · rw [maxFallbackPosition, max_eq_right hshort] at hx
    have hzero := round2_mono hx
    rw [cents_zero.round2] at hzero
    linarith
  · have hguard : (30 : ℚ) ≤ max (d * (3 / 100)) 30 := le_max_right _ _
    rw [maxFallbackPosition, max_eq_left hlong, iosVlcCloudCompletionGuardSeconds] at hx
    have hround := round2_le x
    linarith

/-- What remains is more than what counts as the end, but for a movie that is no longer than
that. -/
theorem remaining_iff (hd : 0 < d) {x : ℚ} (hpos : 0 ≤ x) (hx : x ≤ maxFallbackPosition d) :
    d - round2 x ≤ max (d * (3 / 100)) 30 ↔ d ≤ 30 := by
  constructor
  · intro hend
    rcases le_total (d - iosVlcCloudCompletionGuardSeconds d) 0 with hshort | hlong
    · -- the guard is the whole movie, and the position 0
      rw [maxFallbackPosition, max_eq_right hshort] at hx
      have hzero := round2_mono hx
      rw [cents_zero.round2] at hzero
      rcases le_max_iff.1 ((by linarith : d ≤ d - round2 x).trans hend) with hle | hle
      · linarith
      · exact hle
    · rw [maxFallbackPosition, max_eq_left hlong, iosVlcCloudCompletionGuardSeconds] at hx
      have hround := round2_le x
      linarith
  · intro hle
    have hround := round2_nonneg hpos
    exact (by linarith : d - round2 x ≤ 30).trans (le_max_right _ _)

/-- Nothing is recorded where there is nothing to record, or nothing changes. -/
theorem CloudHandoff.record_none (h : row.CloudHandoff) :
    row.recordExternalStreamActivity request = none ↔
      row.incrementSeconds request.now ≤ 0 ∧ (row.estimatedRangePosition request = none ∨
        row.significantPositionChange request = false ∧
          row.nextPosition request = row.lastPositionSeconds) := by
  have hother : row.client ≠ .other := by
    rw [h.client]
    decide
  have hlinux : row.client ≠ .linuxSameHostVlc := by
    rw [h.client]
    decide
  rw [recordExternalStreamActivity, h.current]
  rw [if_neg hother, if_neg fun hand => hlinux hand.1]
  by_cases hidle : row.incrementSeconds request.now ≤ 0 ∧
    row.estimatedRangePosition request = none ∧
      row.significantPositionChange request = false
  · rw [if_pos hidle]
    exact iff_of_true rfl ⟨hidle.1, Or.inl hidle.2.1⟩
  rw [if_neg hidle]
  by_cases hsame : row.nextPosition request = row.lastPositionSeconds ∧
      row.significantPositionChange request = false ∧ row.incrementSeconds request.now ≤ 0
  · rw [if_pos hsame]
    exact iff_of_true rfl ⟨hsame.2.2, Or.inr ⟨hsame.2.1, hsame.1⟩⟩
  rw [if_neg hsame]
  refine iff_of_false (Option.some_ne_none _) ?_
  rintro ⟨hinc, hest | ⟨hsig, hnext⟩⟩
  · exact hidle ⟨hinc, hest, significant_of_none hest⟩
  · exact hsame ⟨hnext, hsig, hinc⟩

/-- What is recorded. -/
theorem record_some {call : SaveCall} (h : row.recordExternalStreamActivity request = some call) :
    call.userId = row.userId ∧ call.mediaItemId = row.mediaItemId ∧
      call.positionSeconds = row.nextPosition request ∧ call.durationSeconds =
        row.resolvedDuration ∧
      call.completed = false := by
  rw [recordExternalStreamActivity] at h
  split at h
  · cases h
  split at h
  · cases h
  split at h
  · cases h
  split at h
  · cases h
  cases h
  exact ⟨rfl, rfl, rfl, rfl, rfl⟩

/-- What a session of a known duration saves. -/
theorem CloudHandoff.saved (h : row.CloudHandoff) (hd : row.resolvedDuration = some d)
    {call : SaveCall} (hcall : row.recordExternalStreamActivity request = some call) :
    call.isCompleted = decide (d ≤ 30) ∧
      call.storedPosition = if d ≤ 30 then 0 else row.nextPosition request := by
  obtain ⟨-, -, hposition, hduration, hcompleted⟩ := record_some hcall
  have hpos : 0 < d := h.duration d hd
  have hmin : min (row.reachedPosition request) (maxFallbackPosition d) ≤ maxFallbackPosition d :=
    min_le_right _ _
  have hnonneg : 0 ≤ min (row.reachedPosition request) (maxFallbackPosition d) :=
    le_min ((le_max_right row.lastPositionSeconds 0).trans current_le_reached) maxFallback_nonneg
  -- the save clamps once more, to a range that the position is in
  have hclamped : call.clampedPosition = row.nextPosition request := by
    rw [SaveCall.clampedPosition, hduration, hd, hposition, h.next hd]
    dsimp only
    rw [max_eq_left (round2_nonneg hnonneg), min_eq_left (next_le hpos hmin)]
  have hauto : call.autoCompleted = decide (d ≤ 30) := by
    rw [SaveCall.autoCompleted, hduration, hd, hclamped, h.next hd]
    dsimp only
    -- whether the rest counts as the end depends on the duration alone
    have hremaining : 0 ≤ d - round2 (min (row.reachedPosition request) (maxFallbackPosition d)) :=
      sub_nonneg.2 (next_le hpos hmin)
    rw [decide_eq_true hpos, Bool.true_and, max_eq_left hremaining]
    exact decide_eq_decide.2 (remaining_iff hpos hnonneg hmin)
  have hisCompleted : call.isCompleted = decide (d ≤ 30) := by
    rw [SaveCall.isCompleted, hcompleted, hauto, Bool.false_or]
  refine ⟨hisCompleted, ?_⟩
  rw [SaveCall.storedPosition, hisCompleted, hclamped]
  simp only [decide_eq_true_eq]
  split_ifs
  · rfl
  · rw [h.next hd, (cents_round2 _).round2]

/-- The movie is not finished, and its position does not go back. -/
def Kept (row : SessionRow) (request : StreamRequest) : Prop :=
  ∀ call ∈ row.recordExternalStreamActivity request,
    call.isCompleted = false ∧ row.lastPositionSeconds ≤ call.storedPosition

/-- Nothing is known of the end of a movie without a duration. -/
theorem CloudHandoff.kept_of_none (h : row.CloudHandoff) (hd : row.resolvedDuration = none) :
    row.Kept request := by
  intro call hcall
  obtain ⟨-, -, hposition, hduration, hcompleted⟩ := record_some hcall
  rw [hd] at hduration
  have hest : row.estimatedRangePosition request = none := by
    have hfrom : estimateExternalStreamPositionFromRange request.startByte row.fileSize
        none = none := by
      cases request.startByte <;> rfl
    rw [estimatedRangePosition, hd, hfrom]
    rfl
  have hinc : 0 < row.incrementSeconds request.now := by
    by_contra hle
    have hnone := h.record_none.2 ⟨not_lt.1 hle, Or.inl hest⟩
    rw [hcall] at hnone
    cases hnone
  have hreached := reached_added (Or.inl hinc)
  rw [h.current] at hreached
  have hnonneg : 0 ≤ row.reachedPosition request := by
    have hposition := h.position
    linarith
  have hnext : row.nextPosition request = round2 (row.reachedPosition request) := by
    rw [nextPosition, hd]
    cases row.iosVlcCloudFallback <;> exact congrArg round2 (max_eq_left hnonneg)
  have hisCompleted : call.isCompleted = false := by
    rw [SaveCall.isCompleted, hcompleted, SaveCall.autoCompleted, hduration]
    rfl
  refine ⟨hisCompleted, ?_⟩
  have hstored : call.storedPosition = round2 (row.reachedPosition request) := by
    rw [SaveCall.storedPosition, hisCompleted, if_neg Bool.false_ne_true, SaveCall.clampedPosition,
      hduration, hposition, hnext]
    dsimp only
    rw [max_eq_left (round2_nonneg hnonneg), (cents_round2 _).round2]
  have hround := le_round2 (row.reachedPosition request)
  rw [hstored]
  linarith

/-- Whether the position goes back. -/
theorem CloudHandoff.next_iff (h : row.CloudHandoff) (hd : row.resolvedDuration = some d) :
    row.lastPositionSeconds ≤ row.nextPosition request ↔
      row.lastPositionSeconds ≤ round2 (maxFallbackPosition d) ∧
        (0 < row.incrementSeconds request.now ∨ row.significantPositionChange request = true ∨
          row.lastPositionSeconds ≤ round2 row.lastPositionSeconds) := by
  have hmono : Monotone round2 := fun _ _ => round2_mono
  rw [h.next hd, hmono.map_min, le_min_iff, and_comm]
  refine and_congr_right fun _ => ?_
  by_cases hadded : 0 < row.incrementSeconds request.now ∨
    row.significantPositionChange request = true
  · have hreached := reached_added hadded
    have hround := le_round2 (row.reachedPosition request)
    rw [h.current] at hreached
    refine iff_of_true (by linarith) ?_
    rcases hadded with hinc | hsig
    · exact Or.inl hinc
    · exact Or.inr (Or.inl hsig)
  · rw [not_or, not_lt, Bool.not_eq_true] at hadded
    rw [reached_same hadded.1 hadded.2, h.current]
    constructor
    · intro hle
      exact Or.inr (Or.inr hle)
    · rintro (hinc | hsig | hle)
      · exact absurd hinc (not_lt.2 hadded.1)
      · rw [hadded.2] at hsig
        cases hsig
      · exact hle

/-- **A request** keeps the movie unfinished and its position exactly under the condition. -/
theorem CloudHandoff.kept_iff (h : row.CloudHandoff) : row.Kept request ↔ row.Keeps request := by
  rw [Keeps]
  cases hd : row.resolvedDuration with
  | none => exact iff_of_true (h.kept_of_none hd) trivial
  | some d =>
    dsimp only
    cases hcall : row.recordExternalStreamActivity request with
    | none =>
      have hkept : row.Kept request := by
        intro call hsome
        rw [hcall] at hsome
        cases hsome
      refine iff_of_true hkept ?_
      obtain ⟨hinc, hest | ⟨hsig, hnext⟩⟩ := h.record_none.1 hcall
      · exact Or.inl ⟨hinc, hest⟩
      · rw [h.next hd, reached_same hinc hsig, h.current] at hnext
        exact Or.inr (Or.inl ⟨hinc, hsig, hnext⟩)
    | some call =>
      obtain ⟨hisCompleted, hstored⟩ := h.saved hd hcall
      have hkept : row.Kept request ↔ 30 < d ∧
          row.lastPositionSeconds ≤ row.nextPosition request := by
        rw [Kept]
        simp only [hcall, Option.mem_some_iff, forall_eq']
        rw [hisCompleted, decide_eq_false_iff_not, not_le]
        refine and_congr_right fun hlong => ?_
        rw [hstored, if_neg (not_le.2 hlong)]
      rw [hkept, h.next_iff hd]
      constructor
      · rintro hlong
        exact Or.inr (Or.inr hlong)
      · rintro (⟨hinc, hest⟩ | ⟨hinc, hsig, hsame⟩ | hlong)
        · have hnone := h.record_none.2 ⟨hinc, Or.inl hest⟩
          rw [hcall] at hnone
          cases hnone
        · rw [← h.current, ← reached_same hinc hsig, ← h.next hd, reached_same hinc hsig, h.current]
            at hsame
          have hnone := h.record_none.2 ⟨hinc, Or.inr ⟨hsig, hsame⟩⟩
          rw [hcall] at hnone
          cases hnone
        · exact hlong

end Cloud

end SessionRow

/-! ### Runs -/

namespace Activity

/-- The movie of the session is marked as completed. -/
def finished (s : Activity) : Bool :=
  (s.tables.progress s.session.userId s.session.mediaItemId).any ProgressRow.completed

/-- The session is one of a cloud item in VLC on iOS, and durations are positive. -/
structure Valid (s : Activity) : Prop where
  session : s.session.CloudHandoff
  stored : ∀ row ∈ s.tables.progress s.session.userId s.session.mediaItemId,
    ∀ d ∈ row.durationSeconds, 0 < d

variable {s s' : Activity} {request : StreamRequest}

/-- A request that records nothing changes nothing; else the progress row and the session get what
is saved. -/
theorem step_cases (hstep : s.step request = some s') :
    (s.session.recordExternalStreamActivity request = none ∧ s' = s) ∨
    ∃ call, s.session.recordExternalStreamActivity request = some call ∧
      s'.tables.progress s.session.userId s.session.mediaItemId = some
        { positionSeconds := call.storedPosition
          durationSeconds := (call.storedDuration (s.tables.existingRow call)).or
            ((s.tables.existingRow call).bind ProgressRow.durationSeconds)
          watchSecondsTotal := call.watchSecondsTotal (s.tables.existingRow call)
          completed := call.isCompleted
          updatedAt := call.now } ∧
      s'.session =
        { s.session with
          lastPositionSeconds := call.storedPosition
          lastDurationSeconds := (call.storedDuration (s.tables.existingRow call)).or
            s.session.lastDurationSeconds
          lastProgressRecordedAt := some request.now } := by
  rw [step] at hstep
  cases hcall : s.session.recordExternalStreamActivity request with
  | none =>
    rw [hcall] at hstep
    cases hstep
    exact Or.inl ⟨rfl, rfl⟩
  | some call =>
    rw [hcall] at hstep
    cases hstep
    obtain ⟨huser, hitem, -⟩ := SessionRow.record_some hcall
    have hprogress := s.tables.saveTransaction_progress call (s.tables.existingRow call)
    rw [huser, hitem] at hprogress
    exact Or.inr ⟨call, rfl, hprogress, rfl⟩

/-- **A request** keeps sessions and rows as they have to be. -/
theorem Valid.step (h : s.Valid) (hstep : s.step request = some s') : s'.Valid := by
  obtain ⟨-, rfl⟩ | ⟨call, hcall, hprogress, hsession⟩ := step_cases hstep
  · exact h
  obtain ⟨huser, hitem, hposition, hduration, -⟩ := SessionRow.record_some hcall
  have hexisting : ∀ d ∈ (s.tables.existingRow call).bind ProgressRow.durationSeconds, 0 < d := by
    intro d hd
    obtain ⟨row, hrow, hd⟩ := Option.bind_eq_some_iff.1 hd
    rw [Tables.existingRow, huser, hitem] at hrow
    exact h.stored row hrow d hd
  have hresolved : ∀ d ∈ call.durationSeconds, 0 < d := by
    rw [hduration]
    exact h.session.duration
  have hstored : ∀ d ∈ call.storedDuration (s.tables.existingRow call), 0 < d := by
    intro d hd
    rcases Option.or_eq_some_iff.1 hd with hd | ⟨-, hd⟩
    · exact hresolved d hd
    · exact hexisting d hd
  have hnonneg : 0 ≤ call.storedPosition := by
    have hclamped : 0 ≤ call.clampedPosition := by
      rw [SaveCall.clampedPosition]
      cases hd : call.durationSeconds with
      | none => exact le_max_right _ _
      | some d => exact le_min (le_max_right _ _) (hresolved d hd).le
    rw [SaveCall.storedPosition]
    split_ifs
    · exact le_refl 0
    · exact round2_nonneg hclamped
  constructor
  · rw [hsession]
    refine ⟨h.session.client, h.session.cloud, hnonneg, ?_⟩
    intro d hd
    rcases Option.or_eq_some_iff.1 hd with hd | ⟨hnone, hd⟩
    · rcases Option.or_eq_some_iff.1 hd with hd | ⟨-, hd⟩
      · exact hstored d hd
      · exact h.session.duration d (Option.or_eq_some_iff.2 (Or.inl hd))
    · have hlast : s.session.lastDurationSeconds = none := (Option.or_eq_none_iff.1 hnone).2
      exact h.session.duration d (Option.or_eq_some_iff.2 (Or.inr ⟨hlast, hd⟩))
  · rw [hsession]
    intro row hrow d hd
    have heq := hrow
    rw [Option.mem_def, hprogress, Option.some_inj] at heq
    rw [← heq] at hd
    rcases Option.or_eq_some_iff.1 hd with hd | ⟨-, hd⟩
    · exact hstored d hd
    · exact hexisting d hd

/-- **A request** that meets the condition does not go back, and does not finish the movie. -/
theorem Valid.step_kept (h : s.Valid) (hkeeps : s.session.Keeps request)
    (hstep : s.step request = some s') :
    s.session.lastPositionSeconds ≤ s'.session.lastPositionSeconds ∧
      (s.finished = false → s'.finished = false) := by
  obtain ⟨-, rfl⟩ | ⟨call, hcall, hprogress, hsession⟩ := step_cases hstep
  · exact ⟨le_refl _, id⟩
  obtain ⟨hcompleted, hle⟩ := h.session.kept_iff.2 hkeeps call hcall
  refine ⟨?_, fun _ => ?_⟩
  · rw [hsession]
    exact hle
  · rw [finished, hsession]
    show (s'.tables.progress s.session.userId s.session.mediaItemId).any
      ProgressRow.completed = false
    rw [hprogress, Option.any_some, hcompleted]

theorem reach_valid {ok : Activity → StreamRequest → Prop} (h : s.Valid) (hs : Reach step ok s s') :
    s'.Valid :=
  Reach.invariant (P := Valid) h (fun _ _ _ _ hv _ hstep => hv.step hstep) hs

end Activity

/-- After every sequence of stream requests on a session of VLC on iOS with a cloud item, a request
saves the movie as not completed and at no earlier position exactly under the condition; and a
sequence of requests that all meet it leaves the movie unfinished and never goes back. -/
theorem cloud_activity_kept (s₀ s : Activity) (h₀ : s₀.Valid)
    (hs : Reach Activity.step (fun _ _ => True) s₀ s) :
    (∀ request, s.session.Kept request ↔ s.session.Keeps request) ∧
      ∀ s', Reach Activity.step (fun s request => s.session.Keeps request) s s' →
        s.session.lastPositionSeconds ≤ s'.session.lastPositionSeconds ∧
          (s.finished = false → s'.finished = false) := by
  have hvalid := Activity.reach_valid h₀ hs
  refine ⟨fun request => hvalid.session.kept_iff, fun s' hs' => ?_⟩
  induction hs' with
  | start => exact ⟨le_refl _, id⟩
  | next hr hkeeps hstep ih =>
    obtain ⟨hle, hfinished⟩ := (Activity.reach_valid hvalid hr).step_kept hkeeps hstep
    exact ⟨ih.1.trans hle, fun h => hfinished (ih.2 h)⟩

/-- A session at a position of a movie. -/
def cloudSession (position duration : ℚ) : SessionRow where
  userId := 1
  mediaItemId := 7
  client := .iosVlcHandoff
  playbackMode := .vlcExternal
  sourceKind := .cloud
  lastPositionSeconds := position
  lastDurationSeconds := none
  durationSeconds := some duration
  fileSize := some 1000000
  createdAt := some 0
  lastProgressRecordedAt := none

/-- A request for the whole file. -/
def wholeFile : StreamRequest := ⟨none, 1000000, 1000000⟩

theorem cloudSession_valid {position duration : ℚ} (hposition : 0 ≤ position)
    (hduration : 0 < duration) : Activity.Valid ⟨.empty, cloudSession position duration⟩ := by
  constructor
  · refine ⟨rfl, rfl, hposition, ?_⟩
    intro d hd
    cases hd
    exact hduration
  · intro row hrow
    cases hrow

theorem cloud_activity_kept_wholeFile :
    (cloudSession 100 6000).Keeps wholeFile ∧ (cloudSession 100 6000).Kept wholeFile := by
  have hkeeps : (cloudSession 100 6000).Keeps wholeFile := by
    refine Or.inr (Or.inr ⟨by norm_num, ?_, Or.inl ?_⟩)
    · decide +kernel
    · decide +kernel
  exact ⟨hkeeps, ((cloud_activity_kept _ _ (cloudSession_valid (by norm_num)
    (by norm_num)) .start).1 wholeFile).2 hkeeps⟩

/-- The first request for a clip of 20 seconds finishes it, and a request at 990 of 1000 seconds
goes back to 969. -/
theorem clip_finished_and_rewound :
    ((cloudSession 0 20).recordExternalStreamActivity wholeFile).map
    SaveCall.isCompleted = some true ∧
      ((cloudSession 990 1000).recordExternalStreamActivity wholeFile).map SaveCall.storedPosition =
        some 969 := by
  constructor
  · decide +kernel
  · decide +kernel

end Progress
