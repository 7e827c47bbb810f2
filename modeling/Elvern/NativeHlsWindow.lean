/-
The sliding manifest window of a native-HLS session (`route2_native_hls_window.py`,
`mobile_playback_service.py`).

Heartbeats bring the positions of the client and slide the window; manifest requests cut the
published segments by it. Times are exact decimals. Of the engine only whether it is native HLS is
kept, of a playlist line what it says, not how its numbers are written.

* `computeNativeHlsWindow`, `shouldRefreshNativeHlsWindow` — the window of an anchor, and the
  decision to slide;
* `Session.updateRuntime` — a heartbeat;
* `sliceManifestSegmentsForWindow`, `renderRoute2EpochManifestText` — the playlist;
* `Session.step` — an operation on the session.
-/
import Elvern.CloudActivity

open Runs Progress

namespace NativeHls

/-! ### The window -/

def nativeHlsBackWindowSeconds : ℚ := 120
def windowEdgeRefreshRunwaySeconds : ℚ := 20
def windowAnchorDriftRefreshSeconds : ℚ := 10
def windowEdgeRefreshMinSeconds : ℚ := 4
def windowEdgeRefreshRatio : ℚ := 35 / 100
def segmentDurationSeconds : ℚ := 2

/-- The labels of `BUFFER_TIER_FORWARD_SECONDS`. -/
inductive BufferTier
  | liteFast
  | liteUncertain
  | liteUndersupply
  | fullHealthy
  | fullBadCondition
  deriving DecidableEq

/-- `playback_mode` -/
inductive Mode
  | lite
  | full
  deriving DecidableEq

/-- `BUFFER_TIER_FORWARD_SECONDS` -/
def BufferTier.forwardSeconds : BufferTier → ℚ
  | .liteFast => 15
  | .liteUncertain => 45
  | .liteUndersupply => 180
  | .fullHealthy => 120
  | .fullBadCondition => 900

/-- `compute_window_forward_seconds`; a missing tier is an empty label. -/
def computeWindowForwardSeconds (tier : Option BufferTier) (mode : Mode) : ℚ :=
  match tier, mode with
  | some tier, _ => tier.forwardSeconds
  | none, .full => BufferTier.fullHealthy.forwardSeconds
  | none, .lite => BufferTier.liteUncertain.forwardSeconds

/-- `resolve_window_anchor_seconds` -/
def resolveWindowAnchorSeconds (current target attach : ℚ) : ℚ :=
  if 0 < current then current else if 0 < target then target else if 0 < attach then attach else 0

/-- The fields of `compute_native_hls_window`. -/
structure Window where
  start : ℚ
  stop : ℚ
  anchor : ℚ
  back : ℚ
  forward : ℚ
  deriving DecidableEq

/-- `compute_native_hls_window` -/
def computeNativeHlsWindow (anchorSeconds durationSeconds : ℚ)
    (tier : Option BufferTier) (mode : Mode) :
    Window :=
  let anchor := max 0 anchorSeconds
  let duration := max 0 durationSeconds
  let forward := computeWindowForwardSeconds tier mode
  let clamped := if 0 < duration then min anchor duration else anchor
  let rawEnd := clamped + forward
  let stop := max 0 (if 0 < duration then min duration rawEnd else rawEnd)
  let start := max 0 (clamped - nativeHlsBackWindowSeconds)
  { start := round2 start
    stop := round2 (if stop < start then start else stop)
    anchor := round2 clamped
    back := round2 nativeHlsBackWindowSeconds
    forward := round2 forward }

/-- `last_emitted_window_reason` -/
inductive Reason
  | initial
  | bufferTierChanged
  | approachingWindowEnd
  | anchorDrift
  deriving DecidableEq

/-- The fields `last_emitted_window_*`. -/
structure Emitted where
  initialized : Bool
  window : Window
  tier : Option BufferTier
  reason : Option Reason
  revision : ℕ

/-- `compute_window_edge_refresh_runway` -/
def computeWindowEdgeRefreshRunway (forward : ℚ) : ℚ :=
  if forward ≤ 0 then windowEdgeRefreshRunwaySeconds
  else
    min windowEdgeRefreshRunwaySeconds
      (max windowEdgeRefreshMinSeconds (forward * windowEdgeRefreshRatio))

/-- `should_refresh_native_hls_window`, as the heartbeat calls it -/
def shouldRefreshNativeHlsWindow (current : Option ℚ) (window : Window) (tierChanged : Bool)
    (anchorDrift : ℚ) : Option Reason :=
  if tierChanged then some .bufferTierChanged
  else
    match current with
    | none => none
    | some current =>
      if window.start < window.stop ∧
          window.stop - current ≤ computeWindowEdgeRefreshRunway window.forward then
        some .approachingWindowEnd
      else if max 0 anchorDrift < |current - window.anchor| then some .anchorDrift
      else none

/-! ### The session -/

/-- `lifecycle_state`; suspended is `background-suspended` or `background-parked`. -/
inductive Lifecycle
  | attached
  | playing
  | suspended
  | other
  deriving DecidableEq

structure Epoch where
  epochStartSeconds : ℚ
  attachPositionSeconds : ℚ
  initPublished : Bool
  contiguousPublishedThroughSegment : Option ℕ
  transcoderCompleted : Bool

structure Session where
  durationSeconds : ℚ
  nativeHls : Bool
  playbackMode : Mode
  lifecycleState : Lifecycle
  clientCurrentTimeSeconds : Option ℚ
  committedPlayheadSeconds : ℚ
  actualMediaElementTimeSeconds : ℚ
  lastStablePositionSeconds : ℚ
  targetPositionSeconds : ℚ
  attachRevision : ℕ
  epochs : ℕ → Option Epoch
  activeEpochId : Option ℕ
  emitted : Emitted

/-- The arguments of `update_runtime` that bear on the window, and what it finds on its way. -/
structure Heartbeat where
  lifecycleState : Option Lifecycle
  nativeHls : Option Bool
  committedPlayheadSeconds : Option ℚ
  actualMediaElementTimeSeconds : Option ℚ
  clientCurrentTimeSeconds : Option ℚ
  /-- the replacement epoch that `_refresh_route2_session_authority_locked` promotes -/
  promoted : Option ℕ
  /-- `_latest_buffer_tier_locked` -/
  bufferTier : Option BufferTier

/-- The client plays at a position. -/
def Heartbeat.playingAt (position : ℚ) : Heartbeat :=
  ⟨some .playing, none, some position, some position, some position, none, some .fullHealthy⟩

/-- `_clamp_time` -/
def clampTime (position duration : ℚ) : ℚ :=
  if duration ≤ 0 then max 0 position else min (max 0 position) (max (duration - 1) 0)

namespace Session

variable (s : Session)

def activeEpoch : Option Epoch := s.activeEpochId.bind s.epochs

/-- `strongest_stable_position` of a heartbeat -/
def strongestStablePosition : ℚ :=
  max (max s.committedPlayheadSeconds s.actualMediaElementTimeSeconds)
    (max s.lastStablePositionSeconds s.targetPositionSeconds)

/-- A position that a client in the background reports as zero is not taken. -/
def taken (suspended : Bool) (position : Option ℚ) : Option ℚ :=
  position.filter fun p => !(suspended && decide (1 < s.strongestStablePosition) &&
    decide (p ≤ 1 / 1000))

/-- A heartbeat up to the window. -/
def observe (h : Heartbeat) : Session :=
  let suspended := decide (h.lifecycleState = some .suspended)
  let committed := (s.taken suspended h.committedPlayheadSeconds).map
    (clampTime · s.durationSeconds)
  let actual := (s.taken suspended h.actualMediaElementTimeSeconds).map
    (clampTime · s.durationSeconds)
  let current := (s.taken suspended h.clientCurrentTimeSeconds).map (max 0)
  let replacement := h.promoted.bind s.epochs
  { s with
    nativeHls := h.nativeHls.getD s.nativeHls
    lifecycleState := h.lifecycleState.getD s.lifecycleState
    clientCurrentTimeSeconds := current.or s.clientCurrentTimeSeconds
    committedPlayheadSeconds := committed.getD s.committedPlayheadSeconds
    actualMediaElementTimeSeconds := actual.getD s.actualMediaElementTimeSeconds
    lastStablePositionSeconds := committed.getD s.lastStablePositionSeconds
    targetPositionSeconds :=
      (replacement.map Epoch.attachPositionSeconds).getD s.targetPositionSeconds
    attachRevision := if replacement.isSome then s.attachRevision + 1 else s.attachRevision
    activeEpochId := if replacement.isSome then h.promoted else s.activeEpochId }

/-- `strongest_anchor_position` -/
def strongestAnchorPosition : ℚ :=
  max (max (s.clientCurrentTimeSeconds.getD 0) s.committedPlayheadSeconds)
    (max (max s.actualMediaElementTimeSeconds s.lastStablePositionSeconds) s.targetPositionSeconds)

/-- The anchor of the window that a heartbeat wants. -/
def anchor (epoch : Epoch) : ℚ :=
  resolveWindowAnchorSeconds s.strongestAnchorPosition s.targetPositionSeconds
    epoch.attachPositionSeconds

def desired (epoch : Epoch) (tier : Option BufferTier) : Window :=
  computeNativeHlsWindow (s.anchor epoch) s.durationSeconds tier s.playbackMode

/-- The decision to refresh the emitted window. -/
def decision (epoch : Epoch) (tier : Option BufferTier) : Option Reason :=
  shouldRefreshNativeHlsWindow s.clientCurrentTimeSeconds s.emitted.window
    (tier.isSome && decide (tier ≠ s.emitted.tier))
    (max windowAnchorDriftRefreshSeconds ((s.desired epoch tier).forward * (1 / 2)))

/-- The window that is wanted is another one. -/
def changed (epoch : Epoch) (tier : Option BufferTier) : Bool :=
  let desired := s.desired epoch tier
  decide (1 / 2 < |desired.start - s.emitted.window.start|) ||
    decide (1 / 2 < |desired.stop - s.emitted.window.stop|) || decide (tier ≠ s.emitted.tier)

/-- `_maybe_advance_native_hls_window_locked` -/
def maybeAdvanceNativeHlsWindow (tier : Option BufferTier) : Session :=
  match s.activeEpoch with
  | none => s
  | some epoch =>
    if s.nativeHls = false then s
    else if s.lifecycleState ≠ .attached ∧ s.lifecycleState ≠ .playing ∧
      s.emitted.initialized then s
    else
      let desired := s.desired epoch tier
      if s.emitted.initialized = false then
        { s with
          emitted :=
            { initialized := true
              window := desired
              tier := tier
              reason := some .initial
              revision := max s.emitted.revision s.attachRevision } }
      else
        match s.decision epoch tier with
        | none => s
        | some reason =>
          if s.changed epoch tier then
            { s with
              emitted :=
                { s.emitted with
                  window := desired
                  tier := tier
                  reason := some reason
                  revision := s.emitted.revision + 1 } }
          else
            let kept := { s.emitted.window with anchor := desired.anchor }
            { s with emitted := { s.emitted with window := kept } }

/-- Only the emitted window changes. -/
theorem advance_emitted (tier : Option BufferTier) :
    ∃ emitted, s.maybeAdvanceNativeHlsWindow tier = { s with emitted := emitted } := by
  rw [maybeAdvanceNativeHlsWindow]
  split
  · exact ⟨_, rfl⟩
  · split
    · exact ⟨_, rfl⟩
    · split
      · exact ⟨_, rfl⟩
      · dsimp only
        split
        · exact ⟨_, rfl⟩
        · split
          · exact ⟨_, rfl⟩
          · split
            · exact ⟨_, rfl⟩
            · exact ⟨_, rfl⟩

/-- The window slides. -/
def slides (epoch : Epoch) (tier : Option BufferTier) : Bool :=
  (s.decision epoch tier).isSome && s.changed epoch tier

/-- A session that has an active epoch, is attached or playing and has emitted a window slides it,
or leaves it, or keeps it but for the anchor. -/
theorem advance_live {epoch : Epoch} (hepoch : s.activeEpoch = some epoch)
    (hnative : s.nativeHls = true)
    (hlive : s.lifecycleState = .attached ∨ s.lifecycleState = .playing)
    (hinit : s.emitted.initialized = true) (tier : Option BufferTier) :
    (s.slides epoch tier = true ∧ ∃ reason, s.maybeAdvanceNativeHlsWindow tier =
      { s with
        emitted :=
          { s.emitted with
            window := s.desired epoch tier
            tier := tier
            reason := some reason
            revision := s.emitted.revision + 1 } }) ∨
    (s.decision epoch tier = none ∧ s.maybeAdvanceNativeHlsWindow tier = s) ∨
    (s.changed epoch tier = false ∧ ∃ anchor, s.maybeAdvanceNativeHlsWindow tier =
      { s with emitted :=
          { s.emitted with window := { s.emitted.window with anchor := anchor } } }) := by
  have hlive' : ¬ (s.lifecycleState ≠ .attached ∧ s.lifecycleState ≠ .playing ∧
      s.emitted.initialized = true) := by
    rintro ⟨hattached, hplaying, -⟩
    rcases hlive with h | h
    · exact hattached h
    · exact hplaying h
  rw [maybeAdvanceNativeHlsWindow, hepoch, slides]
  dsimp only
  rw [if_neg (by rw [hnative]; exact Bool.noConfusion), if_neg hlive',
    if_neg (by rw [hinit]; exact Bool.noConfusion)]
  cases hdecision : s.decision epoch tier with
  | none => exact Or.inr (Or.inl ⟨rfl, rfl⟩)
  | some reason =>
    dsimp only
    by_cases hchanged : s.changed epoch tier = true
    · rw [if_pos hchanged, hchanged]
      exact Or.inl ⟨rfl, reason, rfl⟩
    · rw [Bool.not_eq_true] at hchanged
      rw [hchanged, if_neg Bool.false_ne_true]
      exact Or.inr (Or.inr ⟨rfl, _, rfl⟩)

/-- `update_runtime` -/
def updateRuntime (h : Heartbeat) : Session :=
  (s.observe h).maybeAdvanceNativeHlsWindow h.bufferTier

end Session

/-! ### The manifest -/

/-- The fields of `slice_manifest_segments_for_window`. -/
structure Slice where
  firstSegmentIndex : ℕ
  lastSegmentIndex : ℕ
  mediaSequenceNumber : ℕ
  firstSegmentStartSeconds : ℚ

/-- `round(x, 3)` -/
def round3 (x : ℚ) : ℚ := roundHalfEven (1000 * x) / 1000

/-- `first_candidate` -/
def firstCandidate (relativeStart : ℚ) : ℤ :=
  let candidate := ⌊relativeStart / segmentDurationSeconds⌋
  if (candidate + 1) * segmentDurationSeconds ≤ relativeStart + 1 / 1000000 then candidate + 1
  else candidate

/-- `last_candidate` -/
def lastCandidate (relativeEnd : ℚ) : ℤ :=
  let candidate := ⌊relativeEnd / segmentDurationSeconds⌋
  if relativeEnd - 1 / 1000000 ≤ candidate * segmentDurationSeconds ∧
    0 < candidate then candidate - 1
  else candidate

/-- `slice_manifest_segments_for_window` -/
def sliceManifestSegmentsForWindow (manifestEndSegment : ℕ) (epochStart : ℚ)
    (windowStart windowEnd : ℚ) :
    Slice :=
  let start := max 0 epochStart
  if windowEnd ≤ windowStart then
    ⟨manifestEndSegment, manifestEndSegment, manifestEndSegment,
      round3 (start + manifestEndSegment * segmentDurationSeconds)⟩
  else
    let relativeStart := max 0 (windowStart - start)
    let relativeEnd := max relativeStart (windowEnd - start)
    let first := (max 0 (min (manifestEndSegment : ℤ) (firstCandidate relativeStart))).toNat
    let last := max first (min (manifestEndSegment : ℤ) (lastCandidate relativeEnd)).toNat
    ⟨first, last, first, round3 (start + first * segmentDurationSeconds)⟩

/-- A line of a playlist. -/
inductive Line
  | extM3u
  | version (n : ℕ)
  | targetDuration (n : ℤ)
  | mediaSequence (n : ℕ)
  | playlistTypeEvent
  | independentSegments
  | map (uri : String)
  | start (timeOffset : ℚ)
  | extInf (seconds : ℚ)
  | segment (index : ℕ)
  | endList
  deriving DecidableEq

/-- The lines of the segments between two indexes. -/
def segmentLines (epochStart duration : ℚ) (first last : ℕ) : List Line :=
  (List.range' first (last + 1 - first)).flatMap fun index : ℕ =>
    let remaining := max 0 (duration - (epochStart + (index : ℚ) * segmentDurationSeconds))
    let seconds := if 0 < duration then min segmentDurationSeconds remaining
      else segmentDurationSeconds
    [.extInf seconds, .segment index]

/-- `render_route2_epoch_manifest_text`; the window is `none` where it is not given. -/
def renderRoute2EpochManifestText (epochStartSeconds attachPositionSeconds : ℚ)
    (manifestEndSegment : ℕ)
    (durationSeconds : ℚ) (manifestComplete : Bool) (window : Option (ℚ × ℚ)) : List Line :=
  let epochStart := max 0 epochStartSeconds
  let duration := max 0 durationSeconds
  let slice := (window.filter fun w => decide (w.1 < w.2)).map fun w =>
    sliceManifestSegmentsForWindow manifestEndSegment epochStart w.1 w.2
  let shown := slice.getD ⟨0, manifestEndSegment, 0, epochStart⟩
  let offset := max 0 (max 0 attachPositionSeconds - shown.firstSegmentStartSeconds)
  [.extM3u, .version 7, .targetDuration ⌈segmentDurationSeconds⌉,
      .mediaSequence shown.mediaSequenceNumber] ++
    (if slice.isSome then [] else [.playlistTypeEvent]) ++
    [.independentSegments, .map "init.mp4", .start offset] ++
    segmentLines epochStart duration shown.firstSegmentIndex shown.lastSegmentIndex ++
    (if manifestComplete then [.endList] else [])

namespace Session

variable (s : Session) (epoch : Epoch)

/-- `total_epoch_segments` -/
def totalEpochSegments : ℕ :=
  max 1 ⌈max (s.durationSeconds - epoch.epochStartSeconds) 0 / segmentDurationSeconds⌉.toNat

/-- The window that a manifest request passes on. -/
def servedWindow : Option (ℚ × ℚ) :=
  if s.nativeHls && s.emitted.initialized then some (s.emitted.window.start, s.emitted.window.stop)
  else none

/-- `get_route2_epoch_manifest_content`; `none` where it raises `FileNotFoundError` -/
def getRoute2EpochManifestContent : Option (List Line) :=
  match epoch.initPublished, epoch.contiguousPublishedThroughSegment with
  | true, some frontier =>
    let total := s.totalEpochSegments epoch
    let manifestEndSegment := min frontier (total - 1)
    let manifestComplete := epoch.transcoderCompleted && decide (total - 1 ≤ manifestEndSegment)
    some (renderRoute2EpochManifestText epoch.epochStartSeconds epoch.attachPositionSeconds
      manifestEndSegment s.durationSeconds manifestComplete s.servedWindow)
  | _, _ => none

/-! ### Operations -/

/-- `_build_route2_epoch_locked` -/
def buildRoute2Epoch (target : ℚ) : Epoch :=
  let position := clampTime target s.durationSeconds
  ⟨max 0 (round2 (position - 20)), position, false, none, false⟩

/-- Another record for an epoch. -/
def setEpoch (id : ℕ) (epoch : Epoch) : Session :=
  { s with epochs := Function.update s.epochs id (some epoch) }

inductive Action
  | createEpoch (id : ℕ) (target : ℚ)
  /-- the published files, as the next rebuild finds them -/
  | publish (id : ℕ) (initPublished : Bool) (frontier : Option ℕ)
  | complete (id : ℕ)
  | heartbeat (h : Heartbeat)

def step (s : Session) : Action → Option Session
  | .createEpoch id target =>
    match s.epochs id with
    | none => some (s.setEpoch id (s.buildRoute2Epoch target))
    | some _ => none
  | .publish id initPublished frontier =>
    (s.epochs id).map fun epoch =>
      s.setEpoch id
        { epoch with
          initPublished := initPublished
          contiguousPublishedThroughSegment := frontier }
  | .complete id =>
    (s.epochs id).map fun epoch => s.setEpoch id { epoch with transcoderCompleted := true }
  | .heartbeat h => some (s.updateRuntime h)

end Session

end NativeHls
