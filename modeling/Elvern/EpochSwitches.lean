/-
The epochs of a Route2 browser playback (`mobile_playback_service.py`): the
active epoch, its replacement, and the audio track that each of them plays.

A `Playback` is what `BrowserPlaybackSession` keeps of them: the epoch map, the
two epoch ids, the attach revision, the three audio indexes and the candidate of
an audio switch.  `Playback.refresh` is `_refresh_route2_session_authority_locked`
in phases, in the order of the source; the operations of a session follow.  What
is measured, timed or asked of the workers and of the guards comes with an
operation as `Gates`; workers change the states of the current epochs in steps
of their own.

Epoch ids are numbers that are handed out once.
-/
import Elvern.EpochWorkers
import Elvern.Heaps

open Heaps
open Route2 (EpochState)

namespace EpochSwitches

/-- `PlaybackEpoch.replacement_reason` -/
inductive Reason where
  | outOfRangeSeek
  | activeEpochFailure
  | drainingEpochRetry
  | audioTrackSwitch
  | maintenanceDownshift
  | adaptiveResupplyBoost
  deriving DecidableEq

/-- `PlaybackEpoch` -/
structure Epoch where
  state : EpochState
  drainTargetAttachRevision : ℕ
  replacementReason : Option Reason
  audioStreamIndex : Option ℕ
  deriving DecidableEq

/-- `audio_switch_state` -/
inductive SwitchState where
  | active
  | candidatePreparing
  | candidateReady
  | committing
  | failed
  deriving DecidableEq

/-- `audio_switch_candidate_state` -/
inductive CandidateState where
  | none
  | preparing
  | ready
  | committing
  deriving DecidableEq

/-- A change of `active_epoch_id`: the attach revision before and after it, and
the drain target of the epoch that is left behind.  Nothing reads it. -/
structure Switch where
  before : ℕ
  after : ℕ
  drainTarget : Option ℕ
  deriving DecidableEq

/-- `BrowserPlaybackSession` -/
structure Playback where
  epochs : Heap Epoch
  activeEpochId : Option ℕ
  replacementEpochId : Option ℕ
  replacementEpochCount : ℕ
  attachRevision : ℕ
  selectedAudioStreamIndex : Option ℕ
  activeAudioStreamIndex : Option ℕ
  pendingAudioStreamIndex : Option ℕ
  audioSwitchState : SwitchState
  candidateEpochId : Option ℕ
  candidateStreamIndex : Option ℕ
  candidateState : CandidateState
  switches : List Switch

/-- What an operation measures, reads from the clock or is told by the workers
and the guards. -/
structure Gates where
  /-- `_route2_epoch_is_draining_expired_locked`, for a draining epoch. -/
  drainExpired : ℕ → Bool
  /-- `_is_non_retryable_cloud_source_error`, of the replacement, the active epoch
  and the session. -/
  replacementNonRetryable : Bool
  activeNonRetryable : Bool
  sessionNonRetryable : Bool
  /-- `now_ts >= replacement_retry_not_before_ts`, at its two places. -/
  failureRetryDue : Bool
  drainingRetryDue : Bool
  /-- `_route2_epoch_startup_attach_ready_locked` of the active epoch. -/
  activeReady : Bool
  /-- `_maybe_start_route2_resupply_locked` and `_maybe_start_route2_downshift_locked`
  start a replacement. -/
  resupplyStarts : Bool
  downshiftStarts : Bool
  /-- There is an abort reason for the downshift or the resupply. -/
  adaptiveAborts : Bool
  /-- `_route2_downshift_replacement_ready_locked` -/
  adaptiveReady : Bool
  /-- `_route2_downshift_promotion_would_interrupt_active_client_locked` -/
  downshiftDeferred : Bool
  /-- The candidate's time is over. -/
  candidateExpired : Bool
  /-- The replacement is ready to be attached, and guarded. -/
  replacementReady : Bool
  /-- `_route2_audio_switch_candidate_runway_status_locked` -/
  runwaySatisfied : Bool
  /-- The replacement, or the active epoch, has a worker or a process. -/
  replacementWorks : Bool
  activeWorks : Bool
  /-- `_guard_route2_full_attach_boundary_locked`, when a revision is issued for a
  promotion, when the active epoch is looked at, and for the first revision. -/
  promotionGuard : Bool
  activeGuard : Bool
  firstGuard : Bool
  /-- `client_attach_revision >= attach_revision` -/
  clientCaughtUp : Bool
  /-- `_ensure_route2_epoch_workers_locked` finds a process (`true`), a queued or
  missing worker (`false`), or leaves the epoch. -/
  workerFound : ℕ → Option Bool

namespace Playback

variable (p : Playback) (g : Gates)

/-! ### Parts -/

/-- `epochs.get(active_epoch_id)` -/
def activeEpoch : Option Epoch := p.activeEpochId.bind p.epochs.get

/-- `epochs.get(replacement_epoch_id)` -/
def replacementEpoch : Option Epoch := p.replacementEpochId.bind p.epochs.get

/-- The active epoch or its replacement. -/
def current (i : ℕ) : Bool := p.activeEpochId = some i || p.replacementEpochId = some i

def setState (i : ℕ) (state : EpochState) : Playback :=
  { p with epochs := p.epochs.modify i fun e => { e with state := state } }

/-- `_build_route2_epoch_locked` -/
def buildEpoch (reason : Option Reason) : Epoch where
  state := .starting
  drainTargetAttachRevision := 0
  replacementReason := reason
  audioStreamIndex := p.selectedAudioStreamIndex

/-- `_discard_route2_epoch_locked` -/
def discard (i : ℕ) : Playback :=
  { p with
    replacementEpochId := if p.replacementEpochId = some i then none else p.replacementEpochId
    epochs := p.epochs.pop i }

/-- `_mark_route2_epoch_draining_locked` -/
def markDraining (i : ℕ) (required : ℕ) : Playback :=
  { p with
    epochs := p.epochs.modify i fun e =>
      { e with
        state := .draining
        drainTargetAttachRevision := max e.drainTargetAttachRevision required } }

/-- `_issue_route2_attach_revision_locked` -/
def issueAttachRevision (next : ℕ) (guard : Bool) : Playback :=
  if p.attachRevision = next then p
  else if 0 < next ∧ guard = false then p
  else { p with attachRevision := next }

/-- `_clear_route2_audio_switch_candidate_locked` -/
def clearCandidate : Playback :=
  { p with candidateEpochId := none, candidateStreamIndex := none, candidateState := .none }

/-- `_set_route2_audio_switch_failed_locked` -/
def setSwitchFailed : Playback :=
  { p.clearCandidate with
    pendingAudioStreamIndex := none
    audioSwitchState := .failed
    selectedAudioStreamIndex :=
      if p.activeAudioStreamIndex.isSome then p.activeAudioStreamIndex
      else p.selectedAudioStreamIndex }

/-- `_fail_route2_audio_switch_locked` -/
def failSwitch (e : Epoch) : Playback :=
  if e.replacementReason ≠ some .audioTrackSwitch then p else p.setSwitchFailed

/-- `_route2_audio_switch_candidate_epoch_locked` -/
def candidateEpoch : Option ℕ :=
  match p.candidateEpochId.or p.replacementEpochId with
  | none => none
  | some i =>
    match p.epochs.get i with
    | none => none
    | some e =>
      if e.replacementReason ≠ some .audioTrackSwitch then none
      else if p.replacementEpochId ≠ some i then none
      else some i

/-- `_cancel_route2_audio_switch_candidate_locked` -/
def cancelCandidate (failed : Bool) : Playback :=
  let q :=
    match p.candidateEpoch with
    | some i => p.discard i
    | none =>
      match p.candidateEpochId with
      | some i => p.discard i
      | none => p
  { q.clearCandidate with
    replacementEpochId := none
    pendingAudioStreamIndex := none
    selectedAudioStreamIndex := q.activeAudioStreamIndex
    audioSwitchState := if failed then .failed else .active }

/-- The replacement that `_create_route2_replacement_epoch_locked` finds is given up. -/
def supersede (reason : Reason) : Playback :=
  match p.replacementEpochId with
  | none => p
  | some i =>
    match p.epochs.get i with
    | none => p.discard i
    | some e =>
      (if e.replacementReason = some .audioTrackSwitch ∧ reason ≠ .audioTrackSwitch then
        p.failSwitch e else p).discard i

/-- A new epoch becomes the replacement. -/
def addReplacement (reason : Reason) : Playback :=
  { p with
    epochs := p.epochs.alloc (p.buildEpoch (some reason))
    replacementEpochId := some p.epochs.next }

/-- `_create_route2_replacement_epoch_locked` returns no epoch: the session has had
its number of replacement epochs. -/
def capped (cap : ℕ) : Bool := cap ≤ p.replacementEpochCount

/-- `_create_route2_replacement_epoch_locked` -/
def createReplacement (cap : ℕ) (reason : Reason) : Playback :=
  let q := p.supersede reason
  if q.capped cap then q
  else { q.addReplacement reason with replacementEpochCount := q.replacementEpochCount + 1 }

/-- `_create_route2_downshift_replacement_epoch_locked` and
`_create_route2_resupply_replacement_epoch_locked` -/
def createAdaptive (reason : Reason) : Playback :=
  if p.replacementEpochId.isSome then p else p.addReplacement reason

/-- `_abort_route2_downshift_replacement_locked` and
`_abort_route2_resupply_replacement_locked`: the epoch, which they end, is discarded. -/
def abortAdaptive (i : ℕ) : Playback := p.discard i

/-- A change of `active_epoch_id` is noted. -/
def noteSwitch (before : ℕ) (left : Option ℕ) : Playback :=
  { p with
    switches := p.switches ++ [⟨before, p.attachRevision,
      (left.bind p.epochs.get).map Epoch.drainTargetAttachRevision⟩] }

/-- `_promote_route2_replacement_epoch_locked` -/
def promote (r : ℕ) (e : Epoch) : Playback :=
  let next := max 1 (p.attachRevision + 1)
  let p₁ :=
    match p.activeEpochId with
    | none => p
    | some a => if a ≠ r then p.markDraining a next else p
  let p₂ := { p₁ with activeEpochId := some r, replacementEpochId := none }
  let p₃ :=
    if e.replacementReason = some .audioTrackSwitch then
      { p₂.clearCandidate with
        activeAudioStreamIndex := e.audioStreamIndex
        selectedAudioStreamIndex := e.audioStreamIndex
        pendingAudioStreamIndex := none
        audioSwitchState := .committing }
    else p₂
  (p₃.issueAttachRevision next g.promotionGuard).noteSwitch p.attachRevision p.activeEpochId

/-- `_promote_route2_downshift_replacement_epoch_locked`, where it is not deferred,
and `_promote_route2_resupply_replacement_epoch_locked` -/
def promoteAdaptive (r : ℕ) : Playback :=
  if p.activeEpochId = some r then p
  else
    let next := max 1 (p.attachRevision + 1)
    let p₁ := { p.setState r .attachReady with activeEpochId := some r, replacementEpochId := none }
    let p₂ := p₁.issueAttachRevision next g.promotionGuard
    let p₃ :=
      match p.activeEpochId with
      | none => p₂
      | some a => p₂.markDraining a p₂.attachRevision
    p₃.noteSwitch p.attachRevision p.activeEpochId

/-! ### The phases of a refresh -/

/-- `_cleanup_route2_draining_epochs_locked` -/
def cleanup : Playback :=
  (List.range p.epochs.next).foldl (fun q i =>
    if (q.epochs.get i).any (fun e => e.state = .draining) && !q.current i && g.drainExpired i then
      q.discard i
    else q) p

/-- A replacement has failed; the second part says that the refresh is over. -/
def settleFailedReplacement : Playback × Bool :=
  match p.replacementEpochId, p.replacementEpoch with
  | some r, some e =>
    if e.state = .failed then
      match e.replacementReason with
      | some .audioTrackSwitch => ((p.failSwitch e).discard r, false)
      | some .maintenanceDownshift => (p.abortAdaptive r, false)
      | some .adaptiveResupplyBoost => (p.abortAdaptive r, false)
      | _ =>
        (p.discard r, g.replacementNonRetryable ||
          (p.activeEpoch.any (fun a => a.state = .draining) && !g.activeReady))
    else (p, false)
  | _, _ => (p, false)

/-- The active epoch has failed. -/
def settleFailedActive (cap : ℕ) : Playback × Bool :=
  match p.activeEpochId, p.activeEpoch with
  | some a, some e =>
    if e.state = .failed then
      let q := p.markDraining a 0
      if g.activeNonRetryable then (q, true)
      else if q.replacementEpochId = none && g.failureRetryDue then
        (q.createReplacement cap .activeEpochFailure, q.capped cap)
      else (q, false)
    else (p, false)
  | _, _ => (p, false)

/-- The active epoch drains and has no replacement. -/
def retryDraining (cap : ℕ) : Playback × Bool :=
  if p.replacementEpochId = none && p.activeEpoch.any (fun a => a.state = .draining) &&
      g.drainingRetryDue then
    if g.sessionNonRetryable then (p, true)
    else (p.createReplacement cap .drainingEpochRetry, p.capped cap)
  else (p, false)

/-- The active epoch has neither failed nor ended, and does not drain. -/
def activePlays : Bool :=
  p.activeEpoch.any fun a => !(a.state = .failed || a.state = .draining || a.state = .ended)

/-- The adaptive replacements. -/
def startAdaptive : Playback :=
  let q := if p.activePlays && g.resupplyStarts then p.createAdaptive .adaptiveResupplyBoost else p
  if q.activePlays && g.downshiftStarts then q.createAdaptive .maintenanceDownshift else q

/-- A replacement that is not ready is warming or starting. -/
def waitReplacement (r : ℕ) (e : Epoch) : Playback :=
  if g.replacementWorks then p.setState r .warming
  else if e.state = .failed ∨ e.state = .ended then p
  else p.setState r .starting

/-- A downshift or a resupply is aborted, promoted or waited for. -/
def settleAdaptive (reason : Reason) : Playback :=
  match p.replacementEpochId, p.replacementEpoch with
  | some r, some e =>
    if e.replacementReason = some reason then
      if g.adaptiveAborts then p.abortAdaptive r
      else if g.adaptiveReady then
        if reason = .maintenanceDownshift ∧ g.downshiftDeferred then p.setState r .attachReady
        else p.promoteAdaptive g r
      else p.waitReplacement g r e
    else p
  | _, _ => p

/-- The candidate of an audio switch is ready. -/
def readyCandidate (r : ℕ) (e : Epoch) : Playback :=
  { p.setState r .attachReady with
    candidateEpochId := some r
    candidateStreamIndex := e.audioStreamIndex
    candidateState := .ready
    audioSwitchState := .candidateReady
    pendingAudioStreamIndex := e.audioStreamIndex }

/-- The candidate of an audio switch is waited for. -/
def waitCandidate (r : ℕ) (e : Epoch) : Playback :=
  { p.waitReplacement g r e with
    audioSwitchState := .candidatePreparing
    candidateState := .preparing }

/-- The replacement of an audio switch. -/
def settleCandidate (r : ℕ) (e : Epoch) : Playback :=
  if g.candidateExpired ∧ p.candidateState ≠ .committing then p.cancelCandidate true
  else if e.state = .ended then (p.failSwitch e).discard r
  else if g.replacementReady then
    if p.candidateState = .committing then p.promote g r e else p.readyCandidate r e
  else p.waitCandidate g r e

/-- A replacement for any other reason. -/
def settlePlain (r : ℕ) (e : Epoch) : Playback :=
  if g.replacementReady then p.promote g r e else p.waitReplacement g r e

/-- A replacement that is not an adaptive one. -/
def settleReplacement : Playback :=
  match p.replacementEpochId, p.replacementEpoch with
  | some r, some e =>
    match e.replacementReason with
    | some .maintenanceDownshift => p
    | some .adaptiveResupplyBoost => p
    | some .audioTrackSwitch => p.settleCandidate g r e
    | _ => p.settlePlain g r e
  | _, _ => p

/-- `_ensure_route2_epoch_workers_locked`, on an epoch. -/
def ensureWorker (i : Option ℕ) : Playback :=
  match i with
  | none => p
  | some i =>
    match g.workerFound i with
    | none => p
    | some true => p.setState i .warming
    | some false => p.setState i .starting

/-- `_ensure_route2_epoch_workers_locked` -/
def ensureWorkers : Playback :=
  (p.ensureWorker g p.activeEpochId).ensureWorker g p.replacementEpochId

/-- The switch that the client has followed is over. -/
def finishCommit : Playback :=
  if p.audioSwitchState = .committing ∧ g.clientCaughtUp ∧ p.replacementEpochId = none then
    { p with audioSwitchState := .active }
  else p

/-- The state of an active epoch that is ready. -/
def settleReadyActive (a : ℕ) (e : Epoch) : Playback :=
  if p.replacementEpochId = none ∧ e.state ≠ .draining then
    p.setState a (if g.clientCaughtUp then .active else .attachReady)
  else p

/-- The state of an active epoch that is not ready. -/
def settleUnreadyActive (a : ℕ) (e : Epoch) : Playback :=
  if g.activeWorks then p.setState a .warming
  else if e.state = .draining ∨ e.state = .failed ∨ e.state = .ended then p
  else p.setState a .starting

/-- The end of a refresh: the first attach revision and the active epoch. -/
def settleActive : Playback :=
  match p.activeEpochId, p.activeEpoch with
  | some a, some e =>
    if p.replacementEpochId = none ∧ e.state = .draining ∧ g.activeReady = false then
      p.ensureWorkers g
    else
      let attachReady := g.activeReady && g.activeGuard
      let q :=
        if attachReady && p.attachRevision = 0 then p.issueAttachRevision 1 g.firstGuard else p
      let q := q.finishCommit g
      (if attachReady then q.settleReadyActive g a e else q.settleUnreadyActive g a
        e).ensureWorkers g
  | _, _ => p

/-- What a refresh does once nothing has ended it early. -/
def settle : Playback :=
  ((((p.startAdaptive g).settleAdaptive g .maintenanceDownshift).settleAdaptive g
    .adaptiveResupplyBoost).settleReplacement g).settleActive g

/-- `_refresh_route2_session_authority_locked` -/
def refresh (cap : ℕ) : Playback :=
  let q := p.cleanup g
  if q.activeEpoch = none then q
  else
    let r₁ := q.settleFailedReplacement g
    if r₁.2 then r₁.1
    else
      let r₂ := r₁.1.settleFailedActive g cap
      if r₂.2 then r₂.1
      else
        let r₃ := r₂.1.retryDraining g cap
        if r₃.2 then r₃.1 else r₃.1.settle g

/-! ### The operations of a session -/

/-- `seek_session` -/
def seek (cap : ℕ) (inEpoch : Bool) : Playback :=
  match p.activeEpoch with
  | none => p
  | some _ =>
    if inEpoch then
      (match p.replacementEpochId with
        | none => p
        | some r => p.discard r).refresh g cap
    else (p.createReplacement cap .outOfRangeSeek).refresh g cap

/-- `_route2_audio_switch_in_progress_locked` -/
def switchInProgress : Bool :=
  match p.audioSwitchState with
  | .committing => !g.clientCaughtUp
  | .candidatePreparing => true
  | .candidateReady => true
  | s =>
    p.pendingAudioStreamIndex.isSome || p.candidateEpochId.isSome ||
      p.replacementEpoch.any (fun e => e.replacementReason = some .audioTrackSwitch) ||
      (s = .active && p.activeAudioStreamIndex.isSome && 0 < p.attachRevision && !g.clientCaughtUp)

/-- A switch to the track `k` is prepared. -/
def prepareSwitch (cap k : ℕ) : Playback :=
  let q := p.createReplacement cap .audioTrackSwitch
  if (p.supersede .audioTrackSwitch).capped cap then
    { q with
      selectedAudioStreamIndex := q.activeAudioStreamIndex
      pendingAudioStreamIndex := none
      audioSwitchState := .failed }
  else
    { q with
      epochs := q.epochs.modify (p.supersede .audioTrackSwitch).epochs.next fun e =>
        { e with audioStreamIndex := some k }
      selectedAudioStreamIndex := some k
      pendingAudioStreamIndex := some k
      audioSwitchState := .candidatePreparing
      candidateEpochId := some (p.supersede .audioTrackSwitch).epochs.next
      candidateStreamIndex := some k
      candidateState := .preparing }

/-- `select_audio_track`; `trusted` says that the track is in the trusted probe
metadata. -/
def select (cap k : ℕ) (trusted : Bool) : Playback :=
  if p.switchInProgress g then p.refresh g cap
  else if !trusted then p.setSwitchFailed.refresh g cap
  else if p.activeAudioStreamIndex = some k ∧ p.pendingAudioStreamIndex = none then
    { p with
      selectedAudioStreamIndex := some k
      audioSwitchState := .active : Playback }.refresh g cap
  else (p.prepareSwitch cap k).refresh g cap

/-- The end of `commit_audio_track_candidate`. -/
def commitCandidate : Playback :=
  match p.candidateEpoch with
  | none => p
  | some r =>
    if p.candidateState ≠ .ready then p
    else if !g.runwaySatisfied then
      { p with candidateState := .preparing, audioSwitchState := .candidatePreparing }
    else
      match p.epochs.get r with
      | none => p
      | some e =>
        { p with
          candidateState := .committing
          audioSwitchState := .committing : Playback }.promote g r e

/-- `commit_audio_track_candidate` -/
def commit (cap : ℕ) : Playback := (p.refresh g cap).commitCandidate g

/-- `cancel_audio_track_candidate` -/
def cancel (cap : ℕ) : Playback := (p.cancelCandidate false).refresh g cap

end Playback

/-- The operations of a session. -/
inductive Operation where
  | seek (g : Gates) (inEpoch : Bool)
  | select (g : Gates) (k : ℕ) (trusted : Bool)
  | commit (g : Gates)
  | cancel (g : Gates)
  | refresh (g : Gates)
  /-- A reclaim for another user starts a downshift. -/
  | downshift
  | cleanup (g : Gates)
  /-- A worker leaves a current epoch in another state. -/
  | worker (i : ℕ) (state : EpochState)

/-- One operation; `cap` is `route2_max_replacement_epochs_per_session`. -/
def Playback.run (cap : ℕ) (p : Playback) : Operation → Playback
  | .seek g inEpoch => p.seek g cap inEpoch
  | .select g k trusted => p.select g cap k trusted
  | .commit g => p.commit g cap
  | .cancel g => p.cancel g cap
  | .refresh g => p.refresh g cap
  | .downshift => p.createAdaptive .maintenanceDownshift
  | .cleanup g => p.cleanup g
  | .worker i state => if p.current i then p.setState i state else p

/-- `_initialize_route2_session_locked`, with the audio track that was asked for. -/
def Playback.new (selected : Option ℕ) : Playback where
  epochs := Heap.empty.alloc ⟨.starting, 0, none, selected⟩
  activeEpochId := some 0
  replacementEpochId := none
  replacementEpochCount := 0
  attachRevision := 0
  selectedAudioStreamIndex := selected
  activeAudioStreamIndex := selected
  pendingAudioStreamIndex := none
  audioSwitchState := .active
  candidateEpochId := none
  candidateStreamIndex := none
  candidateState := .none
  switches := []

end EpochSwitches
