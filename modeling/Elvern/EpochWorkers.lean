/-
The transcoder of a Route2 epoch (`mobile_playback_service.py`): its worker records, the threads
that run `_run_route2_epoch_worker`, and their ffmpeg processes.

An `EpochCell` holds what belongs to one epoch: the records of `_route2_workers` that carry its
epoch id (worker ids are numbers of the cell, handed out once), the threads started for it and the
processes that they spawned.  Each function below is one critical section of the manager's lock, or
a part of one; `EpochCell.step` lists them as actions, with the spawn of a process, which happens
outside the lock, and the exit of a process.  Thread starts and queueings are numbered beside the
source's own data.
-/
import Mathlib.Data.Rat.Floor
import Elvern.Heaps
import Elvern.PyText

open Heaps PyText

namespace Route2

/-- `ROUTE2_TELEMETRY_PROCESS_ATTACH_GRACE_SECONDS` -/
def telemetryProcessAttachGraceSeconds : ℚ := 5

/-- `Route2WorkerRecord.state` -/
inductive WorkerState where
  | queued
  | running
  | paused
  | stopping
  | stopped
  | interrupted
  | failed
  | completed
  deriving DecidableEq

/-- `PlaybackEpoch.state` -/
inductive EpochState where
  | starting
  | warming
  | attachReady
  | active
  | draining
  | ended
  | failed
  deriving DecidableEq

/-- `PlaybackEpoch.replacement_reason`, as far as it is looked at -/
inductive ReplacementReason where
  | audioTrackSwitch
  | maintenanceDownshift
  | adaptiveResupplyBoost
  | other
  deriving DecidableEq

/-- `Route2WorkerRecord` -/
structure WorkerRecord where
  userId : ℕ
  createdAt : ℚ
  state : WorkerState
  process : Option ℕ
  startedAt : Option ℚ
  finishedAt : Option ℚ
  stopRequested : Bool
  assignedThreads : ℕ
  failureCount : ℕ
  deriving DecidableEq

/-- `PlaybackEpoch`, and how often a worker of it has been queued. -/
structure PlaybackEpoch where
  state : EpochState
  activeWorkerId : Option ℕ
  process : Option ℕ
  stopRequested : Bool
  transcoderCompleted : Bool
  lastError : Option String
  replacementReason : Option ReplacementReason
  audioStreamIndex : Option ℕ
  maintenanceDownshiftTargetThreads : Option ℕ
  adaptiveResupplyTargetThreads : Option ℕ
  queueings : ℕ
  deriving DecidableEq

/-- Where a thread of `_run_route2_epoch_worker` stands: before its first block, before the spawn,
before the block that attaches the process, before the exit block, or returned. -/
inductive ThreadPhase where
  | started
  | prepared (threadBudget : ℕ)
  | spawned (threadBudget process : ℕ)
  | attached (process : ℕ)
  | done
  deriving DecidableEq

/-- A thread, with the number of its epoch's queueings and the assignment when it was started. -/
structure WorkerThread where
  workerId : ℕ
  phase : ThreadPhase
  queueing : ℕ
  assignedThreads : ℕ
  deriving DecidableEq

/-- An ffmpeg process and the thread that spawned it. -/
structure Process where
  thread : ℕ
  exitCode : Option ℤ
  deriving DecidableEq

/-- An epoch with its workers, threads and processes.  `listed` says that the epoch is still in
`browser_playback.epochs` of its session, whose user is `userId`. -/
structure EpochCell where
  epoch : PlaybackEpoch
  listed : Bool
  sessionId : ℕ
  userId : ℕ
  workers : Heap WorkerRecord
  threads : Heap WorkerThread
  processes : Heap Process

/-- A new epoch of a user's session, made for a reason, with the targets that the reason comes
with. -/
def EpochCell.new (sessionId userId : ℕ) (reason : Option ReplacementReason)
    (audioStreamIndex downshiftTarget resupplyTarget : Option ℕ) : EpochCell where
  epoch :=
    { state := .starting, activeWorkerId := none, process := none, stopRequested := false,
      transcoderCompleted := false, lastError := none, replacementReason := reason,
        audioStreamIndex,
      maintenanceDownshiftTargetThreads := downshiftTarget,
      adaptiveResupplyTargetThreads := resupplyTarget, queueings := 0 }
  listed := true
  sessionId := sessionId
  userId := userId
  workers := .empty
  threads := .empty
  processes := .empty

/-- `_compact_error_text` -/
def compactErrorText (uni : Unicode) (text : String) : String :=
  let text := String.intercalate " " (split uni text)
  if text.length ≤ 220 then text
  else rstrip uni (String.ofList (text.toList.take 217)) ++ "..."

/-- `str(audio_stream_index)` -/
def indexText (index : Option ℕ) : String := (index.map toString).getD "None"

namespace WorkerRecord

/-- A new record for a user. -/
def new (userId : ℕ) (now : ℚ) : WorkerRecord where
  userId := userId
  createdAt := now
  state := .queued
  process := none
  startedAt := none
  finishedAt := none
  stopRequested := false
  assignedThreads := 0
  failureCount := 0

/-- `_mark_route2_worker_runtime_finished_locked` -/
def markRuntimeFinished (r : WorkerRecord) (now : ℚ) : WorkerRecord :=
  if r.state = .running then { r with finishedAt := none }
  else if r.startedAt.isSome && r.finishedAt.isNone then { r with finishedAt := some now }
  else r

/-- `_mark_route2_worker_unavailable_locked` -/
def markUnavailable (r : WorkerRecord) (now : ℚ) : WorkerRecord :=
  let r :=
    if r.state = .running then
      { r with state := if r.stopRequested then .stopped else .interrupted }
    else r
  { r.markRuntimeFinished now with process := none }

/-- What `_maybe_park_backgrounded_route2_session_locked` does to a record. -/
def park (r : WorkerRecord) : WorkerRecord :=
  match r.state with
  | .queued => { r with state := .paused }
  | .running => { r with stopRequested := true, state := .stopping }
  | _ => r

/-- What `_apply_background_lifecycle_locked` does to a record when the session resumes. -/
def resume (r : WorkerRecord) : WorkerRecord :=
  let state :=
    match r.state with
    | .paused => .queued
    | .stopping => if r.startedAt.isSome && r.finishedAt.isNone then .running else .queued
    | state => state
  { r with state, stopRequested := false }

end WorkerRecord

namespace EpochCell

/-- `process and process.poll() is None` -/
def alive (c : EpochCell) (process : Option ℕ) : Bool :=
  process.any fun p => (c.processes.get p).any fun x => x.exitCode.isNone

/-- Change the epoch. -/
def onEpoch (c : EpochCell) (f : PlaybackEpoch → PlaybackEpoch) : EpochCell :=
  { c with epoch := f c.epoch }

/-- Change a worker record. -/
def onWorker (c : EpochCell) (w : ℕ) (f : WorkerRecord → WorkerRecord) : EpochCell :=
  { c with workers := c.workers.modify w f }

/-- The record of the epoch's active worker. -/
def activeRecord (c : EpochCell) : Option WorkerRecord := c.epoch.activeWorkerId.bind c.workers.get

/-- The process of the epoch, while it runs. -/
def runningProcess (c : EpochCell) : Option ℕ :=
  if c.alive c.epoch.process then c.epoch.process else none

/-- A record after `_sync_route2_worker_record_locked`. -/
def synced (c : EpochCell) (now : ℚ) (r : WorkerRecord) : WorkerRecord :=
  { r with stopRequested := c.epoch.stopRequested, process := c.runningProcess }.markRuntimeFinished
    now

/-- `_sync_route2_worker_record_locked` -/
def syncWorkerRecord (c : EpochCell) (w : ℕ) (now : ℚ) : EpochCell := c.onWorker w (c.synced now)

/-- The worker id that `_ensure_route2_worker_record_locked` returns the record of. -/
def ensuredId (c : EpochCell) : ℕ := c.epoch.activeWorkerId.getD c.workers.next

/-- `_ensure_route2_worker_record_locked` -/
def ensureWorkerRecord (c : EpochCell) (now : ℚ) : EpochCell :=
  let w := c.ensuredId
  let c := c.onEpoch fun e => { e with activeWorkerId := some w }
  let c :=
    match c.workers.get w with
    | some _ => c
    | none => { c with workers := c.workers.put w (.new c.userId now) }
  c.syncWorkerRecord w now

/-- `_finalize_route2_worker_record_locked` -/
def finalizeWorkerRecord (c : EpochCell) (state : WorkerState) (incrementFailure remove : Bool)
    (now : ℚ) : EpochCell :=
  match c.epoch.activeWorkerId with
  | none => c
  | some w =>
    let c := c.ensureWorkerRecord now
    let c := c.onWorker w fun r =>
      let r := { r with
        state, failureCount := if incrementFailure then r.failureCount + 1 else r.failureCount }
      let r := r.markRuntimeFinished now
      if state = .running then r else { r with process := none }
    let c := c.syncWorkerRecord w now
    if remove then { c with workers := c.workers.pop w } else c

/-! ### Queueing and termination -/

/-- `_route2_epoch_needs_worker_locked`, without what it writes. -/
def needsWorker (c : EpochCell) : Bool :=
  !(decide (c.epoch.state = .failed) || decide (c.epoch.state = .draining) ||
    decide (c.epoch.state = .ended)) && !c.epoch.transcoderCompleted &&
  !(c.activeRecord.any fun r =>
    decide (r.state = .queued) || decide (r.state = .running) || decide (r.state = .stopping)) &&
  !c.alive c.epoch.process

/-- What `_route2_epoch_needs_worker_locked` writes: it syncs a record that is at work, and drops
the id of a worker that has no record. -/
def afterNeedsWorker (c : EpochCell) (now : ℚ) : EpochCell :=
  if c.needsWorker then
    if c.activeRecord.isNone then c.onEpoch fun e => { e with activeWorkerId := none } else c
  else
    match c.epoch.activeWorkerId with
    | some w =>
      if !(decide (c.epoch.state = .failed) || decide (c.epoch.state = .draining) ||
          decide (c.epoch.state = .ended)) && !c.epoch.transcoderCompleted &&
          c.activeRecord.any fun r => decide (r.state = .queued) || decide (r.state = .running) ||
            decide (r.state = .stopping) then
        c.syncWorkerRecord w now
      else c
    | none => c

/-- A new worker is queued for the epoch. -/
def queueWorker (c : EpochCell) (now : ℚ) : EpochCell :=
  let c := c.ensureWorkerRecord now
  let c := c.onWorker c.ensuredId fun r => { r with state := .queued, assignedThreads := 0 }
  c.onEpoch fun e =>
    { e with stopRequested := false, state := .starting, queueings := e.queueings + 1 }

/-- The epoch is neither running nor queued and needs a worker. -/
def wouldQueue (c : EpochCell) : Bool :=
  c.listed && !c.alive c.epoch.process &&
  !(c.activeRecord.any fun r => decide (r.state = .queued)) && c.needsWorker

/-- The body of the loop of `_ensure_route2_epoch_workers_locked`. -/
def ensureEpochWorker (c : EpochCell) (now : ℚ) : EpochCell :=
  if c.listed = false then c
  else if c.alive c.epoch.process then
    let c := c.ensureWorkerRecord now
    let c := c.onWorker c.ensuredId fun r => { r with state := .running }
    let c := c.syncWorkerRecord c.ensuredId now
    if c.epoch.state = .starting then c.onEpoch fun e => { e with state := .warming } else c
  else if c.activeRecord.any fun r => decide (r.state = .queued) then
    let c := c.syncWorkerRecord c.ensuredId now
    if c.epoch.state = .failed ∨ c.epoch.state = .draining ∨ c.epoch.state = .ended then c
    else c.onEpoch fun e => { e with state := .starting }
  else if c.needsWorker then (c.afterNeedsWorker now).queueWorker now
  else c.afterNeedsWorker now

/-- The processes after `terminate` and `wait` on the epoch's process. -/
def killed (c : EpochCell) (exitCode : ℤ) : Heap Process :=
  match c.runningProcess with
  | none => c.processes
  | some p => c.processes.modify p fun x => { x with exitCode := some exitCode }

/-- `_terminate_route2_epoch_locked`; a process that was running ends with `exitCode`. -/
def terminate (c : EpochCell) (removeWorkerRecord : Bool) (exitCode : ℤ) (now : ℚ) : EpochCell :=
  let worker := c.epoch.activeWorkerId
  let c := c.finalizeWorkerRecord .stopping false false now
  let c := { c with
    epoch := { c.epoch with stopRequested := true, activeWorkerId := none, process := none }
    processes := c.killed exitCode }
  let c := c.onEpoch fun e => { e with activeWorkerId := worker }
  let c := c.finalizeWorkerRecord .stopped false removeWorkerRecord now
  c.onEpoch fun e => { e with activeWorkerId := none }

/-- `_discard_route2_epoch_locked`, on the epoch. -/
def discard (c : EpochCell) (exitCode : ℤ) (now : ℚ) : EpochCell :=
  { c.terminate true exitCode now with listed := false }

/-! ### Dispatch, parking and telemetry -/

/-- The end of an iteration of `_dispatch_waiting_route2_workers_locked` for the queued record `w`:
it runs with `assigned` threads, and a thread is started for it. -/
def launch (c : EpochCell) (w assigned : ℕ) (now : ℚ) : EpochCell :=
  let c := c.onWorker w fun r =>
    { r with
      state := .running
      assignedThreads := assigned
      startedAt := r.startedAt.or (some now) }
  let c := c.syncWorkerRecord w now
  { c with
    threads := c.threads.alloc
      { workerId := w, phase := .started, queueing := c.epoch.queueings,
        assignedThreads := assigned } }

/-- Parking and resuming set the epoch's stop flag if they find the epoch through a record. -/
def setStop (c : EpochCell) (stop : Bool) : EpochCell :=
  if c.listed && (List.range c.workers.next).any fun w => (c.workers.get w).isSome then
    c.onEpoch fun e => { e with stopRequested := stop }
  else c

/-- The session of the epoch is parked. -/
def park (c : EpochCell) : EpochCell := { c with workers := c.workers.mapAll .park }.setStop true

/-- The session of the epoch resumes. -/
def resume (c : EpochCell) : EpochCell :=
  { c with workers := c.workers.mapAll .resume }.setStop false

/-- A running record without a process is given time from its start before it is unavailable. -/
def withinGrace (r : WorkerRecord) (now : ℚ) : Bool :=
  decide (r.state = .running) &&
    decide (now - r.startedAt.getD r.createdAt ≤ telemetryProcessAttachGraceSeconds)

/-- The record is found unavailable by `_sample_route2_worker_telemetry_locked`. -/
def unavailable (c : EpochCell) (r : WorkerRecord) (now : ℚ) : Bool :=
  match r.process with
  | none => !withinGrace r now
  | some p => !c.alive (some p)

/-- `_sample_route2_worker_telemetry_locked`, for a running record. -/
def sample (c : EpochCell) (w : ℕ) (now : ℚ) : EpochCell :=
  c.onWorker w fun r =>
    if r.state = .running ∧ c.unavailable r now = true then r.markUnavailable now else r

/-! ### The blocks of `_run_route2_epoch_worker` -/

/-- The thread goes on. -/
def onThread (c : EpochCell) (i : ℕ) (phase : ThreadPhase) : EpochCell :=
  { c with threads := c.threads.modify i fun t => { t with phase } }

/-- The thread drops its worker record and returns. -/
def abandon (c : EpochCell) (i w : ℕ) : EpochCell :=
  { c with workers := c.workers.pop w }.onThread i .done

/-- The epoch is found by the thread of worker `w`, and is still that worker's. -/
def owns (c : EpochCell) (registered : Bool) (w : ℕ) : Bool :=
  registered && c.listed && decide (c.epoch.activeWorkerId = some w)

/-- The epoch and its worker have failed. -/
def fail (c : EpochCell) (error : String) (now : ℚ) : EpochCell :=
  (c.onEpoch fun e => { e with state := .failed, lastError := some error }).finalizeWorkerRecord
    .failed true false now

/-- The first block: `buildError` is the exception of `_build_route2_epoch_ffmpeg_command`.
`registered` says that the session is still in `_sessions`. -/
def startBlock (uni : Unicode) (minWorkerThreads : ℕ) (c : EpochCell) (i : ℕ) (t : WorkerThread)
    (registered : Bool) (buildError : Option String) (now : ℚ) : EpochCell :=
  if c.owns registered t.workerId then
    match c.workers.get t.workerId with
    | none => c.onThread i .done
    | some r =>
      match buildError with
      | none =>
        c.onThread i (.prepared (max minWorkerThreads
          (if r.assignedThreads = 0 then minWorkerThreads else r.assignedThreads)))
      | some error =>
        let error :=
          if c.epoch.replacementReason = some .audioTrackSwitch then
            "FFmpeg command could not be built while preparing selected audio stream " ++
              indexText c.epoch.audioStreamIndex ++ ": " ++ compactErrorText uni error
          else orElse error "Browser Playback Route 2 could not prepare the source"
        (c.fail error now).onThread i .done
  else c.abandon i t.workerId

/-- `subprocess.Popen`, outside the lock. -/
def spawn (c : EpochCell) (i threadBudget : ℕ) : EpochCell :=
  { c with processes := c.processes.alloc { thread := i, exitCode := none } }.onThread i
    (.spawned threadBudget c.processes.next)

/-- The block that handles the `OSError` of a spawn. -/
def spawnErrorBlock (c : EpochCell) (i : ℕ) (t : WorkerThread) (registered : Bool) (error : String)
    (now : ℚ) : EpochCell :=
  if registered && c.listed then (c.fail error now).onThread i .done else c.abandon i t.workerId

/-- The block that attaches the process `p`. -/
def attachBlock (c : EpochCell) (i : ℕ) (t : WorkerThread) (threadBudget p : ℕ) (registered : Bool)
    (now : ℚ) : EpochCell :=
  if c.owns registered t.workerId then
    let c := c.onEpoch fun e =>
      { e with process := some p, state := if e.state = .starting then .warming else e.state }
    let c := c.ensureWorkerRecord now
    let c := c.onWorker t.workerId fun r =>
      { r with
        state := .running, assignedThreads := threadBudget, startedAt := r.startedAt.or (some now) }
    (c.syncWorkerRecord t.workerId now).onThread i (.attached p)
  else c.abandon i t.workerId

/-- What the exit block reads besides the state: the tail of stderr and the error of the source. -/
structure ExitReport where
  stderrTail : String
  sourceInputError : Option String

/-- The `last_error` that a failed process leaves. -/
def exitError (uni : Unicode) (e : PlaybackEpoch) (returnCode : ℤ) (report : ExitReport) : String :=
  let source := report.sourceInputError.getD ""
  if e.replacementReason = some .audioTrackSwitch then
    if source ≠ "" then
      "Cloud/source input failed while preparing selected audio stream " ++
        indexText e.audioStreamIndex ++ ": " ++ compactErrorText uni source
    else
      let hint := compactErrorText uni report.stderrTail
      "FFmpeg failed while preparing selected audio stream " ++ indexText e.audioStreamIndex ++
        if hint ≠ "" then ": " ++ hint
        else " (ffmpeg exited with code " ++ toString returnCode ++ ")"
  else if source ≠ "" then strip uni source
  else
    "Browser Playback Route 2 epoch transcoder failed (ffmpeg exited with code " ++
      toString returnCode ++ ")"

/-- The exit block, for a process that ended with `returnCode`. -/
def exitBlock (uni : Unicode) (c : EpochCell) (i : ℕ) (t : WorkerThread) (returnCode : ℤ)
    (registered : Bool) (report : ExitReport) (now : ℚ) : EpochCell :=
  if registered && c.listed then
    let c := c.onEpoch fun e => { e with process := none }
    if c.epoch.stopRequested ∨ c.epoch.state = .draining ∨ c.epoch.state = .ended then
      let c := c.onEpoch fun e => { e with stopRequested := false }
      (c.finalizeWorkerRecord .stopped false false now).onThread i .done
    else if returnCode ≠ 0 then
      (c.fail (exitError uni c.epoch returnCode report) now).onThread i .done
    else
      let c := c.onEpoch fun e => { e with transcoderCompleted := true, lastError := none }
      (c.finalizeWorkerRecord .completed false false now).onThread i .done
  else c.abandon i t.workerId

/-! ### What a write to a record leaves -/

section Records

variable {c : EpochCell} {now : ℚ} {r : WorkerRecord} {w j : ℕ}

@[simp] theorem markRuntimeFinished_state : (r.markRuntimeFinished now).state = r.state := by
  rw [WorkerRecord.markRuntimeFinished]
  split
  · rfl
  · split <;> rfl

@[simp] theorem markRuntimeFinished_process : (r.markRuntimeFinished now).process = r.process := by
  rw [WorkerRecord.markRuntimeFinished]
  split
  · rfl
  · split <;> rfl

@[simp] theorem markRuntimeFinished_assignedThreads :
    (r.markRuntimeFinished now).assignedThreads = r.assignedThreads := by
  rw [WorkerRecord.markRuntimeFinished]
  split
  · rfl
  · split <;> rfl

@[simp] theorem synced_state : (c.synced now r).state = r.state := markRuntimeFinished_state

@[simp] theorem synced_process : (c.synced now r).process = c.runningProcess :=
  markRuntimeFinished_process

@[simp] theorem synced_assignedThreads : (c.synced now r).assignedThreads = r.assignedThreads :=
  markRuntimeFinished_assignedThreads

/-- The record of the active worker exists afterwards, with the epoch's running process. -/
theorem ensureWorkerRecord_self (now : ℚ) :
    ∃ r', (c.ensureWorkerRecord now).workers.get c.ensuredId = some r' ∧
    r'.process = c.runningProcess ∧
    ∀ r, c.workers.get c.ensuredId = some r →
      r'.state = r.state ∧ r'.assignedThreads = r.assignedThreads := by
  simp only [ensureWorkerRecord, syncWorkerRecord, onWorker, onEpoch]
  rcases hw : c.workers.get c.ensuredId with _ | r
  · exact ⟨_, by rw [Heap.get_modify_self, Heap.get_put_self]; rfl, synced_process, by simp⟩
  · refine ⟨_, by rw [Heap.get_modify_self, hw]; rfl, synced_process, fun r₀ hr₀ => ?_⟩
    cases hr₀
    exact ⟨synced_state, synced_assignedThreads⟩

theorem ensureWorkerRecord_ne (now : ℚ) (hj : j ≠ c.ensuredId) :
    (c.ensureWorkerRecord now).workers.get j = c.workers.get j := by
  simp only [ensureWorkerRecord, syncWorkerRecord, onWorker, onEpoch]
  rcases hw : c.workers.get c.ensuredId with _ | r
  · rw [Heap.get_modify_ne hj, Heap.get_put_ne hj]
  · rw [Heap.get_modify_ne hj]

/-- Everything but the records, where the epoch has an active worker. -/
theorem ensureWorkerRecord_frame (now : ℚ) (hw : c.epoch.activeWorkerId = some w) :
    ∃ workers, c.ensureWorkerRecord now = { c with workers } ∧ c.workers.next ≤ workers.next := by
  have hid : c.ensuredId = w := by rw [ensuredId, hw, Option.getD_some]
  have hepoch : (c.onEpoch fun e => { e with activeWorkerId := some w }) = c := by
    rw [onEpoch, ← hw]
  simp only [ensureWorkerRecord, hid, hepoch]
  rcases c.workers.get w with _ | r
  · exact ⟨_, rfl, Nat.le_max_left _ _⟩
  · exact ⟨_, rfl, le_refl _⟩

/-- Where the record exists it is synced, and nothing else happens. -/
theorem ensureWorkerRecord_of_record (hw : c.epoch.activeWorkerId = some w)
    (hr : c.workers.get w = some r) : c.ensureWorkerRecord now = c.syncWorkerRecord w now := by
  have hid : c.ensuredId = w := by rw [ensuredId, hw, Option.getD_some]
  have hepoch : (c.onEpoch fun e => { e with activeWorkerId := some w }) = c := by
    rw [onEpoch, ← hw]
  simp only [ensureWorkerRecord, hid, hepoch, hr]

theorem ensureWorkerRecord_epoch :
    (c.ensureWorkerRecord now).epoch = { c.epoch with activeWorkerId := some c.ensuredId } := by
  simp only [ensureWorkerRecord]
  rcases (c.onEpoch _).workers.get c.ensuredId with _ | r
  · rfl
  · rfl

theorem ensureWorkerRecord_threads : (c.ensureWorkerRecord now).threads = c.threads := by
  simp only [ensureWorkerRecord]
  rcases (c.onEpoch _).workers.get c.ensuredId with _ | r
  · rfl
  · rfl

theorem ensureWorkerRecord_processes : (c.ensureWorkerRecord now).processes = c.processes := by
  simp only [ensureWorkerRecord]
  rcases (c.onEpoch _).workers.get c.ensuredId with _ | r
  · rfl
  · rfl

/-- The id of the ensured record is in use afterwards. -/
theorem ensureWorkerRecord_next (now : ℚ) :
    c.workers.next ≤ (c.ensureWorkerRecord now).workers.next ∧
    c.ensuredId < (c.ensureWorkerRecord now).workers.next := by
  obtain ⟨r, hr, -, -⟩ := ensureWorkerRecord_self (c := c) now
  refine ⟨?_, Heap.lt_next hr⟩
  simp only [ensureWorkerRecord]
  rcases (c.onEpoch _).workers.get c.ensuredId with _ | r
  · exact Nat.le_max_left _ _
  · exact le_refl _

theorem finalizeWorkerRecord_none {state : WorkerState} {inc remove : Bool}
    (hw : c.epoch.activeWorkerId = none) : c.finalizeWorkerRecord state inc remove now = c := by
  rw [finalizeWorkerRecord, hw]

/-- The record of the active worker gets the final state; nothing else changes. -/
theorem finalizeWorkerRecord_spec (state : WorkerState) (inc remove : Bool) (now : ℚ)
    (hw : c.epoch.activeWorkerId = some w) : ∃ workers,
      c.finalizeWorkerRecord state inc remove now = { c with workers } ∧
      c.workers.next ≤ workers.next ∧ (∀ j, j ≠ w → workers.get j = c.workers.get j) ∧
      ∀ r, workers.get w = some r → r.state = state := by
  have hid : c.ensuredId = w := by rw [ensuredId, hw, Option.getD_some]
  obtain ⟨workers, hframe, hnext⟩ := ensureWorkerRecord_frame now hw
  have hne : ∀ j, j ≠ w → workers.get j = c.workers.get j := by
    intro j hj
    have h := ensureWorkerRecord_ne (c := c) (j := j) now (by rw [hid]; exact hj)
    rwa [hframe] at h
  rw [finalizeWorkerRecord, hw]
  simp only [hframe]
  cases remove with
  | true =>
    refine ⟨_, rfl, hnext, fun j hj => ?_, fun r hr => ?_⟩
    · simp only [syncWorkerRecord, onWorker]
      rw [Heap.get_pop_ne hj, Heap.get_modify_ne hj, Heap.get_modify_ne hj, hne j hj]
    · rw [Heap.get_pop_self] at hr
      cases hr
  | false =>
    refine ⟨_, rfl, hnext, fun j hj => ?_, fun r hr => ?_⟩
    · simp only [onWorker]
      rw [Heap.get_modify_ne hj, Heap.get_modify_ne hj, hne j hj]
    · simp only [onWorker, Heap.get_modify_self, Option.map_map,
        Option.map_eq_some_iff, Function.comp] at hr
      obtain ⟨r₀, _, rfl⟩ := hr
      rw [synced_state]
      split
      · exact markRuntimeFinished_state
      · exact markRuntimeFinished_state

/-- The epoch lets go of its worker and its process; the record is stopped or dropped. -/
theorem terminate_spec (c : EpochCell) (remove : Bool) (exitCode : ℤ) (now : ℚ) : ∃ workers,
    c.terminate remove exitCode now =
      { c with
        epoch := { c.epoch with stopRequested := true, activeWorkerId := none, process := none }
        processes := c.killed exitCode
        workers } ∧
    c.workers.next ≤ workers.next ∧
    (∀ j, c.epoch.activeWorkerId ≠ some j → workers.get j = c.workers.get j) ∧
    ∀ w r, c.epoch.activeWorkerId = some w → workers.get w = some r → r.state = .stopped := by
  rcases hw : c.epoch.activeWorkerId with _ | w
  · refine ⟨c.workers, ?_, le_refl _, fun _ _ => rfl, fun _ _ h => by cases h⟩
    rw [terminate, finalizeWorkerRecord_none hw]
    simp only [onEpoch, hw]
    rw [finalizeWorkerRecord_none rfl]
  · obtain ⟨workers, hfin, hnext, hne, -⟩ := finalizeWorkerRecord_spec (c := c) .stopping false
      false now hw
    obtain ⟨workers', hfin', hnext', hne', hstate⟩ := finalizeWorkerRecord_spec
      (c := { c with
        epoch := { c.epoch with stopRequested := true, activeWorkerId := some w, process := none }
        processes := c.killed exitCode
        workers }) (w := w) .stopped false remove now rfl
    refine ⟨workers', ?_, hnext.trans hnext', fun j hj => ?_, fun w' r hw' hr => ?_⟩
    · have hkilled : EpochCell.killed { c with workers } exitCode = c.killed exitCode := rfl
      rw [terminate, hfin]
      simp only [onEpoch, hw, hkilled]
      rw [hfin']
    · have hj' : j ≠ w := fun h => hj (by rw [h])
      rw [hne' j hj']
      exact hne j hj'
    · cases hw'
      exact hstate r hr

end Records

/-! ### The system -/

/-- The steps of an epoch. -/
inductive Action where
  /-- Another operation writes the state of the epoch and its stop flag. -/
  | touch (state : EpochState) (stopRequested : Bool)
  | ensure (now : ℚ)
  | launch (w assigned : ℕ) (now : ℚ)
  | park
  | resume
  | terminate (removeWorkerRecord : Bool) (exitCode : ℤ) (now : ℚ)
  | discard (exitCode : ℤ) (now : ℚ)
  | sample (w : ℕ) (now : ℚ)
  | start (i : ℕ) (registered : Bool) (buildError : Option String) (now : ℚ)
  | spawn (i : ℕ)
  | spawnError (i : ℕ) (registered : Bool) (error : String) (now : ℚ)
  | attach (i : ℕ) (registered : Bool) (now : ℚ)
  /-- The process ends by itself. -/
  | processExit (p : ℕ) (exitCode : ℤ)
  | exit (i : ℕ) (registered : Bool) (report : ExitReport) (now : ℚ)

/-- One step; `none` where it is not enabled. -/
def step (uni : Unicode) (minWorkerThreads : ℕ) (c : EpochCell) : Action → Option EpochCell
  | .touch state stop => some (c.onEpoch fun e => { e with state, stopRequested := stop })
  | .ensure now => some (c.ensureEpochWorker now)
  | .launch w assigned now =>
    if c.listed = true ∧ (c.workers.get w).any (fun r => decide (r.state = .queued)) = true then
      some (c.launch w assigned now)
    else none
  | .park => some c.park
  | .resume => some c.resume
  | .terminate remove exitCode now => some (c.terminate remove exitCode now)
  | .discard exitCode now => some (c.discard exitCode now)
  | .sample w now => some (c.sample w now)
  | .start i registered buildError now =>
    match c.threads.get i with
    | some ⟨w, .started, q, a⟩ =>
      some (c.startBlock uni minWorkerThreads i ⟨w, .started, q, a⟩ registered buildError now)
    | _ => none
  | .spawn i =>
    match c.threads.get i with
    | some ⟨_, .prepared budget, _, _⟩ => some (c.spawn i budget)
    | _ => none
  | .spawnError i registered error now =>
    match c.threads.get i with
    | some ⟨w, .prepared budget, q, a⟩ =>
      some (c.spawnErrorBlock i ⟨w, .prepared budget, q, a⟩ registered error now)
    | _ => none
  | .attach i registered now =>
    match c.threads.get i with
    | some ⟨w, .spawned budget p, q, a⟩ =>
      some (c.attachBlock i ⟨w, .spawned budget p, q, a⟩ budget p registered now)
    | _ => none
  | .processExit p exitCode =>
    if c.alive (some p) then
      some { c with processes := c.processes.modify p fun x =>
        { x with exitCode := some exitCode } }
    else none
  | .exit i registered report now =>
    match c.threads.get i with
    | some ⟨w, .attached p, q, a⟩ =>
      ((c.processes.get p).bind Process.exitCode).map fun code =>
        c.exitBlock uni i ⟨w, .attached p, q, a⟩ code registered report now
    | _ => none

end EpochCell

end Route2
