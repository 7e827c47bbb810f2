/-
Backup jobs under a lease (`backup_job_service.py`).

Several managers run their jobs on one database with one clock.  A `Job` is the
row of a job together with what belongs to it outside the row: its catalog row, its
staging directory, its checkpoint file, and the thread that runs it.  Every step of
a thread is one transaction or one step on the file system, and may raise; where a
lease is asserted in one transaction and used in the next, these are two steps.

The paths of different jobs are different.
-/
import Mathlib.Logic.Function.Basic
import Mathlib.Tactic.Common
import Elvern.Runs

open Runs

namespace BackupJobs

/-- The stages that a checkpoint reports. -/
inductive Stage where
  | snapshottingDatabase
  | collectingComponents
  | sealingManifest
  | archiving
  | encrypting
  | writingCheckpoint
  | verifyingCheckpoint
  deriving DecidableEq

/-- `backup_jobs.state` -/
inductive JobState where
  | queued
  | stage (s : Stage)
  | completed
  | failed
  | interrupted
  deriving DecidableEq

/-- The state is not in `ACTIVE_BACKUP_JOB_STATES`. -/
def JobState.terminal : JobState → Bool
  | .completed | .failed | .interrupted => true
  | _ => false

/-- What is written once the lease has been asserted. -/
inductive Write where
  | progress (s : Stage)
  | stagingPath
  | backupPath
  deriving DecidableEq

/-- Where `_run_job` is. -/
inductive Phase where
  | starting
  /-- In `create_backup_checkpoint`, before the staging directory. -/
  | working
  | staged
  /-- The staging directory is remembered, its path is not yet recorded. -/
  | remembered
  | building
  /-- The checkpoint file is in its place. -/
  | written
  /-- `create_backup_checkpoint` has returned. -/
  | returned
  | recorded
  | cataloged
  /-- After the completion transaction. -/
  | committed
  /-- In the handler of an exception, of `BackupLeaseLostError` or of another one. -/
  | failing (lost : Bool)
  | cleaned (lost : Bool)
  /-- Before the lease is released. -/
  | finishing
  | ended
  deriving DecidableEq

/-- A job: its row, its artifacts and its thread. -/
structure Job where
  owner : ℕ
  state : JobState
  stagingPath : Bool
  backupPath : Bool
  catalogRow : Bool
  stagingDirectory : Bool
  checkpointFile : Bool
  phase : Phase
  write : Option Write
  /-- The event `lease_lost`. -/
  lost : Bool
  deriving DecidableEq

/-- The row that `start_job` inserts, and the thread that it starts. -/
def Job.queued (owner : ℕ) : Job where
  owner := owner
  state := .queued
  stagingPath := false
  backupPath := false
  catalogRow := false
  stagingDirectory := false
  checkpointFile := false
  phase := .starting
  write := none
  lost := false

/-- What the thread of a job does next: its next step, a call of a progress callback, or an
exception. -/
inductive Act where
  | proceed
  | progress (s : Stage)
  | raise
  deriving DecidableEq

namespace Job

variable (job : Job)

/-- `create_backup_checkpoint` has a staging directory to remove in its `finally`. -/
def remembers : Bool :=
  match job.phase with
  | .remembered | .building | .written => true
  | _ => false

/-- The exception is handled. -/
def fail (lost : Bool) : Job :=
  { job with
    phase := .failing lost
    write := none
    stagingDirectory := job.stagingDirectory && !job.remembers }

/-- The write that follows an assertion. -/
def applyWrite : Write → Job
  | .progress s => { job with state := .stage s, write := none }
  | .stagingPath => { job with stagingPath := true, phase := .building, write := none }
  | .backupPath => { job with backupPath := true, phase := .recorded, write := none }

/-- `_assert_lease_owned`, before a write. -/
def assertThen (owned : Bool) (w : Write) : Job :=
  if owned && !job.lost then { job with write := some w } else job.fail true

/-- `_cleanup_job_artifacts`, with the paths that it has read. -/
def cleanup (staging backup : Bool) : Job :=
  { job with
    stagingDirectory := job.stagingDirectory && !staging
    checkpointFile := job.checkpointFile && !backup }

/-- The checkpoint file that `_cleanup_job_artifacts` removes. -/
def removable : Bool := job.backupPath && !job.catalogRow

/-- A step of the thread; `owned` says that the lease is the job's and has not expired, and the
second part of the result that the job deletes its lease. -/
def step (owned : Bool) (act : Act) : Option (Job × Bool) :=
  match job.write, act with
  | some w, .proceed => some (job.applyWrite w, false)
  | some _, .raise => some (job.fail false, false)
  | some _, .progress _ => none
  | none, .progress s =>
    match job.phase with
    | .building | .written => some (job.assertThen owned (.progress s), false)
    | _ => none
  | none, .raise =>
    match job.phase with
    | .failing _ | .cleaned _ => some ({ job with phase := .finishing }, false)
    | .finishing => some ({ job with phase := .ended }, false)
    | .ended => none
    | _ => some (job.fail false, false)
  | none, .proceed =>
    match job.phase with
    | .starting =>
      some (if owned && !job.lost then { job with phase := .working } else job.fail true, false)
    | .working => some ({ job with phase := .staged, stagingDirectory := true }, false)
    | .staged => some ({ job with phase := .remembered }, false)
    | .remembered => some (job.assertThen owned .stagingPath, false)
    | .building => some ({ job with phase := .written, checkpointFile := true }, false)
    | .written => some ({ job with phase := .returned, stagingDirectory := false }, false)
    | .returned => some (job.assertThen owned .backupPath, false)
    | .recorded =>
      some (if owned then { job with phase := .cataloged, catalogRow := true } else job.fail true,
        false)
    | .cataloged =>
      if owned then some ({ job with phase := .committed, state := .completed }, true)
      else some (job.fail true, false)
    | .committed => some ({ job with phase := .finishing }, false)
    | .failing lost =>
      some ({ job.cleanup job.stagingPath job.removable with phase := .cleaned lost }, false)
    | .cleaned true => some ({ job with phase := .finishing, catalogRow := false }, false)
    | .cleaned false => some ({ job with phase := .finishing, state := .failed }, false)
    | .finishing => some ({ job with phase := .ended }, true)
    | .ended => none

/-- `_interrupt_stale_job` -/
def interrupt : Job :=
  if job.state.terminal then job else { job with state := .interrupted }

end Job

/-- The row of `backup_job_leases`. -/
structure Lease where
  owner : ℕ
  job : ℕ
  expiresAt : ℕ
  deriving DecidableEq

/-- A `_cleanup_job_artifacts` of `start_job` or `active_job`, with the paths once it has read
them. -/
structure Cleanup where
  job : ℕ
  paths : Option (Bool × Bool)
  deriving DecidableEq

/-- The jobs are numbered in the order of their creation. -/
structure World where
  clock : ℕ
  leases : List Lease
  count : ℕ
  jobs : ℕ → Option Job
  cleanups : List Cleanup

/-- `BACKUP_LEASE_TTL_SECONDS` -/
def leaseSeconds : ℕ := 45

inductive Action where
  | tick
  /-- `start_job`, of the manager `owner`, for a request that no job stands for yet. -/
  | startJob (owner : ℕ)
  | activeJob
  | readArtifacts (k : ℕ)
  | removeArtifacts (k : ℕ)
  /-- A heartbeat of the job, which has read the clock at `now`. -/
  | heartbeat (j now : ℕ)
  | run (j : ℕ) (act : Act)

namespace World

variable (w : World)

def empty : World := ⟨0, [], 0, fun _ => none, []⟩

def setJob (j : ℕ) (job : Job) : World := { w with jobs := Function.update w.jobs j (some job) }

/-- The stale job is interrupted, and its artifacts are to be cleaned up. -/
def interruptStale (j : ℕ) : World :=
  match w.jobs j with
  | none => { w with cleanups := w.cleanups ++ [⟨j, none⟩] }
  | some job => { w.setJob j job.interrupt with cleanups := w.cleanups ++ [⟨j, none⟩] }

/-- The job that was created last among the active ones. -/
def lastActive : Option ℕ :=
  (List.range w.count).reverse.find? fun j => (w.jobs j).any fun job => !job.state.terminal

/-- A new job with its lease. -/
def insertJob (owner : ℕ) : World :=
  { w with
    leases := w.leases ++ [⟨owner, w.count, w.clock + leaseSeconds⟩]
    count := w.count + 1
    jobs := Function.update w.jobs w.count (some (.queued owner)) }

/-- The transaction of `start_job`. -/
def startJob (owner : ℕ) : World :=
  match w.leases.head? with
  | some lease =>
    if w.clock < lease.expiresAt then w
    else { w.interruptStale lease.job with leases := [] : World }.insertJob owner
  | none =>
    match w.lastActive with
    | some j => (w.interruptStale j).insertJob owner
    | none => w.insertJob owner

/-- The transaction of `active_job`. -/
def activeJob : World :=
  match w.leases.head? with
  | some lease =>
    if w.clock < lease.expiresAt then w else { w.interruptStale lease.job with leases := [] }
  | none => w

/-- The lease is the job's own. -/
def Lease.isOf (lease : Lease) (owner j : ℕ) : Bool := lease.owner = owner && lease.job = j

/-- The job owns a lease that has not expired. -/
def owned (owner j : ℕ) : Bool :=
  w.leases.any fun lease => Lease.isOf lease owner j && w.clock < lease.expiresAt

/-- `_release_lease` -/
def releaseLease (owner j : ℕ) : World :=
  { w with leases := w.leases.filter fun lease => !Lease.isOf lease owner j }

/-- A heartbeat extends the lease of its job, or finds it lost. -/
def heartbeat (j now : ℕ) (job : Job) : World :=
  if w.leases.any (Lease.isOf · job.owner j) then
    { w with leases := w.leases.map fun lease =>
        if Lease.isOf lease job.owner j then { lease with expiresAt := now + leaseSeconds }
        else lease }
  else w.setJob j { job with lost := true }

def step : Action → Option World
  | .tick => some { w with clock := w.clock + 1 }
  | .startJob owner => some (w.startJob owner)
  | .activeJob => some w.activeJob
  | .readArtifacts k =>
    match w.cleanups[k]? with
    | none => none
    | some cleanup =>
      (w.jobs cleanup.job).map fun job =>
        { w with
          cleanups := w.cleanups.set k
            { cleanup with paths := some (job.stagingPath, job.removable) } }
  | .removeArtifacts k =>
    match w.cleanups[k]? with
    | some ⟨j, some (staging, backup)⟩ =>
      (w.jobs j).map fun job =>
        { w.setJob j (job.cleanup staging backup) with cleanups := w.cleanups.eraseIdx k }
    | _ => none
  | .heartbeat j now => if now ≤ w.clock then (w.jobs j).map (w.heartbeat j now) else none
  | .run j act =>
    match w.jobs j with
    | none => none
    | some job =>
      (job.step (w.owned job.owner j) act).map fun r =>
        if r.2 then (w.setJob j r.1).releaseLease job.owner j else w.setJob j r.1

end World

end BackupJobs
