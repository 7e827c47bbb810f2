/-
The Route2 manager (`mobile_playback_service.py`): its sessions, and the dispatch of queued workers
within the thread budget.

The epochs of all sessions are `EpochCell`s; the manager adds what looks across them: the sums of
running threads, `_dispatch_waiting_route2_workers_locked`, the loop of
`_ensure_route2_epoch_workers_locked` over the epochs of a session, and the background lifecycle
that parks and resumes the workers of a session.  The gates of the adaptive assignment are inputs of
a dispatch (`Gates`); what they choose between is computed here.
-/
import Mathlib.Data.Rat.Floor
import Elvern.EpochWorkers

open Heaps PyText

namespace Route2

/-- `BACKGROUND_PREPARATION_PARK_SECONDS` -/
def backgroundPreparationParkSeconds : ℚ := 300

/-- `lifecycle_state`, as far as it is looked at -/
inductive Lifecycle where
  | attached
  | resuming
  | backgroundSuspended
  | backgroundParked
  | other
  deriving DecidableEq

/-- The settings of the dispatch, with what `_validate_settings` has checked, and the total
budget. -/
structure Settings where
  minWorkerThreads : ℕ
  maxWorkerThreads : ℕ
  adaptiveMaxWorkerThreads : ℕ
  adaptiveThreadControlEnabled : Bool
  real9PrepareEnabled : Bool
  strict12Enabled : Bool
  totalBudgetCores : ℕ
  one_le_min : 1 ≤ minWorkerThreads
  min_le_max : minWorkerThreads ≤ maxWorkerThreads
  min_le_adaptiveMax : minWorkerThreads ≤ adaptiveMaxWorkerThreads

/-- `MobilePlaybackSession`, as far as the manager of the workers looks at it. -/
structure Session where
  userId : ℕ
  lifecycleState : Lifecycle
  preparationParked : Bool
  backgroundedAt : ℚ
  activeEpochId : Option ℕ
  replacementEpochId : Option ℕ
  deriving DecidableEq

/-- A new session of a user. -/
def Session.new (userId : ℕ) : Session where
  userId := userId
  lifecycleState := .attached
  preparationParked := false
  backgroundedAt := 0
  activeEpochId := none
  replacementEpochId := none

/-- The registered sessions, and every epoch that there has been. -/
structure Manager where
  sessions : Heap Session
  cells : Heap EpochCell

/-- What the gates of an adaptive assignment find. -/
structure Gates where
  /-- `_build_route2_adaptive_spawn_dry_run_locked` has blockers of its own. -/
  dryRunBlocked : Bool
  /-- The runway of a lite playback is sufficient without the boost. -/
  liteLowers : Bool
  strict12Blocked : Bool
  /-- `_resolve_route2_real_assigned_threads_locked` has blockers of its own. -/
  blocked : Bool
  raises : Bool

/-- What a dispatch meets: the gates for each worker, the exit codes of processes that it
terminates, and how the worker ids compare. -/
structure DispatchInputs where
  now : ℚ
  gates : ℕ → ℕ → Gates
  exitCode : ℕ → ℤ
  idRank : ℕ → ℕ → ℕ

/-! ### The assignment of threads -/

section Assignment

variable (s : Settings) (available userRemaining : ℤ)

/-- `_route2_conservative_spawn_target_locked` -/
def conservativeSpawnTarget (fixed : ℤ) : ℤ :=
  let baseline := min (max (s.minWorkerThreads : ℤ) 4) (max 0 fixed)
  let ceiling := min (max 0 available) (min (max 0 userRemaining) s.adaptiveMaxWorkerThreads)
  if ceiling ≤ 0 then 0 else min baseline ceiling

/-- `dry_run_target` -/
def dryRunTarget : ℤ :=
  let firstTier : ℤ := max 6 s.minWorkerThreads
  let prepareBoost := max firstTier 9
  let strictPrepare := max prepareBoost 12
  let ceiling : ℤ := min s.adaptiveMaxWorkerThreads
    (min (max 0 available) (min (max 0 userRemaining) s.totalBudgetCores))
  if s.strict12Enabled && s.real9PrepareEnabled &&
    decide (strictPrepare ≤ ceiling) then strictPrepare
  else if s.real9PrepareEnabled && decide (prepareBoost ≤ ceiling) then prepareBoost
  else min firstTier ceiling

/-- The decision of `_build_route2_adaptive_spawn_dry_run_locked`: the recommended threads, and
whether there are blockers. -/
def spawnDryRun (fixed : ℤ) (gates : Gates) : ℤ × Bool :=
  let target := dryRunTarget s available userRemaining
  if gates.dryRunBlocked || decide (target < s.minWorkerThreads) then
    (conservativeSpawnTarget s available userRemaining fixed, true)
  else (target, false)

/-- The tier below the strict one. -/
def lowerTier : ℤ :=
  if s.real9PrepareEnabled && decide (9 ≤ s.adaptiveMaxWorkerThreads) then 9 else 6

/-- The `target_threads` that `_resolve_route2_real_assigned_threads_locked` ends up with. -/
def realTarget (recommended : ℤ) (gates : Gates) : ℤ :=
  let target := if gates.liteLowers && decide (9 ≤ recommended) then 6 else recommended
  let target :=
    if decide (12 ≤ recommended) && !s.strict12Enabled then lowerTier s else target
  if s.strict12Enabled && decide (12 ≤ recommended) && gates.strict12Blocked &&
      decide (12 ≤ target) then lowerTier s
  else target

/-- The `assigned_threads` of `_resolve_route2_real_assigned_threads_locked`. -/
def realAssignedThreads (fixed : ℤ) (dryRun : ℤ × Bool) (gates : Gates) : ℤ :=
  let target := realTarget s dryRun.1 gates
  if !s.adaptiveThreadControlEnabled then max 0 fixed
  else if gates.blocked || dryRun.2 ||
      (decide (target = 9 ∨ target = 12) &&
        (!s.real9PrepareEnabled || decide (s.adaptiveMaxWorkerThreads < 9))) ||
      decide (target ≠ 6 ∧ target ≠ 9 ∧ target ≠ 12) || decide (s.adaptiveMaxWorkerThreads < 6) ||
      decide (fixed < s.minWorkerThreads) then max 0 fixed
  else target

/-- The threads for a worker whose epoch comes with no target of its own. -/
def assignedThreads (fixed : ℤ) (gates : Gates) : ℤ :=
  if gates.raises then max 0 fixed
  else realAssignedThreads s fixed (spawnDryRun s available userRemaining fixed gates) gates

end Assignment

/-- `replacement_target_threads` -/
def PlaybackEpoch.replacementTargetThreads (e : PlaybackEpoch) : Option ℕ :=
  if e.replacementReason = some .maintenanceDownshift ∧
      e.maintenanceDownshiftTargetThreads.isSome then
    e.maintenanceDownshiftTargetThreads
  else if e.replacementReason = some .adaptiveResupplyBoost ∧
      e.adaptiveResupplyTargetThreads.isSome then
    e.adaptiveResupplyTargetThreads
  else none

/-- The threads of the cell's running workers, or of those of one user:
`_route2_running_threads_locked`. -/
def EpochCell.runningThreads (c : EpochCell) (user : Option ℕ) : ℕ :=
  c.workers.total fun _ r =>
    if r.state = .running ∧ (user.all fun u => decide (r.userId = u)) = true then
      r.assignedThreads else 0

namespace Manager

/-- No session and no epoch. -/
def empty : Manager := ⟨.empty, .empty⟩

/-- Change an epoch. -/
def onCell (m : Manager) (e : ℕ) (f : EpochCell → EpochCell) : Manager :=
  { m with cells := m.cells.modify e f }

/-- Change a session. -/
def onSession (m : Manager) (sid : ℕ) (f : Session → Session) : Manager :=
  { m with sessions := m.sessions.modify sid f }

/-- Change the epochs of a session. -/
def onSessionCells (m : Manager) (sid : ℕ) (f : EpochCell → EpochCell) : Manager :=
  { m with cells := m.cells.mapAll fun c => if c.sessionId = sid then f c else c }

/-- The session of the epoch is in `_sessions`. -/
def registered (m : Manager) (c : EpochCell) : Bool := (m.sessions.get c.sessionId).isSome

/-- `_route2_running_threads_locked` -/
def runningThreads (m : Manager) (user : Option ℕ) : ℕ :=
  m.cells.total fun _ c => c.runningThreads user

/-- The records of `_route2_workers`, with their epoch and their id. -/
def records (m : Manager) : List (ℕ × ℕ × WorkerRecord) :=
  (List.range m.cells.next).flatMap fun e => ((m.cells.get e).map fun c =>
    (List.range c.workers.next).filterMap fun w => (c.workers.get w).map fun r => (e, w, r)).getD []

/-- `active_decoding_user_count` -/
def activeUserCount (m : Manager) : ℕ :=
  ((m.records.filter fun x => decide (x.2.2.state = .queued ∨ x.2.2.state = .running)).map
    fun x => x.2.2.userId).dedup.length

/-- `per_user_budget_cores` -/
def perUserBudgetCores (m : Manager) (s : Settings) : ℕ :=
  if 0 < m.activeUserCount then max 1 (s.totalBudgetCores / m.activeUserCount)
    else s.totalBudgetCores

/-- `_discard_route2_epoch_locked` -/
def discard (m : Manager) (e : ℕ) (exitCode : ℤ) (now : ℚ) : Manager :=
  match m.cells.get e with
  | none => m
  | some c => (m.onCell e fun c => c.discard exitCode now).onSession c.sessionId fun session =>
      if session.replacementEpochId = some e then { session with replacementEpochId := none }
      else session

/-- `_abort_route2_downshift_replacement_locked` and `_abort_route2_resupply_replacement_locked` -/
def abortReplacement (m : Manager) (e : ℕ) (exitCode : ℤ) (now : ℚ) : Manager :=
  (m.onCell e fun c => c.onEpoch fun x =>
    { x with state := if x.state = .failed then .failed else .ended }).discard e exitCode now

/-! ### Dispatch -/

/-- A queued worker: its epoch, its id, and the columns of its record that order it. -/
structure Waiting where
  cell : ℕ
  worker : ℕ
  userId : ℕ
  createdAt : ℚ

/-- The record is queued for an epoch that its session still has. -/
def dispatchable (m : Manager) (e : ℕ) (r : WorkerRecord) : Bool :=
  decide (r.state = .queued) && (m.cells.get e).any fun c => m.registered c && c.listed

/-- The queued workers, the oldest first. -/
def waiting (m : Manager) (inputs : DispatchInputs) : List Waiting :=
  ((m.records.filter fun x => m.dispatchable x.1 x.2.2).map fun x =>
    { cell := x.1, worker := x.2.1, userId := x.2.2.userId,
      createdAt := x.2.2.createdAt }).mergeSort
    fun a b => decide (a.createdAt < b.createdAt) || (decide (a.createdAt = b.createdAt) &&
      decide (inputs.idRank a.cell a.worker ≤ inputs.idRank b.cell b.worker))

/-- `queued_by_user` -/
def queuedByUser (queue : List Waiting) : List (ℕ × List Waiting) :=
  (queue.map Waiting.userId).eraseDups.map fun u => (u, queue.filter fun x => decide (x.userId = u))

/-- The state of the dispatch loop; `returned` is set by its `return`. -/
structure Loop where
  manager : Manager
  available : ℤ
  queues : List (ℕ × List Waiting)
  madeProgress : Bool
  returned : Bool

/-- `queued_by_user.get(user_id) or []` -/
def Loop.queue (l : Loop) (user : ℕ) : List Waiting :=
  ((l.queues.find? fun q => decide (q.1 = user)).map Prod.snd).getD []

/-- `queue.pop(0)` -/
def Loop.popQueue (l : Loop) (user : ℕ) : Loop :=
  { l with queues := l.queues.map fun q => if q.1 = user then (q.1, q.2.tail) else q }

/-- A worker is launched with `assigned` threads. -/
def Loop.launch (l : Loop) (x : Waiting) (assigned : ℤ) (now : ℚ) : Loop :=
  { l with
    manager := l.manager.onCell x.cell fun c => c.launch x.worker assigned.toNat now
    available := l.available - assigned
    madeProgress := true }

/-- What the loop does with a worker that it has taken from its queue. -/
def Loop.dispatchWorker (s : Settings) (inputs : DispatchInputs) (l : Loop) (x : Waiting)
    (userRemaining : ℤ) : Loop :=
  match l.manager.cells.get x.cell with
  | none => l
  | some c =>
    match l.manager.sessions.get c.sessionId with
    | none => l
    | some session =>
      if session.preparationParked then l
      else if c.listed = false then l
      else
        let fixed := min (s.maxWorkerThreads : ℤ) (min l.available userRemaining)
        if fixed < s.minWorkerThreads then l
        else
          match c.epoch.replacementTargetThreads with
          | some target =>
            if l.available < target ∨ userRemaining < target then
              { l with manager :=
                  l.manager.abortReplacement x.cell (inputs.exitCode x.cell) inputs.now }
            else if target < s.minWorkerThreads then l
            else l.launch x target inputs.now
          | none =>
            let assigned := assignedThreads s l.available userRemaining fixed
              (inputs.gates x.cell x.worker)
            if assigned < s.minWorkerThreads then l else l.launch x assigned inputs.now

/-- The turn of a user in the loop. -/
def Loop.userTurn (s : Settings) (inputs : DispatchInputs) (perUser : ℕ) (l : Loop)
    (user : ℕ) : Loop :=
  if l.returned then l
  else
    match l.queue user with
    | [] => l
    | x :: _ =>
      let userRemaining : ℤ := perUser - l.manager.runningThreads (some user)
      if userRemaining < s.minWorkerThreads then l
      else if l.available < s.minWorkerThreads then { l with returned := true }
      else (l.popQueue user).dispatchWorker s inputs x userRemaining

/-- The users in the order of the heads of their queues. -/
def Loop.users (l : Loop) : List ℕ :=
  (l.queues.mergeSort fun a b => decide
    (((a.2.head?.map Waiting.createdAt).getD 0) ≤ ((b.2.head?.map Waiting.createdAt).getD 0))).map
    Prod.fst

/-- The body of the `while` loop. -/
def Loop.pass (s : Settings) (inputs : DispatchInputs) (perUser : ℕ) (l : Loop) : Loop :=
  l.users.foldl (Loop.userTurn s inputs perUser) { l with madeProgress := false }

/-- The condition of the `while` loop. -/
def Loop.goesOn (s : Settings) (l : Loop) : Bool :=
  !l.returned && l.madeProgress && decide ((s.minWorkerThreads : ℤ) ≤ l.available)

/-- At most `n` rounds of the `while` loop. -/
def Loop.rounds (s : Settings) (inputs : DispatchInputs) (perUser : ℕ) : ℕ → Loop → Loop
  | 0, l => l
  | n + 1, l => if l.goesOn s then Loop.rounds s inputs perUser n (l.pass s inputs perUser) else l

/-- The workers in the queues. -/
def Loop.size (l : Loop) : ℕ := (l.queues.map fun q => q.2.length).sum

/-- The loop at its start. -/
def dispatchLoop (m : Manager) (s : Settings) (inputs : DispatchInputs) : Loop where
  manager := m
  available := s.totalBudgetCores - m.runningThreads none
  queues := queuedByUser (m.waiting inputs)
  madeProgress := true
  returned := false

/-- `_dispatch_waiting_route2_workers_locked` -/
def dispatchWaitingWorkers (m : Manager) (s : Settings) (inputs : DispatchInputs) : Manager :=
  let l := m.dispatchLoop s inputs
  if l.available < s.minWorkerThreads then m
  else (Loop.rounds s inputs (m.perUserBudgetCores s) (l.size + 1) l).manager

/-! ### The epochs of a session -/

/-- The epochs that a session works on. -/
def currentEpochs (session : Session) : List ℕ :=
  session.activeEpochId.toList ++ session.replacementEpochId.toList

/-- An iteration of the loop of `_ensure_route2_epoch_workers_locked`. -/
def ensureEpoch (m : Manager) (sid : ℕ) (now : ℚ) (e : ℕ) : Manager :=
  m.onCell e fun c => if c.sessionId = sid then c.ensureEpochWorker now else c

/-- `_ensure_route2_epoch_workers_locked` -/
def ensureEpochWorkers (m : Manager) (sid : ℕ) (now : ℚ) : Manager :=
  match m.sessions.get sid with
  | none => m
  | some session =>
    if session.preparationParked then m
    else (currentEpochs session).foldl (fun m e => m.ensureEpoch sid now e) m

/-- `_maybe_park_backgrounded_route2_session_locked` parks the session. -/
def parks (session : Session) (now : ℚ) : Bool :=
  decide (session.lifecycleState = .backgroundSuspended) && decide (0 < session.backgroundedAt) &&
    !decide (now - session.backgroundedAt < backgroundPreparationParkSeconds) &&
    !session.preparationParked

/-- `_maybe_park_backgrounded_route2_session_locked` -/
def maybePark (m : Manager) (sid : ℕ) (now : ℚ) : Manager :=
  match m.sessions.get sid with
  | none => m
  | some session =>
    if parks session now then
      (m.onSession sid fun x => { x with
        preparationParked := true
        lifecycleState := .backgroundParked }).onSessionCells sid EpochCell.park
    else if session.lifecycleState = .backgroundSuspended ∧ session.backgroundedAt ≤ 0 then
      m.onSession sid fun x => { x with backgroundedAt := now }
    else m

/-- `_apply_background_lifecycle_locked` resumes the session. -/
def resumes (session : Session) (state : Lifecycle) : Bool :=
  decide (state = .resuming ∨ state = .attached) && session.preparationParked

/-- `_apply_background_lifecycle_locked` -/
def applyBackgroundLifecycle (m : Manager) (sid : ℕ) (state : Lifecycle) (now : ℚ) : Manager :=
  match m.sessions.get sid with
  | none => m
  | some session =>
    let backgroundedAt := if session.backgroundedAt ≤ 0 then now else session.backgroundedAt
    match state with
    | .backgroundSuspended => m.onSession sid fun x => { x with backgroundedAt }
    | .backgroundParked =>
      m.onSession sid fun x => { x with backgroundedAt, preparationParked := true }
    | .other => m
    | _ =>
      let m := if resumes session state then m.onSessionCells sid EpochCell.resume else m
      m.onSession sid fun x => { x with preparationParked := false, backgroundedAt := 0 }

/-! ### The system -/

/-- The steps of the manager. -/
inductive Action where
  | newSession (userId : ℕ)
  /-- The session leaves `_sessions`. -/
  | unregister (sid : ℕ)
  /-- Another operation writes the lifecycle state or the epoch ids of the session. -/
  | touch (sid : ℕ) (state : Lifecycle) (activeEpochId replacementEpochId : Option ℕ)
  | newEpoch (sid : ℕ) (reason : Option ReplacementReason)
      (audioStreamIndex downshiftTarget resupplyTarget : Option ℕ)
  | discard (e : ℕ) (exitCode : ℤ) (now : ℚ)
  | ensure (sid : ℕ) (now : ℚ)
  | dispatch (inputs : DispatchInputs)
  | maybePark (sid : ℕ) (now : ℚ)
  | applyLifecycle (sid : ℕ) (state : Lifecycle) (now : ℚ)
  /-- A step of one epoch. -/
  | epoch (e : ℕ) (a : EpochCell.Action)

/-- The steps that an epoch takes by itself: what a block of a thread is told of the registration of
its session is true. -/
def single (registered : Bool) : EpochCell.Action → Bool
  | .start _ r _ _ => r == registered
  | .spawnError _ r _ _ => r == registered
  | .attach _ r _ => r == registered
  | .exit _ r _ _ => r == registered
  | .ensure _ => false
  | .launch _ _ _ => false
  | .park => false
  | .resume => false
  | .discard _ _ => false
  | _ => true

/-- One step; `none` where it is not enabled. -/
def step (uni : Unicode) (s : Settings) (m : Manager) : Action → Option Manager
  | .newSession userId => some { m with sessions := m.sessions.alloc (.new userId) }
  | .unregister sid => some { m with sessions := m.sessions.pop sid }
  | .touch sid state active replacement => some (m.onSession sid fun x =>
      { x with
        lifecycleState := state
        activeEpochId := active
        replacementEpochId := replacement })
  | .newEpoch sid reason audio downshift resupply => (m.sessions.get sid).map fun session =>
      { m with cells := m.cells.alloc (.new sid session.userId reason audio downshift resupply) }
  | .discard e exitCode now => some (m.discard e exitCode now)
  | .ensure sid now => some (m.ensureEpochWorkers sid now)
  | .dispatch inputs => some (m.dispatchWaitingWorkers s inputs)
  | .maybePark sid now => some (m.maybePark sid now)
  | .applyLifecycle sid state now => some (m.applyBackgroundLifecycle sid state now)
  | .epoch e a => (m.cells.get e).bind fun c =>
      if single (m.registered c) a then
        (c.step uni s.minWorkerThreads a).map fun c' => m.onCell e fun _ => c'
      else none

end Manager

end Route2
