/-
The poster derivative manager (`poster_derivative_manager.py`).

Submissions, cancellations, the dispatcher and the worker threads run at once; what they do under
the lock of the manager is one step each, and so is every call on a future or on the executor
outside it. A job is an object that `_jobs` and `_queued` refer to by its number in `objects`.

`shutdown` waits ten seconds for the dispatcher and then shuts the executor down, with whatever is
still in the queue.  From then on `_executor.submit` raises: the job that the dispatcher has taken
is neither queued nor run any more, and the dispatcher is gone.  Such jobs are `refused`.

`Future.cancel` only takes the lock of the future: it may fall between the test `waiter.done()` and
the setting of the waiter, which then raises and ends the loop over the waiters.  The parameter
`raced` of the steps that settle waiters says where this happens.

* `submitResult`, `handleWaiterDone`, `takeNextJob`, `dispatch`, `execute`, `finishJob`, `deliver` —
  the functions;
* `step` — their interleavings;
* `Inv` — one job for a key, the dictionary and the queue of one mind, the bounds on both queues,
  every accepted job accounted for, and none refused before the executor is shut down;
* `inv_of_reach` — it holds in every state reached.
-/
import Mathlib.Data.List.MinMax
import Mathlib.Data.Prod.Lex
import Mathlib.Algebra.Order.Ring.Rat
import Mathlib.Tactic.Common
import Elvern.Heaps
import Elvern.Runs

open Heaps Runs

namespace PosterDerivatives

/-- `PosterDerivativePriority` -/
inductive Priority where
  | requested
  | normal
  | prewarm
  deriving DecidableEq

/-- The value of the `IntEnum`. -/
def Priority.value : Priority → ℕ
  | .requested => 0
  | .normal => 1
  | .prewarm => 2

/-- `PosterDerivativeDisposition` -/
inductive Disposition where
  | derivativeCacheHit
  | derivativeGenerated
  | originalAlreadySmall
  | originalPassthrough
  | fallbackQueueFull
  | fallbackGenerationError
  deriving DecidableEq

/-- `PosterDerivativeResult` -/
structure Result where
  path : String
  disposition : Disposition
  immutable : Bool
  deriving DecidableEq

/-- What a waiter can be failed with: a `PosterDerivativeQueueFullError`, or the exception of the
generation. -/
inductive Failure where
  | queueFull (message : String)
  | raised (message : String)
  deriving DecidableEq

abbrev Outcome := Except Failure Result

/-- The state of a `concurrent.futures.Future` that nobody marks as running. -/
inductive FutureState where
  | pending
  | cancelled
  | finished (outcome : Outcome)

/-- A future, and the key its done-callback was registered with. -/
structure Waiter (κ : Type) where
  state : FutureState
  jobKey : Option κ

/-- `Future.done` -/
def Waiter.done {κ : Type} (c : Waiter κ) : Bool :=
  match c.state with
  | .pending => false
  | _ => true

def Waiter.cancelled {κ : Type} (c : Waiter κ) : Waiter κ :=
  match c.state with
  | .pending => { c with state := .cancelled }
  | _ => c

def Waiter.settled {κ : Type} (outcome : Outcome) (c : Waiter κ) : Waiter κ :=
  match c.state with
  | .pending => { c with state := .finished outcome }
  | _ => c

/-- `_DerivativeJob` -/
structure Job (κ : Type) where
  key : κ
  priority : Priority
  prewarm : Bool
  sequence : ℕ
  waiters : List ℕ
  started : Bool

/-- The loop over the waiters of a finished job, outside the lock. -/
structure Delivery (κ : Type) where
  key : κ
  waiters : List ℕ
  outcome : Outcome

/-- `_stats` -/
structure Stats where
  cacheHits : ℕ := 0
  generated : ℕ := 0
  generationFailures : ℕ := 0
  singleFlightCollapsed : ℕ := 0
  droppedPrewarm : ℕ := 0
  queueRejected : ℕ := 0
  cancelledBeforeStart : ℕ := 0

/-- The jobs that are over. -/
def Stats.over (stats : Stats) : ℕ :=
  stats.droppedPrewarm + stats.cancelledBeforeStart + stats.generated + stats.generationFailures

/-- What `_finish_job` counts. -/
def Stats.finish (stats : Stats) : Outcome → Stats
  | .ok result =>
    if result.disposition ≠ .fallbackGenerationError then
      { stats with generated := stats.generated + 1 }
    else { stats with generationFailures := stats.generationFailures + 1 }
  | .error _ => { stats with generationFailures := stats.generationFailures + 1 }

theorem Stats.over_finish (stats : Stats) (outcome : Outcome) :
    (stats.finish outcome).over = stats.over + 1 := by
  cases outcome with
  | ok result =>
    simp only [Stats.finish]
    split <;> simp only [Stats.over] <;> omega
  | error failure =>
    simp only [Stats.finish, Stats.over]
    omega

structure Settings where
  workerCount : ℕ
  queueMax : ℕ
  interactiveWindowSeconds : ℚ

/-- `POSTER_REQUESTED_BURST_LIMIT` -/
def posterRequestedBurstLimit : ℕ := 8

/-- The manager, the futures it gave out and the steps that are still to come: callbacks of
cancelled waiters and deliveries.  `running` are the jobs that `activeWorkers` counts: those that a
dispatcher has just `taken`, those that the executor has, and those that it has `refused`.
`dispatchers` are the threads in `_dispatch_loop` with no job in hand, and `ended` keeps the
outcomes of all generations for the statements; no step reads it. -/
structure Manager (κ : Type) where
  started : Bool
  stopping : Bool
  executorShutdown : Bool
  dispatchers : ℕ
  activeWorkers : ℕ
  sequence : ℕ
  requestedBurst : ℕ
  interactiveUntil : ℚ
  objects : Heap (Job κ)
  jobs : κ → Option ℕ
  queued : List ℕ
  running : List ℕ
  taken : List ℕ
  refused : List ℕ
  futures : Heap (Waiter κ)
  callbacks : List (κ × ℕ)
  deliveries : List (Delivery κ)
  stats : Stats
  ended : List (κ × Outcome)

namespace Manager

variable {κ : Type}

section Functions

variable [DecidableEq κ]

/-- `PosterDerivativeManager.__init__` -/
def init : Manager κ where
  started := false
  stopping := false
  executorShutdown := false
  dispatchers := 0
  activeWorkers := 0
  sequence := 0
  requestedBurst := 0
  interactiveUntil := 0
  objects := .empty
  jobs _ := none
  queued := []
  running := []
  taken := []
  refused := []
  futures := .empty
  callbacks := []
  deliveries := []
  stats := {}
  ended := []

def priorityOf (m : Manager κ) (r : ℕ) : Option Priority := (m.objects.get r).map Job.priority

def sequenceOf (m : Manager κ) (r : ℕ) : ℕ := ((m.objects.get r).map Job.sequence).getD 0

/-! ### Futures -/

/-- The future is not done. -/
def isPending (m : Manager κ) (w : ℕ) : Bool := (m.futures.get w).any fun c => !c.done

/-- `Future.cancel`: a future that is done is left alone, and the callback runs later, since it
waits for the lock of the manager. -/
def cancel (m : Manager κ) (w : ℕ) : Manager κ :=
  if m.isPending w then
    { m with
      futures := m.futures.modify w Waiter.cancelled
      callbacks := m.callbacks ++ (((m.futures.get w).bind Waiter.jobKey).map fun k =>
        (k, w)).toList }
  else m

/-- `if not waiter.done(): waiter.set_result(…)`, not interrupted.  The callback of a future that
was not cancelled does nothing. -/
def settle (m : Manager κ) (w : ℕ) (outcome : Outcome) : Manager κ :=
  { m with futures := m.futures.modify w (Waiter.settled outcome) }

/-- The loop over the waiters of a dropped job.  Where the waiter `raced` is cancelled after its
test, the exception of its setting ends the loop, which is the second component. -/
def settleAll (m : Manager κ) (outcome : Outcome) (raced : Option ℕ) : List ℕ → Manager κ × Bool
  | [] => (m, false)
  | w :: rest =>
    if m.isPending w ∧ raced = some w then (m.cancel w, true)
    else (m.settle w outcome).settleAll outcome raced rest

/-! ### Submissions -/

/-- `start` -/
def start (m : Manager κ) : Manager κ :=
  if m.started then m else { m with started := true, dispatchers := m.dispatchers + 1 }

/-- The job leaves the queue and the dictionary. -/
def discard (m : Manager κ) (r : ℕ) (key : κ) (stats : Stats) : Manager κ :=
  { m with queued := m.queued.erase r, jobs := Function.update m.jobs key none, stats := stats }

/-- The job that `_drop_queued_prewarm_locked` selects. -/
def prewarmToDrop (m : Manager κ) : Option ℕ :=
  (m.queued.filter fun r => m.priorityOf r = some .prewarm).argmax m.sequenceOf

/-- The rest of `_drop_queued_prewarm_locked`; the second component says that it raised. -/
def dropQueuedPrewarm (m : Manager κ) (r : ℕ) (raced : Option ℕ) : Manager κ × Bool :=
  match m.objects.get r with
  | none => (m, false)
  | some job =>
    (m.discard r job.key { m.stats with droppedPrewarm := m.stats.droppedPrewarm + 1 }).settleAll
      (.error (.queueFull "Poster prewarm was dropped for interactive work")) raced job.waiters

/-- The submission joins the job `r`. -/
def joined (job : Job κ) (priority : Priority) (prewarm : Bool) (w : ℕ) : Job κ :=
  let promotes := !job.started && decide (priority.value < job.priority.value)
  { job with
    priority := if promotes then priority else job.priority
    prewarm := if promotes then job.prewarm && prewarm else job.prewarm
    waiters := job.waiters ++ [w] }

def join (m : Manager κ) (r : ℕ) (key : κ) (priority : Priority) (prewarm : Bool) : Manager κ :=
  { m with
    objects := m.objects.modify r fun job => joined job priority prewarm m.futures.next
    futures := m.futures.alloc ⟨.pending, some key⟩
    stats := { m.stats with singleFlightCollapsed := m.stats.singleFlightCollapsed + 1 } }

/-- The submission gets a job of its own. -/
def enqueue (m : Manager κ) (key : κ) (priority : Priority) (prewarm : Bool) : Manager κ :=
  { m with
    sequence := m.sequence + 1
    objects := m.objects.alloc
      { key, priority, prewarm, sequence := m.sequence + 1, waiters := [m.futures.next],
        started := false }
    jobs := Function.update m.jobs key (some m.objects.next)
    queued := m.queued ++ [m.objects.next]
    futures := m.futures.alloc ⟨.pending, some key⟩ }

def reject (m : Manager κ) : Manager κ :=
  { m with
    stats := { m.stats with queueRejected := m.stats.queueRejected + 1 }
    futures := m.futures.alloc
      ⟨.finished (.error (.queueFull "Poster derivative queue is full")), none⟩ }

/-- `submit_result`, where `cached` is what the lookup in the cache gave and `key` is `_job_key`. -/
def submitResult (s : Settings) (m : Manager κ) (key : κ) (priority : Priority) (prewarm : Bool)
    (cached : Option String) (raced : Option ℕ) : Manager κ :=
  match cached with
  | some path =>
    { m with
      stats := { m.stats with cacheHits := m.stats.cacheHits + 1 }
      futures := m.futures.alloc ⟨.finished (.ok ⟨path, .derivativeCacheHit, true⟩), none⟩ }
  | none =>
    let m := m.start
    match m.jobs key with
    | some r => m.join r key priority prewarm
    | none =>
      if s.queueMax ≤ m.queued.length then
        match if priority = .prewarm then none else m.prewarmToDrop with
        | none => m.reject
        | some r =>
          let dropped := m.dropQueuedPrewarm r raced
          -- An exception of the drop leaves the submission without a job.
          if dropped.2 then dropped.1 else dropped.1.enqueue key priority prewarm
      else m.enqueue key priority prewarm

/-- `job.waiters.discard(waiter)` -/
def forget (m : Manager κ) (r w : ℕ) : Manager κ :=
  { m with objects :=
      m.objects.modify r fun job => { job with waiters := job.waiters.filter (· ≠ w) } }

/-- Nobody waits for the job any more, and it was not asked for by a prewarm. -/
def Job.abandoned (job : Job κ) : Bool := !job.started && job.waiters.isEmpty && !job.prewarm

/-- `_handle_waiter_done` for a cancelled waiter. -/
def handleWaiterDone (m : Manager κ) (key : κ) (w : ℕ) : Manager κ :=
  match m.jobs key with
  -- The job is over already; its waiters are with the delivery.
  | none => m
  | some r =>
    if ((m.forget r w).objects.get r).any Job.abandoned then
      (m.forget r w).discard r key
        { m.stats with cancelledBeforeStart := m.stats.cancelledBeforeStart + 1 }
    else m.forget r w

/-! ### The dispatcher -/

/-- Only requested jobs are eligible at the time `now`. -/
def interactive (m : Manager κ) (now : ℚ) : Bool := !m.stopping && decide (now < m.interactiveUntil)

/-- `_eligible_jobs_locked` -/
def eligibleJobs (m : Manager κ) (now : ℚ) : List ℕ :=
  if m.interactive now then m.queued.filter fun r => m.priorityOf r = some .requested else m.queued

def normalJobs (m : Manager κ) (eligible : List ℕ) : List ℕ :=
  eligible.filter fun r => m.priorityOf r = some .normal

/-- The key by which the jobs are taken. -/
def rank (m : Manager κ) (r : ℕ) : ℕ ×ₗ ℕ :=
  toLex (((m.priorityOf r).map Priority.value).getD 0, m.sequenceOf r)

/-- The job that `_take_next_job_locked` selects, and the burst after it. -/
def selectJob (m : Manager κ) (now : ℚ) : Option (ℕ × ℕ) :=
  let eligible := m.eligibleJobs now
  let normal := m.normalJobs eligible
  -- After a burst of requested jobs the oldest normal one goes first.
  if posterRequestedBurstLimit ≤ m.requestedBurst ∧ normal ≠ [] then
    (normal.argmin m.sequenceOf).map fun r => (r, 0)
  else
    (eligible.argmin m.rank).map fun r =>
      (r, match m.priorityOf r with
        | some .requested => m.requestedBurst + 1
        | some .normal => 0
        | _ => m.requestedBurst)

/-- `_take_next_job_locked` with the selected job. -/
def takeNextJob (m : Manager κ) (r burst : ℕ) : Manager κ :=
  { m with
    requestedBurst := burst
    queued := m.queued.erase r
    objects := m.objects.modify r fun job => { job with started := true } }

/-- One round of `_dispatch_loop`, up to the end of the lock.  The rounds in which the dispatcher
waits change nothing. -/
def dispatch (s : Settings) (m : Manager κ) (now : ℚ) : Manager κ :=
  if m.dispatchers = 0 then m
  else if m.stopping ∧ m.queued = [] ∧ m.activeWorkers = 0 then
    { m with dispatchers := m.dispatchers - 1 }
  else if s.workerCount ≤ m.activeWorkers then m
  else match m.selectJob now with
    | none => m
    | some (r, burst) =>
      let m := m.takeNextJob r burst
      { m with
        dispatchers := m.dispatchers - 1
        activeWorkers := m.activeWorkers + 1
        running := m.running ++ [r]
        taken := m.taken ++ [r] }

/-- `_executor.submit` for a job in the hands of a dispatcher.  After the shutdown of the executor
it raises, which ends the loop of the dispatcher. -/
def execute (m : Manager κ) (r : ℕ) : Option (Manager κ) :=
  if r ∈ m.taken then
    if m.executorShutdown then
      some { m with taken := m.taken.erase r, refused := m.refused ++ [r] }
    else some { m with taken := m.taken.erase r, dispatchers := m.dispatchers + 1 }
  else none

/-- The part of `_finish_job` under the lock, for a job that the executor has run. -/
def finishJob (m : Manager κ) (r : ℕ) (outcome : Outcome) : Option (Manager κ) :=
  if r ∈ m.running ∧ r ∉ m.taken ∧ r ∉ m.refused then
    (m.objects.get r).map fun job =>
      { m with
        activeWorkers := m.activeWorkers - 1
        running := m.running.erase r
        jobs := Function.update m.jobs job.key none
        stats := m.stats.finish outcome
        deliveries := m.deliveries ++ [⟨job.key, job.waiters, outcome⟩]
        ended := m.ended ++ [(job.key, outcome)] }
  else none

/-- One round of the loop at the end of `_finish_job`; `raced` says that the waiter is cancelled
between its test and its setting. -/
def deliver (m : Manager κ) (i : ℕ) (raced : Bool) : Option (Manager κ) :=
  m.deliveries[i]?.map fun d =>
    match d.waiters with
    | [] => { m with deliveries := m.deliveries.eraseIdx i }
    | w :: rest =>
      if m.isPending w ∧ raced then
        { m.cancel w with deliveries := m.deliveries.eraseIdx i }
      else
        { m.settle w d.outcome with deliveries := m.deliveries.set i { d with waiters := rest } }

/-- `enter_interactive_window` -/
def enterInteractiveWindow (s : Settings) (m : Manager κ) (now : ℚ) : Manager κ :=
  { m with interactiveUntil := max m.interactiveUntil (now + s.interactiveWindowSeconds) }

/-- `shutdown`, where it sets `_stopping`. -/
def shutdown (m : Manager κ) : Manager κ := if m.started then { m with stopping := true } else m

/-- `_executor.shutdown`, when the dispatcher has returned or the ten seconds for it are over. -/
def closeExecutor (m : Manager κ) : Manager κ :=
  if m.stopping then { m with executorShutdown := true } else m

/-- The end of `shutdown`.  A submission after it starts another dispatcher. -/
def shutDown (m : Manager κ) : Manager κ :=
  if m.executorShutdown then { m with started := false } else m

/-- The steps of the threads. -/
inductive Action (κ : Type) where
  | submit (key : κ) (priority : Priority) (prewarm : Bool) (cached : Option String)
      (raced : Option ℕ)
  | cancel (w : ℕ)
  | waiterDone (i : ℕ)
  | dispatch (now : ℚ)
  | execute (r : ℕ)
  | finish (r : ℕ) (outcome : Outcome)
  | deliver (i : ℕ) (raced : Bool)
  | enterInteractiveWindow (now : ℚ)
  | shutdown
  | closeExecutor
  | shutDown

def step (s : Settings) (m : Manager κ) : Action κ → Option (Manager κ)
  | .submit key priority prewarm cached raced =>
    some (submitResult s m key priority prewarm cached raced)
  | .cancel w => some (m.cancel w)
  | .waiterDone i =>
    m.callbacks[i]?.map fun c =>
      { m.handleWaiterDone c.1 c.2 with callbacks := m.callbacks.eraseIdx i }
  | .dispatch now => some (dispatch s m now)
  | .execute r => m.execute r
  | .finish r outcome => m.finishJob r outcome
  | .deliver i raced => m.deliver i raced
  | .enterInteractiveWindow now => some (enterInteractiveWindow s m now)
  | .shutdown => some m.shutdown
  | .closeExecutor => some m.closeExecutor
  | .shutDown => some m.shutDown

end Functions

/-! ### The invariant -/

/-- The jobs that are queued or taken and not over. -/
def live (m : Manager κ) : List ℕ := m.queued ++ m.running

/-- The generations of a key are single-flight, the queues stay within their bounds, every accepted
job is somewhere, and none is refused before the executor is shut down. -/
structure Inv (s : Settings) (m : Manager κ) : Prop where
  next : m.objects.next = m.sequence
  sequence : ∀ r job, m.objects.get r = some job → job.sequence = r + 1
  nodup : m.live.Nodup
  listed : ∀ r ∈ m.live, ∃ job, m.objects.get r = some job ∧ m.jobs job.key = some r
  known : ∀ k r, m.jobs k = some r → r ∈ m.live ∧ ∃ job, m.objects.get r = some job ∧ job.key = k
  started : ∀ r ∈ m.live, ∀ job, m.objects.get r = some job → (job.started = true ↔ r ∈ m.running)
  queue : m.queued.length ≤ s.queueMax
  active : m.activeWorkers = m.running.length
  workers : m.running.length ≤ s.workerCount
  accepted : m.sequence = m.stats.over + m.queued.length + m.running.length
  taken : ∀ r ∈ m.taken, r ∈ m.running
  refused : ∀ r ∈ m.refused, r ∈ m.running ∧ m.executorShutdown = true

variable {s : Settings} {m m' : Manager κ} {r w : ℕ} {key : κ} {outcome : Outcome} {now : ℚ}
  {priority : Priority} {prewarm : Bool} {raced : Option ℕ}

/-- What a step on the futures leaves alone. -/
structure SameJobs (m m' : Manager κ) : Prop where
  sequence : m'.sequence = m.sequence
  objects : m'.objects = m.objects
  jobs : m'.jobs = m.jobs
  queued : m'.queued = m.queued
  running : m'.running = m.running
  taken : m'.taken = m.taken
  refused : m'.refused = m.refused
  closed : m'.executorShutdown = m.executorShutdown
  active : m'.activeWorkers = m.activeWorkers
  stats : m'.stats = m.stats
  burst : m'.requestedBurst = m.requestedBurst
  ended : m'.ended = m.ended
  deliveries : m'.deliveries = m.deliveries

theorem SameJobs.refl : SameJobs m m :=
  ⟨rfl, rfl, rfl, rfl, rfl, rfl, rfl, rfl, rfl, rfl, rfl, rfl, rfl⟩

theorem sameJobs_cancel (m : Manager κ) (w : ℕ) : SameJobs m (m.cancel w) := by
  rw [cancel]
  split <;> exact ⟨rfl, rfl, rfl, rfl, rfl, rfl, rfl, rfl, rfl, rfl, rfl, rfl, rfl⟩

theorem sameJobs_settle (m : Manager κ) (w : ℕ) (outcome : Outcome) :
    SameJobs m (m.settle w outcome) :=
  ⟨rfl, rfl, rfl, rfl, rfl, rfl, rfl, rfl, rfl, rfl, rfl, rfl, rfl⟩

theorem SameJobs.trans {m₁ m₂ m₃ : Manager κ} (h : SameJobs m₁ m₂) (h' : SameJobs m₂ m₃) :
    SameJobs m₁ m₃ where
  sequence := h'.sequence.trans h.sequence
  objects := h'.objects.trans h.objects
  jobs := h'.jobs.trans h.jobs
  queued := h'.queued.trans h.queued
  running := h'.running.trans h.running
  taken := h'.taken.trans h.taken
  refused := h'.refused.trans h.refused
  closed := h'.closed.trans h.closed
  active := h'.active.trans h.active
  stats := h'.stats.trans h.stats
  burst := h'.burst.trans h.burst
  ended := h'.ended.trans h.ended
  deliveries := h'.deliveries.trans h.deliveries

theorem sameJobs_settleAll (outcome : Outcome) (raced : Option ℕ) (waiters : List ℕ)
    (m : Manager κ) : SameJobs m (m.settleAll outcome raced waiters).1 := by
  induction waiters generalizing m with
  | nil => exact .refl
  | cons w rest ih =>
    rw [settleAll]
    split
    · exact sameJobs_cancel m w
    · exact (sameJobs_settle m w outcome).trans (ih _)

theorem Inv.congr (h : Inv s m) (hsame : SameJobs m m') : Inv s m' := by
  obtain ⟨hseq, hobj, hjobs, hq, hr, ht, href, hclosed, ha, hst, -, -, -⟩ := hsame
  have hlive : m'.live = m.live := by rw [live, live, hq, hr]
  constructor
  · rw [hobj, hseq]; exact h.next
  · rw [hobj]; exact h.sequence
  · rw [hlive]; exact h.nodup
  · rw [hlive, hobj, hjobs]; exact h.listed
  · rw [hlive, hobj, hjobs]; exact h.known
  · rw [hlive, hobj, hr]; exact h.started
  · rw [hq]; exact h.queue
  · rw [ha, hr]; exact h.active
  · rw [hr]; exact h.workers
  · rw [hseq, hst, hq, hr]; exact h.accepted
  · rw [ht, hr]; exact h.taken
  · rw [href, hr, hclosed]; exact h.refused

theorem inv_init : Inv s (init : Manager κ) where
  next := rfl
  sequence r job h := by cases h
  nodup := List.nodup_nil
  listed r h := by cases h
  known k r h := by cases h
  started r h := by cases h
  queue := Nat.zero_le _
  active := rfl
  workers := Nat.zero_le _
  accepted := rfl
  taken r h := by cases h
  refused r h := by cases h

/-- The job of a number and the number of a key determine each other. -/
theorem Inv.eq_of_key (h : Inv s m) {r' : ℕ} {job job' : Job κ} (hr : r ∈ m.live)
    (hr' : r' ∈ m.live) (hjob : m.objects.get r = some job) (hjob' : m.objects.get r' = some job')
    (hkey : job.key = job'.key) : r = r' := by
  obtain ⟨j, hj, hk⟩ := h.listed r hr
  obtain ⟨j', hj', hk'⟩ := h.listed r' hr'
  cases hj.symm.trans hjob
  cases hj'.symm.trans hjob'
  rw [hkey, hk'] at hk
  exact (Option.some_inj.mp hk).symm

/-- Changes of an object that the invariant does not see. -/
theorem Inv.modify (h : Inv s m) {f : Job κ → Job κ} (hkey : ∀ job, (f job).key = job.key)
    (hseq : ∀ job, (f job).sequence = job.sequence)
    (hstarted : ∀ job, (f job).started = job.started) :
    Inv s { m with objects := m.objects.modify r f } := by
  have hget : ∀ r' job, (m.objects.modify r f).get r' = some job → ∃ job₀,
    m.objects.get r' = some job₀ ∧
      job.key = job₀.key ∧ job.sequence = job₀.sequence ∧ job.started = job₀.started := by
    intro r' job hjob
    rcases Heap.get_of_modify hjob with ⟨rfl, job₀, h₀, rfl⟩ | ⟨-, h₀⟩
    · exact ⟨job₀, h₀, hkey _, hseq _, hstarted _⟩
    · exact ⟨job, h₀, rfl, rfl, rfl⟩
  have hput : ∀ r' job₀, m.objects.get r' = some job₀ → ∃ job,
    (m.objects.modify r f).get r' = some job ∧
      job.key = job₀.key := by
    intro r' job₀ h₀
    by_cases hr : r' = r
    · subst hr
      exact ⟨f job₀, by rw [Heap.get_modify_self, h₀]; rfl, hkey _⟩
    · exact ⟨job₀, by rw [Heap.get_modify_ne hr, h₀], rfl⟩
  refine { h with sequence := ?_, listed := ?_, known := ?_, started := ?_ }
  · intro r' job hjob
    obtain ⟨job₀, h₀, -, hs, -⟩ := hget r' job hjob
    rw [hs, h.sequence r' job₀ h₀]
  · intro r' hr'
    obtain ⟨job₀, h₀, hk⟩ := h.listed r' hr'
    obtain ⟨job, hjob, hkey'⟩ := hput r' job₀ h₀
    exact ⟨job, hjob, hkey' ▸ hk⟩
  · intro k r' hk
    obtain ⟨hlive, job₀, h₀, hkey₀⟩ := h.known k r' hk
    obtain ⟨job, hjob, hkey'⟩ := hput r' job₀ h₀
    exact ⟨hlive, job, hjob, hkey'.trans hkey₀⟩
  · intro r' hr' job hjob
    obtain ⟨job₀, h₀, -, -, hst⟩ := hget r' job hjob
    rw [hst]
    exact h.started r' hr' job₀ h₀

theorem Inv.not_running (h : Inv s m) (hr : r ∈ m.queued) : r ∉ m.running := fun hrun =>
  (List.nodup_append.mp h.nodup).2.2 r hr r hrun rfl

/-- Nothing is refused before the shutdown of the executor. -/
theorem Inv.refused_of_open (h : Inv s m) (hopen : m.executorShutdown = false) :
    m.refused = [] := by
  refine List.eq_nil_iff_forall_not_mem.mpr fun r hr => ?_
  rw [(h.refused r hr).2] at hopen
  cases hopen

/-! ### The steps keep it -/

/-- A start leaves the jobs alone. -/
theorem sameJobs_start (m : Manager κ) : SameJobs m m.start := by
  rw [Manager.start]
  split
  · exact .refl
  · exact ⟨rfl, rfl, rfl, rfl, rfl, rfl, rfl, rfl, rfl, rfl, rfl, rfl, rfl⟩

theorem Inv.start (h : Inv s m) : Inv s m.start := h.congr (sameJobs_start m)

/-- The job that is dropped is a queued prewarm. -/
theorem prewarmToDrop_spec (hr : m.prewarmToDrop = some r) :
    r ∈ m.queued ∧ m.priorityOf r = some .prewarm := by
  have hmem := List.mem_filter.mp (List.argmax_mem hr)
  exact ⟨hmem.1, of_decide_eq_true hmem.2⟩

/-- The selected job is in the queue. -/
theorem selectJob_mem {burst : ℕ} (h : m.selectJob now = some (r, burst)) :
    r ∈ m.eligibleJobs now := by
  unfold selectJob at h
  dsimp only at h
  split at h
  · obtain ⟨r', hr', heq⟩ := Option.map_eq_some_iff.mp h
    cases heq
    exact (List.mem_filter.mp (List.argmin_mem hr')).1
  · obtain ⟨r', hr', heq⟩ := Option.map_eq_some_iff.mp h
    cases heq
    exact List.argmin_mem hr'

theorem mem_queued_of_eligible (h : r ∈ m.eligibleJobs now) : r ∈ m.queued := by
  unfold eligibleJobs at h
  split at h
  · exact (List.mem_filter.mp h).1
  · exact h

theorem Inv.join (h : Inv s m) : Inv s (m.join r key priority prewarm) := by
  have hmod := h.modify (r := r) (f := fun job => joined job priority prewarm m.futures.next)
    (fun _ => rfl) (fun _ => rfl) (fun _ => rfl)
  exact { hmod with }

/-- What a round of the dispatcher does: nothing, or it returns, or it takes the selected job. -/
theorem dispatch_cases (s : Settings) (m : Manager κ) (now : ℚ) :
    dispatch s m now = m ∨ dispatch s m now = { m with dispatchers := m.dispatchers - 1 } ∨
      ∃ r burst, ¬ s.workerCount ≤ m.activeWorkers ∧ m.selectJob now = some (r, burst) ∧
        dispatch s m now = { m.takeNextJob r burst with
          dispatchers := m.dispatchers - 1
          activeWorkers := m.activeWorkers + 1
          running := m.running ++ [r]
          taken := m.taken ++ [r] } := by
  rw [Manager.dispatch]
  split_ifs with hnobody hdone hbusy
  · exact .inl rfl
  · exact .inr (.inl rfl)
  · exact .inl rfl
  · cases hselect : m.selectJob now with
    | none => exact .inl rfl
    | some selected => exact .inr (.inr ⟨selected.1, selected.2, hbusy, rfl, rfl⟩)

theorem Inv.dispatch (h : Inv s m) : Inv s (dispatch s m now) := by
  rcases dispatch_cases s m now with heq | heq | ⟨r, burst, hidle, hselect, heq⟩
  · rw [heq]
    exact h
  · rw [heq]
    exact { h with }
  · rw [heq]
    · have hr : r ∈ m.queued := mem_queued_of_eligible (selectJob_mem hselect)
      have hnodup := List.nodup_append.mp h.nodup
      -- The job only moves from one list to the other.
      have hmem : ∀ r', r' ∈ m.queued.erase r ++ (m.running ++ [r]) ↔ r' ∈ m.live := by
        intro r'
        simp only [Manager.live, List.mem_append, List.mem_singleton, hnodup.1.mem_erase_iff]
        by_cases heq : r' = r
        · subst heq
          tauto
        · tauto
      have hlen : (m.queued.erase r).length + 1 = m.queued.length := by
        have hpos := List.length_pos_of_mem hr
        rw [List.length_erase_of_mem hr]
        omega
      have hput : ∀ r' job, m.objects.get r' = some job →
          ∃ job', (m.objects.modify r fun job => { job with started := true }).get r' = some job' ∧
            job'.key = job.key := by
        intro r' job hjob
        by_cases heq : r' = r
        · subst heq
          exact ⟨{ job with started := true }, by rw [Heap.get_modify_self, hjob]; rfl, rfl⟩
        · exact ⟨job, by rw [Heap.get_modify_ne heq, hjob], rfl⟩
      have hwas := h.active
      constructor
      · exact h.next
      · intro r' job hjob
        rcases Heap.get_of_modify hjob with ⟨rfl, job₀, h₀, rfl⟩ | ⟨-, h₀⟩
        · exact h.sequence r' job₀ h₀
        · exact h.sequence r' job h₀
      · have hperm : (m.queued.erase r ++ (m.running ++ [r])).Perm m.live := by
          rw [← List.append_assoc]
          exact (List.perm_append_singleton r _).trans
            ((List.perm_cons_erase hr).symm.append_right m.running)
        exact hperm.nodup_iff.mpr h.nodup
      · intro r' hr'
        obtain ⟨job, hjob, hk⟩ := h.listed r' ((hmem r').mp hr')
        obtain ⟨job', hjob', hkey⟩ := hput r' job hjob
        exact ⟨job', hjob', hkey ▸ hk⟩
      · intro k r' hk
        obtain ⟨hlive, job, hjob, hk'⟩ := h.known k r' hk
        obtain ⟨job', hjob', hkey⟩ := hput r' job hjob
        exact ⟨(hmem r').mpr hlive, job', hjob', hkey.trans hk'⟩
      · intro r' hr' job hjob
        show job.started = true ↔ r' ∈ m.running ++ [r]
        rw [List.mem_append, List.mem_singleton]
        rcases Heap.get_of_modify hjob with ⟨rfl, job₀, -, rfl⟩ | ⟨hne, h₀⟩
        · exact ⟨fun _ => .inr rfl, fun _ => rfl⟩
        · rw [h.started r' ((hmem r').mp hr') job h₀]
          exact ⟨.inl, fun hor => hor.resolve_right hne⟩
      · have hqueue := h.queue
        show (m.queued.erase r).length ≤ s.queueMax
        omega
      · show m.activeWorkers + 1 = (m.running ++ [r]).length
        rw [List.length_append, List.length_singleton, hwas]
      · show (m.running ++ [r]).length ≤ s.workerCount
        rw [List.length_append, List.length_singleton]
        omega
      · have haccepted := h.accepted
        show m.sequence = m.stats.over + (m.queued.erase r).length + (m.running ++ [r]).length
        rw [List.length_append, List.length_singleton]
        omega
      · intro r' hr'
        rcases List.mem_append.mp hr' with hold | hnew
        · exact List.mem_append_left _ (h.taken r' hold)
        · exact List.mem_append_right _ hnew
      · intro r' hr'
        exact ⟨List.mem_append_left _ (h.refused r' hr').1, (h.refused r' hr').2⟩

/-- The job goes to the executor, or is refused. -/
theorem Inv.execute (h : Inv s m) (hexecute : m.execute r = some m') : Inv s m' := by
  unfold Manager.execute at hexecute
  split_ifs at hexecute with htaken hclosed
  · cases hexecute
    refine { h with taken := fun r' hr' => h.taken r' (List.mem_of_mem_erase hr'), refused := ?_ }
    intro r' hr'
    rcases List.mem_append.mp hr' with hold | hnew
    · exact h.refused r' hold
    · rw [List.mem_singleton.mp hnew]
      exact ⟨h.taken r htaken, hclosed⟩
  · cases hexecute
    exact { h with taken := fun r' hr' => h.taken r' (List.mem_of_mem_erase hr') }

theorem Inv.deliver (h : Inv s m) {i : ℕ} {raced : Bool} (hdeliver : m.deliver i raced = some m') :
    Inv s m' := by
  obtain ⟨d, -, rfl⟩ := Option.map_eq_some_iff.mp hdeliver
  split
  · exact { h with }
  · next w rest hw =>
    split
    · exact { h.congr (sameJobs_cancel m w) with }
    · exact { h.congr (sameJobs_settle m w d.outcome) with }

variable [DecidableEq κ]

/-- A job leaves the lists and the dictionary at once. -/
theorem Inv.leave (h : Inv s m) {job : Job κ} (hr : r ∈ m.live) (hjob : m.objects.get r = some job)
    {queued running : List ℕ} (hsub : (queued ++ running).Sublist m.live)
    (hrunning : ∀ r' ∈ queued ++ running, r' ∈ running ↔ r' ∈ m.running)
    (hmem : ∀ r', r' ∈ queued ++ running ↔ r' ∈ m.live ∧ r' ≠ r) {active : ℕ} {stats : Stats}
    (hq : queued.length ≤ m.queued.length) (hw : running.length ≤ m.running.length)
    (ha : active = running.length)
    (haccepted : m.sequence = stats.over + queued.length + running.length)
    (hkept : ∀ r' ∈ m.running, r' ∈ m.taken ∨ r' ∈ m.refused → r' ∈ running) :
    Inv s { m with
      queued := queued
      running := running
      activeWorkers := active
      stats := stats
      jobs := Function.update m.jobs job.key none } where
  next := h.next
  sequence := h.sequence
  nodup := h.nodup.sublist hsub
  listed r' hr' := by
    obtain ⟨hlive, hne⟩ := (hmem r').mp hr'
    obtain ⟨job', hjob', hk⟩ := h.listed r' hlive
    refine ⟨job', hjob', ?_⟩
    -- Two live jobs have different keys, so the entry of the other one stays.
    have hkey : job'.key ≠ job.key := fun hkey => hne (h.eq_of_key hlive hr hjob' hjob hkey)
    exact (Function.update_of_ne hkey ..).trans hk
  known k r' hk := by
    by_cases hkey : k = job.key
    · subst hkey
      cases (Function.update_self ..).symm.trans hk
    · obtain ⟨hlive, job', hjob', hk'⟩ :=
        h.known k r' ((Function.update_of_ne hkey ..).symm.trans hk)
      refine ⟨(hmem r').mpr ⟨hlive, ?_⟩, job', hjob', hk'⟩
      rintro rfl
      cases hjob'.symm.trans hjob
      exact hkey hk'.symm
  started r' hr' job' hjob' := by
    rw [hrunning r' hr']
    exact h.started r' ((hmem r').mp hr').1 job' hjob'
  queue := hq.trans h.queue
  active := ha
  workers := hw.trans h.workers
  accepted := haccepted
  taken r' hr' := hkept r' (h.taken r' hr') (.inl hr')
  refused r' hr' := ⟨hkept r' (h.refused r' hr').1 (.inr hr'), (h.refused r' hr').2⟩

/-- A queued job is discarded; it is counted by the caller. -/
theorem Inv.discard (h : Inv s m) {job : Job κ} (hr : r ∈ m.queued)
    (hjob : m.objects.get r = some job) {stats : Stats} (hstats : stats.over = m.stats.over + 1) :
    Inv s (m.discard r job.key stats) := by
  have hnodup := List.nodup_append.mp h.nodup
  have hlen : (m.queued.erase r).length + 1 = m.queued.length := by
    have hpos := List.length_pos_of_mem hr
    rw [List.length_erase_of_mem hr]
    omega
  refine h.leave (List.mem_append_left _ hr) hjob (List.Sublist.append_right List.erase_sublist _)
    (fun _ _ => Iff.rfl) (fun r' => ?_) (by omega) le_rfl h.active ?_
    fun _ hr' _ => hr'
  · rw [live, List.mem_append, List.mem_append, hnodup.1.mem_erase_iff]
    constructor
    · rintro (⟨hne, hq⟩ | hrun)
      · exact ⟨.inl hq, hne⟩
      · exact ⟨.inr hrun, fun heq => h.not_running hr (heq ▸ hrun)⟩
    · rintro ⟨hq | hrun, hne⟩
      · exact .inl ⟨hne, hq⟩
      · exact .inr hrun
  · have haccepted := h.accepted
    omega

/-- What is in the queue below the bound gets a new neighbour. -/
theorem Inv.enqueue (h : Inv s m) (hfresh : m.jobs key = none)
    (hroom : m.queued.length < s.queueMax) : Inv s (m.enqueue key priority prewarm) := by
  have hget : ∀ r' ∈ m.live, (m.enqueue key priority prewarm).objects.get r' =
      m.objects.get r' := by
    intro r' hr'
    obtain ⟨job, hjob, -⟩ := h.listed r' hr'
    exact Heap.get_put_ne (Heap.lt_next hjob).ne
  -- Live jobs were allocated before, and the new number is none of theirs.
  have hnew : m.objects.next ∉ m.live := by
    intro hmem
    obtain ⟨job, hjob, -⟩ := h.listed _ hmem
    exact (Heap.lt_next hjob).ne rfl
  have hmem : ∀ r', r' ∈ (m.enqueue key priority prewarm).live ↔ r' ∈ m.live ∨
      r' = m.objects.next := by
    intro r'
    simp only [Manager.live, Manager.enqueue, List.mem_append, List.mem_singleton]
    tauto
  constructor
  · show max m.objects.next (m.objects.next + 1) = m.sequence + 1
    rw [h.next]
    omega
  · intro r' job hjob
    by_cases hr' : r' = m.objects.next
    · subst hr'
      rw [show (m.enqueue key priority prewarm).objects.get m.objects.next =
        _ from Heap.get_put_self] at hjob
      cases hjob
      show m.sequence + 1 = m.objects.next + 1
      rw [h.next]
    · exact h.sequence r' job (by rwa [← Heap.get_put_ne hr'])
  · have hperm : (m.enqueue key priority prewarm).live.Perm (m.objects.next :: m.live) := by
      show (m.queued ++ [m.objects.next] ++ m.running).Perm
        (m.objects.next :: (m.queued ++ m.running))
      rw [List.append_assoc]
      exact List.perm_middle
    exact hperm.nodup_iff.mpr (List.nodup_cons.mpr ⟨hnew, h.nodup⟩)
  · intro r' hr'
    rcases (hmem r').mp hr' with hold | rfl
    · obtain ⟨job, hjob, hk⟩ := h.listed r' hold
      refine ⟨job, (hget r' hold).trans hjob, ?_⟩
      have hne : job.key ≠ key := fun heq => by
        rw [heq, hfresh] at hk
        cases hk
      exact (Function.update_of_ne hne ..).trans hk
    · exact ⟨_, Heap.get_put_self, Function.update_self ..⟩
  · intro k r' hk
    by_cases hkey : k = key
    · subst hkey
      have hself : (m.enqueue k priority prewarm).jobs k = some m.objects.next :=
        Function.update_self ..
      cases hself.symm.trans hk
      exact ⟨(hmem _).mpr (.inr rfl), _, Heap.get_put_self, rfl⟩
    · obtain ⟨hold, job, hjob, hk'⟩ := h.known k r' ((Function.update_of_ne hkey ..).symm.trans hk)
      exact ⟨(hmem r').mpr (.inl hold), job, (hget r' hold).trans hjob, hk'⟩
  · intro r' hr' job hjob
    rcases (hmem r').mp hr' with hold | rfl
    · exact h.started r' hold job ((hget r' hold).symm.trans hjob)
    · rw [show (m.enqueue key priority prewarm).objects.get m.objects.next =
        _ from Heap.get_put_self] at hjob
      cases hjob
      constructor
      · intro hs
        cases hs
      · intro hrun
        exact absurd (List.mem_append_right _ hrun) hnew
  · show (m.queued ++ [m.objects.next]).length ≤ s.queueMax
    rw [List.length_append, List.length_singleton]
    omega
  · exact h.active
  · exact h.workers
  · have haccepted := h.accepted
    show m.sequence + 1 = m.stats.over + (m.queued ++ [m.objects.next]).length + m.running.length
    rw [List.length_append, List.length_singleton]
    omega
  · exact h.taken
  · exact h.refused

/-- A dropped job makes room for one other. -/
theorem Inv.dropQueuedPrewarm (h : Inv s m) (hr : r ∈ m.queued) (key : κ) (raced : Option ℕ) :
    Inv s (m.dropQueuedPrewarm r raced).1 ∧
      (m.dropQueuedPrewarm r raced).1.queued.length + 1 = m.queued.length ∧
      (m.jobs key = none → (m.dropQueuedPrewarm r raced).1.jobs key = none) := by
  obtain ⟨job, hjob, -⟩ := h.listed r (List.mem_append_left _ hr)
  have hdiscard : Inv s
      (m.discard r job.key { m.stats with droppedPrewarm := m.stats.droppedPrewarm + 1 }) :=
    h.discard hr hjob (by simp only [Stats.over]; omega)
  have hsame := sameJobs_settleAll
    (.error (.queueFull "Poster prewarm was dropped for interactive work")) raced job.waiters
    (m.discard r job.key { m.stats with droppedPrewarm := m.stats.droppedPrewarm + 1 })
  have hdrop : m.dropQueuedPrewarm r raced =
      (m.discard r job.key { m.stats with droppedPrewarm := m.stats.droppedPrewarm + 1 }).settleAll
        (.error (.queueFull "Poster prewarm was dropped for interactive work"))
            raced job.waiters := by
    rw [Manager.dropQueuedPrewarm, hjob]
  rw [hdrop]
  refine ⟨hdiscard.congr hsame, ?_, fun hnone => ?_⟩
  · have hpos := List.length_pos_of_mem hr
    rw [hsame.queued]
    show (m.queued.erase r).length + 1 = m.queued.length
    rw [List.length_erase_of_mem hr]
    omega
  · rw [hsame.jobs]
    show Function.update m.jobs job.key none key = none
    by_cases hkey : key = job.key
    · rw [hkey, Function.update_self]
    · rw [Function.update_of_ne hkey, hnone]

theorem Inv.submitResult (h : Inv s m) (cached : Option String) :
    Inv s (submitResult s m key priority prewarm cached raced) := by
  unfold Manager.submitResult
  split
  · exact { h with }
  · have hstart := h.start
    dsimp only
    split
    · exact hstart.join
    · next hfresh =>
      split
      · next hfull =>
        split
        · exact { hstart with }
        · next r hselect =>
          have hr : r ∈ m.start.queued := by
            split at hselect
            · cases hselect
            · exact (prewarmToDrop_spec hselect).1
          obtain ⟨hinv, hlen, hjobs⟩ := hstart.dropQueuedPrewarm hr key raced
          -- The queue was within its bound, and the dropped job has left its place.
          have hbound := hstart.queue
          split
          · exact hinv
          · exact hinv.enqueue (hjobs hfresh) (by omega)
      · next hroom => exact hstart.enqueue hfresh (not_le.mp hroom)

theorem Inv.handleWaiterDone (h : Inv s m) : Inv s (m.handleWaiterDone key w) := by
  unfold Manager.handleWaiterDone
  split
  · exact h
  · next r hr =>
    have hforget : Inv s (m.forget r w) := h.modify (fun _ => rfl) (fun _ => rfl) (fun _ => rfl)
    split
    · next hidle =>
      obtain ⟨hlive, job, hjob, rfl⟩ := hforget.known key r hr
      rw [hjob, Option.any_some, Job.abandoned, Bool.and_eq_true, Bool.and_eq_true] at hidle
      -- A job with a worker is started, and then not abandoned.
      have hqueued : r ∈ m.queued := by
        rcases List.mem_append.mp hlive with hq | hrun
        · exact hq
        · have hstarted := (hforget.started r hlive job hjob).mpr hrun
          rw [hstarted] at hidle
          cases hidle.1.1
      exact hforget.discard hqueued hjob (by simp only [Stats.over, forget]; omega)
    · exact hforget

theorem Inv.finishJob (h : Inv s m) (hfinish : m.finishJob r outcome = some m') : Inv s m' := by
  unfold Manager.finishJob at hfinish
  split at hfinish
  · next hrunning =>
    obtain ⟨hrun, hgiven, hwilling⟩ := hrunning
    obtain ⟨job, hjob, rfl⟩ := Option.map_eq_some_iff.mp hfinish
    have hnodup := List.nodup_append.mp h.nodup
    have hlen : (m.running.erase r).length + 1 = m.running.length := by
      have hpos := List.length_pos_of_mem hrun
      rw [List.length_erase_of_mem hrun]
      omega
    have hactive := h.active
    have hmem : ∀ r', r' ∈ m.queued ++ m.running.erase r ↔ r' ∈ m.live ∧ r' ≠ r := by
      intro r'
      rw [live, List.mem_append, List.mem_append, hnodup.2.1.mem_erase_iff]
      constructor
      · rintro (hq | ⟨hne, hr'⟩)
        · exact ⟨.inl hq, fun heq => h.not_running hq (heq ▸ hrun)⟩
        · exact ⟨.inr hr', hne⟩
      · rintro ⟨hq | hr', hne⟩
        · exact .inl hq
        · exact .inr ⟨hne, hr'⟩
    have hrunning : ∀ r' ∈ m.queued ++ m.running.erase r,
        r' ∈ m.running.erase r ↔ r' ∈ m.running := by
      intro r' hr'
      rw [hnodup.2.1.mem_erase_iff]
      exact ⟨fun hand => hand.2, fun hin => ⟨((hmem r').mp hr').2, hin⟩⟩
    have haccepted := h.accepted
    have hover := m.stats.over_finish outcome
    -- The executor has the job, and neither a dispatcher nor nobody.
    have hkept : ∀ r' ∈ m.running, r' ∈ m.taken ∨ r' ∈ m.refused → r' ∈ m.running.erase r := by
      intro r' hr' hplace
      refine hnodup.2.1.mem_erase_iff.mpr ⟨?_, hr'⟩
      rintro rfl
      exact hplace.elim hgiven hwilling
    have hleave := h.leave (List.mem_append_right _ hrun) hjob
      (List.Sublist.append_left List.erase_sublist _) hrunning hmem le_rfl (by omega)
      (show m.activeWorkers - 1 = _ by omega)
      (show m.sequence = (m.stats.finish outcome).over + _ + _ by omega)
      hkept
    exact { hleave with }
  · cases hfinish

theorem Inv.step (h : Inv s m) {a : Action κ} (hstep : m.step s a = some m') : Inv s m' := by
  cases a with
  | submit key priority prewarm cached raced =>
    cases hstep
    exact h.submitResult cached
  | cancel w =>
    cases hstep
    exact h.congr (sameJobs_cancel m w)
  | waiterDone i =>
    obtain ⟨c, -, rfl⟩ := Option.map_eq_some_iff.mp hstep
    have hdone : Inv s (m.handleWaiterDone c.1 c.2) := h.handleWaiterDone
    exact { hdone with }
  | dispatch now =>
    cases hstep
    exact h.dispatch
  | execute r => exact h.execute hstep
  | finish r outcome => exact h.finishJob hstep
  | deliver i raced => exact h.deliver hstep
  | enterInteractiveWindow now =>
    cases hstep
    exact { h with }
  | shutdown =>
    cases hstep
    unfold Manager.shutdown
    split
    · exact { h with }
    · exact h
  | closeExecutor =>
    cases hstep
    unfold Manager.closeExecutor
    split
    · exact { h with refused := fun r hr => ⟨(h.refused r hr).1, rfl⟩ }
    · exact h
  | shutDown =>
    cases hstep
    unfold Manager.shutDown
    split
    · exact { h with }
    · exact h

variable {ok : Manager κ → Action κ → Prop}

theorem inv_of_reach (h : Reach (step s) ok (init : Manager κ) m) : Inv s m :=
  h.invariant inv_init fun _ _ _ _ hinv _ hstep => hinv.step hstep

/-- In every interleaving: no two jobs of one key are queued or generated at once, the dictionary
holds just these jobs, the queue and the executor stay within their bounds, and every job that was
accepted is queued, taken, or counted once among those that are over.  A job that is taken is with a
dispatcher or with the executor, unless the executor has been shut down and has refused it. -/
theorem generations_single_flight (h : Reach (step s) ok (init : Manager κ) m) :
    (∀ r ∈ m.live, ∀ r' ∈ m.live, ∀ job job', m.objects.get r = some job →
      m.objects.get r' = some job' → job.key = job'.key → r = r') ∧
      (∀ k r, m.jobs k = some r ↔ r ∈ m.live ∧ ∃ job, m.objects.get r = some job ∧ job.key = k) ∧
      m.queued.length ≤ s.queueMax ∧ m.activeWorkers = m.running.length ∧
      m.running.length ≤ s.workerCount ∧
      m.sequence = m.stats.over + m.queued.length + m.running.length ∧
      (m.executorShutdown = false → m.refused = []) := by
  have hinv := inv_of_reach h
  refine ⟨fun r hr r' hr' job job' hjob hjob' hkey => hinv.eq_of_key hr hr' hjob hjob' hkey,
    fun k r => ⟨hinv.known k r, ?_⟩, hinv.queue, hinv.active, hinv.workers, hinv.accepted,
    hinv.refused_of_open⟩
  rintro ⟨hr, job, hjob, rfl⟩
  obtain ⟨job', hjob', hk⟩ := hinv.listed r hr
  cases hjob.symm.trans hjob'
  exact hk

/-- A prewarm makes room for a poster that is asked for, and the prewarm is asked for once more.
The shutdown does not wait for it: the executor refuses it. -/
def crowdedRun : List (Action ℕ) :=
  [.submit 1 .requested false none none, .dispatch 0, .execute 0, .submit 2 .prewarm true none none,
    .submit 3 .requested false none none, .submit 2 .prewarm true none none,
    .finish 0 (.error (.raised "decode error")), .dispatch 0, .execute 2,
    .submit 2 .prewarm true none none, .shutdown,
    .finish 2 (.ok ⟨"card.jpg", .derivativeGenerated, true⟩), .dispatch 0, .closeExecutor,
    .execute 3, .shutDown]

theorem generations_single_flight_of_crowdedRun : ∃ m : Manager ℕ,
    runFrom (step ⟨1, 1, 0⟩) init crowdedRun = some m ∧ m.refused = [3] ∧
      m.sequence = m.stats.over + m.queued.length + m.running.length :=
  ⟨(runFrom (step ⟨1, 1, 0⟩) init crowdedRun).get (by decide +kernel), (Option.some_get _).symm,
    by decide +kernel,
    (generations_single_flight (reach_of_runFrom (Option.some_get _).symm)).2.2.2.2.2.1⟩

end Manager

end PosterDerivatives
