/-
A stale transcoder thread and the newer run of its epoch.

The exit block of `_run_route2_epoch_worker` does not look at whose worker the epoch has, so a late
thread can fail, stop or complete a run that was queued after its own.

* `Solo` — the invariant: at most one thread of the epoch can still act, or one process that has
  lost its thread still runs, and a worker is queued only while there is neither;
* `worker_runs_alone` — in every run in which a worker is queued only while the epoch is unoccupied,
  a last block acts only for the newest run, at most one process is alive, and an attached one is
  the epoch's, with its record at work;
* `worker_run_overtaken` — the exit block of a thread whose process crashed fails the next run.
-/
import Mathlib.Tactic.Linarith
import Elvern.EpochWorkers
import Elvern.Runs

open Heaps PyText Route2 Route2.EpochCell

namespace WorkerThreads

/-- The record waits for its dispatch. -/
def Waiting (s : WorkerState) : Prop := s = .queued ∨ s = .paused

/-- The record has been dispatched. -/
def Engaged (s : WorkerState) : Prop := s = .running ∨ s = .stopping

/-- The thread can still act on the epoch: it is past its first block, or will pass it. -/
def potent (c : EpochCell) (t : WorkerThread) : Bool :=
  match t.phase with
  | .done => false
  | .started => decide (c.epoch.activeWorkerId = some t.workerId)
  | _ => true

/-- The process that a thread holds. -/
def held (t : WorkerThread) : Option ℕ :=
  match t.phase with
  | .spawned _ p => some p
  | .attached p => some p
  | _ => none

/-- What holds of the ids whatever happens. -/
structure Wired (c : EpochCell) : Prop where
  record : ∀ w r, c.workers.get w = some r → Waiting r.state ∨ Engaged r.state →
    c.epoch.activeWorkerId = some w
  worker : ∀ i t, c.threads.get i = some t → t.workerId < c.workers.next
  active : ∀ w, c.epoch.activeWorkerId = some w → w < c.workers.next
  process : ∀ p, c.epoch.process = some p → c.alive (some p) = true →
    ∃ i t, c.threads.get i = some t ∧ t.phase = .attached p
  thread : ∀ p x, c.processes.get p = some x → x.thread < c.threads.next
  spawned : ∀ p, c.epoch.process = some p → p < c.processes.next
  held : ∀ i t p, c.threads.get i = some t → held t = some p → p < c.processes.next

/-- Nothing can act on the epoch. -/
structure Free (c : EpochCell) : Prop where
  thread : ∀ i t, c.threads.get i = some t → potent c t = false
  process : ∀ p, c.alive (some p) = false

/-- No record waits. -/
def Idle (c : EpochCell) : Prop := ∀ w r, c.workers.get w = some r → ¬ Waiting r.state

/-- The epoch's running process is the one that the thread has attached, and its record is at
work. -/
def Current (c : EpochCell) (t : WorkerThread) : Prop :=
  ∀ p, t.phase = .attached p → c.alive (some p) = true →
    c.epoch.process = some p ∧ c.epoch.activeWorkerId = some t.workerId ∧
      ∃ r, c.workers.get t.workerId = some r ∧ Engaged r.state ∧ r.process = some p

/-- Only the thread `i` can act on the epoch. -/
structure Busy (c : EpochCell) (i : ℕ) (t : WorkerThread) : Prop where
  self : c.threads.get i = some t
  potent : potent c t = true
  only : ∀ j u, c.threads.get j = some u → WorkerThreads.potent c u = true → j = i
  process : ∀ p, c.alive (some p) = true → held t = some p
  queueing : t.queueing = c.epoch.queueings
  newest : ∀ p x, c.processes.get p = some x → x.thread ≤ i
  idle : Idle c
  current : Current c t

/-- Only a process is left whose thread has let it go. -/
structure Stray (c : EpochCell) (p : ℕ) : Prop where
  thread : ∀ i t, c.threads.get i = some t → potent c t = false
  process : ∀ q, c.alive (some q) = true → q = p
  idle : Idle c

/-- At most one thread or process is left. -/
inductive Solo (c : EpochCell) : Prop
  | free (h : Free c)
  | busy {i : ℕ} {t : WorkerThread} (h : Busy c i t)
  | stray {p : ℕ} (h : Stray c p)

/-- The invariant. -/
structure Inv (c : EpochCell) : Prop where
  wired : Wired c
  solo : Solo c

variable {c c' : EpochCell} {now : ℚ} {i w : ℕ} {t : WorkerThread}

theorem alive_congr (h : c'.processes = c.processes) (p : Option ℕ) : c'.alive p = c.alive p := by
  rw [EpochCell.alive, EpochCell.alive, h]

theorem potent_congr (h : c'.epoch.activeWorkerId = c.epoch.activeWorkerId) (t : WorkerThread) :
    potent c' t = potent c t := by
  rw [potent, potent, h]

theorem potent_attached {p : ℕ} (h : t.phase = .attached p) : potent c t = true := by
  rw [potent, h]

/-- At most one process is alive. -/
theorem Solo.process_unique (h : Solo c) {p q : ℕ} (hp : c.alive (some p) = true)
    (hq : c.alive (some q) = true) : p = q := by
  cases h with
  | free h => simp [h.process p] at hp
  | busy h => exact Option.some_injective _ ((h.process p hp).symm.trans (h.process q hq))
  | stray h => exact (h.process p hp).trans (h.process q hq).symm

/-- A waiting record leaves no one to act. -/
theorem Solo.free_of_waiting (h : Solo c) {r : WorkerRecord} (hr : c.workers.get w = some r)
    (hwait : Waiting r.state) : Free c := by
  cases h with
  | free h => exact h
  | busy h => exact absurd hwait (h.idle w r hr)
  | stray h => exact absurd hwait (h.idle w r hr)

/-- A thread that can act is the only one. -/
theorem Solo.busy_of_potent (h : Solo c) (ht : c.threads.get i = some t)
    (hp : potent c t = true) : Busy c i t := by
  cases h with
  | free h => simp [h.thread i t ht] at hp
  | busy h =>
    obtain rfl := h.only i t ht hp
    have htt := h.self.symm.trans ht
    cases htt
    exact h
  | stray h => simp [h.thread i t ht] at hp

/-! ### Writes to records -/

/-- Threads, processes and ids stay; records are written, but none begins to work or, unless the
epoch is free, to wait, and the record of a running process stays at work. -/
structure Mild (c c' : EpochCell) : Prop where
  threads : c'.threads = c.threads
  processes : c'.processes = c.processes
  active : c'.epoch.activeWorkerId = c.epoch.activeWorkerId
  process : c'.epoch.process = c.epoch.process
  queueings : c'.epoch.queueings = c.epoch.queueings
  next : c.workers.next ≤ c'.workers.next
  record : ∀ w r', c'.workers.get w = some r' → Waiting r'.state ∨ Engaged r'.state →
    c.epoch.activeWorkerId = some w
  idle : Free c ∨ (Idle c → Idle c')
  current : ∀ w r p, c.workers.get w = some r → Engaged r.state → r.process = some p →
    c.epoch.process = some p → c.alive (some p) = true →
    ∃ r', c'.workers.get w = some r' ∧ Engaged r'.state ∧ r'.process = some p

theorem Mild.inv (hm : Mild c c') (h : Inv c) : Inv c' where
  wired := by
    refine ⟨fun w r hr hw => hm.active.trans (hm.record w r hr hw), fun i t ht => ?_,
      fun w hw => ?_, fun p hp ha => ?_, fun p x hx => ?_, fun p hp => ?_, fun i t p ht hp => ?_⟩
    · rw [hm.threads] at ht
      exact (h.wired.worker i t ht).trans_le hm.next
    · rw [hm.active] at hw
      exact (h.wired.active w hw).trans_le hm.next
    · rw [hm.process] at hp
      rw [alive_congr hm.processes] at ha
      rw [hm.threads]
      exact h.wired.process p hp ha
    · rw [hm.processes] at hx
      rw [hm.threads]
      exact h.wired.thread p x hx
    · rw [hm.process] at hp
      rw [hm.processes]
      exact h.wired.spawned p hp
    · rw [hm.threads] at ht
      rw [hm.processes]
      exact h.wired.held i t p ht hp
  solo := by
    have hfree : Free c → Free c' := by
      intro hf
      refine ⟨fun i t ht => ?_, fun p => ?_⟩
      · rw [hm.threads] at ht
        rw [potent_congr hm.active]
        exact hf.thread i t ht
      · rw [alive_congr hm.processes]
        exact hf.process p
    rcases hm.idle with hf | hidle
    · exact .free (hfree hf)
    · cases h.solo with
      | free hf => exact .free (hfree hf)
      | @busy i t hb =>
        refine .busy (i := i) (t := t) ⟨by rw [hm.threads]; exact hb.self, by
          rw [potent_congr hm.active]; exact hb.potent, fun j u hu hpu => ?_, fun p hp => ?_, by
          rw [hm.queueings]; exact hb.queueing, fun p x hx => ?_, hidle hb.idle, fun p hp ha => ?_⟩
        · rw [hm.threads] at hu
          rw [potent_congr hm.active] at hpu
          exact hb.only j u hu hpu
        · rw [alive_congr hm.processes] at hp
          exact hb.process p hp
        · rw [hm.processes] at hx
          exact hb.newest p x hx
        · rw [alive_congr hm.processes] at ha
          obtain ⟨hep, hact, r, hr, heng, hrp⟩ := hb.current p hp ha
          obtain ⟨r', hr', heng', hrp'⟩ := hm.current _ r p hr heng hrp hep ha
          exact ⟨hm.process.trans hep, hm.active.trans hact, r', hr', heng', hrp'⟩
      | @stray p hs =>
        refine .stray (p := p) ⟨fun i t ht => ?_, fun q hq => ?_, hidle hs.idle⟩
        · rw [hm.threads] at ht
          rw [potent_congr hm.active]
          exact hs.thread i t ht
        · rw [alive_congr hm.processes] at hq
          exact hs.process q hq

/-- Writes to the other columns of the epoch. -/
theorem Mild.of_epoch (h : Wired c) {f : PlaybackEpoch → PlaybackEpoch}
    (ha : (f c.epoch).activeWorkerId = c.epoch.activeWorkerId)
    (hp : (f c.epoch).process = c.epoch.process)
    (hq : (f c.epoch).queueings = c.epoch.queueings) : Mild c (c.onEpoch f) :=
  ⟨rfl, rfl, ha, hp, hq, le_refl _, h.record, .inr id,
    fun _ r _ hr heng hrp _ _ => ⟨r, hr, heng, hrp⟩⟩

/-- A write to one record that changes its state only to one that is not at work. -/
theorem Mild.of_onWorker (h : Wired c) (w : ℕ) {f : WorkerRecord → WorkerRecord}
    (hstate : ∀ r, c.workers.get w = some r → (Waiting (f r).state → Waiting r.state) ∧
      (Engaged (f r).state → Waiting r.state ∨ Engaged r.state))
    (hcur : ∀ r p, c.workers.get w = some r → Engaged r.state → r.process = some p →
      c.epoch.process = some p → c.alive (some p) = true →
      Engaged (f r).state ∧ (f r).process = some p) : Mild c (c.onWorker w f) := by
  refine ⟨rfl, rfl, rfl, rfl, rfl, le_refl _, fun j r' hr' hwork => ?_,
    .inr fun hidle j r' hr' hwait => ?_,
    fun j r p hr heng hrp hep ha => ?_⟩
  · rcases Heap.get_of_modify hr' with ⟨rfl, r, hr, rfl⟩ | ⟨_, hr⟩
    · exact h.record j r hr (hwork.elim (fun hw => .inl ((hstate r hr).1 hw)) (hstate r hr).2)
    · exact h.record j r' hr hwork
  · rcases Heap.get_of_modify hr' with ⟨rfl, r, hr, rfl⟩ | ⟨_, hr⟩
    · exact hidle j r hr ((hstate r hr).1 hwait)
    · exact hidle j r' hr hwait
  · by_cases hj : j = w
    · subst hj
      obtain ⟨he, hp⟩ := hcur r p hr heng hrp hep ha
      exact ⟨f r, by simp [onWorker, hr], he, hp⟩
    · exact ⟨r, by rw [onWorker, Heap.get_modify_ne hj, hr], heng, hrp⟩

/-- The removal of a record that is not the active worker's. -/
theorem Mild.of_pop (h : Wired c) (hw : c.epoch.activeWorkerId ≠ some w) :
    Mild c { c with workers := c.workers.pop w } := by
  refine ⟨rfl, rfl, rfl, rfl, rfl, le_refl _,
    fun j r hr hwork => h.record j r (Heap.get_of_pop hr) hwork,
    .inr fun hidle j r hr => hidle j r (Heap.get_of_pop hr), fun j r p hr heng hrp _ _ => ?_⟩
  have hj : j ≠ w := fun hj => hw (hj ▸ h.record j r hr (.inr heng))
  exact ⟨r, by rw [Heap.get_pop_ne hj, hr], heng, hrp⟩

theorem runningProcess_of_alive {p : ℕ} (hp : c.epoch.process = some p)
    (ha : c.alive (some p) = true) : c.runningProcess = some p := by
  rw [runningProcess, hp, if_pos ha]

theorem mild_sync (h : Wired c) (w : ℕ) (now : ℚ) : Mild c (c.syncWorkerRecord w now) :=
  .of_onWorker h w (fun r _ => by rw [synced_state]; exact ⟨id, .inr⟩) fun r p _ heng _ hep ha =>
    ⟨by rw [synced_state]; exact heng, by rw [synced_process, runningProcess_of_alive hep ha]⟩

theorem Inv.touch (h : Inv c) (state : EpochState) (stop : Bool) :
    Inv (c.onEpoch fun e => { e with state, stopRequested := stop }) :=
  (Mild.of_epoch h.wired rfl rfl rfl).inv h

theorem Inv.sample (h : Inv c) (w : ℕ) (now : ℚ) : Inv (c.sample w now) := by
  refine (Mild.of_onWorker h.wired w (fun r _ => ?_) fun r p _ heng hrp _ ha => ?_).inv h
  · split
    · next hr =>
      simp only [WorkerRecord.markUnavailable, if_pos hr.1, markRuntimeFinished_state]
      split <;> simp [Waiting, Engaged]
    · exact ⟨id, .inr⟩
  · rw [if_neg]
    · exact ⟨heng, hrp⟩
    · simp [unavailable, hrp, ha]

/-- A write to every record that takes none out of work or into it. -/
theorem Mild.of_mapAll (h : Wired c) {f : WorkerRecord → WorkerRecord}
    (hwork : ∀ r, Waiting (f r).state ∨ Engaged (f r).state → Waiting r.state ∨ Engaged r.state)
    (hidle : Free c ∨ ∀ w r, c.workers.get w = some r → Waiting (f r).state → Waiting r.state)
    (hcur : ∀ w r p, c.workers.get w = some r → Engaged r.state → r.process = some p →
      c.alive (some p) = true → Engaged (f r).state ∧ (f r).process = some p) :
    Mild c { c with workers := c.workers.mapAll f } := by
  refine ⟨rfl, rfl, rfl, rfl, rfl, le_refl _, fun w r hr hw => ?_,
    hidle.imp_right fun hidle hi w r hr hwait => ?_,
    fun w r p hr heng hrp _ ha => ?_⟩
  · obtain ⟨r₀, hr₀, rfl⟩ := Option.map_eq_some_iff.mp hr
    exact h.record w r₀ hr₀ (hwork r₀ hw)
  · obtain ⟨r₀, hr₀, rfl⟩ := Option.map_eq_some_iff.mp hr
    exact hi w r₀ hr₀ (hidle w r₀ hr₀ hwait)
  · obtain ⟨he, hp⟩ := hcur w r p hr heng hrp ha
    exact ⟨f r, by simp [hr], he, hp⟩

/-- Setting the stop flag of the epoch changes nothing that matters. -/
theorem Inv.setStop (h : Inv c) (stop : Bool) : Inv (c.setStop stop) := by
  rw [EpochCell.setStop]
  split
  · exact (Mild.of_epoch h.wired rfl rfl rfl).inv h
  · exact h

theorem Inv.park (h : Inv c) : Inv c.park := by
  refine Inv.setStop ?_ true
  have hstate : ∀ r : WorkerRecord, r.park.process = r.process ∧
      (r.state = .queued ∧ r.park.state = .paused ∨ r.state = .running ∧ r.park.state = .stopping ∨
        r.state ≠ .queued ∧ r.state ≠ .running ∧ r.park.state = r.state) := by
    intro r
    rcases hr : r.state <;> simp [WorkerRecord.park, hr]
  refine (Mild.of_mapAll h.wired (fun r hw => ?_) (.inr fun w r _ hw => ?_)
    fun w r p _ heng hrp _ => ?_).inv h
  · have := (hstate r).2
    simp only [Waiting, Engaged] at hw ⊢
    grind
  · have := (hstate r).2
    simp only [Waiting] at hw ⊢
    grind
  · have := hstate r
    simp only [Engaged] at heng ⊢
    grind

/-- The record goes back to the queue when its session resumes. -/
def requeues (r : WorkerRecord) : Bool :=
  decide (r.state = .stopping) && !(r.startedAt.isSome && r.finishedAt.isNone)

theorem Inv.resume (h : Inv c)
    (hcalm : Free c ∨ ∀ w r, c.workers.get w = some r → requeues r = false) : Inv c.resume := by
  refine Inv.setStop ?_ false
  have hstate : ∀ r : WorkerRecord, r.resume.process = r.process ∧
      (r.state = .paused ∧ r.resume.state = .queued ∨
        r.state = .stopping ∧ requeues r = true ∧ r.resume.state = .queued ∨
        r.state = .stopping ∧ requeues r = false ∧ r.resume.state = .running ∨
        r.state ≠ .paused ∧ r.state ≠ .stopping ∧ r.resume.state = r.state) := by
    intro r
    rcases hq : r.startedAt.isSome && r.finishedAt.isNone <;> rcases hr : r.state <;>
      simp [WorkerRecord.resume, requeues, hr, hq]
  refine (Mild.of_mapAll h.wired (fun r hw => ?_) (hcalm.imp_right fun hcalm w r hr hw => ?_)
    fun w r p hr heng hrp ha => ?_).inv h
  · have := (hstate r).2
    simp only [Waiting, Engaged] at hw ⊢
    grind
  · have := (hstate r).2
    have := hcalm w r hr
    simp only [Waiting] at hw ⊢
    grind
  · have := hstate r
    rcases hcalm with hf | hcalm
    · simp [hf.process p] at ha
    · have := hcalm w r hr
      simp only [Engaged] at heng ⊢
      grind

/-! ### Queueing and dispatch -/

theorem ensuredId_of_active (hw : c.epoch.activeWorkerId = some w) : c.ensuredId = w := by
  rw [ensuredId, hw, Option.getD_some]

/-- A free epoch gets a queued record. -/
theorem Inv.queueWorker (h : Inv c) (hfree : Free c) (now : ℚ) : Inv (c.queueWorker now) := by
  have hid : (c.ensureWorkerRecord now).ensuredId = c.ensuredId :=
    ensuredId_of_active (by rw [ensureWorkerRecord_epoch])
  have hactive : (c.queueWorker now).epoch.activeWorkerId = some c.ensuredId := by
    simp only [EpochCell.queueWorker, onEpoch, onWorker, ensureWorkerRecord_epoch]
  have hthreads : (c.queueWorker now).threads = c.threads := ensureWorkerRecord_threads
  have hprocesses : (c.queueWorker now).processes = c.processes := ensureWorkerRecord_processes
  have hnext := ensureWorkerRecord_next (c := c) now
  -- a thread that has not begun is not one of the new worker's
  have hnot : ∀ i t, c.threads.get i = some t → potent (c.queueWorker now) t = false := by
    intro i t ht
    have hold := hfree.thread i t ht
    rcases hphase : t.phase <;> simp only [potent, hphase, reduceCtorEq] at hold ⊢
    rw [hactive, decide_eq_false_iff_not, Option.some.injEq]
    intro heq
    rcases hw : c.epoch.activeWorkerId with _ | w
    · have hlt := h.wired.worker i t ht
      rw [← heq, ensuredId, hw] at hlt
      exact absurd hlt (lt_irrefl _)
    · rw [ensuredId_of_active hw] at heq
      rw [hw, heq] at hold
      simp at hold
  refine ⟨⟨fun j r hr hwork => ?_, fun i t ht => ?_, fun w hw => ?_, fun p hp ha => ?_,
    fun p x hx => ?_, fun p hp => ?_, fun i t p ht hp => ?_⟩,
    .free ⟨fun i t ht => ?_, fun p => ?_⟩⟩
  · rw [hactive]
    by_cases hj : j = c.ensuredId
    · rw [hj]
    · have hr' : c.workers.get j = some r := by
        simp only [EpochCell.queueWorker, onEpoch, onWorker, hid] at hr
        rwa [Heap.get_modify_ne hj, ensureWorkerRecord_ne _ hj] at hr
      exact absurd (ensuredId_of_active (h.wired.record j r hr' hwork)).symm hj
  · rw [hthreads] at ht
    exact (h.wired.worker i t ht).trans_le hnext.1
  · rw [hactive] at hw
    cases hw
    exact hnext.2
  · rw [alive_congr hprocesses, hfree.process p] at ha
    cases ha
  · rw [hprocesses] at hx
    rw [hthreads]
    exact h.wired.thread p x hx
  · rw [hprocesses]
    simp only [EpochCell.queueWorker, onEpoch, onWorker, ensureWorkerRecord_epoch] at hp
    exact h.wired.spawned p hp
  · rw [hthreads] at ht
    rw [hprocesses]
    exact h.wired.held i t p ht hp
  · rw [hthreads] at ht
    exact hnot i t ht
  · rw [alive_congr hprocesses]
    exact hfree.process p

/-- An epoch whose worker has no record forgets it. -/
theorem Inv.clearWorker (h : Inv c) (hfree : Free c) (hnone : c.activeRecord = none) :
    Inv (c.onEpoch fun e => { e with activeWorkerId := none }) ∧
      Free (c.onEpoch fun e => { e with activeWorkerId := none }) := by
  have hfree' : Free (c.onEpoch fun e => { e with activeWorkerId := none }) := by
    refine ⟨fun i t ht => ?_, hfree.process⟩
    have hold := hfree.thread i t ht
    rcases hphase : t.phase <;> simp [potent, hphase, onEpoch] at hold ⊢
  refine ⟨⟨⟨fun w r hr hwork => ?_, h.wired.worker, fun w hw => ?_, fun p hp ha => ?_,
    h.wired.thread, h.wired.spawned, h.wired.held⟩, .free hfree'⟩, hfree'⟩
  · rw [activeRecord, h.wired.record w r hr hwork, Option.bind_some] at hnone
    rw [show c.workers.get w = some r from hr] at hnone
    cases hnone
  · cases hw
  · exact h.wired.process p hp ha

/-- A running process of the epoch has its thread, and its record at work. -/
theorem Inv.current_of_alive (h : Inv c) (ha : c.alive c.epoch.process = true) :
    ∃ p w r, c.epoch.process = some p ∧ c.epoch.activeWorkerId = some w ∧
      c.workers.get w = some r ∧ Engaged r.state ∧ r.process = some p := by
  rcases hp : c.epoch.process with _ | p
  · simp [EpochCell.alive, hp] at ha
  · rw [hp] at ha
    obtain ⟨i, t, ht, hphase⟩ := h.wired.process p hp ha
    obtain ⟨-, hact, r, hr, heng, hrp⟩ :=
      (h.solo.busy_of_potent ht (potent_attached hphase)).current p hphase ha
    exact ⟨p, _, r, rfl, hact, hr, heng, hrp⟩

theorem Inv.ensureEpochWorker (h : Inv c) (hcalm : c.wouldQueue = true → Free c) (now : ℚ) :
    Inv (c.ensureEpochWorker now) := by
  rw [EpochCell.ensureEpochWorker]
  split
  · exact h
  · next hlisted =>
    split
    · next ha =>
      -- the record of the running process is synced twice and set to running in between
      obtain ⟨p, w, r, hp, hw, hr, heng, hrp⟩ := h.current_of_alive ha
      have hid₁ : (c.syncWorkerRecord w now).ensuredId = w := ensuredId_of_active hw
      have hid₂ : ∀ f, ((c.syncWorkerRecord w now).onWorker w f).ensuredId = w :=
        fun f => ensuredId_of_active hw
      have h₁ := (mild_sync h.wired w now).inv h
      have hm : Mild (c.syncWorkerRecord w now)
          ((c.syncWorkerRecord w now).onWorker w fun r => { r with state := .running }) := by
        refine .of_onWorker h₁.wired w (fun r₁ hr₁ =>
          ⟨fun hw => by simp [Waiting] at hw, fun _ => ?_⟩)
          fun r₁ q _ _ hq _ _ => ⟨.inl rfl, hq⟩
        rw [EpochCell.syncWorkerRecord, onWorker, Heap.get_modify_self, hr] at hr₁
        cases hr₁
        rw [synced_state]
        exact .inr heng
      have h₂ := hm.inv h₁
      have h₃ := (mild_sync h₂.wired w now).inv h₂
      simp only [ensureWorkerRecord_of_record hw hr]
      rw [hid₁, hid₂]
      split
      · exact (Mild.of_epoch h₃.wired rfl rfl rfl).inv h₃
      · exact h₃
    · next ha =>
      split
      · next hq =>
        have h₁ := (mild_sync h.wired c.ensuredId now).inv h
        dsimp only
        split
        · exact h₁
        · exact (Mild.of_epoch h₁.wired rfl rfl rfl).inv h₁
      · next hq =>
        split
        · next hneeds =>
          have hfree := hcalm (by simp_all [wouldQueue])
          rw [afterNeedsWorker, if_pos hneeds]
          split
          · next hnone =>
            obtain ⟨h₁, hfree₁⟩ := h.clearWorker hfree (by simpa using hnone)
            exact h₁.queueWorker hfree₁ now
          · exact h.queueWorker hfree now
        · next hneeds =>
          rw [afterNeedsWorker, if_neg hneeds]
          split
          · split
            · exact (mild_sync h.wired _ now).inv h
            · exact h
          · exact h

/-- A queued record is dispatched, and a thread is started for it. -/
theorem Inv.launch (h : Inv c) {r : WorkerRecord} (hr : c.workers.get w = some r)
    (hq : r.state = .queued) (assigned : ℕ) (now : ℚ) : Inv (c.launch w assigned now) := by
  have hfree := h.solo.free_of_waiting hr (.inl hq)
  have hw := h.wired.record w r hr (.inl (.inl hq))
  set t : WorkerThread :=
    { workerId := w, phase := .started, queueing := c.epoch.queueings, assignedThreads := assigned }
    with ht
  have hself : (c.launch w assigned now).threads.get c.threads.next = some t := Heap.get_put_self
  have hne : ∀ j, j ≠ c.threads.next → (c.launch w assigned now).threads.get j = c.threads.get j :=
    fun j hj => Heap.get_put_ne hj
  have hget : ∀ j r', (c.launch w assigned now).workers.get j = some r' → ∃ r₀,
      c.workers.get j = some r₀ ∧ (j = w ∧ r'.state = .running ∨ j ≠ w ∧ r' = r₀) := by
    intro j r' hr'
    rcases Heap.get_of_modify hr' with ⟨rfl, r₁, hr₁, rfl⟩ | ⟨hj, hr'⟩
    · rcases Heap.get_of_modify hr₁ with ⟨-, r₀, hr₀, rfl⟩ | ⟨hj, _⟩
      · exact ⟨r₀, hr₀, .inl ⟨rfl, synced_state⟩⟩
      · exact absurd rfl hj
    · rw [show ∀ f, (c.onWorker w f).workers.get j = c.workers.get j from
        fun f => Heap.get_modify_ne hj] at hr'
      exact ⟨r', hr', .inr ⟨hj, rfl⟩⟩
  have halive : ∀ p, (c.launch w assigned now).alive (some p) = false := hfree.process
  refine ⟨⟨fun j r' hr' hwork => ?_, fun i u hu => ?_, h.wired.active, fun p hp ha => ?_,
    fun p x hx => ?_, h.wired.spawned, fun i u p hu hp => ?_⟩,
    .busy (i := c.threads.next) (t := t) ⟨hself, ?_, fun j u hu hpu => ?_,
      fun p ha => ?_, rfl, fun p x hx => ?_, fun j r' hr' hwait => ?_, fun p hp ha => ?_⟩⟩
  · obtain ⟨r₀, hr₀, ⟨rfl, -⟩ | ⟨-, rfl⟩⟩ := hget j r' hr'
    · exact hw
    · exact h.wired.record j r' hr₀ hwork
  · by_cases hi : i = c.threads.next
    · rw [hi, hself] at hu
      cases hu
      exact h.wired.active w hw
    · rw [hne i hi] at hu
      exact h.wired.worker i u hu
  · rw [halive p] at ha
    cases ha
  · exact (h.wired.thread p x hx).trans_le (Nat.le_max_left _ _)
  · by_cases hi : i = c.threads.next
    · rw [hi, hself] at hu
      cases hu
      cases hp
    · rw [hne i hi] at hu
      exact h.wired.held i u p hu hp
  · simp [potent, ht, hw, EpochCell.launch, EpochCell.syncWorkerRecord, onWorker]
  · by_contra hj
    rw [hne j hj] at hu
    have hnot := hfree.thread j u hu
    have hsame : potent (c.launch w assigned now) u = potent c u := potent_congr rfl u
    rw [← hsame, hpu] at hnot
    cases hnot
  · rw [halive p] at ha
    cases ha
  · exact (h.wired.thread p x hx).le
  · obtain ⟨r₀, hr₀, ⟨rfl, hrun⟩ | ⟨hj, rfl⟩⟩ := hget j r' hr'
    · simp [Waiting, hrun] at hwait
    · have hactive := h.wired.record j r' hr₀ (.inl hwait)
      rw [hw, Option.some.injEq] at hactive
      exact hj hactive.symm
  · rw [ht] at hp
    cases hp

/-! ### Termination -/

theorem alive_iff {p : ℕ} :
    c.alive (some p) = true ↔ ∃ x, c.processes.get p = some x ∧ x.exitCode = none := by
  simp [EpochCell.alive, Option.any_eq_true]

/-- The epoch's process does not survive its termination, the others do. -/
theorem alive_killed {exitCode : ℤ} {p : ℕ} {c' : EpochCell}
    (hc' : c'.processes = c.killed exitCode) :
    c'.alive (some p) = true ↔ c.alive (some p) = true ∧ c.epoch.process ≠ some p := by
  rcases hrun : c.runningProcess with _ | q
  · rw [alive_congr (c := c) (by rw [hc', killed, hrun])]
    refine ⟨fun ha => ⟨ha, fun hp => ?_⟩, And.left⟩
    rw [runningProcess_of_alive hp ha] at hrun
    cases hrun
  · have hq : c.epoch.process = some q := by
      rw [runningProcess] at hrun
      split at hrun
      · exact hrun
      · cases hrun
    rw [alive_iff, alive_iff, hc', killed, hrun, hq]
    by_cases hp : p = q
    · subst hp
      simp
    · simp [Heap.get_modify_ne hp, Ne.symm hp]

theorem killed_get {exitCode : ℤ} {p : ℕ} {x : Process} (hx : (c.killed exitCode).get p = some x) :
    ∃ x₀, c.processes.get p = some x₀ ∧ x₀.thread = x.thread := by
  rw [killed] at hx
  split at hx
  · exact ⟨x, hx, rfl⟩
  · rcases Heap.get_of_modify hx with ⟨rfl, x₀, hx₀, rfl⟩ | ⟨_, hx⟩
    · exact ⟨x₀, hx₀, rfl⟩
    · exact ⟨x, hx, rfl⟩

theorem killed_next {exitCode : ℤ} : (c.killed exitCode).next = c.processes.next := by
  rw [killed]
  split <;> rfl

/-- The terminated epoch has no worker and no process left; a thread that had attached one is left
with a process that is dead. -/
theorem Inv.terminate (h : Inv c) (remove : Bool) (exitCode : ℤ) (now : ℚ) :
    Inv (c.terminate remove exitCode now) := by
  obtain ⟨workers, heq, hnext, hne, hstop⟩ := terminate_spec c remove exitCode now
  rw [heq]
  set c' : EpochCell := { c with
    epoch := { c.epoch with stopRequested := true, activeWorkerId := none, process := none }
    processes := c.killed exitCode
    workers } with hc'
  have halive : ∀ p, c'.alive (some p) = true ↔ c.alive (some p) = true ∧
      c.epoch.process ≠ some p :=
    fun p => alive_killed rfl
  have hpotent : ∀ t, potent c' t = true → potent c t = true ∧ t.phase ≠ .started := by
    intro t ht
    rcases hphase : t.phase <;> simp [potent, hphase, hc'] at ht ⊢
  have hwork : ∀ j r, workers.get j = some r → ¬ (Waiting r.state ∨ Engaged r.state) := by
    intro j r hr hw
    by_cases hj : c.epoch.activeWorkerId = some j
    · rw [hstop j r hj hr] at hw
      simp [Waiting, Engaged] at hw
    · rw [hne j hj] at hr
      exact hj (h.wired.record j r hr hw)
  have hidle : Idle c' := fun j r hr hw => hwork j r hr (.inl hw)
  refine ⟨⟨fun j r hr hw => absurd hw (hwork j r hr), fun i t ht =>
    (h.wired.worker i t ht).trans_le hnext, fun w hw => (by cases hw), fun p hp _ => (by cases hp),
    fun p x hx => ?_, fun p hp => (by cases hp), fun i t p ht hp => ?_⟩, ?_⟩
  · obtain ⟨x₀, hx₀, hthread⟩ := killed_get hx
    exact hthread ▸ h.wired.thread p x₀ hx₀
  · exact (h.wired.held i t p ht hp).trans_le killed_next.ge
  · cases h.solo with
    | free hf =>
      refine .free ⟨fun i t ht => ?_, fun p => ?_⟩
      · by_contra hp
        have hpc := (hpotent t (by simpa using hp)).1
        rw [hf.thread i t ht] at hpc
        cases hpc
      · by_contra hp
        have ha := ((halive p).mp (by simpa using hp)).1
        rw [hf.process p] at ha
        cases ha
    | @busy i t hb =>
      by_cases hphase : t.phase = .started
      · -- the thread will find that the epoch is not its worker's any more
        refine .free ⟨fun j u hu => ?_, fun p => ?_⟩
        · by_contra hp
          obtain ⟨hpc, hpu⟩ := hpotent u (by simpa using hp)
          obtain rfl := hb.only j u hu hpc
          rw [Option.some_injective _ (hb.self.symm.trans hu)] at hphase
          exact hpu hphase
        · by_contra hp
          have ha := ((halive p).mp (by simpa using hp)).1
          have hheld := hb.process p ha
          rw [held, hphase] at hheld
          cases hheld
      · refine .busy (i := i) (t := t) ⟨hb.self, ?_, fun j u hu hpu => ?_, fun p hp => ?_,
          hb.queueing, fun p x hx => ?_, hidle, fun p hp ha => ?_⟩
        · have hpt := hb.potent
          rcases hph : t.phase <;> simp [potent, hph] at hpt hphase ⊢
        · exact hb.only j u hu (hpotent u hpu).1
        · exact hb.process p ((halive p).mp hp).1
        · obtain ⟨x₀, hx₀, hthread⟩ := killed_get hx
          exact hthread ▸ hb.newest p x₀ hx₀
        · obtain ⟨ha, hnot⟩ := (halive p).mp ha
          exact absurd (hb.current p hp ha).1 hnot
    | @stray p hs =>
      refine .stray (p := p) ⟨fun i t ht => ?_, fun q hq =>
        hs.process q ((halive q).mp hq).1, hidle⟩
      by_contra hp
      have hpc := (hpotent t (by simpa using hp)).1
      rw [hs.thread i t ht] at hpc
      cases hpc

/-- A process ends by itself. -/
theorem Inv.processExit (h : Inv c) (p : ℕ) (exitCode : ℤ) :
    Inv { c with processes := c.processes.modify p fun x =>
        { x with exitCode := some exitCode } } := by
  set c' : EpochCell :=
    { c with processes := c.processes.modify p fun x =>
      { x with exitCode := some exitCode } } with hc'
  have halive : ∀ q, c'.alive (some q) = true → c.alive (some q) = true := by
    intro q hq
    obtain ⟨x, hx, hnone⟩ := alive_iff.mp hq
    rcases Heap.get_of_modify hx with ⟨-, x₀, -, rfl⟩ | ⟨-, hx⟩
    · cases hnone
    · exact alive_iff.mpr ⟨x, hx, hnone⟩
  have hthread : ∀ q x, c'.processes.get q = some x →
      ∃ x₀, c.processes.get q = some x₀ ∧ x₀.thread = x.thread := by
    intro q x hx
    rcases Heap.get_of_modify hx with ⟨rfl, x₀, hx₀, rfl⟩ | ⟨-, hx⟩
    · exact ⟨x₀, hx₀, rfl⟩
    · exact ⟨x, hx, rfl⟩
  refine ⟨⟨h.wired.record, h.wired.worker, h.wired.active,
    fun q hq ha => h.wired.process q hq (halive q ha), fun q x hx => ?_, h.wired.spawned,
    h.wired.held⟩, ?_⟩
  · obtain ⟨x₀, hx₀, hth⟩ := hthread q x hx
    exact hth ▸ h.wired.thread q x₀ hx₀
  · cases h.solo with
    | free hf =>
      refine .free ⟨hf.thread, fun q => ?_⟩
      by_contra hq
      have ha := halive q (by simpa using hq)
      rw [hf.process q] at ha
      cases ha
    | @busy i t hb =>
      refine .busy (i := i) (t := t) ⟨hb.self, hb.potent, hb.only, fun q hq =>
        hb.process q (halive q hq),
        hb.queueing, fun q x hx => ?_, hb.idle, fun q hq ha => hb.current q hq (halive q ha)⟩
      obtain ⟨x₀, hx₀, hth⟩ := hthread q x hx
      exact hth ▸ hb.newest q x₀ hx₀
    | @stray q hs =>
      exact .stray (p := q) ⟨hs.thread, fun q' hq' => hs.process q' (halive q' hq'), hs.idle⟩

/-- The session forgets the epoch. -/
theorem Inv.unlist (h : Inv c) : Inv { c with listed := false } := by
  have hm : Mild c { c with listed := false } :=
    ⟨rfl, rfl, rfl, rfl, rfl, le_refl _, h.wired.record, .inr id,
      fun _ r _ hr heng hrp _ _ => ⟨r, hr, heng, hrp⟩⟩
  exact hm.inv h

/-! ### The blocks of a thread -/

/-- The thread that can act returns; it leaves no record waiting and no process attached that is
alive. -/
theorem Inv.returns (h : Inv c) (hb : Busy c i t)
    (hdead : ∀ p, t.phase = .attached p → c.alive (some p) = false)
    (hthreads : c'.threads = c.threads.modify i fun t => { t with phase := .done })
    (hprocesses : c'.processes = c.processes)
    (hactive : c'.epoch.activeWorkerId = c.epoch.activeWorkerId)
    (hprocess : ∀ p, c'.epoch.process = some p → c.epoch.process = some p)
    (hnext : c.workers.next ≤ c'.workers.next)
    (hrecord : ∀ w r, c'.workers.get w = some r →
      ¬ Waiting r.state ∧ (Engaged r.state → c.epoch.activeWorkerId = some w)) : Inv c' := by
  have hget : ∀ j u, c'.threads.get j = some u → ∃ u₀, c.threads.get j = some u₀ ∧
      u₀.workerId = u.workerId ∧ (j = i ∧ u.phase = .done ∨ j ≠ i ∧ u₀ = u) := by
    intro j u hu
    rw [hthreads] at hu
    rcases Heap.get_of_modify hu with ⟨rfl, u₀, hu₀, rfl⟩ | ⟨hj, hu⟩
    · exact ⟨u₀, hu₀, rfl, .inl ⟨rfl, rfl⟩⟩
    · exact ⟨u, hu, rfl, .inr ⟨hj, rfl⟩⟩
  have hnot : ∀ j u, c'.threads.get j = some u → potent c' u = false := by
    intro j u hu
    obtain ⟨u₀, hu₀, -, ⟨-, hdone⟩ | ⟨hj, rfl⟩⟩ := hget j u hu
    · rw [potent, hdone]
    · rw [potent_congr hactive]
      by_contra hp
      exact hj (hb.only j u₀ hu₀ (by simpa using hp))
  refine ⟨⟨fun w r hr hwork => ?_, fun j u hu => ?_, fun w hw => ?_, fun p hp ha => ?_,
    fun p x hx => ?_, fun p hp => ?_, fun j u p hu hp => ?_⟩, ?_⟩
  · rw [hactive]
    obtain ⟨hwait, heng⟩ := hrecord w r hr
    exact heng (hwork.resolve_left hwait)
  · obtain ⟨u₀, hu₀, hid, -⟩ := hget j u hu
    exact hid ▸ (h.wired.worker j u₀ hu₀).trans_le hnext
  · exact (h.wired.active w (hactive ▸ hw)).trans_le hnext
  · rw [alive_congr hprocesses] at ha
    obtain ⟨j, u, hu, hphase⟩ := h.wired.process p (hprocess p hp) ha
    obtain rfl := hb.only j u hu (potent_attached hphase)
    rw [← Option.some_injective _ (hb.self.symm.trans hu)] at hphase
    rw [hdead p hphase] at ha
    cases ha
  · rw [hprocesses] at hx
    rw [hthreads]
    exact h.wired.thread p x hx
  · rw [hprocesses]
    exact h.wired.spawned p (hprocess p hp)
  · rw [hprocesses]
    obtain ⟨u₀, hu₀, -, ⟨-, hdone⟩ | ⟨-, rfl⟩⟩ := hget j u hu
    · rw [held, hdone] at hp
      cases hp
    · exact h.wired.held j u₀ p hu₀ hp
  · by_cases hsome : ∃ p, c.alive (some p) = true
    · obtain ⟨p, hp⟩ := hsome
      refine .stray (p := p) ⟨hnot, fun q hq => ?_, fun w r hr => (hrecord w r hr).1⟩
      rw [alive_congr hprocesses] at hq
      exact Option.some_injective _ ((hb.process q hq).symm.trans (hb.process p hp))
    · refine .free ⟨hnot, fun p => ?_⟩
      rw [alive_congr hprocesses]
      by_contra hp
      exact hsome ⟨p, by simpa using hp⟩

/-- After a final state no record waits, and only the active worker's is at work. -/
theorem finalized {c : EpochCell} (hidle : Idle c)
    (hrecord : ∀ w r, c.workers.get w = some r → Engaged r.state → c.epoch.activeWorkerId = some w)
    {state : WorkerState} (hstate : ¬ Waiting state ∧ ¬ Engaged state) (inc : Bool) (now : ℚ) :
    ∃ workers, c.finalizeWorkerRecord state inc false now = { c with workers } ∧
      c.workers.next ≤ workers.next ∧ ∀ w r, workers.get w = some r →
        ¬ Waiting r.state ∧ (Engaged r.state → c.epoch.activeWorkerId = some w) := by
  rcases hw : c.epoch.activeWorkerId with _ | w
  · exact ⟨c.workers, finalizeWorkerRecord_none hw, le_refl _,
      fun j r hr => ⟨hidle j r hr, fun he => hw ▸ hrecord j r hr he⟩⟩
  · obtain ⟨workers, heq, hnext, hne, hself⟩ := finalizeWorkerRecord_spec (c := c) state inc
      false now hw
    refine ⟨workers, heq, hnext, fun j r hr => ?_⟩
    by_cases hj : j = w
    · subst hj
      rw [hself r hr]
      exact ⟨hstate.1, fun he => absurd he hstate.2⟩
    · rw [hne j hj] at hr
      exact ⟨hidle j r hr, fun he => hw ▸ hrecord j r hr he⟩

/-- The thread that can act gives its worker a final state and returns. -/
theorem Inv.finishes (h : Inv c) (hb : Busy c i t)
    (hdead : ∀ p, t.phase = .attached p → c.alive (some p) = false)
    (f : PlaybackEpoch → PlaybackEpoch)
    (hactive : (f c.epoch).activeWorkerId = c.epoch.activeWorkerId)
    (hprocess : ∀ p, (f c.epoch).process = some p → c.epoch.process = some p)
    {state : WorkerState} (hstate : ¬ Waiting state ∧ ¬ Engaged state) (inc : Bool) (now : ℚ) :
    Inv (((c.onEpoch f).finalizeWorkerRecord state inc false now).onThread i .done) := by
  obtain ⟨workers, heq, hnext, hrecord⟩ := finalized (c := c.onEpoch f) hb.idle
    (fun w r hr he => hactive.trans (h.wired.record w r hr (.inr he))) hstate inc now
  rw [heq]
  exact h.returns hb hdead rfl rfl hactive hprocess hnext
    fun w r hr => ⟨(hrecord w r hr).1, fun he => hactive ▸ (hrecord w r hr).2 he⟩

/-- The thread that can act drops its record and returns. -/
theorem Inv.abandon_busy (h : Inv c) (hb : Busy c i t)
    (hdead : ∀ p, t.phase = .attached p → c.alive (some p) = false) (w : ℕ) :
    Inv (c.abandon i w) :=
  h.returns hb hdead rfl rfl rfl (fun _ hp => hp) (le_refl _) fun j r hr =>
    ⟨hb.idle j r (Heap.get_of_pop hr), fun he => h.wired.record j r (Heap.get_of_pop hr) (.inr he)⟩

/-- A thread that comes too late drops its record and returns. -/
theorem Inv.abandon_late (h : Inv c) (ht : c.threads.get i = some t) (hlate : potent c t = false)
    (hw : c.epoch.activeWorkerId ≠ some t.workerId) : Inv (c.abandon i t.workerId) := by
  have hpop := (Mild.of_pop h.wired hw).inv h
  have hget : ∀ j u, (c.abandon i t.workerId).threads.get j = some u →
      (j = i ∧ u.phase = .done ∧ u.workerId = t.workerId) ∨ (j ≠ i ∧ c.threads.get j = some u) := by
    intro j u hu
    rcases Heap.get_of_modify hu with ⟨rfl, u₀, hu₀, rfl⟩ | hu
    · rw [← Option.some_injective _ (ht.symm.trans hu₀)]
      exact .inl ⟨rfl, rfl, rfl⟩
    · exact .inr hu
  have hnot : ∀ j u, (c.abandon i t.workerId).threads.get j = some u → potent c u = true →
      j ≠ i ∧ c.threads.get j = some u := by
    intro j u hu hp
    refine (hget j u hu).resolve_left ?_
    rintro ⟨-, hdone, -⟩
    rw [potent, hdone] at hp
    cases hp
  have hkeep : ∀ j u, c.threads.get j = some u → potent c u = true →
      (c.abandon i t.workerId).threads.get j = some u := by
    intro j u hu hp
    rw [EpochCell.abandon, EpochCell.onThread, Heap.get_modify_ne]
    · exact hu
    · rintro rfl
      rw [← Option.some_injective _ (ht.symm.trans hu), hlate] at hp
      cases hp
  refine ⟨⟨hpop.wired.record, fun j u hu => ?_, hpop.wired.active, fun p hp ha => ?_,
    hpop.wired.thread, hpop.wired.spawned, fun j u p hu hp => ?_⟩, ?_⟩
  · rcases hget j u hu with ⟨rfl, -, hid⟩ | ⟨-, hu⟩
    · rw [hid]
      exact h.wired.worker _ t ht
    · exact h.wired.worker j u hu
  · obtain ⟨j, u, hu, hphase⟩ := h.wired.process p hp ha
    exact ⟨j, u, hkeep j u hu (potent_attached hphase), hphase⟩
  · rcases hget j u hu with ⟨-, hdone, -⟩ | ⟨-, hu⟩
    · rw [held, hdone] at hp
      cases hp
    · exact h.wired.held j u p hu hp
  · cases hpop.solo with
    | free hf =>
      refine .free ⟨fun j u hu => ?_, hf.process⟩
      by_contra hp
      have hp' : potent c u = true := Bool.eq_true_of_not_eq_false hp
      exact hp (hf.thread j u (hnot j u hu hp').2)
    | @busy j u hb =>
      exact .busy (i := j) (t := u) ⟨hkeep j u hb.self hb.potent, hb.potent,
        fun k v hv hp => hb.only k v (hnot k v hv hp).2 hp, hb.process, hb.queueing, hb.newest,
        hb.idle, hb.current⟩
    | @stray p hs =>
      refine .stray (p := p) ⟨fun j u hu => ?_, hs.process, hs.idle⟩
      by_contra hp
      have hp' : potent c u = true := Bool.eq_true_of_not_eq_false hp
      exact hp (hs.thread j u (hnot j u hu hp').2)

/-- The thread that can act goes on to a phase in which it holds no process. -/
theorem Inv.prepares (h : Inv c) (hb : Busy c i t) (hheld : held t = none) (budget : ℕ) :
    Inv (c.onThread i (.prepared budget)) := by
  have hself : (c.onThread i (.prepared budget)).threads.get i =
      some { t with phase := .prepared budget } := by
    rw [EpochCell.onThread, Heap.get_modify_self, hb.self]
    rfl
  have hne : ∀ j, j ≠ i → (c.onThread i (.prepared budget)).threads.get j = c.threads.get j :=
    fun j hj => Heap.get_modify_ne hj
  have hattached : ∀ p, t.phase ≠ .attached p := by
    intro p hp
    rw [held, hp] at hheld
    cases hheld
  refine ⟨⟨h.wired.record, fun j u hu => ?_, h.wired.active, fun p hp ha => ?_, h.wired.thread,
    h.wired.spawned, fun j u p hu hp => ?_⟩, .busy (i := i) ⟨hself, rfl, fun j u hu hpu => ?_,
      fun p ha => ?_, hb.queueing, hb.newest, hb.idle, fun p hp => by cases hp⟩⟩
  · by_cases hj : j = i
    · subst hj
      rw [hself] at hu
      cases hu
      exact h.wired.worker j t hb.self
    · exact h.wired.worker j u (hne j hj ▸ hu)
  · obtain ⟨j, u, hu, hphase⟩ := h.wired.process p hp ha
    have hj : j ≠ i := by
      rintro rfl
      rw [← Option.some_injective _ (hb.self.symm.trans hu)] at hphase
      exact hattached p hphase
    exact ⟨j, u, (hne j hj).trans hu, hphase⟩
  · by_cases hj : j = i
    · subst hj
      rw [hself] at hu
      cases hu
      cases hp
    · exact h.wired.held j u p (hne j hj ▸ hu) hp
  · by_contra hj
    exact hj (hb.only j u (hne j hj ▸ hu) hpu)
  · have hp := hb.process p ha
    rw [hheld] at hp
    cases hp

theorem failed_final : ¬ Waiting .failed ∧ ¬ Engaged .failed := by
  simp [Waiting, Engaged]

theorem Inv.startBlock (h : Inv c) (ht : c.threads.get i = some t) (hphase : t.phase = .started)
    (uni : Unicode) (minThreads : ℕ) (registered : Bool) (buildError : Option String) (now : ℚ) :
    Inv (c.startBlock uni minThreads i t registered buildError now) := by
  have hdead : ∀ p, t.phase = .attached p → c.alive (some p) = false := by
    intro p hp
    rw [hphase] at hp
    cases hp
  rw [EpochCell.startBlock]
  split
  · next howns =>
    simp only [owns, Bool.and_eq_true, decide_eq_true_eq] at howns
    have hb := h.solo.busy_of_potent ht (by rw [potent, hphase]; simp [howns.2])
    split
    · exact h.returns hb hdead rfl rfl rfl (fun _ hp => hp) (le_refl _)
        fun j r hr => ⟨hb.idle j r hr, fun he => h.wired.record j r hr (.inr he)⟩
    · split
      · exact h.prepares hb (by rw [held, hphase]) _
      · exact h.finishes hb hdead _ rfl (fun _ hp => hp) failed_final true now
  · next howns =>
    by_cases hw : c.epoch.activeWorkerId = some t.workerId
    · exact h.abandon_busy (h.solo.busy_of_potent ht (by rw [potent, hphase]; simp [hw])) hdead _
    · exact h.abandon_late ht (by rw [potent, hphase]; simp [hw]) hw

/-- The process of a spawn is the only one alive. -/
theorem Inv.spawn (h : Inv c) (ht : c.threads.get i = some t) {budget : ℕ}
    (hphase : t.phase = .prepared budget) : Inv (c.spawn i budget) := by
  have hb := h.solo.busy_of_potent ht (by rw [potent, hphase])
  have hself : (c.spawn i budget).threads.get i =
      some { t with phase := .spawned budget c.processes.next } := by
    rw [EpochCell.spawn, EpochCell.onThread, Heap.get_modify_self, ht]
    rfl
  have hne : ∀ j, j ≠ i → (c.spawn i budget).threads.get j = c.threads.get j :=
    fun j hj => Heap.get_modify_ne hj
  have hprocess : ∀ p x, (c.spawn i budget).processes.get p = some x →
      (p = c.processes.next ∧ x.thread = i) ∨ c.processes.get p = some x := by
    intro p x hx
    by_cases hp : p = c.processes.next
    · subst hp
      rw [show (c.spawn i budget).processes.get c.processes.next =
        some _ from Heap.get_put_self] at hx
      cases hx
      exact .inl ⟨rfl, rfl⟩
    · exact .inr ((Heap.get_put_ne hp).symm.trans hx)
  have halive : ∀ p, (c.spawn i budget).alive (some p) = true →
      p = c.processes.next ∨ c.alive (some p) = true := by
    intro p ha
    obtain ⟨x, hx, hnone⟩ := alive_iff.mp ha
    rcases hprocess p x hx with ⟨hp, -⟩ | hx
    · exact .inl hp
    · exact .inr (alive_iff.mpr ⟨x, hx, hnone⟩)
  have hdead : ∀ p, c.alive (some p) = false := by
    intro p
    by_contra ha
    have hp := hb.process p (by simpa using ha)
    rw [held, hphase] at hp
    cases hp
  have hnext : c.processes.next ≤ (c.spawn i budget).processes.next := Nat.le_max_left _ _
  refine ⟨⟨h.wired.record, fun j u hu => ?_, h.wired.active, fun p hp ha => ?_, fun p x hx => ?_,
    fun p hp => (h.wired.spawned p hp).trans_le hnext, fun j u p hu hp => ?_⟩,
    .busy (i := i) ⟨hself, rfl, fun j u hu hpu => ?_, fun p ha => ?_, hb.queueing, fun p x hx => ?_,
      hb.idle, fun p hp => by cases hp⟩⟩
  · by_cases hj : j = i
    · subst hj
      rw [hself] at hu
      cases hu
      exact h.wired.worker j t ht
    · exact h.wired.worker j u (hne j hj ▸ hu)
  · rcases halive p ha with rfl | ha
    · exact absurd (h.wired.spawned _ hp) (lt_irrefl _)
    · rw [hdead p] at ha
      cases ha
  · rcases hprocess p x hx with ⟨-, hth⟩ | hx
    · rw [hth]
      exact Heap.lt_next hself
    · exact h.wired.thread p x hx
  · by_cases hj : j = i
    · subst hj
      rw [hself] at hu
      cases hu
      cases hp
      exact (Nat.lt_succ_self _).trans_le (Nat.le_max_right _ _)
    · exact (h.wired.held j u p (hne j hj ▸ hu) hp).trans_le hnext
  · by_contra hj
    exact hj (hb.only j u (hne j hj ▸ hu) hpu)
  · rcases halive p ha with rfl | ha
    · rfl
    · rw [hdead p] at ha
      cases ha
  · rcases hprocess p x hx with ⟨-, hth⟩ | hx
    · exact hth.le
    · exact hb.newest p x hx

theorem Inv.spawnErrorBlock (h : Inv c) (ht : c.threads.get i = some t) {budget : ℕ}
    (hphase : t.phase = .prepared budget) (registered : Bool) (error : String) (now : ℚ) :
    Inv (c.spawnErrorBlock i t registered error now) := by
  have hb := h.solo.busy_of_potent ht (by rw [potent, hphase])
  have hdead : ∀ p, t.phase = .attached p → c.alive (some p) = false := by
    intro p hp
    rw [hphase] at hp
    cases hp
  rw [EpochCell.spawnErrorBlock]
  split
  · exact h.finishes hb hdead _ rfl (fun _ hp => hp) failed_final true now
  · exact h.abandon_busy hb hdead _

theorem Inv.exitBlock (h : Inv c) (ht : c.threads.get i = some t) {p : ℕ}
    (hphase : t.phase = .attached p) {code : ℤ}
    (hcode : (c.processes.get p).bind Process.exitCode = some code) (uni : Unicode)
    (registered : Bool) (report : ExitReport) (now : ℚ) :
    Inv (c.exitBlock uni i t code registered report now) := by
  have hb := h.solo.busy_of_potent ht (potent_attached hphase)
  have hdead : ∀ q, t.phase = .attached q → c.alive (some q) = false := by
    intro q hq
    rw [hphase, ThreadPhase.attached.injEq] at hq
    subst hq
    obtain ⟨x, hx, hxc⟩ := Option.bind_eq_some_iff.mp hcode
    simp [EpochCell.alive, hx, hxc]
  rw [EpochCell.exitBlock]
  split
  · dsimp only
    split
    · exact h.finishes hb hdead (fun e => { e with process := none, stopRequested := false }) rfl
        (fun _ hq => by cases hq) (by simp [Waiting, Engaged]) false now
    · split
      · exact h.finishes hb hdead (fun e => { e with
          process := none, state := .failed, lastError := some _ }) rfl
          (fun _ hq => by cases hq) failed_final true now
      · exact h.finishes hb hdead (fun e => { e with
          process := none, transcoderCompleted := true, lastError := none }) rfl
          (fun _ hq => by cases hq) (by simp [Waiting, Engaged]) false now
  · exact h.abandon_busy hb hdead _

/-- The cell after a process has been attached. -/
theorem attachBlock_spec (now : ℚ) (hw : c.epoch.activeWorkerId = some t.workerId)
    {registered : Bool} (howns : c.owns registered t.workerId = true) (budget p : ℕ) :
    ∃ workers state, c.attachBlock i t budget p registered now =
      EpochCell.onThread { c with epoch := { c.epoch with process := some p, state }, workers } i
        (.attached p) ∧
      c.workers.next ≤ workers.next ∧ (∀ j, j ≠ t.workerId → workers.get j = c.workers.get j) ∧
      ∃ r, workers.get t.workerId = some r ∧ r.state = .running ∧ r.assignedThreads = budget ∧
        (c.alive (some p) = true → r.process = some p) := by
  set c₁ : EpochCell := c.onEpoch fun e =>
    { e with
      process := some p
      state := if e.state = .starting then .warming else e.state } with hc₁
  obtain ⟨workers, hframe, hnext⟩ := ensureWorkerRecord_frame (c := c₁) now hw
  have hid : c₁.ensuredId = t.workerId := ensuredId_of_active hw
  obtain ⟨r, hr, -, -⟩ := ensureWorkerRecord_self (c := c₁) now
  rw [hid, hframe] at hr
  rw [EpochCell.attachBlock, if_pos howns]
  simp only [← hc₁, hframe]
  refine ⟨_, _, rfl, hnext, fun j hj => ?_, c₁.synced now { r with
    state := .running, assignedThreads := budget, startedAt := r.startedAt.or (some now) }, ?_,
    synced_state, synced_assignedThreads, fun ha => ?_⟩
  · have hne := ensureWorkerRecord_ne (c := c₁) (j := j) now (by rw [hid]; exact hj)
    rw [hframe] at hne
    simp only [onWorker]
    rw [Heap.get_modify_ne hj, Heap.get_modify_ne hj]
    exact hne
  · simp only [onWorker, Heap.get_modify_self]
    rw [show workers.get t.workerId = some r from hr]
    rfl
  · rw [synced_process]
    exact runningProcess_of_alive rfl ha

theorem Inv.attachBlock (h : Inv c) (ht : c.threads.get i = some t) {budget p : ℕ}
    (hphase : t.phase = .spawned budget p) (registered : Bool) (now : ℚ) :
    Inv (c.attachBlock i t budget p registered now) := by
  have hb := h.solo.busy_of_potent ht (by rw [potent, hphase])
  by_cases howns : c.owns registered t.workerId = true
  · have hw : c.epoch.activeWorkerId = some t.workerId := by
      simp only [owns, Bool.and_eq_true, decide_eq_true_eq] at howns
      exact howns.2
    obtain ⟨workers, state, heq, hnext, hne, r, hr, hrun, -, hrp⟩ :=
      attachBlock_spec (i := i) now hw howns budget p
    rw [heq]
    set c' : EpochCell :=
      { c with epoch := { c.epoch with process := some p, state }, workers } with hc'
    have hself : (c'.onThread i (.attached p)).threads.get i =
        some { t with phase := .attached p } := by
      rw [EpochCell.onThread, Heap.get_modify_self, show c'.threads.get i = some t from ht]
      rfl
    have hnet : ∀ j, j ≠ i → (c'.onThread i (.attached p)).threads.get j = c.threads.get j :=
      fun j hj => Heap.get_modify_ne hj
    have hwork : ∀ j r', workers.get j = some r' →
        ¬ Waiting r'.state ∧ (Engaged r'.state → c.epoch.activeWorkerId = some j) := by
      intro j r' hr'
      by_cases hj : j = t.workerId
      · subst hj
        rw [hr] at hr'
        cases hr'
        rw [hrun]
        exact ⟨by simp [Waiting], fun _ => hw⟩
      · rw [hne j hj] at hr'
        exact ⟨hb.idle j r' hr', fun he => h.wired.record j r' hr' (.inr he)⟩
    refine ⟨⟨fun j r' hr' hwk => ?_, fun j u hu => ?_, fun w' hw' =>
      (h.wired.active w' hw').trans_le hnext,
      fun q hq _ => ?_, h.wired.thread, fun q hq => ?_, fun j u q hu hq => ?_⟩,
      .busy (i := i) ⟨hself, rfl, fun j u hu hpu => ?_, fun q ha => ?_, hb.queueing, hb.newest,
        fun j r' hr' => (hwork j r' hr').1, fun q hq ha => ?_⟩⟩
    · exact (hwork j r' hr').2 (hwk.resolve_left (hwork j r' hr').1)
    · by_cases hj : j = i
      · subst hj
        rw [hself] at hu
        cases hu
        exact (h.wired.worker j t ht).trans_le hnext
      · exact (h.wired.worker j u (hnet j hj ▸ hu)).trans_le hnext
    · cases hq
      exact ⟨i, _, hself, rfl⟩
    · cases hq
      exact h.wired.held i t p ht (by rw [held, hphase])
    · by_cases hj : j = i
      · subst hj
        rw [hself] at hu
        cases hu
        cases hq
        exact h.wired.held j t p ht (by rw [held, hphase])
      · exact h.wired.held j u q (hnet j hj ▸ hu) hq
    · by_contra hj
      exact hj (hb.only j u (hnet j hj ▸ hu) hpu)
    · have hheld := hb.process q ha
      rw [held, hphase] at hheld
      exact hheld
    · cases hq
      exact ⟨rfl, hw, r, hr, .inl hrun, hrp ha⟩
  · rw [EpochCell.attachBlock, if_neg howns]
    refine h.abandon_busy hb (fun q hq => ?_) _
    rw [hphase] at hq
    cases hq

/-! ### Runs -/

/-- No thread and no process is left that could act on the epoch. -/
def unoccupied (c : EpochCell) : Bool :=
  (List.range c.threads.next).all (fun i => (c.threads.get i).all fun t => !potent c t) &&
    (List.range c.processes.next).all fun p => !c.alive (some p)

theorem free_of_unoccupied (h : unoccupied c = true) : Free c := by
  rw [unoccupied, Bool.and_eq_true, List.all_eq_true, List.all_eq_true] at h
  refine ⟨fun i t ht => ?_, fun p => ?_⟩
  · have hi := h.1 i (List.mem_range.mpr (Heap.lt_next ht))
    rw [ht, Option.all_some, Bool.not_eq_true'] at hi
    exact hi
  · by_contra ha
    obtain ⟨x, hx, -⟩ := alive_iff.mp (by simpa using ha)
    have hp := h.2 p (List.mem_range.mpr (Heap.lt_next hx))
    rw [Bool.not_eq_true'] at hp
    exact ha hp

/-- The condition on a step: it queues a worker only for an epoch that is unoccupied. -/
def calm (c : EpochCell) : Action → Bool
  | .ensure _ => !c.wouldQueue || unoccupied c
  | .resume => unoccupied c ||
      (List.range c.workers.next).all fun w => (c.workers.get w).all fun r => !requeues r
  | _ => true

/-- **A step keeps the invariant** if it meets the condition. -/
theorem Inv.step (h : Inv c) {uni : Unicode} {minThreads : ℕ} {a : Action} (hcalm : calm c a = true)
    (hst : EpochCell.step uni minThreads c a = some c') : Inv c' := by
  cases a with
  | touch state stop =>
    cases hst
    exact h.touch state stop
  | ensure now =>
    cases hst
    refine h.ensureEpochWorker (fun hq => free_of_unoccupied ?_) now
    simpa [calm, hq] using hcalm
  | launch w assigned now =>
    -- only a queued worker is launched
    simp only [EpochCell.step] at hst
    split at hst
    · next hq =>
      cases hst
      obtain ⟨r, hr, hqr⟩ := (Option.any_eq_true _ _).mp hq.2
      exact h.launch hr (of_decide_eq_true hqr) assigned now
    · cases hst
  | park =>
    cases hst
    exact h.park
  | resume =>
    cases hst
    refine h.resume ?_
    rw [calm, Bool.or_eq_true, List.all_eq_true] at hcalm
    refine hcalm.imp free_of_unoccupied fun hall w r hr => ?_
    have hw := hall w (List.mem_range.mpr (Heap.lt_next hr))
    rwa [hr, Option.all_some, Bool.not_eq_true'] at hw
  | terminate remove exitCode now =>
    cases hst
    exact h.terminate remove exitCode now
  | discard exitCode now =>
    cases hst
    exact (h.terminate true exitCode now).unlist
  | sample w now =>
    cases hst
    exact h.sample w now
  | start i registered buildError now =>
    simp only [EpochCell.step] at hst
    split at hst
    · next hi =>
      cases hst
      exact h.startBlock hi rfl uni minThreads registered buildError now
    · cases hst
  | spawn i =>
    simp only [EpochCell.step] at hst
    split at hst
    · next hi =>
      cases hst
      exact h.spawn hi rfl
    · cases hst
  | spawnError i registered error now =>
    simp only [EpochCell.step] at hst
    split at hst
    · next hi =>
      cases hst
      exact h.spawnErrorBlock hi rfl registered error now
    · cases hst
  | attach i registered now =>
    simp only [EpochCell.step] at hst
    split at hst
    · next hi =>
      cases hst
      exact h.attachBlock hi rfl registered now
    · cases hst
  | processExit p exitCode =>
    simp only [EpochCell.step] at hst
    split at hst
    · cases hst
      exact h.processExit p exitCode
    · cases hst
  | exit i registered report now =>
    simp only [EpochCell.step] at hst
    split at hst
    · next hi =>
      obtain ⟨code, hcode, rfl⟩ := Option.map_eq_some_iff.mp hst
      exact h.exitBlock hi rfl hcode uni registered report now
    · cases hst

/-- The thread whose last block the action is. -/
def lastBlockOf : Action → Option ℕ
  | .spawnError i _ _ _ => some i
  | .exit i _ _ _ => some i
  | _ => none

/-- No worker has been queued since the thread `i` was started, and no later thread has spawned a
process. -/
structure Newest (c : EpochCell) (i : ℕ) : Prop where
  queueing : ∀ t, c.threads.get i = some t → t.queueing = c.epoch.queueings
  thread : ∀ p x, c.processes.get p = some x → x.thread ≤ i

/-- A worker's runs do not get in each other's way. -/
structure RunsAlone (uni : Unicode) (minThreads : ℕ) (c : EpochCell) : Prop where
  lastBlock : ∀ a i c', lastBlockOf a = some i → EpochCell.step uni minThreads c a = some c' →
    Newest c i ∨ (c'.epoch = c.epoch ∧ c'.workers = c.workers)
  oneProcess : ∀ p q, c.alive (some p) = true → c.alive (some q) = true → p = q
  current : ∀ i t p, c.threads.get i = some t → t.phase = .attached p → c.alive (some p) = true →
    c.epoch.process = some p ∧ ∃ r, c.workers.get t.workerId = some r ∧ r.state ≠ .failed ∧
      r.state ≠ .stopped ∧ r.state ≠ .interrupted ∧ r.state ≠ .completed

theorem Inv.newest (h : Inv c) (ht : c.threads.get i = some t) (hp : potent c t = true) :
    Newest c i := by
  have hb := h.solo.busy_of_potent ht hp
  refine ⟨fun u hu => ?_, hb.newest⟩
  rw [← Option.some_injective _ (hb.self.symm.trans hu)]
  exact hb.queueing

theorem Inv.runsAlone (h : Inv c) (uni : Unicode) (minThreads : ℕ) :
    RunsAlone uni minThreads c where
  lastBlock := by
    intro a i c' ha hst
    cases a with
    | spawnError j registered error now =>
      cases ha
      simp only [EpochCell.step] at hst
      split at hst
      · next hi => exact .inl (h.newest hi rfl)
      · cases hst
    | exit j registered report now =>
      cases ha
      simp only [EpochCell.step] at hst
      split at hst
      · next hi => exact .inl (h.newest hi rfl)
      · cases hst
    | _ => cases ha
  oneProcess := fun _ _ hp hq => h.solo.process_unique hp hq
  current := by
    intro i t p ht hphase ha
    obtain ⟨hp, -, r, hr, heng, -⟩ :=
      (h.solo.busy_of_potent ht (potent_attached hphase)).current p hphase ha
    refine ⟨hp, r, hr, ?_⟩
    rcases heng with heng | heng <;> simp [heng]

theorem inv_new (sessionId userId : ℕ) (reason : Option ReplacementReason)
    (audio downshift resupply : Option ℕ) :
    Inv (.new sessionId userId reason audio downshift resupply) where
  wired := by constructor <;> simp [EpochCell.new, Heap.empty]
  solo := .free ⟨by simp [EpochCell.new, Heap.empty],
    by simp [EpochCell.alive, EpochCell.new, Heap.empty]⟩

/-- **A stale thread does not touch a newer run** in any run of an epoch in which a worker is queued
only while no thread and no process is left that could act on the epoch. -/
theorem worker_runs_alone (uni : Unicode) (minThreads sessionId userId : ℕ)
    (reason : Option ReplacementReason) (audio downshift resupply : Option ℕ)
    (hrun : Runs.Reach (EpochCell.step uni minThreads) (fun c a => calm c a = true)
      (.new sessionId userId reason audio downshift resupply) c) : RunsAlone uni minThreads c := by
  have hinv : Inv c := hrun.invariant (inv_new sessionId userId reason audio downshift resupply)
    fun _ _ _ _ h hcalm hst => h.step hcalm hst
  exact hinv.runsAlone uni minThreads

/-! ### A late exit block -/

def sampleCell : EpochCell := .new 0 1 none none none none

/-- The worker `w` is queued at second `now`, and its thread `i` gets as far as attaching its
process. -/
def runOf (w i : ℕ) (now : ℚ) : List Action :=
  [.ensure now, .launch w 4 now, .start i true none now, .spawn i, .attach i true now]

/-- A run that is terminated and reaches its exit block, and the next one. -/
def sampleRuns : List Action :=
  runOf 0 0 0 ++ [.terminate false (-15) 1, .exit 0 true ⟨"", none⟩ 1] ++ runOf 1 1 2

theorem worker_runs_alone_twice :
    ∃ c, Runs.runFrom (Runs.guarded (EpochCell.step .ascii 1) calm) sampleCell sampleRuns =
      some c ∧ c.alive (some 1) = true ∧ RunsAlone .ascii 1 c := by
  have hrun : ((Runs.runFrom (Runs.guarded (EpochCell.step .ascii 1) calm) sampleCell
      sampleRuns).any fun c => c.alive (some 1)) = true := by
    decide +kernel
  obtain ⟨c, hc, halive⟩ := (Option.any_eq_true _ _).mp hrun
  exact ⟨c, hc, halive, worker_runs_alone .ascii 1 0 1 none none none none
    (Runs.reach_of_guarded (Runs.reach_of_runFrom hc))⟩

/-- The process crashes, telemetry finds it gone, the worker is queued again and runs; then the
first thread gets to its exit block. -/
def overtakenRuns : List Action :=
  runOf 0 0 0 ++ [.processExit 0 1, .sample 0 1] ++ runOf 0 1 2 ++ [.exit 0 true ⟨"", none⟩ 3]

theorem worker_run_overtaken :
    ¬ ∀ (uni : Unicode) (minThreads sessionId userId : ℕ) (reason : Option ReplacementReason)
      (audio downshift resupply : Option ℕ) (c : EpochCell),
      Runs.Reach (EpochCell.step uni minThreads) (fun _ _ => True)
        (.new sessionId userId reason audio downshift resupply) c → RunsAlone uni minThreads c := by
  intro h
  have hrun : ((Runs.runFrom (EpochCell.step .ascii 1) sampleCell overtakenRuns).any fun c =>
      decide ((c.threads.get 1).map WorkerThread.phase = some (.attached 1)) && c.alive (some 1) &&
        decide (c.epoch.process = none)) = true := by
    decide +kernel
  obtain ⟨c, hc, hprop⟩ := (Option.any_eq_true _ _).mp hrun
  simp only [Bool.and_eq_true, decide_eq_true_eq] at hprop
  obtain ⟨⟨hthread, halive⟩, hnone⟩ := hprop
  obtain ⟨t, ht, hphase⟩ := Option.map_eq_some_iff.mp hthread
  have hcur := (h _ _ _ _ _ _ _ _ c (Runs.reach_of_runFrom hc)).current 1 t 1 ht hphase halive
  rw [hnone] at hcur
  cases hcur.1

end WorkerThreads
