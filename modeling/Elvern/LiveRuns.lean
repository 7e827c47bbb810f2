/-
The live runs of an epoch, and the records that count for them.

A run lives from the start of its thread until its process has exited.  The budget counts the
records in state `running`; a live run is paid for (`Paid`) while its record is one of them and has
the run's threads.  `Sound.step`: a step that does not take the record of a live run out of the
count (`fits`) leaves every live run paid for, and adds no live run unless it launches one;
`Sound.launch`: the run of a launch is paid for as well.
-/
import Elvern.Route2Dispatch
import Elvern.WorkerThreads

open Heaps PyText Route2 Route2.EpochCell WorkerThreads

namespace LiveRuns

/-- The thread has been started, and its process has not been spawned. -/
def pending (t : WorkerThread) : Bool :=
  match t.phase with
  | .started => true
  | .prepared _ => true
  | _ => false

/-- The run of the thread `i` lives. -/
def live (c : EpochCell) (i : ℕ) (t : WorkerThread) : Bool :=
  pending t || (List.range c.processes.next).any fun p =>
    (c.processes.get p).any fun x => decide (x.exitCode = none ∧ x.thread = i)

/-- The threads assigned to the live runs of an epoch. -/
def liveThreads (c : EpochCell) : ℕ :=
  c.threads.total fun i t => if live c i t then t.assignedThreads else 0

/-- No run of the epoch lives. -/
def quiet (c : EpochCell) : Bool :=
  (List.range c.threads.next).all fun i => (c.threads.get i).all fun t => !live c i t

/-- The budget that a thread goes on with. -/
def budget (t : WorkerThread) : Option ℕ :=
  match t.phase with
  | .prepared b => some b
  | .spawned b _ => some b
  | _ => none

/-- The thread has attached its process. -/
def attached (t : WorkerThread) : Bool :=
  match t.phase with
  | .attached _ => true
  | _ => false

/-- The run is paid for: its record counts its threads. -/
structure Paid (minThreads : ℕ) (c : EpochCell) (t : WorkerThread) : Prop where
  potent : potent c t = true
  least : minThreads ≤ t.assignedThreads
  budget : ∀ b, budget t = some b → b = t.assignedThreads
  record : ∃ r, c.workers.get t.workerId = some r ∧ r.state = .running ∧
    r.assignedThreads = t.assignedThreads

/-- The invariant of an epoch: every live run is paid for. -/
structure Sound (minThreads : ℕ) (c : EpochCell) : Prop where
  inv : Inv c
  paid : ∀ i t, c.threads.get i = some t → live c i t = true → Paid minThreads c t

/-- Every live run has attached its process. -/
def settled (c : EpochCell) : Bool :=
  (List.range c.threads.next).all fun i => (c.threads.get i).all fun t => !live c i t || attached t

/-- The condition on a step: it does not take the record of a live run out of the count. -/
def fits (c : EpochCell) : Action → Bool
  | .park => quiet c
  | .terminate _ _ _ => settled c
  | .discard _ _ => settled c
  | .sample w now => quiet c || (c.workers.get w).all fun r =>
      !(decide (r.state = .running) && c.unavailable r now)
  | .attach i registered _ => quiet c || (c.threads.get i).all fun t => c.owns registered t.workerId
  | a => calm c a

variable {c c' : EpochCell} {minThreads i w : ℕ} {t : WorkerThread} {now : ℚ}

theorem live_iff : live c i t = true ↔ pending t = true ∨
    ∃ p x, c.processes.get p = some x ∧ x.exitCode = none ∧ x.thread = i := by
  rw [live, Bool.or_eq_true, List.any_eq_true]
  refine or_congr Iff.rfl ⟨fun ⟨p, _, hp⟩ => ?_, fun ⟨p, x, hx, hnone, hi⟩ => ?_⟩
  · obtain ⟨x, hx, h⟩ := (Option.any_eq_true _ _).mp hp
    obtain ⟨hnone, hi⟩ := of_decide_eq_true h
    exact ⟨p, x, hx, hnone, hi⟩
  · exact ⟨p, List.mem_range.mpr (Heap.lt_next hx), by simp [hx, hnone, hi]⟩

theorem quiet_iff : quiet c = true ↔ ∀ i t, c.threads.get i = some t → live c i t = false := by
  rw [quiet, List.all_eq_true]
  refine ⟨fun h i t ht => ?_, fun h i _ => ?_⟩
  · have hi := h i (List.mem_range.mpr (Heap.lt_next ht))
    rwa [ht, Option.all_some, Bool.not_eq_true'] at hi
  · rcases ht : c.threads.get i with _ | t
    · rfl
    · rw [Option.all_some, h i t ht]
      rfl

/-- A run that lives makes the epoch the thread's. -/
theorem Sound.busy (h : Sound minThreads c) (ht : c.threads.get i = some t)
    (hlive : live c i t = true) : Busy c i t :=
  h.inv.solo.busy_of_potent ht (h.paid i t ht hlive).potent

theorem Sound.quiet_of_free (h : Sound minThreads c) (hfree : Free c) : quiet c = true := by
  refine quiet_iff.mpr fun i t ht => ?_
  by_contra hlive
  have hp := (h.paid i t ht (by simpa using hlive)).potent
  rw [hfree.thread i t ht] at hp
  cases hp

/-- The live runs are counted. -/
theorem Sound.liveThreads_le (h : Sound minThreads c) : liveThreads c ≤ c.runningThreads none := by
  have hlive : ∀ i t, (if live c i t then t.assignedThreads else 0) ≠ 0 → live c i t = true := by
    intro i t hne
    by_contra hnot
    exact hne (if_neg hnot)
  refine Heap.total_le_of_inj WorkerThread.workerId (fun i t ht hne => ?_)
    fun i j t u ht hu hne hne' _ => ?_
  · obtain ⟨r, hr, hrun, hassigned⟩ := (h.paid i t ht (hlive i t hne)).record
    rw [if_pos (hlive i t hne), Heap.weight_of_get hr]
    simp [hrun, hassigned]
  · exact (h.busy hu (hlive j u hne')).only i t ht (h.paid i t ht (hlive i t hne)).potent

/-- Every live run afterwards is paid for, and was live before with the same threads. -/
def Follows (minThreads : ℕ) (c c' : EpochCell) : Prop :=
  ∀ i t', c'.threads.get i = some t' → live c' i t' = true → Paid minThreads c' t' ∧
    ∃ t, c.threads.get i = some t ∧ live c i t = true ∧ t.assignedThreads = t'.assignedThreads

theorem Follows.sound (hf : Follows minThreads c c') (hinv : Inv c') : Sound minThreads c' :=
  ⟨hinv, fun i t' ht' hlive => (hf i t' ht' hlive).1⟩

theorem Follows.liveThreads_le (hf : Follows minThreads c c') : liveThreads c' ≤ liveThreads c := by
  refine Heap.total_le_total fun i => ?_
  rcases ht' : c'.threads.get i with _ | t'
  · rw [Heap.weight_of_none ht']
    exact Nat.zero_le _
  · rw [Heap.weight_of_get ht']
    split
    · next hlive =>
      obtain ⟨-, t, ht, hl, hassigned⟩ := hf i t' ht' hlive
      rw [Heap.weight_of_get ht, if_pos hl, hassigned]
    · exact Nat.zero_le _

theorem follows_of_quiet (hq : quiet c' = true) : Follows minThreads c c' := by
  intro i t' ht' hlive
  rw [quiet_iff.mp hq i t' ht'] at hlive
  cases hlive

/-- Threads stay, processes only exit, and running records keep their threads. -/
structure Gentle (c c' : EpochCell) : Prop where
  threads : c'.threads = c.threads
  processes : ∀ p x', c'.processes.get p = some x' → x'.exitCode = none →
    ∃ x, c.processes.get p = some x ∧ x.exitCode = none ∧ x.thread = x'.thread
  active : c'.epoch.activeWorkerId = c.epoch.activeWorkerId
  record : ∀ w r, c.workers.get w = some r → r.state = .running →
    ∃ r', c'.workers.get w = some r' ∧ r'.state = .running ∧ r'.assignedThreads = r.assignedThreads

theorem Gentle.trans {c₁ c₂ c₃ : EpochCell} (h : Gentle c₁ c₂) (h' : Gentle c₂ c₃) :
    Gentle c₁ c₃ where
  threads := h'.threads.trans h.threads
  processes := by
    intro p x₃ hx₃ hnone
    obtain ⟨x₂, hx₂, hnone₂, hth⟩ := h'.processes p x₃ hx₃ hnone
    obtain ⟨x₁, hx₁, hnone₁, hth₁⟩ := h.processes p x₂ hx₂ hnone₂
    exact ⟨x₁, hx₁, hnone₁, hth₁.trans hth⟩
  active := h'.active.trans h.active
  record := by
    intro w r hr hrun
    obtain ⟨r₂, hr₂, hrun₂, ha₂⟩ := h.record w r hr hrun
    obtain ⟨r₃, hr₃, hrun₃, ha₃⟩ := h'.record w r₂ hr₂ hrun₂
    exact ⟨r₃, hr₃, hrun₃, ha₃.trans ha₂⟩

/-- What lives afterwards lived before, where threads stay and processes only exit. -/
theorem live_of_live (hp : ∀ p x', c'.processes.get p = some x' → x'.exitCode = none →
    ∃ x, c.processes.get p = some x ∧ x.exitCode = none ∧ x.thread = x'.thread)
    (hlive : live c' i t = true) : live c i t = true := by
  refine live_iff.mpr ((live_iff.mp hlive).imp_right ?_)
  rintro ⟨p, x', hx', hnone, hi⟩
  obtain ⟨x, hx, hnone', hth⟩ := hp p x' hx' hnone
  exact ⟨p, x, hx, hnone', hth.trans hi⟩

theorem quiet_of_quiet (hthreads : c'.threads = c.threads)
    (hp : ∀ p x', c'.processes.get p = some x' → x'.exitCode = none →
      ∃ x, c.processes.get p = some x ∧ x.exitCode = none ∧ x.thread = x'.thread)
    (hq : quiet c = true) : quiet c' = true := by
  refine quiet_iff.mpr fun i t ht => ?_
  by_contra hlive
  rw [hthreads] at ht
  have hl := live_of_live hp (by simpa using hlive)
  rw [quiet_iff.mp hq i t ht] at hl
  cases hl

theorem Gentle.follows (hg : Gentle c c') (h : Sound minThreads c) : Follows minThreads c c' := by
  intro i t ht hlive
  rw [hg.threads] at ht
  have hl := live_of_live hg.processes hlive
  have hpaid := h.paid i t ht hl
  obtain ⟨r, hr, hrun, hassigned⟩ := hpaid.record
  obtain ⟨r', hr', hrun', hassigned'⟩ := hg.record _ r hr hrun
  exact ⟨⟨(potent_congr hg.active t).trans hpaid.potent, hpaid.least, hpaid.budget,
    r', hr', hrun', hassigned'.trans hassigned⟩, t, ht, hl, rfl⟩

theorem same_processes {p : ℕ} {x' : Process} (hx' : c.processes.get p = some x')
    (hnone : x'.exitCode = none) :
    ∃ x, c.processes.get p = some x ∧ x.exitCode = none ∧ x.thread = x'.thread :=
  ⟨x', hx', hnone, rfl⟩

theorem Gentle.refl (c : EpochCell) : Gentle c c :=
  ⟨rfl, fun _ _ => same_processes, rfl, fun _ r hr hrun => ⟨r, hr, hrun, rfl⟩⟩

theorem Gentle.of_onEpoch {f : PlaybackEpoch → PlaybackEpoch}
    (hactive : (f c.epoch).activeWorkerId = c.epoch.activeWorkerId) : Gentle c (c.onEpoch f) :=
  ⟨rfl, fun _ _ => same_processes, hactive, fun _ r hr hrun => ⟨r, hr, hrun, rfl⟩⟩

theorem Gentle.of_onWorker {f : WorkerRecord → WorkerRecord}
    (hf : ∀ r, c.workers.get w = some r → r.state = .running →
      (f r).state = .running ∧ (f r).assignedThreads = r.assignedThreads) :
    Gentle c (c.onWorker w f) := by
  refine ⟨rfl, fun _ _ => same_processes, rfl, fun j r hr hrun => ?_⟩
  by_cases hj : j = w
  · subst hj
    exact ⟨f r, by rw [onWorker, Heap.get_modify_self, hr]; rfl, hf r hr hrun⟩
  · exact ⟨r, (Heap.get_modify_ne hj).trans hr, hrun, rfl⟩

theorem gentle_sync (c : EpochCell) (w : ℕ) (now : ℚ) : Gentle c (c.syncWorkerRecord w now) :=
  .of_onWorker fun _ _ hrun => ⟨synced_state.trans hrun, synced_assignedThreads⟩

/-! ### The steps -/

theorem ensureEpochWorker_frame (c : EpochCell) (now : ℚ) :
    (c.ensureEpochWorker now).threads = c.threads ∧
      (c.ensureEpochWorker now).processes = c.processes := by
  have hafter : (c.afterNeedsWorker now).threads = c.threads ∧
      (c.afterNeedsWorker now).processes = c.processes := by
    rw [afterNeedsWorker]
    split
    · split <;> exact ⟨rfl, rfl⟩
    · split
      · split <;> exact ⟨rfl, rfl⟩
      · exact ⟨rfl, rfl⟩
  rw [EpochCell.ensureEpochWorker]
  split
  · exact ⟨rfl, rfl⟩
  · split
    · dsimp only
      split <;> exact ⟨ensureWorkerRecord_threads, ensureWorkerRecord_processes⟩
    · split
      · dsimp only
        split <;> exact ⟨rfl, rfl⟩
      · split
        · exact ⟨ensureWorkerRecord_threads.trans hafter.1,
            ensureWorkerRecord_processes.trans hafter.2⟩
        · exact hafter

/-- Unless it queues a worker, the loop of `_ensure_route2_epoch_workers_locked` is gentle. -/
theorem Sound.ensure_gentle (h : Sound minThreads c) (hno : c.wouldQueue = false) (now : ℚ) :
    Gentle c (c.ensureEpochWorker now) := by
  rw [EpochCell.ensureEpochWorker]
  split
  · exact .refl c
  · next hlisted =>
    split
    · next ha =>
      obtain ⟨p, w, r, hp, hw, hr, heng, hrp⟩ := h.inv.current_of_alive ha
      have hid₁ : (c.syncWorkerRecord w now).ensuredId = w := ensuredId_of_active hw
      have hid₂ : ∀ f, ((c.syncWorkerRecord w now).onWorker w f).ensuredId = w :=
        fun f => ensuredId_of_active hw
      simp only [ensureWorkerRecord_of_record hw hr]
      rw [hid₁, hid₂]
      have hrun : Gentle (c.syncWorkerRecord w now)
          ((c.syncWorkerRecord w now).onWorker w fun r => { r with state := .running }) :=
        .of_onWorker fun _ _ _ => ⟨rfl, rfl⟩
      have hg := ((gentle_sync c w now).trans hrun).trans (gentle_sync _ w now)
      split
      · exact hg.trans (.of_onEpoch rfl)
      · exact hg
    · next ha =>
      split
      · dsimp only
        split
        · exact gentle_sync c _ now
        · exact (gentle_sync c _ now).trans (.of_onEpoch rfl)
      · next hq =>
        split
        · next hneeds => simp_all [wouldQueue]
        · next hneeds =>
          rw [afterNeedsWorker, if_neg hneeds]
          split
          · split
            · exact gentle_sync c _ now
            · exact .refl c
          · exact .refl c

theorem Sound.ensure (h : Sound minThreads c) (hcalm : calm c (.ensure now) = true) :
    Follows minThreads c (c.ensureEpochWorker now) := by
  rcases hq : c.wouldQueue with _ | _
  · exact (h.ensure_gentle hq now).follows h
  · rw [calm, hq] at hcalm
    obtain ⟨hthreads, hprocesses⟩ := ensureEpochWorker_frame c now
    exact follows_of_quiet (quiet_of_quiet hthreads (fun _ _ => hprocesses ▸ same_processes)
      (h.quiet_of_free (free_of_unoccupied (by simpa using hcalm))))

theorem setStop_frame (c : EpochCell) (stop : Bool) : ∃ stopRequested,
    c.setStop stop = { c with epoch := { c.epoch with stopRequested } } := by
  rw [EpochCell.setStop]
  split
  · exact ⟨stop, rfl⟩
  · exact ⟨c.epoch.stopRequested, rfl⟩

theorem park_follows (hq : quiet c = true) : Follows minThreads c c.park := by
  obtain ⟨stop, heq⟩ := setStop_frame { c with workers := c.workers.mapAll .park } true
  rw [EpochCell.park, heq]
  exact follows_of_quiet (quiet_of_quiet rfl (fun _ _ => same_processes) hq)

theorem Sound.resume (h : Sound minThreads c) : Follows minThreads c c.resume := by
  obtain ⟨stop, heq⟩ := setStop_frame { c with workers := c.workers.mapAll .resume } false
  rw [EpochCell.resume, heq]
  refine Gentle.follows ⟨rfl, fun _ _ => same_processes, rfl, fun w r hr hrun => ?_⟩ h
  refine ⟨r.resume, ?_, ?_, rfl⟩
  · simp [hr]
  · simp [WorkerRecord.resume, hrun]

theorem settled_iff : settled c = true ↔
    ∀ i t, c.threads.get i = some t → live c i t = true → attached t = true := by
  rw [settled, List.all_eq_true]
  refine ⟨fun h i t ht hlive => ?_, fun h i _ => ?_⟩
  · have hi := h i (List.mem_range.mpr (Heap.lt_next ht))
    rw [ht, Option.all_some, hlive] at hi
    simpa using hi
  · rcases ht : c.threads.get i with _ | t
    · rfl
    · rw [Option.all_some]
      rcases hlive : live c i t
      · rfl
      · simpa using h i t ht hlive

/-- The termination kills what lives. -/
theorem Sound.terminate (h : Sound minThreads c) (hs : settled c = true) (remove : Bool)
    (exitCode : ℤ) (now : ℚ) : Follows minThreads c (c.terminate remove exitCode now) := by
  obtain ⟨workers, heq, -⟩ := terminate_spec c remove exitCode now
  rw [heq]
  refine follows_of_quiet (quiet_iff.mpr fun i t ht => ?_)
  by_contra hlive
  have hkilled := live_iff.mp (show live _ i t = true by simpa using hlive)
  -- the run lived before, with its process attached, so that it is the epoch's
  have hl : live c i t = true := by
    refine live_iff.mpr (hkilled.imp_right ?_)
    rintro ⟨p, x', hx', hnone, hi⟩
    obtain ⟨x, hx, hth⟩ := killed_get hx'
    have ha := ((alive_killed (c := c) rfl).mp (alive_iff.mpr ⟨x', hx', hnone⟩)).1
    obtain ⟨x₁, hx₁, hnone₁⟩ := alive_iff.mp ha
    rw [hx] at hx₁
    cases hx₁
    exact ⟨p, x, hx, hnone₁, hth.trans hi⟩
  have hatt := settled_iff.mp hs i t ht hl
  rcases hphase : t.phase with _ | b | ⟨b, p⟩ | q | _ <;> simp only [attached, hphase] at hatt
  · cases hatt
  · cases hatt
  · cases hatt
  · have hb := h.busy ht hl
    rcases hkilled with hp | ⟨p, x', hx', hnone, -⟩
    · rw [pending, hphase] at hp
      cases hp
    · obtain ⟨ha, hnot⟩ := (alive_killed (c := c) rfl).mp (alive_iff.mpr ⟨x', hx', hnone⟩)
      have hheld := hb.process p ha
      rw [held, hphase, Option.some.injEq] at hheld
      exact hnot (hheld ▸ (hb.current q hphase (hheld ▸ ha)).1)
  · cases hatt

/-- The session forgets the epoch. -/
theorem Follows.unlist (hf : Follows minThreads c c') :
    Follows minThreads c { c' with listed := false } :=
  fun i t' ht' hlive => by
    obtain ⟨hpaid, hbefore⟩ := hf i t' ht' hlive
    exact ⟨⟨hpaid.potent, hpaid.least, hpaid.budget, hpaid.record⟩, hbefore⟩

theorem Sound.sample (h : Sound minThreads c) (hfit : fits c (.sample w now) = true) :
    Follows minThreads c (c.sample w now) := by
  rw [fits, Bool.or_eq_true] at hfit
  rcases hfit with hq | hw
  · exact follows_of_quiet (quiet_of_quiet rfl (fun _ _ => same_processes) hq)
  · refine Gentle.follows (.of_onWorker fun r hr hrun => ?_) h
    rw [hr, Option.all_some] at hw
    rw [if_neg (by simpa [hrun] using hw)]
    exact ⟨hrun, rfl⟩

theorem Sound.processExit (h : Sound minThreads c) (p : ℕ) (exitCode : ℤ) :
    Follows minThreads c
      { c with processes := c.processes.modify p fun x =>
          { x with exitCode := some exitCode } } := by
  refine Gentle.follows ⟨rfl, fun q x' hx' hnone => ?_, rfl, fun _ r hr hrun =>
    ⟨r, hr, hrun, rfl⟩⟩ h
  rcases Heap.get_of_modify hx' with ⟨-, x, -, rfl⟩ | ⟨-, hx⟩
  · cases hnone
  · exact ⟨x', hx, hnone, rfl⟩

/-! ### The blocks of a thread -/

/-- What a thread leaves alive when it returns, it had before. -/
theorem live_of_done (hprocesses : c'.processes = c.processes)
    (hlive : live c' i { t with phase := .done } = true) : live c i t = true := by
  rcases live_iff.mp hlive with hp | ⟨p, x, hx, hnone, hi⟩
  · cases hp
  · exact live_iff.mpr (.inr ⟨p, x, hprocesses ▸ hx, hnone, hi⟩)

/-- A thread without a process that is alive returns, and no run is left. -/
theorem quiet_of_busy (hb : Busy c i t) (h : Sound minThreads c)
    (hdead : ∀ p, held t = some p → c.alive (some p) = false)
    (hthreads : c'.threads = c.threads.modify i fun t => { t with phase := .done })
    (hprocesses : c'.processes = c.processes) : quiet c' = true := by
  refine quiet_iff.mpr fun j u hu => ?_
  by_contra hnot
  have hl : live c' j u = true := by simpa using hnot
  rw [hthreads] at hu
  rcases Heap.get_of_modify hu with ⟨rfl, u₀, hu₀, rfl⟩ | ⟨hj, hu⟩
  · rcases live_iff.mp hl with hp | ⟨p, x, hx, hnone, -⟩
    · cases hp
    · have ha : c.alive (some p) = true := alive_iff.mpr ⟨x, hprocesses ▸ hx, hnone⟩
      rw [hdead p (hb.process p ha)] at ha
      cases ha
  · have hlj : live c j u = true := live_of_live (fun _ _ => hprocesses ▸ same_processes) hl
    exact hj (hb.only j u hu (h.paid j u hu hlj).potent)

/-- Where no run lives, a thread that returns leaves none. -/
theorem quiet_of_done (hq : quiet c = true)
    (hthreads : c'.threads = c.threads.modify i fun t => { t with phase := .done })
    (hprocesses : c'.processes = c.processes) : quiet c' = true := by
  refine quiet_iff.mpr fun j u hu => ?_
  by_contra hnot
  have hl : live c' j u = true := by simpa using hnot
  rw [hthreads] at hu
  have hbefore : ∃ u₀, c.threads.get j = some u₀ ∧ live c j u₀ = true := by
    rcases Heap.get_of_modify hu with ⟨rfl, u₀, hu₀, rfl⟩ | ⟨-, hu⟩
    · exact ⟨u₀, hu₀, live_of_done hprocesses hl⟩
    · exact ⟨u, hu, live_of_live (fun _ _ => hprocesses ▸ same_processes) hl⟩
  obtain ⟨u₀, hu₀, hlive⟩ := hbefore
  rw [quiet_iff.mp hq j u₀ hu₀] at hlive
  cases hlive

/-- Only the thread that can act lives, and goes on in a new phase. -/
theorem follows_of_busy (hb : Busy c i t) (h : Sound minThreads c) {phase : ThreadPhase}
    (hthreads : c'.threads = c.threads.modify i fun t => { t with phase })
    (hprocesses : ∀ p x, c'.processes.get p = some x → x.exitCode = none → x.thread ≠ i →
      ∃ x₀, c.processes.get p = some x₀ ∧ x₀.exitCode = none ∧ x₀.thread = x.thread)
    (hpaid : live c' i { t with phase } = true →
      live c i t = true ∧ Paid minThreads c' { t with phase }) : Follows minThreads c c' := by
  intro j u hu hl
  rw [hthreads] at hu
  rcases Heap.get_of_modify hu with ⟨rfl, u₀, hu₀, rfl⟩ | ⟨hj, hu⟩
  · obtain rfl := Option.some_injective _ (hb.self.symm.trans hu₀)
    obtain ⟨hlive, hpaid⟩ := hpaid hl
    exact ⟨hpaid, t, hu₀, hlive, rfl⟩
  · -- no other thread lives, before or after
    exfalso
    have hlj : live c j u = true := by
      refine live_iff.mpr ((live_iff.mp hl).imp_right ?_)
      rintro ⟨p, x, hx, hnone, hth⟩
      obtain ⟨x₀, hx₀, hnone₀, hth₀⟩ := hprocesses p x hx hnone (hth ▸ hj)
      exact ⟨p, x₀, hx₀, hnone₀, hth₀.trans hth⟩
    exact hj (hb.only j u hu (h.paid j u hu hlj).potent)

theorem live_of_pending (hp : pending t = true) : live c i t = true := live_iff.mpr (.inl hp)

theorem finalizeWorkerRecord_frame (c : EpochCell) (state : WorkerState)
    (inc remove : Bool) (now : ℚ) :
    (c.finalizeWorkerRecord state inc remove now).threads = c.threads ∧
      (c.finalizeWorkerRecord state inc remove now).processes = c.processes := by
  rcases hw : c.epoch.activeWorkerId with _ | w
  · rw [finalizeWorkerRecord_none hw]
    exact ⟨rfl, rfl⟩
  · obtain ⟨workers, heq, -⟩ := finalizeWorkerRecord_spec (c := c) state inc remove now hw
    rw [heq]
    exact ⟨rfl, rfl⟩

/-- The thread gives its worker a final state and returns. -/
theorem finishes_frame (c : EpochCell) (i : ℕ) (f : PlaybackEpoch → PlaybackEpoch)
    (state : WorkerState) (inc : Bool) (now : ℚ) :
    (((c.onEpoch f).finalizeWorkerRecord state inc false now).onThread i .done).threads =
        c.threads.modify i (fun t => { t with phase := .done }) ∧
      (((c.onEpoch f).finalizeWorkerRecord state inc false now).onThread i .done).processes =
        c.processes := by
  obtain ⟨hthreads, hprocesses⟩ := finalizeWorkerRecord_frame (c.onEpoch f) state inc false now
  exact ⟨by rw [EpochCell.onThread, hthreads]; rfl, hprocesses⟩

theorem Sound.startBlock (h : Sound minThreads c) (ht : c.threads.get i = some t)
    (hphase : t.phase = .started) (uni : Unicode) (registered : Bool) (buildError : Option String)
    (now : ℚ) : Follows minThreads c (c.startBlock uni minThreads i t registered
        buildError now) := by
  have hlive : live c i t = true := live_of_pending (by rw [pending, hphase])
  have hb := h.busy ht hlive
  have hpaid := h.paid i t ht hlive
  have hdead : ∀ p, held t = some p → c.alive (some p) = false := by
    intro p hp
    rw [held, hphase] at hp
    cases hp
  obtain ⟨r, hr, hrun, hassigned⟩ := hpaid.record
  rw [EpochCell.startBlock]
  split
  · simp only [hr]
    split
    · refine follows_of_busy hb h rfl (fun _ x hx hnone _ => same_processes hx hnone)
        fun _ => ⟨hlive, rfl, hpaid.least, fun b hbudget => ?_, r, hr, hrun, hassigned⟩
      -- the assignment is at least the minimum, so that the thread goes on with it
      have hleast := hpaid.least
      simp only [budget, Option.some.injEq] at hbudget
      rw [← hbudget, hassigned]
      dsimp only
      split
      · omega
      · exact Nat.max_eq_right hleast
    · obtain ⟨hthreads, hprocesses⟩ := finishes_frame c i _ .failed true now
      exact follows_of_quiet (quiet_of_busy hb h hdead hthreads hprocesses)
  · exact follows_of_quiet (quiet_of_busy hb h hdead rfl rfl)

theorem Sound.spawn (h : Sound minThreads c) (ht : c.threads.get i = some t) {b : ℕ}
    (hphase : t.phase = .prepared b) : Follows minThreads c (c.spawn i b) := by
  have hlive : live c i t = true := live_of_pending (by rw [pending, hphase])
  have hpaid := h.paid i t ht hlive
  refine follows_of_busy (h.busy ht hlive) h rfl (fun p x hx hnone hne => ?_) fun _ =>
    ⟨hlive, rfl, hpaid.least,
    fun b' hbudget => ?_, hpaid.record⟩
  · by_cases hp : p = c.processes.next
    · subst hp
      rw [show (c.spawn i b).processes.get c.processes.next = some _ from Heap.get_put_self] at hx
      cases hx
      exact absurd rfl hne
    · exact ⟨x, (Heap.get_put_ne hp).symm.trans hx, hnone, rfl⟩
  · cases hbudget
    exact hpaid.budget b (by rw [budget, hphase])

theorem Sound.spawnErrorBlock (h : Sound minThreads c) (ht : c.threads.get i = some t) {b : ℕ}
    (hphase : t.phase = .prepared b) (registered : Bool) (error : String) (now : ℚ) :
    Follows minThreads c (c.spawnErrorBlock i t registered error now) := by
  have hb := h.busy ht (live_of_pending (by rw [pending, hphase]))
  have hdead : ∀ p, held t = some p → c.alive (some p) = false := by
    intro p hp
    rw [held, hphase] at hp
    cases hp
  rw [EpochCell.spawnErrorBlock]
  split
  · obtain ⟨hthreads, hprocesses⟩ := finishes_frame c i _ .failed true now
    exact follows_of_quiet (quiet_of_busy hb h hdead hthreads hprocesses)
  · exact follows_of_quiet (quiet_of_busy hb h hdead rfl rfl)

theorem Sound.attachBlock (h : Sound minThreads c) (ht : c.threads.get i = some t) {b p : ℕ}
    (hphase : t.phase = .spawned b p) {registered : Bool}
    (hfit : fits c (.attach i registered now) = true) :
    Follows minThreads c (c.attachBlock i t b p registered now) := by
  by_cases howns : c.owns registered t.workerId = true
  · have hb := h.inv.solo.busy_of_potent ht (by rw [potent, hphase])
    have hw : c.epoch.activeWorkerId = some t.workerId := by
      simp only [owns, Bool.and_eq_true, decide_eq_true_eq] at howns
      exact howns.2
    obtain ⟨workers, state, heq, -, -, r, hr, hrun, hassigned, -⟩ :=
      attachBlock_spec (i := i) now hw howns b p
    rw [heq]
    refine follows_of_busy hb h rfl (fun _ x hx hnone _ => same_processes hx hnone) fun hl => ?_
    -- the run lives by its process, which lived before
    have hlive : live c i t = true := by
      rcases live_iff.mp hl with hp | hp
      · cases hp
      · exact live_iff.mpr (.inr hp)
    have hpaid := h.paid i t ht hlive
    have hbudget := hpaid.budget b (by rw [budget, hphase])
    exact ⟨hlive, rfl, hpaid.least, fun _ hnone => (by cases hnone), r, hr, hrun,
      hassigned.trans hbudget⟩
  · rw [fits, ht, Option.all_some, Bool.or_eq_true] at hfit
    rw [EpochCell.attachBlock, if_neg howns]
    exact follows_of_quiet (quiet_of_done (hfit.resolve_right howns) rfl rfl)

theorem Sound.exitBlock (h : Sound minThreads c) (ht : c.threads.get i = some t) {p : ℕ}
    (hphase : t.phase = .attached p) {code : ℤ}
    (hcode : (c.processes.get p).bind Process.exitCode = some code) (uni : Unicode)
    (registered : Bool) (report : ExitReport) (now : ℚ) :
    Follows minThreads c (c.exitBlock uni i t code registered report now) := by
  have hb := h.inv.solo.busy_of_potent ht (potent_attached hphase)
  have hdead : ∀ q, held t = some q → c.alive (some q) = false := by
    intro q hq
    rw [held, hphase, Option.some.injEq] at hq
    subst hq
    obtain ⟨x, hx, hxc⟩ := Option.bind_eq_some_iff.mp hcode
    simp [EpochCell.alive, hx, hxc]
  rw [EpochCell.exitBlock]
  split
  · dsimp only
    split
    · obtain ⟨hthreads, hprocesses⟩ := finishes_frame c i
        (fun e => { e with process := none, stopRequested := false }) .stopped false now
      exact follows_of_quiet (quiet_of_busy hb h hdead hthreads hprocesses)
    · split
      · obtain ⟨hthreads, hprocesses⟩ := finishes_frame c i (fun e => { e with
          process := none, state := .failed, lastError := some _ }) .failed true now
        exact follows_of_quiet (quiet_of_busy hb h hdead hthreads hprocesses)
      · obtain ⟨hthreads, hprocesses⟩ := finishes_frame c i (fun e => { e with
          process := none, transcoderCompleted := true, lastError := none }) .completed false now
        exact follows_of_quiet (quiet_of_busy hb h hdead hthreads hprocesses)
  · exact follows_of_quiet (quiet_of_busy hb h hdead rfl rfl)

/-! ### A step -/

theorem calm_of_fits {a : Action} (hfit : fits c a = true) : calm c a = true := by
  cases a with
  | ensure now => exact hfit
  | resume => exact hfit
  | _ => rfl

/-- **A step other than a launch** leaves every live run paid for and adds none. -/
theorem Sound.follows (h : Sound minThreads c) {uni : Unicode} {a : Action} (hfit : fits c a = true)
    (hlaunch : ∀ w assigned now, a ≠ .launch w assigned now)
    (hst : EpochCell.step uni minThreads c a = some c') : Follows minThreads c c' := by
  cases a with
  | touch state stop =>
    cases hst
    exact (Gentle.of_onEpoch rfl).follows h
  | ensure now =>
    cases hst
    exact h.ensure hfit
  | launch w assigned now => exact absurd rfl (hlaunch w assigned now)
  | park =>
    cases hst
    exact park_follows hfit
  | resume =>
    cases hst
    exact h.resume
  | terminate remove exitCode now =>
    cases hst
    exact h.terminate hfit remove exitCode now
  | discard exitCode now =>
    cases hst
    exact (h.terminate hfit true exitCode now).unlist
  | sample w now =>
    cases hst
    exact h.sample hfit
  | start i registered buildError now =>
    simp only [EpochCell.step] at hst
    split at hst
    · next hi =>
      cases hst
      exact h.startBlock hi rfl uni registered buildError now
    · cases hst
  | spawn i =>
    simp only [EpochCell.step] at hst
    split at hst
    · next hi =>
      cases hst
      exact h.spawn hi rfl
    · cases hst
  | spawnError i registered error now =>
    simp only [EpochCell.step] at hst
    split at hst
    · next hi =>
      cases hst
      exact h.spawnErrorBlock hi rfl registered error now
    · cases hst
  | attach i registered now =>
    simp only [EpochCell.step] at hst
    split at hst
    · next hi =>
      cases hst
      exact h.attachBlock hi rfl hfit
    · cases hst
  | processExit p exitCode =>
    simp only [EpochCell.step] at hst
    split at hst
    · cases hst
      exact h.processExit p exitCode
    · cases hst
  | exit i registered report now =>
    simp only [EpochCell.step] at hst
    split at hst
    · next hi =>
      obtain ⟨code, hcode, rfl⟩ := Option.map_eq_some_iff.mp hst
      exact h.exitBlock hi rfl hcode uni registered report now
    · cases hst

/-- The step keeps the invariant, and no thread is added to the live runs. -/
structure Keeps (minThreads : ℕ) (c c' : EpochCell) : Prop where
  sound : Sound minThreads c'
  le : liveThreads c' ≤ liveThreads c

theorem Keeps.refl (h : Sound minThreads c) : Keeps minThreads c c := ⟨h, le_refl _⟩

theorem Follows.keeps (hf : Follows minThreads c c') (hinv : Inv c') : Keeps minThreads c c' :=
  ⟨hf.sound hinv, hf.liveThreads_le⟩

theorem Sound.step (h : Sound minThreads c) {uni : Unicode} {a : Action} (hfit : fits c a = true)
    (hlaunch : ∀ w assigned now, a ≠ .launch w assigned now)
    (hst : EpochCell.step uni minThreads c a = some c') : Keeps minThreads c c' :=
  (h.follows hfit hlaunch hst).keeps (h.inv.step (calm_of_fits hfit) hst)

/-- A launch leaves its run paid for. -/
theorem Sound.launch (h : Sound minThreads c) {r : WorkerRecord} (hr : c.workers.get w = some r)
    (hq : r.state = .queued) {assigned : ℕ} (hleast : minThreads ≤ assigned) :
    Sound minThreads (c.launch w assigned now) := by
  have hfree := h.inv.solo.free_of_waiting hr (.inl hq)
  refine ⟨h.inv.launch hr hq assigned now, fun i t ht hlive => ?_⟩
  by_cases hi : i = c.threads.next
  · subst hi
    have hself : (c.launch w assigned now).threads.get c.threads.next = some _ := Heap.get_put_self
    rw [hself] at ht
    cases ht
    have hactive := h.inv.wired.record w r hr (.inl (.inl hq))
    refine ⟨?_, hleast, fun b hb => (by cases hb), c.synced now { r with
      state := .running, assignedThreads := assigned, startedAt := r.startedAt.or (some now) },
      ?_, synced_state, synced_assignedThreads⟩
    · simp [WorkerThreads.potent, EpochCell.launch, EpochCell.syncWorkerRecord, onWorker, hactive]
    · simp [EpochCell.launch, EpochCell.syncWorkerRecord, onWorker, hr, synced, runningProcess]
      rfl
  · -- the epoch was free, so that no other run lives
    exfalso
    have hget : c.threads.get i = some t := (Heap.get_put_ne hi).symm.trans ht
    have hl : live c i t = true := live_of_live (fun _ _ => same_processes)
      (show live (c.launch w assigned now) i t = true from hlive)
    have hp := (h.paid i t hget hl).potent
    rw [hfree.thread i t hget] at hp
    cases hp

/-- A launch counts its threads. -/
theorem runningThreads_launch {r : WorkerRecord} (hr : c.workers.get w = some r)
    (hq : r.state = .queued) (assigned : ℕ) :
    (c.launch w assigned now).runningThreads none = c.runningThreads none + assigned := by
  set f : WorkerRecord → WorkerRecord := fun r =>
    { r with
      state := .running
      assignedThreads := assigned
      startedAt := r.startedAt.or (some now) }
    with hf
  have hfirst := Heap.total_modify (f := f) (w := fun _ (r : WorkerRecord) =>
    if r.state = .running ∧ (none : Option ℕ).all (fun u => decide (r.userId = u)) = true then
      r.assignedThreads else 0) hr
  have hmid : (c.workers.modify w f).get w = some (f r) := by rw [Heap.get_modify_self, hr]; rfl
  have hsecond := Heap.total_modify (f := (c.onWorker w f).synced now)
      (w := fun _ (r : WorkerRecord) =>
    if r.state = .running ∧ (none : Option ℕ).all (fun u => decide (r.userId = u)) = true then
      r.assignedThreads else 0) hmid
  simp only [synced_state, synced_assignedThreads, Option.all_none, and_true] at hfirst hsecond
  rw [if_neg (by simp [hq]), if_pos (by simp [hf])] at hfirst
  simp only [EpochCell.runningThreads, Option.all_none, and_true]
  have hassigned : (f r).assignedThreads = assigned := rfl
  have hlaunch : (c.launch w assigned now).workers =
    (c.workers.modify w f).modify w ((c.onWorker w f).synced now) := rfl
  rw [hlaunch]
  omega

end LiveRuns
