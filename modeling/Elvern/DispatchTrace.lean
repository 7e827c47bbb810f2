/-
What a dispatch does, worker by worker.

`Dispatched` is the record of a dispatch: launches, each within the remainder of the total and of
its user at that moment, and replacements that are given up.  `dispatched` says that
`_dispatch_waiting_route2_workers_locked` does nothing else; the invariant of its loop is `Good`.
-/
import Mathlib.Data.List.Nodup
import Mathlib.Data.List.Dedup
import Elvern.LiveRuns

open Heaps Route2 Route2.EpochCell

namespace ThreadBudget

/-- The record `w` of the epoch `e` is queued. -/
def IsQueued (m : Manager) (e w : ℕ) (r : WorkerRecord) : Prop :=
  ∃ c, m.cells.get e = some c ∧ c.workers.get w = some r ∧ r.state = .queued

/-- The queued record `w` of the epoch `e` is dispatched with `assigned` threads, which fit what is
left of the total and of its user's share, and one thread is started for it. -/
structure Launched (s : Settings) (perUser : ℕ) (m m' : Manager) (e w assigned : ℕ) : Prop where
  least : s.minWorkerThreads ≤ assigned
  total : m.runningThreads none + assigned ≤ s.totalBudgetCores
  record : ∃ r, IsQueued m e w r ∧ m.runningThreads (some r.userId) + assigned ≤ perUser
  launch : ∃ now, m' = m.onCell e fun c => c.launch w assigned now
  thread : ∀ c, m.cells.get e = some c → ∃ c' r', m'.cells.get e = some c' ∧
    c'.workers.get w = some r' ∧ r'.state = .running ∧ r'.assignedThreads = assigned ∧
    c'.threads = c.threads.alloc
      { workerId := w, phase := .started, queueing := c.epoch.queueings,
        assignedThreads := assigned }

/-- What a dispatch has done so far. -/
inductive Dispatched (s : Settings) (perUser : ℕ) (m : Manager) : Manager → Prop
  | start : Dispatched s perUser m m
  | launch {m₁ m₂ : Manager} {e w assigned : ℕ} (h : Dispatched s perUser m m₁)
      (hl : Launched s perUser m₁ m₂ e w assigned) : Dispatched s perUser m m₂
  | abort {m₁ : Manager} {e w : ℕ} {r : WorkerRecord} (h : Dispatched s perUser m m₁)
      (hq : IsQueued m₁ e w r) (exitCode : ℤ) (now : ℚ) :
      Dispatched s perUser m (m₁.abortReplacement e exitCode now)

/-! ### The assignment -/

section Assignment

variable {s : Settings} {available userRemaining fixed : ℤ} {gates : Gates}

theorem dryRunTarget_le (havailable : 0 ≤ available) (huser : 0 ≤ userRemaining) :
    dryRunTarget s available userRemaining ≤ available ∧
      dryRunTarget s available userRemaining ≤ userRemaining := by
  rw [dryRunTarget]
  split
  · next h =>
    simp only [Bool.and_eq_true, decide_eq_true_eq] at h
    omega
  · split
    · next h =>
      simp only [Bool.and_eq_true, decide_eq_true_eq] at h
      omega
    · omega

theorem lowerTier_le : lowerTier s ≤ 9 := by
  rw [lowerTier]
  split <;> omega

theorem realTarget_le {recommended : ℤ} : realTarget s recommended gates ≤ recommended := by
  have hlower := lowerTier_le (s := s)
  rw [realTarget]
  split
  · next h =>
    simp only [Bool.and_eq_true, decide_eq_true_eq] at h
    omega
  · split
    · next h =>
      simp only [Bool.and_eq_true, decide_eq_true_eq] at h
      omega
    · split
      · next h =>
        simp only [Bool.and_eq_true, decide_eq_true_eq] at h
        omega
      · omega

/-- Whatever the gates find, the assignment stays within the remainders. -/
theorem assignedThreads_le (gates : Gates) (hleast : (s.minWorkerThreads : ℤ) ≤ fixed)
    (havailable : fixed ≤ available) (huser : fixed ≤ userRemaining) :
    assignedThreads s available userRemaining fixed gates ≤ available ∧
      assignedThreads s available userRemaining fixed gates ≤ userRemaining := by
  have hone := s.one_le_min
  have hfixed : max 0 fixed ≤ available ∧ max 0 fixed ≤ userRemaining := by omega
  rw [assignedThreads]
  split
  · exact hfixed
  · rw [realAssignedThreads]
    split
    · exact hfixed
    · split
      · exact hfixed
      · next hnot =>
        -- without blockers the dry run recommends its target
        have hblocked : (spawnDryRun s available userRemaining fixed gates).2 = false := by
          simp only [Bool.or_eq_true, not_or] at hnot
          simpa using hnot.1.1.1.1.2
        have hrecommended : (spawnDryRun s available userRemaining fixed gates).1 =
            dryRunTarget s available userRemaining := by
          rw [spawnDryRun] at hblocked ⊢
          split at hblocked
          · cases hblocked
          · next hno => rw [if_neg hno]
        rw [hrecommended]
        have htarget : realTarget s (dryRunTarget s available userRemaining) gates ≤
            dryRunTarget s available userRemaining := realTarget_le
        obtain ⟨ha, hu⟩ : dryRunTarget s available userRemaining ≤ available ∧
            dryRunTarget s available userRemaining ≤ userRemaining :=
          dryRunTarget_le (by omega) (by omega)
        omega

end Assignment

/-! ### Launches and aborts -/

variable {s : Settings} {perUser : ℕ} {m m' : Manager} {e w assigned : ℕ}
  {r : WorkerRecord} {now : ℚ}

theorem onCell_get {f : EpochCell → EpochCell} {c : EpochCell} (hc : m.cells.get e = some c) :
    (m.onCell e f).cells.get e = some (f c) := by
  rw [Manager.onCell, Heap.get_modify_self, hc]
  rfl

theorem onCell_get_ne {f : EpochCell → EpochCell} {j : ℕ} (hj : j ≠ e) :
    (m.onCell e f).cells.get j = m.cells.get j := Heap.get_modify_ne hj

theorem runningThreads_onCell_launch (hq : IsQueued m e w r) :
    (m.onCell e fun c => c.launch w assigned now).runningThreads none =
      m.runningThreads none + assigned := by
  obtain ⟨c, hc, hr, hstate⟩ := hq
  have htotal := Heap.total_modify (f := fun c : EpochCell => c.launch w assigned now)
    (w := fun _ c => c.runningThreads none) hc
  rw [LiveRuns.runningThreads_launch hr hstate] at htotal
  simp only [Manager.runningThreads, Manager.onCell]
  omega

/-- The epoch of an aborted replacement is discarded, and the others stay. -/
theorem abortReplacement_get (m : Manager) (e : ℕ) (exitCode : ℤ) (now : ℚ) :
    (∀ c, m.cells.get e = some c → ∃ f : PlaybackEpoch → PlaybackEpoch,
      (∀ x, (f x).activeWorkerId = x.activeWorkerId ∧ (f x).process = x.process ∧
        (f x).queueings = x.queueings) ∧
      (m.abortReplacement e exitCode now).cells.get e = some ((c.onEpoch f).discard exitCode now)) ∧
    (m.cells.get e = none → (m.abortReplacement e exitCode now).cells.get e = none) ∧
    ∀ j, j ≠ e → (m.abortReplacement e exitCode now).cells.get j = m.cells.get j := by
  rw [Manager.abortReplacement, Manager.discard]
  refine ⟨fun c hc => ?_, fun hnone => ?_, fun j hj => ?_⟩
  · refine ⟨fun x => { x with state := if x.state = .failed then .failed else .ended },
      fun _ => ⟨rfl, rfl, rfl⟩, ?_⟩
    rw [onCell_get hc]
    exact onCell_get (onCell_get hc)
  · have hget : (m.onCell e fun c => c.onEpoch fun x =>
        { x with state := if x.state = .failed then .failed else .ended }).cells.get e = none := by
      rw [Manager.onCell, Heap.get_modify_self, hnone]
      rfl
    rw [hget]
    exact hget
  · split
    · exact onCell_get_ne hj
    · exact (onCell_get_ne hj).trans (onCell_get_ne hj)

/-- A discarded epoch counts no more threads than before. -/
theorem runningThreads_discard (c : EpochCell) (exitCode : ℤ) (now : ℚ) :
    (c.discard exitCode now).runningThreads none ≤ c.runningThreads none := by
  obtain ⟨workers, heq, -, hother, hstopped⟩ := terminate_spec c true exitCode now
  rw [EpochCell.discard, heq, EpochCell.runningThreads, EpochCell.runningThreads]
  refine Heap.total_le_total fun k => ?_
  by_cases hk : c.epoch.activeWorkerId = some k
  · rcases hr : workers.get k with _ | r
    · exact (Heap.weight_of_none hr).trans_le (Nat.zero_le _)
    · rw [Heap.weight_of_get (h := workers) hr]
      simp [hstopped k r hk hr]
  · exact (Heap.weight_congr (h := c.workers) (hother k hk)).le

theorem runningThreads_abort (m : Manager) (e : ℕ) (exitCode : ℤ) (now : ℚ) :
    (m.abortReplacement e exitCode now).runningThreads none ≤ m.runningThreads none := by
  obtain ⟨hself, hnone, hother⟩ := abortReplacement_get m e exitCode now
  refine Heap.total_le_total fun k => ?_
  by_cases hk : k = e
  · subst hk
    rcases hc : m.cells.get k with _ | c
    · exact (Heap.weight_of_none (hnone hc)).trans_le (Nat.zero_le _)
    · obtain ⟨f, -, hget⟩ := hself c hc
      rw [Heap.weight_of_get hget, Heap.weight_of_get hc]
      exact runningThreads_discard (c.onEpoch f) exitCode now
  · exact (Heap.weight_congr (hother k hk)).le

/-! ### The queues -/

/-- The worker can still be dispatched for its user, as long as its epoch is listed. -/
def Ready (m : Manager) (x : Manager.Waiting) : Prop :=
  ∀ c, m.cells.get x.cell = some c → c.listed = true →
    ∃ r, c.workers.get x.worker = some r ∧ r.state = .queued ∧ r.userId = x.userId

/-- The queues of the users hold workers that wait, each of them once. -/
structure Queued (m : Manager) (queues : List (ℕ × List Manager.Waiting)) : Prop where
  keys : (queues.map Prod.fst).Nodup
  nodup : ∀ q ∈ queues, (q.2.map fun x => (x.cell, x.worker)).Nodup
  ready : ∀ q ∈ queues, ∀ x ∈ q.2, x.userId = q.1 ∧ Ready m x

variable {l : Manager.Loop} {user : ℕ} {x y : Manager.Waiting} {rest : List Manager.Waiting}

theorem queue_mem (hq : l.queue user = x :: rest) : (user, x :: rest) ∈ l.queues := by
  rw [Manager.Loop.queue] at hq
  rcases hfind : l.queues.find? (fun q => decide (q.1 = user)) with _ | q
  · rw [hfind] at hq
    cases hq
  · rw [hfind] at hq
    have hkey : q.1 = user := by simpa using List.find?_some hfind
    have hmem := List.mem_of_find?_eq_some hfind
    rw [← hkey, ← show q.2 = x :: rest from hq]
    exact hmem

/-- The head of a queue is taken, and is in none of the queues that are left. -/
theorem Queued.pop (h : Queued m l.queues) (hq : l.queue user = x :: rest) :
    Queued m (l.popQueue user).queues ∧
    ∀ q ∈ (l.popQueue user).queues, ∀ y ∈ q.2, ∀ c, m.cells.get x.cell = some c →
      c.listed = true → (y.cell, y.worker) ≠ (x.cell, x.worker) := by
  have hhead := queue_mem hq
  have hsub : ∀ q ∈ (l.popQueue user).queues, ∃ q₀ ∈ l.queues, q₀.1 = q.1 ∧ q.2.Sublist q₀.2 ∧
      (q₀.1 = user → q₀ = (user, x :: rest) ∧ q.2 = rest) := by
    intro q hmem
    obtain ⟨q₀, hq₀, rfl⟩ := List.mem_map.mp hmem
    split
    · next hkey =>
      have heq := List.inj_on_of_nodup_map h.keys hq₀ hhead hkey
      subst heq
      exact ⟨_, hq₀, rfl, List.tail_sublist (x :: rest), fun _ => ⟨rfl, rfl⟩⟩
    · next hkey => exact ⟨q₀, hq₀, rfl, List.Sublist.refl _, fun hu => absurd hu hkey⟩
  refine ⟨⟨?_, fun q hmem => ?_, fun q hmem y hy => ?_⟩, fun q hmem y hy c hc hlisted heq => ?_⟩
  · have hkeys : (l.popQueue user).queues.map Prod.fst = l.queues.map Prod.fst := by
      rw [Manager.Loop.popQueue, List.map_map]
      refine List.map_congr_left fun q _ => ?_
      simp only [Function.comp]
      split <;> rfl
    rw [hkeys]
    exact h.keys
  · obtain ⟨q₀, hq₀, -, hle, -⟩ := hsub q hmem
    exact (h.nodup q₀ hq₀).sublist (hle.map _)
  · obtain ⟨q₀, hq₀, hkey, hle, -⟩ := hsub q hmem
    exact hkey ▸ h.ready q₀ hq₀ y (hle.subset hy)
  · obtain ⟨q₀, hq₀, -, hle, huser⟩ := hsub q hmem
    by_cases hu : q₀.1 = user
    · obtain ⟨-, hrest⟩ := huser hu
      have hnodup := h.nodup _ hhead
      rw [List.map_cons, List.nodup_cons] at hnodup
      exact hnodup.1 (heq ▸ List.mem_map_of_mem (hrest ▸ hy))
    · -- the same record would have two users
      obtain ⟨hxu, hx⟩ := h.ready _ hhead x (List.mem_cons_self ..)
      obtain ⟨hyu, hy⟩ := h.ready q₀ hq₀ y (hle.subset hy)
      rw [Prod.mk.injEq] at heq
      obtain ⟨r, hr, -, hru⟩ := hx c hc hlisted
      obtain ⟨r', hr', -, hru'⟩ := hy c (heq.1 ▸ hc) hlisted
      rw [heq.2, hr] at hr'
      cases hr'
      exact hu (hyu.symm.trans (hru'.symm.trans (hru.trans hxu)))

theorem Queued.mono {queues : List (ℕ × List Manager.Waiting)} (h : Queued m queues)
    (hready : ∀ q ∈ queues, ∀ y ∈ q.2, Ready m y → Ready m' y) : Queued m' queues :=
  ⟨h.keys, h.nodup, fun q hq y hy =>
    ⟨(h.ready q hq y hy).1, hready q hq y hy (h.ready q hq y hy).2⟩⟩

theorem Ready.launch (h : Ready m y) (hne : (y.cell, y.worker) ≠ (x.cell, x.worker)) :
    Ready (m.onCell x.cell fun c => c.launch x.worker assigned now) y := by
  intro c' hc' hlisted
  rcases Heap.get_of_modify hc' with ⟨hcell, c, hc, rfl⟩ | ⟨-, hc⟩
  · obtain ⟨r, hr, hstate, huser⟩ := h c (hcell ▸ hc) hlisted
    have hw : y.worker ≠ x.worker := fun hw => hne (by rw [hcell, hw])
    refine ⟨r, ?_, hstate, huser⟩
    exact (Heap.get_modify_ne hw).trans ((Heap.get_modify_ne hw).trans hr)
  · exact h c' hc hlisted

theorem Ready.abort (h : Ready m y) (e : ℕ) (exitCode : ℤ) (now : ℚ) :
    Ready (m.abortReplacement e exitCode now) y := by
  obtain ⟨hself, hnone, hother⟩ := abortReplacement_get m e exitCode now
  intro c' hc' hlisted
  by_cases hcell : y.cell = e
  · -- the epoch of the aborted replacement is not listed
    rw [hcell] at hc'
    rcases hc : m.cells.get e with _ | c
    · rw [hnone hc] at hc'
      cases hc'
    · obtain ⟨f, -, hget⟩ := hself c hc
      rw [hget] at hc'
      cases hc'
      cases hlisted
  · exact h c' ((hother _ hcell).symm.trans hc') hlisted

/-! ### The loop -/

/-- The invariant of the loop, in a dispatch that begins with the manager `m`. -/
structure Good (s : Settings) (perUser : ℕ) (m : Manager) (l : Manager.Loop) : Prop where
  trace : Dispatched s perUser m l.manager
  total : l.available + l.manager.runningThreads none ≤ s.totalBudgetCores
  queued : Queued l.manager l.queues

/-- A launch within the remainders. -/
theorem Good.launch (h : Good s perUser m l) {c : EpochCell}
    (hc : l.manager.cells.get x.cell = some c)
    (hlisted : c.listed = true) (hready : Ready l.manager x)
    (hother : ∀ q ∈ l.queues, ∀ y ∈ q.2, (y.cell, y.worker) ≠ (x.cell, x.worker)) {threads : ℤ}
    (hleast : s.minWorkerThreads ≤ threads) (havailable : threads ≤ l.available)
    (huser : threads ≤ perUser - (l.manager.runningThreads (some x.userId) : ℤ)) :
    Good s perUser m (l.launch x threads now) := by
  obtain ⟨n, rfl⟩ := Int.eq_ofNat_of_zero_le (show 0 ≤ threads by omega)
  obtain ⟨r, hr, hstate, hru⟩ := hready c hc hlisted
  have hq : IsQueued l.manager x.cell x.worker r := ⟨c, hc, hr, hstate⟩
  have htotal := h.total
  have hlaunched : Launched s perUser l.manager
      (l.manager.onCell x.cell fun c => c.launch x.worker n now) x.cell x.worker n := by
    refine ⟨by omega, by omega, ⟨r, hq, by rw [hru]; omega⟩, ⟨now, rfl⟩, fun c₀ hc₀ => ?_⟩
    cases hc.symm.trans hc₀
    obtain ⟨r', hr', hrun, hassigned⟩ : ∃ r', (c.launch x.worker n now).workers.get x.worker =
        some r' ∧ r'.state = .running ∧ r'.assignedThreads = n :=
      ⟨_, by rw [EpochCell.launch, EpochCell.syncWorkerRecord, onWorker, Heap.get_modify_self,
        onWorker, Heap.get_modify_self, hr]; rfl, synced_state, synced_assignedThreads⟩
    exact ⟨c.launch x.worker n now, r', onCell_get hc, hr', hrun, hassigned, rfl⟩
  refine ⟨h.trace.launch hlaunched, ?_, h.queued.mono fun q hq y hy hready =>
    hready.launch (hother q hq y hy)⟩
  have hrunning : (l.manager.onCell x.cell fun c => c.launch x.worker n now).runningThreads none =
      l.manager.runningThreads none + n := runningThreads_onCell_launch hq
  simp only [Manager.Loop.launch, Int.toNat_natCast]
  omega

theorem Good.abort (h : Good s perUser m l) {r : WorkerRecord} (hq : IsQueued l.manager e w r)
    (exitCode : ℤ) (now : ℚ) :
    Good s perUser m { l with manager := l.manager.abortReplacement e exitCode now } := by
  have hle := runningThreads_abort l.manager e exitCode now
  have htotal := h.total
  refine ⟨h.trace.abort hq exitCode now, ?_, h.queued.mono fun _ _ _ _ hr =>
    hr.abort e exitCode now⟩
  dsimp only
  omega

theorem Good.dispatchWorker (h : Good s perUser m l) (inputs : DispatchInputs)
    (hready : Ready l.manager x)
    (hother : ∀ q ∈ l.queues, ∀ y ∈ q.2, ∀ c, l.manager.cells.get x.cell = some c →
      c.listed = true → (y.cell, y.worker) ≠ (x.cell, x.worker)) {userRemaining : ℤ}
    (huser : userRemaining = perUser - (l.manager.runningThreads (some x.userId) : ℤ)) :
    Good s perUser m (l.dispatchWorker s inputs x userRemaining) := by
  rw [Manager.Loop.dispatchWorker]
  split
  · exact h
  · next c hc =>
    split
    · exact h
    · split
      · exact h
      · split
        · exact h
        · next hlisted =>
          have hlisted : c.listed = true := by simpa using hlisted
          have hother' := fun q hq y hy => hother q hq y hy c hc hlisted
          dsimp only
          split
          · exact h
          · next hfixed =>
            split
            · split
              · obtain ⟨r, hr, hstate, -⟩ := hready c hc hlisted
                exact h.abort ⟨c, hc, hr, hstate⟩ _ _
              · split
                · exact h
                · exact h.launch hc hlisted hready hother' (by omega) (by omega) (by omega)
            · split
              · exact h
              · have havailable : min (s.maxWorkerThreads : ℤ) (min l.available userRemaining) ≤
                    l.available := by omega
                have hle := assignedThreads_le (inputs.gates x.cell x.worker)
                  (not_lt.mp hfixed) havailable (show _ ≤ userRemaining by omega)
                exact h.launch hc hlisted hready hother' (by omega) hle.1 (huser ▸ hle.2)

theorem Good.userTurn (h : Good s perUser m l) (inputs : DispatchInputs) (user : ℕ) :
    Good s perUser m (l.userTurn s inputs perUser user) := by
  rw [Manager.Loop.userTurn]
  split
  · exact h
  · split
    · exact h
    · next x rest hq =>
      dsimp only
      split
      · exact h
      · split
        · exact ⟨h.trace, h.total, h.queued⟩
        · obtain ⟨hpop, hother⟩ := h.queued.pop hq
          obtain ⟨hxu, hready⟩ := h.queued.ready _ (queue_mem hq) x (List.mem_cons_self ..)
          have hgood : Good s perUser m (l.popQueue user) := ⟨h.trace, h.total, hpop⟩
          exact hgood.dispatchWorker inputs hready hother (by rw [hxu]; rfl)

theorem Good.pass (h : Good s perUser m l) (inputs : DispatchInputs) :
    Good s perUser m (l.pass s inputs perUser) := by
  rw [Manager.Loop.pass]
  have hstart : Good s perUser m { l with madeProgress := false } := ⟨h.trace, h.total, h.queued⟩
  generalize ({ l with madeProgress := false } : Manager.Loop) = start at hstart
  induction l.users generalizing start with
  | nil => exact hstart
  | cons user rest ih => exact ih _ (hstart.userTurn inputs user)

theorem Good.rounds (h : Good s perUser m l) (inputs : DispatchInputs) (n : ℕ) :
    Good s perUser m (Manager.Loop.rounds s inputs perUser n l) := by
  induction n generalizing l with
  | zero => exact h
  | succ n ih =>
    rw [Manager.Loop.rounds]
    split
    · exact ih (h.pass inputs)
    · exact h

/-! ### The start of the loop -/

theorem mem_records {z : ℕ × ℕ × WorkerRecord} : z ∈ m.records ↔
    ∃ c, m.cells.get z.1 = some c ∧ c.workers.get z.2.1 = some z.2.2 := by
  obtain ⟨e, w, r⟩ := z
  rw [Manager.records, List.mem_flatMap]
  constructor
  · rintro ⟨e', -, hmem⟩
    rcases hc : m.cells.get e' with _ | c
    · rw [hc] at hmem
      cases hmem
    · rw [hc, Option.map_some, Option.getD_some, List.mem_filterMap] at hmem
      obtain ⟨w', -, hw⟩ := hmem
      obtain ⟨r', hr, heq⟩ := Option.map_eq_some_iff.mp hw
      cases heq
      exact ⟨c, hc, hr⟩
  · rintro ⟨c, hc, hr⟩
    dsimp only at hc hr
    refine ⟨e, List.mem_range.mpr (Heap.lt_next hc), ?_⟩
    rw [hc, Option.map_some, Option.getD_some, List.mem_filterMap]
    exact ⟨w, List.mem_range.mpr (Heap.lt_next hr), by rw [hr]; rfl⟩

/-- A record is listed once. -/
theorem records_nodup (m : Manager) : (m.records.map fun z => (z.1, z.2.1)).Nodup := by
  rw [Manager.records, List.map_flatMap]
  refine List.nodup_flatMap.mpr ⟨fun e _ => ?_, ?_⟩
  · rcases hc : m.cells.get e with _ | c
    · exact List.nodup_nil
    · rw [Option.map_some, Option.getD_some, List.map_filterMap]
      refine List.nodup_range.filterMap fun w w' b hw hw' => ?_
      obtain ⟨z, hz, rfl⟩ := Option.map_eq_some_iff.mp hw
      obtain ⟨z', hz', heq⟩ := Option.map_eq_some_iff.mp hw'
      obtain ⟨r, -, rfl⟩ := Option.map_eq_some_iff.mp hz
      obtain ⟨r', -, rfl⟩ := Option.map_eq_some_iff.mp hz'
      cases heq
      rfl
  · refine (List.nodup_range (n := m.cells.next)).imp fun {e e'} hne => ?_
    -- the entries carry their epochs
    have hcell : ∀ e b, b ∈ List.map (fun z => (z.1, z.2.1)) (((m.cells.get e).map fun c =>
        (List.range c.workers.next).filterMap fun w =>
          (c.workers.get w).map fun r => (e, w, r)).getD []) → b.1 = e := by
      intro e b hb
      obtain ⟨z, hz, rfl⟩ := List.mem_map.mp hb
      rcases hc : m.cells.get e with _ | c
      · rw [hc] at hz
        cases hz
      · rw [hc, Option.map_some, Option.getD_some, List.mem_filterMap] at hz
        obtain ⟨w, -, hw⟩ := hz
        obtain ⟨r, -, rfl⟩ := Option.map_eq_some_iff.mp hw
        rfl
    exact fun b hb hb' => hne ((hcell e b hb).symm.trans (hcell e' b hb'))

/-- The workers that a dispatch finds waiting can be dispatched, each of them once. -/
theorem waiting_spec (m : Manager) (inputs : DispatchInputs) :
    ((m.waiting inputs).map fun x => (x.cell, x.worker)).Nodup ∧
      ∀ x ∈ m.waiting inputs, Ready m x := by
  constructor
  · refine ((List.mergeSort_perm _ _).map _).nodup_iff.mpr ?_
    rw [List.map_map]
    exact (records_nodup m).sublist (List.filter_sublist.map _)
  · intro x hx
    obtain ⟨z, hz, rfl⟩ := List.mem_map.mp ((List.mergeSort_perm _ _).mem_iff.mp hx)
    obtain ⟨hmem, hdispatchable⟩ := List.mem_filter.mp hz
    obtain ⟨c, hc, hr⟩ := mem_records.mp hmem
    intro c' hc' _
    cases hc.symm.trans hc'
    rw [Manager.dispatchable, Bool.and_eq_true, decide_eq_true_eq] at hdispatchable
    exact ⟨z.2.2, hr, hdispatchable.1, rfl⟩

theorem nodup_eraseDups {α : Type} [DecidableEq α] (as : List α) : as.eraseDups.Nodup := by
  match as with
  | [] => exact List.nodup_nil
  | a :: as =>
    rw [List.eraseDups_cons]
    refine List.nodup_cons.mpr ⟨fun ha => ?_, nodup_eraseDups _⟩
    have hne := (List.mem_filter.mp (List.mem_eraseDups.mp ha)).2
    simp at hne
termination_by as.length
decreasing_by exact Nat.lt_succ_of_le (List.length_filter_le ..)

theorem good_dispatchLoop (m : Manager) (s : Settings) (perUser : ℕ) (inputs : DispatchInputs) :
    Good s perUser m (m.dispatchLoop s inputs) := by
  obtain ⟨hnodup, hready⟩ := waiting_spec m inputs
  refine ⟨.start, ?_, ?_, fun q hq => ?_, fun q hq x hx => ?_⟩
  · simp only [Manager.dispatchLoop]
    omega
  · have hkeys : (m.dispatchLoop s inputs).queues.map Prod.fst =
        ((m.waiting inputs).map Manager.Waiting.userId).eraseDups := by
      simp only [Manager.dispatchLoop, Manager.queuedByUser, List.map_map]
      exact List.map_id _
    rw [hkeys]
    exact nodup_eraseDups _
  · obtain ⟨u, -, rfl⟩ := List.mem_map.mp hq
    exact hnodup.sublist (List.filter_sublist.map _)
  · obtain ⟨u, -, rfl⟩ := List.mem_map.mp hq
    obtain ⟨hmem, hu⟩ := List.mem_filter.mp hx
    exact ⟨of_decide_eq_true hu, hready x hmem⟩

/-- **A dispatch** launches workers within the remainders and gives replacements up, and does
nothing else. -/
theorem dispatched (m : Manager) (s : Settings) (inputs : DispatchInputs) :
    Dispatched s (m.perUserBudgetCores s) m (m.dispatchWaitingWorkers s inputs) := by
  rw [Manager.dispatchWaitingWorkers]
  split
  · exact .start
  · exact ((good_dispatchLoop m s _ inputs).rounds inputs _).trace

end ThreadBudget
