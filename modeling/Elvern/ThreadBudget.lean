/-
The thread budget of the Route2 manager.

The remainder that a dispatch divides is computed from the records in state `running`.  Parking, a
termination and the telemetry take records out of that state while the process, or the thread that
is about to spawn it, is still there, and the next dispatch gives its threads away once more.

* `Within` — the invariant: every live run is paid for, and the live runs fit the budget;
* `thread_budget` — it holds in every run in which no step takes the record of a live run out of the
  count, and every dispatch stays within the remainders;
* `parked_run_not_counted` — two sessions, the first of them parked while its process runs.
-/
import Elvern.DispatchTrace

open Heaps Route2 Route2.EpochCell LiveRuns WorkerThreads

namespace ThreadBudget

/-- The threads of the runs that live. -/
def liveThreads (m : Manager) : ℕ := m.cells.total fun _ c => LiveRuns.liveThreads c

/-- The epochs of a session meet a condition. -/
def allCells (m : Manager) (sid : ℕ) (p : EpochCell → Bool) : Bool :=
  (List.range m.cells.next).all fun e => (m.cells.get e).all fun c =>
    !decide (c.sessionId = sid) || p c

/-- The iterations of the loop of `_ensure_route2_epoch_workers_locked` meet the condition. -/
def ensuresFit (sid : ℕ) (now : ℚ) : Manager → List ℕ → Bool
  | _, [] => true
  | m, e :: rest =>
    (m.cells.get e).all (fun c => !decide (c.sessionId = sid) || LiveRuns.fits c (.ensure now)) &&
      ensuresFit sid now (m.ensureEpoch sid now e) rest

/-- The condition on a step: it does not take the record of a live run out of the count. -/
def fits (m : Manager) : Manager.Action → Bool
  | .discard e exitCode now => (m.cells.get e).all fun c => LiveRuns.fits c (.discard exitCode now)
  | .ensure sid now => (m.sessions.get sid).all fun session =>
      session.preparationParked || ensuresFit sid now m (Manager.currentEpochs session)
  | .maybePark sid now => (m.sessions.get sid).all fun session =>
      !Manager.parks session now || allCells m sid fun c => LiveRuns.fits c .park
  | .applyLifecycle sid state _ => (m.sessions.get sid).all fun session =>
      !Manager.resumes session state || allCells m sid fun c => LiveRuns.fits c .resume
  | .epoch e a => (m.cells.get e).all fun c => LiveRuns.fits c a
  | _ => true

/-- The invariant. -/
structure Within (s : Settings) (m : Manager) : Prop where
  cells : ∀ e c, m.cells.get e = some c → Sound s.minWorkerThreads c
  budget : liveThreads m ≤ s.totalBudgetCores

variable {s : Settings} {m m' : Manager} {perUser sid e : ℕ} {now : ℚ}

theorem Within.congr (h : Within s m) (hcells : m'.cells = m.cells) : Within s m' := by
  refine ⟨fun e c hc => h.cells e c (hcells ▸ hc), ?_⟩
  rw [liveThreads, hcells]
  exact h.budget

/-- Every epoch keeps its runs. -/
theorem Within.cellwise (h : Within s m) (hall : ∀ e c', m'.cells.get e = some c' →
    ∃ c, m.cells.get e = some c ∧ Keeps s.minWorkerThreads c c') : Within s m' := by
  refine ⟨fun e c' hc' => ?_, le_trans (Heap.total_le_total fun e => ?_) h.budget⟩
  · obtain ⟨c, -, hkeeps⟩ := hall e c' hc'
    exact hkeeps.sound
  · rcases hc' : m'.cells.get e with _ | c'
    · exact (Heap.weight_of_none hc').trans_le (Nat.zero_le _)
    · obtain ⟨c, hc, hkeeps⟩ := hall e c' hc'
      rw [Heap.weight_of_get hc', Heap.weight_of_get hc]
      exact hkeeps.le

theorem Within.onCell (h : Within s m) {f : EpochCell → EpochCell}
    (hkeeps : ∀ c, m.cells.get e = some c → Keeps s.minWorkerThreads c (f c)) :
    Within s (m.onCell e f) := by
  refine h.cellwise fun j c' hc' => ?_
  rcases Heap.get_of_modify hc' with ⟨rfl, c, hc, rfl⟩ | ⟨-, hc⟩
  · exact ⟨c, hc, hkeeps c hc⟩
  · exact ⟨c', hc, .refl (h.cells j c' hc)⟩

theorem Within.onSessionCells (h : Within s m) {f : EpochCell → EpochCell} {p : EpochCell → Bool}
    (hp : allCells m sid p = true)
    (hkeeps : ∀ e c, m.cells.get e = some c → p c = true → Keeps s.minWorkerThreads c (f c)) :
    Within s (m.onSessionCells sid f) := by
  refine h.cellwise fun e c' hc' => ?_
  obtain ⟨c, hc, rfl⟩ := Option.map_eq_some_iff.mp hc'
  refine ⟨c, hc, ?_⟩
  split
  · next hsid =>
    have he := List.all_eq_true.mp hp e (List.mem_range.mpr (Heap.lt_next hc))
    rw [hc, Option.all_some, decide_eq_true hsid] at he
    exact hkeeps e c hc he
  · exact .refl (h.cells e c hc)

/-! ### Dispatch -/

theorem liveThreads_le_runningThreads
    (h : ∀ e c, m.cells.get e = some c → Sound s.minWorkerThreads c) :
    liveThreads m ≤ m.runningThreads none := by
  refine Heap.total_le_total fun e => ?_
  rcases hc : m.cells.get e with _ | c
  · exact (Heap.weight_of_none hc).trans_le (Nat.zero_le _)
  · rw [Heap.weight_of_get hc, Heap.weight_of_get hc]
    exact (h e c hc).liveThreads_le

/-- A launch within the remainder of the total is within the budget, since all live runs are
counted. -/
theorem Within.launched (h : Within s m) {w assigned : ℕ}
    (hl : Launched s perUser m m' e w assigned) : Within s m' := by
  obtain ⟨r, hq, -⟩ := hl.record
  obtain ⟨now, rfl⟩ := hl.launch
  have hcells : ∀ j c', (m.onCell e fun c => c.launch w assigned now).cells.get j = some c' →
      Sound s.minWorkerThreads c' := by
    intro j c' hc'
    rcases Heap.get_of_modify hc' with ⟨rfl, c, hc, rfl⟩ | ⟨-, hc⟩
    · obtain ⟨c₀, hc₀, hr, hstate⟩ := hq
      cases hc.symm.trans hc₀
      exact (h.cells j c hc).launch hr hstate hl.least
    · exact h.cells j c' hc
  refine ⟨hcells, (liveThreads_le_runningThreads hcells).trans ?_⟩
  rw [runningThreads_onCell_launch hq]
  exact hl.total

/-- An epoch with a queued worker has no live run that its end could leave uncounted. -/
theorem Within.aborted (h : Within s m) {w : ℕ} {r : WorkerRecord} (hq : IsQueued m e w r)
    (exitCode : ℤ) (now : ℚ) : Within s (m.abortReplacement e exitCode now) := by
  obtain ⟨hself, -, hother⟩ := abortReplacement_get m e exitCode now
  obtain ⟨c, hc, hr, hstate⟩ := hq
  refine h.cellwise fun j c' hc' => ?_
  by_cases hj : j = e
  · subst hj
    obtain ⟨f, hf, hget⟩ := hself c hc
    cases hget.symm.trans hc'
    have hsound := h.cells j c hc
    obtain ⟨hactive, hprocess, hqueueings⟩ := hf c.epoch
    have hepoch : Keeps s.minWorkerThreads c (c.onEpoch f) :=
      ((Gentle.of_onEpoch hactive).follows hsound).keeps
        ((Mild.of_epoch hsound.inv.wired hactive hprocess hqueueings).inv hsound.inv)
    have hfree := hepoch.sound.inv.solo.free_of_waiting (c := c.onEpoch f) hr (.inl hstate)
    have hquiet := hepoch.sound.quiet_of_free hfree
    have hsettled : settled (c.onEpoch f) = true := settled_iff.mpr fun i t ht hlive => by
      rw [quiet_iff.mp hquiet i t ht] at hlive
      cases hlive
    have hdiscard := (hepoch.sound.terminate hsettled true exitCode now).unlist.keeps
      (hepoch.sound.inv.terminate true exitCode now).unlist
    exact ⟨c, hc, hdiscard.sound, hdiscard.le.trans hepoch.le⟩
  · exact ⟨c', (hother j hj).symm.trans hc', .refl (h.cells j c' ((hother j hj).symm.trans hc'))⟩

theorem Within.dispatched (h : Within s m) (hd : Dispatched s perUser m m') : Within s m' := by
  induction hd with
  | start => exact h
  | launch _ hl ih => exact ih.launched hl
  | abort _ hq exitCode now ih => exact ih.aborted hq exitCode now

/-! ### The other steps -/

theorem Within.discard (h : Within s m) {exitCode : ℤ}
    (hfit : fits m (.discard e exitCode now) = true) : Within s (m.discard e exitCode now) := by
  rw [Manager.discard]
  split
  · exact h
  · next c hc =>
    rw [fits, hc, Option.all_some] at hfit
    refine Within.congr (h.onCell fun c₀ hc₀ => ?_) rfl
    cases hc.symm.trans hc₀
    have hsound := h.cells e c hc
    exact (hsound.terminate hfit true exitCode now).unlist.keeps
      (hsound.inv.terminate true exitCode now).unlist

theorem Within.ensureEpochs (h : Within s m) {epochs : List ℕ}
    (hfit : ensuresFit sid now m epochs = true) :
    Within s (epochs.foldl (fun m e => m.ensureEpoch sid now e) m) := by
  induction epochs generalizing m with
  | nil => exact h
  | cons e rest ih =>
    rw [ensuresFit, Bool.and_eq_true] at hfit
    refine ih (h.onCell fun c hc => ?_) hfit.2
    have hsound := h.cells e c hc
    split
    · next hsid =>
      have hcalm := hfit.1
      rw [hc, Option.all_some, decide_eq_true hsid] at hcalm
      have hstep : EpochCell.step ⟨fun _ => false, fun _ => false, fun c => [c]⟩
        s.minWorkerThreads c (.ensure now) = some (c.ensureEpochWorker now) := rfl
      exact hsound.step (show LiveRuns.fits c (.ensure now) = true from hcalm)
        (fun _ _ _ heq => by cases heq) hstep
    · exact .refl hsound

theorem Within.ensure (h : Within s m) (hfit : fits m (.ensure sid now) = true) :
    Within s (m.ensureEpochWorkers sid now) := by
  rw [Manager.ensureEpochWorkers]
  split
  · exact h
  · next session hsession =>
    rw [fits, hsession, Option.all_some, Bool.or_eq_true] at hfit
    split
    · exact h
    · next hparked => exact h.ensureEpochs (hfit.resolve_left hparked)

theorem Within.maybePark (h : Within s m) (hfit : fits m (.maybePark sid now) = true) :
    Within s (m.maybePark sid now) := by
  rw [Manager.maybePark]
  split
  · exact h
  · next session hsession =>
    rw [fits, hsession, Option.all_some, Bool.or_eq_true] at hfit
    split
    · next hparks =>
      rw [hparks] at hfit
      have hcells := hfit.resolve_left (by decide)
      have hpark : Within s (m.onSessionCells sid EpochCell.park) :=
        h.onSessionCells hcells fun e c hc hp => (park_follows hp).keeps (h.cells e c hc).inv.park
      exact hpark.congr rfl
    · split
      · exact h.congr rfl
      · exact h

theorem Within.applyBackgroundLifecycle (h : Within s m) {state : Lifecycle}
    (hfit : fits m (.applyLifecycle sid state now) = true) :
    Within s (m.applyBackgroundLifecycle sid state now) := by
  rw [Manager.applyBackgroundLifecycle]
  split
  · exact h
  · next session hsession =>
    rw [fits, hsession, Option.all_some, Bool.or_eq_true] at hfit
    have hresume : Within s
        (if Manager.resumes session state then m.onSessionCells sid EpochCell.resume else m) := by
      split
      · next hresumes =>
        rw [hresumes] at hfit
        have hcells := hfit.resolve_left (by decide)
        refine h.onSessionCells hcells fun e c hc hp => ?_
        have hsound := h.cells e c hc
        have hstep : EpochCell.step ⟨fun _ => false, fun _ => false, fun c => [c]⟩
          s.minWorkerThreads c .resume = some c.resume := rfl
        exact hsound.step hp (fun _ _ _ heq => by cases heq) hstep
      · exact h
    dsimp only
    split
    · exact h.congr rfl
    · exact h.congr rfl
    · exact h
    · exact hresume.congr rfl

theorem Within.newEpoch (h : Within s m) (sessionId userId : ℕ) (reason : Option ReplacementReason)
    (audio downshift resupply : Option ℕ) :
    Within s { m with
      cells := m.cells.alloc (.new sessionId userId reason audio downshift resupply) } := by
  set c : EpochCell := .new sessionId userId reason audio downshift resupply with hc
  have hzero : LiveRuns.liveThreads c = 0 := rfl
  refine ⟨fun e c' hc' => ?_, ?_⟩
  · by_cases he : e = m.cells.next
    · subst he
      rw [show (m.cells.alloc c).get m.cells.next = some c from Heap.get_put_self] at hc'
      cases hc'
      exact ⟨inv_new .., fun i t ht => by cases ht⟩
    · exact h.cells e c' ((Heap.get_put_ne he).symm.trans hc')
  · rw [liveThreads, Heap.total_alloc, hzero]
    exact h.budget

/-- **A step keeps the invariant** if it meets the condition. -/
theorem Within.step (h : Within s m) {uni : PyText.Unicode} {a : Manager.Action}
    (hfit : fits m a = true) (hst : Manager.step uni s m a = some m') : Within s m' := by
  cases a with
  | newSession userId =>
    cases hst
    exact h.congr rfl
  | unregister sid =>
    cases hst
    exact h.congr rfl
  | touch sid state active replacement =>
    cases hst
    exact h.congr rfl
  | newEpoch sid reason audio downshift resupply =>
    obtain ⟨session, -, rfl⟩ := Option.map_eq_some_iff.mp hst
    exact h.newEpoch ..
  | discard e exitCode now =>
    cases hst
    exact h.discard hfit
  | ensure sid now =>
    cases hst
    exact h.ensure hfit
  | dispatch inputs =>
    cases hst
    exact h.dispatched (ThreadBudget.dispatched m s inputs)
  | maybePark sid now =>
    cases hst
    exact h.maybePark hfit
  | applyLifecycle sid state now =>
    cases hst
    exact h.applyBackgroundLifecycle hfit
  | epoch e a =>
    obtain ⟨c, hc, hst⟩ := Option.bind_eq_some_iff.mp hst
    split at hst
    · next hsingle =>
      obtain ⟨c', hc', rfl⟩ := Option.map_eq_some_iff.mp hst
      rw [fits, hc, Option.all_some] at hfit
      refine h.onCell fun c₀ hc₀ => ?_
      cases hc.symm.trans hc₀
      refine (h.cells e c hc).step hfit (fun w assigned now ha => ?_) hc'
      rw [ha] at hsingle
      cases hsingle
    · cases hst

/-! ### Runs -/

theorem within_empty (s : Settings) : Within s .empty :=
  ⟨fun _ _ hc => (by cases hc), Nat.zero_le _⟩

/-- **The thread budget is not oversubscribed** in any run in which no step takes the record of a
live run out of the count; and every dispatch launches workers within the remainders only. -/
theorem thread_budget (uni : PyText.Unicode) (s : Settings) (m : Manager)
    (hrun : Runs.Reach (Manager.step uni s) (fun m a => fits m a = true) .empty m) :
    liveThreads m ≤ s.totalBudgetCores ∧
      ∀ inputs, Dispatched s (m.perUserBudgetCores s) m (m.dispatchWaitingWorkers s inputs) := by
  have hwithin : Within s m := hrun.invariant (within_empty s)
    fun _ _ _ _ h hfit hst => h.step hfit hst
  exact ⟨hwithin.budget, dispatched m s⟩

/-! ### A parked run -/

/-- Four cores, and no adaptive assignment. -/
def sampleSettings : Settings where
  minWorkerThreads := 2
  maxWorkerThreads := 4
  adaptiveMaxWorkerThreads := 12
  adaptiveThreadControlEnabled := false
  real9PrepareEnabled := false
  strict12Enabled := false
  totalBudgetCores := 4
  one_le_min := by decide
  min_le_max := by decide
  min_le_adaptiveMax := by decide

/-- A dispatch at second `now`. -/
def sampleInputs (now : ℚ) : DispatchInputs where
  now := now
  gates _ _ := ⟨false, false, false, false, false⟩
  exitCode _ := 0
  idRank _ w := w

/-- The user `user` plays in the session `sid`, and its worker is dispatched at second `now`. -/
def playing (user sid : ℕ) (now : ℚ) : List Manager.Action :=
  [.newSession user, .newEpoch sid none none none none, .touch sid .attached (some sid) none,
    .ensure sid now, .dispatch (sampleInputs now)]

theorem thread_budget_playing : ∃ m,
    Runs.runFrom (Runs.guarded (Manager.step .ascii sampleSettings) fits) .empty
      (playing 1 0 0) = some m ∧ liveThreads m = 4 ∧ liveThreads m ≤ 4 := by
  have hrun : ((Runs.runFrom (Runs.guarded (Manager.step .ascii sampleSettings) fits) .empty
      (playing 1 0 0)).any fun m => decide (liveThreads m = 4)) = true := by
    decide +kernel
  obtain ⟨m, hm, hlive⟩ := (Option.any_eq_true _ _).mp hrun
  exact ⟨m, hm, of_decide_eq_true hlive, (thread_budget .ascii sampleSettings m
    (Runs.reach_of_guarded (Runs.reach_of_runFrom hm))).1⟩

/-- The first session is parked while its process runs; then another user plays. -/
def parkedRuns : List Manager.Action :=
  playing 1 0 0 ++
  [.epoch 0 (.start 0 true none 0), .epoch 0 (.spawn 0), .epoch 0 (.attach 0 true 0),
    .touch 0 .backgroundSuspended (some 0) none, .applyLifecycle 0 .backgroundSuspended 1,
    .maybePark 0 400] ++
  playing 2 1 400

theorem parked_run_not_counted :
    ¬ ∀ (uni : PyText.Unicode) (s : Settings) (m : Manager),
      Runs.Reach (Manager.step uni s) (fun _ _ => True) .empty m →
      liveThreads m ≤ s.totalBudgetCores := by
  intro h
  have hrun : ((Runs.runFrom (Manager.step .ascii sampleSettings) .empty parkedRuns).any
      fun m => decide (liveThreads m = 8)) = true := by
    decide +kernel
  obtain ⟨m, hm, hlive⟩ := (Option.any_eq_true _ _).mp hrun
  have hle := h .ascii sampleSettings m (Runs.reach_of_runFrom hm)
  rw [of_decide_eq_true hlive] at hle
  exact absurd hle (by decide)

end ThreadBudget
