/-
The futures of the poster derivative manager.

* `Waited` — every future that is not done is held by a live job or by a delivery, every outcome is
  one of a generation for the key that was asked for, and every job in the queue is wanted;
* `waited_of_reach` — it holds in the runs in which no cancellation falls between the test and the
  setting of a future;
* `waiters_settled` — what follows for the callers;
* `raced_delivery_strands_waiter` — a run with such a cancellation, after which a future stays
  pending for ever.
-/
import Elvern.PosterDerivatives

open Heaps Runs

namespace PosterDerivatives

namespace Manager

variable {κ : Type}

/-- The failure of the waiters of a dropped prewarm. -/
def dropped : Outcome := .error (.queueFull "Poster prewarm was dropped for interactive work")

/-- Somebody will settle the future `w`. -/
inductive Held (m : Manager κ) (w : ℕ) : Prop
  | job {r : ℕ} {job : Job κ} (hr : r ∈ m.live) (hjob : m.objects.get r = some job)
      (hw : w ∈ job.waiters)
  | delivery {d : Delivery κ} (hd : d ∈ m.deliveries) (hw : w ∈ d.waiters)

/-- Nobody waits in vain. -/
structure Waited (m : Manager κ) : Prop where
  held : ∀ w c, m.futures.get w = some c → c.done = false → m.Held w
  asked : ∀ r ∈ m.live, ∀ job, m.objects.get r = some job → ∀ w ∈ job.waiters,
    ∃ c, m.futures.get w = some c ∧ c.jobKey = some job.key ∧
      (c.done = false ∨ (job.key, w) ∈ m.callbacks)
  called : ∀ k w, (k, w) ∈ m.callbacks → ∃ c, m.futures.get w = some c ∧ c.done = true
  delivered : ∀ d ∈ m.deliveries, (d.key, d.outcome) ∈ m.ended ∧
    ∀ w ∈ d.waiters, ∃ c, m.futures.get w = some c ∧ c.jobKey = some d.key
  apart : ∀ r ∈ m.live, ∀ job, m.objects.get r = some job → ∀ d ∈ m.deliveries, ∀ w ∈ job.waiters,
    w ∉ d.waiters
  outcome : ∀ w k outcome, m.futures.get w = some ⟨.finished outcome, some k⟩ →
    (k, outcome) ∈ m.ended ∨ outcome = dropped

/-- A job in the queue that no prewarm asked for has a waiter. -/
def Wanted (m : Manager κ) : Prop :=
  ∀ r ∈ m.queued, ∀ job, m.objects.get r = some job → job.prewarm = false → job.waiters ≠ []

variable {s : Settings} {m m' : Manager κ} {r w w' : ℕ} {key : κ} {outcome : Outcome} {now : ℚ}
  {priority : Priority} {prewarm : Bool} {c : Waiter κ}

/-! ### The futures after a step -/

@[simp] theorem settled_jobKey : (c.settled outcome).jobKey = c.jobKey := by
  unfold Waiter.settled
  split <;> rfl

@[simp] theorem cancelled_jobKey : c.cancelled.jobKey = c.jobKey := by
  unfold Waiter.cancelled
  split <;> rfl

@[simp] theorem settled_done : (c.settled outcome).done = true := by
  obtain ⟨state, jobKey⟩ := c
  cases state <;> rfl

@[simp] theorem cancelled_done : c.cancelled.done = true := by
  obtain ⟨state, jobKey⟩ := c
  cases state <;> rfl

/-- A settled future has the outcome, or it was done before. -/
theorem settled_state {outcome' : Outcome} (h : (c.settled outcome).state = .finished outcome') :
    outcome' = outcome ∨ c.state = .finished outcome' := by
  obtain ⟨state, jobKey⟩ := c
  cases state with
  | pending =>
    cases h
    exact .inl rfl
  | cancelled => cases h
  | finished outcome₀ => exact .inr h

theorem cancelled_state (h : c.cancelled.state = .finished outcome) :
    c.state = .finished outcome := by
  obtain ⟨state, jobKey⟩ := c
  cases state with
  | pending => cases h
  | cancelled => cases h
  | finished outcome₀ => exact h

theorem settleAll_none_spec (outcome : Outcome) (waiters : List ℕ) (m : Manager κ) :
    (m.settleAll outcome none waiters).2 = false ∧
      (m.settleAll outcome none waiters).1.callbacks = m.callbacks ∧
      ∀ w, (m.settleAll outcome none waiters).1.futures.get w =
        (m.futures.get w).map fun c => if w ∈ waiters then c.settled outcome else c := by
  induction waiters generalizing m with
  | nil =>
    refine ⟨rfl, rfl, fun w => ?_⟩
    show m.futures.get w = _
    simp
  | cons v rest ih =>
    have hstep : m.settleAll outcome none (v :: rest) =
        (m.settle v outcome).settleAll outcome none rest :=
      if_neg (by simp)
    obtain ⟨hraised, hcallbacks, hfutures⟩ := ih (m.settle v outcome)
    rw [hstep]
    refine ⟨hraised, hcallbacks, fun w => ?_⟩
    rw [hfutures w]
    by_cases hw : w = v
    · subst hw
      show Option.map _ ((m.futures.modify w _).get w) = _
      rw [Heap.get_modify_self, Option.map_map]
      congr 1
      funext c
      have htwice : (c.settled outcome).settled outcome = c.settled outcome := by
        obtain ⟨state, jobKey⟩ := c
        cases state <;> rfl
      simp only [Function.comp_apply, List.mem_cons_self, if_true, htwice, ite_self]
    · show Option.map _ ((m.futures.modify v _).get w) = _
      rw [Heap.get_modify_ne hw]
      simp [hw]

/-! ### The steps keep it -/

theorem waited_init : Waited (init : Manager κ) where
  held w c h := by cases h
  asked r h := by cases h
  called k w h := by cases h
  delivered d h := by cases h
  apart r h := by cases h
  outcome w k outcome h := by cases h

/-- Holding a future is about the jobs and the deliveries. -/
theorem Held.congr (h : m.Held w) (hlive : m'.live = m.live) (hobjects : m'.objects = m.objects)
    (hdeliveries : m'.deliveries = m.deliveries) : m'.Held w := by
  cases h with
  | job hr hjob hw => exact .job (hlive ▸ hr) (hobjects ▸ hjob) hw
  | delivery hd hw => exact .delivery (hdeliveries ▸ hd) hw

theorem Waited.cancel (h : Waited m) : Waited (m.cancel w) := by
  unfold Manager.cancel
  split
  · next hpending =>
    refine { h with held := ?_, asked := ?_, called := ?_, delivered := ?_, outcome := ?_ }
    · intro v c hc hdone
      rcases Heap.get_of_modify hc with ⟨rfl, c₀, -, rfl⟩ | ⟨-, hc₀⟩
      · rw [cancelled_done] at hdone
        cases hdone
      · exact (h.held v c hc₀ hdone).congr rfl rfl rfl
    · intro r hr job hjob v hv
      obtain ⟨c, hc, hkey, hopen⟩ := h.asked r hr job hjob v hv
      by_cases hvw : v = w
      · subst hvw
        refine ⟨c.cancelled, by rw [Heap.get_modify_self, hc]; rfl, by simpa using hkey, .inr ?_⟩
        rw [hc]
        simp [hkey]
      · exact ⟨c, (Heap.get_modify_ne hvw).trans hc, hkey, hopen.imp_right (List.mem_append_left _)⟩
    · intro k v hmem
      have hsome : ∃ c, m.futures.get v = some c ∧ (v ≠ w → c.done = true) := by
        rcases List.mem_append.mp hmem with hold | hnew
        · obtain ⟨c, hc, hdone⟩ := h.called k v hold
          exact ⟨c, hc, fun _ => hdone⟩
        · obtain ⟨k', hk', heq⟩ := Option.map_eq_some_iff.mp (Option.mem_toList.mp hnew)
          obtain ⟨c, hc, -⟩ := Option.bind_eq_some_iff.mp hk'
          cases heq
          exact ⟨c, hc, fun hne => absurd rfl hne⟩
      obtain ⟨c, hc, hdone⟩ := hsome
      by_cases hvw : v = w
      · subst hvw
        exact ⟨c.cancelled, by rw [Heap.get_modify_self, hc]; rfl, cancelled_done⟩
      · exact ⟨c, (Heap.get_modify_ne hvw).trans hc, hdone hvw⟩
    · intro d hd
      refine ⟨(h.delivered d hd).1, fun v hv => ?_⟩
      obtain ⟨c, hc, hkey⟩ := (h.delivered d hd).2 v hv
      by_cases hvw : v = w
      · subst hvw
        exact ⟨c.cancelled, by rw [Heap.get_modify_self, hc]; rfl, by simpa using hkey⟩
      · exact ⟨c, (Heap.get_modify_ne hvw).trans hc, hkey⟩
    · intro v k outcome hc
      rcases Heap.get_of_modify hc with ⟨rfl, c₀, hc₀, heq⟩ | ⟨-, hc₀⟩
      · have hstate : c₀.state = .finished outcome := cancelled_state (by rw [heq])
        have hkey : c₀.jobKey = some k := by
          rw [← cancelled_jobKey, heq]
        refine h.outcome v k outcome ?_
        obtain ⟨state, jobKey⟩ := c₀
        subst hstate hkey
        exact hc₀
      · exact h.outcome v k outcome hc₀
  · exact h

/-- A future that is done from the start, and that no job knows. -/
theorem Waited.alloc_done (h : Waited m) {outcome : Outcome} {stats : Stats} :
    Waited { m with stats := stats, futures := m.futures.alloc ⟨.finished outcome, none⟩ } := by
  have hold : ∀ v c, m.futures.get v = some c →
      (m.futures.alloc ⟨.finished outcome, none⟩).get v = some c := fun v c hc =>
    (Heap.get_put_ne (Heap.lt_next hc).ne).trans hc
  have hget : ∀ v c, (m.futures.alloc ⟨.finished outcome, none⟩).get v = some c →
      c = ⟨.finished outcome, none⟩ ∨ m.futures.get v = some c := by
    intro v c hc
    by_cases hv : v = m.futures.next
    · subst hv
      exact .inl (Option.some_inj.mp (hc.symm.trans Heap.get_put_self))
    · exact .inr ((Heap.get_put_ne hv).symm.trans hc)
  refine { h with held := ?_, asked := ?_, called := ?_, delivered := ?_, outcome := ?_ }
  · intro v c hc hdone
    rcases hget v c hc with rfl | hc₀
    · cases hdone
    · exact (h.held v c hc₀ hdone).congr rfl rfl rfl
  · intro r hr job hjob v hv
    obtain ⟨c, hc, hrest⟩ := h.asked r hr job hjob v hv
    exact ⟨c, hold v c hc, hrest⟩
  · intro k v hmem
    obtain ⟨c, hc, hdone⟩ := h.called k v hmem
    exact ⟨c, hold v c hc, hdone⟩
  · intro d hd
    refine ⟨(h.delivered d hd).1, fun v hv => ?_⟩
    obtain ⟨c, hc, hkey⟩ := (h.delivered d hd).2 v hv
    exact ⟨c, hold v c hc, hkey⟩
  · intro v k outcome' hc
    rcases hget v _ hc with heq | hc₀
    · cases heq
    · exact h.outcome v k outcome' hc₀

theorem Waited.start (h : Waited m) : Waited m.start := by
  unfold Manager.start
  split
  · exact h
  · exact { h with held := fun v c hc hdone => (h.held v c hc hdone).congr rfl rfl rfl }

theorem Wanted.congr (h : Wanted m) (hobjects : m'.objects = m.objects)
    (hqueued : ∀ r ∈ m'.queued, r ∈ m.queued) : Wanted m' := fun r hr job hjob =>
  h r (hqueued r hr) job (hobjects ▸ hjob)

theorem Wanted.start (h : Wanted m) : Wanted m.start :=
  h.congr (sameJobs_start m).objects fun _ hr => (sameJobs_start m).queued ▸ hr

/-- A new future that is held by the job `r`: the other jobs keep their waiters. -/
theorem Waited.alloc_pending (h : Waited m) (job' : Job κ) (hfutures : m'.futures =
      m.futures.alloc ⟨.pending, some job'.key⟩) (hcallbacks : m'.callbacks = m.callbacks)
    (hdeliveries : m'.deliveries = m.deliveries) (hended : m'.ended = m.ended)
    (hr : r ∈ m'.live) (hjob' : m'.objects.get r = some job')
    (hwaiters : ∀ v, v ∈ job'.waiters ↔ v = m.futures.next ∨
      ∃ job, r ∈ m.live ∧ m.objects.get r = some job ∧ job.key = job'.key ∧ v ∈ job.waiters)
    (hlive : ∀ r' ∈ m'.live, r' = r ∨ r' ∈ m.live)
    (hstay : ∀ r' ∈ m.live, r' ∈ m'.live)
    (hsame : ∀ r' ∈ m.live, r' ≠ r → m'.objects.get r' = m.objects.get r')
    (hold : ∀ job, r ∈ m.live → m.objects.get r = some job → job.key = job'.key) : Waited m' := by
  have hkept : ∀ v c, m.futures.get v = some c → m'.futures.get v = some c := fun v c hc => by
    rw [hfutures]
    exact (Heap.get_put_ne (Heap.lt_next hc).ne).trans hc
  have hself : m'.futures.get m.futures.next = some ⟨.pending, some job'.key⟩ := by
    rw [hfutures]
    exact Heap.get_put_self
  have hget : ∀ v c, m'.futures.get v = some c →
      (v = m.futures.next ∧ c = ⟨.pending, some job'.key⟩) ∨ m.futures.get v = some c := by
    intro v c hc
    by_cases hv : v = m.futures.next
    · subst hv
      exact .inl ⟨rfl, Option.some_inj.mp (hc.symm.trans hself)⟩
    · rw [hfutures] at hc
      exact .inr ((Heap.get_put_ne hv).symm.trans hc)
  constructor
  · intro v c hc hdone
    rcases hget v c hc with ⟨rfl, -⟩ | hc₀
    · exact .job hr hjob' ((hwaiters _).mpr (.inl rfl))
    · cases h.held v c hc₀ hdone with
      | @job r' job₀ hr' hjob hw =>
        by_cases heq : r' = r
        · subst heq
          exact .job hr hjob' ((hwaiters v).mpr (.inr ⟨job₀, hr', hjob, hold job₀ hr' hjob, hw⟩))
        · exact .job (hstay r' hr') ((hsame r' hr' heq).trans hjob) hw
      | delivery hd hw => exact .delivery (hdeliveries ▸ hd) hw
  · intro r' hr' job hjob v hv
    by_cases heq : r' = r
    · subst heq
      cases hjob'.symm.trans hjob
      rcases (hwaiters v).mp hv with rfl | ⟨job₀, hlive₀, hjob₀, hkey₀, hv₀⟩
      · exact ⟨_, hself, rfl, .inl rfl⟩
      · obtain ⟨c, hc, hkey, hopen⟩ := h.asked r' hlive₀ job₀ hjob₀ v hv₀
        exact ⟨c, hkept v c hc, hkey₀ ▸ hkey, hcallbacks ▸ hkey₀ ▸ hopen⟩
    · have hlive₀ := (hlive r' hr').resolve_left heq
      obtain ⟨c, hc, hkey, hopen⟩ :=
        h.asked r' hlive₀ job ((hsame r' hlive₀ heq).symm.trans hjob) v hv
      exact ⟨c, hkept v c hc, hkey, hcallbacks ▸ hopen⟩
  · intro k v hmem
    obtain ⟨c, hc, hdone⟩ := h.called k v (hcallbacks ▸ hmem)
    exact ⟨c, hkept v c hc, hdone⟩
  · intro d hd
    rw [hdeliveries] at hd
    refine ⟨hended ▸ (h.delivered d hd).1, fun v hv => ?_⟩
    obtain ⟨c, hc, hkey⟩ := (h.delivered d hd).2 v hv
    exact ⟨c, hkept v c hc, hkey⟩
  · intro r' hr' job hjob d hd v hv hvd
    rw [hdeliveries] at hd
    by_cases heq : r' = r
    · subst heq
      cases hjob'.symm.trans hjob
      rcases (hwaiters v).mp hv with rfl | ⟨job₀, hlive₀, hjob₀, -, hv₀⟩
      · obtain ⟨c, hc, -⟩ := (h.delivered d hd).2 _ hvd
        exact (Heap.lt_next hc).ne rfl
      · exact h.apart r' hlive₀ job₀ hjob₀ d hd v hv₀ hvd
    · have hlive₀ := (hlive r' hr').resolve_left heq
      exact h.apart r' hlive₀ job ((hsame r' hlive₀ heq).symm.trans hjob) d hd v hv hvd
  · intro v k outcome hc
    rw [hended]
    rcases hget v _ hc with ⟨-, heq⟩ | hc₀
    · cases heq
    · exact h.outcome v k outcome hc₀

theorem Waited.join (h : Waited m) (hinv : Inv s m) (hknown : m.jobs key = some r) :
    Waited (m.join r key priority prewarm) := by
  obtain ⟨hr, job, hjob, rfl⟩ := hinv.known key r hknown
  have hjob' : (m.join r job.key priority prewarm).objects.get r =
      some (joined job priority prewarm m.futures.next) := by
    show (m.objects.modify r _).get r = _
    rw [Heap.get_modify_self, hjob]
    rfl
  refine h.alloc_pending (joined job priority prewarm m.futures.next) rfl rfl rfl rfl hr hjob'
    (fun v => ?_) (fun r' hr' => .inr hr') (fun r' hr' => hr')
    (fun r' _ hne => Heap.get_modify_ne hne) (fun job₀ _ hjob₀ => ?_)
  · simp only [joined, List.mem_append, List.mem_singleton]
    constructor
    · rintro (hv | rfl)
      · exact .inr ⟨job, hr, hjob, rfl, hv⟩
      · exact .inl rfl
    · rintro (rfl | ⟨job₀, -, hjob₀, -, hv⟩)
      · exact .inr rfl
      · cases hjob.symm.trans hjob₀
        exact .inl hv
  · cases hjob.symm.trans hjob₀
    rfl

theorem Waited.dispatch (h : Waited m) (hinv : Inv s m) : Waited (dispatch s m now) := by
  rcases dispatch_cases s m now with heq | heq | ⟨r, burst, -, hselect, heq⟩
  · rw [heq]
    exact h
  · rw [heq]
    exact { h with held := fun v c hc hdone => (h.held v c hc hdone).congr rfl rfl rfl }
  · rw [heq]
    have hr : r ∈ m.queued := mem_queued_of_eligible (selectJob_mem hselect)
    have hnodup := List.nodup_append.mp hinv.nodup
    have hlive : ∀ r', r' ∈ m.queued.erase r ++ (m.running ++ [r]) ↔ r' ∈ m.live := by
      intro r'
      simp only [Manager.live, List.mem_append, List.mem_singleton, hnodup.1.mem_erase_iff]
      by_cases heq : r' = r
      · subst heq
        tauto
      · tauto
    have hget : ∀ r' job', (m.objects.modify r fun job => { job with started := true }).get
      r' = some job' →
        ∃ job₀, m.objects.get r' = some job₀ ∧ job'.key = job₀.key ∧
            job'.waiters = job₀.waiters := by
      intro r' job' hjob'
      rcases Heap.get_of_modify hjob' with ⟨rfl, job₀, h₀, rfl⟩ | ⟨-, h₀⟩
      · exact ⟨job₀, h₀, rfl, rfl⟩
      · exact ⟨job', h₀, rfl, rfl⟩
    refine { h with held := ?_, asked := ?_, apart := ?_ }
    · intro v c hc hdone
      cases h.held v c hc hdone with
      | @job r' job₀ hr' hjob₀ hv =>
        by_cases heq : r' = r
        · subst heq
          have hstarted : (m.objects.modify r' fun job => { job with started := true }).get r' =
              some { job₀ with started := true } := by
            rw [Heap.get_modify_self, hjob₀]
            rfl
          exact .job ((hlive r').mpr hr') hstarted hv
        · exact .job ((hlive r').mpr hr') ((Heap.get_modify_ne heq).trans hjob₀) hv
      | delivery hd hv => exact .delivery hd hv
    · intro r' hr' job' hjob' v hv
      obtain ⟨job₀, hjob₀, hkey, hwaiters⟩ := hget r' job' hjob'
      rw [hkey]
      exact h.asked r' ((hlive r').mp hr') job₀ hjob₀ v (hwaiters ▸ hv)
    · intro r' hr' job' hjob' d hd v hv
      obtain ⟨job₀, hjob₀, -, hwaiters⟩ := hget r' job' hjob'
      exact h.apart r' ((hlive r').mp hr') job₀ hjob₀ d hd v (hwaiters ▸ hv)

/-- Another entry is still there. -/
theorem mem_eraseIdx_of_ne {α : Type} {l : List α} {i : ℕ} {a b : α} (hi : l[i]? = some a)
    (hb : b ∈ l) (hne : b ≠ a) : b ∈ l.eraseIdx i := by
  obtain ⟨j, hj⟩ := List.mem_iff_getElem?.mp hb
  refine List.mem_eraseIdx_iff_getElem?.mpr ⟨j, ?_, hj⟩
  rintro rfl
  exact hne (Option.some_inj.mp (hj.symm.trans hi))

/-- A future after a waiter was settled. -/
theorem settle_get {v : ℕ} {c : Waiter κ} (hc : m.futures.get v = some c) :
    ∃ c', (m.settle w outcome).futures.get v = some c' ∧ c'.jobKey = c.jobKey ∧
      (c.done = true → c'.done = true) ∧ (v ≠ w → c' = c) := by
  by_cases hv : v = w
  · subst hv
    refine ⟨c.settled outcome, ?_, settled_jobKey, fun _ => settled_done,
      fun hne => absurd rfl hne⟩
    show (m.futures.modify v _).get v = _
    rw [Heap.get_modify_self, hc]
    rfl
  · exact ⟨c, (Heap.get_modify_ne hv).trans hc, rfl, id, fun _ => rfl⟩

/-- A delivery that is over is forgotten. -/
theorem Waited.eraseDelivery (h : Waited m) {i : ℕ} {d : Delivery κ}
    (hd : m.deliveries[i]? = some d) (hnil : d.waiters = []) :
    Waited { m with deliveries := m.deliveries.eraseIdx i } := by
  refine { h with held := ?_, delivered := ?_, apart := ?_ }
  · intro v c hc hdone
    cases h.held v c hc hdone with
    | job hr hjob hv => exact .job hr hjob hv
    | @delivery d' hd' hv =>
      refine .delivery (d := d') (mem_eraseIdx_of_ne hd hd' ?_) hv
      rintro rfl
      rw [hnil] at hv
      cases hv
  · intro d' hd'
    exact h.delivered d' (List.mem_of_mem_eraseIdx hd')
  · intro r hr job hjob d' hd'
    exact h.apart r hr job hjob d' (List.mem_of_mem_eraseIdx hd')

/-- One waiter less to settle. -/
theorem Waited.settleDelivery (h : Waited m) {i w : ℕ} {d : Delivery κ} {rest : List ℕ}
    (hd : m.deliveries[i]? = some d) (hw : d.waiters = w :: rest) :
    Waited { m.settle w d.outcome with
      deliveries := m.deliveries.set i { d with waiters := rest } } := by
  have hmem : d ∈ m.deliveries := List.mem_of_getElem? hd
  have hset : ∀ d' ∈ m.deliveries.set i { d with waiters := rest },
      d' ∈ m.deliveries ∨ d' = { d with waiters := rest } := fun d' hd' =>
    List.mem_or_eq_of_mem_set hd'
  have hfirst : ∀ r ∈ m.live, ∀ job, m.objects.get r = some job → ∀ v ∈ job.waiters, v ≠ w := by
    rintro r hr job hjob v hv rfl
    exact h.apart r hr job hjob d hmem v hv (hw ▸ List.mem_cons_self ..)
  refine { h with
    held := ?_, asked := ?_, called := ?_, delivered := ?_, apart := ?_, outcome := ?_ }
  · intro v c hc hdone
    rcases Heap.get_of_modify hc with ⟨rfl, c₀, -, rfl⟩ | ⟨hne, hc₀⟩
    · rw [settled_done] at hdone
      cases hdone
    · cases h.held v c hc₀ hdone with
      | job hr hjob hv => exact .job hr hjob hv
      | @delivery d' hd' hv =>
        -- Only the delivery at `i` changes, and only by its first waiter.
        obtain ⟨j, hj⟩ := List.mem_iff_getElem?.mp hd'
        by_cases hji : j = i
        · subst hji
          cases hd.symm.trans hj
          rw [hw] at hv
          refine .delivery (d := { d with waiters := rest }) ?_
            ((List.mem_cons.mp hv).resolve_left hne)
          exact List.mem_set (List.getElem?_eq_some_iff.mp hd).1 _
        · refine .delivery (d := d') (List.mem_of_getElem? (i := j) ?_) hv
          show (m.deliveries.set i _)[j]? = _
          rw [List.getElem?_set_ne (Ne.symm hji), hj]
  · intro r hr job hjob v hv
    obtain ⟨c, hc, hkey, hopen⟩ := h.asked r hr job hjob v hv
    obtain ⟨c', hc', -, -, hsame⟩ := settle_get hc
    cases hsame (hfirst r hr job hjob v hv)
    exact ⟨c, hc', hkey, hopen⟩
  · intro k v hcall
    obtain ⟨c, hc, hdone⟩ := h.called k v hcall
    obtain ⟨c', hc', -, hdone', -⟩ := settle_get hc
    exact ⟨c', hc', hdone' hdone⟩
  · intro d' hd'
    have hold : (d'.key, d'.outcome) ∈ m.ended ∧
        ∀ v ∈ d'.waiters, ∃ c, m.futures.get v = some c ∧ c.jobKey = some d'.key := by
      rcases hset d' hd' with hd' | rfl
      · exact h.delivered d' hd'
      · exact ⟨(h.delivered d hmem).1, fun v hv =>
          (h.delivered d hmem).2 v (hw ▸ List.mem_cons_of_mem w hv)⟩
    refine ⟨hold.1, fun v hv => ?_⟩
    obtain ⟨c, hc, hkey⟩ := hold.2 v hv
    obtain ⟨c', hc', hkey', -⟩ := settle_get hc
    exact ⟨c', hc', hkey'.trans hkey⟩
  · intro r hr job hjob d' hd' v hv hvd
    rcases hset d' hd' with hd' | rfl
    · exact h.apart r hr job hjob d' hd' v hv hvd
    · exact h.apart r hr job hjob d hmem v hv (hw ▸ List.mem_cons_of_mem w hvd)
  · intro v k outcome hc
    rcases Heap.get_of_modify hc with ⟨rfl, c₀, hc₀, heq⟩ | ⟨-, hc₀⟩
    · have hkey : c₀.jobKey = some k := by
        rw [← settled_jobKey, heq]
      have hstate : (c₀.settled d.outcome).state = .finished outcome := by rw [heq]
      rcases settled_state hstate with rfl | hstate
      · -- The key of the delivery is the key that the future was registered with.
        obtain ⟨c₁, hc₁, hkey₁⟩ := (h.delivered d hmem).2 v (hw ▸ List.mem_cons_self ..)
        cases hc₀.symm.trans hc₁
        cases hkey.symm.trans hkey₁
        exact .inl (h.delivered d hmem).1
      · refine h.outcome v k outcome ?_
        obtain ⟨state, jobKey⟩ := c₀
        subst hstate hkey
        exact hc₀
    · exact h.outcome v k outcome hc₀

theorem Waited.deliver (h : Waited m) {i : ℕ} (hdeliver : m.deliver i false = some m') :
    Waited m' := by
  obtain ⟨d, hd, rfl⟩ := Option.map_eq_some_iff.mp hdeliver
  split
  · next hnil => exact h.eraseDelivery hd hnil
  · next w rest hw =>
    rw [if_neg (by simp)]
    exact h.settleDelivery hd hw

theorem Wanted.dispatch (h : Wanted m) : Wanted (dispatch s m now) := by
  rcases dispatch_cases s m now with heq | heq | ⟨r, burst, -, -, heq⟩
  · rw [heq]
    exact h
  · rw [heq]
    exact h
  · rw [heq]
    intro r' hr' job' hjob' hprewarm
    rcases Heap.get_of_modify hjob' with ⟨rfl, job₀, h₀, rfl⟩ | ⟨-, h₀⟩
    · exact h _ (List.mem_of_mem_erase hr') job₀ h₀ hprewarm
    · exact h r' (List.mem_of_mem_erase hr') job' h₀ hprewarm

/-- The executor is no matter of the waiters. -/
theorem Waited.execute (h : Waited m) (hexecute : m.execute r = some m') : Waited m' := by
  unfold Manager.execute at hexecute
  split_ifs at hexecute with htaken hclosed
  · cases hexecute
    exact { h with held := fun v c hc hdone => (h.held v c hc hdone).congr rfl rfl rfl }
  · cases hexecute
    exact { h with held := fun v c hc hdone => (h.held v c hc hdone).congr rfl rfl rfl }

section Locked

variable [DecidableEq κ]

/-- The waiters of a finished job go to its delivery. -/
theorem Waited.finishJob (h : Waited m) (hinv : Inv s m)
    (hfinish : m.finishJob r outcome = some m') : Waited m' := by
  unfold Manager.finishJob at hfinish
  split at hfinish
  · next hrunning =>
    obtain ⟨hrun, -, -⟩ := hrunning
    obtain ⟨job, hjob, rfl⟩ := Option.map_eq_some_iff.mp hfinish
    have hr : r ∈ m.live := List.mem_append_right _ hrun
    have hnodup := List.nodup_append.mp hinv.nodup
    have hlive : ∀ r', r' ∈ m.queued ++ m.running.erase r ↔ r' ∈ m.live ∧ r' ≠ r := by
      intro r'
      rw [live, List.mem_append, List.mem_append, hnodup.2.1.mem_erase_iff]
      constructor
      · rintro (hq | ⟨hne, hr'⟩)
        · exact ⟨.inl hq, fun heq => hinv.not_running hq (heq ▸ hrun)⟩
        · exact ⟨.inr hr', hne⟩
      · rintro ⟨hq | hr', hne⟩
        · exact .inl hq
        · exact .inr ⟨hne, hr'⟩
    refine { h with held := ?_, asked := ?_, delivered := ?_, apart := ?_, outcome := ?_ }
    · intro v c hc hdone
      cases h.held v c hc hdone with
      | @job r' job' hr' hjob' hv =>
        by_cases heq : r' = r
        · subst heq
          cases hjob.symm.trans hjob'
          exact .delivery (List.mem_append_right _ (List.mem_singleton_self _)) hv
        · exact .job ((hlive r').mpr ⟨hr', heq⟩) hjob' hv
      | delivery hd hv => exact .delivery (List.mem_append_left _ hd) hv
    · intro r' hr'
      exact h.asked r' ((hlive r').mp hr').1
    · intro d hd
      rcases List.mem_append.mp hd with hold | hnew
      · exact ⟨List.mem_append_left _ (h.delivered d hold).1, (h.delivered d hold).2⟩
      · cases List.mem_singleton.mp hnew
        refine ⟨List.mem_append_right _ (List.mem_singleton_self _), fun v hv => ?_⟩
        obtain ⟨c, hc, hkey, -⟩ := h.asked r hr job hjob v hv
        exact ⟨c, hc, hkey⟩
    · intro r' hr' job' hjob' d hd v hv hvd
      obtain ⟨hr', hne⟩ := (hlive r').mp hr'
      rcases List.mem_append.mp hd with hold | hnew
      · exact h.apart r' hr' job' hjob' d hold v hv hvd
      · cases List.mem_singleton.mp hnew
        obtain ⟨c, hc, hkey, -⟩ := h.asked r' hr' job' hjob' v hv
        obtain ⟨c', hc', hkey', -⟩ := h.asked r hr job hjob v hvd
        cases hc.symm.trans hc'
        exact hne (hinv.eq_of_key hr' hr hjob' hjob (Option.some_inj.mp (hkey.symm.trans hkey')))
    · intro v k outcome' hc
      exact (h.outcome v k outcome' hc).imp_left (List.mem_append_left _)
  · cases hfinish

theorem Waited.enqueue (h : Waited m) (hinv : Inv s m) :
    Waited (m.enqueue key priority prewarm) := by
  have hnew : m.objects.next ∉ m.live := by
    intro hmem
    obtain ⟨job, hjob, -⟩ := hinv.listed _ hmem
    exact (Heap.lt_next hjob).ne rfl
  have hlive : ∀ r', r' ∈ (m.enqueue key priority prewarm).live ↔ r' ∈ m.live ∨
      r' = m.objects.next := by
    intro r'
    simp only [live, Manager.enqueue, List.mem_append, List.mem_singleton]
    tauto
  refine h.alloc_pending (r := m.objects.next)
    ⟨key, priority, prewarm, m.sequence + 1, [m.futures.next], false⟩ rfl rfl rfl rfl
    ((hlive _).mpr (.inr rfl)) Heap.get_put_self (fun v => ?_)
    (fun r' hr' => ((hlive r').mp hr').symm)
    (fun r' hr' => (hlive r').mpr (.inl hr')) (fun r' _ hne => Heap.get_put_ne hne)
    (fun job hmem _ => absurd hmem hnew)
  rw [List.mem_singleton]
  constructor
  · exact .inl
  · rintro (hv | ⟨job, hmem, -⟩)
    · exact hv
    · exact absurd hmem hnew

omit [DecidableEq κ] in
/-- A future after the waiters of a job were settled, and before. -/
theorem settleAll_get {waiters : List ℕ} {v : ℕ} {c : Waiter κ}
    (hc : (m.settleAll outcome none waiters).1.futures.get v = some c) :
    ∃ c₀, m.futures.get v = some c₀ ∧ c.jobKey = c₀.jobKey ∧
      (v ∈ waiters ∧ c = c₀.settled outcome ∨ v ∉ waiters ∧ c = c₀) := by
  rw [(settleAll_none_spec outcome waiters m).2.2 v] at hc
  obtain ⟨c₀, hc₀, heq⟩ := Option.map_eq_some_iff.mp hc
  by_cases hv : v ∈ waiters
  · rw [if_pos hv] at heq
    exact ⟨c₀, hc₀, by rw [← heq, settled_jobKey], .inl ⟨hv, heq.symm⟩⟩
  · rw [if_neg hv] at heq
    exact ⟨c₀, hc₀, by rw [heq], .inr ⟨hv, heq.symm⟩⟩

omit [DecidableEq κ] in
theorem settleAll_put {waiters : List ℕ} {v : ℕ} {c : Waiter κ} (hc : m.futures.get v = some c) :
    (m.settleAll outcome none waiters).1.futures.get v =
      some (if v ∈ waiters then c.settled outcome else c) := by
  rw [(settleAll_none_spec outcome waiters m).2.2 v, hc]
  rfl

omit [DecidableEq κ] in
/-- The live jobs without one that is queued. -/
theorem Inv.mem_discard (hinv : Inv s m) (hr : r ∈ m.queued) {r' : ℕ} :
    r' ∈ m.queued.erase r ++ m.running ↔ r' ∈ m.live ∧ r' ≠ r := by
  have hnodup := List.nodup_append.mp hinv.nodup
  constructor
  · intro hr'
    rcases List.mem_append.mp hr' with hq | hrun
    · obtain ⟨hne, hq⟩ := hnodup.1.mem_erase_iff.mp hq
      exact ⟨List.mem_append_left _ hq, hne⟩
    · exact ⟨List.mem_append_right _ hrun, fun heq => hinv.not_running hr (heq ▸ hrun)⟩
  · rintro ⟨hr', hne⟩
    rcases List.mem_append.mp hr' with hq | hrun
    · exact List.mem_append_left _ (hnodup.1.mem_erase_iff.mpr ⟨hne, hq⟩)
    · exact List.mem_append_right _ hrun

/-- The waiters of a job that leaves the queue are settled. -/
theorem Waited.dropQueuedPrewarm (h : Waited m) (hinv : Inv s m) (hr : r ∈ m.queued) :
    Waited (m.dropQueuedPrewarm r none).1 ∧ (m.dropQueuedPrewarm r none).2 = false := by
  obtain ⟨job, hjob, -⟩ := hinv.listed r (List.mem_append_left _ hr)
  have hdrop : m.dropQueuedPrewarm r none = (m.discard r job.key
      { m.stats with droppedPrewarm := m.stats.droppedPrewarm + 1 }).settleAll dropped none
        job.waiters := by
    rw [Manager.dropQueuedPrewarm, hjob]
    rfl
  rw [hdrop]
  set m₁ := m.discard r job.key
    { m.stats with droppedPrewarm := m.stats.droppedPrewarm + 1 } with hm₁
  have hsame := sameJobs_settleAll dropped none job.waiters m₁
  obtain ⟨hraised, hcallbacks, -⟩ := settleAll_none_spec dropped job.waiters m₁
  refine ⟨?_, hraised⟩
  have hlive : ∀ r', r' ∈ (m₁.settleAll dropped none job.waiters).1.live ↔
      r' ∈ m.live ∧ r' ≠ r := by
    intro r'
    rw [live, hsame.queued, hsame.running]
    exact hinv.mem_discard hr
  have hput : ∀ v c, m.futures.get v = some c →
      (m₁.settleAll dropped none job.waiters).1.futures.get v =
        some (if v ∈ job.waiters then c.settled dropped else c) := fun _ _ hc => settleAll_put hc
  -- Waiters of other jobs are not among those that are settled, since they asked for other keys.
  have hother : ∀ r' ∈ m.live, r' ≠ r → ∀ job', m.objects.get r' = some job' → ∀ v ∈ job'.waiters,
      v ∉ job.waiters := by
    intro r' hr' hne job' hjob' v hv hv'
    obtain ⟨c, hc, hkey, -⟩ := h.asked r' hr' job' hjob' v hv
    obtain ⟨c', hc', hkey', -⟩ := h.asked r (List.mem_append_left _ hr) job hjob v hv'
    cases hc.symm.trans hc'
    exact hne (hinv.eq_of_key hr' (List.mem_append_left _ hr) hjob' hjob
      (Option.some_inj.mp (hkey.symm.trans hkey')))
  constructor
  · intro v c hc hdone
    obtain ⟨c₀, hc₀, -, ⟨-, rfl⟩ | ⟨hv, rfl⟩⟩ := settleAll_get hc
    · rw [settled_done] at hdone
      cases hdone
    · cases h.held v c hc₀ hdone with
      | @job r' job₀ hr' hjob' hw =>
        have hne : r' ≠ r := by
          rintro rfl
          cases hjob.symm.trans hjob'
          exact hv hw
        exact .job ((hlive r').mpr ⟨hr', hne⟩) (hsame.objects ▸ hjob') hw
      | delivery hd hw => exact .delivery (hsame.deliveries ▸ hd) hw
  · intro r' hr' job' hjob' v hv
    obtain ⟨hr', hne⟩ := (hlive r').mp hr'
    rw [hsame.objects] at hjob'
    obtain ⟨c, hc, hkey, hopen⟩ := h.asked r' hr' job' hjob' v hv
    refine ⟨c, ?_, hkey, hcallbacks ▸ hopen⟩
    rw [hput v c hc, if_neg (hother r' hr' hne job' hjob' v hv)]
  · intro k v hmem
    obtain ⟨c, hc, hdone⟩ := h.called k v (hcallbacks ▸ hmem)
    refine ⟨_, hput v c hc, ?_⟩
    split
    · exact settled_done
    · exact hdone
  · intro d hd
    rw [hsame.deliveries] at hd
    refine ⟨hsame.ended ▸ (h.delivered d hd).1, fun v hv => ?_⟩
    obtain ⟨c, hc, hkey⟩ := (h.delivered d hd).2 v hv
    refine ⟨_, hput v c hc, ?_⟩
    split
    · rwa [settled_jobKey]
    · exact hkey
  · intro r' hr' job' hjob' d hd
    exact h.apart r' ((hlive r').mp hr').1 job' (hsame.objects ▸ hjob') d (hsame.deliveries ▸ hd)
  · intro v k outcome hc
    rw [hsame.ended]
    obtain ⟨c₀, hc₀, hkey, ⟨-, heq⟩ | ⟨-, heq⟩⟩ := settleAll_get hc
    · have hstate : (c₀.settled dropped).state = .finished outcome := by rw [← heq]
      rcases settled_state hstate with hout | hstate
      · exact .inr hout
      · refine h.outcome v k outcome ?_
        obtain ⟨state, jobKey⟩ := c₀
        subst hstate hkey
        exact hc₀
    · exact h.outcome v k outcome (heq ▸ hc₀)

theorem Waited.submitResult (h : Waited m) (hinv : Inv s m) (cached : Option String) :
    Waited (submitResult s m key priority prewarm cached none) := by
  unfold Manager.submitResult
  split
  · exact h.alloc_done
  · have hstart := h.start
    have hinv' := hinv.start
    dsimp only
    split
    · next hknown => exact hstart.join hinv' hknown
    · split
      · split
        · exact hstart.alloc_done
        · next r hselect =>
          have hr : r ∈ m.start.queued := by
            split at hselect
            · cases hselect
            · exact (prewarmToDrop_spec hselect).1
          obtain ⟨hdropped, hraised⟩ := hstart.dropQueuedPrewarm hinv' hr
          rw [if_neg (by rw [hraised]; exact Bool.false_ne_true)]
          exact hdropped.enqueue (hinv'.dropQueuedPrewarm hr key none).1
      · exact hstart.enqueue hinv'

/-- A job without waiters can be discarded. -/
theorem Waited.discard (h : Waited m) (hinv : Inv s m) {job : Job κ} (stats : Stats)
    (hr : r ∈ m.queued) (hjob : m.objects.get r = some job) (hempty : job.waiters = []) :
    Waited (m.discard r job.key stats) := by
  have hlive : ∀ r' ∈ (m.discard r job.key stats).live, r' ∈ m.live := fun r' hr' =>
    ((hinv.mem_discard hr).mp hr').1
  refine { h with held := ?_, asked := ?_, apart := ?_ }
  · intro v c hc hdone
    cases h.held v c hc hdone with
    | @job r' job' hr' hjob' hv =>
      have hne : r' ≠ r := by
        rintro rfl
        cases hjob.symm.trans hjob'
        rw [hempty] at hv
        cases hv
      exact .job ((hinv.mem_discard hr).mpr ⟨hr', hne⟩) hjob' hv
    | delivery hd hv => exact .delivery hd hv
  · intro r' hr'
    exact h.asked r' (hlive r' hr')
  · intro r' hr'
    exact h.apart r' (hlive r' hr')

omit [DecidableEq κ] in
/-- The job without the waiter. -/
theorem forget_get {job : Job κ} (hjob : m.objects.get r = some job) :
    (m.forget r w).objects.get r =
      some { job with waiters := job.waiters.filter (· ≠ w) } := by
  show (m.objects.modify r _).get r = _
  rw [Heap.get_modify_self, hjob]
  rfl

omit [DecidableEq κ] in
/-- The waiter that is forgotten was cancelled, and nobody has to hold it. -/
theorem Waited.forget (h : Waited m) (hinv : Inv s m) {i : ℕ} {job : Job κ}
    (hi : m.callbacks[i]? = some (job.key, w)) (hr : r ∈ m.live)
    (hjob : m.objects.get r = some job) :
    Waited { m.forget r w with callbacks := m.callbacks.eraseIdx i } := by
  have hget : ∀ r' job', (m.forget r w).objects.get r' = some job' → ∃ job₀,
      m.objects.get r' = some job₀ ∧ job'.key = job₀.key ∧
        (∀ v ∈ job'.waiters, v ∈ job₀.waiters) ∧ (r' = r → w ∉ job'.waiters) := by
    intro r' job' hjob'
    rcases Heap.get_of_modify hjob' with ⟨rfl, job₀, h₀, rfl⟩ | ⟨hne, h₀⟩
    · exact ⟨job₀, h₀, rfl, fun v hv => (List.mem_filter.mp hv).1,
        fun _ hmem => by simpa using (List.mem_filter.mp hmem).2⟩
    · exact ⟨job', h₀, rfl, fun _ hv => hv, fun heq => absurd heq hne⟩
  refine { h with held := ?_, asked := ?_, called := ?_, apart := ?_ }
  · intro v c hc hdone
    -- The callback of a future only comes when it is done.
    have hne : v ≠ w := by
      rintro rfl
      obtain ⟨c', hc', hdone'⟩ := h.called _ v (List.mem_of_getElem? hi)
      cases hc.symm.trans hc'
      rw [hdone'] at hdone
      cases hdone
    cases h.held v c hc hdone with
    | @job r' job' hr' hjob' hv =>
      by_cases heq : r' = r
      · subst heq
        cases hjob.symm.trans hjob'
        exact .job hr' (forget_get hjob) (List.mem_filter.mpr ⟨hv, by simpa using hne⟩)
      · exact .job hr' ((Heap.get_modify_ne heq).trans hjob') hv
    | delivery hd hv => exact .delivery hd hv
  · intro r' hr' job' hjob' v hv
    obtain ⟨job₀, hjob₀, hkey₀, hsub, hnot⟩ := hget r' job' hjob'
    obtain ⟨c, hc, hkey, hopen⟩ := h.asked r' hr' job₀ hjob₀ v (hsub v hv)
    refine ⟨c, hc, hkey₀ ▸ hkey, hopen.imp_right fun hmem => ?_⟩
    rw [hkey₀]
    refine mem_eraseIdx_of_ne hi hmem fun heq => ?_
    have hrr : r' = r := hinv.eq_of_key hr' hr hjob₀ hjob (congrArg Prod.fst heq)
    have hvw : v = w := congrArg Prod.snd heq
    exact hnot hrr (hvw ▸ hv)
  · exact fun k v hmem => h.called k v (List.mem_of_mem_eraseIdx hmem)
  · intro r' hr' job' hjob' d hd v hv
    obtain ⟨job₀, hjob₀, -, hsub, -⟩ := hget r' job' hjob'
    exact h.apart r' hr' job₀ hjob₀ d hd v (hsub v hv)

/-- A cancelled waiter is forgotten by the job that it waited for. -/
theorem Waited.handleWaiterDone (h : Waited m) (hinv : Inv s m) {i : ℕ}
    (hi : m.callbacks[i]? = some (key, w)) :
    Waited { m.handleWaiterDone key w with callbacks := m.callbacks.eraseIdx i } := by
  unfold Manager.handleWaiterDone
  split
  · next hnone =>
    refine { h with held := ?_, asked := ?_, called := ?_ }
    · intro v c hc hdone
      exact (h.held v c hc hdone).congr rfl rfl rfl
    · intro r hr job hjob v hv
      obtain ⟨c, hc, hkey, hopen⟩ := h.asked r hr job hjob v hv
      refine ⟨c, hc, hkey, hopen.imp_right fun hmem => mem_eraseIdx_of_ne hi hmem fun heq => ?_⟩
      cases heq
      obtain ⟨job', hjob', hk⟩ := hinv.listed r hr
      cases hjob.symm.trans hjob'
      rw [hnone] at hk
      cases hk
    · exact fun k v hmem => h.called k v (List.mem_of_mem_eraseIdx hmem)
  · next r hknown =>
    obtain ⟨hr, job, hjob, rfl⟩ := hinv.known key r hknown
    have hforget : Inv s { m.forget r w with callbacks := m.callbacks.eraseIdx i } := { hinv.modify
      (f := fun job => { job with waiters := job.waiters.filter (· ≠ w) })
      (fun _ => rfl) (fun _ => rfl) (fun _ => rfl) with }
    have hwaited := h.forget hinv hi hr hjob
    split
    · next hidle =>
      rw [forget_get hjob, Option.any_some, Job.abandoned, Bool.and_eq_true, Bool.and_eq_true]
        at hidle
      have hqueued : r ∈ m.queued := by
        rcases List.mem_append.mp hr with hq | hrun
        · exact hq
        · have hstarted := (hinv.started r hr job hjob).mpr hrun
          rw [hstarted] at hidle
          cases hidle.1.1
      have hdiscard := hwaited.discard hforget
        { m.stats with cancelledBeforeStart := m.stats.cancelledBeforeStart + 1 } hqueued
        (forget_get hjob) (List.isEmpty_iff.mp hidle.1.2)
      exact hdiscard
    · exact hwaited

/-! ### Jobs that somebody wants -/

theorem Wanted.enqueue (h : Wanted m) (hinv : Inv s m) :
    Wanted (m.enqueue key priority prewarm) := by
  intro r hr job hjob hprewarm
  rcases List.mem_append.mp hr with hq | hnext
  · obtain ⟨job', hjob', -⟩ := hinv.listed r (List.mem_append_left _ hq)
    refine h r hq job ?_ hprewarm
    rwa [show (m.enqueue key priority prewarm).objects.get r = m.objects.get r from
      Heap.get_put_ne (Heap.lt_next hjob').ne] at hjob
  · rw [List.mem_singleton.mp hnext] at hjob
    cases Heap.get_put_self.symm.trans hjob
    exact List.cons_ne_nil _ _

theorem Wanted.submitResult (h : Wanted m) (hinv : Inv s m) (cached : Option String)
    (raced : Option ℕ) : Wanted (submitResult s m key priority prewarm cached raced) := by
  unfold Manager.submitResult
  split
  · exact h
  · have hinv' := hinv.start
    have hstart := h.start
    dsimp only
    split
    · next r hknown =>
      intro r' hr' job hjob hprewarm
      rcases Heap.get_of_modify hjob with ⟨rfl, job₀, -, rfl⟩ | ⟨-, hjob₀⟩
      · simp [joined]
      · exact hstart r' hr' job hjob₀ hprewarm
    · split
      · split
        · exact hstart
        · next r hselect =>
          have hr : r ∈ m.start.queued := by
            split at hselect
            · cases hselect
            · exact (prewarmToDrop_spec hselect).1
          obtain ⟨job, hjob, -⟩ := hinv'.listed r (List.mem_append_left _ hr)
          have hsame := sameJobs_settleAll dropped raced job.waiters (m.start.discard r job.key
            { m.start.stats with droppedPrewarm := m.start.stats.droppedPrewarm + 1 })
          have hdrop : m.start.dropQueuedPrewarm r raced = (m.start.discard r job.key
              { m.start.stats with droppedPrewarm := m.start.stats.droppedPrewarm + 1 }).settleAll
                dropped raced job.waiters := by
            rw [Manager.dropQueuedPrewarm, hjob]
            rfl
          have hwanted : Wanted (m.start.dropQueuedPrewarm r raced).1 := by
            rw [hdrop]
            refine hstart.congr hsame.objects fun r' hr' => ?_
            rw [hsame.queued] at hr'
            exact List.mem_of_mem_erase hr'
          split
          · exact hwanted
          · exact hwanted.enqueue (hinv'.dropQueuedPrewarm hr key raced).1
      · exact hstart.enqueue hinv'

/-- The last waiter takes the job with it. -/
theorem Wanted.handleWaiterDone (h : Wanted m) (hinv : Inv s m) :
    Wanted (m.handleWaiterDone key w) := by
  unfold Manager.handleWaiterDone
  split
  · exact h
  · next r hknown =>
    obtain ⟨hr, job, hjob, rfl⟩ := hinv.known key r hknown
    have hgetr : (m.forget r w).objects.get r =
        some { job with waiters := job.waiters.filter (· ≠ w) } := by
      show (m.objects.modify r _).get r = _
      rw [Heap.get_modify_self, hjob]
      rfl
    have hother : ∀ r' ∈ m.queued, r' ≠ r → ∀ job', (m.forget r w).objects.get r' = some job' →
        job'.prewarm = false → job'.waiters ≠ [] := fun r' hr' hne job' hjob' =>
      h r' hr' job' ((Heap.get_modify_ne hne).symm.trans hjob')
    split
    · intro r' hr' job' hjob'
      have hnodup := (List.nodup_append.mp hinv.nodup).1
      obtain ⟨hne, hq⟩ := hnodup.mem_erase_iff.mp hr'
      exact hother r' hq hne job' hjob'
    · next hbusy =>
      intro r' hr' job' hjob' hprewarm
      by_cases heq : r' = r
      · subst heq
        cases hgetr.symm.trans hjob'
        have hstarted : job.started = false := by
          by_contra hst
          exact hinv.not_running hr' ((hinv.started r' hr job hjob).mp (by simpa using hst))
        rw [hgetr, Option.any_some, Job.abandoned, hstarted, hprewarm] at hbusy
        intro hnil
        rw [hnil] at hbusy
        exact hbusy rfl
      · exact hother r' hr' heq job' hjob' hprewarm

/-! ### Runs -/

/-- No future is cancelled between its test and its setting. -/
def Unraced : Action κ → Prop
  | .submit _ _ _ _ raced => raced = none
  | .deliver _ raced => raced = false
  | _ => True

instance : DecidablePred (Unraced (κ := κ))
  | .submit _ _ _ _ raced => inferInstanceAs (Decidable (raced = none))
  | .deliver _ raced => inferInstanceAs (Decidable (raced = false))
  | .cancel _ | .waiterDone _ | .dispatch _ | .execute _ | .finish _ _ | .enterInteractiveWindow _
  | .shutdown | .closeExecutor | .shutDown => inferInstanceAs (Decidable True)

theorem Waited.step (h : Waited m) (hinv : Inv s m) {a : Action κ} (ha : Unraced a)
    (hstep : m.step s a = some m') : Waited m' := by
  cases a with
  | submit key priority prewarm cached raced =>
    cases ha
    cases hstep
    exact h.submitResult hinv cached
  | cancel w =>
    cases hstep
    exact h.cancel
  | waiterDone i =>
    obtain ⟨c, hc, rfl⟩ := Option.map_eq_some_iff.mp hstep
    exact h.handleWaiterDone hinv hc
  | dispatch now =>
    cases hstep
    exact h.dispatch hinv
  | execute r => exact h.execute hstep
  | finish r outcome => exact h.finishJob hinv hstep
  | deliver i raced =>
    cases ha
    exact h.deliver hstep
  | enterInteractiveWindow now =>
    cases hstep
    exact { h with held := fun v c hc hdone => (h.held v c hc hdone).congr rfl rfl rfl }
  | shutdown =>
    cases hstep
    unfold Manager.shutdown
    split
    · exact { h with held := fun v c hc hdone => (h.held v c hc hdone).congr rfl rfl rfl }
    · exact h
  | closeExecutor =>
    cases hstep
    unfold Manager.closeExecutor
    split
    · exact { h with held := fun v c hc hdone => (h.held v c hc hdone).congr rfl rfl rfl }
    · exact h
  | shutDown =>
    cases hstep
    unfold Manager.shutDown
    split
    · exact { h with held := fun v c hc hdone => (h.held v c hc hdone).congr rfl rfl rfl }
    · exact h

theorem Wanted.step (h : Wanted m) (hinv : Inv s m) {a : Action κ} (hstep : m.step s a = some m') :
    Wanted m' := by
  cases a with
  | submit key priority prewarm cached raced =>
    cases hstep
    exact h.submitResult hinv cached raced
  | cancel w =>
    cases hstep
    have hsame := sameJobs_cancel m w
    exact h.congr hsame.objects fun r hr => hsame.queued ▸ hr
  | waiterDone i =>
    obtain ⟨c, -, rfl⟩ := Option.map_eq_some_iff.mp hstep
    exact h.handleWaiterDone hinv
  | dispatch now =>
    cases hstep
    exact h.dispatch
  | execute r =>
    change m.execute r = some m' at hstep
    unfold Manager.execute at hstep
    split_ifs at hstep <;> cases hstep <;> exact h
  | finish r outcome =>
    change m.finishJob r outcome = some m' at hstep
    unfold Manager.finishJob at hstep
    split at hstep
    · obtain ⟨job, -, rfl⟩ := Option.map_eq_some_iff.mp hstep
      exact h
    · cases hstep
  | deliver i raced =>
    obtain ⟨d, -, rfl⟩ := Option.map_eq_some_iff.mp hstep
    split
    · exact h
    · next w rest hw =>
      split
      · have hsame := sameJobs_cancel m w
        exact h.congr hsame.objects fun r hr => hsame.queued ▸ hr
      · exact h
  | enterInteractiveWindow now =>
    cases hstep
    exact h
  | shutdown =>
    cases hstep
    unfold Manager.shutdown
    split <;> exact h
  | closeExecutor =>
    cases hstep
    unfold Manager.closeExecutor
    split <;> exact h
  | shutDown =>
    cases hstep
    unfold Manager.shutDown
    split <;> exact h

theorem waited_of_reach (h : Reach (step s) (fun _ a => Unraced a) (init : Manager κ) m) :
    Waited m ∧ Wanted m := by
  have hboth : Inv s m ∧ Waited m ∧ Wanted m :=
    h.invariant (P := fun m => Inv s m ∧ Waited m ∧ Wanted m)
      ⟨inv_init, waited_init, fun r hr => by cases hr⟩
      fun m a m' _ hall ha hstep =>
        ⟨hall.1.step hstep, hall.2.1.step hall.1 ha hstep, hall.2.2.step hall.1 hstep⟩
  exact hboth.2

/-- In a run in which no cancellation falls between the test and the setting of a future, every
future that is not done is held by a live job for its key or by a delivery, every outcome is the one
of a generation for the key or the failure of a dropped prewarm, and a queued job that no prewarm
asked for has a caller once the callbacks have run.  A manager that has come to rest leaves no
future behind but those of the jobs that the executor refused after its shutdown. -/
theorem waiters_settled (h : Reach (step s) (fun _ a => Unraced a) (init : Manager κ) m) :
    (∀ w c, m.futures.get w = some c → c.done = false →
      (∃ r job, r ∈ m.live ∧ m.objects.get r = some job ∧ w ∈ job.waiters ∧
        c.jobKey = some job.key) ∨
        ∃ d ∈ m.deliveries, w ∈ d.waiters ∧ c.jobKey = some d.key) ∧
      (∀ w k outcome, m.futures.get w = some ⟨.finished outcome, some k⟩ →
        (k, outcome) ∈ m.ended ∨ outcome = dropped) ∧
      (m.callbacks = [] → ∀ r ∈ m.queued, ∀ job, m.objects.get r = some job → job.prewarm = false →
        ∃ w ∈ job.waiters, m.isPending w = true) ∧
      (m.queued = [] → (∀ r ∈ m.running, r ∈ m.refused) → m.deliveries = [] →
        ∀ w c, m.futures.get w = some c → c.done = true ∨
          ∃ r ∈ m.refused, ∃ job, m.objects.get r = some job ∧ w ∈ job.waiters) ∧
      (m.executorShutdown = false → m.refused = []) := by
  obtain ⟨hwaited, hwanted⟩ := waited_of_reach h
  refine ⟨fun w c hc hdone => ?_, hwaited.outcome, fun hquiet r hr job hjob hprewarm => ?_,
    fun hqueued hrunning hdeliveries w c hc => ?_, (inv_of_reach h).refused_of_open⟩
  · cases hwaited.held w c hc hdone with
    | @job r job hr hjob hw =>
      obtain ⟨c', hc', hkey, -⟩ := hwaited.asked r hr job hjob w hw
      cases hc.symm.trans hc'
      exact .inl ⟨r, job, hr, hjob, hw, hkey⟩
    | @delivery d hd hw =>
      obtain ⟨c', hc', hkey⟩ := (hwaited.delivered d hd).2 w hw
      cases hc.symm.trans hc'
      exact .inr ⟨d, hd, hw, hkey⟩
  · obtain ⟨w, hw⟩ := List.exists_mem_of_ne_nil _ (hwanted r hr job hjob hprewarm)
    obtain ⟨c, hc, -, hopen⟩ := hwaited.asked r (List.mem_append_left _ hr) job hjob w hw
    refine ⟨w, hw, ?_⟩
    rw [hquiet] at hopen
    rw [isPending, hc, Option.any_some, hopen.resolve_right (List.not_mem_nil)]
    rfl
  · by_cases hdone : c.done = true
    · exact .inl hdone
    · rw [Bool.not_eq_true] at hdone
      cases hwaited.held w c hc hdone with
      | @job r job hr hjob hw =>
        rw [live, hqueued, List.nil_append] at hr
        exact .inr ⟨r, hrunning r hr, job, hjob, hw⟩
      | delivery hd =>
        rw [hdeliveries] at hd
        cases hd

/-- A poster that is asked for, generated and delivered, while a second caller gives up.  Another
one is taken when the shutdown no longer waits for the dispatcher. -/
def servedRun : List (Action ℕ) :=
  [.submit 7 .requested false none none, .submit 7 .normal false none none, .cancel 1,
    .waiterDone 0, .dispatch 0, .execute 0,
    .finish 0 (.ok ⟨"card.jpg", .derivativeGenerated, true⟩), .deliver 0 false, .deliver 0 false,
    .submit 8 .requested false none none, .shutdown, .closeExecutor, .dispatch 0, .execute 1,
    .shutDown]

theorem unraced_servedRun : ∀ a ∈ servedRun, Unraced a := by decide

theorem waiters_settled_of_servedRun : ∃ m : Manager ℕ,
    runFrom (step ⟨1, 1, 0⟩) init servedRun = some m ∧ m.refused = [1] ∧
      ∀ w c, m.futures.get w = some c → c.done = true ∨
        ∃ r ∈ m.refused, ∃ job, m.objects.get r = some job ∧ w ∈ job.waiters :=
  ⟨(runFrom (step ⟨1, 1, 0⟩) init servedRun).get (by decide +kernel), (Option.some_get _).symm,
    by decide +kernel,
    (waiters_settled (reach_of_runFrom_of (fun a ha _ => unraced_servedRun a ha)
      (Option.some_get _).symm)).2.2.2.1 (by decide +kernel) (by decide +kernel)
        (List.isEmpty_iff.mp (by decide +kernel))⟩

/-- Two callers of one poster; the first gives up between the test and the setting of its future. -/
def racedRun : List (Action ℕ) :=
  [.submit 7 .requested false none none, .submit 7 .requested false none none,
    .dispatch 0, .execute 0,
    .finish 0 (.ok ⟨"card.jpg", .derivativeGenerated, true⟩), .deliver 0 true, .waiterDone 0]

/-- The exception ends the loop over the waiters: the manager comes to rest, and the second caller
waits for ever. -/
theorem raced_delivery_strands_waiter :
    ((runFrom (step ⟨1, 1, 0⟩) init racedRun).map fun m : Manager ℕ =>
      m.queued.isEmpty && m.running.isEmpty && m.deliveries.isEmpty && m.callbacks.isEmpty &&
        m.isPending 1) = some true := by
  decide +kernel

end Locked

end Manager

end PosterDerivatives
