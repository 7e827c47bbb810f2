/-
Who is generated next.

A requested poster goes before a normal one, and a normal one before a prewarm.  Eight requested
posters in a row let one normal poster through, and among equals the oldest goes first.

* `bypasses` — how many jobs may still be started before a normal one: nine for every older job in
  the queue, and the rest of the burst;
* `bypasses_step` — no step raises it, and every start of another job lowers it;
* `normal_job_bypassed_boundedly` — as long as a normal job stays in the queue and nothing is taken
  in an interactive window, no more jobs than that are started before it, whatever else is
  submitted, promoted, cancelled or dropped.
-/
import Elvern.PosterDerivatives

open Heaps Runs

namespace PosterDerivatives

namespace Manager

variable {κ : Type}

/-- The jobs that were started so far. -/
def startedJobs (m : Manager κ) : ℕ :=
  m.running.length + m.stats.generated + m.stats.generationFailures

/-- The jobs in the queue that were submitted before the job `j`. -/
def olderJobs (m : Manager κ) (j : ℕ) : List ℕ := m.queued.filter (· < j)

/-- The starts that the job `j` may still have to wait for. -/
def bypasses (m : Manager κ) (j : ℕ) : ℕ :=
  (posterRequestedBurstLimit + 1) * (m.olderJobs j).length +
    (posterRequestedBurstLimit - m.requestedBurst)

/-- The job `j` waits with normal priority. -/
def WaitsNormal (m : Manager κ) (j : ℕ) : Prop := j ∈ m.queued ∧ m.priorityOf j = some .normal

instance (m : Manager κ) (j : ℕ) : Decidable (m.WaitsNormal j) :=
  inferInstanceAs (Decidable (_ ∧ _))

/-- The job `j` waits with normal priority, and nothing is taken in an interactive window. -/
def waits (j : ℕ) (m : Manager κ) (a : Action κ) : Bool :=
  decide (m.WaitsNormal j) && match a with
    | .dispatch now => !m.interactive now
    | _ => true

variable {s : Settings} {m m' : Manager κ} {r j : ℕ} {now : ℚ}

/-! ### Which job is selected -/

theorem mem_normalJobs {eligible : List ℕ} :
    r ∈ m.normalJobs eligible ↔ r ∈ eligible ∧ m.priorityOf r = some .normal := by
  rw [normalJobs, List.mem_filter, decide_eq_true_iff]

/-- The oldest of a list of jobs. -/
theorem sequenceOf_eq (h : Inv s m) (hr : r ∈ m.live) : m.sequenceOf r = r + 1 := by
  obtain ⟨job, hjob, -⟩ := h.listed r hr
  rw [sequenceOf, hjob]
  exact h.sequence r job hjob

/-- Outside the interactive windows, what is taken while the normal job `j` waits is `j` itself, or
an older normal job, which ends the burst, or a requested job within the burst. -/
theorem selectJob_spec (h : Inv s m) (hj : m.WaitsNormal j) (hcalm : m.interactive now = false)
    {burst : ℕ} (hselect : m.selectJob now = some (r, burst)) :
    r = j ∨ (r < j ∧ burst = 0) ∨
      (m.requestedBurst < posterRequestedBurstLimit ∧ burst = m.requestedBurst + 1) := by
  obtain ⟨hqueued, hnormal⟩ := hj
  have heligible : m.eligibleJobs now = m.queued := by
    rw [eligibleJobs, hcalm]
    rfl
  have hmem : j ∈ m.normalJobs m.queued := mem_normalJobs.mpr ⟨hqueued, hnormal⟩
  have hseq : ∀ i ∈ m.queued, m.sequenceOf i = i + 1 := fun i hi =>
    sequenceOf_eq h (List.mem_append_left _ hi)
  unfold selectJob at hselect
  dsimp only at hselect
  rw [heligible] at hselect
  split at hselect
  · -- The burst is over: the oldest normal job.
    obtain ⟨r', hr', heq⟩ := Option.map_eq_some_iff.mp hselect
    cases heq
    have hrq := (mem_normalJobs.mp (List.argmin_mem hr')).1
    have hle : m.sequenceOf r ≤ m.sequenceOf j := List.le_of_mem_argmin hmem hr'
    rw [hseq r hrq, hseq j hqueued] at hle
    rcases Nat.lt_or_eq_of_le hle with hlt | heq
    · exact .inr (.inl ⟨by omega, rfl⟩)
    · exact .inl (by omega)
  · next hburst =>
    obtain ⟨r', hr', heq⟩ := Option.map_eq_some_iff.mp hselect
    cases heq
    have hrq : r ∈ m.queued := List.argmin_mem hr'
    have hlimit : m.requestedBurst < posterRequestedBurstLimit := by
      by_contra hle
      exact hburst ⟨not_lt.mp hle, List.ne_nil_of_mem hmem⟩
    have hle : m.rank r ≤ m.rank j := List.le_of_mem_argmin hqueued hr'
    obtain ⟨job, hjob, -⟩ := h.listed r (List.mem_append_left _ hrq)
    have hpriority : m.priorityOf r = some job.priority := by
      rw [priorityOf, hjob]
      rfl
    have hcases : job.priority.value < 1 ∨ job.priority.value = 1 ∧ r ≤ j := by
      rw [rank, rank, hpriority, hnormal, hseq r hrq, hseq j hqueued,
        Prod.Lex.toLex_le_toLex] at hle
      rcases hle with hlt | ⟨heq, hsle⟩
      · exact .inl hlt
      · exact .inr ⟨heq, Nat.le_of_succ_le_succ hsle⟩
    rw [hpriority]
    cases hp : job.priority with
    | requested => exact .inr (.inr ⟨hlimit, rfl⟩)
    | normal =>
      rw [hp] at hcases
      rcases hcases with hlt | ⟨-, hle⟩
      · cases hlt.ne rfl
      · rcases Nat.lt_or_eq_of_le hle with hlt | heq
        · exact .inr (.inl ⟨hlt, rfl⟩)
        · exact .inl heq
    | prewarm =>
      rw [hp] at hcases
      rcases hcases with hlt | ⟨heq, -⟩
      · exact absurd hlt (by decide)
      · cases heq

/-! ### The steps -/

/-- The steps that start nothing. -/
structure Quiet (j : ℕ) (m m' : Manager κ) : Prop where
  startedJobs : m'.startedJobs = m.startedJobs
  burst : m'.requestedBurst = m.requestedBurst
  older : (m'.olderJobs j).length ≤ (m.olderJobs j).length

theorem Quiet.le (h : Quiet j m m') :
    m'.startedJobs + m'.bypasses j ≤ m.startedJobs + m.bypasses j := by
  have holder := h.older
  rw [h.startedJobs, bypasses, bypasses, h.burst]
  show _ + ((8 + 1) * _ + (8 - _)) ≤ _ + ((8 + 1) * _ + (8 - _))
  omega

theorem Quiet.of_eq (hqueued : m'.queued = m.queued) (hrunning : m'.running = m.running)
    (hstats : m'.stats.generated + m'.stats.generationFailures =
      m.stats.generated + m.stats.generationFailures)
    (hburst : m'.requestedBurst = m.requestedBurst) : Quiet j m m' where
  startedJobs := by
    rw [Manager.startedJobs, Manager.startedJobs, hrunning]
    omega
  burst := hburst
  older := by rw [olderJobs, olderJobs, hqueued]

theorem Quiet.trans {m₁ m₂ m₃ : Manager κ} (h : Quiet j m₁ m₂) (h' : Quiet j m₂ m₃) :
    Quiet j m₁ m₃ where
  startedJobs := h'.startedJobs.trans h.startedJobs
  burst := h'.burst.trans h.burst
  older := h'.older.trans h.older

theorem SameJobs.quiet (h : SameJobs m m') : Quiet j m m' :=
  .of_eq h.queued h.running (by rw [h.stats]) h.burst

/-- A job that leaves the queue without being started. -/
theorem Quiet.of_erase (hqueued : m'.queued = m.queued.erase r) (hrunning : m'.running = m.running)
    (hstats : m'.stats.generated + m'.stats.generationFailures =
      m.stats.generated + m.stats.generationFailures)
    (hburst : m'.requestedBurst = m.requestedBurst) : Quiet j m m' where
  startedJobs := by
    rw [Manager.startedJobs, Manager.startedJobs, hrunning]
    omega
  burst := hburst
  older := by
    rw [olderJobs, olderJobs, hqueued]
    exact (List.erase_sublist.filter _).length_le

/-- A start uses up one of the bypasses, unless it is the job itself. -/
theorem bypasses_dispatch (h : Inv s m) (hj : m.WaitsNormal j)
    (hj' : (dispatch s m now).WaitsNormal j) (hcalm : m.interactive now = false) :
    (dispatch s m now).startedJobs + (dispatch s m now).bypasses j ≤ m.startedJobs +
    m.bypasses j := by
  rcases dispatch_cases s m now with heq | heq | ⟨r, burst, -, hselect, heq⟩
  · rw [heq]
  · rw [heq]
    exact (Quiet.of_eq rfl rfl rfl rfl).le
  · rw [heq] at hj' ⊢
    have hr : r ∈ m.queued := mem_queued_of_eligible (selectJob_mem hselect)
    have hnodup := (List.nodup_append.mp h.nodup).1
    have hne : r ≠ j := by
      rintro rfl
      exact (hnodup.mem_erase_iff.mp hj'.1).1 rfl
    have hstarted : (m.running ++ [r]).length + m.stats.generated + m.stats.generationFailures =
        m.startedJobs + 1 := by
      rw [startedJobs, List.length_append, List.length_singleton]
      omega
    have hsub : ((m.queued.erase r).filter (· < j)).length ≤ (m.olderJobs j).length :=
      (List.erase_sublist.filter _).length_le
    show (m.running ++ [r]).length + m.stats.generated + m.stats.generationFailures +
      ((8 + 1) * ((m.queued.erase r).filter (· < j)).length + (8 - burst)) ≤
        m.startedJobs + ((8 + 1) * (m.olderJobs j).length + (8 - m.requestedBurst))
    rcases selectJob_spec h hj hcalm hselect with rfl | ⟨hlt, rfl⟩ | ⟨hlimit, rfl⟩
    · exact absurd rfl hne
    · -- One older job less pays for a whole burst.
      have hperm := (List.perm_cons_erase hr).filter (· < j)
      have hlen : (m.olderJobs j).length = ((m.queued.erase r).filter (· < j)).length + 1 := by
        rw [olderJobs, hperm.length_eq, List.filter_cons_of_pos (by simpa using hlt)]
        rfl
      omega
    · have hlimit' : m.requestedBurst < 8 := hlimit
      omega

section Locked

variable [DecidableEq κ]

/-- What is submitted now is younger. -/
theorem quiet_enqueue (h : Inv s m) (hj : j < m.sequence) {key : κ} {priority : Priority}
    {prewarm : Bool} : Quiet j m (m.enqueue key priority prewarm) where
  startedJobs := rfl
  burst := rfl
  older := by
    show ((m.queued ++ [m.objects.next]).filter (· < j)).length ≤ _
    have hyoung : ¬ m.objects.next < j := by
      rw [h.next]
      omega
    rw [List.filter_append, List.filter_singleton, decide_eq_false hyoung]
    simp [olderJobs]

theorem quiet_submitResult (h : Inv s m) (hj : j < m.sequence) {key : κ} {priority : Priority}
    {prewarm : Bool} {cached : Option String} {raced : Option ℕ} :
    Quiet j m (submitResult s m key priority prewarm cached raced) := by
  unfold Manager.submitResult
  split
  · exact .of_eq rfl rfl rfl rfl
  · have h' := h.start
    have hstart : Quiet j m m.start := (sameJobs_start m).quiet
    dsimp only
    have hj' : j < m.start.sequence := (sameJobs_start m).sequence ▸ hj
    split
    · exact hstart.trans (.of_eq rfl rfl rfl rfl)
    · split
      · split
        · exact hstart.trans (.of_eq rfl rfl rfl rfl)
        · next r hselect =>
          have hr : r ∈ m.start.queued := by
            split at hselect
            · cases hselect
            · exact (prewarmToDrop_spec hselect).1
          obtain ⟨job, hjob, -⟩ := h'.listed r (List.mem_append_left _ hr)
          have hsame := sameJobs_settleAll
            (.error (.queueFull "Poster prewarm was dropped for interactive work"))
              raced job.waiters
            (m.start.discard r job.key
              { m.start.stats with droppedPrewarm := m.start.stats.droppedPrewarm + 1 })
          have hdropped : Quiet j m.start (m.start.dropQueuedPrewarm r raced).1 ∧
              (m.start.dropQueuedPrewarm r raced).1.sequence = m.start.sequence := by
            rw [Manager.dropQueuedPrewarm, hjob]
            exact ⟨.of_erase hsame.queued hsame.running (by rw [hsame.stats]; rfl) hsame.burst,
              hsame.sequence⟩
          split
          · exact hstart.trans hdropped.1
          · exact (hstart.trans hdropped.1).trans
              (quiet_enqueue (h'.dropQueuedPrewarm hr key raced).1 (hdropped.2 ▸ hj'))
      · exact hstart.trans (quiet_enqueue h' hj')

theorem quiet_handleWaiterDone {key : κ} {w : ℕ} : Quiet j m (m.handleWaiterDone key w) := by
  unfold Manager.handleWaiterDone
  split
  · exact .of_eq rfl rfl rfl rfl
  · split
    · exact .of_erase rfl rfl rfl rfl
    · exact .of_eq rfl rfl rfl rfl

theorem bypasses_step (h : Inv s m) {a : Action κ} (ha : waits j m a = true)
    (hj' : m'.WaitsNormal j) (hstep : m.step s a = some m') :
    m'.startedJobs + m'.bypasses j ≤ m.startedJobs + m.bypasses j := by
  obtain ⟨hwaits, hcalm⟩ := (Bool.and_eq_true ..).mp ha
  have hnormal : m.WaitsNormal j := of_decide_eq_true hwaits
  have hj : j < m.sequence := by
    obtain ⟨job, hjob, -⟩ := h.listed j (List.mem_append_left _ hnormal.1)
    rw [← h.next]
    exact Heap.lt_next hjob
  cases a with
  | submit key priority prewarm cached raced =>
    cases hstep
    exact (quiet_submitResult h hj).le
  | cancel w =>
    cases hstep
    exact (sameJobs_cancel m w).quiet.le
  | waiterDone i =>
    obtain ⟨c, -, rfl⟩ := Option.map_eq_some_iff.mp hstep
    exact (quiet_handleWaiterDone.trans (.of_eq rfl rfl rfl rfl)).le
  | dispatch now =>
    cases hstep
    exact bypasses_dispatch h hnormal hj' (by simpa using hcalm)
  | execute r =>
    change m.execute r = some m' at hstep
    unfold Manager.execute at hstep
    split_ifs at hstep <;> cases hstep <;> exact (Quiet.of_eq rfl rfl rfl rfl).le
  | finish r outcome =>
    change m.finishJob r outcome = some m' at hstep
    unfold Manager.finishJob at hstep
    split at hstep
    · next hrunning =>
      obtain ⟨hrun, -, -⟩ := hrunning
      obtain ⟨job, -, rfl⟩ := Option.map_eq_some_iff.mp hstep
      refine Quiet.le ⟨?_, rfl, le_rfl⟩
      have hlen : (m.running.erase r).length + 1 = m.running.length := by
        have hpos := List.length_pos_of_mem hrun
        rw [List.length_erase_of_mem hrun]
        omega
      have hcount : (m.stats.finish outcome).generated +
        (m.stats.finish outcome).generationFailures =
          m.stats.generated + m.stats.generationFailures + 1 := by
        cases outcome with
        | ok result =>
          simp only [Stats.finish]
          split <;> dsimp only <;> omega
        | error failure =>
          simp only [Stats.finish]
          omega
      show (m.running.erase r).length + (m.stats.finish outcome).generated +
        (m.stats.finish outcome).generationFailures = m.startedJobs
      rw [startedJobs]
      omega
    · cases hstep
  | deliver i raced =>
    obtain ⟨d, -, rfl⟩ := Option.map_eq_some_iff.mp hstep
    split
    · exact (Quiet.of_eq rfl rfl rfl rfl).le
    · next w rest hw =>
      split
      · exact ((sameJobs_cancel m w).quiet.trans (.of_eq rfl rfl rfl rfl)).le
      · exact ((sameJobs_settle m w d.outcome).quiet.trans (.of_eq rfl rfl rfl rfl)).le
  | enterInteractiveWindow now =>
    cases hstep
    exact (Quiet.of_eq rfl rfl rfl rfl).le
  | shutdown =>
    cases hstep
    unfold Manager.shutdown
    split
    · exact (Quiet.of_eq rfl rfl rfl rfl).le
    · exact le_rfl
  | closeExecutor =>
    cases hstep
    unfold Manager.closeExecutor
    split
    · exact (Quiet.of_eq rfl rfl rfl rfl).le
    · exact le_rfl
  | shutDown =>
    cases hstep
    unfold Manager.shutDown
    split
    · exact (Quiet.of_eq rfl rfl rfl rfl).le
    · exact le_rfl

/-- Take any reachable state in which the job `j` waits with normal priority, and any run from it in
which `j` keeps waiting so and nothing is taken in an interactive window.  No more than nine jobs
for every older one in the queue, and the rest of the burst, are started in it. -/
theorem normal_job_bypassed_boundedly {ok : Manager κ → Action κ → Prop}
    (h : Reach (step s) ok init m) (hrun : Reach (step s) (fun m a => waits j m a = true) m m')
    (hj : m'.WaitsNormal j) :
    m'.startedJobs ≤ m.startedJobs + 9 * (m.olderJobs j).length + (8 - m.requestedBurst) := by
  have hkeeps : Inv s m' ∧ (m'.WaitsNormal j →
      m'.startedJobs + m'.bypasses j ≤ m.startedJobs + m.bypasses j) := by
    refine hrun.invariant (P := fun m' => Inv s m' ∧ (m'.WaitsNormal j →
      m'.startedJobs + m'.bypasses j ≤ m.startedJobs + m.bypasses j))
      ⟨inv_of_reach h, fun _ => le_rfl⟩ fun m₁ a m₂ _ hall ha hstep => ?_
    have hj₁ : m₁.WaitsNormal j := of_decide_eq_true ((Bool.and_eq_true ..).mp ha).1
    exact ⟨hall.1.step hstep, fun hj₂ => (bypasses_step hall.1 ha hj₂ hstep).trans (hall.2 hj₁)⟩
  have hle := hkeeps.2 hj
  change m'.startedJobs + m'.bypasses j ≤
    m.startedJobs + ((8 + 1) * (m.olderJobs j).length + (8 - m.requestedBurst)) at hle
  omega

/-- Two requested posters and a normal one. -/
def threeSubmitted : List (Action ℕ) :=
  [.submit 1 .requested false none none, .submit 2 .requested false none none,
    .submit 3 .normal false none none]

/-- Both requested posters are generated while the normal one waits. -/
def requestedGoFirst : List (Action ℕ) :=
  [.dispatch 0, .execute 0, .finish 0 (.ok ⟨"card.jpg", .derivativeGenerated, true⟩),
    .submit 4 .requested false none none, .dispatch 0]

theorem normal_job_bypassed_boundedly_of_requestedGoFirst : ∃ m m' : Manager ℕ,
    runFrom (step ⟨1, 4, 0⟩) init threeSubmitted = some m ∧
      runFrom (guarded (step ⟨1, 4, 0⟩) (waits 2)) m requestedGoFirst = some m' ∧
      m'.startedJobs ≤ m.startedJobs + 9 * (m.olderJobs 2).length + (8 - m.requestedBurst) := by
  let m : Manager ℕ := (runFrom (step ⟨1, 4, 0⟩) init threeSubmitted).get (by decide +kernel)
  let m' : Manager ℕ :=
    (runFrom (guarded (step ⟨1, 4, 0⟩) (waits 2)) m requestedGoFirst).get (by decide +kernel)
  have hm : runFrom (step ⟨1, 4, 0⟩) init threeSubmitted = some m := (Option.some_get _).symm
  have hm' : runFrom (guarded (step ⟨1, 4, 0⟩) (waits 2)) m requestedGoFirst = some m' :=
    (Option.some_get _).symm
  exact ⟨m, m', hm, hm', normal_job_bypassed_boundedly (reach_of_runFrom hm)
    (reach_of_guarded (reach_of_runFrom hm')) (by decide +kernel)⟩

end Locked

end Manager

end PosterDerivatives
