/-
What the lease keeps of the backup jobs.

* `JobOk` — a job with a lease is not over, its checkpoint file is where its thread left it,
  and nobody cleans up after it;
* `Tidy` — what a thread leaves behind, phase by phase;
* `backup_jobs_kept` — at most one lease, terminal states that stay, completion under the
  lease, and no artifacts of a failed or interrupted job, in runs whose steps keep the
  conditions of `Job.Keeps`;
* `interrupted_job_runs_on` — a job that was taken over writes its progress over the
  terminal state.
-/
import Mathlib.Data.List.Basic
import Mathlib.Tactic.Common
import Elvern.BackupJobs

open Runs

namespace BackupJobs

/-- A job, where `holds` says that it has a lease and `cleaning` that another manager cleans up
after it. -/
structure JobOk (holds cleaning : Bool) (job : Job) : Prop where
  live : holds = true → job.state.terminal = true → job.phase = .finishing ∨ job.phase = .ended
  cleaning : cleaning = true → holds = false
  file : holds = true →
    job.phase = .written ∨ job.phase = .returned ∨ job.phase = .recorded ∨ job.phase = .cataloged →
    job.checkpointFile = true
  row : job.phase = .cataloged → job.catalogRow = true
  write : (∀ s, job.write = some (.progress s) → job.phase = .building ∨ job.phase = .written) ∧
    (job.write = some .stagingPath → job.phase = .remembered) ∧
    (job.write = some .backupPath → job.phase = .returned)

/-- What the thread of a job leaves behind. -/
def Tidy (job : Job) : Prop :=
  match job.phase with
  | .starting | .working =>
    job.stagingDirectory = false ∧ job.checkpointFile = false ∧ job.catalogRow = false
  | .staged | .remembered | .building => job.checkpointFile = false ∧ job.catalogRow = false
  | .written => job.catalogRow = false
  | .returned => job.stagingDirectory = false ∧ job.catalogRow = false
  | .recorded => job.stagingDirectory = false ∧ job.backupPath = true ∧ job.catalogRow = false
  | .cataloged => job.stagingDirectory = false
  | .committed => job.stagingDirectory = false ∧ job.state = .completed
  | .failing _ =>
    job.stagingDirectory = false ∧ (job.state = .completed ∨
      job.catalogRow = false ∧ (job.checkpointFile = false ∨ job.backupPath = true))
  | .cleaned _ | .finishing | .ended =>
    job.stagingDirectory = false ∧ (job.state = .completed ∨
      job.catalogRow = false ∧ job.checkpointFile = false)

/-- The steps that keep what the lease is for: progress and failure are not written over a
terminal state; the making of the staging directory does not raise; from the checkpoint file to
the recording of its path nothing raises and no assertion fails; nor does anything raise, or the
lease end, between the catalog row and the completion; and the cleanup of a recorded checkpoint
file does not raise. -/
structure Job.Keeps (owned : Bool) (job : Job) (act : Act) : Prop where
  progress : ∀ s, job.write = some (.progress s) → act = .proceed → job.state.terminal = false
  failure : job.phase = .cleaned false → act = .proceed → job.state.terminal = false
  staging : job.phase = .staged → act ≠ .raise
  file : job.phase = .written ∨ job.phase = .returned → act ≠ .raise
  path : job.phase = .returned ∨ (job.phase = .written ∧ act ≠ .proceed) → job.write = none →
    (owned && !job.lost) = true
  completion : job.phase = .cataloged → act ≠ .raise ∧ owned = true
  cleanup : ∀ lost, job.phase = .failing lost → job.removable = true → act ≠ .raise

section Steps

variable {job job' : Job} {owned holds holds' cleaning released : Bool} {act : Act}

/-- An exception keeps the job with its lease. -/
theorem JobOk.fail (h : JobOk holds cleaning job) (hle : holds' = true → holds = true)
    (hcleaning : cleaning = true → holds' = false) (lost : Bool)
    (hfinishing : job.phase ≠ .finishing)
    (hended : job.phase ≠ .ended) : JobOk holds' cleaning (job.fail lost) where
  live hholds hterminal := by
    rcases h.live (hle hholds) hterminal with hp | hp
    · exact absurd hp hfinishing
    · exact absurd hp hended
  cleaning := hcleaning
  file _ hphase := by simp [Job.fail] at hphase
  row hphase := by simp [Job.fail] at hphase
  write := by simp [Job.fail]

/-- A step of the thread keeps the job with its lease. -/
theorem JobOk.step (h : JobOk holds cleaning job) (hst : job.step owned act = some (job', released))
    (hle : holds' = true → holds = true)
    (hreleased : released = true → owned = true → holds' = false) :
    JobOk holds' cleaning job' := by
  have hcleaning : cleaning = true → holds' = false := by
    intro hc
    by_contra hh
    rw [Bool.not_eq_false] at hh
    exact Bool.false_ne_true ((h.cleaning hc).symm.trans (hle hh))
  have hfail := h.fail hle hcleaning
  obtain ⟨hlive, -, hfile, hrow, hwrite⟩ := h
  rcases job with ⟨owner, state, sp, bp, row, sd, cf, phase, write, lost⟩
  cases write with
  | some w =>
    cases act with
    | progress s => cases hst
    | raise =>
      -- a write belongs to a phase that is neither finishing nor ended
      cases hst
      refine hfail _ ?_ ?_ <;> intro hp <;> subst hp <;> cases w <;> simp_all
    | proceed =>
      cases hst
      cases w <;> refine ⟨?_, hcleaning, ?_, ?_, ?_⟩ <;>
        simp_all [Job.applyWrite, JobState.terminal]
  | none =>
    cases act with
    | progress s =>
      cases phase <;> simp only [Job.step, reduceCtorEq] at hst
      all_goals
        cases hst
        rw [Job.assertThen]
        split
        · refine ⟨?_, hcleaning, ?_, ?_, ?_⟩ <;> simp_all
        · exact hfail _ (fun hp => by cases hp) (fun hp => by cases hp)
    | raise =>
      cases phase <;> cases hst
      all_goals first
        | exact hfail _ (fun hp => by cases hp) (fun hp => by cases hp)
        | refine ⟨?_, hcleaning, ?_, ?_, ?_⟩ <;> simp_all
    | proceed =>
      cases phase with
      | starting =>
        simp only [Job.step] at hst
        cases hst
        split
        · refine ⟨?_, hcleaning, ?_, ?_, ?_⟩ <;> simp_all
        · exact hfail _ (fun hp => by cases hp) (fun hp => by cases hp)
      | recorded =>
        simp only [Job.step] at hst
        cases hst
        split
        · refine ⟨?_, hcleaning, ?_, ?_, ?_⟩ <;> simp_all
        · exact hfail _ (fun hp => by cases hp) (fun hp => by cases hp)
      | remembered =>
        cases hst
        rw [Job.assertThen]
        split
        · refine ⟨?_, hcleaning, ?_, ?_, ?_⟩ <;> simp_all
        · exact hfail _ (fun hp => by cases hp) (fun hp => by cases hp)
      | returned =>
        cases hst
        rw [Job.assertThen]
        split
        · refine ⟨?_, hcleaning, ?_, ?_, ?_⟩ <;> simp_all
        · exact hfail _ (fun hp => by cases hp) (fun hp => by cases hp)
      | cataloged =>
        -- the completion gives the lease up
        simp only [Job.step] at hst
        split at hst
        · cases hst
          refine ⟨?_, hcleaning, ?_, ?_, ?_⟩ <;> simp_all
        · cases hst
          exact hfail _ (fun hp => by cases hp) (fun hp => by cases hp)
      | cleaned lost' =>
        cases lost' <;> cases hst <;> refine ⟨?_, hcleaning, ?_, ?_, ?_⟩ <;> simp_all
      | failing lost' =>
        cases hst
        refine ⟨?_, hcleaning, ?_, ?_, ?_⟩ <;> simp_all [Job.cleanup]
      | ended => cases hst
      | working | staged | building | written | committed | finishing =>
        cases hst
        refine ⟨?_, hcleaning, ?_, ?_, ?_⟩ <;> simp_all

/-- A step that keeps the conditions leaves the job tidy. -/
theorem Tidy.step (h : Tidy job) (hok : JobOk holds cleaning job) (hk : job.Keeps owned act)
    (hst : job.step owned act = some (job', released)) : Tidy job' := by
  obtain ⟨-, -, -, -, hwrite⟩ := hok
  obtain ⟨hprogress, hfailure, hstaging, hfile, hpath, hcompletion, hcleanup⟩ := hk
  rcases job with ⟨owner, state, sp, bp, row, sd, cf, phase, write, lost⟩
  cases write with
  | some w =>
    cases act with
    | progress s => cases hst
    | raise =>
      cases hst
      cases w <;> cases phase <;> simp_all [Tidy, Job.fail, Job.remembers]
    | proceed =>
      cases hst
      cases w <;> cases phase <;> simp_all [Tidy, Job.applyWrite]
  | none =>
    cases act with
    | progress s =>
      cases phase <;> simp only [Job.step, reduceCtorEq] at hst
      all_goals
        cases hst
        rw [Job.assertThen]
        split <;> simp_all [Tidy, Job.fail, Job.remembers]
    | raise =>
      cases phase <;> cases hst <;> simp_all [Tidy, Job.fail, Job.remembers, Job.removable]
      -- a cleanup that raises has nothing to remove
      grind
    | proceed =>
      cases phase with
      | cleaned lost' =>
        cases lost' <;> cases hst <;> simp_all only [Tidy]
        · refine ⟨trivial, h.2.imp_left fun hs => ?_⟩
          subst hs
          exact absurd (hfailure trivial trivial) (by decide)
        · exact ⟨trivial, h.2.imp_right fun hs => ⟨trivial, hs.2⟩⟩
      | failing lost' =>
        cases hst
        simp_all only [Tidy, Job.cleanup, Job.removable]
        obtain ⟨hsd, hs | ⟨hrow, hcf | hbp⟩⟩ := h
        · exact ⟨by simp, Or.inl hs⟩
        · exact ⟨by simp, Or.inr ⟨hrow, by simp [hcf]⟩⟩
        · exact ⟨by simp, Or.inr ⟨hrow, by simp [hbp, hrow]⟩⟩
      | starting | recorded | cataloged =>
        simp only [Job.step] at hst
        cases owned <;> cases lost <;> cases hst <;> simp_all [Tidy, Job.fail, Job.remembers]
      | remembered | returned =>
        cases hst
        rw [Job.assertThen]
        split <;> simp_all [Tidy, Job.fail, Job.remembers]
      | ended => cases hst
      | working | staged | building | written | committed | finishing =>
        cases hst
        simp_all [Tidy]

/-- The state of a job after a step of its thread: the stage of a progress write, a failure, the
completion under the lease, or the state before. -/
theorem Job.step_state (hst : job.step owned act = some (job', released)) :
    job'.state = job.state ∨
      (∃ s, job.write = some (.progress s) ∧ act = .proceed ∧ job'.state = .stage s) ∨
      (job.phase = .cleaned false ∧ act = .proceed ∧ job'.state = .failed) ∨
      (job.phase = .cataloged ∧ owned = true ∧
        job' = { job with phase := .committed, state := .completed }) := by
  rcases job with ⟨owner, state, sp, bp, row, sd, cf, phase, write, lost⟩
  cases write with
  | some w =>
    cases act with
    | progress s => cases hst
    | raise =>
      cases hst
      exact Or.inl rfl
    | proceed =>
      cases hst
      cases w with
      | progress s => exact Or.inr (Or.inl ⟨s, rfl, rfl, rfl⟩)
      | stagingPath => exact Or.inl rfl
      | backupPath => exact Or.inl rfl
  | none =>
    cases act with
    | progress s =>
      cases phase <;> simp only [Job.step, reduceCtorEq] at hst
      all_goals
        cases hst
        rw [Job.assertThen]
        split <;> exact Or.inl rfl
    | raise => cases phase <;> cases hst <;> exact Or.inl rfl
    | proceed =>
      cases phase with
      | cleaned lost' =>
        cases lost' <;> cases hst
        · exact Or.inr (Or.inr (Or.inl ⟨rfl, rfl, rfl⟩))
        · exact Or.inl rfl
      | cataloged =>
        simp only [Job.step] at hst
        split at hst
        · next howned =>
          cases hst
          exact Or.inr (Or.inr (Or.inr ⟨rfl, howned, rfl⟩))
        · cases hst
          exact Or.inl rfl
      | starting | recorded =>
        simp only [Job.step] at hst
        cases hst
        split <;> exact Or.inl rfl
      | remembered | returned =>
        cases hst
        rw [Job.assertThen]
        split <;> exact Or.inl rfl
      | ended => cases hst
      | working | staged | building | written | committed | finishing | failing _ =>
        cases hst
        exact Or.inl rfl

/-- A terminal state stays, and a job completes only with its lease, file and catalog row. -/
theorem JobOk.step_terminal (h : JobOk holds cleaning job) (hk : job.Keeps owned act)
    (howned : owned = true → holds = true) (hst : job.step owned act = some (job', released)) :
    (job.state.terminal = true → job'.state = job.state) ∧
      (job.state ≠ .completed → job'.state = .completed →
        owned = true ∧ job'.checkpointFile = true ∧ job'.catalogRow = true) := by
  rcases Job.step_state hst with heq | ⟨s, hw, rfl, heq⟩ | ⟨hp, rfl, heq⟩ | ⟨hp, ho, rfl⟩
  · exact ⟨fun _ => heq, fun hne hc => absurd (heq.symm.trans hc) hne⟩
  · refine ⟨fun ht => ?_, fun _ hc => ?_⟩
    · exact absurd ht (by rw [hk.progress s hw rfl]; decide)
    · rw [heq] at hc
      cases hc
  · refine ⟨fun ht => ?_, fun _ hc => ?_⟩
    · exact absurd ht (by rw [hk.failure hp rfl]; decide)
    · rw [heq] at hc
      cases hc
  · refine ⟨fun ht => ?_, fun _ _ => ⟨ho, h.file (howned ho) (by simp [hp]), h.row hp⟩⟩
    rcases h.live (howned ho) ht with hp' | hp'
    · rw [hp] at hp'
      cases hp'
    · rw [hp] at hp'
      cases hp'

/-- Without a lease a job needs less. -/
theorem JobOk.weaken {holds holds' cleaning cleaning' : Bool} {job : Job}
    (h : JobOk holds cleaning job) (hle : holds' = true → holds = true)
    (hcleaning : cleaning' = true → holds' = false) : JobOk holds' cleaning' job :=
  ⟨fun hh => h.live (hle hh), hcleaning, fun hh => h.file (hle hh), h.row, h.write⟩

/-- An interrupted job is tidy: its state was not `completed`. -/
theorem Tidy.interrupt {job : Job} (h : Tidy job) : Tidy job.interrupt := by
  rw [Job.interrupt]
  split
  · exact h
  · next hactive =>
    have hne : job.state ≠ .completed := by
      intro hc
      rw [hc] at hactive
      exact hactive rfl
    rcases job with ⟨owner, state, sp, bp, row, sd, cf, phase, write, lost⟩
    cases phase <;> simp_all [Tidy]

end Steps

/-! ### The jobs together -/

namespace World

/-- The job has a lease row. -/
def holds (w : World) (j : ℕ) : Bool := w.leases.any (·.job = j)

/-- Somebody cleans up after the job. -/
def cleaning (w : World) (j : ℕ) : Bool := w.cleanups.any (·.job = j)

/-- The step of a thread keeps the conditions. -/
def Keeps (w : World) : Action → Prop
  | .run j act => ∀ job, w.jobs j = some job → job.Keeps (w.owned job.owner j) act
  | _ => True

/-- At most one lease; the jobs are numbered; each is in order. -/
structure Sound (w : World) : Prop where
  single : w.leases.length ≤ 1
  leases : ∀ lease ∈ w.leases, lease.job < w.count
  cleanups : ∀ cleanup ∈ w.cleanups, cleanup.job < w.count
  jobs : ∀ j, w.count ≤ j → w.jobs j = none
  ok : ∀ j job, w.jobs j = some job → JobOk (w.holds j) (w.cleaning j) job ∧ Tidy job

variable {w w' : World}

theorem holds_eq_false {j : ℕ} : w.holds j = false ↔ ∀ lease ∈ w.leases, lease.job ≠ j := by
  rw [holds, List.any_eq_false]
  refine forall_congr' fun lease => forall_congr' fun _ => ?_
  rw [decide_eq_true_eq]

theorem holds_of_owned {owner j : ℕ} (h : w.owned owner j = true) : w.holds j = true := by
  obtain ⟨lease, hlease, hof⟩ := List.any_eq_true.1 h
  rw [Bool.and_eq_true, Lease.isOf, Bool.and_eq_true] at hof
  exact List.any_eq_true.2 ⟨lease, hlease, hof.1.2⟩

theorem Sound.empty : Sound .empty where
  single := Nat.zero_le _
  leases _ h := by cases h
  cleanups _ h := by cases h
  jobs _ _ := rfl
  ok _ _ h := by cases h

/-- Leases and cleanups may go, or change in what they say about their jobs. -/
theorem Sound.shrink (h : Sound w) (clock : ℕ) {leases : List Lease} {cleanups : List Cleanup}
    (hsingle : leases.length ≤ 1)
    (hleases : ∀ lease ∈ leases, ∃ lease' ∈ w.leases, lease'.job = lease.job)
    (hcleanups : ∀ cleanup ∈ cleanups, ∃ cleanup' ∈ w.cleanups, cleanup'.job = cleanup.job) :
    Sound ⟨clock, leases, w.count, w.jobs, cleanups⟩ := by
  refine ⟨hsingle, fun lease hl => ?_, fun c hc => ?_, h.jobs, fun k job hk => ?_⟩
  · obtain ⟨lease', hl', heq⟩ := hleases lease hl
    exact heq ▸ h.leases lease' hl'
  · obtain ⟨c', hc', heq⟩ := hcleanups c hc
    exact heq ▸ h.cleanups c' hc'
  · obtain ⟨hok, htidy⟩ := h.ok k job hk
    have hle : leases.any (·.job = k) = true → w.holds k = true := by
      intro hany
      obtain ⟨lease, hl, hjob⟩ := List.any_eq_true.1 hany
      obtain ⟨lease', hl', heq⟩ := hleases lease hl
      exact List.any_eq_true.2 ⟨lease', hl', by rw [heq]; exact hjob⟩
    refine ⟨hok.weaken hle fun hc => ?_, htidy⟩
    obtain ⟨c, hc, hjob⟩ := List.any_eq_true.1 hc
    obtain ⟨c', hc', heq⟩ := hcleanups c hc
    have hnone := hok.cleaning (List.any_eq_true.2 ⟨c', hc', by rw [heq]; exact hjob⟩)
    by_contra hh
    rw [Bool.not_eq_false] at hh
    exact Bool.false_ne_true (hnone.symm.trans (hle hh))

/-- One job changes. -/
theorem Sound.setJob (h : Sound w) {j : ℕ} {job' : Job} (hj : j < w.count)
    (hok : JobOk (w.holds j) (w.cleaning j) job') (htidy : Tidy job') :
    Sound (w.setJob j job') := by
  refine ⟨h.single, h.leases, h.cleanups, fun k hk => ?_, fun k job hk => ?_⟩
  · have hne : k ≠ j := by
      rintro rfl
      exact absurd hj (Nat.not_lt.2 hk)
    exact (Function.update_of_ne hne _ _).trans (h.jobs k hk)
  · change Function.update w.jobs j (some job') k = some job at hk
    by_cases hkj : k = j
    · subst hkj
      rw [Function.update_self] at hk
      cases hk
      exact ⟨hok, htidy⟩
    · rw [Function.update_of_ne hkj] at hk
      exact h.ok k job hk

theorem Sound.lt (h : Sound w) {j : ℕ} {job : Job} (hj : w.jobs j = some job) : j < w.count := by
  by_contra hge
  have hnone := h.jobs j (Nat.not_lt.1 hge)
  rw [hj] at hnone
  cases hnone

/-- The stale job is interrupted when no lease is left. -/
theorem Sound.interruptStale (h : Sound w) {j : ℕ} (hj : j < w.count) :
    Sound { w.interruptStale j with leases := [] } := by
  have hrest : Sound ⟨w.clock, [], w.count, w.jobs, w.cleanups ++ [⟨j, none⟩]⟩ := by
    refine ⟨Nat.zero_le _, fun _ hl => (List.not_mem_nil hl).elim, fun c hc => ?_, h.jobs,
      fun k job hk => ?_⟩
    · rcases List.mem_append.1 hc with hc | hc
      · exact h.cleanups c hc
      · rw [List.mem_singleton.1 hc]
        exact hj
    · obtain ⟨hok, htidy⟩ := h.ok k job hk
      exact ⟨hok.weaken (fun hh => by cases hh) fun _ => rfl, htidy⟩
  rw [World.interruptStale]
  cases hjob : w.jobs j with
  | none => exact hrest
  | some job =>
    obtain ⟨hok, htidy⟩ := h.ok j job hjob
    refine Sound.setJob hrest hj ?_ htidy.interrupt
    have hphase : job.interrupt.phase = job.phase ∧ job.interrupt.write = job.write ∧
        job.interrupt.catalogRow = job.catalogRow := by
      rw [Job.interrupt]
      split <;> exact ⟨rfl, rfl, rfl⟩
    obtain ⟨hp, hw, hr⟩ := hphase
    refine ⟨fun hh => (Bool.false_ne_true hh).elim, fun _ => rfl,
      fun hh => (Bool.false_ne_true hh).elim, ?_, ?_⟩
    · rw [hp, hr]
      exact hok.row
    · rw [hp, hw]
      exact hok.write

theorem Sound.insertJob (h : Sound w) (hnone : w.leases = []) (owner : ℕ) :
    Sound (w.insertJob owner) := by
  have hleases : (w.insertJob owner).leases = [⟨owner, w.count, w.clock + leaseSeconds⟩] := by
    rw [World.insertJob, hnone]
    rfl
  refine ⟨by rw [hleases]; exact Nat.le_refl _, fun lease hl => ?_,
    fun c hc => Nat.lt_succ_of_lt (h.cleanups c hc), fun k hk => ?_, fun k job hk => ?_⟩
  · rw [hleases] at hl
    rw [List.mem_singleton.1 hl]
    exact Nat.lt_succ_self _
  · exact (Function.update_of_ne (Nat.ne_of_gt hk) _ _).trans (h.jobs k (Nat.le_of_succ_le hk))
  · change Function.update w.jobs w.count (some (.queued owner)) k = some job at hk
    by_cases hkc : k = w.count
    · subst hkc
      rw [Function.update_self] at hk
      cases hk
      refine ⟨⟨fun _ ht => (Bool.false_ne_true ht).elim, fun hc => ?_, fun _ hp => ?_,
        fun hp => by simp [Job.queued] at hp, ?_⟩, rfl, rfl, rfl⟩
      · obtain ⟨c, hc, hjob⟩ := List.any_eq_true.1 hc
        have hlt := h.cleanups c hc
        rw [decide_eq_true_eq] at hjob
        exact absurd hlt (by rw [hjob]; exact Nat.lt_irrefl _)
      · simp [Job.queued] at hp
      · simp [Job.queued]
    · rw [Function.update_of_ne hkc] at hk
      obtain ⟨hok, htidy⟩ := h.ok k job hk
      have hholds : (w.insertJob owner).holds k = false := by
        rw [holds_eq_false, hleases]
        intro lease hl
        rw [List.mem_singleton.1 hl]
        exact fun heq => hkc heq.symm
      exact ⟨hok.weaken (fun hh => by rw [hholds] at hh; cases hh) fun _ => hholds, htidy⟩

/-- `start_job`: a lease that has expired and its job are gone before there is a new one. -/
theorem Sound.startJob (h : Sound w) (owner : ℕ) : Sound (w.startJob owner) := by
  rw [World.startJob]
  cases hhead : w.leases.head? with
  | some lease =>
    dsimp only
    split
    · exact h
    · have hlt := h.leases lease (List.mem_of_mem_head? hhead)
      exact (h.interruptStale hlt).insertJob rfl owner
  | none =>
    have hnone : w.leases = [] := List.head?_eq_none_iff.1 hhead
    dsimp only
    split
    · next j hj =>
      have hlt : j < w.count := by
        have hmem := List.mem_of_find?_eq_some hj
        exact List.mem_range.1 (List.mem_reverse.1 hmem)
      have hsame : { w.interruptStale j with leases := [] } = w.interruptStale j := by
        rw [World.interruptStale]
        cases w.jobs j <;> simp [World.setJob, hnone]
      have hstale := h.interruptStale hlt
      rw [hsame] at hstale
      refine hstale.insertJob ?_ owner
      rw [← hsame]
    · exact h.insertJob hnone owner

theorem Sound.activeJob (h : Sound w) : Sound w.activeJob := by
  rw [World.activeJob]
  cases hhead : w.leases.head? with
  | some lease =>
    dsimp only
    split
    · exact h
    · exact h.interruptStale (h.leases lease (List.mem_of_mem_head? hhead))
  | none => exact h

theorem Sound.heartbeat (h : Sound w) {j now : ℕ} {job : Job} (hj : w.jobs j = some job) :
    Sound (w.heartbeat j now job) := by
  rw [World.heartbeat]
  split
  · refine h.shrink w.clock (by rw [List.length_map]; exact h.single) (fun lease hl => ?_)
      fun c hc => ⟨c, hc, rfl⟩
    obtain ⟨lease', hl', rfl⟩ := List.mem_map.1 hl
    refine ⟨lease', hl', ?_⟩
    split <;> rfl
  · obtain ⟨hok, htidy⟩ := h.ok j job hj
    exact h.setJob (h.lt hj) ⟨hok.live, hok.cleaning, hok.file, hok.row, hok.write⟩ htidy

/-- The deletions of another manager's cleanup. -/
theorem Sound.removeArtifacts (h : Sound w) {k j : ℕ} {staging backup : Bool} {job : Job}
    (hk : w.cleanups[k]? = some ⟨j, some (staging, backup)⟩) (hj : w.jobs j = some job) :
    Sound { w.setJob j (job.cleanup staging backup) with cleanups := w.cleanups.eraseIdx k } := by
  obtain ⟨hok, htidy⟩ := h.ok j job hj
  have hcleaning : w.cleaning j = true :=
    List.any_eq_true.2 ⟨_, List.mem_of_getElem? hk, decide_eq_true rfl⟩
  have hnone : w.holds j = false := hok.cleaning hcleaning
  have hsmaller : Sound ⟨w.clock, w.leases, w.count, w.jobs, w.cleanups.eraseIdx k⟩ :=
    h.shrink w.clock h.single (fun l hl => ⟨l, hl, rfl⟩)
      fun c hc => ⟨c, List.mem_of_mem_eraseIdx hc, rfl⟩
  refine Sound.setJob hsmaller (h.lt hj) ?_ ?_
  · have hfalse : ∀ {P : Prop}, w.holds j = true → P := by
      intro P hh
      exact absurd (hnone.symm.trans hh) Bool.false_ne_true
    exact ⟨fun hh => hfalse hh, fun _ => hnone, fun hh => hfalse hh, hok.row, hok.write⟩
  · -- deletions leave a tidy job tidy
    rcases job with ⟨owner, state, sp, bp, row, sd, cf, phase, write, lost⟩
    cases phase <;> simp_all [Tidy, Job.cleanup] <;> grind

theorem Sound.run (h : Sound w) {j : ℕ} {job job' : Job} {act : Act} {released : Bool}
    (hj : w.jobs j = some job) (hk : job.Keeps (w.owned job.owner j) act)
    (hst : job.step (w.owned job.owner j) act = some (job', released)) :
    Sound (if released then (w.setJob j job').releaseLease job.owner j else w.setJob j job') := by
  obtain ⟨hok, htidy⟩ := h.ok j job hj
  have htidy' : Tidy job' := htidy.step hok hk hst
  split
  next hreleased =>
    have hrest : Sound (w.releaseLease job.owner j) :=
      h.shrink w.clock (Nat.le_trans (List.length_filter_le ..) h.single)
        (fun l hl => ⟨l, List.mem_of_mem_filter hl, rfl⟩) fun c hc => ⟨c, hc, rfl⟩
    refine hrest.setJob (h.lt hj) (hok.step hst ?_ fun _ howned => ?_) htidy'
    · intro hh
      obtain ⟨lease, hl, hjob⟩ := List.any_eq_true.1 hh
      exact List.any_eq_true.2 ⟨lease, List.mem_of_mem_filter hl, hjob⟩
    · -- the only lease is the job's own
      obtain ⟨lease, hl, hof⟩ := List.any_eq_true.1 howned
      rw [Bool.and_eq_true] at hof
      rw [holds_eq_false]
      intro lease' hl' _
      obtain ⟨hl', hnot⟩ := List.mem_filter.1 hl'
      have hsame : lease' = lease := by
        have hsingle := h.single
        match hleases : w.leases, hl, hl' with
        | [l], hl, hl' =>
          rw [List.mem_singleton.1 hl, List.mem_singleton.1 hl']
        | l :: l' :: rest, _, _ =>
          rw [hleases] at hsingle
          simp at hsingle
      rw [hsame, hof.1] at hnot
      cases hnot
  next hreleased =>
    exact h.setJob (h.lt hj) (hok.step hst (fun hh => hh) fun hr => absurd hr hreleased) htidy'

theorem Sound.step (h : Sound w) {action : Action} (hk : w.Keeps action)
    (hst : w.step action = some w') : Sound w' := by
  cases action with
  | tick =>
    cases hst
    exact h.shrink _ h.single (fun l hl => ⟨l, hl, rfl⟩) fun c hc => ⟨c, hc, rfl⟩
  | startJob owner =>
    cases hst
    exact h.startJob owner
  | activeJob =>
    cases hst
    exact h.activeJob
  | readArtifacts k =>
    rw [World.step] at hst
    split at hst
    · cases hst
    · next cleanup hget =>
      obtain ⟨job, hj, rfl⟩ := Option.map_eq_some_iff.1 hst
      refine h.shrink w.clock h.single (fun l hl => ⟨l, hl, rfl⟩) fun c hc => ?_
      rcases List.mem_or_eq_of_mem_set hc with hc | rfl
      · exact ⟨c, hc, rfl⟩
      · exact ⟨cleanup, List.mem_of_getElem? hget, rfl⟩
  | removeArtifacts k =>
    rw [World.step] at hst
    split at hst
    · next j staging backup hget =>
      obtain ⟨job, hj, rfl⟩ := Option.map_eq_some_iff.1 hst
      exact h.removeArtifacts hget hj
    · cases hst
  | heartbeat j now =>
    rw [World.step] at hst
    split at hst
    · obtain ⟨job, hj, rfl⟩ := Option.map_eq_some_iff.1 hst
      exact h.heartbeat hj
    · cases hst
  | run j act =>
    rw [World.step] at hst
    split at hst
    · cases hst
    · next job hj =>
      obtain ⟨⟨job', released⟩, hstep, rfl⟩ := Option.map_eq_some_iff.1 hst
      exact h.run hj (hk job hj) hstep

/-! ### The state of a job -/

/-- A job whose state stays, or which is interrupted before it is over. -/
def Quiet (job job' : Job) : Prop :=
  job'.state = job.state ∨ (job.state.terminal = false ∧ job'.state = .interrupted)

theorem interrupt_quiet (job : Job) : Quiet job job.interrupt := by
  rw [Job.interrupt]
  split
  · exact Or.inl rfl
  · next hactive => exact Or.inr ⟨by simpa using hactive, rfl⟩

theorem interruptStale_quiet {i j : ℕ} {job : Job} (hj : w.jobs j = some job) :
    ∃ job', (w.interruptStale i).jobs j = some job' ∧ Quiet job job' := by
  rw [interruptStale]
  by_cases hij : j = i
  · subst hij
    rw [hj]
    exact ⟨job.interrupt, Function.update_self .., interrupt_quiet job⟩
  · cases w.jobs i with
    | none => exact ⟨job, hj, Or.inl rfl⟩
    | some stale => exact ⟨job, (Function.update_of_ne hij _ _).trans hj, Or.inl rfl⟩

theorem insertJob_jobs {j owner : ℕ} (hj : j < w.count) :
    (w.insertJob owner).jobs j = w.jobs j :=
  Function.update_of_ne (Nat.ne_of_lt hj) _ _

theorem interruptStale_count {i : ℕ} : (w.interruptStale i).count = w.count := by
  rw [interruptStale]
  split <;> rfl

/-- No step but that of its own thread changes a job, except for an interruption. -/
theorem Sound.step_quiet (h : Sound w) {action : Action} (hst : w.step action = some w') {j : ℕ}
    {job : Job} (hj : w.jobs j = some job) :
    (∃ job', w'.jobs j = some job' ∧ Quiet job job') ∨
      ∃ act job' released, action = .run j act ∧ w'.jobs j = some job' ∧
        job.step (w.owned job.owner j) act = some (job', released) := by
  have hlt := h.lt hj
  have hset : ∀ {i : ℕ} {old new : Job}, w.jobs i = some old → new.state = old.state →
      ∃ job', Function.update w.jobs i (some new) j = some job' ∧ Quiet job job' := by
    intro i old new hi hstate
    by_cases hij : j = i
    · subst hij
      rw [hj] at hi
      cases hi
      exact ⟨new, Function.update_self .., Or.inl hstate⟩
    · exact ⟨job, (Function.update_of_ne hij _ _).trans hj, Or.inl rfl⟩
  have hsame : w'.jobs = w.jobs → ∃ job', w'.jobs j = some job' ∧ Quiet job job' :=
    fun heq => ⟨job, heq ▸ hj, Or.inl rfl⟩
  cases action with
  | tick =>
    cases hst
    exact Or.inl (hsame rfl)
  | startJob owner =>
    cases hst
    rw [World.startJob]
    -- the new job has an id that no other has
    have hinsert : ∀ i : ℕ, ∃ job',
        ((w.interruptStale i).insertJob owner).jobs j = some job' ∧ Quiet job job' := by
      intro i
      rw [insertJob_jobs (by rw [interruptStale_count]; exact hlt)]
      exact interruptStale_quiet hj
    refine Or.inl ?_
    split
    · split
      · exact ⟨job, hj, Or.inl rfl⟩
      · exact hinsert _
    · split
      · exact hinsert _
      · exact ⟨job, (insertJob_jobs hlt).trans hj, Or.inl rfl⟩
  | activeJob =>
    cases hst
    rw [World.activeJob]
    refine Or.inl ?_
    split
    · split
      · exact ⟨job, hj, Or.inl rfl⟩
      · exact interruptStale_quiet hj
    · exact ⟨job, hj, Or.inl rfl⟩
  | readArtifacts k =>
    rw [World.step] at hst
    split at hst
    · cases hst
    · obtain ⟨job₁, -, rfl⟩ := Option.map_eq_some_iff.1 hst
      exact Or.inl (hsame rfl)
  | removeArtifacts k =>
    rw [World.step] at hst
    split at hst
    · obtain ⟨job₁, hj₁, rfl⟩ := Option.map_eq_some_iff.1 hst
      exact Or.inl (hset hj₁ rfl)
    · cases hst
  | heartbeat i now =>
    rw [World.step] at hst
    split at hst
    · obtain ⟨job₁, hj₁, rfl⟩ := Option.map_eq_some_iff.1 hst
      rw [World.heartbeat]
      split
      · exact Or.inl ⟨job, hj, Or.inl rfl⟩
      · exact Or.inl (hset hj₁ rfl)
    · cases hst
  | run i act =>
    rw [World.step] at hst
    split at hst
    · cases hst
    · next job₁ hj₁ =>
      obtain ⟨⟨job', released⟩, hstep, rfl⟩ := Option.map_eq_some_iff.1 hst
      have hjobs : (if released then (w.setJob i job').releaseLease job₁.owner i
          else w.setJob i job').jobs = Function.update w.jobs i (some job') := by
        split <;> rfl
      -- only a step of the job itself is more than quiet
      by_cases hij : j = i
      · subst hij
        rw [hj] at hj₁
        cases hj₁
        exact Or.inr ⟨act, job', released, rfl, by rw [hjobs, Function.update_self], hstep⟩
      · exact Or.inl ⟨job, by rw [hjobs, Function.update_of_ne hij]; exact hj, Or.inl rfl⟩

end World

/-- In every state of a run whose steps keep the conditions there is at most one lease, and a job
that has failed or was interrupted leaves no catalog row, no staging directory and no checkpoint
file once its thread has ended; and a further step changes no terminal state, and completes only
a job that owns a lease which has not expired, and that has its checkpoint file and its catalog
row. -/
theorem backup_jobs_kept (w : World) (hw : Reach World.step World.Keeps .empty w) :
    w.leases.length ≤ 1 ∧
    (∀ j job, w.jobs j = some job → job.phase = .ended →
      job.state = .failed ∨ job.state = .interrupted →
      job.catalogRow = false ∧ job.stagingDirectory = false ∧ job.checkpointFile = false) ∧
    ∀ action w', w.Keeps action → w.step action = some w' → ∀ j job, w.jobs j = some job →
      ∃ job', w'.jobs j = some job' ∧
        (job.state.terminal = true → job'.state = job.state) ∧
        (job.state ≠ .completed → job'.state = .completed →
          w.owned job.owner j = true ∧ job'.checkpointFile = true ∧ job'.catalogRow = true) := by
  have hsound : w.Sound := by
    refine Reach.invariant (P := World.Sound) .empty ?_ hw
    exact fun w action w' _ h hk hst => h.step hk hst
  refine ⟨hsound.single, fun j job hj hended hstate => ?_, fun action w' hk hst j job hj => ?_⟩
  · have htidy := (hsound.ok j job hj).2
    rw [Tidy, hended] at htidy
    obtain ⟨hstaging, hcompleted | ⟨hrow, hfile⟩⟩ := htidy
    · rcases hstate with hs | hs
      · cases hs.symm.trans hcompleted
      · cases hs.symm.trans hcompleted
    · exact ⟨hrow, hstaging, hfile⟩
  · rcases hsound.step_quiet hst hj with ⟨job', hj', hquiet⟩ | ⟨act, job', released,
      rfl, hj', hstep⟩
    · refine ⟨job', hj', fun ht => ?_, fun hne hc => ?_⟩
      · rcases hquiet with heq | ⟨hactive, -⟩
        · exact heq
        · rw [ht] at hactive
          cases hactive
      · rcases hquiet with heq | ⟨-, heq⟩
        · exact absurd (heq.symm.trans hc) hne
        · rw [hc] at heq
          cases heq
    · exact ⟨job', hj', (hsound.ok j job hj).1.step_terminal (hk job hj) World.holds_of_owned hstep⟩

/-- A job is started, its lease runs out, and `active_job` interrupts it. -/
def expired : List Action :=
  .startJob 0 :: List.replicate 45 .tick ++ [.activeJob, .readArtifacts 0, .removeArtifacts 0]

theorem backup_jobs_kept_expired :
    ∃ w, Reach World.step World.Keeps .empty w ∧
      (w.jobs 0).map Job.state = some .interrupted ∧ w.leases.length ≤ 1 := by
  have hrun : (runFrom World.step .empty expired).map (fun w => (w.jobs 0).map Job.state) =
      some (some .interrupted) := by decide +kernel
  obtain ⟨w, hw, hstate⟩ := Option.map_eq_some_iff.1 hrun
  have hreach : Reach World.step World.Keeps .empty w := by
    refine reach_of_runFrom_of (fun action hmem w => ?_) hw
    cases action with
    | run j act => simp [expired] at hmem
    | tick | startJob _ | activeJob | readArtifacts _ | removeArtifacts _ | heartbeat _ _ => trivial
  exact ⟨w, hreach, hstate, (backup_jobs_kept w hreach).1⟩

/-- A job asserts its lease for a progress write; the lease runs out, and another manager takes
over. -/
def takenOver : List Action :=
  [.startJob 0, .run 0 .proceed, .run 0 .proceed, .run 0 .proceed, .run 0 .proceed,
    .run 0 .proceed, .run 0 (.progress .encrypting)] ++ List.replicate 45 .tick ++ [.startJob 1]

/-- The job writes its stage over `interrupted`. -/
theorem interrupted_job_runs_on :
    ∃ w w', runFrom World.step .empty takenOver = some w ∧
      (w.jobs 0).map Job.state = some .interrupted ∧ w.step (.run 0 .proceed) = some w' ∧
      (w'.jobs 0).map Job.state = some (.stage .encrypting) := by
  have hrun : (runFrom World.step .empty takenOver).bind (fun w =>
      (w.step (.run 0 .proceed)).map fun w' =>
        ((w.jobs 0).map Job.state, (w'.jobs 0).map Job.state)) =
      some (some .interrupted, some (.stage .encrypting)) := by decide +kernel
  obtain ⟨w, hw, hstep⟩ := Option.bind_eq_some_iff.1 hrun
  obtain ⟨w', hw', hstates⟩ := Option.map_eq_some_iff.1 hstep
  obtain ⟨hbefore, hafter⟩ := Prod.mk.inj hstates
  exact ⟨w, w', hw, hbefore, hw', hafter⟩

end BackupJobs
