/-
The watch time of interleaved saves.

`save_progress` computes the new total from the row that its `SELECT` found outside the transaction
that writes it, so two calls that overlap lose watched seconds of the total that the log of watch
events keeps.

* `saveTransaction_total`, `saveTransaction_watched` — what one transaction does to the total and
  to the log;
* `watch_time_kept` — in every run of calls in which each transaction still finds the total that its
  call has read, the total of every row is the sum of its watch events, and never decreases;
* `watch_time_lost` — two first saves of an item that overlap.
-/
import Mathlib.Tactic.Linarith
import Elvern.ProgressTracking
import Elvern.Runs

namespace Progress

/-! ### Rounding -/

theorem roundHalfEven_intCast (n : ℤ) : roundHalfEven n = n := by
  rw [roundHalfEven, Int.floor_intCast, sub_self, if_pos (by norm_num)]

theorem roundHalfEven_nonneg {x : ℚ} (h : 0 ≤ x) : 0 ≤ roundHalfEven x := by
  have hfloor : 0 ≤ ⌊x⌋ := Int.floor_nonneg.mpr h
  rw [roundHalfEven]
  split
  · exact hfloor
  · split
    · omega
    · split <;> omega

theorem round2_nonneg {x : ℚ} (h : 0 ≤ x) : 0 ≤ round2 x := by
  have hround : 0 ≤ roundHalfEven (100 * x) := roundHalfEven_nonneg (by linarith)
  have hcast : (0 : ℚ) ≤ roundHalfEven (100 * x) := by exact_mod_cast hround
  exact div_nonneg hcast (by norm_num)

/-- A number of seconds with two digits. -/
def Cents (x : ℚ) : Prop := ∃ n : ℤ, x = n / 100

theorem cents_round2 (x : ℚ) : Cents (round2 x) := ⟨_, rfl⟩

theorem cents_zero : Cents 0 := ⟨0, by norm_num⟩

theorem Cents.add {x y : ℚ} (hx : Cents x) (hy : Cents y) : Cents (x + y) := by
  obtain ⟨m, rfl⟩ := hx
  obtain ⟨n, rfl⟩ := hy
  exact ⟨m + n, by push_cast; ring⟩

/-- Rounding leaves two digits alone. -/
theorem Cents.round2 {x : ℚ} (hx : Cents x) : round2 x = x := by
  obtain ⟨n, rfl⟩ := hx
  rw [Progress.round2, show (100 : ℚ) * (n / 100) = (n : ℤ) by ring, roundHalfEven_intCast]

namespace SaveCall

variable (call : SaveCall) (existing : Option ProgressRow)

theorem watchSecondsIncrement_cents : Cents (call.watchSecondsIncrement existing) := by
  rw [watchSecondsIncrement.eq_def]
  split
  · exact cents_zero
  · split
    · split
      · exact cents_zero
      · exact cents_round2 _
    · dsimp only
      split
      · exact cents_zero
      · exact cents_round2 _

theorem watchSecondsIncrement_nonneg : 0 ≤ call.watchSecondsIncrement existing := by
  rw [watchSecondsIncrement.eq_def]
  split
  · exact le_refl 0
  · split
    · split
      · exact le_refl 0
      · next hpos =>
        refine round2_nonneg (le_min (le_of_lt (not_le.mp hpos)) ?_)
        norm_num [firstProgressSampleCapSeconds]
    · dsimp only
      split
      · exact le_refl 0
      · exact round2_nonneg (le_max_right _ _)

end SaveCall

namespace Tables

/-- `watch_seconds_total` of a row, zero where there is none. -/
def watchTotal (db : Tables) (user item : ℕ) : ℚ :=
  ((db.progress user item).map ProgressRow.watchSecondsTotal).getD 0

variable (db : Tables) (call : SaveCall) (existing : Option ProgressRow) {user item : ℕ}

/-- The row after a transaction. -/
theorem saveTransaction_progress :
    (db.saveTransaction call existing).progress call.userId call.mediaItemId = some
      { positionSeconds := call.storedPosition
        durationSeconds := (call.storedDuration existing).or
          ((db.existingRow call).bind ProgressRow.durationSeconds)
        watchSecondsTotal := call.watchSecondsTotal existing
        completed := call.isCompleted
        updatedAt := call.now } := by
  simp only [saveTransaction, setProgress]
  split <;> exact if_pos ⟨rfl, rfl⟩

/-- The other rows. -/
theorem saveTransaction_progress_ne (hne : ¬ (user = call.userId ∧ item = call.mediaItemId)) :
    (db.saveTransaction call existing).progress user item = db.progress user item := by
  simp only [saveTransaction, setProgress]
  split <;> exact if_neg hne

theorem saveTransaction_total :
    (db.saveTransaction call existing).watchTotal call.userId call.mediaItemId =
      call.watchSecondsTotal existing := by
  rw [watchTotal, saveTransaction_progress]
  rfl

theorem saveTransaction_total_ne (hne : ¬ (user = call.userId ∧ item = call.mediaItemId)) :
    (db.saveTransaction call existing).watchTotal user item = db.watchTotal user item := by
  rw [watchTotal, saveTransaction_progress_ne db call existing hne, watchTotal]

/-- The log gains the increment. -/
theorem saveTransaction_watched :
    (db.saveTransaction call existing).watchedSeconds user item = db.watchedSeconds user item +
      if user = call.userId ∧ item = call.mediaItemId then call.watchSecondsIncrement existing
      else 0 := by
  simp only [saveTransaction, setProgress, watchedSeconds, watchEventsOf]
  split
  · next hpos =>
    rw [List.filter_append, List.map_append, List.sum_append]
    by_cases h : user = call.userId ∧ item = call.mediaItemId
    · simp [h]
    · have hno : ¬ (call.userId = user ∧ call.mediaItemId = item) :=
        fun hc => h ⟨hc.1.symm, hc.2.symm⟩
      simp [h, hno]
  · next hzero =>
    have h0 : call.watchSecondsIncrement existing = 0 :=
      le_antisymm (not_lt.mp hzero) (call.watchSecondsIncrement_nonneg existing)
    rw [h0, ite_self, add_zero]

end Tables

end Progress

open Progress

namespace WatchTime

/-- Every total is the sum of the watch events, in two digits. -/
structure Balanced (db : Tables) : Prop where
  total : ∀ user item, db.watchTotal user item = db.watchedSeconds user item
  cents : ∀ user item, Cents (db.watchTotal user item)

/-- Where a call stands: before its `SELECT`, before its transaction, or at its end. -/
inductive Phase where
  | reading (call : SaveCall)
  | writing (call : SaveCall) (existing : Option ProgressRow)
  | done

/-- The committed tables and the calls. -/
structure State where
  db : Tables
  phase : ℕ → Phase

/-- All calls before their `SELECT`. -/
def start (db : Tables) (calls : ℕ → SaveCall) : State := ⟨db, fun i => .reading (calls i)⟩

/-- A call reads the committed state, commits its writes, or is lost. -/
inductive Action where
  | read (i : ℕ)
  | write (i : ℕ)
  | lose (i : ℕ)

def step (s : State) : Action → Option State
  | .read i =>
    match s.phase i with
    | .reading call =>
      some { s with phase := Function.update s.phase i (.writing call (s.db.existingRow call)) }
    | _ => none
  | .write i =>
    match s.phase i with
    | .writing call existing =>
      some ⟨s.db.saveTransaction call existing, Function.update s.phase i .done⟩
    | _ => none
  | .lose i => some { s with phase := Function.update s.phase i .done }

/-- The condition on a step: a transaction still finds the total that its call has read. -/
def fresh (s : State) : Action → Bool
  | .write i =>
    match s.phase i with
    | .writing call existing => decide ((existing.map ProgressRow.watchSecondsTotal).getD 0 =
        s.db.watchTotal call.userId call.mediaItemId)
    | _ => true
  | _ => true

/-- The total of the row grows by what is logged. -/
theorem watchSecondsTotal_eq {db : Tables} (h : Balanced db) {call : SaveCall}
    {existing : Option ProgressRow} (hfresh : (existing.map ProgressRow.watchSecondsTotal).getD 0 =
      db.watchTotal call.userId call.mediaItemId) :
    call.watchSecondsTotal existing =
      db.watchTotal call.userId call.mediaItemId + call.watchSecondsIncrement existing := by
  rw [SaveCall.watchSecondsTotal, hfresh]
  exact ((h.cents _ _).add (call.watchSecondsIncrement_cents existing)).round2

/-- **A transaction keeps the balance** if it finds the total that its call has read. -/
theorem Balanced.saveTransaction {db : Tables} (h : Balanced db) {call : SaveCall}
    {existing : Option ProgressRow} (hfresh : (existing.map ProgressRow.watchSecondsTotal).getD 0 =
      db.watchTotal call.userId call.mediaItemId) : Balanced (db.saveTransaction
          call existing) := by
  have htotal := watchSecondsTotal_eq h hfresh
  refine ⟨fun user item => ?_, fun user item => ?_⟩
  · rw [db.saveTransaction_watched]
    by_cases hkey : user = call.userId ∧ item = call.mediaItemId
    · obtain ⟨rfl, rfl⟩ := hkey
      rw [db.saveTransaction_total, htotal, if_pos ⟨rfl, rfl⟩, h.total]
    · rw [db.saveTransaction_total_ne call existing hkey, if_neg hkey, add_zero, h.total]
  · by_cases hkey : user = call.userId ∧ item = call.mediaItemId
    · obtain ⟨rfl, rfl⟩ := hkey
      rw [db.saveTransaction_total]
      exact cents_round2 _
    · rw [db.saveTransaction_total_ne call existing hkey]
      exact h.cents user item

theorem Balanced.grows {db : Tables} (h : Balanced db) {call : SaveCall}
    {existing : Option ProgressRow} (hfresh : (existing.map ProgressRow.watchSecondsTotal).getD 0 =
      db.watchTotal call.userId call.mediaItemId) (user item : ℕ) :
    db.watchTotal user item ≤ (db.saveTransaction call existing).watchTotal user item := by
  by_cases hkey : user = call.userId ∧ item = call.mediaItemId
  · obtain ⟨rfl, rfl⟩ := hkey
    rw [db.saveTransaction_total, watchSecondsTotal_eq h hfresh]
    exact le_add_of_nonneg_right (call.watchSecondsIncrement_nonneg existing)
  · rw [db.saveTransaction_total_ne call existing hkey]

/-- What a step does to the tables. -/
theorem step_cases {s s' : State} {a : Action} (hst : step s a = some s') :
    s'.db = s.db ∨ ∃ i call existing, a = .write i ∧ s.phase i = .writing call existing ∧
      s'.db = s.db.saveTransaction call existing := by
  cases a with
  | read i =>
    simp only [step] at hst
    split at hst
    · cases hst
      exact .inl rfl
    · cases hst
  | write i =>
    simp only [step] at hst
    split at hst
    · next call existing hphase =>
      cases hst
      exact .inr ⟨i, call, existing, rfl, hphase, rfl⟩
    · cases hst
  | lose i =>
    cases hst
    exact .inl rfl

/-- The law of the watch time in a state that a run has reached. -/
structure Kept (s : State) : Prop where
  total : ∀ user item row, s.db.progress user item = some row →
    row.watchSecondsTotal = s.db.watchedSeconds user item
  logged : ∀ user item, s.db.progress user item = none → s.db.watchedSeconds user item = 0
  grows : ∀ a s', fresh s a = true → step s a = some s' →
    ∀ user item, s.db.watchTotal user item ≤ s'.db.watchTotal user item

/-- **Watch time is neither lost nor counted twice** in any run of calls in which each transaction
still finds the total that its call has read. -/
theorem watch_time_kept (db : Tables) (calls : ℕ → SaveCall) (hdb : Balanced db) {s : State}
    (hrun : Runs.Reach step (fun s a => fresh s a = true) (start db calls) s) : Kept s := by
  have hbalanced : Balanced s.db := by
    refine hrun.invariant (P := fun s => Balanced s.db) hdb fun s a s' _ h hok hst => ?_
    rcases step_cases hst with heq | ⟨i, call, existing, rfl, hphase, heq⟩
    · rw [heq]
      exact h
    · rw [heq]
      simp only [fresh, hphase, decide_eq_true_eq] at hok
      exact h.saveTransaction hok
  refine ⟨fun user item row hrow => ?_, fun user item hnone => ?_, fun a s' hok hst user item => ?_⟩
  · rw [← hbalanced.total, Tables.watchTotal, hrow]
    rfl
  · rw [← hbalanced.total, Tables.watchTotal, hnone]
    rfl
  · rcases step_cases hst with heq | ⟨i, call, existing, rfl, hphase, heq⟩
    · rw [Tables.watchTotal, Tables.watchTotal, heq]
    · rw [heq]
      simp only [fresh, hphase, decide_eq_true_eq] at hok
      exact hbalanced.grows hok user item

/-! ### Two players at once -/

theorem balanced_empty : Balanced .empty :=
  ⟨fun _ _ => rfl, fun _ _ => cents_zero⟩

/-- Saves of one item by one user, at ten seconds of the film and at twenty. -/
def sampleCalls (i : ℕ) : SaveCall :=
  { userId := 1, mediaItemId := 7, positionSeconds := if i = 0 then 10 else 20,
    durationSeconds := some 6000, completed := false, playbackMode := none, eventType := none,
    occurredAt := none, trackingSource := .other, countWatchIncrement := true,
    now := if i = 0 then 1000000000 else 1010000000 }

/-- One call after the other. -/
theorem watch_time_kept_serially :
    ∃ s, Runs.runFrom (Runs.guarded step fresh) (start .empty sampleCalls)
        [.read 0, .write 0, .read 1, .write 1] = some s ∧ s.db.watchTotal 1 7 = 20 ∧ Kept s := by
  have hrun : ((Runs.runFrom (Runs.guarded step fresh) (start .empty sampleCalls)
      [.read 0, .write 0, .read 1, .write 1]).any fun s => decide (s.db.watchTotal 1 7 = 20)) =
      true := by
    decide +kernel
  obtain ⟨s, hs, htotal⟩ := (Option.any_eq_true _ _).mp hrun
  exact ⟨s, hs, of_decide_eq_true htotal, watch_time_kept _ _ balanced_empty
    (Runs.reach_of_guarded (Runs.reach_of_runFrom hs))⟩

/-- Both calls read before either of them writes. -/
theorem watch_time_lost :
    ¬ ∀ (db : Tables) (calls : ℕ → SaveCall), Balanced db → ∀ s : State,
      Runs.Reach step (fun _ _ => True) (start db calls) s → Kept s := by
  intro h
  have hrun : ((Runs.runFrom step (start .empty sampleCalls)
      [.read 0, .read 1, .write 0, .write 1]).any fun s =>
        decide ((s.db.progress 1 7).map ProgressRow.watchSecondsTotal = some 10) &&
          decide (s.db.watchedSeconds 1 7 = 20)) = true := by
    decide +kernel
  obtain ⟨s, hs, hprop⟩ := (Option.any_eq_true _ _).mp hrun
  rw [Bool.and_eq_true, decide_eq_true_eq, decide_eq_true_eq] at hprop
  obtain ⟨row, hrow, hten⟩ := Option.map_eq_some_iff.mp hprop.1
  have htotal := (h _ _ balanced_empty s (Runs.reach_of_runFrom hs)).total 1 7 row hrow
  rw [hten, hprop.2] at htotal
  norm_num at htotal

end WatchTime
