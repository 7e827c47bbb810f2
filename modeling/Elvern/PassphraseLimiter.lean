/-
The limiter of backup passphrases (`recovery_security_service.py`).

A request for a checkpoint asks `enforce` before it tries the passphrase, and afterwards `record`s a
wrong one or `clear`s the failures.  What happens between the two calls is open: other requests,
with other sessions and checkpoints, may run in between.

* `enforce`, `record`, `clear` — the functions; times are stored in whole seconds;
* `Window` — the failures that one row has counted, `Fits` and `Follows` what its settings enforce;
* `inStretch_le` — windows in a row leave at most eight failures in 899 seconds;
* `passphrase_failures_limited` — so it is for every session and checkpoint whose attempts do not
  overlap;
* `overlapping_attempts_unlimited` — attempts that do overlap are all let through.
-/
import Elvern.Runs
import Mathlib.Algebra.Order.Floor.Ring
import Mathlib.Data.Rat.Floor
import Mathlib.Tactic.Linarith

namespace PassphraseLimiter

/-- A session and a checkpoint. -/
abbrev Key := ℕ × String

/-- A row of `backup_passphrase_attempts`. -/
structure Row where
  failureCount : ℕ
  windowStartedAt : ℤ
  blockedUntil : Option ℤ

abbrev Table := Key → Option Row

/-- `BACKUP_PASSPHRASE_ATTEMPT_LIMIT` -/
def attemptLimit : ℕ := 5

/-- `BACKUP_PASSPHRASE_ATTEMPT_WINDOW_SECONDS` -/
def attemptWindowSeconds : ℚ := 15 * 60

/-- `BACKUP_PASSPHRASE_BLOCK_SECONDS` -/
def blockSeconds : ℚ := 15 * 60

/-- `_iso_at` cuts the fraction of the second off. -/
def isoAt (t : ℚ) : ℤ := ⌊t⌋

/-- `enforce_backup_passphrase_rate_limit`; `none` where it raises 429. -/
def enforce (rows : Table) (key : Key) (now : ℚ) : Option Table :=
  match rows key with
  | none => some rows
  | some row =>
    if row.blockedUntil.any fun until_ => decide (now < until_) then none
    else if attemptWindowSeconds ≤ now - row.windowStartedAt then
      some (Function.update rows key none)
    else some rows

/-- `record_backup_passphrase_failure` -/
def record (rows : Table) (key : Key) (now : ℚ) : Table :=
  let counted := (rows key).filter fun row =>
    !decide ((row.windowStartedAt : ℚ) ≤ now - attemptWindowSeconds)
  let windowStartedAt := (counted.map Row.windowStartedAt).getD (isoAt now)
  let failureCount := (counted.map Row.failureCount).getD 0 + 1
  let blockedUntil := if attemptLimit ≤ failureCount then
    some (isoAt (now + blockSeconds)) else none
  Function.update rows key (some { failureCount, windowStartedAt, blockedUntil })

/-- `clear_backup_passphrase_failures` -/
def clear (rows : Table) (key : Key) : Table := Function.update rows key none

/-- What became of an attempt. -/
inductive Outcome where
  | wrong
  | right
  | broken

/-- The failures that a row has counted: the first one, and the others, the newest first. -/
structure Window where
  opened : ℚ
  others : List ℚ

/-- All failures of a window. -/
def Window.failures (w : Window) : List ℚ := w.others ++ [w.opened]

/-- The table, the attempts under way, the time, and the failures since the last right passphrase,
by windows, which are not in the code. -/
structure State where
  rows : Table
  underWay : Key → ℕ
  clock : ℚ
  windows : Key → List Window

def State.init (now : ℚ) : State where
  rows := fun _ => none
  underWay := fun _ => 0
  clock := now
  windows := fun _ => []

/-- A request asks whether it may try, or tells what became of it. -/
inductive Action where
  | ask (key : Key) (now : ℚ)
  | tell (key : Key) (now : ℚ) (outcome : Outcome)

/-- The windows after a wrong passphrase. -/
def fail (rows : Table) (key : Key) (now : ℚ) (ws : List Window) : List Window :=
  match rows key, ws with
  | some row, w :: rest =>
    if (row.windowStartedAt : ℚ) ≤ now - attemptWindowSeconds then ⟨now, []⟩ :: w :: rest
    else { w with others := now :: w.others } :: rest
  | _, ws => ⟨now, []⟩ :: ws

/-- One step; time does not run backwards. -/
def State.step (s : State) : Action → Option State
  | .ask key now =>
    if now < s.clock then none
    else
      match enforce s.rows key now with
      | none => some { s with clock := now }
      | some rows =>
        some { s with
          rows
          clock := now
          underWay := Function.update s.underWay key (s.underWay key + 1) }
  | .tell key now outcome =>
    if now < s.clock ∨ s.underWay key = 0 then none
    else
      let s := { s with
        clock := now
        underWay := Function.update s.underWay key (s.underWay key - 1) }
      match outcome with
      | .wrong => some { s with
          rows := record s.rows key now
          windows := Function.update s.windows key (fail s.rows key now (s.windows key)) }
      | .right => some { s with
          rows := clear s.rows key
          windows := Function.update s.windows key [] }
      | .broken => some s

/-- The failures with a key since the last right passphrase. -/
def State.failures (s : State) (key : Key) : List ℚ := (s.windows key).flatMap Window.failures

/-- No second attempt with a key while one is under way. -/
def apart (s : State) : Action → Bool
  | .ask key _ => s.underWay key == 0
  | .tell _ _ _ => true

/-! ### Windows in a row -/

/-- A window has at most five failures. -/
structure Window.Fits (w : Window) : Prop where
  length : w.others.length + 1 ≤ attemptLimit
  after : ∀ t ∈ w.others, w.opened ≤ t

/-- The window `w` came after `w'`. -/
structure Window.Follows (w w' : Window) : Prop where
  opened : w'.opened + 899 < w.opened
  others : ∀ t ∈ w'.others, t ≤ w.opened
  full : w'.others.length + 1 = attemptLimit → ∀ t ∈ w'.others, t + 899 < w.opened

/-- The failures in the 899 seconds before `t`. -/
def inStretch (t : ℚ) (failures : List ℚ) : List ℚ :=
  failures.filter fun f => decide (t - 899 ≤ f ∧ f ≤ t)

theorem inStretch_eq_nil {t : ℚ} {failures : List ℚ} (h : ∀ f ∈ failures, f < t - 899) :
    inStretch t failures = [] := by
  refine List.filter_eq_nil_iff.mpr fun f hf => ?_
  have hlt := h f hf
  simp only [decide_eq_true_eq, not_and]
  intro hle
  exact absurd hle (not_le.mpr hlt)

theorem inStretch_append (t : ℚ) (l l' : List ℚ) :
    inStretch t (l ++ l') = inStretch t l ++ inStretch t l' :=
  List.filter_append ..

theorem length_inStretch_le (t : ℚ) (l : List ℚ) : (inStretch t l).length ≤ l.length :=
  List.length_filter_le ..

theorem mem_failures {w : Window} {f : ℚ} : f ∈ w.failures ↔ f ∈ w.others ∨ f = w.opened := by
  rw [Window.failures, List.mem_append, List.mem_singleton]

theorem length_failures (w : Window) : w.failures.length = w.others.length + 1 := by
  rw [Window.failures, List.length_append, List.length_singleton]

/-- Older windows are over before a window opens. -/
theorem older_le {w : Window} {ws : List Window} (hfollows : ∀ w' ∈ ws, w.Follows w') :
    ∀ f ∈ ws.flatMap Window.failures, f ≤ w.opened := by
  intro f hf
  obtain ⟨w', hw', hf⟩ := List.mem_flatMap.mp hf
  have hw := hfollows w' hw'
  rcases mem_failures.mp hf with hf | rfl
  · exact hw.others f hf
  · have hopened := hw.opened
    linarith

/-- Windows in a row leave at most eight failures in a stretch of 899 seconds. -/
theorem inStretch_le (t : ℚ) {ws : List Window} (hfits : ∀ w ∈ ws, w.Fits)
    (hpairs : ws.Pairwise Window.Follows) :
    (inStretch t (ws.flatMap Window.failures)).length ≤ 8 := by
  induction ws with
  | nil => exact Nat.zero_le _
  | cons w ws ih =>
    obtain ⟨hfollows, hpairs⟩ := List.pairwise_cons.mp hpairs
    have hrest := ih (fun w' hw' => hfits w' (List.mem_cons_of_mem _ hw')) hpairs
    have hwFits := hfits w List.mem_cons_self
    have hw : (inStretch t w.failures).length ≤ 5 := by
      refine (length_inStretch_le t _).trans ?_
      rw [length_failures]
      exact hwFits.length
    rw [List.flatMap_cons, inStretch_append, List.length_append]
    by_cases hold : w.opened < t - 899
    · -- The window opened before the stretch, so that the older ones are over.
      rw [inStretch_eq_nil fun f hf => lt_of_le_of_lt (older_le hfollows f hf) hold,
        List.length_nil]
      omega
    by_cases hlate : t < w.opened
    · -- The window opens after the stretch.
      have hnone : inStretch t w.failures = [] := by
        refine List.filter_eq_nil_iff.mpr fun f hf => ?_
        have hle : w.opened ≤ f := by
          rcases mem_failures.mp hf with hf | rfl
          · exact hwFits.after f hf
          · exact le_rfl
        simp only [decide_eq_true_eq, not_and, not_le]
        intro _
        linarith
      rw [hnone, List.length_nil]
      omega
    cases ws with
    | nil =>
      show (inStretch t w.failures).length + 0 ≤ 8
      omega
    | cons w' ws =>
      -- The window before it opened before the stretch, and those before that one are over.
      have hfollows' := hfollows w' List.mem_cons_self
      have hopened := hfollows'.opened
      have hopened' : w'.opened < t - 899 := by linarith [not_lt.mp hlate]
      have holder : inStretch t (ws.flatMap Window.failures) = [] :=
        inStretch_eq_nil fun f hf =>
          lt_of_le_of_lt (older_le (List.pairwise_cons.mp hpairs).1 f hf) hopened'
      have hfirst : inStretch t [w'.opened] = [] :=
        inStretch_eq_nil fun f hf => by rwa [List.mem_singleton.mp hf]
      have hothers : (inStretch t w'.others).length ≤ 3 := by
        have hlength := (hfits w' (List.mem_cons_of_mem _ List.mem_cons_self)).length
        by_cases hfull : w'.others.length + 1 = attemptLimit
        · rw [inStretch_eq_nil fun f hf => ?_, List.length_nil]
          · omega
          · have hlast := hfollows'.full hfull f hf
            linarith [not_lt.mp hlate]
        · refine (length_inStretch_le t _).trans ?_
          have hlimit : attemptLimit = 5 := rfl
          omega
      have hw' : (inStretch t w'.failures).length ≤ 3 := by
        rw [Window.failures, inStretch_append, hfirst, List.append_nil]
        exact hothers
      rw [List.flatMap_cons, inStretch_append, holder, List.append_nil]
      omega

/-! ### The windows that the table enforces -/

/-- A window that the next failure does not belong to any more. -/
structure Window.Over (w : Window) (now : ℚ) : Prop where
  opened : w.opened + 899 < now
  full : w.others.length + 1 = attemptLimit → ∀ t ∈ w.others, t + 899 < now

/-- The row of a window. -/
structure Counts (row : Row) (w : Window) : Prop where
  count : row.failureCount = w.others.length + 1
  started : row.windowStartedAt = isoAt w.opened
  free : w.others.length + 1 < attemptLimit → row.blockedUntil = none
  blocked : w.others.length + 1 = attemptLimit → ∃ until_ : ℤ, row.blockedUntil = some until_ ∧
    isoAt (w.opened + blockSeconds) ≤ until_ ∧ ∀ t ∈ w.others, t + 899 < until_

/-- What the table knows about the windows of a key. -/
def Knows (row : Option Row) (ws : List Window) (now : ℚ) : Prop :=
  match row with
  | none => ∀ w ∈ ws, w.Over now
  | some row => ∃ w rest, ws = w :: rest ∧ Counts row w

structure KeyInv (row : Option Row) (underWay : ℕ) (ws : List Window) (clock : ℚ) : Prop where
  fits : ∀ w ∈ ws, w.Fits
  pairs : ws.Pairwise Window.Follows
  past : ∀ w ∈ ws, ∀ t ∈ w.failures, t ≤ clock
  knows : Knows row ws clock
  alone : underWay ≤ 1
  admitted : 0 < underWay → ∀ r w rest, row = some r → ws = w :: rest →
    w.others.length + 1 < attemptLimit

variable {row : Option Row} {n : ℕ} {ws : List Window} {clock now : ℚ} {w : Window}

theorem isoAt_le (t : ℚ) : (isoAt t : ℚ) ≤ t := Int.floor_le t

theorem lt_isoAt_add_one (t : ℚ) : t < isoAt t + 1 := Int.lt_floor_add_one t

theorem Window.Over.later (h : w.Over clock) (hle : clock ≤ now) : w.Over now where
  opened := lt_of_lt_of_le h.opened hle
  full hfull t ht := lt_of_lt_of_le (h.full hfull t ht) hle

theorem KeyInv.later (h : KeyInv row n ws clock) (hle : clock ≤ now) : KeyInv row n ws now where
  fits := h.fits
  pairs := h.pairs
  past w hw t ht := (h.past w hw t ht).trans hle
  knows := by
    have hknows := h.knows
    unfold Knows at hknows ⊢
    cases row with
    | none => exact fun w hw => (hknows w hw).later hle
    | some row => exact hknows
  alone := h.alone
  admitted := h.admitted

/-- Windows before the newest one are over when it is. -/
theorem over_of_head {rest : List Window} (hpairs : (w :: rest).Pairwise Window.Follows)
    (hover : w.Over now) :
    ∀ w' ∈ w :: rest, w'.Over now := by
  intro w' hw'
  rcases List.mem_cons.mp hw' with rfl | hw'
  · exact hover
  have hfollows := (List.pairwise_cons.mp hpairs).1 w' hw'
  have hlt := hover.opened
  refine ⟨by linarith [hfollows.opened], fun hfull t ht => ?_⟩
  linarith [hfollows.full hfull t ht]

/-- A failure opens a new window. -/
theorem KeyInv.open (h : KeyInv row n ws now) (hover : ∀ w ∈ ws, w.Over now) {r : Row}
    (hcounts : Counts r ⟨now, []⟩) : KeyInv (some r) (n - 1) (⟨now, []⟩ :: ws) now where
  fits w hw := by
    rcases List.mem_cons.mp hw with rfl | hw
    · exact ⟨show 0 + 1 ≤ 5 by omega, fun t ht => by cases ht⟩
    · exact h.fits w hw
  pairs := by
    refine List.pairwise_cons.mpr ⟨fun w hw => ⟨(hover w hw).opened, fun t ht => ?_,
      (hover w hw).full⟩, h.pairs⟩
    exact h.past w hw t (mem_failures.mpr (.inl ht))
  past w hw t ht := by
    rcases List.mem_cons.mp hw with rfl | hw
    · exact (List.mem_singleton.mp ht).le
    · exact h.past w hw t ht
  knows := ⟨_, _, rfl, hcounts⟩
  alone := by have halone := h.alone; omega
  admitted hunder := by have halone := h.alone; omega

/-- A failure is counted in the window of its row. -/
theorem KeyInv.count {rest : List Window} (h : KeyInv row n (w :: rest) now)
    (hroom : w.others.length + 1 < attemptLimit) {r : Row}
    (hcounts : Counts r { w with others := now :: w.others }) :
    KeyInv (some r) (n - 1) ({ w with others := now :: w.others } :: rest) now where
  fits w' hw' := by
    rcases List.mem_cons.mp hw' with rfl | hw'
    · refine ⟨hroom, fun t ht => ?_⟩
      have hw := h.fits w List.mem_cons_self
      rcases List.mem_cons.mp ht with rfl | ht
      · exact h.past w List.mem_cons_self _ (mem_failures.mpr (.inr rfl))
      · exact hw.after t ht
    · exact h.fits w' (List.mem_cons_of_mem _ hw')
  pairs := by
    obtain ⟨hfollows, hpairs⟩ := List.pairwise_cons.mp h.pairs
    refine List.pairwise_cons.mpr ⟨fun w' hw' => ?_, hpairs⟩
    exact ⟨(hfollows w' hw').opened, (hfollows w' hw').others, (hfollows w' hw').full⟩
  past w' hw' t ht := by
    rcases List.mem_cons.mp hw' with rfl | hw'
    · rcases mem_failures.mp ht with ht | rfl
      · rcases List.mem_cons.mp ht with rfl | ht
        · exact le_rfl
        · exact h.past w List.mem_cons_self t (mem_failures.mpr (.inl ht))
      · exact h.past w List.mem_cons_self _ (mem_failures.mpr (.inr rfl))
    · exact h.past w' (List.mem_cons_of_mem _ hw') t ht
  knows := ⟨_, _, rfl, hcounts⟩
  alone := by have halone := h.alone; omega
  admitted hunder := by have halone := h.alone; omega

/-- A window whose start is fifteen minutes old is over, if its row has room. -/
theorem over_of_started {r : Row} (hcounts : Counts r w)
    (hroom : w.others.length + 1 < attemptLimit)
    (hold : (r.windowStartedAt : ℚ) ≤ now - attemptWindowSeconds) : w.Over now := by
  rw [hcounts.started] at hold
  have hopened := lt_isoAt_add_one w.opened
  have hwindow : attemptWindowSeconds = 900 := by norm_num [attemptWindowSeconds]
  rw [hwindow] at hold
  refine ⟨by linarith, fun hfull => ?_⟩
  omega

/-- The row of a window that has just opened. -/
theorem counts_opened (now : ℚ) :
    Counts { failureCount := 1, windowStartedAt := isoAt now, blockedUntil := none } ⟨now, []⟩ where
  count := rfl
  started := rfl
  free _ := rfl
  blocked hfull := by cases hfull

variable {rows rows' : Table} {key : Key}

/-- `record` counts the failure in the window that is open, or opens one. -/
theorem keyInv_record (h : KeyInv (rows key) n ws now) (hn : 0 < n) :
    KeyInv (record rows key now key) (n - 1) (fail rows key now ws) now := by
  unfold record fail
  rw [Function.update_self]
  have hknows := h.knows
  have hadmitted := h.admitted hn
  cases hrow : rows key with
  | none =>
    rw [hrow] at h hknows
    exact h.open hknows (counts_opened now)
  | some r =>
    rw [hrow] at h hknows hadmitted
    obtain ⟨w, rest, rfl, hcounts⟩ := hknows
    have hroom := hadmitted r w rest rfl rfl
    by_cases hold : (r.windowStartedAt : ℚ) ≤ now - attemptWindowSeconds
    · have hfilter : (some r).filter (fun row =>
        !decide ((row.windowStartedAt : ℚ) ≤ now - attemptWindowSeconds)) =
          none := by simp [Option.filter, hold]
      rw [hfilter]
      dsimp only
      rw [if_pos hold]
      exact h.open (over_of_head h.pairs (over_of_started hcounts hroom hold)) (counts_opened now)
    · have hfilter : (some r).filter (fun row =>
        !decide ((row.windowStartedAt : ℚ) ≤ now - attemptWindowSeconds)) =
          some r := by simp [Option.filter, hold]
      rw [hfilter]
      dsimp only [Option.map_some, Option.getD_some]
      rw [if_neg hold]
      refine h.count hroom ⟨?_, hcounts.started, fun hfree => ?_, fun hfull => ?_⟩
      · exact congrArg (· + 1) hcounts.count
      · refine if_neg ?_
        rw [hcounts.count, not_le]
        exact hfree
      · refine ⟨isoAt (now + blockSeconds), if_pos ?_, ?_, fun t ht => ?_⟩
        · rw [hcounts.count]
          exact hfull.ge
        · have hopened := h.past w List.mem_cons_self w.opened (mem_failures.mpr (.inr rfl))
          exact Int.floor_le_floor (by linarith)
        · have hpast : t ≤ now := by
            rcases List.mem_cons.mp ht with rfl | ht
            · exact le_rfl
            · exact h.past w List.mem_cons_self t (mem_failures.mpr (.inl ht))
          have hfloor := lt_isoAt_add_one (now + blockSeconds)
          have hblock : blockSeconds = 900 := by norm_num [blockSeconds]
          rw [hblock] at hfloor ⊢
          linarith

/-- `enforce` lets an attempt through where the row has room, or deletes a row whose window and
block are over. -/
theorem enforce_cases (h : enforce rows key now = some rows') :
    (rows' = rows ∧ ∀ r, rows key = some r → now - r.windowStartedAt < attemptWindowSeconds ∧
        ∀ until_, r.blockedUntil = some until_ → (until_ : ℚ) ≤ now) ∨
      (rows' = Function.update rows key none ∧ ∃ r, rows key = some r ∧
        attemptWindowSeconds ≤ now - r.windowStartedAt ∧
          ∀ until_, r.blockedUntil = some until_ → (until_ : ℚ) ≤ now) := by
  unfold enforce at h
  split at h
  · next hnone =>
    cases h
    exact .inl ⟨rfl, fun r hr => by rw [hnone] at hr; cases hr⟩
  next r hr =>
  split at h
  · cases h
  next hfree =>
  have huntil : ∀ until_, r.blockedUntil = some until_ → (until_ : ℚ) ≤ now := by
    intro until_ heq
    rw [heq] at hfree
    simpa using hfree
  split at h
  · next hold =>
    cases h
    exact .inr ⟨rfl, r, hr, hold, huntil⟩
  · next hnew =>
    cases h
    refine .inl ⟨rfl, fun r' hr' => ?_⟩
    cases hr.symm.trans hr'
    exact ⟨not_le.mp hnew, huntil⟩

/-- An attempt that is let through. -/
theorem keyInv_enforce (h : KeyInv (rows key) 0 ws now)
    (henforce : enforce rows key now = some rows') : KeyInv (rows' key) 1 ws now := by
  have hwindow : attemptWindowSeconds = 900 := by norm_num [attemptWindowSeconds]
  have hblock : blockSeconds = 900 := by norm_num [blockSeconds]
  rcases enforce_cases henforce with ⟨rfl, hopen⟩ | ⟨rfl, r, hr, hold, huntil⟩
  · refine ⟨h.fits, h.pairs, h.past, h.knows, le_rfl, fun _ r w rest hr hws => ?_⟩
    obtain ⟨hnew, huntil⟩ := hopen r hr
    by_contra hfull
    have hknows := h.knows
    rw [hr, hws] at hknows
    obtain ⟨w', rest', heq, hcounts⟩ := hknows
    obtain ⟨rfl, rfl⟩ := List.cons.inj heq
    -- A block that is over ends after its window, so that the row would have been deleted.
    have hfits := (h.fits w (hws ▸ List.mem_cons_self)).length
    obtain ⟨until_, hblocked, hlate, -⟩ := hcounts.blocked (by omega)
    have hpassed := huntil until_ hblocked
    have hfloor : isoAt w.opened + 900 ≤ isoAt (w.opened + blockSeconds) := by
      refine Int.le_floor.mpr ?_
      rw [hblock]
      push_cast
      linarith [isoAt_le w.opened]
    have hcast : (isoAt w.opened : ℚ) + 900 ≤ until_ := by exact_mod_cast hfloor.trans hlate
    rw [hcounts.started, hwindow] at hnew
    linarith
  · rw [Function.update_self]
    refine ⟨h.fits, h.pairs, h.past, ?_, le_rfl, fun _ r w rest hnone => by cases hnone⟩
    have hknows := h.knows
    rw [hr] at hknows
    obtain ⟨w, rest, rfl, hcounts⟩ := hknows
    refine over_of_head h.pairs ⟨?_, fun hfull t ht => ?_⟩
    · rw [hcounts.started, hwindow] at hold
      linarith [lt_isoAt_add_one w.opened]
    · obtain ⟨until_, hblocked, -, hlast⟩ := hcounts.blocked hfull
      exact lt_of_lt_of_le (hlast t ht) (huntil until_ hblocked)

/-! ### Every run -/

def Inv (s : State) : Prop := ∀ key, KeyInv (s.rows key) (s.underWay key) (s.windows key) s.clock

variable {s s' : State}

theorem keyInv_init (now : ℚ) : KeyInv none 0 [] now where
  fits _ hw := by cases hw
  pairs := List.Pairwise.nil
  past _ hw := by cases hw
  knows _ hw := by cases hw
  alone := Nat.zero_le _
  admitted hunder := by cases hunder

/-- What a call does to the rows of other keys. -/
theorem enforce_other {other : Key} (h : enforce rows key now = some rows') (hne : other ≠ key) :
    rows' other = rows other := by
  rcases enforce_cases h with ⟨rfl, -⟩ | ⟨rfl, -⟩
  · rfl
  · exact Function.update_of_ne hne ..

theorem Inv.ask (h : Inv s) (hapart : s.underWay key = 0)
    (hst : s.step (.ask key now) = some s') : Inv s' := by
  rw [State.step] at hst
  split at hst
  · cases hst
  next htime =>
  split at hst
  · cases hst
    exact fun other => (h other).later (not_lt.mp htime)
  next rows' henforce =>
  cases hst
  intro other
  show KeyInv (rows' other) (Function.update s.underWay key (s.underWay key + 1) other)
    (s.windows other) now
  by_cases hne : other = key
  · subst hne
    have hkey := (h other).later (not_lt.mp htime)
    rw [hapart] at hkey
    rw [Function.update_self, hapart]
    exact keyInv_enforce hkey henforce
  · rw [Function.update_of_ne hne, enforce_other henforce hne]
    exact (h other).later (not_lt.mp htime)

theorem Inv.tell (h : Inv s) {outcome : Outcome}
    (hst : s.step (.tell key now outcome) = some s') : Inv s' := by
  rw [State.step] at hst
  split at hst
  · cases hst
  next htime =>
  rw [not_or, not_lt] at htime
  have hpositive : 0 < s.underWay key := Nat.pos_of_ne_zero htime.2
  have hkey := (h key).later htime.1
  have halone : s.underWay key - 1 = 0 := by have hle := hkey.alone; omega
  intro other
  have hother := (h other).later htime.1
  cases outcome with
  | wrong =>
    cases hst
    show KeyInv (record s.rows key now other) (Function.update s.underWay key _ other)
      (Function.update s.windows key _ other) now
    by_cases hne : other = key
    · subst hne
      rw [Function.update_self, Function.update_self]
      exact keyInv_record hkey hpositive
    · rw [Function.update_of_ne hne, Function.update_of_ne hne, record, Function.update_of_ne hne]
      exact hother
  | right =>
    cases hst
    show KeyInv (clear s.rows key other) (Function.update s.underWay key _ other)
      (Function.update s.windows key _ other) now
    by_cases hne : other = key
    · subst hne
      rw [Function.update_self, Function.update_self, clear, Function.update_self, halone]
      exact keyInv_init now
    · rw [Function.update_of_ne hne, Function.update_of_ne hne, clear, Function.update_of_ne hne]
      exact hother
  | broken =>
    cases hst
    show KeyInv (s.rows other) (Function.update s.underWay key _ other) (s.windows other) now
    by_cases hne : other = key
    · subst hne
      rw [Function.update_self, halone]
      exact { hkey with alone := Nat.zero_le _, admitted := fun hunder => by cases hunder }
    · rw [Function.update_of_ne hne]
      exact hother

theorem inv_of_reach {start : ℚ}
    (h : Runs.Reach State.step (fun s a => apart s a = true) (State.init start) s) : Inv s := by
  refine h.invariant (fun _ => keyInv_init start) fun s a s' _ hs hok hst => ?_
  cases a with
  | ask key now => exact hs.ask (beq_iff_eq.mp hok) hst
  | tell key now outcome => exact hs.tell hst

/-- **At most eight wrong passphrases in 899 seconds.**  In every run in which no session tries a
checkpoint twice at the same time, whatever the other sessions do, any stretch of 899 seconds has at
most eight failures of a session with a checkpoint since its last right passphrase. -/
theorem passphrase_failures_limited {start : ℚ}
    (h : Runs.Reach State.step (fun s a => apart s a = true) (State.init start) s)
    (key : Key) (t : ℚ) : (inStretch t (s.failures key)).length ≤ 8 :=
  inStretch_le t (inv_of_reach h key).fits (inv_of_reach h key).pairs

/-- An attempt with a wrong passphrase. -/
def wrongAttempt (now : ℚ) : List Action :=
  [.ask (1, "checkpoint") now, .tell (1, "checkpoint") now .wrong]

/-- One failure, three more shortly before its window is over, and five in the next one. -/
def eightFailures : List Action :=
  [0, 897, 898, 899, 901, 902, 903, 904, 905].flatMap wrongAttempt ++ [.ask (1, "checkpoint") 906]

theorem passphrase_failures_limited_of_eightFailures :
    ∃ s, Runs.runFrom (Runs.guarded State.step apart) (State.init 0) eightFailures = some s ∧
      (inStretch 1000 (s.failures (1, "checkpoint"))).length = 8 ∧
      ∀ t, (inStretch t (s.failures (1, "checkpoint"))).length ≤ 8 := by
  have hrun : ((Runs.runFrom (Runs.guarded State.step apart) (State.init 0)
      eightFailures).any fun s =>
      decide ((inStretch 1000 (s.failures (1, "checkpoint"))).length = 8)) = true := by
    decide +kernel
  obtain ⟨s, hs, height⟩ := (Option.any_eq_true _ _).mp hrun
  exact ⟨s, hs, of_decide_eq_true height,
    passphrase_failures_limited (Runs.reach_of_guarded (Runs.reach_of_runFrom hs)) _⟩

/-- Nine attempts ask before one of them tells. -/
theorem overlapping_attempts_unlimited :
    ∃ s, Runs.Reach State.step (fun _ _ => True) (State.init 0) s ∧
      (inStretch 0 (s.failures (1, "checkpoint"))).length = 9 := by
  have hrun : ((Runs.runFrom State.step (State.init 0)
      (List.replicate 9 (.ask (1, "checkpoint") 0) ++
          List.replicate 9 (.tell (1, "checkpoint") 0 .wrong))).any fun s =>
        decide ((inStretch 0 (s.failures (1, "checkpoint"))).length = 9)) = true := by
    decide +kernel
  obtain ⟨s, hs, hnine⟩ := (Option.any_eq_true _ _).mp hrun
  exact ⟨s, Runs.reach_of_runFrom hs, of_decide_eq_true hnine⟩

end PassphraseLimiter
