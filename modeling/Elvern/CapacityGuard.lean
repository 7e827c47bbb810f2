/-
The capacity of the diagnostics store (`playback_diagnostics/capacity.py`).

Every call runs under the lock of the guard, so that a run of calls from any number of threads is a
run of calls one after the other.

* `Guard`, `CapacityReservation` — the counters, and what `reserve` hands out;
* `World.call` — one call, on the guard or on a reservation that has been handed out;
* `Accounted` — the open reservations add up to `reservedBytes`, within the hard cap;
* `capacity_accounting` — it holds in every state, and no call that raises changes the counters.
-/
import Mathlib.Algebra.BigOperators.Group.List.Basic
import Mathlib.Algebra.Order.BigOperators.Group.List
import Mathlib.Algebra.Order.Ring.Int
import Mathlib.Tactic.Common
import Elvern.Runs

open Runs

namespace Capacity

/-! ### The guard -/

/-- What a guard is built with; `__init__` refuses any other. -/
structure Limits where
  hardCapBytes : ℤ
  emergencyReserveBytes : ℤ
  minimumFreeBytes : ℤ
  emergency_pos : 0 < emergencyReserveBytes
  emergency_lt : emergencyReserveBytes < hardCapBytes

def Limits.normalBudgetBytes (limits : Limits) : ℤ :=
  limits.hardCapBytes - limits.emergencyReserveBytes

theorem Limits.normalBudgetBytes_lt (limits : Limits) :
    limits.normalBudgetBytes < limits.hardCapBytes := by
  rw [normalBudgetBytes]
  exact Int.sub_lt_self _ limits.emergency_pos

inductive CapacityState
  | filesystemLowSpace
  | capacityExhausted
  | reserve
  | capacityReached
  | normal
  deriving DecidableEq

/-- The snapshot without its time. -/
structure CapacitySnapshot where
  state : CapacityState
  usageBytes : ℤ
  normalBudgetBytes : ℤ
  emergencyReserveBytes : ℤ
  hardCapBytes : ℤ
  filesystemFreeBytes : ℤ
  minimumFreeBytes : ℤ
  reason : Option String
  deriving DecidableEq

inductive CapacityError
  | negativeReservation
  | diskUsage
  | refused (state : CapacityState)
  | reservationAlreadyClosed
  | transactionNegativeSize
  | reservationInvariantBroken
  | reservationUnderestimated
  | replacementUnderflow
  | hardCapInvariantBroken
  | deletionUnderflow
  deriving DecidableEq

inductive Operation
  | append
  | replacement
  | temporaryPeak
  deriving DecidableEq

structure CapacityReservation where
  reservedBytes : ℤ
  snapshot : CapacitySnapshot
  closed : Bool
  deriving DecidableEq

/-- A guard of the limits. -/
structure Guard (limits : Limits) where
  usageBytes : ℤ
  reservedBytes : ℤ
  lastSnapshot : Option CapacitySnapshot

namespace Guard

variable {limits : Limits} (guard : Guard limits)

/-- `refresh`, where the disk has `free` bytes. -/
def refresh (free projectedWriteBytes : ℤ) (critical : Bool) : Guard limits × CapacitySnapshot :=
  let requested := max 0 projectedWriteBytes
  let projectedUsage := guard.usageBytes + guard.reservedBytes + requested
  let (state, reason) : CapacityState × Option String :=
    if free - requested < limits.minimumFreeBytes then
      (.filesystemLowSpace, some "filesystem free space is below the diagnostics safety floor")
    else if projectedUsage > limits.hardCapBytes then
      (.capacityExhausted, some "diagnostics hard cap reached")
    else if projectedUsage > limits.normalBudgetBytes then
      (if critical then .reserve else .capacityReached, some "normal diagnostics budget reached")
    else (.normal, none)
  let snapshot : CapacitySnapshot :=
    { state := state
      usageBytes := guard.usageBytes
      normalBudgetBytes := limits.normalBudgetBytes
      emergencyReserveBytes := limits.emergencyReserveBytes
      hardCapBytes := limits.hardCapBytes
      filesystemFreeBytes := free
      minimumFreeBytes := limits.minimumFreeBytes
      reason := reason }
  ({ guard with lastSnapshot := some snapshot }, snapshot)

/-- `reserve`; `free` is `none` where the disk cannot be read. -/
def reserve (free : Option ℤ) (writeBytes : ℤ) (critical : Bool) :
    Guard limits × Except CapacityError CapacityReservation :=
  if writeBytes < 0 then (guard, .error .negativeReservation)
  else
    match free with
    | none => (guard, .error .diskUsage)
    | some free =>
      let (guard, snapshot) := guard.refresh free writeBytes critical
      if snapshot.state = .normal ∨ critical = true ∧ snapshot.state = .reserve then
        ({ guard with reservedBytes := guard.reservedBytes + writeBytes },
          .ok ⟨writeBytes, snapshot, false⟩)
      else (guard, .error (.refused snapshot.state))

/-- `_commit_reservation` -/
def commitReservation (reserved : ℤ) (operation : Operation) (old new : ℤ)
    (actualPeakBytes : Option ℤ) : Except CapacityError (Guard limits) :=
  if reserved < 0 ∨ old < 0 ∨ new < 0 then .error .transactionNegativeSize
  else if reserved > guard.reservedBytes then .error .reservationInvariantBroken
  else
    let peak := actualPeakBytes.getD new
    if peak < 0 then .error .transactionNegativeSize
    else if peak > reserved then .error .reservationUnderestimated
    else if operation = .replacement ∧ old > guard.usageBytes then .error .replacementUnderflow
    else
      let hypotheticalUsage :=
        if operation = .replacement then guard.usageBytes - old + new else guard.usageBytes + new
      let hypotheticalReserved := guard.reservedBytes - reserved
      if hypotheticalUsage + hypotheticalReserved > limits.hardCapBytes then
        .error .hardCapInvariantBroken
      else
        .ok { guard with
          usageBytes := hypotheticalUsage
          reservedBytes := hypotheticalReserved }

/-- `_release_reservation` -/
def releaseReservation (reserved : ℤ) : Except CapacityError (Guard limits) :=
  if reserved < 0 ∨ reserved > guard.reservedBytes then .error .reservationInvariantBroken
  else .ok { guard with reservedBytes := guard.reservedBytes - reserved }

def accountDeletion (old : ℤ) : Except CapacityError (Guard limits) :=
  if old < 0 ∨ old > guard.usageBytes then .error .deletionUnderflow
  else .ok { guard with usageBytes := guard.usageBytes - old }

end Guard

/-! ### Calls -/

/-- How a reservation is settled. -/
inductive Settlement
  | commit (actualBytes : Option ℤ)
  | commitAppend (actualBytes : ℤ)
  | commitReplacement (oldSize newSize : ℤ) (actualPeakBytes : Option ℤ)
  | commitTemporaryPeak (finalGrowthBytes : ℤ)
  | release
  /-- The end of a `with` block. -/
  | leave (raised : Bool)
  deriving DecidableEq

inductive Call
  | reserve (free : Option ℤ) (writeBytes : ℤ) (critical : Bool)
  | settle (reservation : ℕ) (settlement : Settlement)
  | accountDeletion (oldSize : ℤ)
  deriving DecidableEq

/-- A guard, and the reservations that it has handed out. -/
structure World (limits : Limits) where
  guard : Guard limits
  reservations : List CapacityReservation

variable {limits : Limits}

/-- A guard that has been built over a store of `usage` bytes. -/
def World.start (limits : Limits) (usage : ℕ) : World limits := ⟨⟨usage, 0, none⟩, []⟩

/-- What settles a reservation at the guard. -/
def Settlement.apply (settlement : Settlement) (guard : Guard limits)
    (reservation : CapacityReservation) : Except CapacityError (Guard limits) :=
  let reserved := reservation.reservedBytes
  match settlement with
  | .commit actual => guard.commitReservation reserved .append 0 (actual.getD reserved) none
  | .commitAppend actual => guard.commitReservation reserved .append 0 actual none
  | .commitReplacement old new peak => guard.commitReservation reserved .replacement old new peak
  | .commitTemporaryPeak growth => guard.commitReservation reserved .temporaryPeak 0 growth none
  | .release => guard.releaseReservation reserved
  | .leave false => guard.commitReservation reserved .append 0 reserved none
  | .leave true => guard.releaseReservation reserved

/-- One call and how it ends; `none` where there is no such reservation. -/
def World.call (w : World limits) : Call → Option (World limits × Except CapacityError Unit)
  | .reserve free writeBytes critical =>
    match w.guard.reserve free writeBytes critical with
    | (guard, .ok reservation) => some (⟨guard, w.reservations ++ [reservation]⟩, .ok ())
    | (guard, .error error) => some (⟨guard, w.reservations⟩, .error error)
  | .settle i settlement =>
    match w.reservations[i]? with
    | none => none
    | some reservation =>
      if reservation.closed then some (w, .error .reservationAlreadyClosed)
      else
        match settlement.apply w.guard reservation with
        | .ok guard =>
          some (⟨guard, w.reservations.set i { reservation with closed := true }⟩, .ok ())
        | .error error => some (w, .error error)
  | .accountDeletion old =>
    match w.guard.accountDeletion old with
    | .ok guard => some ({ w with guard := guard }, .ok ())
    | .error error => some (w, .error error)

def World.step (w : World limits) (call : Call) : Option (World limits) :=
  (w.call call).map Prod.fst

def Call.settles (i : ℕ) : Call → Bool
  | .settle j _ => j = i
  | _ => false

/-- How often the reservation is settled in a run of calls. -/
def World.settlements (i : ℕ) : World limits → List Call → ℕ
  | _, [] => 0
  | w, call :: rest =>
    match w.call call with
    | none => 0
    | some (w', result) =>
      (if call.settles i && decide (result = .ok ()) then 1 else 0) +
        settlements i w' rest

/-! ### The accounts -/

/-- The bytes of a reservation that is not yet closed. -/
def CapacityReservation.openBytes (r : CapacityReservation) : ℤ :=
  if r.closed then 0 else r.reservedBytes

/-- The bytes of all of them. -/
def World.openBytes (w : World limits) : ℤ := (w.reservations.map CapacityReservation.openBytes).sum

/-- The counters are right and within the hard cap. -/
structure Accounted (w : World limits) : Prop where
  reserved : w.guard.reservedBytes = w.openBytes
  usage : 0 ≤ w.guard.usageBytes
  cap : w.guard.usageBytes + w.guard.reservedBytes ≤ limits.hardCapBytes
  sizes : ∀ r ∈ w.reservations, 0 ≤ r.reservedBytes

section Specs

variable {guard guard' : Guard limits} {w w' : World limits} {c : Call}
  {result : Except CapacityError Unit}

/-- The state of a snapshot tells which budget is kept. -/
theorem refresh_state (guard : Guard limits) (free projected : ℤ) (critical : Bool) :
    ((guard.refresh free projected critical).2.state = .normal →
        guard.usageBytes + guard.reservedBytes + max 0 projected ≤ limits.normalBudgetBytes) ∧
      ((guard.refresh free projected critical).2.state = .reserve →
        guard.usageBytes + guard.reservedBytes + max 0 projected ≤ limits.hardCapBytes) := by
  simp only [Guard.refresh]
  split_ifs <;> simp_all

/-- A reservation that is granted, and a call that raises. -/
theorem reserve_spec (guard : Guard limits) (free : Option ℤ) (bytes : ℤ) (critical : Bool) :
    (∃ guard' snapshot, guard.reserve free bytes critical = (guard', .ok ⟨bytes, snapshot, false⟩) ∧
        0 ≤ bytes ∧ guard'.usageBytes = guard.usageBytes ∧
        guard'.reservedBytes = guard.reservedBytes + bytes ∧
        guard.usageBytes + guard.reservedBytes + bytes ≤ limits.hardCapBytes ∧
        (critical = false →
          guard.usageBytes + guard.reservedBytes + bytes ≤ limits.normalBudgetBytes)) ∨
      ∃ guard' error, guard.reserve free bytes critical = (guard', .error error) ∧
        guard'.usageBytes = guard.usageBytes ∧ guard'.reservedBytes = guard.reservedBytes := by
  unfold Guard.reserve
  split_ifs with hneg
  · exact Or.inr ⟨guard, _, rfl, rfl, rfl⟩
  cases free with
  | none => exact Or.inr ⟨guard, _, rfl, rfl, rfl⟩
  | some free =>
    obtain ⟨hnormal, hreserve⟩ := refresh_state guard free bytes critical
    have hmax : max 0 bytes = bytes := max_eq_right (not_lt.1 hneg)
    rw [hmax] at hnormal hreserve
    have hbudget := limits.normalBudgetBytes_lt
    dsimp only
    split_ifs with hallowed
    · refine Or.inl ⟨_, _, rfl, not_lt.1 hneg, rfl, rfl, ?_, fun hcritical => ?_⟩
      · rcases hallowed with hstate | ⟨-, hstate⟩
        · exact (hnormal hstate).trans hbudget.le
        · exact hreserve hstate
      · rcases hallowed with hstate | ⟨htrue, -⟩
        · exact hnormal hstate
        · rw [hcritical] at htrue
          cases htrue
    · exact Or.inr ⟨_, _, rfl, rfl, rfl⟩

theorem commitReservation_ok {reserved old new : ℤ} {operation : Operation} {peak : Option ℤ}
    (h : guard.commitReservation reserved operation old new peak = .ok guard')
    (husage : 0 ≤ guard.usageBytes) :
    guard'.reservedBytes = guard.reservedBytes - reserved ∧ 0 ≤ guard'.usageBytes ∧
      guard'.usageBytes + guard'.reservedBytes ≤ limits.hardCapBytes := by
  rw [Guard.commitReservation] at h
  by_cases hop : operation = .replacement
  · simp only [hop, true_and, if_true] at h
    split_ifs at h with hneg _ _ _ hunder hover
    cases h
    exact ⟨rfl, by dsimp only; omega, not_lt.1 hover⟩
  · simp only [hop, false_and, if_false] at h
    split_ifs at h with hneg _ _ _ hover
    cases h
    exact ⟨rfl, by dsimp only; omega, not_lt.1 hover⟩

theorem releaseReservation_ok {reserved : ℤ} (h : guard.releaseReservation reserved = .ok guard') :
    guard'.reservedBytes = guard.reservedBytes - reserved ∧ guard'.usageBytes = guard.usageBytes ∧
      0 ≤ reserved := by
  rw [Guard.releaseReservation] at h
  split_ifs at h with hbad
  cases h
  exact ⟨rfl, rfl, not_lt.1 (not_or.1 hbad).1⟩

/-- What a settlement leaves. -/
theorem apply_ok {settlement : Settlement} {r : CapacityReservation}
    (h : settlement.apply guard r = .ok guard') (husage : 0 ≤ guard.usageBytes)
    (hcap : guard.usageBytes + guard.reservedBytes ≤ limits.hardCapBytes) :
    guard'.reservedBytes = guard.reservedBytes - r.reservedBytes ∧ 0 ≤ guard'.usageBytes ∧
      guard'.usageBytes + guard'.reservedBytes ≤ limits.hardCapBytes := by
  have hrelease : guard.releaseReservation r.reservedBytes = .ok guard' →
      guard'.reservedBytes = guard.reservedBytes - r.reservedBytes ∧ 0 ≤ guard'.usageBytes ∧
        guard'.usageBytes + guard'.reservedBytes ≤ limits.hardCapBytes := by
    intro hok
    obtain ⟨hreserved, hsame, hpos⟩ := releaseReservation_ok hok
    exact ⟨hreserved, hsame ▸ husage, by omega⟩
  match settlement with
  | .commit _ => exact commitReservation_ok h husage
  | .commitAppend _ => exact commitReservation_ok h husage
  | .commitReplacement _ _ _ => exact commitReservation_ok h husage
  | .commitTemporaryPeak _ => exact commitReservation_ok h husage
  | .release => exact hrelease h
  | .leave false => exact commitReservation_ok h husage
  | .leave true => exact hrelease h

/-- Closing a reservation takes its bytes from the sum. -/
theorem sum_set_closed {rs : List CapacityReservation} {i : ℕ} {r : CapacityReservation}
    (hr : rs[i]? = some r) (hopen : r.closed = false) :
    ((rs.set i { r with closed := true }).map CapacityReservation.openBytes).sum =
      (rs.map CapacityReservation.openBytes).sum - r.reservedBytes := by
  obtain ⟨hi, rfl⟩ := List.getElem?_eq_some_iff.1 hr
  rw [List.map_set, List.sum_set', dif_pos (by rwa [List.length_map]), List.getElem_map]
  simp only [CapacityReservation.openBytes, hopen, if_true, if_false, Bool.false_eq_true]
  omega

/-! ### One call -/

/-- What a call can do. -/
theorem call_spec (h : w.call c = some (w', result)) :
    (∃ error, result = .error error ∧ w'.guard.usageBytes = w.guard.usageBytes ∧
        w'.guard.reservedBytes = w.guard.reservedBytes ∧ w'.reservations = w.reservations) ∨
    (∃ free bytes critical snapshot, c = .reserve free bytes critical ∧ result = .ok () ∧
        w'.reservations = w.reservations ++ [⟨bytes, snapshot, false⟩] ∧ 0 ≤ bytes ∧
        w'.guard.usageBytes = w.guard.usageBytes ∧
        w'.guard.reservedBytes = w.guard.reservedBytes + bytes ∧
        w'.guard.usageBytes + w'.guard.reservedBytes ≤ limits.hardCapBytes ∧
        (critical = false →
          w'.guard.usageBytes + w'.guard.reservedBytes ≤ limits.normalBudgetBytes)) ∨
    (∃ i settlement r, c = .settle i settlement ∧ result = .ok () ∧ w.reservations[i]? = some r ∧
        r.closed = false ∧ settlement.apply w.guard r = .ok w'.guard ∧
        w'.reservations = w.reservations.set i { r with closed := true }) ∨
    (∃ old, c = .accountDeletion old ∧ result = .ok () ∧ 0 ≤ old ∧ old ≤ w.guard.usageBytes ∧
        w'.guard.usageBytes = w.guard.usageBytes - old ∧
        w'.guard.reservedBytes = w.guard.reservedBytes ∧ w'.reservations = w.reservations) := by
  cases c with
  | reserve free bytes critical =>
    simp only [World.call] at h
    -- it is admitted within its budget, or it is refused and nothing is reserved
    rcases reserve_spec w.guard free bytes critical with
      ⟨guard', snapshot, heq, hpos, husage, hreserved, hcap, hnormal⟩ | ⟨guard', error, heq, hsame⟩
    · rw [heq] at h
      cases h
      refine Or.inr (Or.inl ⟨free, bytes, critical, snapshot, rfl, rfl, rfl, hpos,
        husage, hreserved, ?_, fun hcritical => ?_⟩)
      · rw [husage, hreserved, ← add_assoc]
        exact hcap
      · rw [husage, hreserved, ← add_assoc]
        exact hnormal hcritical
    · rw [heq] at h
      cases h
      exact Or.inl ⟨error, rfl, hsame.1, hsame.2, rfl⟩
  | settle i settlement =>
    simp only [World.call] at h
    cases hr : w.reservations[i]? with
    | none =>
      rw [hr] at h
      cases h
    | some r =>
      simp only [hr] at h
      split_ifs at h with hclosed
      · -- a reservation is settled once
        cases h
        exact Or.inl ⟨_, rfl, rfl, rfl, rfl⟩
      · rw [Bool.not_eq_true] at hclosed
        cases happly : settlement.apply w.guard r with
        | ok guard =>
          rw [happly] at h
          cases h
          exact Or.inr (Or.inr (Or.inl ⟨i, settlement, r, rfl, rfl, hr, hclosed, happly, rfl⟩))
        | error error =>
          rw [happly] at h
          cases h
          exact Or.inl ⟨error, rfl, rfl, rfl, rfl⟩
  | accountDeletion old =>
    simp only [World.call, Guard.accountDeletion] at h
    split_ifs at h with hbad
    · cases h
      exact Or.inl ⟨_, rfl, rfl, rfl, rfl⟩
    · cases h
      exact Or.inr (Or.inr (Or.inr ⟨old, rfl, rfl, by omega, by omega, rfl, rfl, rfl⟩))

/-- A call keeps the accounts. -/
theorem Accounted.call (hw : Accounted w) (h : w.call c = some (w', result)) : Accounted w' := by
  rcases call_spec h with ⟨error, -, husage, hreserved, hsame⟩ |
    ⟨free, bytes, critical, snapshot, -, -, hrs, hpos, husage, hreserved, hcap, -⟩ |
    ⟨i, settlement, r, -, -, hr, hopen, happly, hrs⟩ | ⟨old, -, -, hpos, hle, husage,
      hreserved, hsame⟩
  · refine ⟨?_, husage ▸ hw.usage, by rw [husage, hreserved]; exact hw.cap, hsame ▸ hw.sizes⟩
    rw [hreserved, World.openBytes, hsame]
    exact hw.reserved
  · refine ⟨?_, husage ▸ hw.usage, hcap, fun q hq => ?_⟩
    · rw [hreserved, World.openBytes, hrs, List.map_append, List.sum_append, hw.reserved,
        World.openBytes]
      simp [CapacityReservation.openBytes]
    · rw [hrs] at hq
      rcases List.mem_append.1 hq with hq | hq
      · exact hw.sizes q hq
      · rw [List.mem_singleton.1 hq]
        exact hpos
  · obtain ⟨hreserved, husage, hcap⟩ := apply_ok happly hw.usage hw.cap
    refine ⟨?_, husage, hcap, fun q hq => ?_⟩
    · rw [hreserved, World.openBytes, hrs, sum_set_closed hr hopen, hw.reserved, World.openBytes]
    · rw [hrs] at hq
      rcases List.mem_or_eq_of_mem_set hq with hq | rfl
      · exact hw.sizes q hq
      · exact hw.sizes r (List.mem_of_getElem? hr)
  · refine ⟨?_, by omega, by have := hw.cap; omega, hsame ▸ hw.sizes⟩
    rw [hreserved, World.openBytes, hsame]
    exact hw.reserved

/-! ### Runs -/

/-- The reservation has been handed out and is closed. -/
def World.Closed (w : World limits) (i : ℕ) : Prop :=
  ∃ r, w.reservations[i]? = some r ∧ r.closed = true

theorem Closed.call {i : ℕ} (hi : w.Closed i) (h : w.call c = some (w', result)) : w'.Closed i := by
  obtain ⟨r, hr, hclosed⟩ := hi
  rcases call_spec h with ⟨_, -, -, -, hsame⟩ | ⟨_, _, _, _, -, -, hrs, -⟩ |
    ⟨j, _, q, -, -, hq, hopen, -, hrs⟩ | ⟨_, -, -, -, -, -, -, hsame⟩
  · exact ⟨r, hsame ▸ hr, hclosed⟩
  · refine ⟨r, ?_, hclosed⟩
    rw [hrs, List.getElem?_append_left (List.getElem?_eq_some_iff.1 hr).1]
    exact hr
  · refine ⟨r, ?_, hclosed⟩
    have hne : j ≠ i := by
      rintro rfl
      rw [Option.some.inj (hq.symm.trans hr), hclosed] at hopen
      cases hopen
    rw [hrs, List.getElem?_set_ne hne]
    exact hr
  · exact ⟨r, hsame ▸ hr, hclosed⟩

/-- A call that settles a reservation finds it open and leaves it closed. -/
theorem settles_spec {i : ℕ} (h : w.call c = some (w', .ok ())) (hi : c.settles i = true) :
    ¬ w.Closed i ∧ w'.Closed i := by
  rcases call_spec h with ⟨_, heq, -⟩ | ⟨_, _, _, _, rfl, -⟩ |
    ⟨j, _, q, rfl, -, hq, hopen, -, hrs⟩ | ⟨_, rfl, -⟩
  · cases heq
  · cases hi
  · obtain rfl : j = i := of_decide_eq_true hi
    refine ⟨?_, { q with closed := true }, ?_, rfl⟩
    · rintro ⟨r, hr, hclosed⟩
      rw [Option.some.inj (hr.symm.trans hq), hopen] at hclosed
      cases hclosed
    · rw [hrs, List.getElem?_set_self (List.getElem?_eq_some_iff.1 hq).1]
  · cases hi

/-- In a run a reservation is settled at most once, and never when it is closed before. -/
theorem settlements_le (i : ℕ) :
    ∀ (calls : List Call) (w : World limits),
      w.settlements i calls ≤ 1 ∧ (w.Closed i → w.settlements i calls = 0) := by
  intro calls
  induction calls with
  | nil => exact fun w => ⟨Nat.zero_le _, fun _ => rfl⟩
  | cons call rest ih =>
    intro w
    rw [World.settlements]
    rcases hcall : w.call call with _ | ⟨w', result⟩
    · exact ⟨Nat.zero_le _, fun _ => rfl⟩
    obtain ⟨hle, hzero⟩ := ih w'
    dsimp only
    split_ifs with hsettles
    · rw [Bool.and_eq_true, decide_eq_true_eq] at hsettles
      obtain ⟨hsettles, rfl⟩ := hsettles
      obtain ⟨hopen, hclosed⟩ := settles_spec hcall hsettles
      rw [hzero hclosed]
      exact ⟨le_rfl, fun hi => absurd hi hopen⟩
    · rw [Nat.zero_add]
      exact ⟨hle, fun hi => hzero (Closed.call hi hcall)⟩

theorem start_accounted {usage : ℕ} (h : (usage : ℤ) ≤ limits.hardCapBytes) :
    Accounted (World.start limits usage) :=
  ⟨rfl, Int.natCast_nonneg usage, by rw [World.start, add_zero]; exact h, fun r hr => by cases hr⟩

end Specs

/-- In every state reached from a guard within its cap and without reservations the open
reservations add up, the usage is not negative and both together are within the hard cap; a
reservation that is not critical keeps the normal budget; a call that raises changes neither the
counters nor the reservations; and no reservation is settled twice. -/
theorem capacity_accounting (limits : Limits) (usage : ℕ)
    (husage : (usage : ℤ) ≤ limits.hardCapBytes)
    (w : World limits) (h : Reach World.step (fun _ _ => True) (World.start limits usage) w) :
    (w.guard.reservedBytes = w.openBytes ∧ 0 ≤ w.guard.usageBytes ∧
      w.guard.usageBytes + w.guard.reservedBytes ≤ limits.hardCapBytes) ∧
    (∀ free bytes w', w.call (.reserve free bytes false) = some (w', .ok ()) →
      w'.guard.usageBytes + w'.guard.reservedBytes ≤ limits.normalBudgetBytes) ∧
    (∀ call w' error, w.call call = some (w', .error error) →
      w'.guard.usageBytes = w.guard.usageBytes ∧ w'.guard.reservedBytes = w.guard.reservedBytes ∧
        w'.reservations = w.reservations) ∧
    ∀ i calls, (World.start limits usage).settlements i calls ≤ 1 := by
  have hw : Accounted w := by
    refine Reach.invariant (start_accounted husage) (fun s a s' _ hs _ hstep => ?_) h
    obtain ⟨⟨s'', result⟩, hcall, rfl⟩ := Option.map_eq_some_iff.1 hstep
    exact hs.call hcall
  refine ⟨⟨hw.reserved, hw.usage, hw.cap⟩, fun free bytes w' hcall => ?_,
    fun call w' error hcall => ?_,
    fun i calls => (settlements_le i calls _).1⟩
  · rcases call_spec hcall with ⟨_, heq, -⟩ | ⟨_, _, _, _, heq, -, -, -, -, -, -, hnormal⟩ |
      ⟨_, _, _, heq, -⟩ | ⟨_, heq, -⟩
    · cases heq
    · cases heq
      exact hnormal rfl
    · cases heq
    · cases heq
  · rcases call_spec hcall with ⟨_, -, hsame⟩ | ⟨_, _, _, _, -, heq, -⟩ | ⟨_, _, _, -, heq, -⟩ |
      ⟨_, -, heq, -⟩
    · exact hsame
    · cases heq
    · cases heq
    · cases heq

/-- Ten bytes with a reserve of four: one reservation is released, one settled. -/
def tenBytes : Limits := ⟨10, 4, 0, by decide, by decide⟩

def tenCalls : List Call :=
  [.reserve (some 100) 3 false, .reserve (some 100) 5 true, .settle 0 .release,
    .settle 1 (.commitAppend 4)]

theorem capacity_accounting_ten :
    ∃ w, runFrom World.step (World.start tenBytes 2) tenCalls = some w ∧
      w.guard.usageBytes + w.guard.reservedBytes ≤ 10 :=
  have hrun : runFrom World.step (World.start tenBytes 2) tenCalls = some _ := rfl
  ⟨_, hrun, (capacity_accounting tenBytes 2 (by decide) _ (reach_of_runFrom hrun)).1.2.2⟩

end Capacity
