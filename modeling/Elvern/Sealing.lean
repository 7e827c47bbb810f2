/-
Sealing a diagnostics session (`playback_diagnostics/sealing.py`): several files are
replaced under one reservation.

The peak of the reservation is computed ahead of time.  When the files are there, or when
a write has failed, the reservation is closed with the sizes before and after, so that
the counter of the guard is to equal the bytes on the disk again.

* `writeDerivedArtifacts`, `writeCriticalSeal` -- the functions, on the sizes of the files;
  every write and every `fsync` may fail;
* `replaceArtifacts` -- the `try` of both, with its handler;
* `replaceArtifacts_spec` -- however the writes end: the reservation is closed, the peak
  was enough, and the handler does not raise;
* `sealing_accounts` -- the seal always keeps the counter; the derived artifacts do where a
  write fails, or no file without a new version has bytes.
-/
import Elvern.CapacityGuard
import Elvern.DiskWrites

open DiskWrites

namespace Capacity

variable {limits : Limits}

/-! ### The functions -/

/-- `commit_replacement` of a reservation. -/
def CapacityReservation.commitReplacement (reservation : CapacityReservation)
    (guard : Guard limits) (oldSize newSize actualPeakBytes : ℤ) :
    Except CapacityError (Guard limits × CapacityReservation) :=
  if reservation.closed then .error .reservationAlreadyClosed
  else
    match guard.commitReservation reservation.reservedBytes .replacement oldSize newSize
      (some actualPeakBytes) with
    | .error error => .error error
    | .ok guard => .ok (guard, { reservation with closed := true })

/-- The errors with which the two functions end. -/
inductive SealError
  | capacity (error : CapacityError)
  /-- the error of a write or of an `fsync` -/
  | write

/-- What the `try` of the two functions and its handler leave. -/
structure Replacement (limits : Limits) where
  guard : Guard limits
  reservation : CapacityReservation
  disk : Disk String
  /-- the bytes on the disk while the files were written -/
  moments : List ℕ
  /-- how the `try` ends -/
  attempt : Except SealError Unit
  /-- how the accounting of the handler ends, where it runs -/
  accounting : Except CapacityError Unit

/-- The handler: what is on the disk now is committed, unless the reservation is closed. -/
def accountPartial (names : List String) (guard : Guard limits) (reservation : CapacityReservation)
    (disk : Disk String) (moments : List ℕ) (oldTotal peak : ℤ) (error : SealError) :
    Replacement limits :=
  if reservation.closed then ⟨guard, reservation, disk, moments, .error error, .ok ()⟩
  else
    match reservation.commitReplacement guard oldTotal (disk.sizeOf names)
      (min peak reservation.reservedBytes) with
    | .ok (guard, reservation) => ⟨guard, reservation, disk, moments, .error error, .ok ()⟩
    | .error accounting =>
      ⟨guard, reservation, disk, moments, .error error, .error accounting⟩

/-- The `try` of both functions: the steps, then the commit. -/
def replaceArtifacts (names : List String) (steps : List (Step String)) (outcomes : ℕ → Outcome)
    (guard : Guard limits) (reservation : CapacityReservation) (disk : Disk String)
    (newTotal peak : ℤ) : Replacement limits :=
  let oldTotal : ℤ := disk.sizeOf names
  let (disk, moments, returned) := disk.run names outcomes steps
  match returned, reservation.commitReplacement guard oldTotal newTotal peak with
  | true, .ok (guard, reservation) => ⟨guard, reservation, disk, moments, .ok (), .ok ()⟩
  | true, .error error =>
    accountPartial names guard reservation disk moments oldTotal peak (.capacity error)
  | false, _ => accountPartial names guard reservation disk moments oldTotal peak .write

/-- How a call ends: before it has a reservation, or with one. -/
inductive Sealing (limits : Limits) (α : Type)
  | early (guard : Guard limits) (result : Except SealError α)
  | replaced (replacement : Replacement limits) (result : Except SealError α)

/-- `DERIVED_ARTIFACT_NAMES` -/
def derivedArtifactNames : List String :=
  ["summary.md", "summary.json", "timeline.csv", "completeness.json"]

/-- `CRITICAL_SEAL_NAMES` -/
def criticalSealNames : List String := ["session.json", "seal.json", "manifest.json"]

/-- `DERIVED_ARTIFACT_RESERVATION_BYTES` -/
def derivedArtifactReservationBytes : ℕ := 64 * 1024 * 1024

/-- `new_total` of `write_derived_artifacts` -/
def derivedTotal (generated : String → Option ℕ) : ℕ :=
  (derivedArtifactNames.map fun name => (generated name).getD 0).sum

/-- The writes of `write_derived_artifacts`, and the `fsync` behind them. -/
def derivedSteps (generated : String → Option ℕ) : List (Step String) :=
  replaceEach generated derivedArtifactNames ++ [.flush]

/-- `write_derived_artifacts`, for artifacts that are `generated` with these sizes; `none`
where `build_summary_artifacts` raises.  `free` is what the disk has left. -/
def writeDerivedArtifacts (guard : Guard limits) (disk : Disk String) (free : Option ℤ)
    (generated : Option (String → Option ℕ)) (outcomes : ℕ → Outcome) : Sealing limits String :=
  match generated with
  | none => .early guard (.ok "derived_artifacts_failed")
  | some generated =>
    let newTotal := derivedTotal generated
    if derivedArtifactReservationBytes < newTotal then
      .early guard (.ok "derived_artifacts_failed")
    else
      match guard.reserve free (max 1 newTotal) false with
      | (guard, .error (.refused _)) => .early guard (.ok "derived_artifacts_deferred_capacity")
      | (guard, .error error) => .early guard (.error (.capacity error))
      | (guard, .ok reservation) =>
        let replacement := replaceArtifacts derivedArtifactNames (derivedSteps generated) outcomes
          guard reservation disk newTotal newTotal
        .replaced replacement <|
          match replacement.attempt, replacement.accounting with
          | .ok (), _ => .ok "derived_artifacts_complete"
          | .error _, .ok () => .ok "derived_artifacts_failed"
          | .error _, .error error => .error (.capacity error)

/-- One turn of the loop of `write_critical_seal` over the names: the peak and the growth so
far. -/
def criticalPeakStep (old new : String → ℕ) (acc : ℤ × ℤ) (name : String) : ℤ × ℤ :=
  (max acc.1 (acc.2 + new name), acc.2 + (new name - old name))

/-- `peak` of `write_critical_seal` -/
def criticalPeak (old new : String → ℕ) : ℤ :=
  (criticalSealNames.foldl (criticalPeakStep old new) (0, 0)).1

/-- The writes and the `fsync`s of `write_critical_seal`. -/
def criticalSteps (new : String → ℕ) : List (Step String) :=
  [.write "session.json" (new "session.json"), .write "seal.json" (new "seal.json"), .flush,
    .write "manifest.json" (new "manifest.json"), .flush]

/-- `write_critical_seal`, for artifacts of these sizes. -/
def writeCriticalSeal (guard : Guard limits) (disk : Disk String) (free : Option ℤ)
    (new : String → ℕ) (outcomes : ℕ → Outcome) : Sealing limits Unit :=
  let newTotal := (criticalSealNames.map new).sum
  let peak := criticalPeak disk.sizes new
  match guard.reserve free (max 1 peak) true with
  | (guard, .error error) => .early guard (.error (.capacity error))
  | (guard, .ok reservation) =>
    let replacement := replaceArtifacts criticalSealNames (criticalSteps new) outcomes guard
      reservation disk newTotal peak
    .replaced replacement <|
      match replacement.attempt, replacement.accounting with
      | .ok (), _ => .ok ()
      | .error error, .ok () => .error error
      | .error _, .error error => .error (.capacity error)

/-! ### The accounts of a replacement -/

/-- What holds when the files have been replaced, or a part of them, whose guard was `guard`
and whose disk was `disk`. -/
structure Settled (guard : Guard limits) (names : List String) (disk : Disk String)
    (replacement : Replacement limits) : Prop where
  closed : replacement.reservation.closed = true
  released : replacement.guard.reservedBytes = guard.reservedBytes
  peak : ∀ m ∈ replacement.moments,
    (m : ℤ) ≤ disk.total names + replacement.reservation.reservedBytes
  cap : ∀ m ∈ replacement.moments, (m : ℤ) + guard.reservedBytes ≤ limits.hardCapBytes
  counters : replacement.guard.usageBytes + replacement.guard.reservedBytes ≤ limits.hardCapBytes
  accounting : replacement.accounting = .ok ()

/-- A reservation of `bytes` that the guard has handed out. -/
structure Granted (guard guard' : Guard limits) (bytes : ℤ) (reservation : CapacityReservation) :
    Prop where
  size : reservation.reservedBytes = bytes
  isOpen : reservation.closed = false
  usage : guard'.usageBytes = guard.usageBytes
  reserved : guard'.reservedBytes = guard.reservedBytes + bytes
  cap : guard.usageBytes + guard.reservedBytes + bytes ≤ limits.hardCapBytes

section Accounts

variable {guard guard' : Guard limits} {names : List String} {steps : List (Step String)}
  {outcomes : ℕ → Outcome} {disk : Disk String} {reservation : CapacityReservation}
  {newTotal bytes top : ℤ}

/-- A commit within the reservation and the cap. -/
theorem commitReplacement_eq_ok {old new : ℤ} (hopen : reservation.closed = false)
    (hpeak : 0 ≤ top ∧ top ≤ reservation.reservedBytes)
    (hreserved : reservation.reservedBytes ≤ guard.reservedBytes) (hold : 0 ≤ old)
    (husage : old ≤ guard.usageBytes) (hnew : 0 ≤ new)
    (hcap : guard.usageBytes - old + new + (guard.reservedBytes - reservation.reservedBytes) ≤
      limits.hardCapBytes) :
    reservation.commitReplacement guard old new top =
      .ok ({ guard with
          usageBytes := guard.usageBytes - old + new
          reservedBytes := guard.reservedBytes - reservation.reservedBytes },
        { reservation with closed := true }) := by
  have hcommit : guard.commitReservation reservation.reservedBytes .replacement old new (some top) =
      .ok { guard with
        usageBytes := guard.usageBytes - old + new
        reservedBytes := guard.reservedBytes - reservation.reservedBytes } := by
    simp only [Guard.commitReservation, Option.getD_some, true_and, if_true]
    rw [if_neg (by omega), if_neg (by omega), if_neg (by omega), if_neg (by omega),
      if_neg (by omega), if_neg (by omega)]
  rw [CapacityReservation.commitReplacement, hopen, hcommit]
  rfl

theorem replaceArtifacts_returned {disk' : Disk String} {moments : List ℕ}
    {committed : Guard limits × CapacityReservation}
    (hrun : disk.run names outcomes steps = (disk', moments, true))
    (hcommit : reservation.commitReplacement guard (disk.sizeOf names) newTotal top =
      .ok committed) :
    replaceArtifacts names steps outcomes guard reservation disk newTotal top =
      ⟨committed.1, committed.2, disk', moments, .ok (), .ok ()⟩ := by
  simp only [replaceArtifacts, hrun, hcommit]

theorem replaceArtifacts_failed {disk' : Disk String} {moments : List ℕ}
    {committed : Guard limits × CapacityReservation}
    (hrun : disk.run names outcomes steps = (disk', moments, false))
    (hopen : reservation.closed = false)
    (hcommit : reservation.commitReplacement guard (disk.sizeOf names) (disk'.sizeOf names)
      (min top reservation.reservedBytes) = .ok committed) :
    replaceArtifacts names steps outcomes guard reservation disk newTotal top =
      ⟨committed.1, committed.2, disk', moments, .error .write, .ok ()⟩ := by
  simp only [replaceArtifacts, hrun, accountPartial, hopen, hcommit, Bool.false_eq_true, if_false]

theorem granted_of_reserve {free : Option ℤ} {critical : Bool}
    (h : guard.reserve free bytes critical = (guard', .ok reservation)) :
    Granted guard guard' bytes reservation := by
  rcases reserve_spec guard free bytes critical with
    ⟨granted, snapshot, heq, -, husage, hreserved, hcap, -⟩ | ⟨_, error, heq, -⟩
  · rw [heq] at h
    cases h
    exact ⟨rfl, rfl, husage, hreserved, hcap⟩
  · rw [heq] at h
    cases h

/-- However the writes end, the reservation is closed and its peak was enough; the counter
is that of the disk where a write has failed, and the one committed where none has. -/
theorem replaceArtifacts_spec (hgranted : Granted guard guard' bytes reservation)
    (hreserved : 0 ≤ guard.reservedBytes) (husage : guard.usageBytes = disk.total names)
    (hnodup : names.Nodup) (hnames : ∀ p ∈ writes steps, p.1 ∈ names)
    (hwrites : ((writes steps).map Prod.fst).Nodup)
    (htop : peak disk.sizes (writes steps) ≤ top ∧ top ≤ bytes)
    (hnew : 0 ≤ newTotal ∧ newTotal ≤ disk.sizeOf names + top) :
    let replacement := replaceArtifacts names steps outcomes guard' reservation disk newTotal top
    Settled guard names disk replacement ∧
      replacement.disk = (disk.run names outcomes steps).1 ∧
      (replacement.attempt = .ok () ↔ ∀ k < steps.length, outcomes k = .done) ∧
      (replacement.attempt = .ok () → replacement.guard.usageBytes = disk.rest + newTotal) ∧
      (replacement.attempt ≠ .ok () →
        replacement.guard.usageBytes = replacement.disk.total names) := by
  obtain ⟨hrest, hmoments, htotal⟩ :=
    @run_spec _ _ _ outcomes disk steps hnodup hnames hwrites
  have hreturns := @run_returns_iff _ _ names outcomes disk steps
  have hdisk : disk.total names = disk.rest + disk.sizeOf names := rfl
  have hpos : 0 ≤ top := peak_nonneg.trans htop.1
  obtain ⟨hbytes, hopen, husage', hreserved', hcap⟩ := hgranted
  generalize hrun : disk.run names outcomes steps = out at hrest hmoments htotal hreturns ⊢
  obtain ⟨disk', moments, returned⟩ := out
  have hdisk' : disk'.total names = disk'.rest + disk'.sizeOf names := rfl
  simp only at hrest hmoments htotal hreturns
  -- no moment is above the bytes reserved
  have hmoments' : ∀ m ∈ moments, (m : ℤ) ≤ disk.total names + reservation.reservedBytes := by
    intro m hm
    have hle := hmoments m hm
    omega
  have hcap' : ∀ m ∈ moments, (m : ℤ) + guard.reservedBytes ≤ limits.hardCapBytes := by
    intro m hm
    have hle := hmoments m hm
    omega
  cases returned with
  | true =>
    rw [replaceArtifacts_returned hrun (commitReplacement_eq_ok hopen (by omega) (by omega)
      (by omega) (by omega) (by omega) (by omega))]
    refine ⟨⟨rfl, ?_, hmoments', hcap', ?_, rfl⟩, rfl, iff_of_true rfl (hreturns.1 rfl),
      fun _ => ?_, fun hne => absurd rfl hne⟩
    · show guard'.reservedBytes - reservation.reservedBytes = guard.reservedBytes
      omega
    · show guard'.usageBytes - disk.sizeOf names + newTotal +
        (guard'.reservedBytes - reservation.reservedBytes) ≤ limits.hardCapBytes
      omega
    · show guard'.usageBytes - disk.sizeOf names + newTotal = disk.rest + newTotal
      omega
  | false =>
    rw [replaceArtifacts_failed hrun hopen (commitReplacement_eq_ok hopen (by omega) (by omega)
      (by omega) (by omega) (by omega) (by omega))]
    refine ⟨⟨rfl, ?_, hmoments', hcap', ?_, rfl⟩, rfl,
      iff_of_false nofun (mt hreturns.2 Bool.false_ne_true), nofun, fun _ => ?_⟩
    · show guard'.reservedBytes - reservation.reservedBytes = guard.reservedBytes
      omega
    · show guard'.usageBytes - disk.sizeOf names + disk'.sizeOf names +
        (guard'.reservedBytes - reservation.reservedBytes) ≤ limits.hardCapBytes
      omega
    · show guard'.usageBytes - disk.sizeOf names + disk'.sizeOf names = disk'.total names
      omega

end Accounts

/-! ### The two functions -/

section Functions

variable {guard : Guard limits} {disk : Disk String} {free : Option ℤ} {outcomes : ℕ → Outcome}
  {replacement : Replacement limits}

theorem writes_derivedSteps {generated : String → Option ℕ} :
    writes (derivedSteps generated) = writes (replaceEach generated derivedArtifactNames) :=
  writes_append_flush

theorem writes_criticalSteps {new : String → ℕ} :
    writes (criticalSteps new) = criticalSealNames.map fun name => (name, new name) := rfl

/-- The new versions together are the reserved peak. -/
theorem peak_derivedSteps {generated : String → Option ℕ} :
    peak disk.sizes (writes (derivedSteps generated)) ≤ derivedTotal generated := by
  rw [writes_derivedSteps, derivedTotal, ← sum_writes_replaceEach]
  exact peak_le_sum

/-- The running maximum is at least what the writes need, and what they leave. -/
theorem peak_criticalSteps {new : String → ℕ} :
    peak disk.sizes (writes (criticalSteps new)) ≤ criticalPeak disk.sizes new ∧
      (((criticalSealNames.map new).sum : ℕ) : ℤ) ≤
        disk.sizeOf criticalSealNames + criticalPeak disk.sizes new := by
  simp only [criticalSteps, writes, peak, criticalPeak, criticalSealNames, List.foldl,
    criticalPeakStep, Disk.sizeOf, List.map_cons, List.map_nil, List.sum_cons, List.sum_nil]
  omega

/-- What the derived artifacts have, when all writes have ended well. -/
theorem sizeOf_derived {generated : String → Option ℕ}
    (hreturns : (disk.run derivedArtifactNames outcomes (derivedSteps generated)).2.2 = true) :
    (disk.run derivedArtifactNames outcomes (derivedSteps generated)).1.sizeOf
        derivedArtifactNames =
      (derivedArtifactNames.map fun name => (generated name).getD (disk.sizes name)).sum := by
  obtain ⟨hnew, hold⟩ := run_sizes (by
    rw [writes_derivedSteps]
    exact map_fst_writes_replaceEach.nodup (by decide)) hreturns
  rw [writes_derivedSteps] at hnew hold
  refine congrArg List.sum (List.map_congr_left fun name hname => ?_)
  cases hgenerated : generated name with
  | none =>
    refine hold name fun hmem => ?_
    obtain ⟨p, hp, rfl⟩ := List.mem_map.1 hmem
    rw [(mem_writes_replaceEach.1 hp).2] at hgenerated
    exact absurd hgenerated nofun
  | some size => exact hnew (name, size) (mem_writes_replaceEach.2 ⟨hname, hgenerated⟩)

/-- A call of `write_derived_artifacts` that has its reservation. -/
theorem writeDerivedArtifacts_eq {generated : String → Option ℕ} {result : Except SealError String}
    (h : writeDerivedArtifacts guard disk free (some generated) outcomes =
      .replaced replacement result) :
    ∃ guard' reservation,
      Granted guard guard' (max 1 (derivedTotal generated)) reservation ∧
      replacement = replaceArtifacts derivedArtifactNames (derivedSteps generated) outcomes guard'
        reservation disk (derivedTotal generated) (derivedTotal generated) := by
  simp only [writeDerivedArtifacts] at h
  split_ifs at h
  rcases hreserve : guard.reserve free (max 1 (derivedTotal generated)) false with
    ⟨guard', error | reservation⟩
  · rw [hreserve] at h
    cases error <;> cases h
  · rw [hreserve] at h
    cases h
    exact ⟨guard', reservation, granted_of_reserve hreserve, rfl⟩

/-- A call of `write_critical_seal` that has its reservation. -/
theorem writeCriticalSeal_eq {new : String → ℕ} {result : Except SealError Unit}
    (h : writeCriticalSeal guard disk free new outcomes = .replaced replacement result) :
    ∃ guard' reservation,
      Granted guard guard' (max 1 (criticalPeak disk.sizes new)) reservation ∧
      replacement = replaceArtifacts criticalSealNames (criticalSteps new) outcomes guard'
        reservation disk ((criticalSealNames.map new).sum : ℕ) (criticalPeak disk.sizes new) := by
  simp only [writeCriticalSeal] at h
  rcases hreserve : guard.reserve free (max 1 (criticalPeak disk.sizes new)) true with
    ⟨guard', error | reservation⟩
  · rw [hreserve] at h
    cases h
  · rw [hreserve] at h
    cases h
    exact ⟨guard', reservation, granted_of_reserve hreserve, rfl⟩

/-- The derived artifacts: the counter is that of the disk where a write or the `fsync` has
failed, or no file that is not generated has bytes. -/
theorem writeDerivedArtifacts_spec {generated : String → Option ℕ}
    {result : Except SealError String} (hreserved : 0 ≤ guard.reservedBytes)
    (husage : guard.usageBytes = disk.total derivedArtifactNames)
    (h : writeDerivedArtifacts guard disk free (some generated) outcomes =
      .replaced replacement result) :
    Settled guard derivedArtifactNames disk replacement ∧
      (replacement.guard.usageBytes = replacement.disk.total derivedArtifactNames ↔
        (∃ k < (derivedSteps generated).length, outcomes k ≠ .done) ∨
          ∀ name ∈ derivedArtifactNames, generated name = none → disk.sizes name = 0) := by
  obtain ⟨guard', reservation, hgranted, rfl⟩ := writeDerivedArtifacts_eq h
  have hnames : ∀ p ∈ writes (derivedSteps generated), p.1 ∈ derivedArtifactNames := by
    intro p hp
    rw [writes_derivedSteps] at hp
    exact (mem_writes_replaceEach.1 hp).1
  have hwrites : ((writes (derivedSteps generated)).map Prod.fst).Nodup := by
    rw [writes_derivedSteps]
    exact map_fst_writes_replaceEach.nodup (by decide)
  obtain ⟨hsettled, hdisk, hcompleted, hdone, hfailed⟩ := @replaceArtifacts_spec limits guard guard'
    derivedArtifactNames (derivedSteps generated) outcomes disk reservation
    (derivedTotal generated) _ (derivedTotal generated) hgranted hreserved husage (by decide) hnames
    hwrites ⟨peak_derivedSteps, by omega⟩ ⟨by omega, by omega⟩
  refine ⟨hsettled, ?_⟩
  by_cases hall : ∀ k < (derivedSteps generated).length, outcomes k = .done
  · -- all is written: the commit counts the old sizes of all files, and the new ones
    have hreturns := (@run_returns_iff _ _ derivedArtifactNames outcomes disk _).2 hall
    have hrest := (@run_spec _ _ derivedArtifactNames outcomes disk _ (by decide) hnames hwrites).1
    have hnone : ¬∃ k < (derivedSteps generated).length, outcomes k ≠ .done :=
      fun ⟨k, hk, hne⟩ => hne (hall k hk)
    rw [hdone (hcompleted.2 hall), hdisk, Disk.total, sizeOf_derived hreturns, hrest,
      or_iff_right hnone, ← sum_getD_eq_iff, derivedTotal]
    omega
  · -- a step has failed: the handler has counted what is there
    refine iff_of_true (hfailed (mt hcompleted.1 hall)) (Or.inl ?_)
    simpa only [not_forall, exists_prop] using hall

/-- The critical seal: all its files are written, so that the counter is always that of the
disk. -/
theorem writeCriticalSeal_spec {new : String → ℕ} {result : Except SealError Unit}
    (hreserved : 0 ≤ guard.reservedBytes) (husage : guard.usageBytes = disk.total criticalSealNames)
    (h : writeCriticalSeal guard disk free new outcomes = .replaced replacement result) :
    Settled guard criticalSealNames disk replacement ∧
      replacement.guard.usageBytes = replacement.disk.total criticalSealNames := by
  obtain ⟨guard', reservation, hgranted, rfl⟩ := writeCriticalSeal_eq h
  obtain ⟨hpeak, hnew⟩ := @peak_criticalSteps disk new
  have hfst : (writes (criticalSteps new)).map Prod.fst = criticalSealNames := rfl
  have hnames : ∀ p ∈ writes (criticalSteps new), p.1 ∈ criticalSealNames := by
    intro p hp
    rw [← hfst]
    exact List.mem_map_of_mem hp
  have hwrites : ((writes (criticalSteps new)).map Prod.fst).Nodup := by
    rw [hfst]
    decide
  obtain ⟨hsettled, hdisk, hcompleted, hdone, hfailed⟩ := @replaceArtifacts_spec limits guard guard'
    criticalSealNames (criticalSteps new) outcomes disk reservation
    ((criticalSealNames.map new).sum : ℕ) _ (criticalPeak disk.sizes new) hgranted hreserved husage
    (by decide) hnames hwrites ⟨hpeak, by omega⟩ ⟨by omega, hnew⟩
  refine ⟨hsettled, ?_⟩
  by_cases hall : ∀ k < (criticalSteps new).length, outcomes k = .done
  · have hreturns := (@run_returns_iff _ _ criticalSealNames outcomes disk _).2 hall
    have hrest := (@run_spec _ _ criticalSealNames outcomes disk _ (by decide) hnames hwrites).1
    obtain ⟨hsizes, -⟩ := run_sizes hwrites hreturns
    have hsizeOf : (disk.run criticalSealNames outcomes (criticalSteps new)).1.sizeOf
        criticalSealNames = (criticalSealNames.map new).sum := by
      refine congrArg List.sum (List.map_congr_left fun name hname => hsizes (name, new name) ?_)
      rw [writes_criticalSteps]
      exact List.mem_map_of_mem hname
    rw [hdone (hcompleted.2 hall), hdisk, Disk.total, hsizeOf, hrest]
    omega
  · exact hfailed (mt hcompleted.1 hall)

end Functions

/-- **Sealing keeps the capacity counter equal to the disk**, exactly when it does.  From a
guard whose counter is that of the disk, in every call that has its reservation, however
its writes end: the reservation is closed, the peak reserved was at least the bytes that
came to the disk at any moment, the cap was not exceeded and the accounting of the handler
did not raise.  After the critical seal the counter is that of the disk; after the derived
artifacts it is where a write or the `fsync` failed, or no name that was not generated has
a file with bytes. -/
theorem sealing_accounts (limits : Limits) (guard : Guard limits) (disk : Disk String)
    (free : Option ℤ) (outcomes : ℕ → Outcome) (hreserved : 0 ≤ guard.reservedBytes) :
    (guard.usageBytes = disk.total derivedArtifactNames →
      ∀ (generated : String → Option ℕ) (replacement : Replacement limits)
        (result : Except SealError String),
        writeDerivedArtifacts guard disk free (some generated) outcomes =
          .replaced replacement result →
        Settled guard derivedArtifactNames disk replacement ∧
          (replacement.guard.usageBytes = replacement.disk.total derivedArtifactNames ↔
            (∃ k < (derivedSteps generated).length, outcomes k ≠ .done) ∨
              ∀ name ∈ derivedArtifactNames, generated name = none → disk.sizes name = 0)) ∧
    (guard.usageBytes = disk.total criticalSealNames →
      ∀ (new : String → ℕ) (replacement : Replacement limits) (result : Except SealError Unit),
        writeCriticalSeal guard disk free new outcomes = .replaced replacement result →
        Settled guard criticalSealNames disk replacement ∧
          replacement.guard.usageBytes = replacement.disk.total criticalSealNames) :=
  ⟨fun husage _ _ _ h => writeDerivedArtifacts_spec hreserved husage h,
    fun husage _ _ _ h => writeCriticalSeal_spec hreserved husage h⟩

/-- Two bytes of an old `summary.json`, and no other file. -/
def oldSummary : Disk String := ⟨fun name => if name = "summary.json" then 2 else 0, 0⟩

/-- A `summary.md` of three bytes, and nothing else generated. -/
def onlyMarkdown (name : String) : Option ℕ := if name = "summary.md" then some 3 else none

def usedTwo : Guard tenBytes := ⟨2, 0, none⟩

/-- An `fsync` that fails when the markdown has been written: the handler counts the old
summary too. -/
theorem sealing_accounts_fsyncFails :
    ∃ replacement result, writeDerivedArtifacts usedTwo oldSummary (some 100) (some onlyMarkdown)
        (fun k => if k = 1 then .failedAfter else .done) = .replaced replacement result ∧
      replacement.guard.usageBytes = replacement.disk.total derivedArtifactNames := by
  refine ⟨_, _, rfl, ?_⟩
  exact (((sealing_accounts tenBytes usedTwo oldSummary (some 100) _ (by decide)).1 (by decide)
    onlyMarkdown _ _ rfl).2).2 (Or.inl ⟨1, by decide, by decide⟩)

/-- When all is written, the commit takes the old summary from the counter and leaves it on
the disk. -/
theorem oldSummary_uncounted :
    ∃ replacement result, writeDerivedArtifacts usedTwo oldSummary (some 100) (some onlyMarkdown)
        (fun _ => .done) = .replaced replacement result ∧
      usedTwo.usageBytes = oldSummary.total derivedArtifactNames ∧
      replacement.guard.usageBytes = 3 ∧ replacement.disk.total derivedArtifactNames = 5 :=
  ⟨_, _, rfl, by decide, by decide, by decide⟩

end Capacity
