/-
What the client remembers of its lost connections (`connectivityRecoveryStore.js`,
`boundedQueryRecovery.js`).

A failed request belongs to an incident, which lasts until a recovery is published.  The store keeps
the last 64 incidents, and queries that have failed are fetched again once for a recovery.

* `Store.register`, `Store.publish`, `Store.recoveryGenerationOf` — the functions of the store;
* `Inv` — what the store knows of every failure, also of those whose incident it has forgotten;
* `counted_recovered_iff` — a failure counts as recovered exactly if a recovery was published after
  it;
* `Store.requestRecovery` — a query asks to be fetched again;
* `refetched_once` — it is not fetched twice for one recovery, until 512 others were.
-/
import Elvern.Runs
import Mathlib.Order.Nat
import Mathlib.Data.List.Nodup
import Mathlib.Tactic.Common

namespace ConnectivityRecovery

/-- `MAX_RECOVERED_INCIDENTS` -/
def maxRecoveredIncidents : ℕ := 64

/-- `MAX_RECOVERY_CLAIMS` -/
def maxRecoveryClaims : ℕ := 512

/-- A record of `incidents`. -/
structure Incident where
  incidentId : ℕ
  firstFailureId : ℕ
  latestFailureId : ℕ
  active : Bool
  recovered : Bool
  recoveryGeneration : ℕ
  deriving DecidableEq

/-- A failure that was registered, and the generation of the recovery after it. -/
structure Failure where
  failureId : ℕ
  incidentId : ℕ
  recoveredIn : Option ℕ
  deriving DecidableEq

/-- The variables of both modules; `failures` and `refetches` are not in the code. -/
structure Store where
  incidentSequence : ℕ
  recoveryGeneration : ℕ
  active : Bool
  activeIncidentId : ℕ
  latestFailureId : ℕ
  latestRecoveredFailureId : ℕ
  latestRecoveryGeneration : ℕ
  prolonged : Bool
  incidents : List Incident
  recoveryClaims : List (ℕ × String)
  failures : List Failure
  refetches : ℕ

def Store.init : Store where
  incidentSequence := 0
  recoveryGeneration := 0
  active := false
  activeIncidentId := 0
  latestFailureId := 0
  latestRecoveredFailureId := 0
  latestRecoveryGeneration := 0
  prolonged := false
  incidents := []
  recoveryClaims := []
  failures := []
  refetches := 0

/-- A `Map` that is cut to `size` entries, the oldest ones first. -/
def cut {α : Type} (size : ℕ) (entries : List α) : List α := entries.drop (entries.length - size)

/-- `rememberIncident` -/
def rememberIncident (incidents : List Incident) (record : Incident) : List Incident :=
  cut maxRecoveredIncidents
    ((incidents.filter fun r => r.incidentId != record.incidentId) ++ [record])

namespace Store

variable (s : Store)

def incident (incidentId : ℕ) : Option Incident :=
  s.incidents.find? fun r => r.incidentId == incidentId

/-- `registerConnectivityFailure` -/
def register : Store :=
  let failureId := s.latestFailureId + 1
  let incidentId := if s.active then s.activeIncidentId else s.incidentSequence + 1
  { s with
    incidentSequence := if s.active then s.incidentSequence else incidentId
    incidents := rememberIncident s.incidents
      { incidentId
        firstFailureId := ((s.incident incidentId).map Incident.firstFailureId).getD failureId
        latestFailureId := failureId, active := true, recovered := false, recoveryGeneration := 0 }
    active := true
    activeIncidentId := incidentId
    latestFailureId := failureId
    failures := { failureId, incidentId, recoveredIn := none } :: s.failures }

/-- `publishConnectivityRecovery`; a number that is not an integer is `none`. -/
def publish (requestedGeneration : ℕ) (recoveredThroughFailureId : Option ℕ) : Store :=
  match recoveredThroughFailureId with
  | none => s
  | some through =>
    if !s.active || decide (through < s.latestFailureId) then s
    else
      let generation := max (s.recoveryGeneration + 1) requestedGeneration
      { s with
        recoveryGeneration := generation
        active := false
        latestRecoveredFailureId := through
        latestRecoveryGeneration := generation
        prolonged := false
        incidents := rememberIncident s.incidents
          { incidentId := s.activeIncidentId
            firstFailureId :=
              ((s.incident s.activeIncidentId).map Incident.firstFailureId).getD through
            latestFailureId := through, active := false, recovered := true
            recoveryGeneration := generation }
        failures := s.failures.map fun f =>
          { f with recoveredIn := f.recoveredIn.or (some generation) } }

/-- `setConnectivityIncidentProlonged` -/
def setProlonged (prolonged : Bool) : Store := { s with prolonged := s.active && prolonged }

/-- `getConnectivityIncidentRecoveryGeneration` -/
def recoveryGenerationOf (incidentId failureId : ℕ) : ℕ :=
  match s.incident incidentId with
  | some r =>
    if r.recovered && decide (failureId ≤ r.latestFailureId) then r.recoveryGeneration else 0
  | none =>
    if 0 < failureId ∧ failureId ≤ s.latestRecoveredFailureId then s.latestRecoveryGeneration else 0

/-- `recoveryGenerationForError`, for a transient error with its failure and its incident. -/
def recoveryGenerationForError (failureId incidentId : ℕ) : ℕ :=
  if failureId = 0 then 0
  else if 0 < incidentId then s.recoveryGenerationOf incidentId failureId
  else if failureId ≤ s.latestRecoveredFailureId then s.latestRecoveryGeneration
  else 0

/-- The claim of a request, if it is let through. -/
def claim (failureId incidentId : ℕ) (queryHash : String) : Option (ℕ × String) :=
  let generation := s.recoveryGenerationForError failureId incidentId
  if generation = 0 ∨ (generation, queryHash) ∈ s.recoveryClaims then
    none else some (generation, queryHash)

/-- `requestBoundedQueryRecovery` -/
def requestRecovery (failureId incidentId : ℕ) (queryHash : String) : Store :=
  match s.claim failureId incidentId queryHash with
  | none => s
  | some claim =>
    { s with
      recoveryClaims := cut maxRecoveryClaims ((s.recoveryClaims.filter (· != claim)) ++ [claim])
      refetches := s.refetches + 1 }

/-- `clearClaimsForQueryHash`; a hash is an array in JSON, so that no other hash ends with it after
a colon. -/
def clearClaims (queryHash : String) : Store :=
  { s with recoveryClaims := s.recoveryClaims.filter fun c => c.2 != queryHash }

end Store

/-- What happens next. -/
inductive Action where
  | fail
  | recover (requestedGeneration : ℕ) (recoveredThroughFailureId : Option ℕ)
  | prolong (prolonged : Bool)
  | request (failureId incidentId : ℕ) (queryHash : String)
  | removed (queryHash : String)
  | clearAll

/-- One step. -/
def Store.step (s : Store) : Action → Option Store
  | .fail => some s.register
  | .recover requestedGeneration through => some (s.publish requestedGeneration through)
  | .prolong prolonged => some (s.setProlonged prolonged)
  | .request failureId incidentId queryHash =>
    some (s.requestRecovery failureId incidentId queryHash)
  | .removed queryHash => some (s.clearClaims queryHash)
  | .clearAll => some { s with recoveryClaims := [] }

variable {s s' : Store} {f : Failure} {r : Incident}

/-! ### What the store knows -/

theorem mem_of_mem_cut {α : Type} {size : ℕ} {entries : List α} {a : α}
    (h : a ∈ cut size entries) : a ∈ entries :=
  List.mem_of_mem_drop h

/-- The newest entry survives. -/
theorem last_mem_cut {α : Type} {size : ℕ} (hsize : 0 < size) (entries : List α) (a : α) :
    a ∈ cut size (entries ++ [a]) := by
  rw [cut, List.drop_append_of_le_length (by rw [List.length_append, List.length_singleton]; omega)]
  exact List.mem_append_right _ (List.mem_singleton_self a)

theorem mem_rememberIncident {incidents : List Incident} {record : Incident}
    (h : r ∈ rememberIncident incidents record) : r = record ∨
    (r ∈ incidents ∧ r.incidentId ≠ record.incidentId) := by
  rcases List.mem_append.mp (mem_of_mem_cut h) with hold | hnew
  · obtain ⟨hold, hne⟩ := List.mem_filter.mp hold
    exact .inr ⟨hold, bne_iff_ne.mp hne⟩
  · exact .inl (List.mem_singleton.mp hnew)

theorem incident_eq_some {incidentId : ℕ} (h : s.incident incidentId = some r) :
    r ∈ s.incidents ∧ r.incidentId = incidentId :=
  ⟨List.mem_of_find?_eq_some h, by simpa using List.find?_some h⟩

/-- Where the failures, the incidents, and the last recovery stand. -/
structure Inv (s : Store) : Prop where
  issued : ∀ f ∈ s.failures, 0 < f.failureId ∧ f.failureId ≤ s.latestFailureId ∧
    f.incidentId ≤ s.incidentSequence
  sequence : s.active = true → s.activeIncidentId = s.incidentSequence
  open_ : ∀ f ∈ s.failures, f.recoveredIn = none ↔ s.active = true ∧
    f.incidentId = s.activeIncidentId
  closed : ∀ f ∈ s.failures, ∀ g, f.recoveredIn = some g →
    0 < g ∧ g ≤ s.latestRecoveryGeneration ∧ f.failureId ≤ s.latestRecoveredFailureId
  generation : s.latestRecoveryGeneration ≤ s.recoveryGeneration
  known : ∀ r ∈ s.incidents, r.incidentId ≤ s.incidentSequence ∧
    (r.recovered = false → s.active = true ∧ r.incidentId = s.activeIncidentId) ∧
    (r.recovered = true → 0 < r.recoveryGeneration ∧ ∀ f ∈ s.failures, f.incidentId = r.incidentId →
      f.recoveredIn = some r.recoveryGeneration ∧ f.failureId ≤ r.latestFailureId)
  remembered : s.active = true → ∃ r, s.incident s.activeIncidentId = some r

theorem inv_init : Inv Store.init where
  issued _ hf := by cases hf
  sequence hactive := by cases hactive
  open_ _ hf := by cases hf
  closed _ hf := by cases hf
  generation := le_rfl
  known _ hr := by cases hr
  remembered hactive := by cases hactive

theorem incident_rememberIncident {incidents : List Incident} (record : Incident) :
    ∃ r, (rememberIncident incidents record).find? (fun r =>
        r.incidentId == record.incidentId) = some r := by
  rw [← Option.isSome_iff_exists, List.find?_isSome]
  exact ⟨record, last_mem_cut (by decide) _ _, beq_self_eq_true _⟩

theorem Inv.register (h : Inv s) : Inv s.register := by
  have hid : (if s.active then s.activeIncidentId else s.incidentSequence + 1) =
      if s.active then s.incidentSequence else s.incidentSequence + 1 := by
    split
    · next hactive => exact h.sequence hactive
    · rfl
  -- The failures of other incidents are recovered, those of the active one are not.
  have hsame : ∀ f ∈ s.failures, f.recoveredIn = none ↔
      f.incidentId = if s.active then s.activeIncidentId else s.incidentSequence + 1 := by
    intro f hf
    rw [h.open_ f hf]
    have hle := (h.issued f hf).2.2
    split
    · next hactive => exact ⟨And.right, fun heq => ⟨hactive, heq⟩⟩
    · next hidle => exact ⟨fun hopen => absurd hopen.1 hidle, fun heq => by omega⟩
  unfold Store.register
  dsimp only
  generalize hcurrent : (if s.active then s.activeIncidentId else s.incidentSequence + 1) =
    current at hid hsame
  have hle : s.incidentSequence ≤ current := by
    rw [hid]
    split <;> omega
  have hsequence : (if s.active = true then s.incidentSequence else current) = current := by
    split
    · next hactive => rw [hid, if_pos hactive]
    · rfl
  rw [hsequence]
  refine ⟨fun f hf => ?_, fun _ => rfl, fun f hf => ?_, fun f hf g hg => ?_, h.generation,
    fun r hr => ?_, fun _ => ?_⟩
  · rcases List.mem_cons.mp hf with rfl | hf
    · exact ⟨Nat.succ_pos _, le_rfl, le_rfl⟩
    · have hissued := h.issued f hf
      exact ⟨hissued.1, Nat.le_succ_of_le hissued.2.1, hissued.2.2.trans hle⟩
  · rcases List.mem_cons.mp hf with rfl | hf
    · simp
    · rw [hsame f hf]
      simp
  · rcases List.mem_cons.mp hf with rfl | hf
    · cases hg
    · exact h.closed f hf g hg
  · rcases mem_rememberIncident hr with rfl | ⟨hr, hother⟩
    · exact ⟨le_rfl, fun _ => ⟨rfl, rfl⟩, nofun⟩
    · obtain ⟨hknown, hopen, hrecovered⟩ := h.known r hr
      refine ⟨hknown.trans hle, fun hfalse => ?_, fun htrue => ?_⟩
      · have hactive := hopen hfalse
        rw [if_pos hactive.1] at hcurrent
        exact absurd (hactive.2.trans hcurrent) hother
      · refine ⟨(hrecovered htrue).1, fun f hf hincident => ?_⟩
        rcases List.mem_cons.mp hf with rfl | hf
        · exact absurd hincident.symm hother
        · exact (hrecovered htrue).2 f hf hincident
  · unfold Store.incident
    exact incident_rememberIncident { incidentId := current, .. }

theorem Inv.publish (h : Inv s) (requestedGeneration : ℕ) (through : Option ℕ) :
    Inv (s.publish requestedGeneration through) := by
  unfold Store.publish
  split
  · exact h
  next through =>
  split
  · exact h
  next haccepted =>
  rw [Bool.or_eq_true, Bool.not_eq_true', decide_eq_true_eq, not_or, Bool.not_eq_false,
    Nat.not_lt] at haccepted
  obtain ⟨hactive, hthrough⟩ := haccepted
  dsimp only
  generalize hg : max (s.recoveryGeneration + 1) requestedGeneration = generation
  have hlater : s.recoveryGeneration < generation := by omega
  -- A failure that was recovered before keeps its generation.
  have hmarked : ∀ f ∈ s.failures, (f.recoveredIn.or (some generation)).isSome = true := by
    intro f _
    cases f.recoveredIn <;> rfl
  refine ⟨fun _ hf => ?_, nofun, fun _ hf => ?_, fun _ hf g hsome => ?_, le_rfl,
    fun r hr => ?_, nofun⟩
  · obtain ⟨f, hmem, rfl⟩ := List.mem_map.mp hf
    exact h.issued f hmem
  · obtain ⟨f, hmem, rfl⟩ := List.mem_map.mp hf
    have hsome := hmarked f hmem
    refine ⟨fun hnone => ?_, fun hopen => by cases hopen.1⟩
    rw [show f.recoveredIn.or (some generation) = none from hnone] at hsome
    cases hsome
  · obtain ⟨f, hmem, rfl⟩ := List.mem_map.mp hf
    have hissued := h.issued f hmem
    change f.recoveredIn.or (some generation) = some g at hsome
    show 0 < g ∧ g ≤ generation ∧ f.failureId ≤ through
    cases hrecovered : f.recoveredIn with
    | none =>
      rw [hrecovered, Option.none_or] at hsome
      cases hsome
      omega
    | some g' =>
      rw [hrecovered, Option.some_or] at hsome
      cases hsome
      have hclosed := h.closed f hmem g hrecovered
      have hold := h.generation
      omega
  · rcases mem_rememberIncident hr with rfl | ⟨hr, hother⟩
    · refine ⟨(h.sequence hactive).le, nofun, fun _ =>
        ⟨show 0 < generation by omega, fun _ hf hincident => ?_⟩⟩
      obtain ⟨f, hmem, rfl⟩ := List.mem_map.mp hf
      have hnone := (h.open_ f hmem).mpr ⟨hactive, hincident⟩
      refine ⟨?_, (h.issued f hmem).2.1.trans hthrough⟩
      show f.recoveredIn.or (some generation) = some generation
      rw [hnone]
      rfl
    · obtain ⟨hknown, hopen, hrecovered⟩ := h.known r hr
      refine ⟨hknown, fun hfalse => absurd (hopen hfalse).2 hother, fun htrue => ?_⟩
      refine ⟨(hrecovered htrue).1, fun _ hf hincident => ?_⟩
      obtain ⟨f, hmem, rfl⟩ := List.mem_map.mp hf
      have hold := (hrecovered htrue).2 f hmem hincident
      refine ⟨?_, hold.2⟩
      show f.recoveredIn.or (some generation) = some r.recoveryGeneration
      rw [hold.1]
      rfl

/-- The claims do not matter to the failures. -/
theorem Inv.of_claims (h : Inv s) (claims : List (ℕ × String)) (refetches : ℕ) (prolonged : Bool) :
    Inv { s with recoveryClaims := claims, refetches := refetches, prolonged := prolonged } :=
  ⟨h.issued, h.sequence, h.open_, h.closed, h.generation, h.known, h.remembered⟩

theorem Inv.step {a : Action} (h : Inv s) (hst : s.step a = some s') : Inv s' := by
  cases a with
  | fail =>
    cases hst
    exact h.register
  | recover requestedGeneration through =>
    cases hst
    exact h.publish _ _
  | prolong prolonged =>
    cases hst
    exact h.of_claims _ _ _
  | request failureId incidentId queryHash =>
    cases hst
    unfold Store.requestRecovery
    split
    · exact h
    · exact h.of_claims _ _ _
  | removed queryHash =>
    cases hst
    exact h.of_claims _ _ _
  | clearAll =>
    cases hst
    exact h.of_claims _ _ _

theorem inv_of_reach (h : Runs.Reach Store.step (fun _ _ => True) Store.init s) : Inv s :=
  h.invariant inv_init fun _ _ _ _ hs _ hst => hs.step hst

/-- **A failure counts as recovered exactly if a recovery was published after it**, in every state
reached, also where the store has forgotten its incident; and the generation that it counts for is
not before the one of that recovery. -/
theorem counted_recovered_iff (h : Runs.Reach Store.step (fun _ _ => True) Store.init s)
    (hf : f ∈ s.failures) :
    (0 < s.recoveryGenerationOf f.incidentId f.failureId ↔ f.recoveredIn.isSome = true) ∧
      ∀ g, f.recoveredIn = some g → g ≤ s.recoveryGenerationOf f.incidentId f.failureId := by
  have hinv := inv_of_reach h
  unfold Store.recoveryGenerationOf
  split
  · next r hr =>
    obtain ⟨hmem, hid⟩ := incident_eq_some hr
    obtain ⟨-, hopen, hrecovered⟩ := hinv.known r hmem
    cases htrue : r.recovered with
    | true =>
      obtain ⟨hpositive, hall⟩ := hrecovered htrue
      obtain ⟨hsome, hle⟩ := hall f hf hid.symm
      rw [Bool.true_and, if_pos (decide_eq_true hle), hsome]
      exact ⟨⟨fun _ => rfl, fun _ => hpositive⟩, fun g hg => (Option.some.inj hg).ge⟩
    | false =>
      have hnone := (hinv.open_ f hf).mpr ⟨(hopen htrue).1, hid.symm.trans (hopen htrue).2⟩
      rw [Bool.false_and, hnone]
      exact ⟨⟨fun hlt => absurd hlt (Nat.lt_irrefl 0), nofun⟩, nofun⟩
  · next hforgotten =>
    -- The incident of a failure that is not recovered is never forgotten.
    cases hsome : f.recoveredIn with
    | none =>
      obtain ⟨hactive, hid⟩ := (hinv.open_ f hf).mp hsome
      obtain ⟨r, hr⟩ := hinv.remembered hactive
      rw [← hid, hforgotten] at hr
      cases hr
    | some g =>
      obtain ⟨hpositive, hle, hthrough⟩ := hinv.closed f hf g hsome
      rw [if_pos ⟨(hinv.issued f hf).1, hthrough⟩]
      refine ⟨⟨fun _ => rfl, fun _ => by omega⟩, fun g' hg' => ?_⟩
      cases hg'
      exact hle

/-- Sixty-five incidents that are recovered, one after the other, and the failure of another one. -/
def manyIncidents : List Action :=
  (List.range 65).flatMap (fun i : ℕ => [.fail, .recover 0 (some (i + 1))]) ++ [.fail]

theorem counted_recovered_iff_of_manyIncidents :
    ∃ s f, Runs.runFrom Store.step Store.init manyIncidents = some s ∧ f ∈ s.failures ∧
      s.incident f.incidentId = none ∧ 0 < s.recoveryGenerationOf f.incidentId f.failureId := by
  have hrun : ((Runs.runFrom Store.step Store.init manyIncidents).any fun s =>
      s.failures.any fun f => (s.incident f.incidentId).isNone && f.recoveredIn.isSome) = true := by
    decide +kernel
  obtain ⟨s, hs, hprop⟩ := (Option.any_eq_true _ _).mp hrun
  obtain ⟨f, hf, hprop⟩ := List.any_eq_true.mp hprop
  rw [Bool.and_eq_true, Option.isNone_iff_eq_none] at hprop
  exact ⟨s, f, hs, hf, hprop.1, (counted_recovered_iff (Runs.reach_of_runFrom hs) hf).1.mpr hprop.2⟩

/-! ### One refetch for a recovery -/

/-- A step that does not forget the claims of a query. -/
def keepsClaims (queryHash : String) : Action → Bool
  | .removed removed => removed != queryHash
  | .clearAll => false
  | _ => true

/-- After `refetches` refetches the claim was the newest; the others that came after it do not push
it out. -/
def Held (claim : ℕ × String) (refetches : ℕ) (s : Store) : Prop :=
  refetches ≤ s.refetches ∧ (s.refetches < refetches + maxRecoveryClaims →
    ∃ older newer, s.recoveryClaims = older ++ claim :: newer ∧
      refetches + newer.length ≤ s.refetches)

variable {claim : ℕ × String} {refetches failureId incidentId : ℕ} {queryHash : String}

theorem cut_append_cons {α : Type} {size : ℕ} (older : List α) {newer : List α} (a : α)
    (h : newer.length < size) :
    ∃ kept, cut size (older ++ a :: newer) = kept ++ a :: newer := by
  refine ⟨older.drop ((older ++ a :: newer).length - size), ?_⟩
  rw [cut, List.drop_append_of_le_length]
  rw [List.length_append, List.length_cons]
  omega

/-- Other claims may be dropped. -/
theorem Held.filter (h : Held claim refetches s) (keep : ℕ × String → Bool)
    (hkeep : keep claim = true) :
    Held claim refetches { s with recoveryClaims := s.recoveryClaims.filter keep } := by
  refine ⟨h.1, fun hfew => ?_⟩
  obtain ⟨older, newer, heq, hcount⟩ := h.2 hfew
  refine ⟨older.filter keep, newer.filter keep, ?_, ?_⟩
  · show s.recoveryClaims.filter keep = _
    rw [heq, List.filter_append, List.filter_cons_of_pos hkeep]
  · have hle := List.length_filter_le keep newer
    show _ ≤ s.refetches
    omega

theorem Held.mem (h : Held claim refetches s) (hfew : s.refetches < refetches + maxRecoveryClaims) :
    claim ∈ s.recoveryClaims := by
  obtain ⟨older, newer, heq, -⟩ := h.2 hfew
  rw [heq]
  exact List.mem_append_right _ (List.mem_cons_self ..)

theorem claim_eq_some (h : s.claim failureId incidentId queryHash = some claim) :
    claim ∉ s.recoveryClaims ∧ claim.2 = queryHash := by
  unfold Store.claim at h
  dsimp only at h
  split at h
  · cases h
  · next hnew =>
    cases h
    exact ⟨fun hmem => hnew (.inr hmem), rfl⟩

/-- The claim that a request remembers. -/
theorem held_requestRecovery (h : s.claim failureId incidentId queryHash = some claim) :
    Held claim (s.requestRecovery failureId incidentId queryHash).refetches
      (s.requestRecovery failureId incidentId queryHash) := by
  unfold Store.requestRecovery
  rw [h]
  refine ⟨Nat.le_refl _, fun _ => ?_⟩
  have hempty : ([] : List (ℕ × String)).length < maxRecoveryClaims := Nat.zero_lt_succ _
  obtain ⟨kept, hkept⟩ := cut_append_cons (s.recoveryClaims.filter (· != claim)) claim hempty
  refine ⟨kept, [], ?_, Nat.le_refl _⟩
  dsimp only
  exact hkept

/-- A request pushes an old claim at most one place towards the end. -/
theorem Held.requestRecovery (h : Held claim refetches s) :
    Held claim refetches (s.requestRecovery failureId incidentId queryHash) := by
  unfold Store.requestRecovery
  split
  · exact h
  next other hother =>
  refine ⟨Nat.le_succ_of_le h.1, fun hfew => ?_⟩
  change s.refetches + 1 < _ at hfew
  have hfew' : s.refetches < refetches + maxRecoveryClaims := Nat.lt_of_succ_lt hfew
  -- What is claimed now is another claim, as this one is still there.
  have hne : (claim != other) = true := by
    rw [bne_iff_ne]
    rintro rfl
    exact (claim_eq_some hother).1 (h.mem hfew')
  obtain ⟨older, newer, heq, hcount⟩ := (h.filter (· != other) hne).2 hfew'
  change s.recoveryClaims.filter (· != other) = _ at heq
  change _ ≤ s.refetches at hcount
  have hlength : (newer ++ [other]).length = newer.length + 1 := List.length_append
  have hroom : (newer ++ [other]).length < maxRecoveryClaims := by omega
  obtain ⟨kept, hkept⟩ := cut_append_cons older claim hroom
  refine ⟨kept, newer ++ [other], ?_, ?_⟩
  · dsimp only
    rw [heq, List.append_assoc, List.cons_append, hkept]
  · show _ ≤ s.refetches + 1
    omega

theorem Held.step {a : Action} (h : Held claim refetches s) (hkeep : keepsClaims claim.2 a = true)
    (hst : s.step a = some s') : Held claim refetches s' := by
  cases a with
  | fail =>
    cases hst
    exact h
  | recover requestedGeneration through =>
    cases hst
    unfold Store.publish
    split
    · exact h
    · split <;> exact h
  | prolong prolonged =>
    cases hst
    exact h
  | request failureId incidentId queryHash =>
    cases hst
    exact h.requestRecovery
  | removed queryHash =>
    cases hst
    exact h.filter _ (by rw [bne_comm]; exact hkeep)
  | clearAll => cases hkeep

/-- **A query is fetched again once for a recovery.**  After a request that was let through, in
every run in which the query is not removed and the claims are not cleared, until 512 other requests
were let through, no request is let through for the same query and the same recovery. -/
theorem refetched_once (hclaim : s.claim failureId incidentId queryHash = some claim)
    (h : Runs.Reach Store.step (fun _ a => keepsClaims queryHash a = true)
      (s.requestRecovery failureId incidentId queryHash) s')
    (hfew : s'.refetches < (s.requestRecovery failureId incidentId queryHash).refetches +
      maxRecoveryClaims)
    (failureId' incidentId' : ℕ) : s'.claim failureId' incidentId' queryHash ≠ some claim := by
  have hname := (claim_eq_some hclaim).2
  have hheld : Held claim (s.requestRecovery failureId incidentId queryHash).refetches s' :=
    h.invariant (held_requestRecovery hclaim) fun _ _ _ _ hs hok hst =>
      hs.step (by rw [hname]; exact hok) hst
  exact fun hagain => (claim_eq_some hagain).1 (hheld.mem hfew)

/-- A failure and its recovery. -/
def oneRecovery : Store := Store.init.register.publish 0 (some 1)

/-- Another query is fetched again, the connection is lost and comes back, and the first one is
fetched for this recovery too; another one is removed. -/
def meanwhile : List Action :=
  [.request 1 1 "detail", .fail, .request 2 2 "library", .recover 0 (some 2),
    .request 2 2 "library", .removed "detail", .request 2 2 "home"]

/-- Two views of a query ask after it, the second one much later. -/
theorem refetched_once_of_twoViews :
    ∃ s, oneRecovery.claim 1 1 "library" = some (1, "library") ∧
      Runs.runFrom (Runs.guarded Store.step fun _ a => keepsClaims "library" a)
        (oneRecovery.requestRecovery 1 1 "library") meanwhile = some s ∧
      s.refetches = 4 ∧ s.claim 1 1 "library" ≠ some (1, "library") := by
  have hclaim : oneRecovery.claim 1 1 "library" = some (1, "library") := by decide +kernel
  have hrun : ((Runs.runFrom (Runs.guarded Store.step fun _ a => keepsClaims "library" a)
      (oneRecovery.requestRecovery 1 1 "library") meanwhile).any fun s =>
          s.refetches == 4) = true := by
    decide +kernel
  obtain ⟨s, hs, hcount⟩ := (Option.any_eq_true _ _).mp hrun
  rw [beq_iff_eq] at hcount
  have hfew : s.refetches < (oneRecovery.requestRecovery 1 1 "library").refetches +
      maxRecoveryClaims := by
    rw [hcount]
    decide +kernel
  exact ⟨s, hclaim, hs, hcount, refetched_once hclaim
    (Runs.reach_of_guarded (Runs.reach_of_runFrom hs)) hfew 1 1⟩

end ConnectivityRecovery
