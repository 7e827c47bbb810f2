/-
Leaving the page for a provider and coming back (`externalNavigationCoordinator.js`).

At most one navigation is current.  While it is under way the reads of its identity are cancelled,
those that are running and those that begin; a handle of an earlier navigation has no effect.

* `State.step` — the functions of the module, the timer, and the clock;
* `Inv` — the snapshot and the timer belong to the current navigation, and the reads of a suspended
  identity are cancelled;
* `suspended_reads_aborted` — so it is in every run in which a navigation is prepared before it
  leaves;
* `unprepared_navigation_keeps_reads` — without that, running reads go on;
* `navigation_expires` — a navigation is over after fifteen minutes, and its handle stays dead.
-/
import Elvern.Runs
import Mathlib.Data.List.Basic
import Mathlib.Tactic.Common

namespace ExternalNavigation

/-- `EXTERNAL_NAVIGATION_MAX_AGE_MS` -/
def externalNavigationMaxAgeMs : ℕ := 15 * 60 * 1000

/-- `phase` -/
inductive Phase where
  | starting
  | preparing
  | navigating
  | reconciling
  deriving DecidableEq

/-- A record, named by its handle. -/
structure Record where
  handle : ℕ
  identity : String
  provider : String
  operationId : String
  phase : Phase
  lifecycleGeneration : ℕ
  expiresAt : ℕ
  deriving DecidableEq

/-- `expectedNavigationReason`, without its constants. -/
structure AbortReason where
  identity : String
  provider : String
  operationId : String
  lifecycleGeneration : ℕ
  resource : String
  deriving DecidableEq

/-- A registered owner of reads; an abort controller keeps its first reason. -/
structure Owner where
  id : ℕ
  identity : String
  resource : String
  aborted : Option AbortReason
  deriving DecidableEq

/-- `String.prototype.trim` and `toLowerCase`. -/
structure Texts where
  trim : String → String
  lower : String → String

/-- The variables of the module, the page, and the clock. -/
structure State where
  currentNavigation : Option Record
  timer : Option (ℕ × ℕ)
  snapshot : Option Record
  requestOwners : List Owner
  nextHandle : ℕ
  nextOwner : ℕ
  lifecycleGeneration : ℕ
  clock : ℕ

def State.init : State where
  currentNavigation := none
  timer := none
  snapshot := none
  requestOwners := []
  nextHandle := 0
  nextOwner := 0
  lifecycleGeneration := 0
  clock := 0

/-- The phases in which the reads of the identity are suspended. -/
def Phase.suspends (phase : Phase) : Bool :=
  phase == .preparing || phase == .navigating || phase == .reconciling

namespace State

variable (s : State)

def publish (record : Option Record) : State := { s with snapshot := record }

/-- `expireCurrentNavigation` of the record with this handle. -/
def expireCurrentNavigation (handle : ℕ) : State :=
  if s.currentNavigation.any fun r => r.handle == handle then
    { s with currentNavigation := none, timer := none }.publish none
  else s

/-- `requireHandle` -/
def requireHandle (handle : ℕ) : Option Record :=
  s.currentNavigation.filter fun r => r.handle == handle

def expectedNavigationReason (record : Record) (resource : String) : AbortReason where
  identity := record.identity
  provider := record.provider
  operationId := record.operationId
  lifecycleGeneration := record.lifecycleGeneration
  resource := resource

/-- `abortOwnedReads` -/
def abortOwnedReads (record : Record) : State :=
  { s with
    requestOwners := s.requestOwners.map fun o =>
      if o.identity = record.identity ∧ o.aborted = none then
        { o with aborted := some (expectedNavigationReason record o.resource) }
      else o }

/-- `beginExternalNavigation`; `none` where it throws. -/
def beginExternalNavigation (txt : Texts) (identity provider operationId : String) : Option State :=
  let identity := txt.trim identity
  let provider := txt.lower (txt.trim provider)
  let operationId := txt.trim operationId
  if identity = "" ∨ provider = "" ∨ operationId = "" then none
  else if s.currentNavigation.any fun r =>
      r.identity = identity ∧ r.provider = provider ∧ r.operationId = operationId then some s
  else
    -- The record of another navigation is replaced, which is what expires it.
    let record : Record :=
      { handle := s.nextHandle, identity, provider, operationId, phase := .starting
        lifecycleGeneration := s.lifecycleGeneration, expiresAt :=
          s.clock + externalNavigationMaxAgeMs }
    some ({ s with
      currentNavigation := some record
      timer := some (record.handle, record.expiresAt)
      nextHandle := s.nextHandle + 1 }.publish (some record))

/-- A navigation goes on to `phase`. -/
def mark (handle : ℕ) (phase : Phase) (aborts : Bool) : State :=
  match s.requireHandle handle with
  | none => s
  | some record =>
    let record := { record with phase }
    let s := { s with currentNavigation := some record }.publish (some record)
    if aborts then s.abortOwnedReads record else s

def prepareExternalNavigation (handle : ℕ) : State := s.mark handle .preparing true

def markExternalNavigationNavigating (handle : ℕ) : State := s.mark handle .navigating false

def markExternalNavigationReconciling (handle : ℕ) : State := s.mark handle .reconciling true

def completeExternalNavigation (handle : ℕ) : State :=
  match s.requireHandle handle with
  | none => s
  | some record => s.expireCurrentNavigation record.handle

def clearExternalNavigationForIdentityChange (txt : Texts) (nextIdentity : String) : State :=
  match s.currentNavigation with
  | none => s
  | some record =>
    if txt.trim nextIdentity ≠ "" ∧ record.identity = txt.trim nextIdentity then s
    else s.expireCurrentNavigation record.handle

/-- `createExternalNavigationAwareRequestOwner` -/
def createRequestOwner (txt : Texts) (identity resource : String) : State :=
  let identity := txt.trim identity
  let resource := txt.lower (txt.trim resource)
  let aborted := (s.currentNavigation.filter fun r => r.identity == identity &&
    r.phase.suspends).map
    fun r => expectedNavigationReason r resource
  { s with
    requestOwners := s.requestOwners ++ [{ id := s.nextOwner, identity, resource, aborted }]
    nextOwner := s.nextOwner + 1 }

/-- `releaseExternalNavigationAwareRequestOwner` -/
def releaseRequestOwner (id : ℕ) : State :=
  { s with requestOwners := s.requestOwners.filter fun o => o.id != id }

/-- `isExternalNavigationSuspendedForIdentity` -/
def isSuspendedForIdentity (txt : Texts) (identity : String) : Bool :=
  s.currentNavigation.any fun r => r.identity == txt.trim identity && r.phase.suspends

end State

/-- What happens next. -/
inductive Action where
  | begin (identity provider operationId : String)
  | prepare (handle : ℕ)
  | navigating (handle : ℕ)
  | reconciling (handle : ℕ)
  | complete (handle : ℕ)
  | identityChange (nextIdentity : String)
  | createOwner (identity resource : String)
  | releaseOwner (id : ℕ)
  /-- The timer fires; it is never early. -/
  | timeout
  /-- The page is shown again. -/
  | pageShow
  /-- Time passes, but not past a timer that is due. -/
  | tick (now : ℕ)

/-- One step. -/
def State.step (txt : Texts) (s : State) : Action → Option State
  | .begin identity provider operationId =>
    s.beginExternalNavigation txt identity provider operationId
  | .prepare handle => some (s.prepareExternalNavigation handle)
  | .navigating handle => some (s.markExternalNavigationNavigating handle)
  | .reconciling handle => some (s.markExternalNavigationReconciling handle)
  | .complete handle => some (s.completeExternalNavigation handle)
  | .identityChange nextIdentity =>
    some (s.clearExternalNavigationForIdentityChange txt nextIdentity)
  | .createOwner identity resource => some (s.createRequestOwner txt identity resource)
  | .releaseOwner id => some (s.releaseRequestOwner id)
  | .timeout =>
    match s.timer with
    | some (handle, due) => if due ≤ s.clock then some (s.expireCurrentNavigation handle) else none
    | none => none
  | .pageShow => some { s with lifecycleGeneration := s.lifecycleGeneration + 1 }
  | .tick now =>
    if now < s.clock ∨ s.timer.any fun t => decide (t.2 < now) then
      none else some { s with clock := now }

/-- A navigation leaves only after it was prepared. -/
def prepared (s : State) : Action → Bool
  | .navigating handle => (s.requireHandle handle).all fun r => r.phase != .starting
  | _ => true

variable {txt : Texts} {s s' : State} {handle : ℕ} {record : Record}

/-! ### The current navigation -/

structure Inv (s : State) : Prop where
  snapshot : s.snapshot = s.currentNavigation
  timer : s.timer = s.currentNavigation.map fun r => (r.handle, r.expiresAt)
  fresh : ∀ r, s.currentNavigation = some r → r.handle < s.nextHandle
  age : ∀ r, s.currentNavigation = some r → s.clock ≤ r.expiresAt ∧
    r.expiresAt ≤ s.clock + externalNavigationMaxAgeMs

theorem inv_init : Inv State.init := by
  refine ⟨rfl, rfl, ?_, ?_⟩ <;> intro r hr <;> cases hr

theorem requireHandle_eq_some : s.requireHandle handle = some record ↔
    s.currentNavigation = some record ∧ record.handle = handle := by
  rw [State.requireHandle, Option.filter_eq_some_iff, beq_iff_eq]

/-- An expired navigation leaves nothing behind but the owners. -/
theorem expire_cases (s : State) (handle : ℕ) : s.expireCurrentNavigation handle = s ∨
    ((∃ r, s.currentNavigation = some r ∧ r.handle = handle) ∧ s.expireCurrentNavigation handle =
      { s with currentNavigation := none, timer := none, snapshot := none }) := by
  unfold State.expireCurrentNavigation
  split
  · next hany =>
    obtain ⟨r, hr, hhandle⟩ := (Option.any_eq_true _ _).mp hany
    exact .inr ⟨⟨r, hr, beq_iff_eq.mp hhandle⟩, rfl⟩
  · exact .inl rfl

/-- A mark of a stale handle does nothing; any other one changes the phase and may cancel reads. -/
theorem mark_cases (s : State) (handle : ℕ) (phase : Phase) (aborts : Bool) :
    (s.requireHandle handle = none ∧ s.mark handle phase aborts = s) ∨
      ∃ record owners, s.currentNavigation = some record ∧ record.handle = handle ∧
        s.mark handle phase aborts =
          { s with
            currentNavigation := some { record with phase }
            snapshot := some { record with phase }
            requestOwners := owners } ∧
        (∀ o ∈ owners, ∃ o' ∈ s.requestOwners, o.identity = o'.identity ∧
          (o'.aborted.isSome = true → o.aborted.isSome = true)) ∧
        (aborts = true → ∀ o ∈ owners, o.identity = record.identity → o.aborted.isSome = true) := by
  unfold State.mark
  rcases hrecord : s.requireHandle handle with _ | record
  · exact .inl ⟨rfl, rfl⟩
  obtain ⟨hcurrent, hhandle⟩ := requireHandle_eq_some.mp hrecord
  refine .inr ?_
  dsimp only
  cases aborts with
  | false =>
    exact ⟨record, s.requestOwners, hcurrent, hhandle, rfl, fun o ho => ⟨o, ho, rfl, id⟩, nofun⟩
  | true =>
    refine ⟨record, _, hcurrent, hhandle, rfl, fun o ho => ?_, fun _ o ho hidentity => ?_⟩
    · obtain ⟨o', ho', rfl⟩ := List.mem_map.mp ho
      refine ⟨o', ho', ?_⟩
      split
      · exact ⟨rfl, fun _ => rfl⟩
      · exact ⟨rfl, id⟩
    · obtain ⟨o', ho', rfl⟩ := List.mem_map.mp ho
      split at hidentity
      · next hrunning => rw [if_pos hrunning]; rfl
      · next hother =>
        rw [if_neg hother]
        rw [Option.isSome_iff_ne_none]
        exact fun hnone => hother ⟨hidentity, hnone⟩

/-- The navigation that begins, unless it is the current one already. -/
theorem begin_cases {identity provider operationId : String}
    (h : s.beginExternalNavigation txt identity provider operationId = some s') :
    s' = s ∨ ∃ record, record.handle = s.nextHandle ∧ record.phase = .starting ∧
      record.expiresAt = s.clock + externalNavigationMaxAgeMs ∧
      s' = { s with currentNavigation := some record, snapshot := some record
                    timer := some (record.handle, record.expiresAt), nextHandle :=
                        s.nextHandle + 1 } := by
  unfold State.beginExternalNavigation at h
  dsimp only at h
  split at h
  · cases h
  split at h
  · cases h
    exact .inl rfl
  · cases h
    exact .inr ⟨_, rfl, rfl, rfl, rfl⟩

theorem Inv.expire (h : Inv s) (handle : ℕ) : Inv (s.expireCurrentNavigation handle) := by
  rcases expire_cases s handle with heq | ⟨-, heq⟩
  · rw [heq]
    exact h
  · rw [heq]
    refine ⟨rfl, rfl, ?_, ?_⟩ <;> intro r hr <;> cases hr

theorem Inv.mark (h : Inv s) (handle : ℕ) (phase : Phase) (aborts : Bool) :
    Inv (s.mark handle phase aborts) := by
  rcases mark_cases s handle phase aborts with ⟨-, heq⟩ | ⟨record, owners, hcurrent, -, heq, -, -⟩
  · rw [heq]
    exact h
  · rw [heq]
    refine ⟨rfl, ?_, fun r hr => ?_, fun r hr => ?_⟩
    · rw [h.timer, hcurrent]
      rfl
    · cases hr
      exact h.fresh record hcurrent
    · cases hr
      exact h.age record hcurrent

theorem Inv.complete (h : Inv s) (handle : ℕ) : Inv (s.completeExternalNavigation handle) := by
  unfold State.completeExternalNavigation
  split
  · exact h
  · exact h.expire _

theorem Inv.step {a : Action} (h : Inv s) (hst : s.step txt a = some s') : Inv s' := by
  cases a with
  | begin identity provider operationId =>
    rcases begin_cases hst with rfl | ⟨record, hhandle, -, hexpires, rfl⟩
    · exact h
    · refine ⟨rfl, rfl, fun r hr => ?_, fun r hr => ?_⟩
      · cases hr
        show record.handle < s.nextHandle + 1
        omega
      · cases hr
        show s.clock ≤ record.expiresAt ∧ record.expiresAt ≤ s.clock + _
        omega
  | prepare handle =>
    cases hst
    exact h.mark ..
  | navigating handle =>
    cases hst
    exact h.mark ..
  | reconciling handle =>
    cases hst
    exact h.mark ..
  | complete handle =>
    cases hst
    exact h.complete _
  | identityChange nextIdentity =>
    cases hst
    unfold State.clearExternalNavigationForIdentityChange
    split
    · exact h
    split
    · exact h
    · exact h.expire _
  | createOwner identity resource =>
    cases hst
    exact ⟨h.snapshot, h.timer, h.fresh, h.age⟩
  | releaseOwner id =>
    cases hst
    exact ⟨h.snapshot, h.timer, h.fresh, h.age⟩
  | timeout =>
    rw [State.step] at hst
    split at hst
    · split at hst <;> cases hst
      exact h.expire _
    · cases hst
  | pageShow =>
    cases hst
    exact ⟨h.snapshot, h.timer, h.fresh, h.age⟩
  | tick now =>
    rw [State.step] at hst
    split at hst
    · cases hst
    next htime =>
    cases hst
    rw [not_or, Nat.not_lt] at htime
    refine ⟨h.snapshot, h.timer, h.fresh, fun r hr => ?_⟩
    have hage := h.age r hr
    have hdue : ¬ r.expiresAt < now := by
      intro hlate
      refine htime.2 ?_
      rw [h.timer, show s.currentNavigation = some r from hr]
      exact decide_eq_true hlate
    show now ≤ r.expiresAt ∧ r.expiresAt ≤ now + externalNavigationMaxAgeMs
    omega

/-! ### Handles -/

/-- The handle was given out, and its navigation is not the current one. -/
def Dead (handle : ℕ) (s : State) : Prop :=
  handle < s.nextHandle ∧ ∀ r, s.currentNavigation = some r → r.handle ≠ handle

theorem Dead.expire (h : Dead handle s) (other : ℕ) :
    Dead handle (s.expireCurrentNavigation other) := by
  rcases expire_cases s other with heq | ⟨-, heq⟩
  · rw [heq]
    exact h
  · rw [heq]
    exact ⟨h.1, nofun⟩

theorem Dead.mark (h : Dead handle s) (other : ℕ) (phase : Phase) (aborts : Bool) :
    Dead handle (s.mark other phase aborts) := by
  rcases mark_cases s other phase aborts with ⟨-, heq⟩ | ⟨record, owners, hcurrent, -, heq, -, -⟩
  · rw [heq]
    exact h
  · rw [heq]
    refine ⟨h.1, fun r hr => ?_⟩
    cases hr
    exact h.2 record hcurrent

theorem Dead.step {a : Action} (h : Dead handle s) (hst : s.step txt a = some s') :
    Dead handle s' := by
  cases a with
  | begin identity provider operationId =>
    rcases begin_cases hst with rfl | ⟨record, hhandle, -, -, rfl⟩
    · exact h
    · refine ⟨Nat.lt_succ_of_lt h.1, fun r hr => ?_⟩
      cases hr
      rw [hhandle]
      exact Nat.ne_of_gt h.1
  | prepare other =>
    cases hst
    exact h.mark ..
  | navigating other =>
    cases hst
    exact h.mark ..
  | reconciling other =>
    cases hst
    exact h.mark ..
  | complete other =>
    cases hst
    unfold State.completeExternalNavigation
    split
    · exact h
    · exact h.expire _
  | identityChange nextIdentity =>
    cases hst
    unfold State.clearExternalNavigationForIdentityChange
    split
    · exact h
    split
    · exact h
    · exact h.expire _
  | createOwner | releaseOwner | pageShow =>
    cases hst
    exact h
  | timeout =>
    rw [State.step] at hst
    split at hst
    · split at hst <;> cases hst
      exact h.expire _
    · cases hst
  | tick now =>
    rw [State.step] at hst
    split at hst <;> cases hst
    exact h

/-- **A navigation ends, and does not come back.**  In every state reached the current navigation is
at most fifteen minutes old; and once a handle is not the current one, it has no effect in any state
reached from there. -/
theorem navigation_expires {s₀ : State}
    (h₀ : Runs.Reach (State.step txt) (fun _ _ => True) State.init s₀)
    (h : Runs.Reach (State.step txt) (fun _ _ => True) s₀ s) :
    (∀ r, s.currentNavigation = some r → s.clock ≤ r.expiresAt ∧
      r.expiresAt ≤ s.clock + externalNavigationMaxAgeMs) ∧
      ∀ handle < s₀.nextHandle, s₀.requireHandle handle = none → ∀ phase aborts,
        s.mark handle phase aborts = s ∧ s.completeExternalNavigation handle = s := by
  have hinv : Inv s := (h₀.trans h).invariant inv_init fun _ _ _ _ hs _ hst => hs.step hst
  refine ⟨hinv.age, fun handle hgiven hstale phase aborts => ?_⟩
  have hdead₀ : Dead handle s₀ := by
    refine ⟨hgiven, fun r hr heq => ?_⟩
    rw [requireHandle_eq_some.mpr ⟨hr, heq⟩] at hstale
    cases hstale
  have hdead : Dead handle s :=
    Runs.Reach.invariant (P := Dead handle) hdead₀ (fun _ _ _ _ hs _ hst => hs.step hst) h
  have hnone : s.requireHandle handle = none := by
    rcases hrecord : s.requireHandle handle with _ | record
    · rfl
    · obtain ⟨hcurrent, hhandle⟩ := requireHandle_eq_some.mp hrecord
      exact absurd hhandle (hdead.2 record hcurrent)
  unfold State.mark State.completeExternalNavigation
  rw [hnone]
  exact ⟨rfl, rfl⟩

/-- Texts that are trimmed already. -/
def plainTexts : Texts := ⟨id, id⟩

/-- A navigation that is replaced by another one, which is prepared a second later. -/
theorem navigation_expires_of_replaced :
    ∃ s₀ s, Runs.runFrom (State.step plainTexts) State.init
        [.begin "1" "google_drive" "first", .begin "1" "google_drive" "second"] = some s₀ ∧
      Runs.runFrom (State.step plainTexts) s₀ [.tick 1000, .prepare 1] = some s ∧
      s.prepareExternalNavigation 0 = s ∧ s.completeExternalNavigation 0 = s := by
  have hrun : ((Runs.runFrom (State.step plainTexts) State.init
      [.begin "1" "google_drive" "first", .begin "1" "google_drive" "second"]).any fun s₀ =>
        decide (0 < s₀.nextHandle ∧ s₀.requireHandle 0 = none) &&
          (Runs.runFrom (State.step plainTexts) s₀ [.tick 1000, .prepare 1]).isSome) = true := by
    decide +kernel
  obtain ⟨s₀, hs₀, hprop⟩ := (Option.any_eq_true _ _).mp hrun
  rw [Bool.and_eq_true, decide_eq_true_eq] at hprop
  obtain ⟨⟨hgiven, hstale⟩, hsome⟩ := hprop
  obtain ⟨s, hs⟩ := Option.isSome_iff_exists.mp hsome
  exact ⟨s₀, s, hs₀, hs,
    (navigation_expires (Runs.reach_of_runFrom hs₀) (Runs.reach_of_runFrom hs)).2 0 hgiven
    hstale .preparing true⟩

/-! ### The reads of a suspended identity -/

/-- The reads of the identity are cancelled while its navigation is under way. -/
def Suspends (s : State) : Prop :=
  ∀ r, s.currentNavigation = some r → r.phase.suspends = true →
    ∀ o ∈ s.requestOwners, o.identity = r.identity → o.aborted.isSome = true

theorem Suspends.expire (h : Suspends s) (handle : ℕ) :
    Suspends (s.expireCurrentNavigation handle) := by
  rcases expire_cases s handle with heq | ⟨-, heq⟩
  · rw [heq]
    exact h
  · rw [heq]
    exact nofun

/-- A mark that cancels the reads. -/
theorem suspends_mark_aborting (h : Suspends s) (handle : ℕ) (phase : Phase) :
    Suspends (s.mark handle phase true) := by
  rcases mark_cases s handle phase true with ⟨-, heq⟩ | ⟨record, owners, -, -, heq, -, haborts⟩
  · rw [heq]
    exact h
  · rw [heq]
    intro r hr _ o ho hidentity
    cases hr
    exact haborts rfl o ho hidentity

theorem Suspends.step {a : Action} (h : Suspends s) (hok : prepared s a = true)
    (hst : s.step txt a = some s') : Suspends s' := by
  cases a with
  | begin identity provider operationId =>
    rcases begin_cases hst with rfl | ⟨record, -, hphase, -, rfl⟩
    · exact h
    · intro r hr hsuspends
      cases hr
      rw [hphase] at hsuspends
      cases hsuspends
  | prepare handle =>
    cases hst
    exact suspends_mark_aborting h handle .preparing
  | reconciling handle =>
    cases hst
    exact suspends_mark_aborting h handle .reconciling
  | navigating handle =>
    cases hst
    show Suspends (s.mark handle .navigating false)
    rcases mark_cases s handle .navigating false with
      ⟨-, heq⟩ | ⟨record, owners, hcurrent, hhandle, heq, hkept, -⟩
    · rw [heq]
      exact h
    · rw [heq]
      intro r hr _ o ho hidentity
      cases hr
      -- The navigation was prepared, so that the reads are cancelled already.
      have hprepared : record.phase.suspends = true := by
        rw [prepared, requireHandle_eq_some.mpr ⟨hcurrent, hhandle⟩] at hok
        cases hphase : record.phase with
        | starting => simp [hphase] at hok
        | preparing | navigating | reconciling => rfl
      obtain ⟨o', ho', hsame, haborted⟩ := hkept o ho
      exact haborted (h record hcurrent hprepared o' ho' (hsame.symm.trans hidentity))
  | complete handle =>
    cases hst
    unfold State.completeExternalNavigation
    split
    · exact h
    · exact h.expire _
  | identityChange nextIdentity =>
    cases hst
    unfold State.clearExternalNavigationForIdentityChange
    split
    · exact h
    split
    · exact h
    · exact h.expire _
  | createOwner identity resource =>
    cases hst
    intro r hr hsuspends o ho hidentity
    rcases List.mem_append.mp ho with ho | ho
    · exact h r hr hsuspends o ho hidentity
    · rw [List.mem_singleton.mp ho] at hidentity ⊢
      have hcurrent : s.currentNavigation = some r := hr
      dsimp only at hidentity ⊢
      simp [hcurrent, hidentity, hsuspends, Option.filter]
  | releaseOwner id =>
    cases hst
    exact fun r hr hsuspends o ho => h r hr hsuspends o (List.mem_filter.mp ho).1
  | timeout =>
    rw [State.step] at hst
    split at hst
    · split at hst <;> cases hst
      exact h.expire _
    · cases hst
  | pageShow =>
    cases hst
    exact h
  | tick now =>
    rw [State.step] at hst
    split at hst <;> cases hst
    exact h

/-- **No read of a suspended identity goes on.**  In every run in which a navigation is prepared
before it leaves, an identity that is suspended has no owner of reads that is not cancelled, and the
snapshot tells of the navigation that suspends it. -/
theorem suspended_reads_aborted
    (h : Runs.Reach (State.step txt) (fun s a => prepared s a = true) State.init s)
    {identity : String} (hsuspended : s.isSuspendedForIdentity txt identity = true) :
    (∀ o ∈ s.requestOwners, o.identity = txt.trim identity → o.aborted.isSome = true) ∧
      s.snapshot.any (fun r => r.identity == txt.trim identity && r.phase.suspends) = true := by
  have hinv : Inv s := h.invariant inv_init fun _ _ _ _ hs _ hst => hs.step hst
  have hall : Suspends s := by
    refine Runs.Reach.invariant (P := Suspends) ?_ (fun _ _ _ _ hs hok hst => hs.step hok hst) h
    exact nofun
  refine ⟨fun o ho hidentity => ?_, by rw [hinv.snapshot]; exact hsuspended⟩
  obtain ⟨r, hr, hsame⟩ := (Option.any_eq_true _ _).mp hsuspended
  rw [Bool.and_eq_true, beq_iff_eq] at hsame
  exact hall r hr hsame.2 o ho (hidentity.trans hsame.1.symm)

/-- A read that runs, one that begins, and one of another user. -/
def preparedRun : List Action :=
  [.createOwner "1" "library", .createOwner "2" "library",
    .begin "1" "google_drive" "reconnect", .prepare 0, .createOwner "1" "detail", .navigating 0]

theorem suspended_reads_aborted_of_preparedRun :
    ∃ s, Runs.runFrom (Runs.guarded (State.step plainTexts) prepared)
      State.init preparedRun = some s ∧
      s.requestOwners.map (fun o => o.aborted.isSome) = [true, false, true] ∧
      ∀ o ∈ s.requestOwners, o.identity = "1" → o.aborted.isSome = true := by
  have hrun : ((Runs.runFrom (Runs.guarded (State.step plainTexts) prepared)
      State.init preparedRun).any fun s =>
      decide (s.requestOwners.map (fun o => o.aborted.isSome) = [true, false, true]) &&
        s.isSuspendedForIdentity plainTexts "1") = true := by
    decide +kernel
  obtain ⟨s, hs, hprop⟩ := (Option.any_eq_true _ _).mp hrun
  rw [Bool.and_eq_true, decide_eq_true_eq] at hprop
  exact ⟨s, hs, hprop.1,
    (suspended_reads_aborted (Runs.reach_of_guarded (Runs.reach_of_runFrom hs)) hprop.2).1⟩

/-- A navigation that leaves without being prepared lets the running reads go on. -/
theorem unprepared_navigation_keeps_reads :
    ∃ s, Runs.Reach (State.step plainTexts) (fun _ _ => True) State.init s ∧
      s.isSuspendedForIdentity plainTexts "1" = true ∧ ∃ o ∈ s.requestOwners, o.identity = "1" ∧
          o.aborted = none := by
  have hrun : ((Runs.runFrom (State.step plainTexts) State.init
      [.createOwner "1" "library", .begin "1" "google_drive" "reconnect",
          .navigating 0]).any fun s =>
        s.isSuspendedForIdentity plainTexts "1" &&
          s.requestOwners.any fun o => decide (o.identity = "1" ∧ o.aborted = none)) = true := by
    decide +kernel
  obtain ⟨s, hs, hprop⟩ := (Option.any_eq_true _ _).mp hrun
  rw [Bool.and_eq_true, List.any_eq_true] at hprop
  obtain ⟨hsuspended, o, ho, hrunning⟩ := hprop
  exact ⟨s, Runs.reach_of_runFrom hs, hsuspended, o, ho, of_decide_eq_true hrunning⟩

end ExternalNavigation
