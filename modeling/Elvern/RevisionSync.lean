/-
The library revision synchronizer of the client (`libraryRevisionQueries.js`).

The client keeps the revision tokens that its caches stand for, its baseline.  A check fetches the
tokens of the server, refreshes what has changed, and only then takes the new tokens over.  Between
two awaits of a check anything else may run: other events, the end of the login, a check of the next
one.

* `Plan` — what `applyLibraryRevisionChange` knows between its awaits, and `Plan.needs` what it
  refreshes;
* `State.step` — the synchronizer, one await at a time;
* `tokens_earned` — in every state reached, a token was taken over only by a check that has finished
  refreshing the caches of its layer, and the baselines of a login form one chain.
-/
import Elvern.Runs
import Mathlib.Logic.Function.Basic
import Mathlib.Data.List.Basic
import Mathlib.Tactic.Common

namespace RevisionSync

/-- `REVISION_TOKEN_FIELDS` -/
inductive Layer where
  | catalog
  | presentation
  | permission
  | userOverlay
  | progress
  | combinedLibrary
  deriving DecidableEq

/-- The tokens of a validated payload. -/
abbrev Revision (τ : Type) := Layer → τ

/-- `SUMMARY_REFRESH_LAYER_FIELDS` -/
def summaryRefreshLayers : List Layer := [.catalog, .presentation, .permission, .userOverlay]

/-- `LIBRARY_PROGRESS_REVISION_IMMEDIATE_RETRY_MAX` -/
def immediateRetryMax : ℕ := 2

/-- A reason to refresh the summaries. -/
inductive Reason where
  | layer (l : Layer)
  | progressCapabilityFallback
  | progressMembership
  deriving DecidableEq

/-- What the requests can fail with, as far as the code tells it apart. -/
inductive RequestError where
  /-- 503 with `library_revision_disabled` -/
  | globallyDisabled
  /-- 503 with `library_progress_state_disabled` -/
  | progressStateDisabled
  /-- 404 -/
  | notFound
  | other
  deriving DecidableEq

/-- `progressError` -/
inductive ProgressError where
  | race
  | request (e : RequestError)
  deriving DecidableEq

/-- What a check awaits after its requests. -/
inductive Effect where
  | refreshAuth
  | refetchSettings
  | patchProgress
  | refreshLibrary
  deriving DecidableEq

/-- The order in which they come. -/
def Effect.rank : Effect → ℕ
  | .refreshAuth => 0
  | .refetchSettings => 1
  | .patchProgress => 2
  | .refreshLibrary => 3

/-- The variables of `applyLibraryRevisionChange`, and what it has finished. -/
structure Plan (τ : Type) where
  previous : Revision τ
  current : Revision τ
  progressState : Option τ
  progressError : Option ProgressError
  progressCapabilityUnavailable : Bool
  summaryRefreshReasons : List Reason
  completed : List Effect

/-- What `check` reads of the result, with the plan that it comes from. -/
structure ApplyResult (τ : Type) where
  nextBaseline : Revision τ
  immediateRetryRequired : Bool
  progressCapabilityUnavailable : Bool
  revisionCapabilityUnavailable : Bool
  fetched : Revision τ
  plan : Option (Plan τ)

/-- What a check is waiting for. -/
inductive Phase (τ : Type) where
  | fetching
  | loadingProgress (previous current : Revision τ)
  | applying (plan : Plan τ) (effect : Effect)
  | concluding (result : ApplyResult τ)

/-- A check that has not returned. -/
structure Operation (τ : Type) where
  generation : ℕ
  immediateRetryAttempt : ℕ
  phase : Phase τ

/-- A baseline that was taken over, with what had been refreshed for it. -/
structure Adoption (τ : Type) where
  generation : ℕ
  previous : Option (Revision τ)
  fetched : Revision τ
  next : Revision τ
  progressState : Option τ
  completed : List Effect

/-- The adoption of a result over the baseline `previous`. -/
def ApplyResult.adoption {τ : Type} (result : ApplyResult τ) (generation : ℕ)
    (previous : Option (Revision τ)) : Adoption τ where
  generation := generation
  previous := previous
  fetched := result.fetched
  next := result.nextBaseline
  progressState := result.plan.bind Plan.progressState
  completed := (result.plan.map Plan.completed).getD []

/-- The refs of the component, the variables of its last effect, and the checks under way.
`history` is not in the code. -/
structure State (τ : Type) where
  lifecycleGeneration : ℕ
  active : Bool
  visible : Bool
  baseline : Option (Revision τ)
  inFlight : Option ℕ
  timer : Bool
  revisionCapabilityUnavailable : Bool
  progressStateCapabilityUnavailable : Bool
  operations : ℕ → Option (Operation τ)
  nextId : ℕ
  retries : List (ℕ × ℕ)
  history : List (Adoption τ)

section Definitions

variable {τ : Type} [DecidableEq τ]

/-- `changedLayers` -/
def changed (previous current : Revision τ) (l : Layer) : Bool := previous l != current l

namespace Plan

/-- The effects that the changes ask for. -/
def needs (plan : Plan τ) : Effect → Bool
  | .refreshAuth => changed plan.previous plan.current .permission
  | .refetchSettings => changed plan.previous plan.current .presentation
  | .patchProgress => plan.progressState.isSome
  | .refreshLibrary => plan.summaryRefreshReasons ≠ []

/-- The last lines of `applyLibraryRevisionChange`. -/
def result (plan : Plan τ) : ApplyResult τ where
  nextBaseline :=
    if plan.progressError.isSome && !plan.progressCapabilityUnavailable then
      Function.update plan.current .progress (plan.previous .progress)
    else plan.current
  immediateRetryRequired := plan.progressError = some .race
  progressCapabilityUnavailable := plan.progressCapabilityUnavailable
  revisionCapabilityUnavailable := false
  fetched := plan.current
  plan := some plan

/-- The plan of a change, before the progress snapshot. -/
def start (previous current : Revision τ) (progressUnavailable : Bool) : Plan τ where
  previous := previous
  current := current
  progressState := none
  progressError := none
  progressCapabilityUnavailable := progressUnavailable
  summaryRefreshReasons := (summaryRefreshLayers.filter (changed previous current)).map .layer
  completed := []

/-- `summaryRefreshReasons.push` -/
def push (plan : Plan τ) (reason : Reason) : Plan τ :=
  { plan with summaryRefreshReasons := plan.summaryRefreshReasons ++ [reason] }

/-- The effect is over; a patch tells whether the membership of a rail may have changed. -/
def complete (plan : Plan τ) (effect : Effect) (membershipMayHaveChanged : Bool) : Plan τ :=
  let plan := { plan with completed := effect :: plan.completed }
  if effect = .patchProgress ∧ membershipMayHaveChanged then plan.push .progressMembership else plan

end Plan

namespace State

/-- The synchronizer before its first effect. -/
def init : State τ where
  lifecycleGeneration := 0
  active := false
  visible := true
  baseline := none
  inFlight := none
  timer := false
  revisionCapabilityUnavailable := false
  progressStateCapabilityUnavailable := false
  operations := fun _ => none
  nextId := 0
  retries := []
  history := []

/-- The cleanup of the last effect, and the first lines of the next one. -/
def renew (s : State τ) (enabled : Bool) : State τ :=
  { s with
    lifecycleGeneration := s.lifecycleGeneration + 1
    active := enabled
    baseline := none
    inFlight := none
    timer := false
    revisionCapabilityUnavailable := false
    progressStateCapabilityUnavailable := false }

/-- `isOperationCurrent` of the effect with this generation. -/
def isOperationCurrent (s : State τ) (generation : ℕ) :
    Bool := s.active && generation == s.lifecycleGeneration

/-- `schedule`: the timer is cleared by every effect, but set only by the last one. -/
def schedule (s : State τ) (generation : ℕ) : State τ :=
  { s with
    timer := s.isOperationCurrent generation && !s.revisionCapabilityUnavailable && s.visible }

/-- `check` -/
def check (s : State τ) (generation immediateRetryAttempt : ℕ) : State τ :=
  if !s.isOperationCurrent generation || s.revisionCapabilityUnavailable || !s.visible then s
  else if s.inFlight.isSome then s
  else
    { s with
      operations := Function.update s.operations s.nextId
        (some { generation, immediateRetryAttempt, phase := .fetching })
      inFlight := some s.nextId
      nextId := s.nextId + 1 }

/-- The check is over. -/
def release (s : State τ) (i : ℕ) : State τ :=
  { s with
    operations := Function.update s.operations i none
    inFlight := if s.inFlight = some i then none else s.inFlight }

/-- The `finally` of a check. -/
def settle (s : State τ) (i : ℕ) (op : Operation τ) (retryImmediately : Bool) : State τ :=
  let s := s.release i
  if retryImmediately && s.isOperationCurrent op.generation && !s.revisionCapabilityUnavailable then
    { s with retries := s.retries ++ [(op.generation, op.immediateRetryAttempt + 1)] }
  else s.schedule op.generation

/-- The check goes on to its next await. -/
def await (s : State τ) (i : ℕ) (op : Operation τ) (phase : Phase τ) : State τ :=
  { s with operations := Function.update s.operations i (some { op with phase }) }

/-- `assertOperationCurrent` before an effect begins. -/
def beginEffect (s : State τ) (i : ℕ) (op : Operation τ) (plan : Plan τ)
    (effect : Effect) : State τ :=
  if s.isOperationCurrent op.generation then s.await i op (.applying plan effect)
    else s.settle i op false

/-- `applyLibraryRevisionChange` from the refresh of the summaries on. -/
def toLibrary (s : State τ) (i : ℕ) (op : Operation τ) (plan : Plan τ) : State τ :=
  if plan.needs .refreshLibrary then s.beginEffect i op plan .refreshLibrary
  else s.await i op (.concluding plan.result)

def toPatch (s : State τ) (i : ℕ) (op : Operation τ) (plan : Plan τ) : State τ :=
  if plan.needs .patchProgress then s.beginEffect i op plan .patchProgress
    else s.toLibrary i op plan

def toSettings (s : State τ) (i : ℕ) (op : Operation τ) (plan : Plan τ) : State τ :=
  if plan.needs .refetchSettings then s.beginEffect i op plan .refetchSettings
    else s.toPatch i op plan

def toAuth (s : State τ) (i : ℕ) (op : Operation τ) (plan : Plan τ) : State τ :=
  if plan.needs .refreshAuth then s.beginEffect i op plan .refreshAuth else s.toSettings i op plan

/-- `applyLibraryRevisionChange` up to its first await. -/
def applyChange (s : State τ) (i : ℕ) (op : Operation τ) (current : Revision τ) : State τ :=
  match s.baseline with
  | none => s.await i op (.concluding
      { nextBaseline := current, immediateRetryRequired := false
        progressCapabilityUnavailable := s.progressStateCapabilityUnavailable
        revisionCapabilityUnavailable := false, fetched := current, plan := none })
  | some previous =>
    let plan := Plan.start previous current s.progressStateCapabilityUnavailable
    if changed previous current .progress then
      if s.progressStateCapabilityUnavailable then
        s.toAuth i op (plan.push .progressCapabilityFallback)
      else s.await i op (.loadingProgress previous current)
    else s.toAuth i op plan

/-- The revision request of a check is answered. -/
def revisionAnswered (s : State τ) (i : ℕ) (op : Operation τ) :
    Except RequestError (Revision τ) → State τ
  | .error e =>
    if e = .globallyDisabled ∨ e = .notFound then
      -- The variable belongs to the effect of the check, the timer to the component.
      let s := { s with timer := false }
      let s := if s.isOperationCurrent op.generation then
        { s with revisionCapabilityUnavailable := true } else s
      s.settle i op false
    else s.settle i op false
  | .ok current =>
    if s.isOperationCurrent op.generation then s.applyChange i op current else s.settle i op false

/-- The progress request of a check is answered. -/
def progressAnswered (s : State τ) (i : ℕ) (op : Operation τ) (previous current : Revision τ) :
    Except RequestError τ → State τ
  | .ok progressRevision =>
    let plan := Plan.start previous current false
    if !s.isOperationCurrent op.generation then s.settle i op false
    else if progressRevision ≠ current .progress then
      s.toAuth i op { plan with progressError := some .race }
    else s.toAuth i op { plan with progressState := some progressRevision }
  | .error e =>
    let plan := { Plan.start previous current false with progressError := some (.request e) }
    match e with
    | .globallyDisabled => s.await i op (.concluding
        { nextBaseline := Function.update current .progress (previous .progress)
          immediateRetryRequired := false, progressCapabilityUnavailable := false
          revisionCapabilityUnavailable := true, fetched := current, plan := some plan })
    | .progressStateDisabled | .notFound =>
      s.toAuth i op ({ plan with progressCapabilityUnavailable := true }.push
        .progressCapabilityFallback)
    | .other => s.toAuth i op plan

/-- The effect of a check is over. -/
def effectDone (s : State τ) (i : ℕ) (op : Operation τ) (plan : Plan τ) (effect : Effect)
    (membershipMayHaveChanged : Bool) : State τ :=
  if !s.isOperationCurrent op.generation then s.settle i op false
  else
    let plan := plan.complete effect membershipMayHaveChanged
    match effect with
    | .refreshAuth => s.toSettings i op plan
    | .refetchSettings => s.toPatch i op plan
    | .patchProgress => s.toLibrary i op plan
    | .refreshLibrary => s.await i op (.concluding plan.result)

/-- `check` after `applyLibraryRevisionChange`. -/
def conclude (s : State τ) (i : ℕ) (op : Operation τ) (result : ApplyResult τ) : State τ :=
  if !s.isOperationCurrent op.generation then s.settle i op false
  else
    let s := { s with progressStateCapabilityUnavailable := result.progressCapabilityUnavailable }
    if result.revisionCapabilityUnavailable then
      { s with revisionCapabilityUnavailable := true, timer := false }.settle i op false
    else
      { s with
        baseline := some result.nextBaseline
        history := result.adoption op.generation s.baseline :: s.history }.settle i op
        (result.immediateRetryRequired && decide (op.immediateRetryAttempt < immediateRetryMax))

end State

/-- What happens next. -/
inductive Action (τ : Type) where
  /-- The effect runs for another identity, after the cleanup of the last one. -/
  | effect (enabled : Bool)
  | unmount
  /-- An event that asks for a check. -/
  | poke
  | timeout
  | retry
  | visibility (visible : Bool)
  | revision (i : ℕ) (answer : Except RequestError (Revision τ))
  | progress (i : ℕ) (answer : Except RequestError τ)
  | effectDone (i : ℕ) (membershipMayHaveChanged : Bool)
  | effectFailed (i : ℕ)
  | conclude (i : ℕ)

/-- One step of the synchronizer. -/
def State.step (s : State τ) : Action τ → Option (State τ)
  | .effect enabled => some ((s.renew enabled).check (s.lifecycleGeneration + 1) 0)
  | .unmount => some { s with active := false, timer := false }
  | .poke => some (s.check s.lifecycleGeneration 0)
  | .timeout =>
    if s.timer then some ({ s with timer := false }.check s.lifecycleGeneration 0) else none
  | .retry =>
    match s.retries with
    | [] => none
    | (generation, attempt) :: rest => some ({ s with retries := rest }.check generation attempt)
  | .visibility visible => some { s with visible, timer := s.timer && visible }
  | .revision i answer =>
    match s.operations i with
    | some op =>
      match op.phase with
      | .fetching => some (s.revisionAnswered i op answer)
      | _ => none
    | none => none
  | .progress i answer =>
    match s.operations i with
    | some op =>
      match op.phase with
      | .loadingProgress previous current => some (s.progressAnswered i op previous current answer)
      | _ => none
    | none => none
  | .effectDone i membershipMayHaveChanged =>
    match s.operations i with
    | some op =>
      match op.phase with
      | .applying plan effect => some (s.effectDone i op plan effect membershipMayHaveChanged)
      | _ => none
    | none => none
  | .effectFailed i =>
    match s.operations i with
    | some op =>
      match op.phase with
      | .applying _ _ => some (s.settle i op false)
      | _ => none
    | none => none
  | .conclude i =>
    match s.operations i with
    | some op =>
      match op.phase with
      | .concluding result => some (s.conclude i op result)
      | _ => none
    | none => none

end Definitions

variable {τ : Type} [DecidableEq τ] {s s' : State τ} {i : ℕ} {op : Operation τ} {plan : Plan τ}

/-! ### What a check has done when it takes the tokens over -/

/-- The caches of a layer have been refreshed. -/
def Adoption.RefreshedFor (a : Adoption τ) : Layer → Prop
  | .catalog | .userOverlay => .refreshLibrary ∈ a.completed
  | .presentation => .refetchSettings ∈ a.completed ∧ .refreshLibrary ∈ a.completed
  | .permission => .refreshAuth ∈ a.completed ∧ .refreshLibrary ∈ a.completed
  | .progress =>
    (a.progressState = some (a.next .progress) ∧ .patchProgress ∈ a.completed) ∨
    .refreshLibrary ∈ a.completed
  | .combinedLibrary => True

/-- Every token is the old one or the fetched one, only the one of the progress may stay behind, and
a token that moves has the caches of its layer refreshed. -/
structure Adoption.Earned (a : Adoption τ) : Prop where
  first : a.previous = none → a.next = a.fetched
  fetched : ∀ l, l ≠ .progress → a.next l = a.fetched l
  moved : ∀ previous, a.previous = some previous → ∀ l, previous l ≠ a.next l →
    a.next l = a.fetched l ∧ a.RefreshedFor l

/-- What the plan says about the changes. -/
structure Plan.Good (plan : Plan τ) : Prop where
  snapshot : ∀ t, plan.progressState = some t → t = plan.current .progress
  reasons : ∀ l ∈ summaryRefreshLayers, changed plan.previous plan.current l = true →
    .layer l ∈ plan.summaryRefreshReasons
  progress : changed plan.previous plan.current .progress = true →
    plan.progressState.isSome = true ∨ .progressCapabilityFallback ∈ plan.summaryRefreshReasons ∨
      (plan.progressError.isSome && !plan.progressCapabilityUnavailable) = true

/-- The effects before the rank `n` that were needed are over. -/
def Plan.Done (plan : Plan τ) (n : ℕ) : Prop :=
  ∀ e : Effect, e.rank < n → plan.needs e = true → e ∈ plan.completed

theorem Plan.Good.push (h : plan.Good) (reason : Reason) : (plan.push reason).Good where
  snapshot := h.snapshot
  reasons l hl hchanged := List.mem_append_left _ (h.reasons l hl hchanged)
  progress hchanged := by
    rcases h.progress hchanged with hsnapshot | hfallback | herror
    · exact .inl hsnapshot
    · exact .inr (.inl (List.mem_append_left _ hfallback))
    · exact .inr (.inr herror)

/-- A plan that only misses its word on the progress. -/
theorem good_of_start {previous current : Revision τ}
    (hplan : plan.previous = previous ∧ plan.current = current ∧
      plan.summaryRefreshReasons =
        (summaryRefreshLayers.filter (changed previous current)).map .layer)
    (hsnapshot : ∀ t, plan.progressState = some t → t = current .progress)
    (hprogress : changed previous current .progress = true → plan.progressState.isSome = true ∨
      (plan.progressError.isSome && !plan.progressCapabilityUnavailable) = true) : plan.Good := by
  obtain ⟨rfl, rfl, hreasons⟩ := hplan
  refine ⟨hsnapshot, fun l hl hchanged => ?_, fun hchanged => ?_⟩
  · rw [hreasons]
    exact List.mem_map_of_mem (List.mem_filter.mpr ⟨hl, hchanged⟩)
  · rcases hprogress hchanged with h | h
    · exact .inl h
    · exact .inr (.inr h)

theorem Plan.done_zero : plan.Done 0 := fun _ he => absurd he (Nat.not_lt_zero _)

/-- An effect that is not needed, or that is over. -/
theorem Plan.Done.succ {e : Effect} (h : plan.Done e.rank)
    (hover : plan.needs e = true → e ∈ plan.completed) : plan.Done (e.rank + 1) := by
  intro e' he' hneeds
  rcases Nat.lt_succ_iff_lt_or_eq.mp he' with hlt | heq
  · exact h e' hlt hneeds
  · have hsame : e' = e := by
      cases e' <;> cases e <;> first | rfl | cases heq
    subst hsame
    exact hover hneeds

/-- A plan with everything over adopts what it has refreshed. -/
theorem Plan.Good.earned (h : plan.Good) (hdone : plan.Done 4) (generation : ℕ) :
    (plan.result.adoption generation (some plan.previous)).Earned := by
  have hkept : ∀ l, l ≠ .progress → plan.result.nextBaseline l = plan.current l := by
    intro l hl
    unfold Plan.result
    dsimp only
    split
    · exact Function.update_of_ne hl ..
    · rfl
  have hlibrary : ∀ reason, reason ∈ plan.summaryRefreshReasons →
      .refreshLibrary ∈ plan.completed := by
    intro reason hreason
    refine hdone .refreshLibrary (by decide) ?_
    simpa [Plan.needs] using List.ne_nil_of_mem hreason
  refine ⟨(fun hnone => by cases hnone), hkept, fun previous hprevious l hmoved => ?_⟩
  cases hprevious
  change plan.previous l ≠ plan.result.nextBaseline l at hmoved
  -- A layer of the summaries moves only by its change.
  have hsummary : ∀ l ∈ summaryRefreshLayers, l ≠ .progress →
      plan.previous l ≠ plan.result.nextBaseline l →
        changed plan.previous plan.current l = true ∧ .refreshLibrary ∈ plan.completed := by
    intro l hl hne hmoved
    rw [hkept l hne] at hmoved
    have hchanged : changed plan.previous plan.current l = true := bne_iff_ne.mpr hmoved
    exact ⟨hchanged, hlibrary _ (h.reasons l hl hchanged)⟩
  cases l with
  | catalog => exact ⟨hkept _ (by decide), (hsummary _ (by decide) (by decide) hmoved).2⟩
  | userOverlay => exact ⟨hkept _ (by decide), (hsummary _ (by decide) (by decide) hmoved).2⟩
  | presentation =>
    obtain ⟨hchanged, hrefreshed⟩ := hsummary _ (by decide) (by decide) hmoved
    exact ⟨hkept _ (by decide), hdone .refetchSettings (by decide) hchanged, hrefreshed⟩
  | permission =>
    obtain ⟨hchanged, hrefreshed⟩ := hsummary _ (by decide) (by decide) hmoved
    exact ⟨hkept _ (by decide), hdone .refreshAuth (by decide) hchanged, hrefreshed⟩
  | combinedLibrary => exact ⟨hkept _ (by decide), trivial⟩
  | progress =>
    by_cases herror : (plan.progressError.isSome && !plan.progressCapabilityUnavailable) = true
    · -- The old token stays, so that it has not moved.
      have hstays : plan.result.nextBaseline .progress = plan.previous .progress := by
        unfold Plan.result
        dsimp only
        rw [if_pos herror, Function.update_self]
      exact absurd hstays.symm hmoved
    · have hnext : plan.result.nextBaseline = plan.current := if_neg herror
      refine ⟨congrFun hnext _, ?_⟩
      have hchanged : changed plan.previous plan.current .progress = true :=
        bne_iff_ne.mpr (by rwa [hnext] at hmoved)
      rcases h.progress hchanged with hsome | hfallback | hstays
      · obtain ⟨t, ht⟩ := Option.isSome_iff_exists.mp hsome
        refine .inl ⟨?_, hdone .patchProgress (by decide) hsome⟩
        show plan.progressState = some (plan.result.nextBaseline .progress)
        rw [hnext, ht, h.snapshot t ht]
      · exact .inr (hlibrary _ hfallback)
      · exact absurd hstays herror

/-! ### Between two awaits -/

/-- What a check of the last effect is waiting for, over the baseline `b`. -/
def PhaseOk (b : Option (Revision τ)) : Phase τ → Prop
  | .fetching => True
  | .loadingProgress previous current =>
    b = some previous ∧ changed previous current .progress = true
  | .applying plan effect => b = some plan.previous ∧ plan.Good ∧ plan.Done effect.rank
  | .concluding result =>
    result.revisionCapabilityUnavailable = true ∨ ∀ generation,
      (result.adoption generation b).Earned

/-- Each adoption starts from the one before it in the same effect. -/
def Linked : List (Adoption τ) → Prop
  | [] => True
  | a :: rest =>
    a.previous = (rest.find? (·.generation = a.generation)).map Adoption.next ∧ Linked rest

structure Inv (s : State τ) : Prop where
  flight : ∀ i op, s.operations i = some op → op.generation = s.lifecycleGeneration →
    s.inFlight = some i
  bound : ∀ i op, s.operations i = some op → op.generation ≤ s.lifecycleGeneration
  phase : ∀ i op, s.operations i = some op → op.generation = s.lifecycleGeneration →
    PhaseOk s.baseline op.phase
  earned : ∀ a ∈ s.history, a.Earned ∧ a.generation ≤ s.lifecycleGeneration
  linked : Linked s.history
  baseline : s.baseline = (s.history.find? (·.generation = s.lifecycleGeneration)).map Adoption.next

theorem inv_init : Inv (State.init : State τ) where
  flight _ _ h := by cases h
  bound _ _ h := by cases h
  phase _ _ h := by cases h
  earned _ h := by cases h
  linked := trivial
  baseline := rfl

/-- The invariant does not look at the timer and the capabilities. -/
theorem Inv.congr (h : Inv s) (hgeneration : s'.lifecycleGeneration = s.lifecycleGeneration)
    (hbaseline : s'.baseline = s.baseline) (hflight : s'.inFlight = s.inFlight)
    (hoperations : s'.operations = s.operations) (hhistory : s'.history = s.history) : Inv s' := by
  refine ⟨?_, ?_, ?_, ?_, ?_, ?_⟩
  · rw [hgeneration, hflight, hoperations]
    exact h.flight
  · rw [hgeneration, hoperations]
    exact h.bound
  · rw [hgeneration, hbaseline, hoperations]
    exact h.phase
  · rw [hgeneration, hhistory]
    exact h.earned
  · rw [hhistory]
    exact h.linked
  · rw [hgeneration, hbaseline, hhistory]
    exact h.baseline

/-- A check that returns changes nothing that the invariant looks at, but that it is over. -/
theorem Inv.settle (h : Inv (s.release i)) (retryImmediately : Bool) :
    Inv (s.settle i op retryImmediately) := by
  unfold State.settle
  dsimp only
  split <;> exact h.congr rfl rfl rfl rfl rfl

omit [DecidableEq τ] in
/-- The checks other than `i`. -/
theorem operations_of_release {j : ℕ} {op' : Operation τ}
    (h : (s.release i).operations j = some op') : j ≠ i ∧ s.operations j = some op' := by
  change Function.update s.operations i none j = some op' at h
  have hne : j ≠ i := by
    rintro rfl
    rw [Function.update_self] at h
    cases h
  exact ⟨hne, by rwa [Function.update_of_ne hne] at h⟩

theorem Inv.release (h : Inv s) (i : ℕ) : Inv (s.release i) where
  flight j op' hop hgeneration := by
    obtain ⟨hne, hop⟩ := operations_of_release hop
    have hflight := h.flight j op' hop hgeneration
    show (if s.inFlight = some i then none else s.inFlight) = some j
    rw [if_neg (by rw [hflight]; exact fun heq => hne (Option.some.inj heq)), hflight]
  bound j op' hop := h.bound j op' (operations_of_release hop).2
  phase j op' hop := h.phase j op' (operations_of_release hop).2
  earned := h.earned
  linked := h.linked
  baseline := h.baseline

/-- A check that returns after the timer or the capabilities have changed. -/
theorem Inv.settle_of_eq {retryImmediately : Bool} (h : Inv s)
    (hgeneration : s'.lifecycleGeneration = s.lifecycleGeneration)
    (hbaseline : s'.baseline = s.baseline)
    (hflight : s'.inFlight = s.inFlight) (hoperations : s'.operations = s.operations)
    (hhistory : s'.history = s.history) : Inv (s'.settle i op retryImmediately) :=
  ((h.congr hgeneration hbaseline hflight hoperations hhistory).release i).settle retryImmediately

/-- A check that goes on to its next await. -/
theorem Inv.await (h : Inv s) (hop : s.operations i = some op) {phase : Phase τ}
    (hphase : op.generation = s.lifecycleGeneration → PhaseOk s.baseline phase) :
    Inv (s.await i op phase) := by
  have hcases : ∀ j op', (s.await i op phase).operations j = some op' →
      (j = i ∧ op' = { op with phase }) ∨ s.operations j = some op' := by
    intro j op' hj
    change Function.update s.operations i (some { op with phase }) j = some op' at hj
    by_cases hne : j = i
    · subst hne
      rw [Function.update_self] at hj
      exact .inl ⟨rfl, (Option.some.inj hj).symm⟩
    · exact .inr (by rwa [Function.update_of_ne hne] at hj)
  refine ⟨fun j op' hj hgeneration => ?_, fun j op' hj => ?_, fun j op' hj hgeneration => ?_,
    h.earned, h.linked, h.baseline⟩
  · rcases hcases j op' hj with ⟨rfl, rfl⟩ | hj
    · exact h.flight j op hop hgeneration
    · exact h.flight j op' hj hgeneration
  · rcases hcases j op' hj with ⟨rfl, rfl⟩ | hj
    · exact h.bound j op hop
    · exact h.bound j op' hj
  · rcases hcases j op' hj with ⟨rfl, rfl⟩ | hj
    · exact hphase hgeneration
    · exact h.phase j op' hj hgeneration

section Plan

variable (h : Inv s) (hop : s.operations i = some op)
  (hprevious : op.generation = s.lifecycleGeneration → s.baseline = some plan.previous)
    (hgood : plan.Good)

include h hop hprevious hgood

theorem Inv.beginEffect {effect : Effect} (hdone : plan.Done effect.rank) :
    Inv (s.beginEffect i op plan effect) := by
  unfold State.beginEffect
  split
  · exact h.await hop fun hgeneration => ⟨hprevious hgeneration, hgood, hdone⟩
  · exact (h.release i).settle false

theorem Inv.concludePlan (hdone : plan.Done 4) : Inv (s.await i op (.concluding plan.result)) :=
  h.await hop fun hgeneration => .inr fun generation =>
    hprevious hgeneration ▸ hgood.earned hdone generation

theorem Inv.toLibrary (hdone : plan.Done 3) : Inv (s.toLibrary i op plan) := by
  unfold State.toLibrary
  split
  · exact h.beginEffect hop hprevious hgood hdone
  · next hneeds => exact h.concludePlan hop hprevious hgood (Plan.Done.succ hdone fun hneeded =>
      absurd hneeded hneeds)

theorem Inv.toPatch (hdone : plan.Done 2) : Inv (s.toPatch i op plan) := by
  unfold State.toPatch
  split
  · exact h.beginEffect hop hprevious hgood hdone
  · next hneeds => exact h.toLibrary hop hprevious hgood (Plan.Done.succ hdone fun hneeded =>
      absurd hneeded hneeds)

theorem Inv.toSettings (hdone : plan.Done 1) : Inv (s.toSettings i op plan) := by
  unfold State.toSettings
  split
  · exact h.beginEffect hop hprevious hgood hdone
  · next hneeds => exact h.toPatch hop hprevious hgood (Plan.Done.succ hdone fun hneeded =>
      absurd hneeded hneeds)

theorem Inv.toAuth : Inv (s.toAuth i op plan) := by
  unfold State.toAuth
  split
  · exact h.beginEffect hop hprevious hgood Plan.done_zero
  · next hneeds =>
    exact h.toSettings hop hprevious hgood (Plan.Done.succ Plan.done_zero fun hneeded =>
      absurd hneeded hneeds)

end Plan

theorem Inv.check (h : Inv s) (generation attempt : ℕ) : Inv (s.check generation attempt) := by
  unfold State.check
  split
  · exact h
  next hopen =>
  split
  · exact h
  next hidle =>
  have hgeneration : generation = s.lifecycleGeneration := by
    simp only [State.isOperationCurrent, Bool.or_eq_true, Bool.not_eq_true', not_or,
      Bool.not_eq_false, Bool.and_eq_true, beq_iff_eq] at hopen
    exact hopen.1.1.2
  -- The new check is the only one of the last effect.
  have hcases : ∀ j op', Function.update s.operations s.nextId
      (some ({ generation, immediateRetryAttempt := attempt, phase := .fetching } : Operation τ))
        j = some op' →
        (j = s.nextId ∧ op' =
          { generation, immediateRetryAttempt := attempt, phase := .fetching }) ∨
          (s.operations j = some op' ∧ op'.generation ≠ s.lifecycleGeneration) := by
    intro j op' hj
    by_cases hne : j = s.nextId
    · subst hne
      rw [Function.update_self] at hj
      exact .inl ⟨rfl, (Option.some.inj hj).symm⟩
    · rw [Function.update_of_ne hne] at hj
      refine .inr ⟨hj, fun hsame => hidle ?_⟩
      rw [h.flight j op' hj hsame]
      rfl
  refine ⟨fun j op' hj hsame => ?_, fun j op' hj => ?_, fun j op' hj hsame => ?_, h.earned,
    h.linked, h.baseline⟩
  · rcases hcases j op' hj with ⟨rfl, -⟩ | ⟨-, hother⟩
    · rfl
    · exact absurd hsame hother
  · rcases hcases j op' hj with ⟨-, rfl⟩ | ⟨hj, -⟩
    · exact Nat.le_of_eq hgeneration
    · exact h.bound j op' hj
  · rcases hcases j op' hj with ⟨-, rfl⟩ | ⟨-, hother⟩
    · trivial
    · exact absurd hsame hother

theorem Inv.applyChange (h : Inv s) (hop : s.operations i = some op) (current : Revision τ) :
    Inv (s.applyChange i op current) := by
  unfold State.applyChange
  split
  · next hnone =>
    refine h.await hop fun _ => .inr fun generation => ⟨fun _ => rfl, fun _ _ => rfl,
      fun previous hprevious => ?_⟩
    rw [hnone] at hprevious
    cases hprevious
  next previous hbaseline =>
  dsimp only
  split
  · next hchanged =>
    split
    · refine h.toAuth hop (fun _ => hbaseline)
        ⟨(fun t ht => by cases ht), fun l hl hlayer => ?_, fun _ => ?_⟩
      · exact List.mem_append_left _ (List.mem_map_of_mem (List.mem_filter.mpr ⟨hl, hlayer⟩))
      · exact .inr (.inl (List.mem_append_right _ (List.mem_singleton_self _)))
    · exact h.await hop fun _ => ⟨hbaseline, hchanged⟩
  · next hchanged =>
    refine h.toAuth hop (fun _ => hbaseline) (good_of_start ⟨rfl, rfl, rfl⟩
      (fun t ht => by cases ht) fun hmoved => ?_)
    exact absurd hmoved hchanged

theorem Inv.revisionAnswered (h : Inv s) (hop : s.operations i = some op)
    (answer : Except RequestError (Revision τ)) : Inv (s.revisionAnswered i op answer) := by
  unfold State.revisionAnswered
  split
  · split
    · dsimp only
      split <;> exact h.settle_of_eq rfl rfl rfl rfl rfl
    · exact (h.release i).settle false
  · split
    · exact h.applyChange hop _
    · exact (h.release i).settle false

theorem Inv.progressAnswered (h : Inv s) (hop : s.operations i = some op)
    {previous current : Revision τ}
    (hphase : op.phase = .loadingProgress previous current) (answer : Except RequestError τ) :
    Inv (s.progressAnswered i op previous current answer) := by
  have hprevious : op.generation = s.lifecycleGeneration → s.baseline = some previous :=
      fun hgeneration => by
    have hok := h.phase i op hop hgeneration
    rw [hphase] at hok
    exact hok.1
  unfold State.progressAnswered
  split
  · next progressRevision =>
    dsimp only
    split
    · exact (h.release i).settle false
    split
    · exact h.toAuth hop hprevious
        (good_of_start ⟨rfl, rfl, rfl⟩ (fun t ht => by cases ht) fun _ => .inr rfl)
    · next hsame =>
      refine h.toAuth hop hprevious (good_of_start ⟨rfl, rfl, rfl⟩ (fun t ht => ?_)
        fun _ => .inl rfl)
      exact (Option.some.inj ht).symm.trans (not_not.mp hsame)
  · next e =>
    have hgood : ∀ unavailable, ({ Plan.start previous current false with
        progressError := some (.request e), progressCapabilityUnavailable := unavailable }.push
          .progressCapabilityFallback).Good := by
      refine fun unavailable => ⟨(fun t ht => by cases ht), fun l hl hlayer => ?_, fun _ => ?_⟩
      · exact List.mem_append_left _ (List.mem_map_of_mem (List.mem_filter.mpr ⟨hl, hlayer⟩))
      · exact .inr (.inl (List.mem_append_right _ (List.mem_singleton_self _)))
    dsimp only
    split
    · exact h.await hop fun _ => .inl rfl
    · exact h.toAuth hop hprevious (hgood true)
    · exact h.toAuth hop hprevious (hgood true)
    · exact h.toAuth hop hprevious
        (good_of_start ⟨rfl, rfl, rfl⟩ (fun t ht => by cases ht) fun _ => .inr rfl)

/-- An effect that is over. -/
theorem Plan.Done.complete {effect : Effect} (h : plan.Done effect.rank) (membership : Bool) :
    (plan.complete effect membership).Done (effect.rank + 1) := by
  intro e he hneeds
  have hcompleted : (plan.complete effect membership).completed = effect :: plan.completed := by
    unfold Plan.complete
    dsimp only
    split <;> rfl
  rw [hcompleted]
  by_cases hsame : e = effect
  · exact hsame ▸ List.mem_cons_self
  have hlt : e.rank < effect.rank := by
    rcases Nat.lt_succ_iff_lt_or_eq.mp he with hlt | heq
    · exact hlt
    · cases e <;> cases effect <;> first | exact absurd rfl hsame | cases heq
  refine List.mem_cons_of_mem _ (h e hlt ?_)
  -- Only the refresh of the summaries can become needed, and it comes last.
  unfold Plan.complete at hneeds
  dsimp only at hneeds
  split at hneeds
  · cases e with
    | refreshLibrary =>
      have hmax : effect.rank ≤ 3 := by cases effect <;> decide
      exact absurd hlt (Nat.not_lt.mpr hmax)
    | refreshAuth | refetchSettings | patchProgress => exact hneeds
  · exact hneeds

theorem Plan.Good.complete (h : plan.Good) (effect : Effect) (membership : Bool) :
    (plan.complete effect membership).Good := by
  have hcompleted : ({ plan with completed := effect :: plan.completed } : Plan τ).Good :=
    ⟨h.snapshot, h.reasons, h.progress⟩
  unfold Plan.complete
  dsimp only
  split
  · exact hcompleted.push _
  · exact hcompleted

theorem Inv.effectDone (h : Inv s) (hop : s.operations i = some op) {effect : Effect}
    (hphase : op.phase = .applying plan effect) (membership : Bool) :
    Inv (s.effectDone i op plan effect membership) := by
  unfold State.effectDone
  split
  · exact (h.release i).settle false
  next hcurrent =>
  have hgeneration : op.generation = s.lifecycleGeneration := by
    simp only [State.isOperationCurrent, Bool.not_eq_true', Bool.not_eq_false, Bool.and_eq_true,
      beq_iff_eq] at hcurrent
    exact hcurrent.2
  have hok := h.phase i op hop hgeneration
  rw [hphase] at hok
  obtain ⟨hprevious, hgood, hdone⟩ := hok
  have hsame : (plan.complete effect membership).previous = plan.previous := by
    unfold Plan.complete
    dsimp only
    split <;> rfl
  have hprevious' : op.generation = s.lifecycleGeneration →
      s.baseline = some (plan.complete effect membership).previous :=
        fun _ => by rw [hsame, hprevious]
  have hgood' := hgood.complete effect membership
  have hdone' := hdone.complete membership
  cases effect with
  | refreshAuth => exact h.toSettings hop hprevious' hgood' hdone'
  | refetchSettings => exact h.toPatch hop hprevious' hgood' hdone'
  | patchProgress => exact h.toLibrary hop hprevious' hgood' hdone'
  | refreshLibrary => exact h.concludePlan hop hprevious' hgood' hdone'

theorem Inv.conclude (h : Inv s) (hop : s.operations i = some op) {result : ApplyResult τ}
    (hphase : op.phase = .concluding result) : Inv (s.conclude i op result) := by
  unfold State.conclude
  split
  · exact (h.release i).settle false
  next hcurrent =>
  have hgeneration : op.generation = s.lifecycleGeneration := by
    simp only [State.isOperationCurrent, Bool.not_eq_true', Bool.not_eq_false, Bool.and_eq_true,
      beq_iff_eq] at hcurrent
    exact hcurrent.2
  have hok := h.phase i op hop hgeneration
  rw [hphase] at hok
  dsimp only
  split
  · exact h.settle_of_eq rfl rfl rfl rfl rfl
  next havailable =>
  have hearned := (hok.resolve_left havailable) op.generation
  refine Inv.settle ⟨?_, ?_, ?_, ?_, ?_, ?_⟩ _
  · exact (h.release i).flight
  · exact (h.release i).bound
  · -- There is no other check of the last effect.
    intro j op' hj hsame
    obtain ⟨hne, hj⟩ := operations_of_release hj
    have htwo := (h.flight j op' hj hsame).symm.trans (h.flight i op hop hgeneration)
    exact absurd (Option.some.inj htwo) hne
  · intro a ha
    rcases List.mem_cons.mp ha with rfl | ha
    · exact ⟨hearned, Nat.le_of_eq hgeneration⟩
    · exact h.earned a ha
  · refine ⟨?_, h.linked⟩
    show s.baseline = (s.history.find? (·.generation = op.generation)).map Adoption.next
    rw [hgeneration]
    exact h.baseline
  · show some result.nextBaseline =
      (List.find? (fun a => decide (a.generation = s.lifecycleGeneration))
      (result.adoption op.generation s.baseline :: s.history)).map Adoption.next
    rw [List.find?_cons_of_pos]
    · rfl
    · exact decide_eq_true hgeneration

/-- The next effect begins without a baseline, and the checks of the last one are late. -/
theorem Inv.renew (h : Inv s) (enabled : Bool) : Inv (s.renew enabled) := by
  have hlate : ∀ j op', s.operations j = some op' → op'.generation ≠ s.lifecycleGeneration + 1 := by
    intro j op' hj hsame
    have hle := h.bound j op' hj
    omega
  refine ⟨fun j op' hj hsame => absurd hsame (hlate j op' hj), fun j op' hj =>
    Nat.le_succ_of_le (h.bound j op' hj),
    fun j op' hj hsame => absurd hsame (hlate j op' hj),
    fun a ha => ⟨(h.earned a ha).1, Nat.le_succ_of_le (h.earned a ha).2⟩, h.linked, ?_⟩
  show none = (s.history.find? fun a =>
    decide (a.generation = s.lifecycleGeneration + 1)).map Adoption.next
  rw [List.find?_eq_none.mpr fun a ha => ?_]
  · rfl
  · have hle := (h.earned a ha).2
    rw [decide_eq_true_eq]
    omega

theorem Inv.step {a : Action τ} (h : Inv s) (hst : s.step a = some s') : Inv s' := by
  cases a with
  | effect enabled =>
    cases hst
    exact (h.renew enabled).check _ _
  | unmount =>
    cases hst
    exact h.congr rfl rfl rfl rfl rfl
  | poke =>
    cases hst
    exact h.check _ _
  | timeout =>
    rw [State.step] at hst
    split at hst <;> cases hst
    have hrung : Inv { s with timer := false } := h.congr rfl rfl rfl rfl rfl
    exact hrung.check _ _
  | retry =>
    rw [State.step] at hst
    split at hst
    · cases hst
    next generation attempt rest _ =>
    cases hst
    have htaken : Inv { s with retries := rest } := h.congr rfl rfl rfl rfl rfl
    exact htaken.check _ _
  | visibility visible =>
    cases hst
    exact h.congr rfl rfl rfl rfl rfl
  | revision i answer =>
    rw [State.step] at hst
    split at hst
    next op hop =>
      split at hst <;> cases hst
      exact h.revisionAnswered hop answer
    · cases hst
  | progress i answer =>
    rw [State.step] at hst
    split at hst
    next op hop =>
      split at hst
      next previous current hphase =>
        cases hst
        exact h.progressAnswered hop hphase answer
      · cases hst
    · cases hst
  | effectDone i membership =>
    rw [State.step] at hst
    split at hst
    next op hop =>
      split at hst
      next plan effect hphase =>
        cases hst
        exact h.effectDone hop hphase membership
      · cases hst
    · cases hst
  | effectFailed i =>
    rw [State.step] at hst
    split at hst
    next op hop =>
      split at hst <;> cases hst
      exact (h.release i).settle false
    · cases hst
  | conclude i =>
    rw [State.step] at hst
    split at hst
    next op hop =>
      split at hst
      next result hphase =>
        cases hst
        exact h.conclude hop hphase
      · cases hst
    · cases hst

theorem inv_of_reach (h : Runs.Reach State.step (fun _ _ => True) State.init s) : Inv s :=
  h.invariant inv_init fun _ _ _ _ hs _ hst => hs.step hst

/-- **No token is taken over before its caches are refreshed.**  In every state reached, whatever
the order of answers, events and changes of the identity: every baseline was earned; it followed the
last one of its login; and of the last login at most one check is under way. -/
theorem tokens_earned (h : Runs.Reach State.step (fun _ _ => True) State.init s) :
    (∀ a ∈ s.history, a.Earned) ∧ Linked s.history ∧
      s.baseline = (s.history.find? (·.generation = s.lifecycleGeneration)).map Adoption.next ∧
      ∀ i j op op', s.operations i = some op → s.operations j = some op' →
        op.generation = s.lifecycleGeneration → op'.generation = s.lifecycleGeneration → i = j := by
  have hinv := inv_of_reach h
  refine ⟨fun a ha => (hinv.earned a ha).1, hinv.linked, hinv.baseline,
    fun i j op op' hi hj hop hop' => ?_⟩
  have hflight := (hinv.flight i op hi hop).symm.trans (hinv.flight j op' hj hop')
  exact Option.some.inj hflight

/-- A login, its first check, and a second one that finds every token changed. -/
def everyLayerMoves : List (Action ℕ) :=
  [.effect true, .revision 0 (.ok fun _ => 1), .conclude 0, .timeout, .revision 1 (.ok fun _ => 2),
    .progress 1 (.ok 2), .effectDone 1 false, .effectDone 1 false, .effectDone 1 true,
      .effectDone 1 false,
    .conclude 1]

theorem tokens_earned_of_everyLayerMoves :
    ∃ s, Runs.runFrom State.step State.init everyLayerMoves = some s ∧
      s.history.map Adoption.completed =
        [[.refreshLibrary, .patchProgress, .refetchSettings, .refreshAuth], []] ∧
      ∀ a ∈ s.history, a.Earned := by
  have hrun : ((Runs.runFrom State.step State.init everyLayerMoves).any fun s =>
      decide (s.history.map Adoption.completed =
        [[.refreshLibrary, .patchProgress, .refetchSettings, .refreshAuth], []])) = true := by
    decide +kernel
  obtain ⟨s, hs, hprop⟩ := (Option.any_eq_true _ _).mp hrun
  exact ⟨s, hs, of_decide_eq_true hprop, (tokens_earned (Runs.reach_of_runFrom hs)).1⟩

end RevisionSync
