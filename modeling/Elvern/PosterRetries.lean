/-
Posters that are fetched again (`posterRecovery.js`, `MediaCard.jsx`).

A card whose poster could not be loaded is bound to the incident that its request fell into, and
tries again when this incident is recovered.  It remembers the last six incidents that it has tried
again for.

* `Card.attachContext`, `Card.errorContext` — the incident that a request or its failure is bound
  to;
* `Store.incidentAfterFailure` — the newest incident after a failure;
* `Ordered` — later incidents begin with later failures;
* `poster_retried_once` — between two successes a card tries again once for an incident, and never
  for an older one: six are enough to remember.
-/
import Elvern.ConnectivityRecovery

namespace ConnectivityRecovery

/-- `MAX_POSTER_RECOVERY_ATTEMPTED_INCIDENTS` -/
def maxAttemptedIncidents : ℕ := 6

/-- The refs of a card for its present address; `retries` is not in the code. -/
structure Card where
  attachFailureWatermark : ℕ
  boundIncidentId : ℕ
  boundFailureId : ℕ
  attemptedIncidentIds : List ℕ
  attached : Bool
  failed : Bool
  timer : Bool
  retries : List ℕ
  deriving DecidableEq

def Card.init : Card where
  attachFailureWatermark := 0
  boundIncidentId := 0
  boundFailureId := 0
  attemptedIncidentIds := []
  attached := false
  failed := false
  timer := false
  retries := []

/-- `getConnectivityIncidentAfterFailure`: from the newest record on. -/
def Store.incidentAfterFailure (s : Store) (failureWatermark throughFailureId : ℕ) :
    Option Incident :=
  s.incidents.reverse.find? fun r => decide (failureWatermark < r.firstFailureId ∧
    r.firstFailureId ≤ throughFailureId)

namespace Card

variable (s : Store) (c : Card)

/-- `getPosterRecoveryAttachContext` -/
def attachContext : Card :=
  { c with
    attachFailureWatermark := s.latestFailureId
    boundIncidentId := if s.active then s.activeIncidentId else 0
    boundFailureId := if s.active then s.latestFailureId else 0
    attached := true }

/-- The context is bound to an incident. -/
def bind (r : Incident) : Card :=
  { c with boundIncidentId := r.incidentId, boundFailureId := r.latestFailureId }

/-- `resolvePosterRecoveryErrorContext` -/
def errorContext : Card :=
  match s.incidentAfterFailure (max c.attachFailureWatermark c.boundFailureId)
      s.latestFailureId with
  | some newer => c.bind newer
  | none =>
    if 0 < c.boundIncidentId ∧ s.active = true ∧ s.activeIncidentId = c.boundIncidentId ∧
        c.boundFailureId < s.latestFailureId then
      { c with boundFailureId := s.latestFailureId }
    else if 0 < c.boundIncidentId then c
    else
      match s.incidentAfterFailure c.attachFailureWatermark s.latestFailureId with
      | some incident => c.bind incident
      | none => c

/-- `retryRecoveredPoster`; the attempt is marked, and the timer set. -/
def retry : Card :=
  if 0 < c.boundIncidentId ∧ c.boundIncidentId ∉ c.attemptedIncidentIds ∧
      0 < s.recoveryGenerationOf c.boundIncidentId c.boundFailureId ∧ c.failed = true then
    { c with
      attemptedIncidentIds :=
        cut maxAttemptedIncidents (c.attemptedIncidentIds ++ [c.boundIncidentId])
      timer := true
      retries := c.boundIncidentId :: c.retries }
  else c

/-- A poster that has loaded, and the first one of another address. -/
def reset (attached : Bool) : Card := { Card.init with attached := attached, timer := c.timer }

end Card

/-- What happens to the store and a card. -/
inductive CardAction where
  | store (a : Action)
  | attach
  | error
  | load
  | newUrl
  | retry
  | timeout

/-- One step. -/
def cardStep (p : Store × Card) : CardAction → Option (Store × Card)
  | .store a => (p.1.step a).map fun s => (s, p.2)
  | .attach => if p.2.attached then none else some (p.1, p.2.attachContext p.1)
  | .error => some (p.1, { p.2.errorContext p.1 with failed := true })
  | .load => some (p.1, p.2.reset p.2.attached)
  | .newUrl => some (p.1, { p.2.reset false with timer := false })
  | .retry => some (p.1, p.2.retry p.1)
  | .timeout =>
    if p.2.timer then
      some (p.1, { p.2 with
        timer := false
        attached := p.2.attached && !p.2.failed
        failed := false })
    else none

/-! ### The order of the incidents -/

variable {s s' : Store} {c : Card} {r : Incident} {p p' : Store × Card}

/-- Later incidents begin with later failures. -/
structure Ordered (s : Store) : Prop where
  first : ∀ r ∈ s.incidents, 0 < r.incidentId ∧ r.firstFailureId ≤ s.latestFailureId
  order : ∀ r ∈ s.incidents, ∀ r' ∈ s.incidents, r.latestFailureId < r'.firstFailureId →
    r.incidentId < r'.incidentId

/-- The incidents of a later store: those of before, perhaps with more failures, and new ones. -/
def Grows (s s' : Store) : Prop :=
  s.incidentSequence ≤ s'.incidentSequence ∧ ∀ r' ∈ s'.incidents,
    (∃ r ∈ s.incidents, r.incidentId = r'.incidentId ∧ r.firstFailureId = r'.firstFailureId) ∨
      s.incidentSequence < r'.incidentId

theorem Grows.of_incidents (h : s'.incidents = s.incidents)
    (hsequence : s'.incidentSequence = s.incidentSequence) : Grows s s' :=
  ⟨hsequence.ge, fun r' hr' => .inl ⟨r', h ▸ hr', rfl, rfl⟩⟩

/-- A record that replaces the one of the active incident. -/
theorem replaced_cases (h : Ordered s) {record r₀ : Incident} {latest : ℕ}
    (hlatest : s.latestFailureId ≤ latest)
    (hr₀ : r₀ ∈ s.incidents) (hid : record.incidentId = r₀.incidentId)
    (hfirst : record.firstFailureId = r₀.firstFailureId)
    (hthrough : s.latestFailureId ≤ record.latestFailureId) (u : Store)
    (hu : u.incidents = rememberIncident s.incidents record) (hul : u.latestFailureId = latest)
    (hsequence : u.incidentSequence = s.incidentSequence) : Ordered u ∧ Grows s u := by
  have hcases : ∀ r ∈ u.incidents, r = record ∨ r ∈ s.incidents := by
    intro r hr
    rw [hu] at hr
    exact (mem_rememberIncident hr).imp_right And.left
  refine ⟨⟨fun r hr => ?_, fun r hr r' hr' hlt => ?_⟩, hsequence.ge, fun r' hr' => ?_⟩
  · rw [hul]
    rcases hcases r hr with rfl | hr
    · rw [hid, hfirst]
      exact ⟨(h.first r₀ hr₀).1, (h.first r₀ hr₀).2.trans hlatest⟩
    · exact ⟨(h.first r hr).1, (h.first r hr).2.trans hlatest⟩
  · rcases hcases r' hr' with rfl | hr'
    · rcases hcases r hr with rfl | hr
      · -- The record does not begin after its own last failure.
        have hle := (h.first r₀ hr₀).2
        omega
      · rw [hid]
        exact h.order r hr r₀ hr₀ (hfirst ▸ hlt)
    · rcases hcases r hr with rfl | hr
      · have hle := (h.first r' hr').2
        omega
      · exact h.order r hr r' hr' hlt
  · rcases hcases r' hr' with rfl | hr'
    · exact .inl ⟨r₀, hr₀, hid.symm, hfirst.symm⟩
    · exact .inl ⟨r', hr', rfl, rfl⟩

theorem Ordered.register (h : Ordered s) (hinv : Inv s) : Ordered s.register ∧
    Grows s s.register := by
  cases hactive : s.active with
  | true =>
    obtain ⟨r₀, hr₀⟩ := hinv.remembered hactive
    obtain ⟨hmem, hid⟩ := incident_eq_some hr₀
    refine replaced_cases h (Nat.le_succ _) hmem ?_ ?_ ?_ s.register rfl rfl ?_
    · show (if s.active = true then _ else _) = _
      rw [hactive, if_pos rfl, hid]
    · show ((s.incident (if s.active = true then _ else _)).map Incident.firstFailureId).getD _ = _
      rw [hactive, if_pos rfl, hr₀]
      rfl
    · exact Nat.le_succ _
    · show (if s.active = true then _ else _) = _
      rw [hactive, if_pos rfl]
  | false =>
    have hsequence : s.register.incidentSequence = s.incidentSequence + 1 := by
      show (if s.active = true then _ else if s.active = true then _ else _) = _
      rw [hactive]
      rfl
    have hnone : s.incident (s.incidentSequence + 1) = none := by
      rcases hfound : s.incident (s.incidentSequence + 1) with _ | r
      · rfl
      · obtain ⟨hmem, hid⟩ := incident_eq_some hfound
        have hle := (hinv.known r hmem).1
        omega
    have hcases : ∀ r ∈ s.register.incidents,
        r.incidentId = s.incidentSequence + 1 ∧ r.firstFailureId = s.latestFailureId + 1 ∧
          r.latestFailureId = s.latestFailureId + 1 ∨ r ∈ s.incidents := by
      intro r hr
      rcases mem_rememberIncident hr with rfl | ⟨hr, -⟩
      · left
        rw [hactive]
        refine ⟨rfl, ?_, rfl⟩
        show ((s.incident (s.incidentSequence + 1)).map Incident.firstFailureId).getD _ = _
        rw [hnone]
        rfl
      · exact .inr hr
    refine ⟨⟨fun r hr => ?_, fun r hr r' hr' hlt => ?_⟩, hsequence ▸ Nat.le_succ _,
      fun r' hr' => ?_⟩
    · show 0 < r.incidentId ∧ r.firstFailureId ≤ s.latestFailureId + 1
      rcases hcases r hr with ⟨hid, hfirst, -⟩ | hr
      · omega
      · have hold := h.first r hr
        omega
    · rcases hcases r' hr' with ⟨hid', hfirst', -⟩ | hr'
      · rcases hcases r hr with ⟨-, -, hlatest⟩ | hr
        · omega
        · have hle := (hinv.known r hr).1
          omega
      · rcases hcases r hr with ⟨-, -, hlatest⟩ | hr
        · have hle := (h.first r' hr').2
          omega
        · exact h.order r hr r' hr' hlt
    · rcases hcases r' hr' with ⟨hid, -, -⟩ | hr'
      · exact .inr (by omega)
      · exact .inl ⟨r', hr', rfl, rfl⟩

theorem Ordered.publish (h : Ordered s) (hinv : Inv s) (requestedGeneration : ℕ)
    (through : Option ℕ) :
    Ordered (s.publish requestedGeneration through) ∧
        Grows s (s.publish requestedGeneration through) := by
  have hsame : Ordered s ∧ Grows s s := ⟨h, .of_incidents rfl rfl⟩
  unfold Store.publish
  split
  · exact hsame
  next through =>
  split
  · exact hsame
  next haccepted =>
  rw [Bool.or_eq_true, Bool.not_eq_true', decide_eq_true_eq, not_or, Bool.not_eq_false,
    Nat.not_lt] at haccepted
  obtain ⟨hactive, hthrough⟩ := haccepted
  obtain ⟨r₀, hr₀⟩ := hinv.remembered hactive
  obtain ⟨hmem, hid⟩ := incident_eq_some hr₀
  refine replaced_cases h (Nat.le_refl _) hmem hid.symm ?_ hthrough _ rfl rfl rfl
  dsimp only
  rw [hr₀]
  rfl

theorem Ordered.step {a : Action} (h : Ordered s) (hinv : Inv s) (hst : s.step a = some s') :
    Ordered s' ∧ Grows s s' := by
  have hkept : ∀ u : Store, u.incidents = s.incidents → u.latestFailureId = s.latestFailureId →
      u.incidentSequence = s.incidentSequence → Ordered u ∧ Grows s u := by
    intro u hincidents hlatest hsequence
    refine ⟨⟨?_, ?_⟩, .of_incidents hincidents hsequence⟩
    · rw [hincidents, hlatest]
      exact h.first
    · rw [hincidents]
      exact h.order
  cases a with
  | fail =>
    cases hst
    exact h.register hinv
  | recover requestedGeneration through =>
    cases hst
    exact h.publish hinv _ _
  | prolong prolonged =>
    cases hst
    exact hkept _ rfl rfl rfl
  | request failureId incidentId queryHash =>
    cases hst
    unfold Store.requestRecovery
    split <;> exact hkept _ rfl rfl rfl
  | removed queryHash =>
    cases hst
    exact hkept _ rfl rfl rfl
  | clearAll =>
    cases hst
    exact hkept _ rfl rfl rfl

/-! ### The card -/

/-- What a card has tried, and what it may still be bound to. -/
structure Tried (s : Store) (c : Card) : Prop where
  once : c.retries.Pairwise fun newer older => older < newer
  newest : ∀ i ∈ c.retries.head?, i ∈ c.attemptedIncidentIds
  issued : c.boundIncidentId ≤ s.incidentSequence ∧ ∀ i ∈ c.retries, i ≤ s.incidentSequence
  bound : c.boundIncidentId = 0 ∧ c.boundFailureId = 0 ∨
    0 < c.boundIncidentId ∧ ∀ i ∈ c.retries, i ≤ c.boundIncidentId
  fresh : ∀ r ∈ s.incidents, max c.attachFailureWatermark c.boundFailureId < r.firstFailureId →
    c.boundIncidentId < r.incidentId ∧ ∀ i ∈ c.retries, i < r.incidentId

theorem Tried.grow (h : Tried s c) (hgrows : Grows s s') : Tried s' c where
  once := h.once
  newest := h.newest
  issued := ⟨h.issued.1.trans hgrows.1, fun i hi => (h.issued.2 i hi).trans hgrows.1⟩
  bound := h.bound
  fresh r' hr' hlate := by
    rcases hgrows.2 r' hr' with ⟨r, hr, hid, hfirst⟩ | hnew
    · rw [← hid]
      exact h.fresh r hr (hfirst ▸ hlate)
    · exact ⟨h.issued.1.trans_lt hnew, fun i hi => (h.issued.2 i hi).trans_lt hnew⟩

theorem Tried.attach (h : Tried s c) (hinv : Inv s) (hordered : Ordered s) :
    Tried s (c.attachContext s) where
  once := h.once
  newest := h.newest
  issued := by
    refine ⟨?_, h.issued.2⟩
    show (if s.active = true then s.activeIncidentId else 0) ≤ _
    split
    · next hactive => exact (hinv.sequence hactive).le
    · exact Nat.zero_le _
  bound := by
    cases hactive : s.active with
    | true =>
      right
      show 0 < (if s.active = true then s.activeIncidentId else 0) ∧
        ∀ i ∈ c.retries, i ≤ if s.active = true then s.activeIncidentId else 0
      rw [if_pos hactive]
      obtain ⟨r, hr⟩ := hinv.remembered hactive
      obtain ⟨hmem, hid⟩ := incident_eq_some hr
      refine ⟨hid ▸ (hordered.first r hmem).1, fun i hi => ?_⟩
      rw [hinv.sequence hactive]
      exact h.issued.2 i hi
    | false =>
      left
      simp [Card.attachContext, hactive]
  fresh r hr hlate := by
    -- Nothing begins after the last failure.
    have hle := (hordered.first r hr).2
    have hmark : s.latestFailureId < r.firstFailureId := lt_of_le_of_lt (Nat.le_max_left ..) hlate
    omega

/-- A failure binds the card to an incident that it has not tried again for. -/
theorem Tried.bind (h : Tried s c) (hinv : Inv s) (hordered : Ordered s) (hr : r ∈ s.incidents)
    (hlate : max c.attachFailureWatermark c.boundFailureId < r.firstFailureId) :
    Tried s (c.bind r) where
  once := h.once
  newest := h.newest
  issued := ⟨(hinv.known r hr).1, h.issued.2⟩
  bound := .inr ⟨(hordered.first r hr).1, fun i hi => ((h.fresh r hr hlate).2 i hi).le⟩
  fresh r' hr' hlater := by
    have horder := hordered.order r hr r' hr' (lt_of_le_of_lt (Nat.le_max_right ..) hlater)
    exact ⟨horder, fun i hi => ((h.fresh r hr hlate).2 i hi).trans horder⟩

theorem incidentAfterFailure_spec {low high : ℕ} (h : s.incidentAfterFailure low high = some r) :
    r ∈ s.incidents ∧ low < r.firstFailureId := by
  have hfound := List.find?_some h
  rw [decide_eq_true_eq] at hfound
  exact ⟨List.mem_reverse.mp (List.mem_of_find?_eq_some h), hfound.1⟩

theorem Tried.error (h : Tried s c) (hinv : Inv s) (hordered : Ordered s) :
    Tried s (c.errorContext s) := by
  unfold Card.errorContext
  split
  · next newer hnewer =>
    obtain ⟨hmem, hlate⟩ := incidentAfterFailure_spec hnewer
    exact h.bind hinv hordered hmem hlate
  split
  · next hmore =>
    refine ⟨h.once, h.newest, h.issued, h.bound.imp_left fun hzero => ?_, fun r hr hlate => ?_⟩
    · dsimp only
      omega
    · have hle := (hordered.first r hr).2
      have hmark : s.latestFailureId < r.firstFailureId :=
        lt_of_le_of_lt (Nat.le_max_right ..) hlate
      omega
  split
  · exact h
  next hunbound =>
  split
  · next incident hincident =>
    obtain ⟨hmem, hlate⟩ := incidentAfterFailure_spec hincident
    refine h.bind hinv hordered hmem ?_
    -- A card without an incident has no failure either.
    rcases h.bound with hzero | hbound
    · rw [hzero.2, Nat.max_zero]
      exact hlate
    · exact absurd hbound.1 hunbound
  · exact h

theorem Tried.retry (h : Tried s c) : Tried s (c.retry s) := by
  unfold Card.retry
  split
  next htry =>
    obtain ⟨hpositive, hnew, -, -⟩ := htry
    have hbound : ∀ i ∈ c.retries, i ≤ c.boundIncidentId := by
      rcases h.bound with hzero | hbound
      · omega
      · exact hbound.2
    -- The last attempt is remembered, so that this one is for a later incident.
    have hlater : ∀ i ∈ c.retries, i < c.boundIncidentId := by
      intro i hi
      rcases hretries : c.retries with _ | ⟨last, older⟩
      · rw [hretries] at hi
        cases hi
      · have hlast : last ∈ c.attemptedIncidentIds := h.newest last (by rw [hretries]; rfl)
        have hne : last ≠ c.boundIncidentId := fun heq => hnew (heq ▸ hlast)
        have hle := hbound last (hretries ▸ List.mem_cons_self ..)
        have honce := h.once
        rw [hretries, List.pairwise_cons] at honce
        rw [hretries] at hi
        rcases List.mem_cons.mp hi with rfl | hi
        · omega
        · have hlt := honce.1 i hi
          omega
    refine ⟨List.pairwise_cons.mpr ⟨hlater, h.once⟩, fun i hi => ?_, ⟨h.issued.1, fun i hi => ?_⟩,
      .inr ⟨hpositive, fun i hi => ?_⟩, fun r hr hlate => ?_⟩
    · cases hi
      exact last_mem_cut (by decide) _ _
    · rcases List.mem_cons.mp hi with rfl | hi
      · exact h.issued.1
      · exact h.issued.2 i hi
    · rcases List.mem_cons.mp hi with rfl | hi
      · exact Nat.le_refl _
      · exact hbound i hi
    · have hfresh := h.fresh r hr hlate
      refine ⟨hfresh.1, fun i hi => ?_⟩
      rcases List.mem_cons.mp hi with rfl | hi
      · exact hfresh.1
      · exact hfresh.2 i hi
  next => exact h

/-- Without attempts and without an incident everything is open. -/
theorem tried_reset (s : Store) (hordered : Ordered s) (attached timer : Bool) :
    Tried s { Card.init with attached := attached, timer := timer } where
  once := .nil
  newest _ hi := by cases hi
  issued := ⟨Nat.zero_le _, fun _ hi => by cases hi⟩
  bound := .inl ⟨rfl, rfl⟩
  fresh r hr _ := ⟨(hordered.first r hr).1, fun _ hi => by cases hi⟩

/-- The other refs do not matter. -/
theorem Tried.refs (h : Tried s c) (attached failed timer : Bool) :
    Tried s { c with attached := attached, failed := failed, timer := timer } :=
  ⟨h.once, h.newest, h.issued, h.bound, h.fresh⟩

/-- A store and a card that go together. -/
def Together (p : Store × Card) : Prop := Inv p.1 ∧ Ordered p.1 ∧ Tried p.1 p.2

theorem Together.step {a : CardAction} (h : Together p) (hst : cardStep p a = some p') :
    Together p' := by
  obtain ⟨hinv, hordered, htried⟩ := h
  cases a with
  | store a =>
    obtain ⟨s', hs', rfl⟩ := Option.map_eq_some_iff.mp hst
    obtain ⟨hordered', hgrows⟩ := hordered.step hinv hs'
    exact ⟨hinv.step hs', hordered', htried.grow hgrows⟩
  | attach =>
    rw [cardStep] at hst
    split at hst <;> cases hst
    exact ⟨hinv, hordered, htried.attach hinv hordered⟩
  | error =>
    cases hst
    exact ⟨hinv, hordered, (htried.error hinv hordered).refs _ _ _⟩
  | load =>
    cases hst
    exact ⟨hinv, hordered, tried_reset _ hordered _ _⟩
  | newUrl =>
    cases hst
    exact ⟨hinv, hordered, tried_reset _ hordered _ _⟩
  | retry =>
    cases hst
    exact ⟨hinv, hordered, htried.retry⟩
  | timeout =>
    rw [cardStep] at hst
    split at hst <;> cases hst
    exact ⟨hinv, hordered, htried.refs _ _ _⟩

theorem together_init : Together (Store.init, Card.init) := by
  have hordered : Ordered Store.init := ⟨fun _ hr => (by cases hr), fun _ hr => (by cases hr)⟩
  exact ⟨inv_init, hordered, tried_reset _ hordered false false⟩

/-- **A poster is tried again once for an incident.**  In every run of the store and a card, since
the poster was last loaded or its address has changed, every incident that the card has tried again
for is later than those before; and all of them were issued by the store. -/
theorem poster_retried_once (h : Runs.Reach cardStep (fun _ _ => True) (Store.init, Card.init) p) :
    p.2.retries.Pairwise (fun newer older => older < newer) ∧ ∀ i ∈ p.2.retries,
        i ≤ p.1.incidentSequence := by
  have htogether : Together p :=
    h.invariant together_init fun _ _ _ _ hs _ hst => hs.step hst
  exact ⟨htogether.2.2.once, htogether.2.2.issued.2⟩

/-- A request that fails in an incident and once more after its recovery, in the next one. -/
def twoRetries : List CardAction :=
  [.attach, .store .fail, .error, .retry, .store (.recover 0 (some 1)), .retry, .retry,
    .timeout, .attach, .store .fail, .error, .store (.recover 0 (some 2)), .retry]

theorem poster_retried_once_of_twoRetries :
    ∃ p, Runs.runFrom cardStep (Store.init, Card.init) twoRetries = some p ∧ p.2.retries = [2, 1] ∧
      p.2.retries.Pairwise fun newer older => older < newer := by
  have hrun : ((Runs.runFrom cardStep (Store.init, Card.init) twoRetries).any fun p =>
      decide (p.2.retries = [2, 1])) = true := by
    decide +kernel
  obtain ⟨p, hp, hretries⟩ := (Option.any_eq_true _ _).mp hrun
  exact ⟨p, hp, of_decide_eq_true hretries, (poster_retried_once (Runs.reach_of_runFrom hp)).1⟩

end ConnectivityRecovery
