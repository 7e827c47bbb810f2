/-
When the next check comes (`libraryRevisionQueries.js`).

A check that returns sets the timer for the next one, or asks for an immediate retry.

* `Goes` — what an answer does to the check that it is for;
* `keeps_polling` — the next check is always under way or waiting, as long as no check of an earlier
  login comes back;
* `late_check_stops_polling` — one that does come back clears the timer of its successor.
-/
import Elvern.RevisionSync

namespace RevisionSync

variable {τ : Type} [DecidableEq τ] {s s' : State τ} {i : ℕ} {op : Operation τ} {plan : Plan τ}

/-- A check of the last effect is under way, or waits for the timer or as an immediate retry. -/
def Pending (s : State τ) : Prop :=
  (∃ i op, s.inFlight = some i ∧ s.operations i = some op ∧ op.generation = s.lifecycleGeneration) ∨
    s.timer = true ∨ ∃ attempt, (s.lifecycleGeneration, attempt) ∈ s.retries

/-- The next check is sure to come while the page is in view and the server has revisions. -/
def Polls (s : State τ) : Prop :=
  s.active = true → s.visible = true → s.revisionCapabilityUnavailable = false → Pending s

/-- The check that an action answers. -/
def Action.answers : Action τ → Option ℕ
  | .revision i _ | .progress i _ | .effectDone i _ | .effectFailed i | .conclude i => some i
  | _ => none

/-- No check of an earlier effect comes back, and the page does not come back into view without the
event that asks for a check. -/
def timely (s : State τ) (a : Action τ) : Bool :=
  ((a.answers.bind s.operations).all fun op => op.generation == s.lifecycleGeneration) &&
    match a with
    | .visibility true => s.visible
    | _ => true

omit [DecidableEq τ] in
theorem generation_of_timely {a : Action τ} (h : timely s a = true) (ha : a.answers = some i)
    (hop : s.operations i = some op) : op.generation = s.lifecycleGeneration := by
  unfold timely at h
  have hall := (Bool.and_eq_true_iff.mp h).1
  rw [ha, Option.bind_some, hop] at hall
  exact beq_iff_eq.mp hall

omit [DecidableEq τ] in
theorem polls_check (s : State τ) (attempt : ℕ)
    (h : s.inFlight.isSome = true → ∃ i op, s.inFlight = some i ∧ s.operations i = some op ∧
      op.generation = s.lifecycleGeneration) : Polls (s.check s.lifecycleGeneration attempt) := by
  unfold State.check
  split
  · next hclosed =>
    intro hactive hvisible havailable
    simp [State.isOperationCurrent, hactive, hvisible, havailable] at hclosed
  split
  · next hbusy => exact fun _ _ _ => .inl (h hbusy)
  · exact fun _ _ _ => .inl ⟨s.nextId, _, rfl, Function.update_self .., rfl⟩

omit [DecidableEq τ] in
theorem polls_settle (op : Operation τ) (retryImmediately : Bool)
    (hgeneration : op.generation = s.lifecycleGeneration) :
    Polls (s.settle i op retryImmediately) := by
  unfold State.settle
  dsimp only
  split
  · exact fun _ _ _ => .inr (.inr ⟨op.immediateRetryAttempt + 1,
      List.mem_append_right _ (List.mem_singleton.mpr (Prod.ext hgeneration.symm rfl))⟩)
  · intro hactive hvisible havailable
    refine .inr (.inl ?_)
    change (s.release i).active = true at hactive
    change (s.release i).visible = true at hvisible
    change (s.release i).revisionCapabilityUnavailable = false at havailable
    have hsame : (op.generation == (s.release i).lifecycleGeneration) = true :=
      beq_iff_eq.mpr hgeneration
    show ((s.release i).active && op.generation == (s.release i).lifecycleGeneration &&
      !(s.release i).revisionCapabilityUnavailable && (s.release i).visible) = true
    rw [hactive, hvisible, havailable, hsame]
    rfl

/-- What an answer does to the check that it is for. -/
inductive Goes (s : State τ) (i : ℕ) (op : Operation τ) : State τ → Prop
  | await (phase : Phase τ) : Goes s i op (s.await i op phase)
  | settle {s₁ : State τ} (retryImmediately : Bool) (hoperations : s₁.operations = s.operations)
      (hflight : s₁.inFlight = s.inFlight)
      (hgeneration : s₁.lifecycleGeneration = s.lifecycleGeneration) :
      Goes s i op (s₁.settle i op retryImmediately)

omit [DecidableEq τ] in
theorem goes_beginEffect {effect : Effect} : Goes s i op (s.beginEffect i op plan effect) := by
  unfold State.beginEffect
  split
  · exact .await _
  · exact .settle _ rfl rfl rfl

theorem goes_toLibrary : Goes s i op (s.toLibrary i op plan) := by
  unfold State.toLibrary
  split
  · exact goes_beginEffect
  · exact .await _

theorem goes_toPatch : Goes s i op (s.toPatch i op plan) := by
  unfold State.toPatch
  split
  · exact goes_beginEffect
  · exact goes_toLibrary

theorem goes_toSettings : Goes s i op (s.toSettings i op plan) := by
  unfold State.toSettings
  split
  · exact goes_beginEffect
  · exact goes_toPatch

theorem goes_toAuth : Goes s i op (s.toAuth i op plan) := by
  unfold State.toAuth
  split
  · exact goes_beginEffect
  · exact goes_toSettings

theorem goes_revisionAnswered (answer : Except RequestError (Revision τ)) :
    Goes s i op (s.revisionAnswered i op answer) := by
  unfold State.revisionAnswered
  split
  · split
    · dsimp only
      split <;> exact .settle _ rfl rfl rfl
    · exact .settle _ rfl rfl rfl
  split
  · unfold State.applyChange
    split
    · exact .await _
    dsimp only
    split
    · split
      · exact goes_toAuth
      · exact .await _
    · exact goes_toAuth
  · exact .settle _ rfl rfl rfl

theorem goes_progressAnswered {previous current : Revision τ} (answer : Except RequestError τ) :
    Goes s i op (s.progressAnswered i op previous current answer) := by
  unfold State.progressAnswered
  split
  · dsimp only
    split
    · exact .settle _ rfl rfl rfl
    split <;> exact goes_toAuth
  · dsimp only
    split
    · exact .await _
    · exact goes_toAuth
    · exact goes_toAuth
    · exact goes_toAuth

theorem goes_effectDone {effect : Effect} (membership : Bool) :
    Goes s i op (s.effectDone i op plan effect membership) := by
  unfold State.effectDone
  split
  · exact .settle _ rfl rfl rfl
  cases effect with
  | refreshAuth => exact goes_toSettings
  | refetchSettings => exact goes_toPatch
  | patchProgress => exact goes_toLibrary
  | refreshLibrary => exact .await _

omit [DecidableEq τ] in
theorem goes_conclude {result : ApplyResult τ} : Goes s i op (s.conclude i op result) := by
  unfold State.conclude
  split
  · exact .settle _ rfl rfl rfl
  dsimp only
  split <;> exact .settle _ rfl rfl rfl

/-- An answer is for a check that waits for it. -/
theorem goes_of_step {a : Action τ} (hst : s.step a = some s') (ha : a.answers = some i) :
    ∃ op, s.operations i = some op ∧ Goes s i op s' := by
  cases a with
  | effect | unmount | poke | timeout | retry | visibility => cases ha
  | revision j answer =>
    cases ha
    rw [State.step] at hst
    split at hst
    next op hop =>
      split at hst <;> cases hst
      exact ⟨op, hop, goes_revisionAnswered answer⟩
    · cases hst
  | progress j answer =>
    cases ha
    rw [State.step] at hst
    split at hst
    next op hop =>
      split at hst <;> cases hst
      exact ⟨op, hop, goes_progressAnswered answer⟩
    · cases hst
  | effectDone j membership =>
    cases ha
    rw [State.step] at hst
    split at hst
    next op hop =>
      split at hst <;> cases hst
      exact ⟨op, hop, goes_effectDone membership⟩
    · cases hst
  | effectFailed j =>
    cases ha
    rw [State.step] at hst
    split at hst
    next op hop =>
      split at hst <;> cases hst
      exact ⟨op, hop, .settle _ rfl rfl rfl⟩
    · cases hst
  | conclude j =>
    cases ha
    rw [State.step] at hst
    split at hst
    next op hop =>
      split at hst <;> cases hst
      exact ⟨op, hop, goes_conclude⟩
    · cases hst

/-- The check that the ref points to is one of the last effect, and has not returned. -/
def Flying (s : State τ) : Prop :=
  ∀ i, s.inFlight = some i → ∃ op, s.operations i = some op ∧ op.generation = s.lifecycleGeneration

omit [DecidableEq τ] in
theorem Flying.check (h : Flying s) (generation attempt : ℕ) :
    Flying (s.check generation attempt) := by
  unfold State.check
  split
  · exact h
  next hopen =>
  split
  · exact h
  intro j hj
  cases hj
  refine ⟨_, Function.update_self .., ?_⟩
  simp only [State.isOperationCurrent, Bool.or_eq_true, Bool.not_eq_true', not_or,
    Bool.not_eq_false, Bool.and_eq_true, beq_iff_eq] at hopen
  exact hopen.1.1.2

omit [DecidableEq τ] in
theorem Flying.goes (h : Flying s) (hop : s.operations i = some op)
    (hgoes : Goes s i op s') : Flying s' := by
  cases hgoes with
  | await phase =>
    intro j hj
    obtain ⟨op', hop', hsame⟩ := h j hj
    show ∃ op', Function.update s.operations i (some { op with phase }) j = some op' ∧ _
    by_cases hne : j = i
    · subst hne
      rw [Option.some.inj (hop'.symm.trans hop)] at hsame
      exact ⟨_, Function.update_self .., hsame⟩
    · exact ⟨op', by rwa [Function.update_of_ne hne], hsame⟩
  | @settle s₁ retryImmediately hoperations hflight hgeneration =>
    have hreleased : Flying (s₁.release i) := by
      intro j hj
      change (if s₁.inFlight = some i then none else s₁.inFlight) = some j at hj
      split at hj
      · cases hj
      next hother =>
      obtain ⟨op', hop', hsame⟩ := h j (hflight ▸ hj)
      have hne : j ≠ i := by
        rintro rfl
        exact hother hj
      refine ⟨op', ?_, hsame.trans hgeneration.symm⟩
      show Function.update s₁.operations i none j = some op'
      rw [Function.update_of_ne hne, hoperations, hop']
    unfold State.settle
    dsimp only
    split <;> exact hreleased

theorem Flying.step {a : Action τ} (h : Flying s) (hst : s.step a = some s') : Flying s' := by
  rcases ha : a.answers with _ | i
  · cases a with
    | effect enabled =>
      cases hst
      exact Flying.check (fun j hj => by cases hj) _ _
    | unmount =>
      cases hst
      exact h
    | poke =>
      cases hst
      exact h.check _ _
    | timeout =>
      rw [State.step] at hst
      split at hst <;> cases hst
      exact Flying.check (s := { s with timer := false }) h _ _
    | retry =>
      rw [State.step] at hst
      split at hst
      · cases hst
      next generation attempt rest _ =>
      cases hst
      exact Flying.check (s := { s with retries := rest }) h generation attempt
    | visibility visible =>
      cases hst
      exact h
    | revision | progress | effectDone | effectFailed | conclude => cases ha
  · obtain ⟨op, hop, hgoes⟩ := goes_of_step hst ha
    exact h.goes hop hgoes

/-- A timely step leaves the next check sure to come. -/
theorem Polls.step {a : Action τ} (h : Polls s) (hinv : Inv s) (hflying : Flying s)
    (hok : timely s a = true) (hst : s.step a = some s') : Polls s' := by
  have hbusy : s.inFlight.isSome = true → ∃ i op, s.inFlight = some i ∧ s.operations i = some op ∧
      op.generation = s.lifecycleGeneration := fun hsome => by
    obtain ⟨i, hi⟩ := Option.isSome_iff_exists.mp hsome
    obtain ⟨op, hop⟩ := hflying i hi
    exact ⟨i, op, hi, hop⟩
  rcases ha : a.answers with _ | i
  · cases a with
    | effect enabled =>
      cases hst
      exact polls_check (s.renew enabled) 0 fun hsome => by cases hsome
    | unmount =>
      cases hst
      exact fun hactive => by cases hactive
    | poke =>
      cases hst
      exact polls_check s 0 hbusy
    | timeout =>
      rw [State.step] at hst
      split at hst <;> cases hst
      exact polls_check { s with timer := false } 0 hbusy
    | retry =>
      rw [State.step] at hst
      split at hst
      · cases hst
      next generation attempt rest hretries =>
      cases hst
      by_cases hgeneration : generation = s.lifecycleGeneration
      · subst hgeneration
        exact polls_check { s with retries := rest } attempt hbusy
      · -- A retry of an earlier effect does nothing.
        have hclosed : State.check { s with retries := rest } generation attempt =
            { s with retries := rest } := by
          unfold State.check
          rw [if_pos]
          simp [State.isOperationCurrent, hgeneration]
        rw [hclosed]
        intro hactive hvisible havailable
        rcases h hactive hvisible havailable with hflight | htimer | ⟨attempt', hmem⟩
        · exact .inl hflight
        · exact .inr (.inl htimer)
        · rw [hretries] at hmem
          rcases List.mem_cons.mp hmem with heq | hrest
          · exact absurd (congrArg Prod.fst heq).symm hgeneration
          · exact .inr (.inr ⟨attempt', hrest⟩)
    | visibility visible =>
      cases hst
      intro hactive hvisible havailable
      have hvisible' : s.visible = true := by
        change visible = true at hvisible
        subst hvisible
        exact (Bool.and_eq_true_iff.mp hok).2
      have hpending := h hactive hvisible' havailable
      rcases hpending with hflight | htimer | hretry
      · exact .inl hflight
      · refine .inr (.inl ?_)
        show (s.timer && visible) = true
        rw [htimer]
        exact hvisible
      · exact .inr (.inr hretry)
    | revision | progress | effectDone | effectFailed | conclude => cases ha
  · obtain ⟨op, hop, hgoes⟩ := goes_of_step hst ha
    have hgeneration := generation_of_timely hok ha hop
    cases hgoes with
    | await phase =>
      exact fun _ _ _ => .inl ⟨i, _, hinv.flight i op hop hgeneration,
        Function.update_self .., hgeneration⟩
    | settle retryImmediately _ _ hsame =>
      exact polls_settle op retryImmediately (hgeneration.trans hsame.symm)

/-- **Polling goes on.**  Once an event has asked for a check or a login has begun, in any state
reached, the next check is under way or waiting in every state of every run from there on in which
no check of an earlier login comes back and the page does not come back into view without an
event. -/
theorem keeps_polling {s₀ s₁ : State τ} {a : Action τ}
    (h₀ : Runs.Reach State.step (fun _ _ => True) State.init s₀)
    (hask : a = .poke ∨ ∃ enabled, a = .effect enabled)
    (hst : s₀.step a = some s₁) (hrun : Runs.Reach State.step (fun s a => timely s a = true) s₁ s) :
    Polls s := by
  have hflying₀ : Flying s₀ :=
    h₀.invariant (fun j hj => by cases hj) fun _ _ _ _ hs _ hst => hs.step hst
  have hpolls₁ : Polls s₁ := by
    rcases hask with rfl | ⟨enabled, rfl⟩
    · cases hst
      refine polls_check s₀ 0 fun hsome => ?_
      obtain ⟨i, hi⟩ := Option.isSome_iff_exists.mp hsome
      obtain ⟨op, hop⟩ := hflying₀ i hi
      exact ⟨i, op, hi, hop⟩
    · cases hst
      exact polls_check (s₀.renew enabled) 0 fun hsome => by cases hsome
  have hall : Inv s ∧ Flying s ∧ Polls s := by
    refine Runs.Reach.invariant (P := fun s => Inv s ∧ Flying s ∧ Polls s)
      ⟨(inv_of_reach h₀).step hst, hflying₀.step hst, hpolls₁⟩ (fun _ _ _ _ hs hok hst => ?_) hrun
    exact ⟨hs.1.step hst, hs.2.1.step hst, hs.2.2.step hs.1 hs.2.1 hok hst⟩
  exact hall.2.2

/-- The state after the first login. -/
def firstLogin : State ℕ := (State.init.renew true).check 1 0

/-- A first check, and the timer that it leaves. -/
theorem keeps_polling_of_firstCheck :
    ∃ s, Runs.runFrom (Runs.guarded State.step timely) firstLogin
        [.revision 0 (.ok fun _ => 1), .conclude 0] = some s ∧ s.timer = true ∧ Polls s := by
  have hrun : ((Runs.runFrom (Runs.guarded State.step timely) firstLogin
      [.revision 0 (.ok fun _ => 1), .conclude 0]).any State.timer) = true := by
    decide +kernel
  obtain ⟨s, hs, htimer⟩ := (Option.any_eq_true _ _).mp hrun
  exact ⟨s, hs, htimer, keeps_polling (a := .effect true) .start (.inr ⟨true, rfl⟩) rfl
    (Runs.reach_of_guarded (Runs.reach_of_runFrom hs))⟩

/-- The permissions change while a check of the first login is under way: the second login has its
own check and sets the timer, and then the first check comes back. -/
def lateCheck : List (Action ℕ) :=
  [.effect true, .revision 0 (.ok fun _ => 1), .conclude 0, .timeout, .revision 1 (.ok fun _ => 2),
    .progress 1 (.ok 2), .effect true, .revision 2 (.ok fun _ => 2), .conclude 2,
      .effectDone 1 false]

/-- **A late check stops the polling.**  `schedule` clears the timer before it asks whether the
check is one of the last effect. -/
theorem late_check_stops_polling :
    ∃ s : State ℕ, Runs.Reach State.step (fun _ _ => True) State.init s ∧ ¬ Polls s := by
  have hrun : ((Runs.runFrom State.step State.init lateCheck).any fun s =>
      s.active && s.visible && !s.revisionCapabilityUnavailable && s.inFlight.isNone && !s.timer &&
        s.retries.isEmpty) = true := by
    decide +kernel
  obtain ⟨s, hs, hprop⟩ := (Option.any_eq_true _ _).mp hrun
  refine ⟨s, Runs.reach_of_runFrom hs, fun hpolls => ?_⟩
  simp only [Bool.and_eq_true, Bool.not_eq_true', Option.isNone_iff_eq_none,
    List.isEmpty_iff] at hprop
  obtain ⟨⟨⟨⟨⟨hactive, hvisible⟩, havailable⟩, hidle⟩, htimer⟩, hretries⟩ := hprop
  rcases hpolls hactive hvisible havailable with ⟨i, op, hi, -⟩ | hset | ⟨attempt, hmem⟩
  · rw [hidle] at hi
    cases hi
  · rw [htimer] at hset
    cases hset
  · rw [hretries] at hmem
    cases hmem

end RevisionSync
