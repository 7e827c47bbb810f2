/-
Guarded transition systems.

A system is an executable step function `step : σ → α → Option σ`: `step s a` is
the state after the action `a`, or `none` where `a` is not enabled in `s`.

* `runFrom` — a whole schedule of actions;
* `Reach step ok s₀ s` — `s` is reached from `s₀` by steps that all meet the
  condition `ok`;
* `Reach.invariant` — what holds first and is kept by every step holds in every
  state reached;
* `reach_of_runFrom` — a schedule that runs reaches its last state;
* `guarded step ok` — the system without the steps that miss a decidable condition.
-/
import Mathlib.Logic.Relation

namespace Runs

variable {σ α : Type}

/-- Run a schedule; `none` if some action of it is not enabled. -/
def runFrom (step : σ → α → Option σ) : σ → List α → Option σ
  | s, [] => some s
  | s, a :: rest =>
    match step s a with
    | none => none
    | some s' => runFrom step s' rest

/-- The states reached from `s₀` by steps that all meet `ok`. -/
inductive Reach (step : σ → α → Option σ) (ok : σ → α → Prop) (s₀ : σ) : σ → Prop
  | start : Reach step ok s₀ s₀
  | next {s s' : σ} {a : α} :
      Reach step ok s₀ s → ok s a → step s a = some s' → Reach step ok s₀ s'

variable {step : σ → α → Option σ} {ok : σ → α → Prop}

/-- An invariant of the steps holds in every state reached. -/
theorem Reach.invariant {P : σ → Prop} {s₀ : σ} (h₀ : P s₀)
    (hstep : ∀ s a s', Reach step ok s₀ s → P s → ok s a → step s a = some s' → P s') :
    ∀ {s : σ}, Reach step ok s₀ s → P s := by
  intro s hs
  induction hs with
  | start => exact h₀
  | next hr hok hst ih => exact hstep _ _ _ hr ih hok hst

/-- Runs can be put one after the other. -/
theorem Reach.trans {s₀ s₁ s₂ : σ} (h₁ : Reach step ok s₀ s₁)
    (h₂ : Reach step ok s₁ s₂) : Reach step ok s₀ s₂ := by
  induction h₂ with
  | start => exact h₁
  | next _ hok hst ih => exact .next ih hok hst

/-- A weaker condition. -/
theorem Reach.mono {ok' : σ → α → Prop} {s₀ s : σ} (h : Reach step ok s₀ s)
    (hok : ∀ s a, ok s a → ok' s a) : Reach step ok' s₀ s := by
  induction h with
  | start => exact .start
  | next _ ha hst ih => exact .next ih (hok _ _ ha) hst

/-- A schedule of actions that meet the condition in every state reaches its last state. -/
theorem reach_of_runFrom_of : ∀ {as : List α} {s s' : σ}, (∀ a ∈ as, ∀ s, ok s a) →
    runFrom step s as = some s' → Reach step ok s s' := by
  intro as
  induction as with
  | nil =>
    intro s s' _ h
    cases h
    exact .start
  | cons a rest ih =>
    intro s s' hok h
    simp only [runFrom] at h
    rcases hst : step s a with _ | s₁
    · simp [hst] at h
    · rw [hst] at h
      have hfirst : Reach step ok s s₁ := .next .start (hok a (List.mem_cons_self ..) s) hst
      exact hfirst.trans (ih (fun b hb => hok b (List.mem_cons_of_mem a hb)) h)

/-- A schedule that runs reaches its last state. -/
theorem reach_of_runFrom {as : List α} {s s' : σ} (h : runFrom step s as = some s') :
    Reach step (fun _ _ => True) s s' :=
  reach_of_runFrom_of (fun _ _ _ => trivial) h

/-- The steps that meet `ok`. -/
def guarded (step : σ → α → Option σ) (ok : σ → α → Bool) (s : σ) (a : α) : Option σ :=
  if ok s a then step s a else none

/-- A run of the guarded system is a run whose steps meet the condition. -/
theorem reach_of_guarded {ok : σ → α → Bool} {s₀ s : σ}
    (h : Reach (guarded step ok) (fun _ _ => True) s₀ s) :
    Reach step (fun s a => ok s a = true) s₀ s := by
  induction h with
  | start => exact .start
  | next _ _ hst ih =>
    rw [guarded] at hst
    split at hst
    · next hok => exact .next ih hok hst
    · cases hst

end Runs
