/-
Machines that answer calls, and when two of them answer alike.

* `trace` — the calls of a run with their answers;
* `trace_eq` — a relation that every pair of steps keeps, with equal answers, makes the traces
  equal;
* `trace_filter` — the answers to some of the calls do not depend on the others.
-/
import Mathlib.Order.Basic
import Mathlib.Tactic.Common

namespace Simulations

variable {σ τ ι ο T : Type}

/-- Each call with its answer. -/
def trace (step : σ → ι → σ × ο) : σ → List ι → List (ι × ο)
  | _, [] => []
  | s, call :: rest => (call, (step s call).2) :: trace step (step s call).1 rest

/-- Two machines that are related at the start, and whose related states answer alike and stay
related as time goes on, answer alike in every run that does not go back in time. -/
theorem trace_eq [Preorder T] {f : σ → ι → σ × ο} {g : τ → ι → τ × ο} (time : ι → T)
    (R : T → σ → τ → Prop)
    (hstep : ∀ now s t call, R now s t → now ≤ time call →
      (f s call).2 = (g t call).2 ∧ R (time call) (f s call).1 (g t call).1)
    {calls : List ι} : ∀ {now : T} {s : σ} {t : τ}, R now s t →
      (∀ call ∈ calls, now ≤ time call) → calls.Pairwise (fun c d => time c ≤ time d) →
      trace f s calls = trace g t calls := by
  induction calls with
  | nil =>
    intro now s t _ _ _
    rfl
  | cons call rest ih =>
    intro now s t hR hnow hsorted
    obtain ⟨hfirst, hrest⟩ := List.pairwise_cons.1 hsorted
    obtain ⟨hanswer, hnext⟩ := hstep now s t call hR (hnow call List.mem_cons_self)
    rw [trace, trace, hanswer, ih hnext hfirst hrest]

/-- Calls that are not observed leave the observed part of the state alone. -/
theorem trace_filter {g : τ → ι → τ × ο} (observed : ι → Bool) (E : τ → τ → Prop)
    (hskip : ∀ s t call, observed call = false → E s t → E (g s call).1 t)
    (hstep : ∀ s t call, observed call = true → E s t →
      (g s call).2 = (g t call).2 ∧ E (g s call).1 (g t call).1)
    {calls : List ι} : ∀ {s t : τ}, E s t →
      (trace g s calls).filter (fun p => observed p.1) = trace g t (calls.filter observed) := by
  induction calls with
  | nil =>
    intro s t _
    rfl
  | cons call rest ih =>
    intro s t hE
    cases hcall : observed call with
    | false =>
      rw [trace, List.filter_cons_of_neg (by simp [hcall]),
        List.filter_cons_of_neg (by simp [hcall])]
      exact ih (hskip s t call hcall hE)
    | true =>
      obtain ⟨hanswer, hnext⟩ := hstep s t call hcall hE
      rw [trace, List.filter_cons_of_pos (p := observed) hcall,
        List.filter_cons_of_pos (a := (call, (g s call).2)) hcall, trace, hanswer, ih hnext]

end Simulations
