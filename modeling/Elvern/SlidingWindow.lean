/-
Sliding-window limiters.

A bucket keeps the times of its failures and, once `maxAttempts` of them lie within
`window`, is blocked for `lockout` and forgets them.  Some failures are marked (in
the order of time, the newest first).

* `Bounded` — the invariant: each mark is either old, or covered by a block, or still
  counted among the failures;
* `Bounded.fail`, `Bounded.mark`, `Bounded.unblock`, `Bounded.forget`, `Bounded.reset` —
  what keeps it;
* `Bounded.spaced` — of any `maxAttempts + 1` consecutive marks the first and the
  last are at least `min window lockout` apart.
-/
import Mathlib.Algebra.Order.Field.Basic
import Mathlib.Tactic.Linarith

set_option linter.unusedSectionVars false

namespace SlidingWindow

variable {T : Type} [Field T] [LinearOrder T] [IsStrictOrderedRing T]

/-- The settings of a limiter. -/
structure Limits (T : Type) where
  window : T
  lockout : T
  maxAttempts : ℕ

/-- The failures of a key and the end of its block. -/
structure Bucket (T : Type) where
  failures : List T
  blockedUntil : Option T

/-- The distance that the limits enforce. -/
def Limits.span (lim : Limits T) : T := min lim.window lim.lockout

namespace Bucket

/-- Count a failure. -/
def fail (lim : Limits T) (b : Bucket T) (now : T) : Bucket T :=
  let kept := (b.failures ++ [now]).filter fun t => decide (now - lim.window ≤ t)
  if lim.maxAttempts ≤ kept.length then
    { failures := [], blockedUntil := some (now + lim.lockout) }
  else { failures := kept, blockedUntil := b.blockedUntil }

/-- Drop a block that has ended. -/
def unblock (b : Bucket T) (now : T) : Bucket T :=
  if b.blockedUntil.any fun u => decide (u ≤ now) then { b with blockedUntil := none } else b

/-- Drop the failures before `cutoff`. -/
def forget (b : Bucket T) (cutoff : T) : Bucket T :=
  { b with failures := b.failures.filter fun t => decide (cutoff ≤ t) }

/-- The failures since `t`. -/
def countSince (b : Bucket T) (t : T) : ℕ := (b.failures.filter fun f => decide (t ≤ f)).length

end Bucket

/-- The mark `t`, the `k`-th from the newest, is old, covered by a block, or counted. -/
def Covered (lim : Limits T) (b : Bucket T) (now : T) (k : ℕ) (t : T) : Prop :=
  t + lim.span ≤ now ∨ (∃ u, b.blockedUntil = some u ∧ t + lim.lockout ≤ u) ∨
    (k + 1 < lim.maxAttempts ∧ k + 1 ≤ b.countSince t)

/-- The invariant of a bucket with its marks at time `now`. -/
structure Bounded (lim : Limits T) (b : Bucket T) (now : T) (marks : List T) : Prop where
  past : ∀ t ∈ marks, t ≤ now
  covered : ∀ k t, marks[k]? = some t → Covered lim b now k t
  spaced : ∀ k t t', marks[k]? = some t → marks[k + lim.maxAttempts]? = some t' →
    t' + lim.span ≤ t

variable {lim : Limits T} {b : Bucket T} {now now' : T} {marks : List T}

theorem Bounded.empty (b : Bucket T) (now : T) : Bounded lim b now [] :=
  ⟨by simp, by simp, by simp⟩

/-- A failure that is dropped lies before the cutoff. -/
theorem countSince_forget {cutoff t : T} (h : cutoff ≤ t) :
    (b.forget cutoff).countSince t = b.countSince t := by
  rw [Bucket.countSince, Bucket.forget, Bucket.countSince, List.filter_filter]
  congr 1
  refine List.filter_congr fun f _ => ?_
  by_cases hf : t ≤ f
  · simp [hf, h.trans hf]
  · simp [hf]

/-- The bucket after a failure: it is blocked, or the failure was added. -/
theorem fail_cases (lim : Limits T) (b : Bucket T) (now : T) :
    (b.fail lim now).blockedUntil = some (now + lim.lockout) ∨
      ((b.fail lim now).blockedUntil = b.blockedUntil ∧
        (b.fail lim now).failures.length < lim.maxAttempts ∧
        b.fail lim now =
          ({ b with failures := b.failures ++ [now] } : Bucket T).forget (now - lim.window)) := by
  rw [Bucket.fail]
  split
  · exact .inl rfl
  · next h => exact .inr ⟨rfl, not_le.mp h, rfl⟩

/-- A failure adds one to the count of the recent ones. -/
theorem countSince_fail {t : T} (ht : now - lim.window ≤ t) (hle : t ≤ now)
    (h : b.fail lim now =
      ({ b with failures := b.failures ++ [now] } : Bucket T).forget (now - lim.window)) :
    (b.fail lim now).countSince t = b.countSince t + 1 := by
  rw [h, countSince_forget ht]
  simp [Bucket.countSince, List.filter_append, hle]

theorem countSince_le (b : Bucket T) (t : T) : b.countSince t ≤ b.failures.length :=
  List.length_filter_le ..

theorem span_le_window (lim : Limits T) : lim.span ≤ lim.window := min_le_left _ _

theorem span_le_lockout (lim : Limits T) : lim.span ≤ lim.lockout := min_le_right _ _

/-- Time passes. -/
theorem Bounded.later (h : Bounded lim b now marks) (hle : now ≤ now') :
    Bounded lim b now' marks := by
  refine ⟨fun t ht => (h.past t ht).trans hle, fun k t hk => ?_, h.spaced⟩
  rcases h.covered k t hk with hold | hrest
  · exact .inl (hold.trans hle)
  · exact .inr hrest

/-- A block that has ended had covered its marks for long enough. -/
theorem Bounded.unblock (h : Bounded lim b now marks) : Bounded lim (b.unblock now) now marks := by
  refine ⟨h.past, fun k t hk => ?_, h.spaced⟩
  rw [Bucket.unblock]
  split
  · next hended =>
    rcases h.covered k t hk with hold | ⟨u, hu, hcov⟩ | hcount
    · exact .inl hold
    · rw [hu, Option.any_some, decide_eq_true_eq] at hended
      have := span_le_lockout lim
      exact .inl (by linarith)
    · exact .inr (.inr hcount)
  · exact h.covered k t hk

/-- Failures older than the window may be dropped. -/
theorem Bounded.forget (h : Bounded lim b now marks) {cutoff : T}
    (hcut : cutoff ≤ now - lim.window) : Bounded lim (b.forget cutoff) now marks := by
  refine ⟨h.past, fun k t hk => ?_, h.spaced⟩
  by_cases ht : cutoff ≤ t
  · rcases h.covered k t hk with hold | hblock | ⟨hk', hcount⟩
    · exact .inl hold
    · exact .inr (.inl hblock)
    · exact .inr (.inr ⟨hk', by rw [countSince_forget ht]; exact hcount⟩)
  · have hlt := not_le.mp ht
    have := span_le_window lim
    exact .inl (by linarith)

/-- Any bucket will do once the marks are old. -/
theorem Bounded.reset (h : Bounded lim b now marks) (hold : ∀ t ∈ marks, t + lim.span ≤ now)
    {b' : Bucket T} : Bounded lim b' now marks :=
  ⟨h.past, fun _ t hk => .inl (hold t (List.mem_of_getElem? hk)), h.spaced⟩

/-- The cover of an earlier mark after a failure; `k'` is its index afterwards. -/
theorem Covered.fail {k k' : ℕ} {t : T} (h : Covered lim b now k t) (hk : k' ≤ k + 1)
    (ht : t ≤ now) (hle : now ≤ now') : Covered lim (b.fail lim now') now' k' t := by
  rcases fail_cases lim b now' with hblocked | ⟨hsame, hlen, heq⟩
  · exact .inr (.inl ⟨_, hblocked, by linarith⟩)
  rcases h with hold | ⟨u, hu, hcov⟩ | ⟨_, hcount⟩
  · exact .inl (hold.trans hle)
  · exact .inr (.inl ⟨u, hsame.trans hu, hcov⟩)
  · by_cases hwin : now' - lim.window ≤ t
    · have hcnt := countSince_fail hwin (ht.trans hle) heq
      have hbound := countSince_le (b.fail lim now') t
      exact .inr (.inr ⟨by omega, by omega⟩)
    · have hlt := not_le.mp hwin
      have := span_le_window lim
      exact .inl (by linarith)

/-- A failure that is not marked. -/
theorem Bounded.fail (h : Bounded lim b now marks) (hle : now ≤ now') :
    Bounded lim (b.fail lim now') now' marks :=
  ⟨fun t ht => (h.past t ht).trans hle,
    fun k t hk => (h.covered k t hk).fail (Nat.le_succ k) (h.past t (List.mem_of_getElem? hk)) hle,
    h.spaced⟩

/-- A failure that is marked, of a bucket that is not blocked. -/
theorem Bounded.mark (h : Bounded lim b now marks) (hblock : b.blockedUntil = none)
    (hmax : 1 ≤ lim.maxAttempts) (hwin : 0 ≤ lim.window) (hle : now ≤ now') :
    Bounded lim (b.fail lim now') now' (now' :: marks) := by
  refine ⟨fun t ht => ?_, fun k t hk => ?_, fun k t t' hk hk' => ?_⟩
  · rcases List.mem_cons.mp ht with rfl | ht
    · exact le_refl t
    · exact (h.past t ht).trans hle
  · rcases k with _ | k
    · cases hk
      rcases fail_cases lim b now' with hblocked | ⟨_, hlen, heq⟩
      · exact .inr (.inl ⟨_, hblocked, le_refl _⟩)
      · have hcnt := countSince_fail (by linarith) (le_refl now') heq
        have hbound := countSince_le (b.fail lim now') now'
        exact .inr (.inr ⟨by omega, by omega⟩)
    · rw [List.getElem?_cons_succ] at hk
      exact (h.covered k t hk).fail (le_refl _) (h.past t (List.mem_of_getElem? hk)) hle
  · rcases k with _ | k
    · cases hk
      obtain ⟨m, hm⟩ : ∃ m, lim.maxAttempts = m + 1 := ⟨lim.maxAttempts - 1, by omega⟩
      rw [Nat.zero_add, hm, List.getElem?_cons_succ] at hk'
      -- The mark before `maxAttempts` others is neither counted nor covered by a block.
      rcases h.covered m t' hk' with hold | ⟨u, hu, _⟩ | ⟨hlt, _⟩
      · exact hold.trans hle
      · rw [hblock] at hu
        cases hu
      · omega
    · rw [List.getElem?_cons_succ] at hk
      rw [Nat.add_right_comm, List.getElem?_cons_succ] at hk'
      exact h.spaced k t t' hk hk'

end SlidingWindow
