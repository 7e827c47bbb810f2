/-
Sweeping over a sorted list of closed intervals of natural numbers.

* `Separated` — nonempty intervals, ascending, no two of which touch;
* `IsRun` — a maximal interval of a set;
* `Separated.mem_iff_isRun` — a separated list lists the maximal intervals of its union;
* `Separated.eq_of_union_eq` — so it is the only one with that union;
* `uncovered` — the sweep, and what it leaves over (`mem_union_uncovered`, `separated_uncovered`).
-/
import Mathlib.Order.Bounds.Basic
import Mathlib.Order.Interval.Set.Basic
import Mathlib.Data.List.Pairwise
import Mathlib.Data.List.Sort
import Mathlib.Tactic.Common

namespace Sweeps

variable {l : List (ℕ × ℕ)} {r : ℕ × ℕ} {s : Set ℕ}

/-! ### Separated intervals -/

/-- What the intervals cover. -/
def union (l : List (ℕ × ℕ)) : Set ℕ := {n | ∃ r ∈ l, n ∈ Set.Icc r.1 r.2}

/-- Nonempty intervals, each with a number left free before the next. -/
structure Separated (l : List (ℕ × ℕ)) : Prop where
  nonempty : ∀ r ∈ l, r.1 ≤ r.2
  apart : l.Pairwise fun a b => a.2 + 1 < b.1

/-- An interval of the set that no longer interval of the set contains. -/
structure IsRun (s : Set ℕ) (r : ℕ × ℕ) : Prop where
  nonempty : r.1 ≤ r.2
  subset : Set.Icc r.1 r.2 ⊆ s
  maximal : ∀ a b, a ≤ r.1 → r.2 ≤ b → Set.Icc a b ⊆ s → a = r.1 ∧ b = r.2

theorem Separated.apart_of_ne (h : Separated l) {q : ℕ × ℕ} (hr : r ∈ l) (hq : q ∈ l)
    (hne : r ≠ q) : r.2 + 1 < q.1 ∨ q.2 + 1 < r.1 := by
  have hsymm : Std.Symm fun a b : ℕ × ℕ => a = b ∨ a.2 + 1 < b.1 ∨ b.2 + 1 < a.1 :=
    ⟨fun a b hab => hab.imp Eq.symm Or.symm⟩
  have hall : l.Pairwise fun a b => a = b ∨ a.2 + 1 < b.1 ∨ b.2 + 1 < a.1 :=
    h.apart.imp fun hab => Or.inr (Or.inl hab)
  have hself : ∀ a ∈ l, a = a ∨ a.2 + 1 < a.1 ∨ a.2 + 1 < a.1 := fun a _ => Or.inl rfl
  have hrq : r = q ∨ r.2 + 1 < q.1 ∨ q.2 + 1 < r.1 := hall.forall_of_forall hself hr hq
  exact hrq.resolve_left hne

/-- An interval of a separated list is not continued in either direction. -/
theorem Separated.isRun (h : Separated l) (hr : r ∈ l) : IsRun (union l) r where
  nonempty := h.nonempty r hr
  subset n hn := ⟨r, hr, hn⟩
  maximal a b ha hb hab := by
    have hrr := h.nonempty r hr
    constructor
    · -- the number before the interval would lie in another one, which touches it
      by_contra hne
      have hmem : r.1 - 1 ∈ Set.Icc a b := ⟨by omega, by omega⟩
      obtain ⟨q, hq, hq₁, hq₂⟩ := hab hmem
      have hrq : r ≠ q := by
        rintro rfl
        omega
      have hqq := h.nonempty q hq
      rcases h.apart_of_ne hr hq hrq with hlt | hlt <;> omega
    · by_contra hne
      have hmem : r.2 + 1 ∈ Set.Icc a b := ⟨by omega, by omega⟩
      obtain ⟨q, hq, hq₁, hq₂⟩ := hab hmem
      have hrq : r ≠ q := by
        rintro rfl
        omega
      have hqq := h.nonempty q hq
      rcases h.apart_of_ne hr hq hrq with hlt | hlt <;> omega

/-- A separated list is made of the maximal intervals of what it covers. -/
theorem Separated.mem_iff_isRun (h : Separated l) : r ∈ l ↔ IsRun (union l) r := by
  refine ⟨h.isRun, fun hrun => ?_⟩
  have hrr := hrun.nonempty
  obtain ⟨q, hq, hq₁, hq₂⟩ := hrun.subset (show r.1 ∈ Set.Icc r.1 r.2 from ⟨le_rfl, hrr⟩)
  have hlast : r.2 ≤ q.2 := by
    by_contra hlt
    have hmem : q.2 + 1 ∈ Set.Icc r.1 r.2 := ⟨by omega, by omega⟩
    obtain ⟨p, hp, hp₁, hp₂⟩ := hrun.subset hmem
    have hqp : q ≠ p := by
      rintro rfl
      omega
    have hpp := h.nonempty p hp
    rcases h.apart_of_ne hq hp hqp with hlt' | hlt' <;> omega
  obtain ⟨hfirst, hend⟩ := hrun.maximal q.1 q.2 hq₁ hlast fun n hn => ⟨q, hq, hn⟩
  have hqr : q = r := Prod.ext hfirst hend
  exact hqr ▸ hq

/-- A set is the union of one separated list at most. -/
theorem Separated.eq_of_union_eq {l' : List (ℕ × ℕ)} (h : Separated l) (h' : Separated l')
    (hunion : union l = union l') : l = l' := by
  have hascending : ∀ {l : List (ℕ × ℕ)}, Separated l → l.Pairwise fun a b => a.1 < b.1 := by
    intro l hl
    refine List.Pairwise.imp_of_mem ?_ hl.apart
    intro a b ha _ hab
    have haa := hl.nonempty a ha
    omega
  have hirrefl : Std.Irrefl fun a b : ℕ × ℕ => a.1 < b.1 := ⟨fun a => lt_irrefl a.1⟩
  have hasymm : Std.Antisymm fun a b : ℕ × ℕ => a.1 < b.1 :=
    ⟨fun a b hab hba => absurd hba hab.asymm⟩
  refine List.Pairwise.eq_of_mem_iff (hascending h) (hascending h') ?_
  intro r
  rw [h.mem_iff_isRun, h'.mem_iff_isRun, hunion]

/-- The first interval begins with the least number that is covered. -/
theorem Separated.head_isLeast (h : Separated (r :: l)) : IsLeast (union (r :: l)) r.1 where
  left := ⟨r, List.mem_cons_self, le_rfl, h.nonempty r List.mem_cons_self⟩
  right := by
    rintro n ⟨q, hq, hn, -⟩
    rcases List.mem_cons.1 hq with rfl | hq
    · exact hn
    · have hlt := (List.pairwise_cons.1 h.apart).1 q hq
      have hrr := h.nonempty r List.mem_cons_self
      omega

/-! ### The sweep -/

/-- What the intervals leave over between `expected` and `upper`, in one sweep over them. -/
def uncovered (upper : ℕ) : ℕ → List (ℕ × ℕ) → List (ℕ × ℕ)
  | expected, [] => if expected ≤ upper then [(expected, upper)] else []
  | expected, (start, last) :: rest =>
    if last < expected then uncovered upper expected rest
    else if start > expected then
      (expected, start - 1) :: uncovered upper (max expected (last + 1)) rest
    else uncovered upper (max expected (last + 1)) rest

section

variable {upper expected : ℕ}

theorem le_of_mem_uncovered (hr : r ∈ uncovered upper expected l) : expected ≤ r.1 := by
  induction l generalizing expected with
  | nil =>
    rw [uncovered] at hr
    split_ifs at hr
    · rw [List.mem_singleton.1 hr]
    · cases hr
  | cons i rest ih =>
    rw [uncovered] at hr
    split_ifs at hr with hlast hstart
    · exact ih hr
    · rcases List.mem_cons.1 hr with rfl | hr
      · exact le_rfl
      · exact (le_max_left _ _).trans (ih hr)
    · exact (le_max_left _ _).trans (ih hr)

/-- What is left over is separated, if no interval is empty. -/
theorem separated_uncovered (hl : ∀ i ∈ l, i.1 ≤ i.2) : Separated (uncovered upper expected l) := by
  induction l generalizing expected with
  | nil =>
    rw [uncovered]
    split_ifs with hle
    · refine ⟨fun r hr => ?_, List.pairwise_singleton _ _⟩
      rw [List.mem_singleton.1 hr]
      exact hle
    · exact ⟨fun r hr => absurd hr List.not_mem_nil, List.Pairwise.nil⟩
  | cons i rest ih =>
    have hi := hl i List.mem_cons_self
    have hrest : ∀ i ∈ rest, i.1 ≤ i.2 := fun i hi => hl i (List.mem_cons_of_mem _ hi)
    rw [uncovered]
    split_ifs with hlast hstart
    · exact ih hrest
    · have hseparated : Separated (uncovered upper (max expected (i.2 + 1)) rest) := ih hrest
      obtain ⟨hne, hapart⟩ := hseparated
      refine ⟨fun r hr => ?_, List.pairwise_cons.2 ⟨fun r hr => ?_, hapart⟩⟩
      · rcases List.mem_cons.1 hr with rfl | hr
        · show expected ≤ i.1 - 1
          omega
        · exact hne r hr
      · -- the cursor stands behind the interval, which is not empty
        have hle := le_of_mem_uncovered hr
        show i.1 - 1 + 1 < r.1
        omega
    · exact ih hrest

/-- What is left over are the numbers from `expected` to `upper` in none of the intervals. -/
theorem mem_union_uncovered (hsorted : l.Pairwise fun i j => i.1 ≤ j.1)
    (hupper : ∀ i ∈ l, i.1 ≤ upper) {n : ℕ} :
    n ∈ union (uncovered upper expected l) ↔
      expected ≤ n ∧ n ≤ upper ∧ ∀ i ∈ l, n ∉ Set.Icc i.1 i.2 := by
  induction l generalizing expected with
  | nil =>
    rw [uncovered]
    split_ifs with hle
    · simp [union]
    · simp only [union, List.not_mem_nil, false_and, exists_false, Set.mem_ofPred_eq,
        false_iff]
      rintro ⟨hn, hn', -⟩
      omega
  | cons i rest ih =>
    obtain ⟨hhead, htail⟩ := List.pairwise_cons.1 hsorted
    have hrest : ∀ j ∈ rest, j.1 ≤ upper := fun j hj => hupper j (List.mem_cons_of_mem _ hj)
    have hi := hupper i List.mem_cons_self
    rw [uncovered]
    split_ifs with hlast hstart
    · rw [ih htail hrest]
      simp only [List.forall_mem_cons, Set.mem_Icc]
      constructor
      · rintro ⟨hn, hn', hrests⟩
        exact ⟨hn, hn', by omega, hrests⟩
      · rintro ⟨hn, hn', -, hrests⟩
        exact ⟨hn, hn', hrests⟩
    · have hcons : n ∈ union ((expected, i.1 - 1) ::
          uncovered upper (max expected (i.2 + 1)) rest) ↔
          (expected ≤ n ∧ n ≤ i.1 - 1) ∨
              n ∈ union (uncovered upper (max expected (i.2 + 1)) rest) := by
        simp [union]
      rw [hcons, ih htail hrest]
      simp only [List.forall_mem_cons, Set.mem_Icc]
      constructor
      · rintro (⟨hn, hn'⟩ | ⟨hn, hn', hrests⟩)
        · -- in front of the interval: the later ones begin no earlier
          refine ⟨hn, by omega, by omega, fun j hj hmem => ?_⟩
          have hij := hhead j hj
          omega
        · exact ⟨by omega, hn', by omega, hrests⟩
      · rintro ⟨hn, hn', hout, hrests⟩
        by_cases hlt : n < i.1
        · exact Or.inl ⟨hn, by omega⟩
        · exact Or.inr ⟨by omega, hn', hrests⟩
    · rw [ih htail hrest]
      simp only [List.forall_mem_cons, Set.mem_Icc]
      constructor
      · rintro ⟨hn, hn', hrests⟩
        exact ⟨by omega, hn', by omega, hrests⟩
      · rintro ⟨hn, hn', hout, hrests⟩
        exact ⟨by omega, hn', hrests⟩

end

end Sweeps
