/-
Closed intervals of a dense linear order.

Lists of intervals that ascend and do not meet are determined by what they cover:
an interval that lies in the union lies in one of them.

* `union`, `Apart` -- what a list covers, and lists whose intervals do not meet;
* `Apart.exists_superset` -- an interval in the union lies in one interval;
* `Apart.eq_of_union_eq` -- the list is the only one with its union;
* `sweep`, `apart_sweep`, `union_sweep` -- joining a sorted list in one pass.
-/
import Mathlib.Order.Interval.Set.Basic
import Mathlib.Data.List.Pairwise
import Mathlib.Data.List.Sort
import Mathlib.Order.MinMax
import Mathlib.Tactic.Common

namespace ClosedIntervals

variable {α : Type*} [LinearOrder α] {l l' rest : List (α × α)} {r current : α × α} {a b t : α}

/-- What the intervals cover. -/
def union (l : List (α × α)) : Set α := {t | ∃ r ∈ l, t ∈ Set.Icc r.1 r.2}

/-- Intervals that are not empty, ascend and do not meet. -/
structure Apart (l : List (α × α)) : Prop where
  nonempty : ∀ r ∈ l, r.1 ≤ r.2
  apart : l.Pairwise fun p q => p.2 < q.1

theorem mem_union : t ∈ union l ↔ ∃ r ∈ l, r.1 ≤ t ∧ t ≤ r.2 := Iff.rfl

theorem mem_union_cons : t ∈ union (r :: l) ↔ (r.1 ≤ t ∧ t ≤ r.2) ∨ t ∈ union l := by
  simp only [mem_union, List.exists_mem_cons_iff]

theorem Apart.tail (h : Apart (r :: l)) : Apart l :=
  ⟨fun q hq => h.nonempty q (List.mem_cons_of_mem _ hq), (List.pairwise_cons.1 h.apart).2⟩

/-- What comes later begins behind the end of an interval. -/
theorem Apart.lt_of_mem_union (h : Apart (r :: l)) (ht : t ∈ union l) : r.2 < t := by
  obtain ⟨q, hq, hfirst, -⟩ := ht
  exact ((List.pairwise_cons.1 h.apart).1 q hq).trans_le hfirst

/-- An interval in the union lies in one of the intervals: between two of them there are
points of neither. -/
theorem Apart.exists_superset [DenselyOrdered α] (h : Apart l) (hab : a ≤ b)
    (hsub : Set.Icc a b ⊆ union l) : ∃ r ∈ l, r.1 ≤ a ∧ b ≤ r.2 := by
  induction l with
  | nil =>
    obtain ⟨r, hr, -⟩ := hsub ⟨le_rfl, hab⟩
    cases hr
  | cons r l ih =>
    by_cases hend : a ≤ r.2
    · refine ⟨r, List.mem_cons_self, ?_, ?_⟩
      · rcases mem_union_cons.1 (hsub ⟨le_rfl, hab⟩) with hin | hlater
        · exact hin.1
        · exact absurd hend (not_le.2 (h.lt_of_mem_union hlater))
      · -- else a point behind the end, and in front of what comes later, would be covered
        by_contra hb
        rw [not_le] at hb
        obtain ⟨q, hq, hfirst, -⟩ : b ∈ union l :=
          (mem_union_cons.1 (hsub ⟨hab, le_rfl⟩)).resolve_left fun hin => absurd hin.2 (not_le.2 hb)
        obtain ⟨p, l', hl⟩ : ∃ p l', l = p :: l' := by
          cases l with
          | nil => cases hq
          | cons p l' => exact ⟨p, l', rfl⟩
        subst hl
        have hgap : r.2 < min b p.1 :=
          lt_min hb ((List.pairwise_cons.1 h.apart).1 p List.mem_cons_self)
        obtain ⟨t, hbehind, hbefore⟩ := exists_between hgap
        obtain ⟨htb, htp⟩ := lt_min_iff.1 hbefore
        have hin : t ∈ union (r :: p :: l') := hsub ⟨hend.trans hbehind.le, htb.le⟩
        rcases mem_union_cons.1 hin with hr | hlater
        · exact absurd hr.2 (not_le.2 hbehind)
        · rcases mem_union_cons.1 hlater with hp | hlast
          · exact absurd hp.1 (not_le.2 htp)
          · have hpt := h.tail.lt_of_mem_union hlast
            have hpp := h.nonempty p (List.mem_cons_of_mem _ List.mem_cons_self)
            exact absurd hpt (not_lt.2 (htp.le.trans hpp))
    · -- the interval lies behind the first one
      obtain ⟨q, hq, hqa⟩ := ih h.tail fun t ht => by
        refine (mem_union_cons.1 (hsub ht)).resolve_left fun hin => ?_
        exact hend (ht.1.trans hin.2)
      exact ⟨q, List.mem_cons_of_mem _ hq, hqa⟩

theorem Apart.exists_mem_superset [DenselyOrdered α] (h : Apart l) (h' : Apart l')
    (hsub : union l ⊆ union l') (hr : r ∈ l) : ∃ q ∈ l', q.1 ≤ r.1 ∧ r.2 ≤ q.2 :=
  h'.exists_superset (h.nonempty r hr) fun _ ht => hsub ⟨r, hr, ht⟩

/-- Intervals of such a list that meet are the same. -/
theorem Apart.eq_of_meet (h : Apart l) {q : α × α} (hr : r ∈ l) (hq : q ∈ l)
    (hrt : r.1 ≤ t ∧ t ≤ r.2) (hqt : q.1 ≤ t ∧ t ≤ q.2) : r = q := by
  have hsymm : Std.Symm fun p q : α × α => p = q ∨ p.2 < q.1 ∨ q.2 < p.1 :=
    ⟨fun p q hpq => hpq.imp Eq.symm Or.symm⟩
  have hall : l.Pairwise fun p q => p = q ∨ p.2 < q.1 ∨ q.2 < p.1 :=
    h.apart.imp fun hpq => Or.inr (Or.inl hpq)
  have hself : ∀ p ∈ l, p = p ∨ p.2 < p.1 ∨ p.2 < p.1 := fun p _ => Or.inl rfl
  have hrq : r = q ∨ r.2 < q.1 ∨ q.2 < r.1 := hall.forall_of_forall hself hr hq
  rcases hrq with heq | hlt | hlt
  · exact heq
  · exact absurd (hrt.2.trans_lt hlt) (not_lt.2 hqt.1)
  · exact absurd (hqt.2.trans_lt hlt) (not_lt.2 hrt.1)

/-- A list of intervals that do not meet is determined by what it covers. -/
theorem Apart.eq_of_union_eq [DenselyOrdered α] (h : Apart l) (h' : Apart l')
    (hunion : union l = union l') : l = l' := by
  have hmem : ∀ {l l' : List (α × α)}, Apart l → Apart l' → union l = union l' →
      ∀ r ∈ l, r ∈ l' := by
    intro l l' h h' hunion r hr
    have hrr := h.nonempty r hr
    obtain ⟨q, hq, hqr, hrq⟩ := h.exists_mem_superset h' hunion.le hr
    obtain ⟨p, hp, hpq, hqp⟩ := h'.exists_mem_superset h hunion.ge hq
    have hrp : r = p := h.eq_of_meet hr hp ⟨le_rfl, hrr⟩ ⟨hpq.trans hqr, hrr.trans (hrq.trans hqp)⟩
    subst hrp
    have hfirst : q.1 = r.1 := le_antisymm hqr hpq
    have hlast : q.2 = r.2 := le_antisymm hqp hrq
    exact Prod.ext hfirst hlast ▸ hq
  have hascending : ∀ {l : List (α × α)}, Apart l → l.Pairwise fun p q => p.1 < q.1 := by
    intro l hl
    refine List.Pairwise.imp_of_mem ?_ hl.apart
    intro p q hp _ hpq
    exact (hl.nonempty p hp).trans_lt hpq
  have hirrefl : Std.Irrefl fun p q : α × α => p.1 < q.1 := ⟨fun p => lt_irrefl p.1⟩
  have hasymm : Std.Antisymm fun p q : α × α => p.1 < q.1 :=
    ⟨fun p q hpq hqp => absurd hqp hpq.asymm⟩
  exact List.Pairwise.eq_of_mem_iff (hascending h) (hascending h') fun r =>
    ⟨hmem h h' hunion r, hmem h' h hunion.symm r⟩

/-! ### Joining a sorted list -/

/-- Each interval is joined to the current one, or closes it. -/
def sweep : α × α → List (α × α) → List (α × α)
  | current, [] => [current]
  | current, r :: rest =>
    if r.1 ≤ current.2 then sweep (current.1, max current.2 r.2) rest
    else current :: sweep r rest

theorem le_of_mem_sweep (hstart : ∀ q ∈ rest, current.1 ≤ q.1)
    (hsorted : rest.Pairwise fun p q => p.1 ≤ q.1) (hr : r ∈ sweep current rest) :
    current.1 ≤ r.1 := by
  induction rest generalizing current with
  | nil => exact (List.mem_singleton.1 hr) ▸ le_rfl
  | cons q rest ih =>
    obtain ⟨hq, hrest⟩ := List.pairwise_cons.1 hsorted
    have hle := hstart q List.mem_cons_self
    rw [sweep] at hr
    split_ifs at hr with hmeet
    · exact @ih (current.1, max current.2 q.2) (fun p hp => hle.trans (hq p hp)) hrest hr
    · rcases List.mem_cons.1 hr with rfl | hr
      · exact le_rfl
      · exact hle.trans (ih hq hrest hr)

/-- The sweep closes an interval only before one that begins behind its end. -/
theorem apart_sweep (hcurrent : current.1 ≤ current.2) (hle : ∀ q ∈ rest, q.1 ≤ q.2)
    (hstart : ∀ q ∈ rest, current.1 ≤ q.1) (hsorted : rest.Pairwise fun p q => p.1 ≤ q.1) :
    Apart (sweep current rest) := by
  induction rest generalizing current with
  | nil =>
    refine ⟨fun r hr => ?_, List.pairwise_singleton _ _⟩
    rw [List.mem_singleton.1 hr]
    exact hcurrent
  | cons q rest ih =>
    obtain ⟨hq, hrest⟩ := List.pairwise_cons.1 hsorted
    have hcq := hstart q List.mem_cons_self
    have hqq := hle q List.mem_cons_self
    have hleRest : ∀ p ∈ rest, p.1 ≤ p.2 := fun p hp => hle p (List.mem_cons_of_mem _ hp)
    rw [sweep]
    split_ifs with hmeet
    · exact @ih (current.1, max current.2 q.2) (le_max_of_le_left hcurrent) hleRest
        (fun p hp => hcq.trans (hq p hp)) hrest
    · have hlater := ih hqq hleRest hq hrest
      refine ⟨fun r hr => ?_, List.pairwise_cons.2 ⟨fun r hr => ?_, hlater.apart⟩⟩
      · rcases List.mem_cons.1 hr with rfl | hr
        · exact hcurrent
        · exact hlater.nonempty r hr
      · exact (not_le.1 hmeet).trans_le (le_of_mem_sweep hq hrest hr)

/-- Joining covers no more and no less. -/
theorem union_sweep (hcurrent : current.1 ≤ current.2) (hle : ∀ q ∈ rest, q.1 ≤ q.2)
    (hstart : ∀ q ∈ rest, current.1 ≤ q.1) (hsorted : rest.Pairwise fun p q => p.1 ≤ q.1) :
    union (sweep current rest) = union (current :: rest) := by
  induction rest generalizing current with
  | nil => rfl
  | cons q rest ih =>
    obtain ⟨hq, hrest⟩ := List.pairwise_cons.1 hsorted
    have hcq := hstart q List.mem_cons_self
    have hqq := hle q List.mem_cons_self
    have hleRest : ∀ p ∈ rest, p.1 ≤ p.2 := fun p hp => hle p (List.mem_cons_of_mem _ hp)
    rw [sweep]
    split_ifs with hmeet
    · rw [@ih (current.1, max current.2 q.2) (le_max_of_le_left hcurrent) hleRest
        (fun p hp => hcq.trans (hq p hp)) hrest]
      ext t
      simp only [mem_union_cons, le_max_iff]
      constructor
      · rintro (⟨ht, ht' | ht'⟩ | hlater)
        · exact Or.inl ⟨ht, ht'⟩
        · rcases le_total t current.2 with hin | hin
          · exact Or.inl ⟨ht, hin⟩
          · exact Or.inr (Or.inl ⟨hmeet.trans hin, ht'⟩)
        · exact Or.inr (Or.inr hlater)
      · rintro (⟨ht, ht'⟩ | ⟨ht, ht'⟩ | hlater)
        · exact Or.inl ⟨ht, Or.inl ht'⟩
        · exact Or.inl ⟨hcq.trans ht, Or.inr ht'⟩
        · exact Or.inr hlater
    · ext t
      rw [mem_union_cons, mem_union_cons, ih hqq hleRest hq hrest]

end ClosedIntervals
