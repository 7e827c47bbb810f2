/-
Heaps of objects with numbered keys.

`Heap ν` maps natural numbers to objects and keeps the next number that is free; that nothing is
stored from there on is a field of the structure.

* `Heap.alloc`, `put`, `modify`, `mapAll`, `pop` — the writes, with the lookup after each of them;
* `Heap.total` — a weight summed over the objects;
* `Heap.total_le_of_inj` — the weights of one heap are bounded by those of another into which its
  weighty objects can be mapped one to one.
-/
import Mathlib.Algebra.Order.BigOperators.Group.Finset
import Mathlib.Data.Nat.Notation

namespace Heaps

/-- Objects under natural numbers below `next`. -/
structure Heap (ν : Type) where
  get : ℕ → Option ν
  next : ℕ
  unused : ∀ k, next ≤ k → get k = none

namespace Heap

variable {ν : Type} (h : Heap ν)

/-- The heap without objects. -/
def empty : Heap ν := { get := fun _ => none, next := 0, unused := fun _ _ => rfl }

/-- Store `v` under the key `k`. -/
def put (k : ℕ) (v : ν) : Heap ν where
  get j := if j = k then some v else h.get j
  next := max h.next (k + 1)
  unused := by
    intro j hj
    rw [if_neg (by omega)]
    exact h.unused j (by omega)

/-- Store `v` under the next free key. -/
def alloc (v : ν) : Heap ν := h.put h.next v

/-- Change the object under the key `k`, if there is one. -/
def modify (k : ℕ) (f : ν → ν) : Heap ν where
  get j := if j = k then (h.get j).map f else h.get j
  next := h.next
  unused := by
    intro j hj
    simp [h.unused j hj]

/-- Change every object. -/
def mapAll (f : ν → ν) : Heap ν where
  get j := (h.get j).map f
  next := h.next
  unused := by
    intro j hj
    simp [h.unused j hj]

/-- Remove the object under the key `k`. -/
def pop (k : ℕ) : Heap ν where
  get j := if j = k then none else h.get j
  next := h.next
  unused := by
    intro j hj
    simp [h.unused j hj]

variable {h} {k j : ℕ} {v : ν} {f : ν → ν}

@[simp] theorem get_put_self : (h.put k v).get k = some v := if_pos rfl

theorem get_put_ne (hj : j ≠ k) : (h.put k v).get j = h.get j := if_neg hj

@[simp] theorem get_modify_self : (h.modify k f).get k = (h.get k).map f := if_pos rfl

theorem get_modify_ne (hj : j ≠ k) : (h.modify k f).get j = h.get j := if_neg hj

@[simp] theorem get_mapAll : (h.mapAll f).get j = (h.get j).map f := rfl

@[simp] theorem get_pop_self : (h.pop k).get k = none := if_pos rfl

theorem get_pop_ne (hj : j ≠ k) : (h.pop k).get j = h.get j := if_neg hj

/-- What is left after a removal was there before. -/
theorem get_of_pop (hv : (h.pop k).get j = some v) : h.get j = some v := by
  by_cases hj : j = k
  · rw [hj, get_pop_self] at hv
    cases hv
  · rwa [get_pop_ne hj] at hv

/-- An object after a change was there before, changed or not. -/
theorem get_of_modify (hv : (h.modify k f).get j = some v) :
    (j = k ∧ ∃ v₀, h.get k = some v₀ ∧ f v₀ = v) ∨ (j ≠ k ∧ h.get j = some v) := by
  by_cases hj : j = k
  · subst hj
    rw [get_modify_self, Option.map_eq_some_iff] at hv
    exact .inl ⟨rfl, hv⟩
  · rw [get_modify_ne hj] at hv
    exact .inr ⟨hj, hv⟩

theorem lt_next (hv : h.get k = some v) : k < h.next := by
  by_contra hk
  rw [h.unused k (not_lt.mp hk)] at hv
  cases hv

/-! ### Sums -/

/-- The weight of the object under the key `k`. -/
def weight (h : Heap ν) (w : ℕ → ν → ℕ) (k : ℕ) : ℕ := ((h.get k).map (w k)).getD 0

/-- The sum of the weights. -/
def total (h : Heap ν) (w : ℕ → ν → ℕ) : ℕ := ∑ k ∈ Finset.range h.next, h.weight w k

variable {w : ℕ → ν → ℕ}

theorem weight_of_get (hv : h.get k = some v) : h.weight w k = w k v := by
  rw [weight, hv]
  rfl

theorem weight_of_none (hv : h.get k = none) : h.weight w k = 0 := by
  rw [weight, hv]
  rfl

theorem weight_congr {h' : Heap ν} (hk : h'.get k = h.get k) : h'.weight w k = h.weight w k := by
  rw [weight, weight, hk]

/-- The sum may run further than the keys do. -/
theorem total_eq_sum (h : Heap ν) (w : ℕ → ν → ℕ) {n : ℕ} (hn : h.next ≤ n) :
    h.total w = ∑ k ∈ Finset.range n, h.weight w k := by
  refine Finset.sum_subset (Finset.range_subset_range.mpr hn) fun k _ hk => ?_
  exact weight_of_none (h.unused k (by simpa using hk))

theorem total_le_total {h' : Heap ν} {w' : ℕ → ν → ℕ} (hle : ∀ k, h'.weight w' k ≤ h.weight w k) :
    h'.total w' ≤ h.total w := by
  rw [h'.total_eq_sum w' (le_max_left h'.next h.next),
    h.total_eq_sum w (le_max_right h'.next h.next)]
  exact Finset.sum_le_sum fun k _ => hle k

/-- A change of one object changes the sum by as much. -/
theorem total_modify (hv : h.get k = some v) :
    (h.modify k f).total w + w k v = h.total w + w k (f v) := by
  have hk : k ∈ Finset.range h.next := Finset.mem_range.mpr (lt_next hv)
  have hrest : ∑ j ∈ (Finset.range h.next).erase k, (h.modify k f).weight w j =
      ∑ j ∈ (Finset.range h.next).erase k, h.weight w j := by
    refine Finset.sum_congr rfl fun j hj => ?_
    rw [weight, get_modify_ne (Finset.ne_of_mem_erase hj), ← weight]
  have hself : (h.modify k f).weight w k = w k (f v) := by
    rw [weight, get_modify_self, hv]
    rfl
  calc (h.modify k f).total w + w k v
      = (w k (f v) + ∑ j ∈ (Finset.range h.next).erase k, h.weight w j) + w k v := by
        rw [total, show (h.modify k f).next = h.next from rfl, ← Finset.add_sum_erase _ _ hk, hself,
          hrest]
    _ = (h.weight w k + ∑ j ∈ (Finset.range h.next).erase k, h.weight w j) + w k (f v) := by
        rw [weight_of_get hv]
        omega
    _ = h.total w + w k (f v) := by rw [total, Finset.add_sum_erase _ _ hk]

/-- A new object adds its weight. -/
theorem total_alloc (h : Heap ν) (w : ℕ → ν → ℕ) (v : ν) :
    (h.alloc v).total w = h.total w + w h.next v := by
  have hnext : (h.alloc v).next = h.next + 1 := max_eq_right (Nat.le_succ _)
  rw [total, hnext, Finset.sum_range_succ, weight_of_get (h := h.alloc v) get_put_self]
  congr 1
  refine Finset.sum_congr rfl fun j hj => ?_
  rw [weight, alloc, get_put_ne (by have := Finset.mem_range.mp hj; omega), ← weight]

/-- The objects of `a` that weigh something go to objects of `b` that weigh at least as much, no
two of them to the same one. -/
theorem total_le_of_inj {μ : Type} {a : Heap μ} {b : Heap ν} {wa : ℕ → μ → ℕ} {wb : ℕ → ν → ℕ}
    (e : μ → ℕ)
    (hweight : ∀ i x, a.get i = some x → wa i x ≠ 0 → wa i x ≤ b.weight wb (e x))
    (hinj : ∀ i j x y, a.get i = some x → a.get j = some y → wa i x ≠ 0 → wa j y ≠ 0 → e x = e y →
      i = j) : a.total wa ≤ b.total wb := by
  let target (i : ℕ) : ℕ := ((a.get i).map e).getD 0
  let heavy := (Finset.range a.next).filter fun i => a.weight wa i ≠ 0
  have hget : ∀ i ∈ heavy, ∃ x, a.get i = some x ∧ wa i x ≠ 0 := by
    intro i hi
    have hne := (Finset.mem_filter.mp hi).2
    rcases hx : a.get i with _ | x
    · exact absurd (weight_of_none hx) hne
    · rw [weight_of_get hx] at hne
      exact ⟨x, rfl, hne⟩
  have hle : ∀ i ∈ heavy, a.weight wa i ≤ b.weight wb (target i) := by
    intro i hi
    obtain ⟨x, hx, hne⟩ := hget i hi
    simpa [weight_of_get hx, target, hx] using hweight i x hx hne
  have htarget : Set.InjOn target heavy := by
    intro i hi j hj hij
    obtain ⟨x, hx, hxne⟩ := hget i hi
    obtain ⟨y, hy, hyne⟩ := hget j hj
    exact hinj i j x y hx hy hxne hyne (by simpa [target, hx, hy] using hij)
  have hrange : heavy.image target ⊆ Finset.range b.next := by
    intro t ht
    obtain ⟨i, hi, rfl⟩ := Finset.mem_image.mp ht
    by_contra hlt
    have hzero : b.weight wb (target i) = 0 := weight_of_none (b.unused _ (by simpa using hlt))
    exact (Finset.mem_filter.mp hi).2 (Nat.le_zero.mp (hzero ▸ hle i hi))
  calc a.total wa
      = ∑ i ∈ heavy, a.weight wa i := (Finset.sum_filter_ne_zero _).symm
    _ ≤ ∑ i ∈ heavy, b.weight wb (target i) := Finset.sum_le_sum hle
    _ = ∑ t ∈ heavy.image target, b.weight wb t := (Finset.sum_image htarget).symm
    _ ≤ b.total wb := Finset.sum_le_sum_of_subset hrange

end Heap

end Heaps
