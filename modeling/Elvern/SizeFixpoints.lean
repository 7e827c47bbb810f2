/-
Looking for a number that is a base plus the count of its own decimal digits.

* `untilFixed` — a map is applied until nothing changes, in a bounded number of rounds;
* `digits`, `growth` — decimal digits, and the map `x ↦ base + digits x`;
* `growth_settles` — once the digits are few against the base, three more rounds are enough;
* `exists_small` — each round takes one storey off a tower of powers of ten;
* `untilFixed_growth_isSome` — three rounds more than there are storeys below the first are enough.
-/
import Mathlib.Logic.Function.Iterate
import Mathlib.Dynamics.FixedPoints.Basic
import Mathlib.Order.Monotone.Basic
import Mathlib.Tactic.Common
import Mathlib.Tactic.Ring

namespace SizeFixpoints

/-! ### Bounded search for a fixed point -/

section

variable {α : Type} [DecidableEq α]

/-- The map is applied until its argument comes back, in at most so many rounds. -/
def untilFixed (f : α → α) : ℕ → α → Option α
  | 0, _ => none
  | rounds + 1, x => if f x = x then some x else untilFixed f rounds (f x)

variable {f : α → α} {rounds k : ℕ} {x y : α}

theorem untilFixed_isSome (hk : k < rounds) (hfix : f (f^[k] x) = f^[k] x) :
    ∃ y, untilFixed f rounds x = some y := by
  induction rounds generalizing x k with
  | zero => exact absurd hk (Nat.not_lt_zero k)
  | succ rounds ih =>
    rw [untilFixed]
    split_ifs with hx
    · exact ⟨x, rfl⟩
    · cases k with
      | zero => exact absurd hfix hx
      | succ k =>
        rw [Function.iterate_succ_apply] at hfix
        exact ih (by omega) hfix

end

/-! ### Digits -/

/-- How many decimal digits a number is written with. -/
def digits (n : ℕ) : ℕ := (Nat.toDigits 10 n).length

variable {n m k b x : ℕ}

theorem digits_le_iff (hk : 0 < k) : digits n ≤ k ↔ n < 10 ^ k :=
  Nat.length_toDigits_le_iff (by decide) hk

theorem digits_pos : 0 < digits n := Nat.length_toDigits_pos

theorem digits_mono (h : n ≤ m) : digits n ≤ digits m :=
  (digits_le_iff digits_pos).2 (h.trans_lt ((digits_le_iff digits_pos).1 le_rfl))

/-- Ten times as much has one digit more, at most. -/
theorem digits_lt_ten_mul (h : n < 10 * b) : digits n ≤ digits b + 1 := by
  rw [digits_le_iff (Nat.succ_pos _), pow_succ]
  have hb := (digits_le_iff digits_pos).1 (le_refl (digits b))
  omega

/-! ### The base and the digits -/

/-- The base, and the digits of what there was. -/
def growth (b x : ℕ) : ℕ := b + digits x

theorem growth_mono : Monotone (growth b) := fun _ _ h => Nat.add_le_add_left (digits_mono h) b

/-- A monotone map of `{v, v + 1}` into itself comes to rest after one application. -/
theorem settles_of_pair {f : ℕ → ℕ} {v : ℕ} (hf : Monotone f)
    (hv : ∀ n, v ≤ n → n ≤ v + 1 → v ≤ f n ∧ f n ≤ v + 1) (hn : v ≤ n) (hn' : n ≤ v + 1) :
    f (f n) = f n := by
  have hlow := hv v le_rfl (Nat.le_succ v)
  have hhigh := hv (v + 1) (Nat.le_succ v) le_rfl
  have hle : f v ≤ f (v + 1) := hf (Nat.le_succ v)
  have hcase : n = v ∨ n = v + 1 := by omega
  have hlowcase : f v = v ∨ f v = v + 1 := by omega
  have hhighcase : f (v + 1) = v ∨ f (v + 1) = v + 1 := by omega
  rcases hcase with rfl | rfl
  · rcases hlowcase with heq | heq
    · rw [heq, heq]
    · rw [heq]
      omega
  · rcases hhighcase with heq | heq
    · rw [heq]
      omega
    · rw [heq, heq]

/-- With few digits against the base, three more rounds end in a fixed point. -/
theorem growth_settles (h : digits x < 9 * b) :
    growth b ((growth b)^[3] x) = (growth b)^[3] x := by
  have hdigits : digits b + 1 < 9 * b := by
    have hle : digits b ≤ b := by
      rw [digits_le_iff (by omega)]
      exact Nat.lt_pow_self (by decide)
    omega
  -- from the base to ten times the base there are only two counts of digits
  have hpair : ∀ n, b ≤ n → n < 10 * b →
      b + digits b ≤ growth b n ∧ growth b n ≤ b + digits b + 1 := by
    intro n hn hn'
    have hlow := digits_mono hn
    have hhigh := digits_lt_ten_mul hn'
    rw [growth]
    omega
  have hfirst : b ≤ growth b x ∧ growth b x < 10 * b := by
    rw [growth]
    omega
  have hsecond := hpair _ hfirst.1 hfirst.2
  refine settles_of_pair growth_mono (fun n hn hn' => ?_) hsecond.1 hsecond.2
  exact hpair n (by omega) (by omega)

/-! ### Towers -/

/-- Powers of ten, one on top of the other. -/
def tower : ℕ → ℕ → ℕ
  | 0, top => top
  | storeys + 1, top => 10 ^ tower storeys top

variable {top : ℕ}

theorem le_tower : top ≤ tower n top := by
  induction n with
  | zero => exact le_rfl
  | succ n ih => exact ih.trans (Nat.lt_pow_self (by decide)).le

theorem lt_tower (h : m < 10 ^ top) (hn : 1 ≤ n) : m < tower n top := by
  cases n with
  | zero => exact absurd hn (by decide)
  | succ n => exact h.trans_le (Nat.pow_le_pow_right (by decide) le_tower)

/-- Each round takes one storey off, until the digits are few against the base. -/
theorem exists_small (htop : 2 ≤ top) (hb : top + 1 < 9 * b) (hx : x < 2 * tower (n + 1) top) :
    ∃ j ≤ n, digits ((growth b)^[j] x) < 9 * b := by
  have hstorey : ∀ m y, y < 2 * tower (m + 1) top → digits y ≤ tower m top + 1 := by
    intro m y hy
    rw [digits_le_iff (Nat.succ_pos _), pow_succ]
    rw [tower] at hy
    omega
  induction n generalizing x with
  | zero => exact ⟨0, le_rfl, (hstorey 0 x hx).trans_lt hb⟩
  | succ n ih =>
    by_cases hsmall : digits x < 9 * b
    · exact ⟨0, Nat.zero_le _, hsmall⟩
    · have hle := hstorey (n + 1) x hx
      have htower : top ≤ tower (n + 1) top := le_tower
      have hnext : growth b x < 2 * tower (n + 1) top := by
        rw [growth]
        omega
      obtain ⟨j, hj, hdigits⟩ := ih hnext
      refine ⟨j + 1, by omega, ?_⟩
      rw [Function.iterate_succ_apply]
      exact hdigits

/-- **Enough rounds**: three more than there are storeys below the first. -/
theorem untilFixed_growth_isSome (htop : 2 ≤ top) (hb : top + 1 < 9 * b)
    (hx : x < tower (n + 1) top) : ∃ y, untilFixed (growth b) (n + 4) x = some y := by
  obtain ⟨j, hj, hsmall⟩ := exists_small (n := n) (x := x) htop hb (by omega)
  have hfix := growth_settles hsmall
  rw [← Function.iterate_add_apply] at hfix
  exact untilFixed_isSome (k := 3 + j) (by omega) hfix

end SizeFixpoints
