/-
Tables of rows with an automatic integer key.

`AutoTable ρ key` keeps the rows in the order of their insertion together with
the counter the next key is taken from.  That no key is above the counter and that
the keys are distinct are fields of the structure, so a table that hands out a key
twice cannot be built.

* `AutoTable.insert`, `updateWhere`, `deleteWhere` — the three write statements;
* `AutoTable.key_inj` — a key names at most one row;
* `AutoTable.mem_insert`, `mem_updateWhere`, `mem_deleteWhere` — the rows after a write.
-/
import Mathlib.Data.List.Nodup
import Mathlib.Data.Nat.Notation

namespace Tables

/-- Rows with distinct keys, all of them at most `seq`. -/
structure AutoTable (ρ : Type) (key : ρ → ℕ) where
  rows : List ρ
  seq : ℕ
  keys_le : ∀ r ∈ rows, key r ≤ seq
  nodup : (rows.map key).Nodup

namespace AutoTable

variable {ρ : Type} {key : ρ → ℕ}

/-- The table without rows. -/
def empty : AutoTable ρ key :=
  { rows := [], seq := 0, keys_le := by simp, nodup := List.nodup_nil }

/-- A row is determined by its key. -/
theorem key_inj (t : AutoTable ρ key) {r r' : ρ} (hr : r ∈ t.rows) (hr' : r' ∈ t.rows)
    (h : key r = key r') : r = r' :=
  List.inj_on_of_nodup_map t.nodup hr hr' h

/-- Insert the row that `mk` builds from the next key. -/
def insert (t : AutoTable ρ key) (mk : ℕ → ρ) (hmk : ∀ n, key (mk n) = n) : AutoTable ρ key where
  rows := t.rows ++ [mk (t.seq + 1)]
  seq := t.seq + 1
  keys_le := by
    intro r hr
    rcases List.mem_append.mp hr with hr | hr
    · exact Nat.le_succ_of_le (t.keys_le r hr)
    · have hid : key r = t.seq + 1 := by rw [List.mem_singleton.mp hr, hmk]
      exact Nat.le_of_eq hid
  nodup := by
    rw [List.map_append, List.nodup_append]
    refine ⟨t.nodup, by simp, ?_⟩
    intro a ha b hb
    obtain ⟨r, hr, rfl⟩ := List.mem_map.mp ha
    have hle := t.keys_le r hr
    simp only [List.map_cons, List.map_nil, List.mem_singleton, hmk] at hb
    rw [hb]
    exact Nat.ne_of_lt (Nat.lt_succ_of_le hle)

/-- `UPDATE … SET f WHERE p`, for an `f` that leaves the key alone. -/
def updateWhere (t : AutoTable ρ key) (p : ρ → Bool) (f : ρ → ρ) (hf : ∀ r, key (f r) = key r) :
    AutoTable ρ key where
  rows := t.rows.map fun r => if p r then f r else r
  seq := t.seq
  keys_le := by
    intro r hr
    obtain ⟨r₀, hr₀, rfl⟩ := List.mem_map.mp hr
    split
    · rw [hf]
      exact t.keys_le r₀ hr₀
    · exact t.keys_le r₀ hr₀
  nodup := by
    have hkey : (key ∘ fun r => if p r then f r else r) = key := by
      funext r
      simp only [Function.comp]
      split
      · exact hf r
      · rfl
    rw [List.map_map, hkey]
    exact t.nodup

/-- `DELETE … WHERE p`. -/
def deleteWhere (t : AutoTable ρ key) (p : ρ → Bool) : AutoTable ρ key where
  rows := t.rows.filter fun r => !p r
  seq := t.seq
  keys_le := fun r hr => t.keys_le r (List.mem_filter.mp hr).1
  nodup := t.nodup.sublist (List.filter_sublist.map key)

/-- `SELECT … WHERE p LIMIT 1`. -/
def find (t : AutoTable ρ key) (p : ρ → Bool) : Option ρ := t.rows.find? p

@[simp] theorem mem_insert {t : AutoTable ρ key} {mk : ℕ → ρ} {hmk : ∀ n, key (mk n) = n}
    {r : ρ} : r ∈ (t.insert mk hmk).rows ↔ r ∈ t.rows ∨ r = mk (t.seq + 1) := by
  simp [insert]

@[simp] theorem mem_updateWhere {t : AutoTable ρ key} {p : ρ → Bool} {f : ρ → ρ}
    {hf : ∀ r, key (f r) = key r} {r : ρ} :
    r ∈ (t.updateWhere p f hf).rows ↔ ∃ r₀ ∈ t.rows, (if p r₀ then f r₀ else r₀) = r := by
  simp [updateWhere]

/-- An update does not change what it does not write. -/
theorem map_updateWhere {β : Type} (t : AutoTable ρ key) (p : ρ → Bool) (f : ρ → ρ)
    (hf : ∀ r, key (f r) = key r) {g : ρ → β} (hg : ∀ r, g (f r) = g r) :
    (t.updateWhere p f hf).rows.map g = t.rows.map g := by
  rw [updateWhere, List.map_map]
  refine List.map_congr_left fun r _ => ?_
  simp only [Function.comp]
  split
  · exact hg r
  · rfl

@[simp] theorem mem_deleteWhere {t : AutoTable ρ key} {p : ρ → Bool} {r : ρ} :
    r ∈ (t.deleteWhere p).rows ↔ r ∈ t.rows ∧ p r = false := by
  simp [deleteWhere]

theorem mem_of_find {t : AutoTable ρ key} {p : ρ → Bool} {r : ρ} (h : t.find p = some r) :
    r ∈ t.rows ∧ p r = true :=
  ⟨List.mem_of_find?_eq_some h, List.find?_some h⟩

end AutoTable

end Tables
