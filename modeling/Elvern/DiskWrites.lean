/-
Files that are replaced one after the other, on a disk whose bytes are counted.

A new version is written beside the old one and then takes its place, so that in
between both are on the disk.  Every write may fail, before or after the replacement,
and so may every flush between the writes; the first failure ends the sequence.

* `Disk.run` -- the sequence, with the bytes on the disk at each moment that counts;
* `peak` -- the bytes that the sequence needs above those already there;
* `replaceEach` -- the writes of the files that have a new version;
* `run_spec` -- what holds however the sequence ends;
* `run_returns_iff`, `run_sizes` -- when it ends well, and with which sizes.
-/
import Mathlib.Algebra.BigOperators.Group.List.Basic
import Mathlib.Algebra.Order.Ring.Int
import Mathlib.Data.List.Nodup
import Mathlib.Logic.Function.Basic
import Mathlib.Tactic.Common

namespace DiskWrites

/-- The sizes of the files that are replaced, 0 where there is none, and the bytes of all
that is not. -/
structure Disk (ι : Type*) where
  sizes : ι → ℕ
  rest : ℕ

/-- One step of a sequence. -/
inductive Step (ι : Type*)
  | write (name : ι) (size : ℕ)
  | flush

/-- How a step ends: well, with an error and the old version (after so many bytes of the
new one), or with an error after the replacement. -/
inductive Outcome
  | done
  | failed (written : ℕ)
  | failedAfter
  deriving DecidableEq

variable {ι : Type*}

namespace Disk

variable (names : List ι) (disk : Disk ι)

/-- The bytes of the files. -/
def sizeOf : ℕ := (names.map disk.sizes).sum

/-- All bytes on the disk. -/
def total : ℕ := disk.rest + disk.sizeOf names

variable [DecidableEq ι]

/-- The new version in the place of the old one. -/
def replace (name : ι) (size : ℕ) : Disk ι :=
  { disk with sizes := Function.update disk.sizes name size }

/-- One step: the disk that it leaves, the bytes at its moments, and whether it ends well. -/
def step : Step ι → Outcome → Disk ι × List ℕ × Bool
  | .flush, outcome => (disk, [], outcome = .done)
  | .write _ size, .failed written =>
    (disk, [disk.total names + min written size, disk.total names], false)
  | .write name size, outcome =>
    (disk.replace name size,
      [disk.total names + size, (disk.replace name size).total names], outcome = .done)

/-- The steps up to the first one that fails; `outcomes` says how each ends. -/
def run (outcomes : ℕ → Outcome) : Disk ι → List (Step ι) → Disk ι × List ℕ × Bool
  | disk, [] => (disk, [], true)
  | disk, step :: rest =>
    match disk.step names step (outcomes 0) with
    | (disk, moments, false) => (disk, moments, false)
    | (disk, moments, true) =>
      let (disk, later, returned) := run (fun k => outcomes (k + 1)) disk rest
      (disk, moments ++ later, returned)

end Disk

/-- The files that a sequence writes, with the sizes of their new versions. -/
def writes : List (Step ι) → List (ι × ℕ)
  | [] => []
  | .write name size :: rest => (name, size) :: writes rest
  | .flush :: rest => writes rest

/-- The bytes that a sequence of writes needs above those that are on the disk. -/
def peak (sizes : ι → ℕ) : List (ι × ℕ) → ℤ
  | [] => 0
  | (name, size) :: rest => max size (size - sizes name + peak sizes rest)

/-- The files that have a new version, one write for each. -/
def replaceEach (new : ι → Option ℕ) (names : List ι) : List (Step ι) :=
  names.filterMap fun name => (new name).map (Step.write name)

/-! ### The peak -/

section Peak

variable {sizes sizes' : ι → ℕ} {l : List (ι × ℕ)}

theorem peak_nonneg : 0 ≤ peak sizes l := by
  cases l with
  | nil => exact le_rfl
  | cons p l => exact le_max_of_le_left (Int.natCast_nonneg _)

/-- The peak depends on the old sizes of the files that are written only. -/
theorem peak_congr (h : ∀ p ∈ l, sizes p.1 = sizes' p.1) : peak sizes l = peak sizes' l := by
  induction l with
  | nil => rfl
  | cons p l ih =>
    rw [peak, peak, ih fun q hq => h q (List.mem_cons_of_mem _ hq), h p List.mem_cons_self]

/-- The new sizes together are enough. -/
theorem peak_le_sum : peak sizes l ≤ ((l.map Prod.snd).sum : ℕ) := by
  -- the old versions that go only make room
  induction l with
  | nil => exact le_rfl
  | cons p l ih =>
    rw [peak, List.map_cons, List.sum_cons]
    omega

end Peak

/-! ### Steps and runs -/

section Runs

variable [DecidableEq ι] {names : List ι} {outcomes : ℕ → Outcome} {disk : Disk ι}
  {steps : List (Step ι)} {name : ι} {size : ℕ}

/-- A replacement changes the total by the difference of the two versions. -/
theorem total_replace (hnodup : names.Nodup) (h : name ∈ names) :
    ((disk.replace name size).total names : ℤ) = disk.total names + size - disk.sizes name := by
  have hsum : ∀ {l : List ι}, l.Nodup → name ∈ l →
      (l.map (Function.update disk.sizes name size)).sum + disk.sizes name =
        (l.map disk.sizes).sum + size := by
    intro l
    induction l with
    | nil => exact fun _ hmem => absurd hmem List.not_mem_nil
    | cons a l ih =>
      intro hnodup hmem
      obtain ⟨ha, hl⟩ := List.nodup_cons.1 hnodup
      rw [List.map_cons, List.sum_cons, List.map_cons, List.sum_cons]
      by_cases heq : a = name
      · -- the other files are not touched
        subst heq
        have hsame : l.map (Function.update disk.sizes a size) = l.map disk.sizes := by
          refine List.map_congr_left fun b hb => Function.update_of_ne ?_ _ _
          rintro rfl
          exact ha hb
        rw [hsame, Function.update_self]
        omega
      · have hrest := ih hl ((List.mem_cons.1 hmem).resolve_left fun h => heq h.symm)
        rw [Function.update_of_ne heq]
        omega
  have hsizes := hsum hnodup h
  have hreplaced : (disk.replace name size).total names =
      disk.rest + (names.map (Function.update disk.sizes name size)).sum := rfl
  have htotal : disk.total names = disk.rest + (names.map disk.sizes).sum := rfl
  omega

theorem step_returns_iff (step : Step ι) (outcome : Outcome) :
    (disk.step names step outcome).2.2 = true ↔ outcome = .done := by
  cases step with
  | flush => exact decide_eq_true_iff
  | write name size =>
    cases outcome with
    | done => exact ⟨fun _ => rfl, fun _ => rfl⟩
    | failed written => exact ⟨nofun, nofun⟩
    | failedAfter => exact ⟨nofun, nofun⟩

/-- A write stays below the old total and the new version. -/
theorem step_write (hnodup : names.Nodup) (h : name ∈ names) (outcome : Outcome) :
    (disk.step names (.write name size) outcome).1.rest = disk.rest ∧
      (∀ m ∈ (disk.step names (.write name size) outcome).2.1, m ≤ disk.total names + size) ∧
      (disk.step names (.write name size) outcome).1.total names ≤ disk.total names + size := by
  have hreplace : (disk.replace name size).total names ≤ disk.total names + size := by
    have htotal := @total_replace _ _ names disk name size hnodup h
    omega
  have hreplaced : ∀ m ∈ [disk.total names + size, (disk.replace name size).total names],
      m ≤ disk.total names + size := by
    intro m hm
    rcases List.mem_pair.1 hm with rfl | rfl
    · exact le_rfl
    · exact hreplace
  cases outcome with
  | done => exact ⟨rfl, hreplaced, hreplace⟩
  | failed written =>
    refine ⟨rfl, fun m hm => ?_, Nat.le_add_right _ _⟩
    rcases List.mem_pair.1 hm with rfl | rfl
    · exact Nat.add_le_add_left (Nat.min_le_right _ _) _
    · exact Nat.le_add_right _ _
  | failedAfter => exact ⟨rfl, hreplaced, hreplace⟩

/-- The run is the first step, and the others where that one ends well. -/
theorem run_cons (step : Step ι) :
    disk.run names outcomes (step :: steps) =
      if (disk.step names step (outcomes 0)).2.2 then
        let later := (disk.step names step (outcomes 0)).1.run names (fun k => outcomes (k + 1))
          steps
        (later.1, (disk.step names step (outcomes 0)).2.1 ++ later.2.1, later.2.2)
      else disk.step names step (outcomes 0) := by
  rw [Disk.run]
  rcases disk.step names step (outcomes 0) with ⟨disk', moments, returned⟩
  cases returned with
  | false => rfl
  | true => rfl

theorem run_returns_iff :
    (disk.run names outcomes steps).2.2 = true ↔ ∀ k < steps.length, outcomes k = .done := by
  induction steps generalizing disk outcomes with
  | nil => exact ⟨fun _ k hk => absurd hk (Nat.not_lt_zero k), fun _ => rfl⟩
  | cons step steps ih =>
    rw [run_cons]
    by_cases hdone : outcomes 0 = .done
    · rw [if_pos ((step_returns_iff step _).2 hdone)]
      refine ih.trans ⟨fun h k hk => ?_, fun h k hk => h (k + 1) (Nat.succ_lt_succ hk)⟩
      cases k with
      | zero => exact hdone
      | succ k => exact h k (Nat.lt_of_succ_lt_succ hk)
    · have hstep := mt (@step_returns_iff _ _ names disk step (outcomes 0)).1 hdone
      rw [if_neg hstep]
      exact iff_of_false hstep fun h => hdone (h 0 (Nat.zero_lt_succ _))

/-- However a sequence ends: the rest is as it was, and no moment is above its peak. -/
theorem run_spec (hnodup : names.Nodup) (hnames : ∀ p ∈ writes steps, p.1 ∈ names)
    (hwrites : ((writes steps).map Prod.fst).Nodup) :
    (disk.run names outcomes steps).1.rest = disk.rest ∧
      (∀ m ∈ (disk.run names outcomes steps).2.1,
        (m : ℤ) ≤ disk.total names + peak disk.sizes (writes steps)) ∧
      ((disk.run names outcomes steps).1.total names : ℤ) ≤
        disk.total names + peak disk.sizes (writes steps) := by
  induction steps generalizing disk outcomes with
  | nil => exact ⟨rfl, fun m hm => absurd hm List.not_mem_nil, Int.le_add_of_nonneg_right le_rfl⟩
  | cons step steps ih =>
    rw [run_cons]
    cases step with
    | flush =>
      -- nothing is written; a flush that fails ends the sequence
      split_ifs with hreturns
      · exact ih hnames hwrites
      · exact ⟨rfl, fun m hm => absurd hm List.not_mem_nil,
          Int.le_add_of_nonneg_right peak_nonneg⟩
    | write name size =>
      have hname : name ∈ names := hnames (name, size) List.mem_cons_self
      obtain ⟨hfresh, hlater⟩ := List.nodup_cons.1 hwrites
      obtain ⟨hrest, hmoments, htotal⟩ :=
        @step_write _ _ names disk name size hnodup hname (outcomes 0)
      have hsize : (size : ℤ) ≤ peak disk.sizes (writes (.write name size :: steps)) :=
        le_max_left _ _
      split_ifs with hreturns
      · -- the step has replaced the file, which is not written again
        have hdone := (step_returns_iff _ _).1 hreturns
        rw [hdone] at hmoments ⊢
        obtain ⟨hrest', hmoments', htotal'⟩ := @ih (fun k => outcomes (k + 1))
          (disk.replace name size) (fun p hp => hnames p (List.mem_cons_of_mem _ hp)) hlater
        have hpeak : peak (disk.replace name size).sizes (writes steps) =
            peak disk.sizes (writes steps) := by
          refine peak_congr fun p hp => Function.update_of_ne (fun heq => ?_) _ _
          exact hfresh (List.mem_map.2 ⟨p, hp, heq⟩)
        have hreplace := @total_replace _ _ names disk name size hnodup hname
        have hnext : (size : ℤ) - disk.sizes name + peak disk.sizes (writes steps) ≤
            peak disk.sizes (writes (.write name size :: steps)) := le_max_right _ _
        rw [hpeak, hreplace] at htotal' hmoments'
        refine ⟨hrest', fun m hm => ?_, htotal'.trans (by omega)⟩
        rcases List.mem_append.1 hm with hfirst | hm
        · have hle := hmoments m hfirst
          omega
        · exact (hmoments' m hm).trans (by omega)
      · refine ⟨hrest, fun m hm => ?_, by omega⟩
        have hle := hmoments m hm
        omega

/-- A sequence that ends well has replaced its files, and no other. -/
theorem run_sizes (hwrites : ((writes steps).map Prod.fst).Nodup)
    (hreturns : (disk.run names outcomes steps).2.2 = true) :
    (∀ p ∈ writes steps, (disk.run names outcomes steps).1.sizes p.1 = p.2) ∧
      ∀ name ∉ (writes steps).map Prod.fst,
        (disk.run names outcomes steps).1.sizes name = disk.sizes name := by
  induction steps generalizing disk outcomes with
  | nil => exact ⟨fun p hp => absurd hp List.not_mem_nil, fun name _ => rfl⟩
  | cons step steps ih =>
    have hdone := run_returns_iff.1 hreturns 0 (Nat.zero_lt_succ _)
    rw [run_cons, if_pos ((step_returns_iff step _).2 hdone), hdone] at hreturns ⊢
    cases step with
    | flush => exact ih hwrites hreturns
    | write name size =>
      obtain ⟨hfresh, hlater⟩ := List.nodup_cons.1 hwrites
      obtain ⟨hnew, hold⟩ := @ih (fun k => outcomes (k + 1))
        (disk.replace name size) hlater hreturns
      refine ⟨fun p hp => ?_, fun other hother => ?_⟩
      · rcases List.mem_cons.1 hp with rfl | hp
        · exact (hold name hfresh).trans (Function.update_self _ _ _)
        · exact hnew p hp
      · obtain ⟨hne, hother⟩ := not_or.1 (mt List.mem_cons.2 hother)
        exact (hold other hother).trans (Function.update_of_ne hne _ _)

end Runs

/-! ### Files with and without a new version -/

section ReplaceEach

variable {new : ι → Option ℕ} {names : List ι} {steps : List (Step ι)}

theorem mem_writes_replaceEach {p : ι × ℕ} :
    p ∈ writes (replaceEach new names) ↔ p.1 ∈ names ∧ new p.1 = some p.2 := by
  induction names with
  | nil => exact iff_of_false List.not_mem_nil fun h => List.not_mem_nil h.1
  | cons name names ih =>
    obtain ⟨other, size⟩ := p
    cases hnew : new name with
    | none =>
      rw [replaceEach, List.filterMap_cons_none (by rw [hnew, Option.map_none]), ← replaceEach, ih]
      refine ⟨fun h => ⟨List.mem_cons_of_mem _ h.1, h.2⟩, fun h => ⟨?_, h.2⟩⟩
      refine (List.mem_cons.1 h.1).resolve_left fun (heq : other = name) => ?_
      rw [heq, hnew] at h
      exact absurd h.2 nofun
    | some n =>
      rw [replaceEach, List.filterMap_cons_some (by rw [hnew, Option.map_some]), ← replaceEach,
        writes, List.mem_cons, ih, List.mem_cons, Prod.mk.injEq]
      constructor
      · rintro (⟨rfl, rfl⟩ | h)
        · exact ⟨Or.inl rfl, hnew⟩
        · exact ⟨Or.inr h.1, h.2⟩
      · rintro ⟨rfl | hmem, hsize⟩
        · exact Or.inl ⟨rfl, Option.some.inj (hsize.symm.trans hnew)⟩
        · exact Or.inr ⟨hmem, hsize⟩

theorem writes_append_flush : writes (steps ++ [.flush]) = writes steps := by
  induction steps with
  | nil => rfl
  | cons step steps ih =>
    cases step with
    | write name size => exact congrArg ((name, size) :: ·) ih
    | flush => exact ih

/-- The names that are written are among the names, in their order. -/
theorem map_fst_writes_replaceEach :
    ((writes (replaceEach new names)).map Prod.fst).Sublist names := by
  induction names with
  | nil => exact List.Sublist.slnil
  | cons name names ih =>
    cases hnew : new name with
    | none =>
      rw [replaceEach, List.filterMap_cons_none (by rw [hnew, Option.map_none])]
      exact ih.cons name
    | some n =>
      rw [replaceEach, List.filterMap_cons_some (by rw [hnew, Option.map_some])]
      exact ih.cons_cons name

theorem sum_writes_replaceEach :
    ((writes (replaceEach new names)).map Prod.snd).sum =
      (names.map fun name => (new name).getD 0).sum := by
  induction names with
  | nil => rfl
  | cons name names ih =>
    rw [List.map_cons, List.sum_cons, ← ih]
    cases hnew : new name with
    | none =>
      rw [replaceEach, List.filterMap_cons_none (by rw [hnew, Option.map_none]), Option.getD_none,
        Nat.zero_add, replaceEach]
    | some n =>
      rw [replaceEach, List.filterMap_cons_some (by rw [hnew, Option.map_some])]
      rfl

/-- The new versions are all the bytes exactly where no file without one has any. -/
theorem sum_getD_eq_iff {old : ι → ℕ} :
    (names.map fun name => (new name).getD 0).sum =
        (names.map fun name => (new name).getD (old name)).sum ↔
      ∀ name ∈ names, new name = none → old name = 0 := by
  have hle : (names.map fun name => (new name).getD 0).sum ≤
        (names.map fun name => (new name).getD (old name)).sum ∧
      ((names.map fun name => (new name).getD 0).sum =
          (names.map fun name => (new name).getD (old name)).sum ↔
        ∀ name ∈ names, new name = none → old name = 0) := by
    induction names with
    | nil => exact ⟨le_rfl, iff_of_true rfl fun name hname => absurd hname List.not_mem_nil⟩
    | cons name names ih =>
      obtain ⟨ihle, iheq⟩ := ih
      rw [List.map_cons, List.sum_cons, List.map_cons, List.sum_cons, List.forall_mem_cons, ← iheq]
      cases hnew : new name with
      | none =>
        rw [Option.getD_none, Option.getD_none]
        exact ⟨by omega, ⟨fun h => ⟨fun _ => by omega, by omega⟩, fun h => by
          have hzero := h.1 rfl
          omega⟩⟩
      | some n =>
        rw [Option.getD_some, Option.getD_some]
        exact ⟨by omega, ⟨fun h => ⟨nofun, by omega⟩, fun h => by omega⟩⟩
  exact hle.2

end ReplaceEach

end DiskWrites
