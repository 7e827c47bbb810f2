/-
Transactions with savepoints.

A connection has a committed state, the state its statements see, and a stack
of savepoints, each with the state it was made in.  Nothing is committed while
a transaction is open, with one exception: a transaction that `SAVEPOINT`
opened is committed by the `RELEASE` of its outermost savepoint.

* `Tx.Everywhere P` — `P` holds of the committed state, of the current one and
  of every saved one;
* one rule for each statement: what it asks for `P` to stay everywhere.
-/
import Mathlib.Data.Nat.Notation

/-- How the open transaction was opened. -/
inductive Phase : Type where
  /-- No transaction is open. -/
  | autocommit
  /-- `BEGIN`. -/
  | explicit
  /-- `SAVEPOINT` outside a transaction. -/
  | nested
deriving DecidableEq

/-- A connection to a store of states `σ` with savepoints named by `ν`. -/
structure Tx (ν σ : Type) : Type where
  committed : σ
  current : σ
  /-- The open savepoints, the innermost first. -/
  savepoints : List (ν × σ)
  phase : Phase

namespace Tx

variable {ν σ τ : Type}

/-- A connection outside a transaction. -/
def opened (d : σ) : Tx ν σ := ⟨d, d, [], .autocommit⟩

/-- The same connection over another view of its states. -/
def map (f : σ → τ) (t : Tx ν σ) : Tx ν τ :=
  ⟨f t.committed, f t.current, t.savepoints.map fun s => (s.1, f s.2), t.phase⟩

/-- `BEGIN`, where no transaction is open. -/
def begin (t : Tx ν σ) : Tx ν σ :=
  { t with phase := if t.phase = .autocommit then .explicit else t.phase }

/-- A write to the current state. -/
def write (f : σ → σ) (t : Tx ν σ) : Tx ν σ := { t with current := f t.current }

/-- `SAVEPOINT name`. -/
def savepoint (name : ν) (t : Tx ν σ) : Tx ν σ :=
  { t with
    savepoints := (name, t.current) :: t.savepoints
    phase := if t.phase = .autocommit then .nested else t.phase }

/-- `COMMIT`. -/
def commit (t : Tx ν σ) : Tx ν σ := opened t.current

/-- `ROLLBACK`. -/
def rollback (t : Tx ν σ) : Tx ν σ := opened t.committed

variable [DecidableEq ν]

/-- The savepoints from the innermost one called `name` outwards. -/
def upTo (name : ν) (t : Tx ν σ) : List (ν × σ) := t.savepoints.dropWhile fun s => s.1 ≠ name

/-- `ROLLBACK TO name`: the savepoint stays open.  Without one of that name the
statement fails. -/
def rollbackTo (name : ν) (t : Tx ν σ) : Tx ν σ :=
  match t.upTo name with
  | [] => t
  | s :: rest => { t with current := s.2, savepoints := s :: rest }

/-- `RELEASE name`. -/
def release (name : ν) (t : Tx ν σ) : Tx ν σ :=
  match t.upTo name with
  | [] => t
  | _ :: rest =>
    if rest.isEmpty ∧ t.phase = .nested then t.commit else { t with savepoints := rest }

/-- `P` holds of every state that the connection can come back to. -/
structure Everywhere (P : σ → Prop) (t : Tx ν σ) : Prop where
  committed : P t.committed
  current : P t.current
  savepoints : ∀ s ∈ t.savepoints, P s.2

namespace Everywhere

variable {P Q : σ → Prop} {t : Tx ν σ}

omit [DecidableEq ν] in
theorem opened {d : σ} (h : P d) : (Tx.opened d : Tx ν σ).Everywhere P :=
  ⟨h, h, fun _ hs => absurd hs List.not_mem_nil⟩

omit [DecidableEq ν] in
theorem mono (h : t.Everywhere P) (hPQ : ∀ s, P s → Q s) : t.Everywhere Q :=
  ⟨hPQ _ h.committed, hPQ _ h.current, fun s hs => hPQ _ (h.savepoints s hs)⟩

omit [DecidableEq ν] in
theorem begin (h : t.Everywhere P) : t.begin.Everywhere P :=
  ⟨h.committed, h.current, h.savepoints⟩

omit [DecidableEq ν] in
/-- A write asks only for the state it leaves. -/
theorem write (h : t.Everywhere P) {f : σ → σ} (hf : P (f t.current)) : (t.write f).Everywhere P :=
  ⟨h.committed, hf, h.savepoints⟩

omit [DecidableEq ν] in
theorem savepoint (h : t.Everywhere P) (name : ν) : (t.savepoint name).Everywhere P := by
  refine ⟨h.committed, h.current, fun s hs => ?_⟩
  rcases List.mem_cons.1 hs with rfl | hs
  · exact h.current
  · exact h.savepoints s hs

theorem upTo (h : t.Everywhere P) (name : ν) : ∀ s ∈ t.upTo name, P s.2 :=
  fun s hs => h.savepoints s ((List.dropWhile_sublist _).subset hs)

theorem rollbackTo (h : t.Everywhere P) (name : ν) : (t.rollbackTo name).Everywhere P := by
  have hup := h.upTo name
  unfold Tx.rollbackTo
  split
  next => exact h
  next s rest he =>
    rw [he] at hup
    exact ⟨h.committed, hup s (List.mem_cons_self ..), hup⟩

theorem release (h : t.Everywhere P) (name : ν) : (t.release name).Everywhere P := by
  have hup := h.upTo name
  unfold Tx.release
  split
  next => exact h
  next s rest he =>
    rw [he] at hup
    split
    · exact opened h.current
    · exact ⟨h.committed, h.current, fun s hs => hup s (List.mem_cons_of_mem _ hs)⟩

end Everywhere

/-- A transaction that `BEGIN` opened commits nothing before its end. -/
structure Uncommitted (d : σ) (t : Tx ν σ) : Prop where
  committed : t.committed = d
  phase : t.phase = .explicit

namespace Uncommitted

variable {d : σ} {t : Tx ν σ}

omit [DecidableEq ν] in
theorem begin_opened : (Tx.opened d : Tx ν σ).begin.Uncommitted d := ⟨rfl, rfl⟩

omit [DecidableEq ν] in
theorem begin (h : t.Uncommitted d) : t.begin.Uncommitted d :=
  ⟨h.committed, by simp [Tx.begin, h.phase]⟩

omit [DecidableEq ν] in
theorem savepoint (h : t.Uncommitted d) (name : ν) : (t.savepoint name).Uncommitted d :=
  ⟨h.committed, by simp [Tx.savepoint, h.phase]⟩

theorem rollbackTo (h : t.Uncommitted d) (name : ν) : (t.rollbackTo name).Uncommitted d := by
  unfold Tx.rollbackTo
  split
  · exact h
  · exact ⟨h.committed, h.phase⟩

theorem release (h : t.Uncommitted d) (name : ν) : (t.release name).Uncommitted d := by
  unfold Tx.release
  split
  · exact h
  · -- only a transaction that `SAVEPOINT` opened ends here
    rw [if_neg (by simp [h.phase])]
    exact ⟨h.committed, h.phase⟩

end Uncommitted

end Tx
