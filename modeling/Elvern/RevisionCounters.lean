/-
The library revision counters of a transaction.

The triggers ask `elvern_revision_should_bump` once for each change; the
connection answers 1 the first time a scope and layer is asked for, and keeps
what it answered in a Python set that `commit()` and `rollback()` clear.  The
counters are rows of the database: what undoes a statement or comes back to a
savepoint undoes a bump as well, but not the claim.

* `Recorded` — the counter of a scope and layer is up by one exactly if its
  first change of the transaction is still there, and its tracked columns are
  untouched if none of its changes is;
* `run_sound` — so it is in every state that a transaction can come back to;
* `transactionKept_iff` — the counters tell every change of a transaction if
  and only if no scope loses its first change and keeps a later one.
-/
import Mathlib.Data.List.Basic
import Elvern.RevisionTriggers
import Elvern.Savepoints

namespace LibraryRevision

/-- The tables: the rows with triggers, and `library_revision_counters` (a
missing row is read as 0). -/
structure Database : Type where
  rows : Rows
  counters : Key → ℕ

namespace Database

/-- `INSERT … ON CONFLICT … DO UPDATE SET counter = counter + 1`. -/
def bump (d : Database) (κ : Key) : Database :=
  { d with counters := Function.update d.counters κ (d.counters κ + 1) }

def change (d : Database) (ch : Change) : Database := { d with rows := d.rows.change ch }

theorem bump_self (d : Database) (κ : Key) : (d.bump κ).counters κ = d.counters κ + 1 :=
  Function.update_self ..

theorem bump_of_ne (d : Database) {κ κ' : Key} (h : κ' ≠ κ) :
    (d.bump κ).counters κ' = d.counters κ' := Function.update_of_ne h ..

end Database

/-- A state of the database with the changes that led to it in the transaction,
each under its number.  No statement reads them. -/
structure Snapshot : Type where
  db : Database
  log : List (ℕ × Key)

namespace Snapshot

def change (s : Snapshot) (ch : Change) : Snapshot := { s with db := s.db.change ch }

def record (s : Snapshot) (n : ℕ) (κ : Key) : Snapshot := { s with log := s.log ++ [(n, κ)] }

def bump (s : Snapshot) (κ : Key) : Snapshot := { s with db := s.db.bump κ }

/-- The state as the next transaction finds it. -/
def restart (s : Snapshot) : Snapshot := ⟨s.db, []⟩

end Snapshot

/-- A connection. -/
structure ElvernConnection : Type where
  tx : Tx String Snapshot
  /-- `_library_revision_claims`. -/
  libraryRevisionClaims : List Key
  /-- What the triggers fired for since the transaction began, undone or not.  No
  statement reads it. -/
  fired : List Key

/-- The statements of a transaction. -/
inductive Statement : Type where
  /-- `INSERT`, `UPDATE` or `DELETE`: the rows it changes, in order, and whether a
  constraint fails after them. -/
  | dml (changes : List Change) (fails : Bool)
  | savepoint (name : String)
  | rollbackTo (name : String)
  | release (name : String)

/-- The end of a transaction. -/
inductive Ending : Type where
  | commit
  | rollback

namespace ElvernConnection

/-- A fresh connection. -/
def connect (d : Database) : ElvernConnection := ⟨Tx.opened ⟨d, []⟩, [], []⟩

/-- A trigger whose `WHEN` condition holds: `claim_library_revision`, and the
counter where it answers 1. -/
def fire (c : ElvernConnection) (κ : Key) : ElvernConnection :=
  if κ ∈ c.libraryRevisionClaims then
    { c with
      tx := c.tx.write fun s => s.record c.fired.length κ
      fired := c.fired ++ [κ] }
  else
    { tx := c.tx.write fun s => (s.record c.fired.length κ).bump κ
      libraryRevisionClaims := κ :: c.libraryRevisionClaims
      fired := c.fired ++ [κ] }

/-- A row changes, and the triggers run after it. -/
def change (c : ElvernConnection) (ch : Change) : ElvernConnection :=
  (ch.fires (c.tx.current.db.rows ch.row)).foldl fire
    { c with tx := c.tx.write fun s => s.change ch }

/-- One statement.  The first change opens a transaction; a statement that fails
is undone as a whole. -/
def execute (c : ElvernConnection) : Statement → ElvernConnection
  | .dml changes fails =>
    let after := changes.foldl change { c with tx := c.tx.begin }
    if fails then { after with tx := after.tx.write fun _ => c.tx.current } else after
  | .savepoint name => { c with tx := c.tx.savepoint name }
  | .rollbackTo name => { c with tx := c.tx.rollbackTo name }
  | .release name => { c with tx := c.tx.release name }

def run (c : ElvernConnection) (ss : List Statement) : ElvernConnection := ss.foldl execute c

/-- `commit()` and `rollback()`. -/
def finish (c : ElvernConnection) : Ending → ElvernConnection
  | .commit => { tx := c.tx.commit.map Snapshot.restart, libraryRevisionClaims := [], fired := [] }
  | .rollback =>
    { tx := c.tx.rollback.map Snapshot.restart, libraryRevisionClaims := [], fired := [] }

/-- The committed tables. -/
def database (c : ElvernConnection) : Database := c.tx.committed.db

/-- The number of the first change that the triggers fired for. -/
def first (c : ElvernConnection) (κ : Key) : ℕ × Key := (c.fired.idxOf κ, κ)

end ElvernConnection

open ElvernConnection

/-- What a transaction from the tables `d` owes its counters. -/
def TransactionKept (d : Database) (ss : List Statement) (e : Ending) : Prop :=
  let open_ := (connect d).run ss
  let closed := open_.finish e
  -- the next transaction is one of a fresh connection
  closed = connect closed.database ∧
    match e with
    | .commit =>
      (∀ κ, ¬ Rows.SameTracked κ d.rows closed.database.rows →
        d.counters κ < closed.database.counters κ) ∧
      ∀ κ, (∃ n, (n, κ) ∈ open_.tx.current.log) →
        closed.database.counters κ = d.counters κ + 1
    | .rollback => closed.database.counters = d.counters

/-- No scope and layer loses its first change and keeps a later one; before a
`rollback()`, none has its first change committed already. -/
def FirstChangesKept (d : Database) (ss : List Statement) (e : Ending) : Prop :=
  let open_ := (connect d).run ss
  match e with
  | .commit =>
    ∀ κ, (∃ n, (n, κ) ∈ open_.tx.current.log) → open_.first κ ∈ open_.tx.current.log
  | .rollback => ∀ κ, open_.first κ ∉ open_.tx.committed.log

theorem Snapshot.mem_record {s : Snapshot} {m n : ℕ} {κ κ' : Key} :
    (m, κ') ∈ (s.record n κ).log ↔ (m, κ') ∈ s.log ∨ (m = n ∧ κ' = κ) := by
  simp [Snapshot.record]

/-- What a state of the transaction says of its counters, when the triggers fired
for `fired` so far and are still to run for `pending`. -/
structure Recorded (d : Database) (pending fired : List Key) (s : Snapshot) : Prop where
  counted : ∀ κ,
    s.db.counters κ = d.counters κ + if (fired.idxOf κ, κ) ∈ s.log then 1 else 0
  numbered : ∀ n κ, (n, κ) ∈ s.log → fired[n]? = some κ
  untouched : ∀ κ, κ ∉ pending → (∀ n, (n, κ) ∉ s.log) → Rows.SameTracked κ d.rows s.db.rows

namespace Recorded

variable {d : Database} {pending fired : List Key} {s : Snapshot} {κ : Key} {n : ℕ}

theorem mem_fired (h : Recorded d pending fired s) (hn : (n, κ) ∈ s.log) : κ ∈ fired :=
  List.mem_of_getElem? (h.numbered n κ hn)

/-- What fires later has no part in a state of before. -/
theorem mono (h : Recorded d pending fired s) (later : List Key) :
    Recorded d pending (fired ++ later) s where
  counted κ := by
    rw [h.counted κ]
    by_cases hmem : κ ∈ fired
    · rw [List.idxOf_append_of_mem hmem]
    · rw [if_neg fun hn => hmem (h.mem_fired hn), if_neg fun hn => hmem (h.mem_fired hn)]
  numbered n κ hn := by
    have hget := h.numbered n κ hn
    obtain ⟨hlt, -⟩ := List.getElem?_eq_some_iff.1 hget
    rw [List.getElem?_append_left hlt, hget]
  untouched := h.untouched

/-- The number of a new change is taken by no other. -/
theorem record_numbered (h : Recorded d pending fired s) (κ : Key) :
    ∀ n κ', (n, κ') ∈ (s.record fired.length κ).log → (fired ++ [κ])[n]? = some κ' := by
  intro n κ' hn
  rcases Snapshot.mem_record.1 hn with hold | ⟨rfl, rfl⟩
  · exact (h.mono [κ]).numbered n κ' hold
  · simp

theorem record_untouched (h : Recorded d (κ :: pending) fired s) (hκ : κ' ∉ pending)
    (hn : ∀ n, (n, κ') ∉ (s.record fired.length κ).log) :
    Rows.SameTracked κ' d.rows s.db.rows := by
  have hne : κ' ≠ κ := fun he => hn fired.length (Snapshot.mem_record.2 (Or.inr ⟨rfl, he⟩))
  refine h.untouched κ' ?_ fun n hmem => hn n (Snapshot.mem_record.2 (Or.inl hmem))
  rw [List.mem_cons, not_or]
  exact ⟨hne, hκ⟩

/-- A change of a scope and layer that the triggers fired for before. -/
theorem again (h : Recorded d (κ :: pending) fired s) (hκ : κ ∈ fired) :
    Recorded d pending (fired ++ [κ]) (s.record fired.length κ) where
  counted κ' := by
    have hiff : ((fired ++ [κ]).idxOf κ', κ') ∈ (s.record fired.length κ).log ↔
        ((fired ++ [κ]).idxOf κ', κ') ∈ s.log := by
      rw [Snapshot.mem_record]
      refine or_iff_left ?_
      -- the first change of `κ` has a smaller number
      rintro ⟨hlen, rfl⟩
      rw [List.idxOf_append_of_mem hκ] at hlen
      exact absurd (List.idxOf_lt_length_of_mem hκ) (by omega)
    rw [if_congr hiff rfl rfl]
    exact (h.mono [κ]).counted κ'
  numbered := h.record_numbered κ
  untouched _ hp hn := h.record_untouched hp hn

/-- The first change of a scope and layer. -/
theorem bump (h : Recorded d (κ :: pending) fired s) (hκ : κ ∉ fired) :
    Recorded d pending (fired ++ [κ]) ((s.record fired.length κ).bump κ) where
  counted κ' := by
    have hcount := (h.mono [κ]).counted κ'
    by_cases hne : κ' = κ
    · subst hne
      have hidx : (fired ++ [κ']).idxOf κ' = fired.length := by
        rw [List.idxOf_append_of_notMem hκ]
        simp
      have hnew : (fired.length, κ') ∈ (s.record fired.length κ').log :=
        Snapshot.mem_record.2 (Or.inr ⟨rfl, rfl⟩)
      rw [hidx, if_neg fun hn => hκ (h.mem_fired hn)] at hcount
      rw [hidx]
      show ((s.record fired.length κ').db.bump κ').counters κ' =
        _ + if (fired.length, κ') ∈ (s.record fired.length κ').log then 1 else 0
      rw [Database.bump_self, if_pos hnew]
      show s.db.counters κ' + 1 = _
      rw [hcount]
    · show ((s.record fired.length κ).db.bump κ).counters κ' =
        _ + if ((fired ++ [κ]).idxOf κ', κ') ∈ (s.record fired.length κ).log then 1 else 0
      have hiff : ((fired ++ [κ]).idxOf κ', κ') ∈ (s.record fired.length κ).log ↔
          ((fired ++ [κ]).idxOf κ', κ') ∈ s.log := by
        rw [Snapshot.mem_record]
        exact or_iff_left fun he => hne he.2
      rw [Database.bump_of_ne _ hne, if_congr hiff rfl rfl]
      exact hcount
  numbered := h.record_numbered κ
  untouched _ hp hn := h.record_untouched hp hn

/-- A row changes; the triggers are still to run. -/
theorem change (h : Recorded d [] fired s) (ch : Change) :
    Recorded d (ch.fires (s.db.rows ch.row)) fired (s.change ch) where
  counted := h.counted
  numbered := h.numbered
  untouched κ hκ hn :=
    (h.untouched κ List.not_mem_nil hn).trans (Rows.sameTracked_change hκ)

end Recorded

/-- A statement adds to what fired; nothing takes from it. -/
theorem fired_fires (ks : List Key) (c : ElvernConnection) :
    ∃ later, c.fired ++ later = (ks.foldl fire c).fired := by
  induction ks generalizing c with
  | nil => exact ⟨[], List.append_nil _⟩
  | cons κ ks ih =>
      obtain ⟨later, hlater⟩ := ih (c.fire κ)
      refine ⟨κ :: later, ?_⟩
      have hfire : (c.fire κ).fired = c.fired ++ [κ] := by
        unfold fire
        split <;> rfl
      rw [List.foldl_cons, ← hlater, hfire, List.append_assoc, List.singleton_append]

theorem fired_changes (chs : List Change) (c : ElvernConnection) :
    ∃ later, c.fired ++ later = (chs.foldl change c).fired := by
  induction chs generalizing c with
  | nil => exact ⟨[], List.append_nil _⟩
  | cons ch chs ih =>
      obtain ⟨l₁, h₁⟩ := fired_fires (ch.fires (c.tx.current.db.rows ch.row))
        { c with tx := c.tx.write fun s => s.change ch }
      obtain ⟨l₂, h₂⟩ := ih (c.change ch)
      refine ⟨l₁ ++ l₂, ?_⟩
      rw [List.foldl_cons, ← h₂, ← List.append_assoc]
      exact congrArg (· ++ l₂) h₁

/-- What a transaction from the tables `d` keeps, while the triggers are still
to run for `pending`. -/
structure Sound (d : Database) (pending : List Key) (c : ElvernConnection) : Prop where
  claims : ∀ κ, κ ∈ c.libraryRevisionClaims ↔ κ ∈ c.fired
  committed : Recorded d [] c.fired c.tx.committed
  current : Recorded d pending c.fired c.tx.current
  savepoints : ∀ s ∈ c.tx.savepoints, Recorded d [] c.fired s.2

namespace Sound

variable {d : Database} {pending : List Key} {c : ElvernConnection}

theorem everywhere (h : Sound d [] c) : c.tx.Everywhere (Recorded d [] c.fired) :=
  ⟨h.committed, h.current, h.savepoints⟩

theorem of_everywhere (hc : ∀ κ, κ ∈ c.libraryRevisionClaims ↔ κ ∈ c.fired)
    (h : c.tx.Everywhere (Recorded d [] c.fired)) : Sound d [] c :=
  ⟨hc, h.committed, h.current, h.savepoints⟩

theorem connect (d : Database) : Sound d [] (connect d) :=
  of_everywhere (fun _ => Iff.rfl) (.opened
    { counted := fun _ => rfl
      numbered := fun _ _ hn => absurd hn List.not_mem_nil
      untouched := fun _ _ _ => Rows.SameTracked.refl _ _ })

/-- One trigger. -/
theorem fire {κ : Key} (h : Sound d (κ :: pending) c) : Sound d pending (c.fire κ) := by
  unfold ElvernConnection.fire
  by_cases hκ : κ ∈ c.libraryRevisionClaims
  · rw [if_pos hκ]
    refine ⟨fun κ' => ?_, h.committed.mono [κ], h.current.again ((h.claims κ).1 hκ),
      fun s hs => (h.savepoints s hs).mono [κ]⟩
    rw [h.claims κ', List.mem_append, List.mem_singleton]
    refine (or_iff_left_of_imp ?_).symm
    rintro rfl
    exact (h.claims κ').1 hκ
  · rw [if_neg hκ]
    refine ⟨fun κ' => ?_, h.committed.mono [κ], h.current.bump fun hm => hκ ((h.claims κ).2 hm),
      fun s hs => (h.savepoints s hs).mono [κ]⟩
    rw [List.mem_cons, h.claims κ', List.mem_append, List.mem_singleton]
    exact Or.comm

theorem fires (ks : List Key) (h : Sound d ks c) :
    Sound d [] (ks.foldl ElvernConnection.fire c) := by
  induction ks generalizing c with
  | nil => exact h
  | cons κ ks ih => exact ih h.fire

/-- One change of a row. -/
theorem change (h : Sound d [] c) (ch : Change) : Sound d [] (c.change ch) :=
  fires _ ⟨h.claims, h.committed, h.current.change ch, h.savepoints⟩

theorem changes (h : Sound d [] c) (chs : List Change) :
    Sound d [] (chs.foldl ElvernConnection.change c) := by
  induction chs generalizing c with
  | nil => exact h
  | cons ch chs ih => exact ih (h.change ch)

/-- A statement, undone by its failure or not. -/
theorem dml (h : Sound d [] c) (chs : List Change) (fails : Bool) :
    Sound d [] (c.execute (.dml chs fails)) := by
  have hbegin : Sound d [] { c with tx := c.tx.begin } :=
    of_everywhere h.claims h.everywhere.begin
  have hafter := hbegin.changes chs
  obtain ⟨later, hlater⟩ := fired_changes chs { c with tx := c.tx.begin }
  unfold execute
  cases fails with
  | false => exact hafter
  | true =>
      -- the state of before, seen with what fired during the statement
      have hback : Recorded d []
          (chs.foldl ElvernConnection.change { c with tx := c.tx.begin }).fired c.tx.current := by
        rw [← hlater]
        exact h.current.mono later
      have hundone : ((chs.foldl ElvernConnection.change { c with tx := c.tx.begin }).tx.write
          fun _ => c.tx.current).Everywhere (Recorded d [] _) := hafter.everywhere.write hback
      exact of_everywhere hafter.claims hundone

theorem execute (h : Sound d [] c) (s : Statement) : Sound d [] (c.execute s) := by
  cases s with
  | dml chs fails => exact h.dml chs fails
  | savepoint name => exact of_everywhere h.claims (h.everywhere.savepoint name)
  | rollbackTo name => exact of_everywhere h.claims (h.everywhere.rollbackTo name)
  | release name => exact of_everywhere h.claims (h.everywhere.release name)

theorem run (h : Sound d [] c) (ss : List Statement) : Sound d [] (c.run ss) := by
  induction ss generalizing c with
  | nil => exact h
  | cons s ss ih => exact ih (h.execute s)

end Sound

/-- In every state that a transaction can come back to, its counters are up for
the changes that were the first of their scope and are still there. -/
theorem run_sound (d : Database) (ss : List Statement) :
    ((connect d).run ss).tx.Everywhere (Recorded d [] ((connect d).run ss).fired) :=
  ((Sound.connect d).run ss).everywhere

theorem Recorded.counters_of_first {d : Database} {c : ElvernConnection} {s : Snapshot} {κ : Key}
    (h : Recorded d [] c.fired s) (hκ : c.first κ ∈ s.log) :
    s.db.counters κ = d.counters κ + 1 :=
  (h.counted κ).trans (congrArg _ (if_pos hκ))

theorem Recorded.counters_of_lost {d : Database} {c : ElvernConnection} {s : Snapshot} {κ : Key}
    (h : Recorded d [] c.fired s) (hκ : c.first κ ∉ s.log) :
    s.db.counters κ = d.counters κ :=
  (h.counted κ).trans (congrArg _ (if_neg hκ))

/-- A counter whose tracked columns changed has a change that is still there. -/
theorem Recorded.exists_log {d : Database} {fired : List Key} {s : Snapshot} {κ : Key}
    (h : Recorded d [] fired s) (hκ : ¬ Rows.SameTracked κ d.rows s.db.rows) :
    ∃ n, (n, κ) ∈ s.log := by
  by_contra hno
  exact hκ (h.untouched κ List.not_mem_nil fun n hn => hno ⟨n, hn⟩)

/-- The counters of a transaction tell every change that it keeps, once for each
scope and layer, exactly if no scope and layer loses its first change and keeps
a later one. -/
theorem transactionKept_iff (d : Database) (ss : List Statement) (e : Ending) :
    TransactionKept d ss e ↔ FirstChangesKept d ss e := by
  have hrun := run_sound d ss
  cases e with
  | commit =>
      have hcur := hrun.current
      constructor
      · rintro ⟨-, -, honce⟩ κ hκ
        have hup : ((connect d).run ss).tx.current.db.counters κ = d.counters κ + 1 := honce κ hκ
        by_contra hfirst
        have hsame := hcur.counters_of_lost hfirst
        omega
      · intro hfirst
        have honce : ∀ κ, (∃ n, (n, κ) ∈ ((connect d).run ss).tx.current.log) →
            ((connect d).run ss).tx.current.db.counters κ = d.counters κ + 1 :=
          fun κ hκ => hcur.counters_of_first (hfirst κ hκ)
        refine ⟨rfl, fun κ hκ => ?_, honce⟩
        have hup := honce κ (hcur.exists_log hκ)
        exact hup ▸ Nat.lt_succ_self _
  | rollback =>
      have hcom := hrun.committed
      constructor
      · rintro ⟨-, hsame⟩ κ hfirst
        have hup := hcom.counters_of_first hfirst
        have hκ : ((connect d).run ss).tx.committed.db.counters κ = d.counters κ :=
          congrFun hsame κ
        omega
      · intro hfirst
        exact ⟨rfl, funext fun κ => hcom.counters_of_lost (hfirst κ)⟩

/-- A movie of the library. -/
def sampleMovie : Row where
  table := .mediaItems
  cells _ := .null
  owned := by simp [triggerSpecs]

/-- A scan that finds a movie, comes back to its savepoint and finds the movie
again: the first statement opens the transaction and changes no row with
triggers. -/
def sampleScan : List Statement :=
  [.dml [] false, .savepoint "scan", .dml [.insert 0 sampleMovie] false, .rollbackTo "scan",
    .dml [.insert 0 sampleMovie] false]

/-- The second insertion is committed and no counter tells it. -/
theorem scan_untold : ¬ TransactionKept ⟨fun _ => none, fun _ => 0⟩ sampleScan .commit := by
  rintro ⟨-, -, honce⟩
  have hup := honce ⟨.global, 0, .catalog⟩ ⟨1, by decide⟩
  exact absurd hup (by decide)

section Rollback

variable {d : Database} {c : ElvernConnection} {s₀ : Snapshot}

theorem uncommitted_fire (h : c.tx.Uncommitted s₀) (κ : Key) :
    (c.fire κ).tx.Uncommitted s₀ := by
  unfold fire
  split
  · exact ⟨h.committed, h.phase⟩
  · exact ⟨h.committed, h.phase⟩

theorem uncommitted_change (h : c.tx.Uncommitted s₀) (ch : Change) :
    (c.change ch).tx.Uncommitted s₀ := by
  have hfires : ∀ (ks : List Key) (c : ElvernConnection), c.tx.Uncommitted s₀ →
      (ks.foldl fire c).tx.Uncommitted s₀ := by
    intro ks
    induction ks with
    | nil => exact fun _ h => h
    | cons κ ks ih => exact fun _ h => ih _ (uncommitted_fire h κ)
  exact hfires _ _ ⟨h.committed, h.phase⟩

theorem uncommitted_changes (h : c.tx.Uncommitted s₀) (chs : List Change) :
    (chs.foldl change c).tx.Uncommitted s₀ := by
  induction chs generalizing c with
  | nil => exact h
  | cons ch chs ih => exact ih (uncommitted_change h ch)

/-- A statement that finds a transaction open, or opens it with a change. -/
theorem uncommitted_dml (h : c.tx.begin.Uncommitted s₀) (chs : List Change) (fails : Bool) :
    (c.execute (.dml chs fails)).tx.Uncommitted s₀ := by
  have hafter := uncommitted_changes (c := { c with tx := c.tx.begin }) h chs
  cases fails with
  | false => exact hafter
  | true => exact ⟨hafter.committed, hafter.phase⟩

theorem uncommitted_run (h : c.tx.Uncommitted s₀) (ss : List Statement) :
    (c.run ss).tx.Uncommitted s₀ := by
  induction ss generalizing c with
  | nil => exact h
  | cons s ss ih =>
      refine ih ?_
      cases s with
      | dml chs fails => exact uncommitted_dml h.begin chs fails
      | savepoint name => exact h.savepoint name
      | rollbackTo name => exact h.rollbackTo name
      | release name => exact h.release name

/-- The rollback of a transaction that a change opened leaves nothing of it. -/
theorem rollback_kept (d : Database) (chs : List Change) (fails : Bool) (ss : List Statement) :
    FirstChangesKept d (.dml chs fails :: ss) .rollback := by
  intro κ hκ
  have hopen : (((connect d).execute (.dml chs fails)).run ss).tx.Uncommitted ⟨d, []⟩ :=
    uncommitted_run (uncommitted_dml .begin_opened chs fails) ss
  have hlog : ((connect d).run (.dml chs fails :: ss)).tx.committed = ⟨d, []⟩ := hopen.committed
  rw [hlog] at hκ
  exact absurd hκ List.not_mem_nil

end Rollback

end LibraryRevision
