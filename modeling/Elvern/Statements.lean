/-
Requests as sequences of database statements, and their interleavings.

A `Program` is what one request does with its database connection: it reads,
writes, commits and raises; between two statements of a request any statement
of another one may run.  The database has one writer at a time: the first write
of a connection takes the write lock, a commit publishes the connection's copy,
and a connection that is closed before its commit is rolled back.  A read
outside a transaction sees the last committed state.

* `Server.step` — one statement of one request;
* `Program.Meets` — a request keeps the guarantee `G` at each of its commits,
  whatever commits in `R` the other requests make between its statements;
* `Server.Sound.reach` — requests whose guarantees imply each other's relies keep
  them in every interleaving, and the history of commits is a chain of `G`-steps;
* `Program.runAlone` — the request run from its first statement to its last
  with no other request in between.
-/
import Mathlib.Data.Nat.Notation
import Mathlib.Logic.Function.Basic
import Mathlib.Logic.Relation
import Mathlib.Order.Basic
import Elvern.Runs

namespace Statements

/-- The statements of a request on a database of type `σ`.  Inputs of the
environment (clock, random tokens) have type `τ`, exceptions type `ε`. -/
inductive Program (σ τ ε α : Type) : Type where
  /-- The request returns. -/
  | ret (a : α)
  /-- The request raises; its connection is closed without a commit. -/
  | raise (e : ε)
  /-- The connection failed under the request (a lock timeout, the end of the process). -/
  | lost
  /-- A read. -/
  | select (k : σ → Program σ τ ε α)
  /-- An input of the environment. -/
  | ask (k : τ → Program σ τ ε α)
  /-- A write; it opens the transaction if none is open.  The number is what the
  cursor reports (the last row id, the count of rows). -/
  | execute (f : σ → Except ε (σ × ℕ)) (k : ℕ → Program σ τ ε α)
  /-- The end of the transaction. -/
  | commit (k : Program σ τ ε α)
  /-- A whole write transaction on a connection of its own. -/
  | separately (f : σ → σ × ℕ) (k : ℕ → Program σ τ ε α)

namespace Program

variable {σ τ ε α β : Type}

/-- Sequencing of requests. -/
def bind : Program σ τ ε α → (α → Program σ τ ε β) → Program σ τ ε β
  | .ret a, k => k a
  | .raise e, _ => .raise e
  | .lost, _ => .lost
  | .select g, k => .select fun s => (g s).bind k
  | .ask g, k => .ask fun x => (g x).bind k
  | .execute f g, k => .execute f fun n => (g n).bind k
  | .commit p, k => .commit (p.bind k)
  | .separately f g, k => .separately f fun n => (g n).bind k

instance : Monad (Program σ τ ε) where
  pure := .ret
  bind := bind

theorem bind_assoc_aux {γ : Type} (p : Program σ τ ε α) (f : α → Program σ τ ε β)
    (g : β → Program σ τ ε γ) : (p.bind f).bind g = p.bind fun a => (f a).bind g := by
  induction p with
  | ret a => rfl
  | raise e => rfl
  | lost => rfl
  | select k ih => exact congrArg Program.select (funext ih)
  | ask k ih => exact congrArg Program.ask (funext ih)
  | execute h k ih => exact congrArg (Program.execute h) (funext ih)
  | commit p ih => exact congrArg Program.commit ih
  | separately h k ih => exact congrArg (Program.separately h) (funext ih)

theorem bind_pure_aux (p : Program σ τ ε α) : p.bind .ret = p := by
  induction p with
  | ret a => rfl
  | raise e => rfl
  | lost => rfl
  | select k ih => exact congrArg Program.select (funext ih)
  | ask k ih => exact congrArg Program.ask (funext ih)
  | execute h k ih => exact congrArg (Program.execute h) (funext ih)
  | commit p ih => exact congrArg Program.commit ih
  | separately h k ih => exact congrArg (Program.separately h) (funext ih)

instance : LawfulMonad (Program σ τ ε) :=
  LawfulMonad.mk' _ bind_pure_aux (fun _ _ => rfl) bind_assoc_aux

@[simp] theorem bind_ret (a : α) (k : α → Program σ τ ε β) :
    (Program.ret a >>= k) = k a := rfl

@[simp] theorem bind_raise (e : ε) (k : α → Program σ τ ε β) :
    ((Program.raise e : Program σ τ ε α) >>= k) = .raise e := rfl

/-- Read something of the database. -/
def query (f : σ → α) : Program σ τ ε α := .select fun s => .ret (f s)

/-- Ask the environment. -/
def input : Program σ τ ε τ := .ask .ret

/-- A write that violates no constraint. -/
def update (f : σ → σ) : Program σ τ ε Unit := .execute (fun s => .ok (f s, 0)) fun _ => .ret ()

/-- A write that a constraint may refuse. -/
def insert (f : σ → Except ε (σ × ℕ)) : Program σ τ ε ℕ := .execute f .ret

/-- End the transaction. -/
def commitNow : Program σ τ ε Unit := .commit (.ret ())

/-- A transaction of another connection. -/
def apart (f : σ → σ × ℕ) : Program σ τ ε ℕ := .separately f .ret

/-- The request has no statement left. -/
def finished : Program σ τ ε α → Bool
  | .ret _ => true
  | .raise _ => true
  | .lost => true
  | _ => false

/-- The state a connection reads: its own uncommitted copy, or the committed one. -/
def view (s : σ) (w : Option σ) : σ := w.getD s

@[simp] theorem view_none (s : σ) : view s none = s := rfl

@[simp] theorem view_some (s u : σ) : view s (some u) = u := rfl

/-- The committed states a request may find at its next statement: the others
commit in `R`, but not while the request holds the write lock. -/
def Later (R : σ → σ → Prop) (s : σ) : Option σ → σ → Prop
  | none, s' => Relation.ReflTransGen R s s'
  | some _, s' => s' = s

theorem Later.refl {R : σ → σ → Prop} (s : σ) (w : Option σ) : Later R s w s := by
  cases w with
  | none => exact Relation.ReflTransGen.refl
  | some u => rfl

/-- A preorder that others' commits respect leads to what a request finds. -/
theorem Later.rel {R : σ → σ → Prop} (hrefl : ∀ s, R s s)
    (htrans : ∀ {s t u}, R s t → R t u → R s u) {s s' : σ} {w : Option σ} (h : Later R s w s') :
    R s s' := by
  cases w with
  | none =>
    induction h with
    | refl => exact hrefl s
    | tail _ hst ih => exact htrans ih hst
  | some u =>
    cases h
    exact hrefl s

/-- The rely–guarantee condition on a request, from the committed state `s` and
its own uncommitted copy `w`: under others' commits in `R`, each of its commits
is in `G`, and it returns only what `Q` allows. -/
def Meets (R G : σ → σ → Prop) (Q : α → σ → Prop) :
    Program σ τ ε α → σ → Option σ → Prop
  | .ret a, s, w => ∀ s', Later R s w s' → ∀ s'', Relation.ReflTransGen R s' s'' → Q a s''
  | .raise _, _, _ => True
  | .lost, _, _ => True
  | .select k, s, w => ∀ s', Later R s w s' → Meets R G Q (k (view s' w)) s' w
  | .ask k, s, w => ∀ s', Later R s w s' → ∀ x, Meets R G Q (k x) s' w
  | .execute f k, s, w => ∀ s', Later R s w s' →
      ∀ u n, f (view s' w) = .ok (u, n) → Meets R G Q (k n) s' (some u)
  | .commit p, s, none => ∀ s', Later R s none s' → Meets R G Q p s' none
  | .commit p, s, some u => G s u ∧ Meets R G Q p u none
  | .separately _ _, _, some _ => True
  | .separately f k, s, none => ∀ s', Later R s none s' →
      G s' (f s').1 ∧ Meets R G Q (k (f s').2) (f s').1 none

variable {R G : σ → σ → Prop} {Q : α → σ → Prop}

/-- Others' commits do not harm a request that holds no lock. -/
theorem Meets.stable {p : Program σ τ ε α} {s s₁ : σ} (h : Meets R G Q p s none)
    (hR : R s s₁) : Meets R G Q p s₁ none := by
  have hlater : ∀ {s'}, Later R s₁ none s' → Later R s none s' :=
    fun hs => Relation.ReflTransGen.head hR hs
  cases p with
  | ret a => exact fun s' hs => h s' (hlater hs)
  | raise e => trivial
  | lost => trivial
  | select k => exact fun s' hs => h s' (hlater hs)
  | ask k => exact fun s' hs => h s' (hlater hs)
  | execute f k => exact fun s' hs => h s' (hlater hs)
  | commit p => exact fun s' hs => h s' (hlater hs)
  | separately f k => exact fun s' hs => h s' (hlater hs)

/-- A request that has got its input. -/
theorem Meets.asked {k : τ → Program σ τ ε α} {s : σ} {w : Option σ} (h : Meets R G Q (.ask k) s w)
    (x : τ) : Meets R G Q (k x) s w :=
  h s (Later.refl s w) x

theorem meets_lost {s : σ} {w : Option σ} : Meets R G Q (.lost : Program σ τ ε α) s w := trivial

/-! ### One rule for each kind of statement -/

theorem meets_ret {a : α} {s : σ} {w : Option σ}
    (h : ∀ s' s'', Later R s w s' → Relation.ReflTransGen R s' s'' → Q a s'') :
    Meets R G Q (.ret a : Program σ τ ε α) s w :=
  fun s' hs s'' hs'' => h s' s'' hs hs''

/-- What a request has returned is allowed. -/
theorem Meets.returned {a : α} {s : σ} {w : Option σ}
    (h : Meets R G Q (.ret a : Program σ τ ε α) s w) : Q a s :=
  h s (Later.refl s w) s .refl

theorem meets_raise {e : ε} {s : σ} {w : Option σ} :
    Meets R G Q (.raise e : Program σ τ ε α) s w := trivial

/-- A check that raises when it fails. -/
theorem meets_guard {c : Prop} {_ : Decidable c} {e : ε} {p : Program σ τ ε β}
    {k : β → Program σ τ ε α} {s : σ} {w : Option σ} (h : ¬ c → Meets R G Q (p >>= k) s w) :
    Meets R G Q ((if c then .raise e else p) >>= k) s w := by
  by_cases hc : c
  · rw [if_pos hc]
    trivial
  · rw [if_neg hc]
    exact h hc

theorem meets_query {f : σ → β} {k : β → Program σ τ ε α} {s : σ} {w : Option σ}
    (h : ∀ s', Later R s w s' → Meets R G Q (k (f (view s' w))) s' w) :
    Meets R G Q (query f >>= k) s w := h

theorem meets_input {k : τ → Program σ τ ε α} {s : σ} {w : Option σ}
    (h : ∀ s' x, Later R s w s' → Meets R G Q (k x) s' w) :
    Meets R G Q (input >>= k) s w := fun s' hs x => h s' x hs

theorem meets_update {f : σ → σ} {k : Unit → Program σ τ ε α} {s : σ} {w : Option σ}
    (h : ∀ s', Later R s w s' → Meets R G Q (k ()) s' (some (f (view s' w)))) :
    Meets R G Q (update f >>= k) s w := by
  intro s' hs u n hu
  cases hu
  exact h s' hs

theorem meets_insert {f : σ → Except ε (σ × ℕ)} {k : ℕ → Program σ τ ε α} {s : σ}
    {w : Option σ}
    (h : ∀ s' u n, Later R s w s' → f (view s' w) = .ok (u, n) →
      Meets R G Q (k n) s' (some u)) :
    Meets R G Q (insert f >>= k) s w := fun s' hs u n hu => h s' u n hs hu

theorem meets_commit {k : Unit → Program σ τ ε α} {s u : σ}
    (hG : G s u) (h : Meets R G Q (k ()) u none) :
    Meets R G Q (commitNow >>= k) s (some u) := ⟨hG, h⟩

theorem meets_commit_none {k : Unit → Program σ τ ε α} {s : σ}
    (h : ∀ s', Later R s none s' → Meets R G Q (k ()) s' none) :
    Meets R G Q (commitNow >>= k) s none := h

theorem meets_apart {f : σ → σ × ℕ} {k : ℕ → Program σ τ ε α} {s : σ} {w : Option σ}
    (hG : ∀ s', G s' (f s').1)
    (h : ∀ s', Later R s none s' → w = none →
      Meets R G Q (k (f s').2) (f s').1 none) :
    Meets R G Q (apart f >>= k) s w := by
  cases w with
  | none => exact fun s' hs => ⟨hG s', h s' hs rfl⟩
  | some u => trivial

/-- A request that holds the lock waits in vain for a transaction of another connection. -/
theorem meets_apart_blocked {f : σ → σ × ℕ} {k : ℕ → Program σ τ ε α} {s u : σ} :
    Meets R G Q (apart f >>= k) s (some u) := trivial

/-- A rest that is fine from every state. -/
theorem meets_bind {Q' : β → σ → Prop} {p : Program σ τ ε β} {k : β → Program σ τ ε α}
    (hk : ∀ a s w, Meets R G Q (k a) s w) :
    ∀ {s : σ} {w : Option σ}, Meets R G Q' p s w → Meets R G Q (p >>= k) s w := by
  induction p with
  | ret a => exact fun {s w} _ => hk a s w
  | raise e => exact fun _ => trivial
  | lost => exact fun _ => trivial
  | select g ih => exact fun hp s' hs => ih _ (hp s' hs)
  | ask g ih => exact fun hp s' hs x => ih _ (hp s' hs x)
  | execute f g ih => exact fun hp s' hs u n hu => ih _ (hp s' hs u n hu)
  | commit p ih =>
    intro s w hp
    cases w with
    | none => exact fun s' hs => ih (hp s' hs)
    | some u => exact ⟨hp.1, ih hp.2⟩
  | separately f g ih =>
    intro s w hp
    cases w with
    | none => exact fun s' hs => ⟨(hp s' hs).1, ih _ (hp s' hs).2⟩
    | some u => trivial

/-! ### Exceptions -/

/-- The request does not raise any more. -/
def raisesNever : Program σ τ ε α → Prop
  | .ret _ => True
  | .raise _ => False
  | .lost => True
  | .select k => ∀ s, (k s).raisesNever
  | .ask k => ∀ x, (k x).raisesNever
  | .execute f k => (∀ s e, f s ≠ .error e) ∧ ∀ n, (k n).raisesNever
  | .commit p => p.raisesNever
  | .separately _ k => ∀ n, (k n).raisesNever

/-- The request raises only before its first commit. -/
def raisesFirst : Program σ τ ε α → Prop
  | .ret _ => True
  | .raise _ => True
  | .lost => True
  | .select k => ∀ s, (k s).raisesFirst
  | .ask k => ∀ x, (k x).raisesFirst
  | .execute _ k => ∀ n, (k n).raisesFirst
  | .commit p => p.raisesNever
  | .separately _ k => ∀ n, (k n).raisesNever

theorem raisesNever_ret (a : α) : (.ret a : Program σ τ ε α).raisesNever := trivial

theorem raisesFirst_raise (e : ε) : (.raise e : Program σ τ ε α).raisesFirst := trivial

theorem raisesFirst_query {f : σ → β} {k : β → Program σ τ ε α} (h : ∀ b, (k b).raisesFirst) :
    (query f >>= k).raisesFirst := fun s => h (f s)

theorem raisesFirst_input {k : τ → Program σ τ ε α} (h : ∀ x, (k x).raisesFirst) :
    (input >>= k).raisesFirst := h

theorem raisesFirst_update {f : σ → σ} {k : Unit → Program σ τ ε α} (h : (k ()).raisesFirst) :
    (update f >>= k).raisesFirst := fun _ => h

theorem raisesFirst_insert {f : σ → Except ε (σ × ℕ)} {k : ℕ → Program σ τ ε α}
    (h : ∀ n, (k n).raisesFirst) : (insert f >>= k).raisesFirst := h

theorem raisesFirst_commit {k : Unit → Program σ τ ε α} (h : (k ()).raisesNever) :
    (commitNow >>= k).raisesFirst := h

theorem raisesFirst_guard {c : Prop} {_ : Decidable c} {e : ε} {p : Program σ τ ε β}
    {k : β → Program σ τ ε α} (h : (p >>= k).raisesFirst) :
    ((if c then .raise e else p) >>= k).raisesFirst := by
  split
  · trivial
  · exact h

theorem raisesFirst_of_raisesNever {p : Program σ τ ε α} (h : p.raisesNever) : p.raisesFirst := by
  induction p with
  | ret a => trivial
  | raise e => trivial
  | lost => trivial
  | select k ih => exact fun s => ih s (h s)
  | ask k ih => exact fun x => ih x (h x)
  | execute f k ih => exact fun n => ih n (h.2 n)
  | commit p _ => exact h
  | separately f k _ => exact h

/-! ### A request alone -/

/-- How a request ended. -/
inductive Outcome (ε α : Type) where
  | returned (a : α)
  | raised (e : ε)
  | lost

/-- Run a request from the committed state `s` and its own copy `w`, with no other request
in between.  Its inputs come from `inputs`, from the `n`-th on.  A transaction of another
connection waits in vain for a lock that the request holds itself. -/
def runAlone (inputs : ℕ → τ) : Program σ τ ε α → ℕ → σ → Option σ → σ × Outcome ε α
  | .ret a, _, s, _ => (s, .returned a)
  | .raise e, _, s, _ => (s, .raised e)
  | .lost, _, s, _ => (s, .lost)
  | .select k, n, s, w => runAlone inputs (k (view s w)) n s w
  | .ask k, n, s, w => runAlone inputs (k (inputs n)) (n + 1) s w
  | .execute f k, n, s, w =>
    match f (view s w) with
    | .error e => (s, .raised e)
    | .ok (u, r) => runAlone inputs (k r) n s (some u)
  | .commit p, n, s, w => runAlone inputs p n (view s w) none
  | .separately _ _, _, s, some _ => (s, .lost)
  | .separately f k, n, s, none => runAlone inputs (k (f s).2) n (f s).1 none

variable {T : Type} [Preorder T] (time : τ → T)

/-- The weakest precondition of `Q` for a request that runs alone, from the time `t`
on: `Q` holds of its outcome, the committed state it leaves and the time it ends at. -/
def Ensures (Q : Outcome ε α → σ → T → Prop) : Program σ τ ε α → σ → Option σ → T → Prop
  | .ret a, s, _, t => Q (.returned a) s t
  | .raise e, s, _, t => Q (.raised e) s t
  | .lost, s, _, t => Q .lost s t
  | .select k, s, w, t => Ensures Q (k (view s w)) s w t
  | .ask k, s, w, t => ∀ x, t ≤ time x → Ensures Q (k x) s w (time x)
  | .execute f k, s, w, t =>
    match f (view s w) with
    | .error e => Q (.raised e) s t
    | .ok (u, r) => Ensures Q (k r) s (some u) t
  | .commit p, s, w, t => Ensures Q p (view s w) none t
  | .separately _ _, s, some _, t => Q .lost s t
  | .separately f k, s, none, t => Ensures Q (k (f s).2) (f s).1 none t

/-- A precondition is sound for every run whose clock does not go back. -/
theorem Ensures.runAlone {Q : Outcome ε α → σ → T → Prop} {inputs : ℕ → τ} {finish : T}
    (hmono : ∀ m n, m ≤ n → time (inputs m) ≤ time (inputs n))
    (hfinish : ∀ n, time (inputs n) ≤ finish) {p : Program σ τ ε α} :
    ∀ {n : ℕ} {s : σ} {w : Option σ} {t : T}, Ensures time Q p s w t →
      (∀ m, n ≤ m → t ≤ time (inputs m)) → t ≤ finish →
      ∃ t', t' ≤ finish ∧
        Q (Program.runAlone inputs p n s w).2 (Program.runAlone inputs p n s w).1 t' := by
  induction p with
  | ret a => exact fun h _ hf => ⟨_, hf, h⟩
  | raise e => exact fun h _ hf => ⟨_, hf, h⟩
  | lost => exact fun h _ hf => ⟨_, hf, h⟩
  | select k ih => exact fun h ht hf => ih _ h ht hf
  | ask k ih =>
    intro n s w t h ht hf
    exact ih _ (h _ (ht n (Nat.le_refl n))) (fun m hm => hmono n m (by omega)) (hfinish n)
  | execute f k ih =>
    intro n s w t h ht hf
    simp only [Ensures, Program.runAlone] at h ⊢
    rcases hfv : f (view s w) with e | ⟨u, r⟩
    · rw [hfv] at h
      exact ⟨t, hf, h⟩
    · rw [hfv] at h
      exact ih r h ht hf
  | commit p ih => exact fun h ht hf => ih h ht hf
  | separately f k ih =>
    intro n s w t h ht hf
    rcases w with _ | u
    · exact ih _ h ht hf
    · exact ⟨t, hf, h⟩

variable {time} {Q : Outcome ε α → σ → T → Prop} {s : σ} {w : Option σ} {t : T}

theorem ensures_query {f : σ → β} {k : β → Program σ τ ε α}
    (h : Ensures time Q (k (f (view s w))) s w t) : Ensures time Q (query f >>= k) s w t := h

theorem ensures_input {k : τ → Program σ τ ε α}
    (h : ∀ x, t ≤ time x → Ensures time Q (k x) s w (time x)) :
    Ensures time Q (input >>= k) s w t := h

theorem ensures_update {f : σ → σ} {k : Unit → Program σ τ ε α}
    (h : Ensures time Q (k ()) s (some (f (view s w))) t) :
    Ensures time Q (update f >>= k) s w t := h

theorem ensures_insert {f : σ → Except ε (σ × ℕ)} {k : ℕ → Program σ τ ε α}
    (herr : ∀ e, f (view s w) = .error e → Q (.raised e) s t)
    (h : ∀ u n, f (view s w) = .ok (u, n) → Ensures time Q (k n) s (some u) t) :
    Ensures time Q (insert f >>= k) s w t := by
  show Ensures time Q (.execute f k) s w t
  rw [Ensures]
  rcases hf : f (view s w) with e | ⟨u, n⟩
  · exact herr e hf
  · exact h u n hf

theorem ensures_commit {k : Unit → Program σ τ ε α}
    (h : Ensures time Q (k ()) (view s w) none t) :
    Ensures time Q (commitNow >>= k) s w t := h

end Program

/-! ### The server -/

/-- At most one element of a list has a property that no two of them share. -/
theorem filter_length_le_one {α : Type} {R : α → α → Prop} {l : List α} {p : α → Bool}
    (hR : l.Pairwise R) (hp : ∀ a b, p a = true → p b = true → ¬ R a b) :
    (l.filter p).length ≤ 1 := by
  have hf := hR.filter p
  rcases hl : l.filter p with _ | ⟨a, _ | ⟨b, rest⟩⟩
  · simp
  · simp
  · have hmem : ∀ x ∈ l.filter p, p x = true := fun x hx => (List.mem_filter.mp hx).2
    rw [hl] at hf hmem
    have hab : R a b := List.rel_of_pairwise_cons hf (List.mem_cons_self ..)
    exact absurd hab (hp a b (hmem a (by simp)) (hmem b (by simp)))

open Program

/-- The committed database, the connection that holds the write lock with its
uncommitted copy, what each request has still to do, and the commits made so far
(the newest first). -/
structure Server (κ σ τ ε α : Type) : Type where
  committed : σ
  writer : Option (κ × σ)
  remaining : κ → Program σ τ ε α
  history : List (κ × σ × σ)

/-- The scheduler's choice: the next statement of request `i`, with the input that
the environment has for it, or the loss of its connection. -/
inductive Turn (κ τ : Type) where
  | run (i : κ) (x : τ)
  | lose (i : κ)

namespace Server

variable {κ σ τ ε α : Type} [DecidableEq κ]

/-- All requests before their first statement. -/
def init (db : σ) (requests : κ → Program σ τ ε α) : Server κ σ τ ε α :=
  { committed := db, writer := none, remaining := requests, history := [] }

/-- The uncommitted copy of request `i`, if it holds the write lock. -/
def own (srv : Server κ σ τ ε α) (i : κ) : Option σ :=
  match srv.writer with
  | none => none
  | some (j, u) => if j = i then some u else none

/-- Request `i` goes on with `p`; when it is finished its connection is closed. -/
def advance (srv : Server κ σ τ ε α) (i : κ) (p : Program σ τ ε α) : Server κ σ τ ε α :=
  { srv with
    remaining := Function.update srv.remaining i p
    writer := if p.finished ∧ (srv.own i).isSome then none else srv.writer }

/-- Request `i` holds the write lock with the copy `u`. -/
def lock (srv : Server κ σ τ ε α) (i : κ) (u : σ) : Server κ σ τ ε α :=
  { srv with writer := some (i, u) }

/-- Request `i` publishes `u` and holds no lock any more. -/
def publish (srv : Server κ σ τ ε α) (i : κ) (u : σ) : Server κ σ τ ε α :=
  { srv with
    committed := u
    writer := none
    history := (i, srv.committed, u) :: srv.history }

/-- The next statement of a request. -/
def step (srv : Server κ σ τ ε α) : Turn κ τ → Option (Server κ σ τ ε α)
  | .lose i => if (srv.remaining i).finished then none else some (srv.advance i .lost)
  | .run i x =>
    match srv.remaining i with
    | .ret _ => none
    | .raise _ => none
    | .lost => none
    | .select k => some (srv.advance i (k (view srv.committed (srv.own i))))
    | .ask k => some (srv.advance i (k x))
    | .execute f k =>
      if srv.writer = none ∨ (srv.own i).isSome then
        match f (view srv.committed (srv.own i)) with
        | .error e => some (srv.advance i (.raise e))
        | .ok (u, n) => some ((srv.lock i u).advance i (k n))
      else none
    | .commit p =>
      match srv.own i with
      | none => some (srv.advance i p)
      | some u => some ((srv.publish i u).advance i p)
    | .separately f k =>
      if srv.writer = none then
        some ((srv.publish i (f srv.committed).1).advance i (k (f srv.committed).2))
      else none

@[simp] theorem advance_committed (srv : Server κ σ τ ε α) (i : κ) (p : Program σ τ ε α) :
    (srv.advance i p).committed = srv.committed := rfl

@[simp] theorem advance_history (srv : Server κ σ τ ε α) (i : κ) (p : Program σ τ ε α) :
    (srv.advance i p).history = srv.history := rfl

@[simp] theorem advance_remaining_self (srv : Server κ σ τ ε α) (i : κ)
    (p : Program σ τ ε α) : (srv.advance i p).remaining i = p := by
  simp [advance]

theorem advance_remaining_ne (srv : Server κ σ τ ε α) {i j : κ} (p : Program σ τ ε α)
    (h : j ≠ i) : (srv.advance i p).remaining j = srv.remaining j := by
  simp [advance, h]

/-- A connection that goes on keeps its copy; a finished one is closed. -/
theorem advance_own_self (srv : Server κ σ τ ε α) (i : κ) (p : Program σ τ ε α) :
    (srv.advance i p).own i = if p.finished then none else srv.own i := by
  rcases hw : srv.writer with _ | ⟨j, u⟩
  · simp [advance, own, hw]
  · by_cases hj : j = i <;> by_cases hp : p.finished <;> simp [advance, own, hw, hj, hp]

theorem advance_own_ne (srv : Server κ σ τ ε α) {i j : κ} (p : Program σ τ ε α)
    (h : j ≠ i) : (srv.advance i p).own j = srv.own j := by
  rcases hw : srv.writer with _ | ⟨l, u⟩
  · simp [advance, own, hw]
  · by_cases hl : l = i
    · subst hl
      have hne : ¬ l = j := fun hc => h hc.symm
      by_cases hp : p.finished <;> simp [advance, own, hw, hp, hne]
    · simp [advance, own, hw, hl]

@[simp] theorem lock_own_self (srv : Server κ σ τ ε α) (i : κ) (u : σ) :
    (srv.lock i u).own i = some u := by
  simp [lock, own]

@[simp] theorem publish_own (srv : Server κ σ τ ε α) (i j : κ) (u : σ) :
    (srv.publish i u).own j = none := rfl

/-- Only one connection holds a copy. -/
theorem own_ne {srv : Server κ σ τ ε α} {i j : κ} (h : j ≠ i)
    (hw : srv.writer = none ∨ (srv.own i).isSome) : srv.own j = none := by
  rcases hw with hw | hw
  · simp [own, hw]
  · rcases hwr : srv.writer with _ | ⟨l, u⟩
    · simp [own, hwr]
    · simp only [own, hwr] at hw ⊢
      by_cases hl : l = i
      · rw [if_neg (fun hc => h (hc.symm.trans hl))]
      · simp [hl] at hw

/-! ### Soundness of the rely–guarantee rule -/

/-- `history` leads from the database `db` to `s`, one commit after the other. -/
def Chain (db : σ) : List (κ × σ × σ) → σ → Prop
  | [], s => s = db
  | c :: rest, s => c.2.2 = s ∧ Chain db rest c.2.1

/-- Every request meets its condition, and every commit so far was in the guarantee
of the request that made it. -/
structure Sound (db : σ) (R G : κ → σ → σ → Prop) (Q : κ → α → σ → Prop)
    (srv : Server κ σ τ ε α) : Prop where
  meets : ∀ i, Meets (R i) (G i) (Q i) (srv.remaining i) srv.committed (srv.own i)
  guarantee : ∀ c ∈ srv.history, G c.1 c.2.1 c.2.2
  chain : Chain db srv.history srv.committed

variable {db : σ} {R G : κ → σ → σ → Prop} {Q : κ → α → σ → Prop}

/-- A statement of request `i` that publishes nothing. -/
theorem Sound.advance {srv : Server κ σ τ ε α} (h : Sound db R G Q srv) {i : κ}
    {p : Program σ τ ε α} (hp : Meets (R i) (G i) (Q i) p srv.committed (srv.own i)) :
    Sound db R G Q (srv.advance i p) where
  meets := by
    intro j
    by_cases hj : j = i
    · subst hj
      rw [advance_remaining_self, advance_committed, advance_own_self]
      by_cases hfin : p.finished
      · rw [if_pos hfin]
        cases p with
        | ret a =>
          intro s' hs s'' hs''
          exact hp srv.committed (Later.refl _ _) s'' (Relation.ReflTransGen.trans hs hs'')
        | raise e => trivial
        | lost => trivial
        | select k => simp [finished] at hfin
        | ask k => simp [finished] at hfin
        | execute f k => simp [finished] at hfin
        | commit p => simp [finished] at hfin
        | separately f k => simp [finished] at hfin
      · rw [if_neg hfin]
        exact hp
    · rw [advance_remaining_ne _ _ hj, advance_committed, advance_own_ne _ _ hj]
      exact h.meets j
  guarantee := h.guarantee
  chain := h.chain

/-- A commit of request `i` within its guarantee. -/
theorem Sound.publish (hRG : ∀ i j s u, i ≠ j → G i s u → R j s u)
    {srv : Server κ σ τ ε α} (h : Sound db R G Q srv) {i : κ} {u : σ}
    (hw : srv.writer = none ∨ (srv.own i).isSome) (hG : G i srv.committed u)
    {p : Program σ τ ε α} (hp : Meets (R i) (G i) (Q i) p u none) :
    Sound db R G Q ((srv.publish i u).advance i p) where
  meets := by
    intro j
    by_cases hj : j = i
    · subst hj
      rw [advance_remaining_self, advance_committed, advance_own_self, publish_own, ite_self]
      exact hp
    · rw [advance_remaining_ne _ _ hj, advance_committed, advance_own_ne _ _ hj, publish_own]
      have hm := h.meets j
      rw [own_ne hj hw] at hm
      exact hm.stable (hRG i j _ _ (Ne.symm hj) hG)
  guarantee := by
    intro c hc
    rcases List.mem_cons.mp hc with rfl | hc
    · exact hG
    · exact h.guarantee c hc
  chain := ⟨rfl, h.chain⟩

/-- A write of request `i`, which holds the lock afterwards. -/
theorem Sound.lock {srv : Server κ σ τ ε α} (h : Sound db R G Q srv) {i : κ} {u : σ}
    (hw : srv.writer = none ∨ (srv.own i).isSome)
    {p : Program σ τ ε α} (hp : Meets (R i) (G i) (Q i) p srv.committed (some u)) :
    Sound db R G Q ((srv.lock i u).advance i p) where
  meets := by
    intro j
    by_cases hj : j = i
    · subst hj
      rw [advance_remaining_self, advance_committed, advance_own_self, lock_own_self]
      by_cases hfin : p.finished
      · rw [if_pos hfin]
        cases p with
        | ret a =>
          intro s' hs s'' hs''
          exact hp srv.committed rfl s'' (Relation.ReflTransGen.trans hs hs'')
        | raise e => trivial
        | lost => trivial
        | select k => simp [finished] at hfin
        | ask k => simp [finished] at hfin
        | execute f k => simp [finished] at hfin
        | commit p => simp [finished] at hfin
        | separately f k => simp [finished] at hfin
      · rw [if_neg hfin]
        exact hp
    · rw [advance_remaining_ne _ _ hj, advance_committed, advance_own_ne _ _ hj]
      have hown : (srv.lock i u).own j = srv.own j := by
        rw [own_ne hj hw]
        simp [Server.lock, own, Ne.symm hj]
      rw [hown]
      exact h.meets j
  guarantee := h.guarantee
  chain := h.chain

/-- **One statement keeps soundness**, when what each request guarantees is what
the others rely on. -/
theorem Sound.step (hRG : ∀ i j s u, i ≠ j → G i s u → R j s u)
    {srv srv' : Server κ σ τ ε α} {t : Turn κ τ} (h : Sound db R G Q srv)
    (hst : srv.step t = some srv') : Sound db R G Q srv' := by
  rcases t with ⟨i, x⟩ | i
  · have hm := h.meets i
    simp only [Server.step] at hst
    rcases hp : srv.remaining i with a | e | _ | k | k | ⟨f, k⟩ | p | ⟨f, k⟩ <;>
      rw [hp] at hst hm <;> simp only [reduceCtorEq, Option.some.injEq] at hst
    · subst hst
      exact h.advance (hm _ (Later.refl _ _))
    · subst hst
      exact h.advance (hm _ (Later.refl _ _) x)
    · by_cases hw : srv.writer = none ∨ (srv.own i).isSome
      · rw [if_pos hw] at hst
        rcases hf : f (view srv.committed (srv.own i)) with e | ⟨u, n⟩ <;>
          simp only [hf, Option.some.injEq] at hst <;> subst hst
        · exact h.advance meets_raise
        · exact h.lock hw (hm _ (Later.refl _ _) u n hf)
      · simp [if_neg hw] at hst
    · rcases ho : srv.own i with _ | u <;> rw [ho] at hm <;>
        simp only [ho, Option.some.injEq] at hst <;> subst hst
      · exact h.advance (by rw [ho]; exact hm _ (Later.refl _ _))
      · exact h.publish hRG (.inr (by simp [ho])) hm.1 hm.2
    · by_cases hw : srv.writer = none
      · rw [if_pos hw, Option.some.injEq] at hst
        subst hst
        have ho : srv.own i = none := by simp [own, hw]
        rw [ho] at hm
        obtain ⟨hG, hk⟩ := hm _ (Later.refl _ _)
        exact h.publish hRG (.inl hw) hG hk
      · simp [if_neg hw] at hst
  · simp only [Server.step] at hst
    by_cases hfin : (srv.remaining i).finished
    · simp [hfin] at hst
    · rw [if_neg hfin, Option.some.injEq] at hst
      subst hst
      exact h.advance trivial

/-- **The rely–guarantee rule.**  Requests that meet their conditions at the start
keep them in every interleaving. -/
theorem Sound.reach (hRG : ∀ i j s u, i ≠ j → G i s u → R j s u)
    {requests : κ → Program σ τ ε α}
    (hreq : ∀ i, Meets (R i) (G i) (Q i) (requests i) db none)
    {ok : Server κ σ τ ε α → Turn κ τ → Prop} {srv : Server κ σ τ ε α}
    (h : Runs.Reach Server.step ok (init db requests) srv) : Sound db R G Q srv := by
  refine h.invariant ⟨hreq, ?_, rfl⟩ fun s a s' _ hs _ hst => hs.step hRG hst
  intro c hc
  simp [init] at hc

/-! ### The chain of commits -/

omit [DecidableEq κ] in
/-- What every commit keeps holds before and after each of them. -/
theorem Chain.invariant {P : σ → Prop} (hP : P db) :
    ∀ {history : List (κ × σ × σ)} {s : σ}, Chain db history s →
      (∀ c ∈ history, P c.2.1 → P c.2.2) → P s ∧ ∀ c ∈ history, P c.2.1 ∧ P c.2.2 := by
  intro history
  induction history with
  | nil =>
    intro s hchain _
    cases hchain
    exact ⟨hP, by simp⟩
  | cons c rest ih =>
    intro s hchain hstep
    obtain ⟨rfl, hchain⟩ := hchain
    obtain ⟨hbefore, hrest⟩ := ih hchain fun c' hc' => hstep c' (List.mem_cons_of_mem _ hc')
    have hafter := hstep c List.mem_cons_self hbefore
    refine ⟨hafter, fun c' hc' => ?_⟩
    rcases List.mem_cons.mp hc' with rfl | hc'
    · exact ⟨hbefore, hafter⟩
    · exact hrest c' hc'

omit [DecidableEq κ] in
/-- A preorder that every commit respects leads from each commit to every later state. -/
theorem Chain.pairwise {E : σ → σ → Prop} (hrefl : ∀ s, E s s)
    (htrans : ∀ s t u, E s t → E t u → E s u) :
    ∀ {history : List (κ × σ × σ)} {s : σ}, Chain db history s →
      (∀ c ∈ history, E c.2.1 c.2.2) →
      (∀ c ∈ history, E c.2.2 s) ∧ history.Pairwise fun later earlier =>
          E earlier.2.2 later.2.1 := by
  intro history
  induction history with
  | nil =>
    intro s _ _
    exact ⟨by simp, List.Pairwise.nil⟩
  | cons c rest ih =>
    intro s hchain hstep
    obtain ⟨rfl, hchain⟩ := hchain
    obtain ⟨hbefore, hpairs⟩ := ih hchain fun c' hc' => hstep c' (List.mem_cons_of_mem _ hc')
    refine ⟨fun c' hc' => ?_, List.pairwise_cons.mpr ⟨hbefore, hpairs⟩⟩
    rcases List.mem_cons.mp hc' with rfl | hc'
    · exact hrefl _
    · exact htrans _ _ _ (hbefore c' hc') (hstep c List.mem_cons_self)

/-! ### What a statement does -/

/-- The commit that the next statement of a request makes, if it is one. -/
def commitNext (srv : Server κ σ τ ε α) : Turn κ τ → Option (κ × σ × σ)
  | .lose _ => none
  | .run i _ =>
    match srv.remaining i with
    | .commit _ => (srv.own i).map fun u => (i, srv.committed, u)
    | .separately f _ =>
      if srv.writer = none then some (i, srv.committed, (f srv.committed).1) else none
    | _ => none

/-- The request that is on turn. -/
def turnOf : Turn κ τ → κ
  | .run i _ => i
  | .lose i => i

/-- What a statement does that commits nothing. -/
structure Advances (srv srv' : Server κ σ τ ε α) (i : κ) : Prop where
  committed : srv'.committed = srv.committed
  history : srv'.history = srv.history
  others : ∀ j, j ≠ i → srv'.remaining j = srv.remaining j ∧ srv'.own j = srv.own j
  meets : ∀ {R G : σ → σ → Prop},
    Meets R G (fun _ _ => True) (srv.remaining i) srv.committed (srv.own i) →
      Meets R G (fun _ _ => True) (srv'.remaining i) srv'.committed (srv'.own i)

/-- What a commit does. -/
structure Publishes (srv srv' : Server κ σ τ ε α) (i : κ) (u : σ) : Prop where
  committed : srv'.committed = u
  history : srv'.history = (i, srv.committed, u) :: srv.history
  others : ∀ j, j ≠ i → srv'.remaining j = srv.remaining j ∧ srv.own j = none ∧ srv'.own j = none
  guarantee : ∀ {R G : σ → σ → Prop},
    Meets R G (fun _ _ => True) (srv.remaining i) srv.committed (srv.own i) → G srv.committed u
  meets : ∀ {R G : σ → σ → Prop},
    Meets R G (fun _ _ => True) (srv.remaining i) srv.committed (srv.own i) →
      Meets R G (fun _ _ => True) (srv'.remaining i) srv'.committed (srv'.own i)

/-- The rest of a request is fine also after its connection was closed. -/
theorem meets_advance {srv : Server κ σ τ ε α} {i : κ} {p : Program σ τ ε α} {R G : σ → σ → Prop}
    (hp : Meets R G (fun _ _ => True) p srv.committed (srv.own i)) :
    Meets R G (fun _ _ => True) ((srv.advance i p).remaining i) (srv.advance i p).committed
      ((srv.advance i p).own i) := by
  rw [advance_remaining_self, advance_committed, advance_own_self]
  split
  · next hfin =>
    cases p with
    | ret a => exact meets_ret fun _ _ _ _ => trivial
    | raise e => exact meets_raise
    | lost => trivial
    | select k => cases hfin
    | ask k => cases hfin
    | execute f k => cases hfin
    | commit p => cases hfin
    | separately f k => cases hfin
  · exact hp

theorem advances_advance {srv : Server κ σ τ ε α} {i : κ} {p : Program σ τ ε α}
    (hp : ∀ {R G : σ → σ → Prop},
      Meets R G (fun _ _ => True) (srv.remaining i) srv.committed (srv.own i) →
        Meets R G (fun _ _ => True) p srv.committed (srv.own i)) :
    Advances srv (srv.advance i p) i where
  committed := rfl
  history := rfl
  others _ hj := ⟨advance_remaining_ne _ _ hj, advance_own_ne _ _ hj⟩
  meets h := meets_advance (hp h)

/-- **What a statement does**: it commits what `commitNext` says, or nothing. -/
theorem step_cases {srv srv' : Server κ σ τ ε α} {t : Turn κ τ} (hst : srv.step t = some srv') :
    (srv.commitNext t = none ∧ Advances srv srv' (turnOf t)) ∨
      ∃ u, srv.commitNext t = some (turnOf t, srv.committed, u) ∧
          Publishes srv srv' (turnOf t) u := by
  rcases t with ⟨i, x⟩ | i
  · simp only [Server.step] at hst
    simp only [commitNext, turnOf]
    rcases hp : srv.remaining i with a | e | _ | k | k | ⟨f, k⟩ | p | ⟨f, k⟩ <;>
      rw [hp] at hst <;> simp only [reduceCtorEq, Option.some.injEq] at hst
    · subst hst
      refine .inl ⟨rfl, advances_advance fun h => ?_⟩
      rw [hp] at h
      exact h _ (Later.refl _ _)
    · subst hst
      refine .inl ⟨rfl, advances_advance fun h => ?_⟩
      rw [hp] at h
      exact h _ (Later.refl _ _) x
    · split at hst
      · next hw =>
        rcases hf : f (view srv.committed (srv.own i)) with e | ⟨u, n⟩ <;>
          simp only [hf, Option.some.injEq] at hst <;> subst hst
        · exact .inl ⟨rfl, advances_advance fun _ => meets_raise⟩
        · refine .inl ⟨rfl, rfl, rfl, fun j hj => ⟨advance_remaining_ne _ _ hj, ?_⟩, fun h => ?_⟩
          · rw [advance_own_ne _ _ hj, own_ne hj hw]
            simp [Server.lock, own, Ne.symm hj]
          · rw [hp, Meets] at h
            refine meets_advance ?_
            rw [lock_own_self]
            exact h _ (Later.refl _ _) u n hf
      · cases hst
    · rcases ho : srv.own i with _ | u <;>
        simp only [ho, Option.some.injEq] at hst <;> subst hst
      · refine .inl ⟨rfl, advances_advance fun h => ?_⟩
        rw [hp, ho] at h
        rw [ho]
        exact h _ (Later.refl _ _)
      · refine .inr ⟨u, rfl, rfl, rfl, fun j hj => ?_, fun h => ?_, fun h => ?_⟩
        · refine ⟨advance_remaining_ne _ _ hj, own_ne hj (.inr (by simp [ho])), ?_⟩
          rw [advance_own_ne _ _ hj, publish_own]
        · rw [hp, ho] at h
          exact h.1
        · rw [hp, ho] at h
          exact meets_advance h.2
    · split at hst
      · next hw =>
        rw [Option.some.injEq] at hst
        subst hst
        have ho : srv.own i = none := by simp [own, hw]
        refine .inr ⟨(f srv.committed).1, if_pos hw, rfl, rfl, fun j hj => ?_, fun h => ?_,
          fun h => ?_⟩
        · refine ⟨advance_remaining_ne _ _ hj, own_ne hj (.inl hw), ?_⟩
          rw [advance_own_ne _ _ hj, publish_own]
        · rw [hp, ho] at h
          exact (h _ (Later.refl _ _)).1
        · rw [hp, ho] at h
          exact meets_advance (h _ (Later.refl _ _)).2
      · cases hst
  · simp only [Server.step] at hst
    split at hst
    · cases hst
    · rw [Option.some.injEq] at hst
      subst hst
      exact .inl ⟨rfl, advances_advance fun _ => trivial⟩

/-! ### Exceptions and commits -/

/-- One statement either commits nothing and leaves a rest that raises no more than before, or
commits and leaves a rest that does not raise. -/
theorem step_raises {srv srv' : Server κ σ τ ε α} {t : Turn κ τ} (hst : srv.step t = some srv') :
    ∃ i p, srv'.remaining = Function.update srv.remaining i p ∧
      ((srv'.history = srv.history ∧ ((srv.remaining i).raisesFirst → p.raisesFirst) ∧
          ((srv.remaining i).raisesNever → p.raisesNever)) ∨
        (∃ c, srv'.history = c :: srv.history ∧ c.1 = i ∧
          ((srv.remaining i).raisesFirst → p.raisesNever))) := by
  rcases t with ⟨i, x⟩ | i
  · simp only [Server.step] at hst
    rcases hp : srv.remaining i with a | e | _ | k | k | ⟨f, k⟩ | p | ⟨f, k⟩ <;>
      rw [hp] at hst <;> simp only [reduceCtorEq, Option.some.injEq] at hst
    · subst hst
      exact ⟨i, _, rfl, .inl ⟨rfl, by rw [hp]; exact fun h => h _, by rw [hp]; exact fun h => h _⟩⟩
    · subst hst
      exact ⟨i, _, rfl, .inl ⟨rfl, by rw [hp]; exact fun h => h _, by rw [hp]; exact fun h => h _⟩⟩
    · split at hst
      · rcases hf : f (view srv.committed (srv.own i)) with e | ⟨u, n⟩ <;>
          simp only [hf, Option.some.injEq] at hst <;> subst hst
        · exact ⟨i, _, rfl, .inl ⟨rfl, fun _ => trivial,
            by rw [hp]; exact fun h => absurd hf (h.1 _ _)⟩⟩
        · exact ⟨i, _, rfl, .inl ⟨rfl, by rw [hp]; exact fun h => h _,
            by rw [hp]; exact fun h => h.2 _⟩⟩
      · cases hst
    · rcases ho : srv.own i with _ | u <;>
        simp only [ho, Option.some.injEq] at hst <;> subst hst
      · exact ⟨i, _, rfl, .inl ⟨rfl, by rw [hp]; exact raisesFirst_of_raisesNever,
          by rw [hp]; exact id⟩⟩
      · exact ⟨i, _, rfl, .inr ⟨_, rfl, rfl, by rw [hp]; exact id⟩⟩
    · split at hst
      · rw [Option.some.injEq] at hst
        subst hst
        exact ⟨i, _, rfl, .inr ⟨_, rfl, rfl, by rw [hp]; exact fun h => h _⟩⟩
      · cases hst
  · simp only [Server.step] at hst
    split at hst
    · cases hst
    · rw [Option.some.injEq] at hst
      subst hst
      exact ⟨i, _, rfl, .inl ⟨rfl, fun _ => trivial, fun _ => trivial⟩⟩

/-- A request that raises only before its first commit has committed nothing when it raises. -/
theorem uncommitted_of_raised {requests : κ → Program σ τ ε α}
    (hreq : ∀ i, (requests i).raisesFirst)
    {ok : Server κ σ τ ε α → Turn κ τ → Prop} {srv : Server κ σ τ ε α}
    (h : Runs.Reach Server.step ok (init db requests) srv) {i : κ} {e : ε}
    (hraised : srv.remaining i = .raise e) : ∀ c ∈ srv.history, c.1 ≠ i := by
  have hinv : ∀ j, (srv.remaining j).raisesFirst ∧
      ((∃ c ∈ srv.history, c.1 = j) → (srv.remaining j).raisesNever) := by
    refine h.invariant (P := fun srv => ∀ j, (srv.remaining j).raisesFirst ∧
      ((∃ c ∈ srv.history, c.1 = j) → (srv.remaining j).raisesNever)) ?_ ?_
    · exact fun j => ⟨hreq j, by simp [init]⟩
    · intro s t s' _ hs _ hst j
      obtain ⟨i, p, hrem, hkept | ⟨c, hhist, hci, hnever⟩⟩ := step_raises hst
      · obtain ⟨hhist, hfirst, hnever⟩ := hkept
        rw [hrem, hhist]
        by_cases hj : j = i
        · subst hj
          rw [Function.update_self]
          exact ⟨hfirst (hs j).1, fun hc => hnever ((hs j).2 hc)⟩
        · rw [Function.update_of_ne hj]
          exact hs j
      · rw [hrem, hhist]
        by_cases hj : j = i
        · subst hj
          rw [Function.update_self]
          have hp := hnever (hs j).1
          exact ⟨raisesFirst_of_raisesNever hp, fun _ => hp⟩
        · rw [Function.update_of_ne hj]
          refine ⟨(hs j).1, fun ⟨c', hc', hcj⟩ => (hs j).2 ?_⟩
          rcases List.mem_cons.mp hc' with rfl | hc'
          · exact absurd (hcj.symm.trans hci) hj
          · exact ⟨c', hc', hcj⟩
  intro c hc hci
  have hnever := (hinv i).2 ⟨c, hc, hci⟩
  rw [hraised] at hnever
  exact hnever

end Server

-- From here on these conditions are used through their rules only.
attribute [irreducible] Program.Meets Program.raisesFirst Program.raisesNever

end Statements
