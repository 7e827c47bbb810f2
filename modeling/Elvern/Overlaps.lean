/-
Requests that overlap.

A request that reads in one statement and commits in a later one is right about what it has read as
long as no other request commits in between.  `Observed` is a server together with the time at which
each request began, and `Observed.since` are the commits that a request has overlapped with.

* `Server.commitNext` — the commit that a statement makes;
* `Observed.Apart` — a schedule in which no commit follows one that disturbs it;
* `Observed.Kept.reach` — requests that meet a condition in two modes, undisturbed and disturbed,
  keep it in every such schedule: the rely–guarantee rule for a rely that holds only between
overlapping requests. -/
import Elvern.Statements

namespace Statements

open Program Runs

namespace Program

variable {σ τ ε α : Type}

/-- The next statement is an input of the environment, and not one on the database. -/
def asks : Program σ τ ε α → Bool
  | .ask _ => true
  | _ => false

end Program

variable {κ σ τ ε α : Type} [DecidableEq κ]

/-- A server, and for each request the number of commits there were before its first statement on
the database. -/
structure Observed (κ σ τ ε α : Type) where
  server : Server κ σ τ ε α
  began : κ → Option ℕ

namespace Observed

/-- All requests before their first statement. -/
def init (db : σ) (requests : κ → Program σ τ ε α) : Observed κ σ τ ε α :=
  { server := Server.init db requests, began := fun _ => none }

/-- A request begins with its first statement on the database. -/
def begin (o : Observed κ σ τ ε α) (i : κ) : κ → Option ℕ :=
  if (o.began i).isSome || (o.server.remaining i).asks then o.began
  else Function.update o.began i (some o.server.history.length)

/-- One statement of one request. -/
def step (o : Observed κ σ τ ε α) (t : Turn κ τ) : Option (Observed κ σ τ ε α) :=
  (o.server.step t).map fun srv => { server := srv, began := o.begin (Server.turnOf t) }

/-- The commits since request `i` began, the newest first. -/
def since (o : Observed κ σ τ ε α) (i : κ) : List (κ × σ × σ) :=
  match o.began i with
  | none => []
  | some n => o.server.history.take (o.server.history.length - n)

/-- The schedules in which a commit follows no commit of another request that disturbs it and that
was made since its own request began. -/
def Apart (disturbs : κ × σ × σ → κ × σ × σ → Bool) (o : Observed κ σ τ ε α)
    (t : Turn κ τ) : Prop :=
  ∀ c, o.server.commitNext t = some c → ∀ b ∈ o.since c.1, b.1 ≠ c.1 → disturbs b c = false

instance (disturbs : κ × σ × σ → κ × σ × σ → Bool) (o : Observed κ σ τ ε α) (t : Turn κ τ) :
    Decidable (Apart disturbs o t) :=
  decidable_of_iff ((o.server.commitNext t).all fun c =>
    (o.since c.1).all fun b => decide (b.1 ≠ c.1 → disturbs b c = false)) (by
      simp only [Apart, Option.all_eq_true, List.all_eq_true, decide_eq_true_eq])

/-- A run of the observed server is one of the server. -/
theorem reach_server {db : σ} {requests : κ → Program σ τ ε α}
    {ok : Observed κ σ τ ε α → Turn κ τ → Prop} {o : Observed κ σ τ ε α}
    (h : Reach step ok (init db requests) o) :
    Reach Server.step (fun _ _ => True) (Server.init db requests) o.server := by
  induction h with
  | start => exact .start
  | next _ _ hst ih =>
    obtain ⟨srv, hsrv, rfl⟩ := Option.map_eq_some_iff.mp hst
    exact ih.next trivial hsrv

/-! ### The rule -/

/-- What the requests of a run have to show.  `P` is what a request needs at its start, `Inv` holds
of the committed states, `Good` is what every commit turns out to be; `R` and `G` are the rely and
the guarantee of a request that may have been disturbed, `S` and `Good` those of one that was
not. -/
structure Rules (P : κ → σ → Prop) (Inv : σ → Prop) (R G S Good : κ → σ → σ → Prop)
    (harms : κ × σ × σ → κ → Prop) (requests : κ → Program σ τ ε α) : Prop where
  disturbed : ∀ i s, Inv s → P i s → Meets (R i) (G i) (fun _ _ => True) (requests i) s none
  undisturbed : ∀ i s, Inv s → P i s → Meets (S i) (Good i) (fun _ _ => True) (requests i) s none
  inv : ∀ i s u, Inv s → Good i s u → Inv u
  start : ∀ i j s u, i ≠ j → Inv s → Good i s u → P j s → P j u
  rely : ∀ i j s u, i ≠ j → Inv s → Good i s u → R j s u
  relyUndisturbed : ∀ i j s u, i ≠ j → Inv s → Good i s u → ¬ harms (i, s, u) j → S j s u

variable {P : κ → σ → Prop} {Inv : σ → Prop} {R G S Good : κ → σ → σ → Prop}
  {harms : κ × σ × σ → κ → Prop} {requests : κ → Program σ τ ε α}

/-- Where a request is: before its first statement on the database, or after it in one of the two
modes. -/
structure Mode (P : κ → σ → Prop) (Inv : σ → Prop) (R G S Good : κ → σ → σ → Prop)
    (harms : κ × σ × σ → κ → Prop) (o : Observed κ σ τ ε α) (i : κ) : Prop where
  unread : o.began i = none → o.server.own i = none ∧ P i o.server.committed ∧ ∀ s, Inv s → P i s →
    Meets (R i) (G i) (fun _ _ => True) (o.server.remaining i) s none ∧
      Meets (S i) (Good i) (fun _ _ => True) (o.server.remaining i) s none
  disturbed : o.began i ≠ none →
    Meets (R i) (G i) (fun _ _ => True) (o.server.remaining i) o.server.committed (o.server.own i)
  undisturbed : o.began i ≠ none → (∀ b ∈ o.since i, b.1 ≠ i → ¬ harms b i) →
    Meets (S i) (Good i) (fun _ _ => True) (o.server.remaining i) o.server.committed
      (o.server.own i)

/-- The commits so far are good ones, and every request is in its mode. -/
structure Kept (db : σ) (P : κ → σ → Prop) (Inv : σ → Prop) (R G S Good : κ → σ → σ → Prop)
    (harms : κ × σ × σ → κ → Prop) (o : Observed κ σ τ ε α) : Prop where
  inv : Inv o.server.committed
  good : ∀ c ∈ o.server.history, Good c.1 c.2.1 c.2.2
  chain : Server.Chain db o.server.history o.server.committed
  began : ∀ i n, o.began i = some n → n ≤ o.server.history.length
  mode : ∀ i, Mode P Inv R G S Good harms o i

section Steps

variable {db : σ} {o o' : Observed κ σ τ ε α} {t : Turn κ τ} {i j : κ}

theorem begin_ne (hj : j ≠ i) : o.begin i j = o.began j := by
  unfold begin
  split
  · rfl
  · exact Function.update_of_ne hj ..

/-- A request that has begun keeps its time. -/
theorem begin_self_of_some {n : ℕ} (h : o.began i = some n) : o.begin i i = some n := by
  rw [begin, h, Option.isSome_some, Bool.true_or, if_pos rfl, h]

theorem begin_self_of_none (h : o.began i = none) :
    o.begin i i = if (o.server.remaining i).asks then none else some o.server.history.length := by
  unfold begin
  rw [h, Option.isSome_none, Bool.false_or]
  split
  · exact h
  · exact Function.update_self ..

theorem le_of_begin (hbegan : ∀ i n, o.began i = some n → n ≤ o.server.history.length) {n : ℕ}
    (hn : o.begin i j = some n) : n ≤ o.server.history.length := by
  by_cases hj : j = i
  · subst hj
    cases hold : o.began j with
    | none =>
      rw [begin_self_of_none hold] at hn
      split at hn
      · cases hn
      · cases hn
        exact Nat.le_refl _
    | some m =>
      rw [begin_self_of_some hold] at hn
      cases hn
      exact hbegan _ _ hold
  · rw [begin_ne hj] at hn
    exact hbegan j n hn

omit [DecidableEq κ] in
/-- Nothing was committed. -/
theorem since_eq (hhistory : o'.server.history = o.server.history)
    (hbegan : o'.began j = o.began j) : o'.since j = o.since j := by
  rw [since, since, hhistory, hbegan]

omit [DecidableEq κ] in
/-- One more commit since request `j` began. -/
theorem since_cons {c : κ × σ × σ} {n : ℕ} (hhistory : o'.server.history = c :: o.server.history)
    (hbegan : o'.began j = some n) (hn : n ≤ o.server.history.length) :
    o'.since j = c :: o.server.history.take (o.server.history.length - n) := by
  rw [since, hhistory, hbegan]
  dsimp only
  rw [List.length_cons, Nat.succ_sub hn, List.take_succ_cons]

/-- A commit is a statement on the database. -/
theorem asks_of_commitNext {srv : Server κ σ τ ε α} {c : κ × σ × σ}
    (hcommit : srv.commitNext t = some c) : (srv.remaining (Server.turnOf t)).asks = false := by
  rcases t with ⟨i, x⟩ | i
  · simp only [Server.commitNext] at hcommit
    rcases hrem : srv.remaining i with a | e | _ | k | k | ⟨f, k⟩ | p | ⟨f, k⟩ <;>
      simp only [hrem, reduceCtorEq] at hcommit <;> simp only [Server.turnOf, hrem, asks]
  · cases hcommit

/-- A request before its first statement on the database has got an input, or lost its
connection. -/
theorem unread_step {srv srv' : Server κ σ τ ε α} (hst : srv.step t = some srv')
    (hown : srv.own (Server.turnOf t) = none)
    (hasks : (srv.remaining (Server.turnOf t)).asks = true) :
    srv'.own (Server.turnOf t) = none ∧ ∀ {R G : σ → σ → Prop} {Q : α → σ → Prop} {s : σ},
      Meets R G Q (srv.remaining (Server.turnOf t)) s none →
        Meets R G Q (srv'.remaining (Server.turnOf t)) s none := by
  rcases t with ⟨i, x⟩ | i
  · rcases hp : srv.remaining i with a | e | _ | k | k | ⟨f, k⟩ | p | ⟨f, k⟩ <;>
      simp only [Server.turnOf, hp, asks, Bool.false_eq_true] at hasks
    simp only [Server.step, hp, Option.some.injEq] at hst
    subst hst
    simp only [Server.turnOf] at hown ⊢
    rw [Server.advance_own_self, hown, ite_self, Server.advance_remaining_self, hp]
    exact ⟨rfl, fun hmeets => hmeets.asked x⟩
  · simp only [Server.step] at hst
    split at hst
    · cases hst
    · cases hst
      simp only [Server.turnOf] at hown ⊢
      rw [Server.advance_own_self, hown, ite_self, Server.advance_remaining_self]
      exact ⟨rfl, fun _ => meets_lost⟩

/-- A request that is not on turn, and nothing was committed. -/
theorem Mode.congr (h : Mode P Inv R G S Good harms o j) (hbegan : o'.began j = o.began j)
    (hhistory : o'.server.history = o.server.history)
    (hcommitted : o'.server.committed = o.server.committed)
    (hremaining : o'.server.remaining j = o.server.remaining j)
    (hown : o'.server.own j = o.server.own j) : Mode P Inv R G S Good harms o' j where
  unread hnone := by
    rw [hown, hcommitted, hremaining]
    exact h.unread (hbegan.symm.trans hnone)
  disturbed hsome := by
    rw [hown, hcommitted, hremaining]
    exact h.disturbed (hbegan ▸ hsome)
  undisturbed hsome hcalm := by
    rw [hown, hcommitted, hremaining]
    rw [since_eq hhistory hbegan] at hcalm
    exact h.undisturbed (hbegan ▸ hsome) hcalm

/-- The request on turn, in the mode that it is in just before its statement. -/
theorem Kept.meets (h : Kept db P Inv R G S Good harms o) (i : κ) :
    Meets (R i) (G i) (fun _ _ => True) (o.server.remaining i) o.server.committed (o.server.own i) ∧
      ((∀ b ∈ o.since i, b.1 ≠ i → ¬ harms b i) →
        Meets (S i) (Good i) (fun _ _ => True) (o.server.remaining i) o.server.committed
          (o.server.own i)) := by
  cases hbegan : o.began i with
  | none =>
    obtain ⟨hown, hP, hmeets⟩ := (h.mode i).unread hbegan
    rw [hown]
    exact ⟨(hmeets _ h.inv hP).1, fun _ => (hmeets _ h.inv hP).2⟩
  | some n =>
    have hne : o.began i ≠ none := by
      rw [hbegan]
      exact Option.some_ne_none n
    exact ⟨(h.mode i).disturbed hne, (h.mode i).undisturbed hne⟩

/-- A statement that commits nothing. -/
theorem Kept.advance (h : Kept db P Inv R G S Good harms o) {srv : Server κ σ τ ε α}
    (hst : o.server.step t = some srv) (ha : Server.Advances o.server srv (Server.turnOf t)) :
    Kept db P Inv R G S Good harms { server := srv, began := o.begin (Server.turnOf t) } where
  inv := ha.committed.symm ▸ h.inv
  good := by
    rw [ha.history]
    exact h.good
  chain := by
    rw [ha.history, ha.committed]
    exact h.chain
  began j n hn := by
    rw [ha.history]
    exact le_of_begin h.began hn
  mode j := by
    by_cases hj : j = Server.turnOf t
    · subst hj
      cases hbegan : o.began (Server.turnOf t) with
      | some n =>
        have hkept := begin_self_of_some hbegan
        refine ⟨fun hnone => ?_, fun _ => ha.meets (h.meets _).1, fun _ hcalm => ?_⟩
        · cases hkept.symm.trans hnone
        · -- What it has overlapped with is what it had overlapped with before.
          refine ha.meets ((h.meets _).2 ?_)
          rw [since_eq ha.history (hkept.trans hbegan.symm)] at hcalm
          exact hcalm
      | none =>
        have hkept := begin_self_of_none hbegan
        obtain ⟨hown, hP, hmeets⟩ := (h.mode _).unread hbegan
        refine ⟨fun hnone => ?_, fun _ => ha.meets (h.meets _).1, fun hsome _ => ?_⟩
        · have hasks : (o.server.remaining (Server.turnOf t)).asks = true := by
            by_contra hnot
            rw [if_neg hnot] at hkept
            cases hkept.symm.trans hnone
          obtain ⟨hown', hkeeps⟩ := unread_step hst hown hasks
          exact ⟨hown', ha.committed.symm ▸ hP, fun s hs hPs =>
            ⟨hkeeps (hmeets s hs hPs).1, hkeeps (hmeets s hs hPs).2⟩⟩
        · -- It begins with this statement, so nothing has come between yet.
          refine ha.meets ((h.meets _).2 fun b hb => ?_)
          rw [since, hbegan] at hb
          cases hb
    · obtain ⟨hremaining, hown⟩ := ha.others j hj
      exact (h.mode j).congr (begin_ne hj) ha.history ha.committed hremaining hown

/-- A request that is not on turn, after a commit that is a good one. -/
theorem Kept.mode_publish (hrules : Rules P Inv R G S Good harms requests)
    (h : Kept db P Inv R G S Good harms o) {srv : Server κ σ τ ε α} {u : σ}
    (hp : Server.Publishes o.server srv i u) (hgood : Good i o.server.committed u) (hj : j ≠ i) :
    Mode P Inv R G S Good harms { server := srv, began := o.begin i } j := by
  obtain ⟨hremaining, hown, hown'⟩ := hp.others j hj
  have hij := Ne.symm hj
  refine ⟨fun hnone => ?_, fun hsome => ?_, fun hsome hcalm => ?_⟩
  · dsimp only at hnone ⊢
    rw [begin_ne hj] at hnone
    obtain ⟨-, hP, hmeets⟩ := (h.mode j).unread hnone
    rw [hp.committed, hremaining]
    exact ⟨hown', hrules.start _ _ _ _ hij h.inv hgood hP, hmeets⟩
  · dsimp only at hsome ⊢
    rw [begin_ne hj] at hsome
    have hmeets := (h.mode j).disturbed hsome
    rw [hown] at hmeets
    rw [hown', hp.committed, hremaining]
    exact hmeets.stable (hrules.rely _ _ _ _ hij h.inv hgood)
  · dsimp only at hsome ⊢
    rw [begin_ne hj] at hsome
    obtain ⟨n, hn⟩ := Option.ne_none_iff_exists'.mp hsome
    -- The new commit is one of those that request `j` has overlapped with, and does not harm it.
    rw [since_cons hp.history ((begin_ne hj).trans hn) (h.began _ _ hn)] at hcalm
    have hmeets := (h.mode j).undisturbed hsome fun b hb => by
      rw [since, hn] at hb
      exact hcalm b (List.mem_cons_of_mem _ hb)
    rw [hown] at hmeets
    rw [hown', hp.committed, hremaining]
    exact hmeets.stable (hrules.relyUndisturbed _ _ _ _ hij h.inv hgood
      (hcalm _ List.mem_cons_self hij))

/-- A commit that is a good one. -/
theorem Kept.publish (hrules : Rules P Inv R G S Good harms requests)
    (h : Kept db P Inv R G S Good harms o) {srv : Server κ σ τ ε α} {u : σ} {c : κ × σ × σ}
    (hcommit : o.server.commitNext t = some c)
    (hp : Server.Publishes o.server srv (Server.turnOf t) u)
    (hgood : Good (Server.turnOf t) o.server.committed u) :
    Kept db P Inv R G S Good harms { server := srv, began := o.begin (Server.turnOf t) } where
  inv := hp.committed.symm ▸ hrules.inv _ _ _ h.inv hgood
  good b hb := by
    rw [hp.history] at hb
    rcases List.mem_cons.mp hb with rfl | hb
    · exact hgood
    · exact h.good b hb
  chain := by
    rw [hp.history, hp.committed]
    exact ⟨rfl, h.chain⟩
  began j n hn := by
    rw [hp.history, List.length_cons]
    refine Nat.le_succ_of_le ?_
    exact le_of_begin h.began hn
  mode j := by
    by_cases hj : j = Server.turnOf t
    · subst hj
      refine ⟨fun hnone => ?_, fun _ => hp.meets (h.meets _).1, fun _ hcalm => ?_⟩
      · -- A commit is a statement on the database.
        exfalso
        cases hbegan : o.began (Server.turnOf t) with
        | some n => cases (begin_self_of_some hbegan).symm.trans hnone
        | none =>
          have hkept := begin_self_of_none hbegan
          rw [asks_of_commitNext hcommit] at hkept
          cases hkept.symm.trans hnone
      · refine hp.meets ((h.meets _).2 fun b hb => hcalm b ?_)
        cases hbegan : o.began (Server.turnOf t) with
        | none =>
          rw [since, hbegan] at hb
          cases hb
        | some n =>
          rw [since_cons hp.history (begin_self_of_some hbegan) (h.began _ _ hbegan)]
          rw [since, hbegan] at hb
          exact List.mem_cons_of_mem _ hb
    · exact h.mode_publish hrules hp hgood hj

end Steps

theorem kept_init {db : σ} (hrules : Rules P Inv R G S Good harms requests) (hdb : Inv db)
    (hstart : ∀ i, P i db) : Kept db P Inv R G S Good harms (init db requests) where
  inv := hdb
  good _ hc := by cases hc
  chain := rfl
  began _ _ hn := by cases hn
  mode i :=
    ⟨fun _ => ⟨rfl, hstart i, fun s hs hP =>
      ⟨hrules.disturbed i s hs hP, hrules.undisturbed i s hs hP⟩⟩,
      fun hne => absurd rfl hne, fun hne => absurd rfl hne⟩

/-- **The rule of overlapping requests.**  If a request that may have been disturbed makes a commit
only where it was not, or where the commit is a good one all the same, then all commits are good. -/
theorem Kept.reach {db : σ} (hrules : Rules P Inv R G S Good harms requests) (hdb : Inv db)
    (hstart : ∀ i, P i db) {ok : Observed κ σ τ ε α → Turn κ τ → Prop}
    (hok : ∀ o t i s u, ok o t → o.server.commitNext t = some (i, s, u) → Inv s → G i s u →
      (∀ b ∈ o.since i, b.1 ≠ i → ¬ harms b i) ∨ Good i s u)
    {o : Observed κ σ τ ε α} (h : Reach step ok (init db requests) o) :
    Kept db P Inv R G S Good harms o := by
  refine h.invariant (kept_init hrules hdb hstart) fun o t o' _ hkept ht hst => ?_
  obtain ⟨srv, hsrv, rfl⟩ := Option.map_eq_some_iff.mp hst
  rcases Server.step_cases hsrv with ⟨-, ha⟩ | ⟨u, hcommit, hp⟩
  · exact hkept.advance hsrv ha
  · have hmeets := hkept.meets (Server.turnOf t)
    refine hkept.publish hrules hcommit hp ?_
    -- Whatever has come between, the guarantee of a disturbed request tells what it commits.
    rcases hok _ _ _ _ _ ht hcommit hkept.inv (hp.guarantee hmeets.1) with hcalm | hgood
    · exact hp.guarantee (hmeets.2 hcalm)
    · exact hgood

end Observed

end Statements
