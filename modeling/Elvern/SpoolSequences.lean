/-
The sequences that a spool hands out to one session.

Events and queued gaps take their sequences from one counter: an event the next
one, a gap what its caller says.  A `Sequencer` is what both spools do with that
counter; `IndexedDb.sequencer` and `Memory.sequencer` show that they do.

* `Fresh` — every stored event has a sequence above all that were used before it;
* `sequences_never_reused` — the uses stay fresh and the counter never falls, as long
  as the counter can be stepped and no gap ends below it;
* `dropped_gap_reuses` — a gap that a restarted client declares from its own last
  sequence hands the sequence of a stored event out again.
-/
import Mathlib.Tactic.Common
import Elvern.DiagnosticSpool
import Elvern.Runs

open Runs

namespace Spool

/-- The calls on one session. -/
inductive Operation where
  | createAndEnqueue (factory : Number → Option Event) (priority : Bool)
  | replaceWithGap (sequence : Number) (event : Event)
  | queueGap (gap : GapFields) (sequence : Option Field)
  | completeGap (gap : GapFields) (watermark : Number)
  | acknowledge (watermark : Number)

/-- A use of sequences: an event that is stored, or a gap that is allocated. -/
inductive Use where
  | event (sequence : Number)
  | gap (range : Gap)
  deriving DecidableEq

/-- The sequences of a use. -/
def Use.Covers : Use → Number → Prop
  | .event sequence, x => x = sequence
  | .gap range, x => range.startSequence ≤ x ∧ x ≤ range.endSequence

/-- The last sequence of a use. -/
def Use.last : Use → Number
  | .event sequence => sequence
  | .gap range => range.endSequence

/-- Each stored event, the newest first, is above all that was used before it. -/
def Fresh : List Use → Prop
  | [] => True
  | .event sequence :: older => (∀ u ∈ older, ∀ x, u.Covers x → x < sequence) ∧ Fresh older
  | .gap _ :: older => Fresh older

theorem Use.le_last {u : Use} {x : Number} (h : u.Covers x) : x ≤ u.last := by
  cases u with
  | event sequence =>
    have hx : x = sequence := h
    exact le_of_eq hx
  | gap range => exact h.2

/-- An event above the last sequence of every use is fresh. -/
theorem fresh_event {uses : List Use} {sequence : Number} (hfresh : Fresh uses)
    (hlast : ∀ u ∈ uses, u.last < sequence) : Fresh (.event sequence :: uses) :=
  ⟨fun u hu _ hx => lt_of_le_of_lt (Use.le_last hx) (hlast u hu), hfresh⟩

/-- A spool, seen as the calls on one session and the counter of its sequences: a call
leaves the counter, stores an event under the next sequence, or allocates a gap. -/
structure Sequencer (σ : Type) where
  call : σ → Operation → Option (σ × Option Use)
  counter : σ → Number
  next : σ → Number
  spec : ∀ {s op s' u}, call s op = some (s', u) →
    (u = none ∧ counter s' = counter s) ∨
    (u = some (.event (next s)) ∧ counter s' = next s ∧ ∃ f b, op = .createAndEnqueue f b) ∨
    ∃ gap, op = .queueGap gap none ∧ u = some (.gap (normalizeQueued gap (next s))) ∧
      counter s' = (normalizeQueued gap (next s)).endSequence

/-- A spool together with what has been used of its sequences, the newest first. -/
structure Traced (σ : Type) where
  spool : σ
  uses : List Use

namespace Sequencer

variable {σ : Type} (q : Sequencer σ)

/-- A call, with what it uses. -/
def step (s : Traced σ) (op : Operation) : Option (Traced σ) :=
  (q.call s.spool op).map fun r => ⟨r.1, r.2.toList ++ s.uses⟩

/-- The counter can be stepped before an event, and a gap that takes its sequences from the
counter does not end below it. -/
def Keeps (s : Traced σ) : Operation → Prop
  | .createAndEnqueue _ _ => q.counter s.spool < q.next s.spool
  | .queueGap gap none =>
    q.counter s.spool ≤ (normalizeQueued gap (q.next s.spool)).endSequence
  | _ => True

instance (s : Traced σ) (op : Operation) : Decidable (q.Keeps s op) :=
  match op with
  | .createAndEnqueue _ _ => inferInstanceAs (Decidable (_ < _))
  | .queueGap _ none => inferInstanceAs (Decidable (_ ≤ _))
  | .queueGap _ (some _) | .replaceWithGap _ _ | .completeGap _ _ | .acknowledge _ =>
    inferInstanceAs (Decidable True)

/-- The uses are fresh, and none is above the counter. -/
structure Ordered (s : Traced σ) : Prop where
  fresh : Fresh s.uses
  below : ∀ u ∈ s.uses, u.last ≤ q.counter s.spool

variable {q}

/-- A call that meets the condition keeps the order and does not lower the counter. -/
theorem Ordered.step {s s' : Traced σ} {op : Operation} (h : q.Ordered s) (hk : q.Keeps s op)
    (hst : q.step s op = some s') :
    q.Ordered s' ∧ q.counter s.spool ≤ q.counter s'.spool := by
  obtain ⟨⟨t, u⟩, hcall, rfl⟩ := Option.map_eq_some_iff.1 hst
  rcases q.spec hcall with ⟨rfl, hc⟩ | ⟨rfl, hc, f, b, rfl⟩ | ⟨gap, rfl, rfl, hc⟩
  · exact ⟨⟨h.fresh, fun u hu => (h.below u hu).trans (ge_of_eq hc)⟩, ge_of_eq hc⟩
  · -- an event takes the next sequence
    have hlt : q.counter s.spool < q.next s.spool := hk
    have hle : q.counter s.spool ≤ q.counter t := (le_of_lt hlt).trans (ge_of_eq hc)
    have hlast : ∀ u ∈ s.uses, u.last < q.next s.spool :=
      fun u hu => lt_of_le_of_lt (h.below u hu) hlt
    refine ⟨⟨fresh_event h.fresh hlast, fun u hu => ?_⟩, hle⟩
    rcases List.mem_cons.1 hu with rfl | hu
    · exact (ge_of_eq hc : q.next s.spool ≤ q.counter t)
    · exact (h.below u hu).trans hle
  · -- a gap moves the counter to its end
    have hle : q.counter s.spool ≤ q.counter t := le_trans hk (ge_of_eq hc)
    refine ⟨⟨h.fresh, fun u hu => ?_⟩, hle⟩
    rcases List.mem_cons.1 hu with rfl | hu
    · exact (ge_of_eq hc : _ ≤ q.counter t)
    · exact (h.below u hu).trans hle

/-- The order holds over runs. -/
theorem ordered_of_reach {p : σ} {s : Traced σ} (h : Reach q.step q.Keeps ⟨p, []⟩ s) :
    q.Ordered s := by
  refine Reach.invariant ⟨trivial, fun u hu => by cases hu⟩ ?_ h
  exact fun s op s' _ hs hk hst => (hs.step hk hst).1

end Sequencer

/-! ### The two spools -/

/-- The use that `createAndEnqueue` reports. -/
def Enqueued.use : Enqueued → Option Use
  | .stored sequence _ _ _ => some (.event sequence)
  | _ => none

/-- The use that `queueGap` reports: without the `sequence` option the gap is allocated. -/
def gapUse (sequence : Option Field) (gap : Option Gap) : Option Use :=
  if sequence.isSome then none else gap.map .gap

/-- A call on the spool in IndexedDB. -/
def IndexedDb.call (inc : ℚ → ℚ) (sessionId : String) (p : IndexedDb) :
    Operation → Option (IndexedDb × Option Use)
  | .createAndEnqueue factory priority =>
    let r := p.createAndEnqueue inc sessionId factory priority
    some (r.1, r.2.use)
  | .replaceWithGap sequence event => some ((p.replaceWithGap sessionId sequence event).1, none)
  | .queueGap gap sequence =>
    let r := p.queueGap inc sessionId gap sequence
    some (r.1, gapUse sequence r.2)
  | .completeGap gap watermark => some ((p.completeGap sessionId gap watermark).1, none)
  | .acknowledge watermark => some ((p.acknowledge sessionId watermark).1, none)

/-- A call on the spool in memory; there is no state after a loop that does not end. -/
def Memory.call (inc : ℚ → ℚ) (sessionId : String) (m : Memory) :
    Operation → Option (Memory × Option Use)
  | .createAndEnqueue factory priority =>
    let r := m.createAndEnqueue inc sessionId factory priority
    some (r.1, r.2.use)
  | .replaceWithGap sequence event => some ((m.replaceWithGap sessionId sequence event).1, none)
  | .queueGap gap sequence =>
    let r := m.queueGap inc sessionId gap sequence
    some (r.1, gapUse sequence r.2)
  | .completeGap gap watermark =>
    (m.completeGap sessionId gap watermark).map fun r => (r.1, none)
  | .acknowledge watermark => some ((m.acknowledge sessionId watermark).1, none)

variable (inc : ℚ → ℚ) (sessionId : String)

theorem IndexedDb.createAndEnqueue_sequence (p : IndexedDb) (factory : Number → Option Event)
    (priority : Bool) :
    ((p.createAndEnqueue inc sessionId factory priority).2.use = none ∧
      (p.createAndEnqueue inc sessionId factory priority).1.sequence = p.sequence) ∨
    ((p.createAndEnqueue inc sessionId factory priority).2.use =
        some (.event (p.nextSequence inc sessionId)) ∧
      (p.createAndEnqueue inc sessionId factory priority).1.sequence =
        Function.update p.sequence sessionId (some (p.nextSequence inc sessionId))) := by
  unfold IndexedDb.createAndEnqueue
  dsimp only
  split
  · exact Or.inl ⟨rfl, rfl⟩
  · split
    · exact Or.inl ⟨rfl, rfl⟩
    · split
      · exact Or.inl ⟨rfl, rfl⟩
      · split
        · exact Or.inl ⟨rfl, rfl⟩
        · exact Or.inr ⟨rfl, rfl⟩

theorem Memory.createAndEnqueue_sequence (m : Memory) (factory : Number → Option Event)
    (priority : Bool) :
    ((m.createAndEnqueue inc sessionId factory priority).2.use = none ∧
      (m.createAndEnqueue inc sessionId factory priority).1.sequences = m.sequences) ∨
    ((m.createAndEnqueue inc sessionId factory priority).2.use =
        some (.event (m.nextSequence inc sessionId)) ∧
      (m.createAndEnqueue inc sessionId factory priority).1.sequences =
        Function.update m.sequences sessionId (some (m.nextSequence inc sessionId))) := by
  unfold Memory.createAndEnqueue
  dsimp only
  split
  · exact Or.inl ⟨rfl, rfl⟩
  · split
    · exact Or.inl ⟨rfl, rfl⟩
    · split
      · exact Or.inl ⟨rfl, rfl⟩
      · exact Or.inr ⟨rfl, rfl⟩

theorem IndexedDb.queueGap_sequence (p : IndexedDb) (gap : GapFields) (sequence : Option Field) :
    (gapUse sequence (p.queueGap inc sessionId gap sequence).2 = none ∧
      (p.queueGap inc sessionId gap sequence).1.sequence = p.sequence) ∨
    (sequence = none ∧
      gapUse sequence (p.queueGap inc sessionId gap sequence).2 =
        some (.gap (normalizeQueued gap (p.nextSequence inc sessionId))) ∧
      (p.queueGap inc sessionId gap sequence).1.sequence =
        Function.update p.sequence sessionId
          (some (normalizeQueued gap (p.nextSequence inc sessionId)).endSequence)) := by
  unfold IndexedDb.queueGap
  cases sequence with
  | none =>
    dsimp only
    split
    · exact Or.inl ⟨rfl, rfl⟩
    · split
      · exact Or.inl ⟨rfl, rfl⟩
      · exact Or.inr ⟨rfl, rfl, rfl⟩
  | some field =>
    dsimp only
    split
    · exact Or.inl ⟨rfl, rfl⟩
    · split
      · exact Or.inl ⟨rfl, rfl⟩
      · exact Or.inl ⟨rfl, rfl⟩

theorem Memory.queueGap_sequence (m : Memory) (gap : GapFields) (sequence : Option Field) :
    (gapUse sequence (m.queueGap inc sessionId gap sequence).2 = none ∧
      (m.queueGap inc sessionId gap sequence).1.sequences = m.sequences) ∨
    (sequence = none ∧
      gapUse sequence (m.queueGap inc sessionId gap sequence).2 =
        some (.gap (normalizeQueued gap (m.nextSequence inc sessionId))) ∧
      (m.queueGap inc sessionId gap sequence).1.sequences =
        Function.update m.sequences sessionId
          (some (normalizeQueued gap (m.nextSequence inc sessionId)).endSequence)) := by
  unfold Memory.queueGap
  cases sequence with
  | none =>
    dsimp only
    split
    · exact Or.inl ⟨rfl, rfl⟩
    · split
      · exact Or.inl ⟨rfl, rfl⟩
      · exact Or.inr ⟨rfl, rfl, rfl⟩
  | some field =>
    dsimp only
    split
    · exact Or.inl ⟨rfl, rfl⟩
    · split
      · exact Or.inl ⟨rfl, rfl⟩
      · exact Or.inl ⟨rfl, rfl⟩

theorem IndexedDb.replaceWithGap_sequence (p : IndexedDb) (sequence : Number) (event : Event) :
    (p.replaceWithGap sessionId sequence event).1.sequence = p.sequence := by
  unfold IndexedDb.replaceWithGap
  split
  · rfl
  · dsimp only
    split <;> rfl

theorem Memory.replaceWithGap_sequence (m : Memory) (sequence : Number) (event : Event) :
    (m.replaceWithGap sessionId sequence event).1.sequences = m.sequences := by
  unfold Memory.replaceWithGap
  split <;> rfl

/-- The spool in IndexedDB counts the sequences of a session in the row `sequence:…`. -/
def IndexedDb.sequencer : Sequencer IndexedDb where
  call := IndexedDb.call inc sessionId
  counter p := (p.sequence sessionId).getD 0
  next p := p.nextSequence inc sessionId
  spec := by
    rintro p op p' u h
    cases op with
    | createAndEnqueue factory priority =>
      obtain ⟨rfl, rfl⟩ := Prod.mk.inj (Option.some.inj h)
      rcases p.createAndEnqueue_sequence inc sessionId factory priority with ⟨hu, hs⟩ | ⟨hu, hs⟩
      · exact Or.inl ⟨hu, by rw [hs]⟩
      · exact Or.inr (Or.inl ⟨hu, by rw [hs, Function.update_self]; rfl, factory, priority, rfl⟩)
    | replaceWithGap sequence event =>
      obtain ⟨rfl, rfl⟩ := Prod.mk.inj (Option.some.inj h)
      exact Or.inl ⟨rfl, by rw [p.replaceWithGap_sequence]⟩
    | queueGap gap sequence =>
      obtain ⟨rfl, rfl⟩ := Prod.mk.inj (Option.some.inj h)
      rcases p.queueGap_sequence inc sessionId gap sequence with ⟨hu, hs⟩ | ⟨rfl, hu, hs⟩
      · exact Or.inl ⟨hu, by rw [hs]⟩
      · exact Or.inr (Or.inr ⟨gap, rfl, hu, by rw [hs, Function.update_self]; rfl⟩)
    | completeGap gap watermark =>
      obtain ⟨rfl, rfl⟩ := Prod.mk.inj (Option.some.inj h)
      exact Or.inl ⟨rfl, rfl⟩
    | acknowledge watermark =>
      obtain ⟨rfl, rfl⟩ := Prod.mk.inj (Option.some.inj h)
      exact Or.inl ⟨rfl, rfl⟩

/-- The spool in memory counts the sequences of a session in the map `sequences`. -/
def Memory.sequencer : Sequencer Memory where
  call := Memory.call inc sessionId
  counter m := (m.sequences sessionId).getD 0
  next m := m.nextSequence inc sessionId
  spec := by
    rintro m op m' u h
    cases op with
    | createAndEnqueue factory priority =>
      obtain ⟨rfl, rfl⟩ := Prod.mk.inj (Option.some.inj h)
      rcases m.createAndEnqueue_sequence inc sessionId factory priority with ⟨hu, hs⟩ | ⟨hu, hs⟩
      · exact Or.inl ⟨hu, by rw [hs]⟩
      · exact Or.inr (Or.inl ⟨hu, by rw [hs, Function.update_self]; rfl, factory, priority, rfl⟩)
    | replaceWithGap sequence event =>
      obtain ⟨rfl, rfl⟩ := Prod.mk.inj (Option.some.inj h)
      exact Or.inl ⟨rfl, by rw [m.replaceWithGap_sequence]⟩
    | queueGap gap sequence =>
      obtain ⟨rfl, rfl⟩ := Prod.mk.inj (Option.some.inj h)
      rcases m.queueGap_sequence inc sessionId gap sequence with ⟨hu, hs⟩ | ⟨rfl, hu, hs⟩
      · exact Or.inl ⟨hu, by rw [hs]⟩
      · exact Or.inr (Or.inr ⟨gap, rfl, hu, by rw [hs, Function.update_self]; rfl⟩)
    | completeGap gap watermark =>
      obtain ⟨⟨t, recovery⟩, hcomplete, heq⟩ := Option.map_eq_some_iff.1 h
      obtain ⟨rfl, rfl⟩ := Prod.mk.inj heq
      unfold Memory.completeGap at hcomplete
      dsimp only at hcomplete
      split at hcomplete
      · cases hcomplete
      · cases hcomplete
        exact Or.inl ⟨rfl, rfl⟩
    | acknowledge watermark =>
      obtain ⟨rfl, rfl⟩ := Prod.mk.inj (Option.some.inj h)
      exact Or.inl ⟨rfl, rfl⟩

/-- Neither spool hands a sequence out twice, and neither lowers its counter, in runs whose
calls meet the condition. -/
theorem sequences_never_reused (p : IndexedDb) (m : Memory) :
    (∀ s, Reach (IndexedDb.sequencer inc sessionId).step
        (IndexedDb.sequencer inc sessionId).Keeps ⟨p, []⟩ s →
      Fresh s.uses ∧ ∀ op s', (IndexedDb.sequencer inc sessionId).Keeps s op →
        (IndexedDb.sequencer inc sessionId).step s op = some s' →
        (s.spool.sequence sessionId).getD 0 ≤ (s'.spool.sequence sessionId).getD 0) ∧
    (∀ s, Reach (Memory.sequencer inc sessionId).step
        (Memory.sequencer inc sessionId).Keeps ⟨m, []⟩ s →
      Fresh s.uses ∧ ∀ op s', (Memory.sequencer inc sessionId).Keeps s op →
        (Memory.sequencer inc sessionId).step s op = some s' →
        (s.spool.sequences sessionId).getD 0 ≤ (s'.spool.sequences sessionId).getD 0) := by
  constructor
  · intro s hs
    have hord := Sequencer.ordered_of_reach hs
    exact ⟨hord.fresh, fun op s' hk hst => (hord.step hk hst).2⟩
  · intro s hs
    have hord := Sequencer.ordered_of_reach hs
    exact ⟨hord.fresh, fun op s' hk hst => (hord.step hk hst).2⟩

/-- A factory of small events. -/
def smallEvent (eventId : String) (sequence : Number) : Option Event :=
  some ⟨eventId, sequence, 10, false⟩

/-- An event, a gap behind it, and one more event. -/
def declaredGap : List Operation :=
  [.createAndEnqueue (smallEvent "first") false,
    .queueGap ⟨.number 2, .number 4, "client_overhead_circuit"⟩ none,
    .createAndEnqueue (smallEvent "second") false]

/-- A run whose uses are known, and whose calls meet the condition. -/
theorem Sequencer.reach_of_uses {σ : Type} {q : Sequencer σ} {p : σ} {ops : List Operation}
    {uses : List Use}
    (h : (runFrom (guarded q.step fun s op => decide (q.Keeps s op)) ⟨p, []⟩ ops).map Traced.uses =
      some uses) : ∃ s, Reach q.step q.Keeps ⟨p, []⟩ s ∧ s.uses = uses := by
  obtain ⟨s, hs, huses⟩ := Option.map_eq_some_iff.1 h
  refine ⟨s, ?_, huses⟩
  exact (reach_of_guarded (reach_of_runFrom hs)).mono fun _ _ hok => of_decide_eq_true hok

theorem sequences_never_reused_of_declaredGap :
    (∃ s, Reach (IndexedDb.sequencer (· + 1) "session").step (IndexedDb.sequencer (· + 1)
      "session").Keeps
        ⟨.empty 1000000, []⟩ s ∧
      s.uses = [.event 5, .gap ⟨2, 4, "client_overhead_circuit"⟩, .event 1] ∧ Fresh s.uses) ∧
    ∃ s, Reach (Memory.sequencer (· + 1) "session").step (Memory.sequencer (· + 1) "session").Keeps
        ⟨.empty 1000000, []⟩ s ∧
      s.uses = [.event 5, .gap ⟨2, 4, "client_overhead_circuit"⟩, .event 1] ∧ Fresh s.uses := by
  have hdb : (runFrom (guarded (IndexedDb.sequencer (· + 1) "session").step fun s op =>
      decide ((IndexedDb.sequencer (· + 1) "session").Keeps s op)) ⟨.empty 1000000, []⟩
        declaredGap).map Traced.uses =
      some [.event 5, .gap ⟨2, 4, "client_overhead_circuit"⟩, .event 1] := by decide +kernel
  have hmemory : (runFrom (guarded (Memory.sequencer (· + 1) "session").step fun s op =>
      decide ((Memory.sequencer (· + 1) "session").Keeps s op)) ⟨.empty 1000000, []⟩
        declaredGap).map Traced.uses =
      some [.event 5, .gap ⟨2, 4, "client_overhead_circuit"⟩, .event 1] := by decide +kernel
  have hboth := sequences_never_reused (· + 1) "session" (.empty 1000000) (.empty 1000000)
  obtain ⟨s, hs, huses⟩ := Sequencer.reach_of_uses hdb
  obtain ⟨t, ht, huses'⟩ := Sequencer.reach_of_uses hmemory
  exact ⟨⟨s, hs, huses, (hboth.1 s hs).1⟩, ⟨t, ht, huses', (hboth.2 t ht).1⟩⟩

/-- Two events are stored and acknowledged; a gap of the first sequence is declared; one more
event is stored. -/
def restartedClient : List Operation :=
  [.createAndEnqueue (smallEvent "first") false, .createAndEnqueue (smallEvent "second") false,
    .acknowledge 2, .queueGap ⟨.number 1, .number 1, "client_overhead_circuit"⟩ none,
    .createAndEnqueue (smallEvent "third") false]

/-- The third event gets the sequence of the second. -/
theorem dropped_gap_reuses :
    (runFrom (IndexedDb.sequencer (· + 1) "session").step ⟨.empty 1000000, []⟩
      restartedClient).map Traced.uses =
      some [.event 2, .gap ⟨1, 1, "client_overhead_circuit"⟩, .event 2, .event 1] ∧
    (runFrom (Memory.sequencer (· + 1) "session").step ⟨.empty 1000000, []⟩
      restartedClient).map Traced.uses =
      some [.event 2, .gap ⟨1, 1, "client_overhead_circuit"⟩, .event 2, .event 1] ∧
    ¬ Fresh [.event 2, .gap ⟨1, 1, "client_overhead_circuit"⟩, .event 2, .event 1] := by
  refine ⟨by decide +kernel, by decide +kernel, fun h => ?_⟩
  have hcovers : (Use.event 2).Covers 2 := by rw [Use.Covers]
  exact lt_irrefl _ (h.1 (.event 2) (by simp) 2 hcovers)

end Spool
