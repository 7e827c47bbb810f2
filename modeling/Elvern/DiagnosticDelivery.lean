/-
Diagnostic events on their way from the spool to the catalog (`transport.js`).

A `World` is the spool of a session, the catalog of its source, and the requests
and responses that were ever sent: any of them may be lost, be late, or arrive
again.  A request that the server refuses changes nothing.

* `kept_or_known` — every stored event is in the spool, recorded, or in a declared gap, as
  long as a gap that takes its sequences from the counter ends at an integer not below it;
* `reused_sequence_lost` — an event with a sequence that was used before is deleted unseen.
-/
import Elvern.DiagnosticCatalog
import Elvern.SpoolSequences
import Elvern.SpoolUsage

open Runs Spool

namespace Diagnostics

/-- A sequence that the server accepts: an integer from one on. -/
def sequenceOf (x : Number) : Option ℕ :=
  match x with
  | (q : ℚ) => if q.den = 1 ∧ 1 ≤ q.num then some q.num.toNat else none
  | _ => none

inductive Request where
  | batch (events : List Event)
  | gap (gap : Gap)

/-- A success response, with the watermark. -/
inductive Response where
  | ack (watermark : ℕ)
  | gap (gap : Gap) (watermark : ℕ)

def Response.watermark : Response → ℕ
  | .ack watermark => watermark
  | .gap _ watermark => watermark

/-- `stored` are the events that `createAndEnqueue` reported as stored. -/
structure World where
  client : IndexedDb
  server : Catalog
  requests : List Request
  responses : List Response
  stored : List Event

inductive Action where
  | createAndEnqueue (factory : Number → Option Event) (priority : Bool)
  | queueGap (gap : GapFields) (sequence : Option Spool.Field)
  /-- `flush` sends its first pending gap, or a batch. -/
  | flush (maxEvents maxBytes : ℕ)
  /-- The server handles the `i`-th request. -/
  | serve (i : ℕ)
  /-- The server answers a bootstrap. -/
  | bootstrap
  /-- The client completes the gap of the `i`-th response. -/
  | completeGap (i : ℕ)
  /-- The client acknowledges the watermark of the `i`-th response. -/
  | acknowledge (i : ℕ)

/-- The event under the sequence of the catalog. -/
def catalogEvent (e : Event) : Option (String × ℕ) :=
  (sequenceOf e.sourceSequence).map (e.eventId, ·)

/-- The gap of a request, as the server reads it. -/
def sourceGap (gap : Gap) : Option SourceGap :=
  (sequenceOf gap.startSequence).bind fun first =>
    (sequenceOf gap.endSequence).map fun last => ⟨first, last, gap.reasonCode⟩

/-- A gap, passed to `completeGap`. -/
def gapFields (gap : Gap) : GapFields :=
  ⟨.number gap.startSequence, .number gap.endSequence, gap.reasonCode⟩

/-- The server handles a request; `none` where it refuses. -/
def serve (c : Catalog) : Request → Option (Catalog × Response)
  | .batch events =>
    ((events.mapM catalogEvent).bind c.ingest).map fun c' => (c', .ack c'.ackWatermark)
  | .gap gap =>
    ((sourceGap gap).bind c.declareSourceGap).map fun c' => (c', .gap gap c'.ackWatermark)

/-- The event of a stored result. -/
def storedEvent (factory : Number → Option Event) : Enqueued → List Event
  | .stored sequence _ _ _ => (factory sequence).toList
  | _ => []

namespace World

variable (s : String)

/-- Before the first event. -/
def start (maxBytes : ℕ) : World := ⟨.empty maxBytes, .empty, [], [], []⟩

def step (w : World) : Action → Option World
  | .createAndEnqueue factory priority =>
    let r := w.client.createAndEnqueue (· + 1) s factory priority
    some { w with client := r.1, stored := w.stored ++ storedEvent factory r.2 }
  | .queueGap gap sequence =>
    some { w with client := (w.client.queueGap (· + 1) s gap sequence).1 }
  | .flush maxEvents maxBytes =>
    match w.client.pendingGaps s with
    | gap :: _ => some { w with requests := w.requests ++ [.gap gap] }
    | [] =>
      some { w with
        requests := w.requests ++
          [.batch ((w.client.readBatch s maxEvents maxBytes).map Entry.event)] }
  | .serve i =>
    (w.requests[i]?.bind (serve w.server)).map fun r =>
      { w with server := r.1, responses := w.responses ++ [r.2] }
  | .bootstrap => some { w with responses := w.responses ++ [.ack w.server.ackWatermark] }
  | .completeGap i =>
    match w.responses[i]? with
    | some (.gap gap watermark) =>
      some { w with client := (w.client.completeGap s (gapFields gap) (watermark : ℚ)).1 }
    | _ => none
  | .acknowledge i =>
    w.responses[i]?.map fun r =>
      { w with client := (w.client.acknowledge s (r.watermark : ℚ)).1 }

/-- The event is in the spool. -/
def spooled (w : World) (e : Event) : Bool :=
  w.client.events.any fun entry => entry.sessionId = s && entry.event = e

/-- The event is recorded under its source sequence. -/
def isRecorded (w : World) (e : Event) : Bool :=
  match catalogEvent e with
  | some r => w.server.events.any fun r' => decide (r' = r)
  | none => false

/-- The sequence of the event is inside a declared gap. -/
def isDeclared (w : World) (e : Event) : Bool :=
  (sequenceOf e.sourceSequence).any w.server.declared

/-- The event is not lost. -/
def kept (w : World) (e : Event) : Bool := w.spooled s e || w.isRecorded e || w.isDeclared e

/-- A gap that takes its sequences from the counter ends at an integer not below the counter. -/
def Keeps (w : World) : Action → Prop
  | .queueGap gap none =>
    (w.client.sequence s).getD 0 ≤
        (normalizeQueued gap (w.client.nextSequence (· + 1) s)).endSequence ∧
      (sequenceOf (normalizeQueued gap (w.client.nextSequence (· + 1) s)).endSequence).isSome
  | _ => True

end World

/-! ### Sequences -/

theorem sequenceOf_eq_some {x : Number} {n : ℕ} :
    sequenceOf x = some n ↔ x = ((n : ℚ) : Number) ∧ 1 ≤ n := by
  induction x using WithTop.recTopCoe with
  | top =>
    constructor
    · intro h
      cases h
    · rintro ⟨h, -⟩
      exact absurd h (WithTop.top_ne_coe)
  | coe q =>
    have hdef : sequenceOf (q : Number) = if q.den = 1 ∧ 1 ≤ q.num then
        some q.num.toNat else none :=
      rfl
    rw [hdef, WithTop.coe_inj]
    constructor
    · intro h
      split at h
      · next hq =>
        cases h
        have hnum : ((q.num.toNat : ℤ) : ℚ) = q := by
          rw [Int.toNat_of_nonneg (by omega)]
          exact Rat.coe_int_num_of_den_eq_one hq.1
        refine ⟨?_, by omega⟩
        rw [← Int.cast_natCast, hnum]
      · cases h
    · rintro ⟨rfl, hn⟩
      rw [if_pos ⟨Rat.den_natCast n, by rw [Rat.num_natCast]; omega⟩, Rat.num_natCast,
        Int.toNat_natCast]

/-- The members of a batch are among the ordered entries. -/
theorem mem_takeBatch {maxEvents maxBytes : ℕ} {taken entries : List Entry} {e : Entry}
    (h : e ∈ takeBatch maxEvents maxBytes taken entries) : e ∈ taken ∨ e ∈ entries := by
  induction entries generalizing taken with
  | nil => exact Or.inl h
  | cons first rest ih =>
    rw [takeBatch] at h
    split at h
    · exact Or.inl h
    · split at h
      · exact Or.inl h
      · rcases ih h with h | h
        · rcases List.mem_append.1 h with h | h
          · exact Or.inl h
          · exact Or.inr (List.mem_singleton.1 h ▸ List.mem_cons_self ..)
        · exact Or.inr (List.mem_cons_of_mem _ h)

theorem mem_readBatch {p : IndexedDb} {s : String} {maxEvents maxBytes : ℕ} {e : Entry}
    (h : e ∈ p.readBatch s maxEvents maxBytes) : e ∈ p.events ∧ e.sessionId = s := by
  rcases mem_takeBatch h with h | h
  · cases h
  · obtain ⟨he, hw⟩ := List.mem_filter.1 (List.mem_mergeSort.1 h)
    rw [Entry.within, Bool.and_eq_true, decide_eq_true_eq] at hw
    exact ⟨he, hw.1⟩

/-- The members of a mapped list come from members. -/
theorem mem_of_mapM {α β : Type} {f : α → Option β} {l : List α} {l' : List β} {y : β}
    (h : l.mapM f = some l') (hy : y ∈ l') : ∃ x ∈ l, f x = some y := by
  induction l generalizing l' with
  | nil =>
    cases h
    cases hy
  | cons x l ih =>
    rw [List.mapM_cons] at h
    obtain ⟨y', hy', h⟩ := Option.bind_eq_some_iff.1 h
    obtain ⟨rest, hrest, h⟩ := Option.bind_eq_some_iff.1 h
    cases h
    rcases List.mem_cons.1 hy with rfl | hy
    · exact ⟨x, List.mem_cons_self .., hy'⟩
    · obtain ⟨x', hx', hfx'⟩ := ih hrest hy
      exact ⟨x', List.mem_cons_of_mem _ hx', hfx'⟩

/-- What `createAndEnqueue` does to the spool of a session. -/
theorem createAndEnqueue_cases (p : IndexedDb) (s : String) (factory : Number → Option Event)
    (priority : Bool) :
    ((p.createAndEnqueue (· + 1) s factory priority).1 = p ∧
      storedEvent factory (p.createAndEnqueue (· + 1) s factory priority).2 = []) ∨
    ∃ e, e.sourceSequence = p.nextSequence (· + 1) s ∧
      storedEvent factory (p.createAndEnqueue (· + 1) s factory priority).2 = [e] ∧
      (p.createAndEnqueue (· + 1) s factory priority).1.events =
        p.events ++ [newEntry s (p.nextSequence (· + 1) s) e] ∧
      (p.createAndEnqueue (· + 1) s factory priority).1.sequence =
        Function.update p.sequence s (some (p.nextSequence (· + 1) s)) := by
  unfold IndexedDb.createAndEnqueue
  dsimp only
  split
  next => exact Or.inl ⟨rfl, rfl⟩
  next e he =>
    split
    next => exact Or.inl ⟨rfl, rfl⟩
    next hseq =>
      split
      next => exact Or.inl ⟨rfl, rfl⟩
      next =>
        split
        next => exact Or.inl ⟨rfl, rfl⟩
        next =>
          refine Or.inr ⟨e, not_not.1 hseq, ?_, rfl, rfl⟩
          rw [storedEvent, he]
          rfl

/-! ### The invariant -/

/-- What is known of the client, of the server, and of the messages between them. -/
structure Sound (s : String) (w : World) : Prop where
  counter : ∃ n : ℕ, (w.client.sequence s).getD 0 = ((n : ℚ) : Number)
  integral : ∀ e ∈ w.stored, (sequenceOf e.sourceSequence).isSome
  below : ∀ e ∈ w.stored, e.sourceSequence ≤ (w.client.sequence s).getD 0
  unique : ∀ e ∈ w.stored, ∀ e' ∈ w.stored, e.sourceSequence = e'.sourceSequence → e = e'
  entries : ∀ x ∈ w.client.events, x.sessionId = s →
    x.event ∈ w.stored ∧ x.sourceSequence = x.event.sourceSequence
  requests : ∀ events, Request.batch events ∈ w.requests → ∀ e ∈ events, e ∈ w.stored
  rows : ∀ r ∈ w.server.events, ∃ e ∈ w.stored, catalogEvent e = some r
  covered : w.server.Covered
  acks : ∀ r ∈ w.responses, r.watermark ≤ w.server.ackWatermark
  gaps : ∀ gap n, Response.gap gap n ∈ w.responses → ∃ g ∈ w.server.gaps,
    sequenceOf gap.startSequence = some g.startSequence ∧
      sequenceOf gap.endSequence = some g.endSequence ∧ g.startSequence ≤ g.endSequence
  kept : ∀ e ∈ w.stored, w.kept s e = true

theorem Sound.start (s : String) (maxBytes : ℕ) : Sound s (.start maxBytes) where
  counter := ⟨0, rfl⟩
  integral _ h := by cases h
  below _ h := by cases h
  unique _ h := by cases h
  entries _ h := by cases h
  requests _ h := by cases h
  rows _ h := by cases h
  covered n hn hn' := by
    have hzero : n ≤ 0 := hn'
    omega
  acks _ h := by cases h
  gaps _ _ h := by cases h
  kept _ h := by cases h

/-- Where a kept event is. -/
theorem World.kept_iff {s : String} {w : World} {e : Event} :
    w.kept s e = true ↔ (∃ x ∈ w.client.events, x.sessionId = s ∧ x.event = e) ∨
      (∃ r, catalogEvent e = some r ∧ r ∈ w.server.events) ∨
      ∃ n, sequenceOf e.sourceSequence = some n ∧ w.server.declared n = true := by
  rw [World.kept, Bool.or_eq_true, Bool.or_eq_true, or_assoc]
  refine or_congr ?_ (or_congr ?_ ?_)
  · rw [World.spooled, List.any_eq_true]
    refine exists_congr fun x => and_congr_right fun _ => ?_
    rw [Bool.and_eq_true, decide_eq_true_eq, decide_eq_true_eq]
  · rw [World.isRecorded]
    cases catalogEvent e with
    | none => simp
    | some r => simp
  · rw [World.isDeclared, Option.any_eq_true]

namespace Sound

variable {s : String} {w : World}

/-- A sequence up to the watermark belongs to an event that is recorded, or is declared. -/
theorem known_of_le (h : Sound s w) {e : Event} (he : e ∈ w.stored) {n : ℕ}
    (hn : sequenceOf e.sourceSequence = some n) (hle : n ≤ w.server.ackWatermark) :
    (∃ r, catalogEvent e = some r ∧ r ∈ w.server.events) ∨
      ∃ n, sequenceOf e.sourceSequence = some n ∧ w.server.declared n = true := by
  rcases h.covered n (sequenceOf_eq_some.1 hn).2 hle with hrec | hdec
  · -- the event that is recorded there has the same sequence
    obtain ⟨eventId, hrow⟩ := Catalog.recorded_iff.1 hrec
    obtain ⟨e', he', hcat⟩ := h.rows _ hrow
    obtain ⟨n', hn', heq⟩ := Option.map_eq_some_iff.1 hcat
    obtain ⟨-, rfl⟩ := Prod.mk.inj heq
    have hsame : e'.sourceSequence = e.sourceSequence :=
      (sequenceOf_eq_some.1 hn').1.trans (sequenceOf_eq_some.1 hn).1.symm
    obtain rfl := h.unique e' he' e he hsame
    exact Or.inl ⟨_, hcat, hrow⟩
  · exact Or.inr ⟨n, hn, hdec⟩

/-- Entries may leave the spool when the server knows their events. -/
theorem delete (h : Sound s w) {client : IndexedDb} (hseq : client.sequence = w.client.sequence)
    (hsub : ∀ x ∈ client.events, x ∈ w.client.events)
    (hknown : ∀ x ∈ w.client.events, x.sessionId = s → x ∉ client.events →
      (∃ r, catalogEvent x.event = some r ∧ r ∈ w.server.events) ∨
        ∃ n, sequenceOf x.event.sourceSequence = some n ∧ w.server.declared n = true) :
    Sound s { w with client := client } where
  counter := by
    rw [hseq]
    exact h.counter
  integral := h.integral
  below := by
    rw [hseq]
    exact h.below
  unique := h.unique
  entries x hx := h.entries x (hsub x hx)
  requests := h.requests
  rows := h.rows
  covered := h.covered
  acks := h.acks
  gaps := h.gaps
  kept e he := by
    rw [World.kept_iff]
    rcases World.kept_iff.1 (h.kept e he) with ⟨x, hx, hs, rfl⟩ | hrec
    · by_cases hmem : x ∈ client.events
      · exact Or.inl ⟨x, hmem, hs, rfl⟩
      · exact Or.inr (hknown x hx hs hmem)
    · exact Or.inr hrec

/-- The entries that a range deletion takes from the session. -/
theorem within_of_deleted {p : IndexedDb} {first last : Number} {x : Entry} (hx : x ∈ p.events)
    (hgone : x ∉ (p.deleteRange s first last).events) :
    first ≤ x.sourceSequence ∧ x.sourceSequence ≤ last := by
  have hw : x.within s first last = true := by
    by_contra hw
    rw [Bool.not_eq_true] at hw
    exact hgone (List.mem_filter.2 ⟨hx, by rw [hw]; rfl⟩)
  rw [Entry.within, Bool.and_eq_true, Bool.and_eq_true, decide_eq_true_eq, decide_eq_true_eq,
    decide_eq_true_eq] at hw
  exact hw.2

theorem acknowledge (h : Sound s w) {n : ℕ} (hn : n ≤ w.server.ackWatermark) :
    Sound s { w with client := (w.client.acknowledge s ((n : ℚ) : Number)).1 } := by
  refine h.delete rfl (fun x hx => List.mem_of_mem_filter hx) fun x hx hs hgone => ?_
  obtain ⟨hstored, hsame⟩ := h.entries x hx hs
  obtain ⟨-, hle⟩ := within_of_deleted hx hgone
  obtain ⟨k, hk⟩ := Option.isSome_iff_exists.1 (h.integral _ hstored)
  refine h.known_of_le hstored hk (le_trans ?_ hn)
  have hnum : numeric ((n : ℚ) : Number) = ((n : ℚ) : Number) := by
    rw [numeric, if_pos]
    exact ⟨WithTop.coe_ne_top, WithTop.coe_le_coe.2 (Nat.cast_nonneg n)⟩
  rw [hnum, hsame, (sequenceOf_eq_some.1 hk).1, WithTop.coe_le_coe] at hle
  exact_mod_cast hle

/-- The range of a gap that the server has read. -/
theorem normalizeGap_fields {gap : Gap} {first last : ℕ}
    (hfirst : sequenceOf gap.startSequence = some first)
    (hlast : sequenceOf gap.endSequence = some last) :
    (normalizeGap (gapFields gap)).startSequence = gap.startSequence ∧
      (normalizeGap (gapFields gap)).endSequence ≤ max gap.startSequence gap.endSequence := by
  have hpos : ∀ {x : Number} {n : ℕ}, sequenceOf x = some n → x ≠ 0 ∧ 1 ≤ x := by
    intro x n hx
    obtain ⟨rfl, hn⟩ := sequenceOf_eq_some.1 hx
    have hone : (1 : Number) ≤ ((n : ℚ) : Number) := by
      rw [← WithTop.coe_one, WithTop.coe_le_coe]
      exact_mod_cast hn
    exact ⟨fun hz => absurd (hz ▸ hone) (by decide +kernel), hone⟩
  obtain ⟨hne, hone⟩ := hpos hfirst
  obtain ⟨hne', -⟩ := hpos hlast
  have hstart : (normalizeGap (gapFields gap)).startSequence = gap.startSequence := by
    rw [normalizeGap, gapFields, Field.orElse, if_neg hne, max_eq_right hone]
  refine ⟨hstart, ?_⟩
  have hend : (normalizeGap (gapFields gap)).endSequence =
      max (normalizeGap (gapFields gap)).startSequence gap.endSequence := by
    rw [normalizeGap, gapFields]
    dsimp only
    rw [Field.orElse, Field.orElse, if_neg hne', if_neg hne]
  rw [hend, hstart]

theorem completeGap (h : Sound s w) {gap : Gap} {n : ℕ} (hgap : Response.gap gap n ∈ w.responses)
    (watermark : Number) :
    Sound s { w with client := (w.client.completeGap s (gapFields gap) watermark).1 } := by
  obtain ⟨g, hg, hfirst, hlast, hle⟩ := h.gaps gap n hgap
  obtain ⟨hstart, hend⟩ := normalizeGap_fields hfirst hlast
  refine h.delete rfl (fun x hx => List.mem_of_mem_filter hx) fun x hx hs hgone => ?_
  obtain ⟨hstored, hsame⟩ := h.entries x hx hs
  obtain ⟨hlow, hhigh⟩ := within_of_deleted hx hgone
  obtain ⟨k, hk⟩ := Option.isSome_iff_exists.1 (h.integral _ hstored)
  refine Or.inr ⟨k, hk, List.any_eq_true.2 ⟨g, hg, Catalog.covers_iff.2 ?_⟩⟩
  rw [hstart, hsame, (sequenceOf_eq_some.1 hk).1, (sequenceOf_eq_some.1 hfirst).1,
    WithTop.coe_le_coe] at hlow
  have hhigh' := hhigh.trans hend
  rw [hsame, (sequenceOf_eq_some.1 hk).1, (sequenceOf_eq_some.1 hfirst).1,
    (sequenceOf_eq_some.1 hlast).1, max_eq_right (WithTop.coe_le_coe.2 (Nat.cast_le.2 hle)),
    WithTop.coe_le_coe] at hhigh'
  exact ⟨by exact_mod_cast hlow, by exact_mod_cast hhigh'⟩

/-- The server has more rows, all of them of stored events, and answers with its watermark. -/
theorem serve (h : Sound s w) {c : Catalog} {r : Response} (hcov : c.Covered)
    (hext : w.server.Extends c)
    (hrows : ∀ row ∈ c.events, row ∈ w.server.events ∨ ∃ e ∈ w.stored, catalogEvent e = some row)
    (hr : r.watermark ≤ c.ackWatermark)
    (hgap : ∀ gap n, r = .gap gap n → ∃ g ∈ c.gaps,
      sequenceOf gap.startSequence = some g.startSequence ∧
        sequenceOf gap.endSequence = some g.endSequence ∧ g.startSequence ≤ g.endSequence) :
    Sound s { w with server := c, responses := w.responses ++ [r] } where
  counter := h.counter
  integral := h.integral
  below := h.below
  unique := h.unique
  entries := h.entries
  requests := h.requests
  rows row hrow := by
    rcases hrows row hrow with hold | hnew
    · exact h.rows row hold
    · exact hnew
  covered := hcov
  acks r' hr' := by
    rcases List.mem_append.1 hr' with hr' | hr'
    · exact (h.acks r' hr').trans hext.watermark
    · exact List.mem_singleton.1 hr' ▸ hr
  gaps gap n hmem := by
    rcases List.mem_append.1 hmem with hmem | hmem
    · obtain ⟨g, hg, hrest⟩ := h.gaps gap n hmem
      exact ⟨g, hext.gaps g hg, hrest⟩
    · exact hgap gap n (List.mem_singleton.1 hmem).symm
  kept e he := by
    rw [World.kept_iff]
    rcases World.kept_iff.1 (h.kept e he) with hspool | ⟨row, hcat, hrow⟩ | ⟨n, hn, hdec⟩
    · exact Or.inl hspool
    · exact Or.inr (Or.inl ⟨row, hcat, hext.events row hrow⟩)
    · obtain ⟨g, hg, hcovers⟩ := List.any_eq_true.1 hdec
      exact Or.inr (Or.inr ⟨n, hn, List.any_eq_true.2 ⟨g, hext.gaps g hg, hcovers⟩⟩)

/-- A request that the server accepts. -/
theorem serveRequest (h : Sound s w) {request : Request} {c : Catalog} {r : Response}
    (hmem : request ∈ w.requests) (hserve : Diagnostics.serve w.server request = some (c, r)) :
    Sound s { w with server := c, responses := w.responses ++ [r] } := by
  cases request with
  | batch events =>
    obtain ⟨c', hc', heq⟩ := Option.map_eq_some_iff.1 hserve
    obtain ⟨rfl, rfl⟩ := Prod.mk.inj heq
    obtain ⟨rows, hmap, hingest⟩ := Option.bind_eq_some_iff.1 hc'
    obtain ⟨hcov, hext, hrows⟩ := h.covered.ingest hingest
    refine h.serve hcov hext (fun row hrow => ?_) le_rfl (fun gap n hgap => by cases hgap)
    rcases hrows row hrow with hold | hnew
    · exact Or.inl hold
    · -- a row of the batch comes from one of its events
      obtain ⟨e, he, hcat⟩ := mem_of_mapM hmap hnew
      exact Or.inr ⟨e, h.requests events hmem e he, hcat⟩
  | gap gap =>
    obtain ⟨c', hc', heq⟩ := Option.map_eq_some_iff.1 hserve
    obtain ⟨rfl, rfl⟩ := Prod.mk.inj heq
    obtain ⟨g, hg, hdeclare⟩ := Option.bind_eq_some_iff.1 hc'
    obtain ⟨first, hfirst, hrest⟩ := Option.bind_eq_some_iff.1 hg
    obtain ⟨last, hlast, rfl⟩ := Option.map_eq_some_iff.1 hrest
    obtain ⟨hcov, hext, hevents, hle, g, hg, hstart, hend⟩ := h.covered.declareSourceGap hdeclare
    refine h.serve hcov hext (fun row hrow => Or.inl (hevents ▸ hrow)) le_rfl ?_
    intro gap' n hgap'
    cases hgap'
    exact ⟨g, hg, hfirst.trans (congrArg some hstart.symm), hlast.trans (congrArg some hend.symm),
      by rw [hstart, hend]; exact hle⟩

/-- One more event is stored. -/
theorem store (h : Sound s w) {client : IndexedDb} {e : Event}
    (hseq : e.sourceSequence = w.client.nextSequence (· + 1) s)
    (hevents : client.events =
      w.client.events ++ [newEntry s (w.client.nextSequence (· + 1) s) e])
    (hsequence : client.sequence =
      Function.update w.client.sequence s (some (w.client.nextSequence (· + 1) s))) :
    Sound s { w with client := client, stored := w.stored ++ [e] } := by
  obtain ⟨n, hn⟩ := h.counter
  have hnext : w.client.nextSequence (· + 1) s = (((n + 1 : ℕ) : ℚ) : Number) := by
    rw [IndexedDb.nextSequence, IndexedDb.counter, hn, numeric, if_pos]
    · rw [WithTop.map_coe]
      norm_cast
    · exact ⟨WithTop.coe_ne_top, WithTop.coe_le_coe.2 (Nat.cast_nonneg n)⟩
  have hlt : (w.client.sequence s).getD 0 < w.client.nextSequence (· + 1) s := by
    rw [hn, hnext, WithTop.coe_lt_coe]
    exact_mod_cast Nat.lt_succ_self n
  have hcounter : (client.sequence s).getD 0 = w.client.nextSequence (· + 1) s := by
    rw [hsequence, Function.update_self, Option.getD_some]
  -- no event that is stored already has the sequence of the new one
  have hfresh : ∀ e' ∈ w.stored, e'.sourceSequence ≠ e.sourceSequence := by
    intro e' he' heq
    have hle := h.below e' he'
    rw [heq, hseq] at hle
    exact absurd hlt (not_lt.2 hle)
  have hmem : ∀ {e'}, e' ∈ w.stored ++ [e] → e' ∈ w.stored ∨ e' = e := by
    intro e' he'
    rcases List.mem_append.1 he' with he' | he'
    · exact Or.inl he'
    · exact Or.inr (List.mem_singleton.1 he')
  refine ⟨⟨n + 1, hcounter.trans hnext⟩, fun e' he' => ?_, fun e' he' => ?_,
    fun e' he' e'' he'' heq => ?_,
    fun x hx hs => ?_, fun events hreq x hx => ?_, fun r hr => ?_, h.covered, h.acks, h.gaps,
    fun e' he' => ?_⟩
  · rcases hmem he' with he' | rfl
    · exact h.integral e' he'
    · rw [hseq, hnext, sequenceOf_eq_some.2 ⟨rfl, Nat.le_add_left 1 n⟩]
      rfl
  · rw [hcounter]
    rcases hmem he' with he' | rfl
    · exact (h.below e' he').trans (le_of_lt hlt)
    · exact le_of_eq hseq
  · rcases hmem he' with hold | rfl
    · rcases hmem he'' with hold' | rfl
      · exact h.unique e' hold e'' hold' heq
      · exact absurd heq (hfresh e' hold)
    · rcases hmem he'' with hold' | rfl
      · exact absurd heq.symm (hfresh e'' hold')
      · rfl
  · rw [hevents] at hx
    rcases List.mem_append.1 hx with hx | hx
    · obtain ⟨hstored, hsame⟩ := h.entries x hx hs
      exact ⟨List.mem_append_left _ hstored, hsame⟩
    · rw [List.mem_singleton.1 hx]
      exact ⟨List.mem_append_right _ (List.mem_singleton_self e), hseq.symm⟩
  · exact List.mem_append_left _ (h.requests events hreq x hx)
  · obtain ⟨e', he', hcat⟩ := h.rows r hr
    exact ⟨e', List.mem_append_left _ he', hcat⟩
  · rw [World.kept_iff]
    rcases hmem he' with he' | rfl
    · rcases World.kept_iff.1 (h.kept e' he') with ⟨x, hx, hrest⟩ | hknown
      · exact Or.inl ⟨x, hevents ▸ List.mem_append_left _ hx, hrest⟩
      · exact Or.inr hknown
    · refine Or.inl ⟨newEntry s (w.client.nextSequence (· + 1) s) e', ?_, rfl, rfl⟩
      rw [hevents]
      exact List.mem_append_right _ (List.mem_singleton_self _)

/-- A gap is queued. -/
theorem queueGap (h : Sound s w) {gap : GapFields} {sequence : Option Spool.Field}
    (hk : w.Keeps s (.queueGap gap sequence)) :
    Sound s { w with client := (w.client.queueGap (· + 1) s gap sequence).1 } := by
  obtain ⟨-, hevents, -⟩ := w.client.queueGap_frame (· + 1) s gap sequence
  have hcounter : (∃ n : ℕ, ((w.client.queueGap (· + 1) s gap sequence).1.sequence s).getD 0 =
      ((n : ℚ) : Number)) ∧ (w.client.sequence s).getD 0 ≤
        ((w.client.queueGap (· + 1) s gap sequence).1.sequence s).getD 0 := by
    rcases w.client.queueGap_sequence (· + 1) s gap sequence with ⟨-, hs⟩ | ⟨rfl, -, hs⟩
    · rw [hs]
      exact ⟨h.counter, le_rfl⟩
    · obtain ⟨hle, hint⟩ := hk
      obtain ⟨n, hn⟩ := Option.isSome_iff_exists.1 hint
      rw [hs, Function.update_self, Option.getD_some]
      exact ⟨⟨n, (sequenceOf_eq_some.1 hn).1⟩, hle⟩
  refine ⟨hcounter.1, h.integral, fun e he => (h.below e he).trans hcounter.2, h.unique,
    fun x hx => h.entries x (hevents ▸ hx), h.requests, h.rows, h.covered, h.acks, h.gaps,
    fun e he => ?_⟩
  rw [World.kept_iff]
  rcases World.kept_iff.1 (h.kept e he) with ⟨x, hx, hrest⟩ | hknown
  · exact Or.inl ⟨x, hevents.symm ▸ hx, hrest⟩
  · exact Or.inr hknown

/-- A request is sent, whose events are stored. -/
theorem request (h : Sound s w) {request : Request}
    (hbatch : ∀ events, request = .batch events → ∀ e ∈ events, e ∈ w.stored) :
    Sound s { w with requests := w.requests ++ [request] } where
  counter := h.counter
  integral := h.integral
  below := h.below
  unique := h.unique
  entries := h.entries
  requests events hmem := by
    rcases List.mem_append.1 hmem with hmem | hmem
    · exact h.requests events hmem
    · exact hbatch events (List.mem_singleton.1 hmem).symm
  rows := h.rows
  covered := h.covered
  acks := h.acks
  gaps := h.gaps
  kept := h.kept

theorem step (h : Sound s w) {action : Action} {w' : World} (hk : w.Keeps s action)
    (hst : w.step s action = some w') : Sound s w' := by
  cases action with
  | createAndEnqueue factory priority =>
    cases hst
    rcases createAndEnqueue_cases w.client s factory priority with
      ⟨hclient, hnone⟩ | ⟨e, hseq, hone, hevents, hsequence⟩
    · rw [hclient, hnone, List.append_nil]
      exact h
    · rw [hone]
      exact h.store hseq hevents hsequence
  | queueGap gap sequence =>
    cases hst
    exact h.queueGap hk
  | flush maxEvents maxBytes =>
    rw [World.step] at hst
    split at hst
    · cases hst
      exact h.request fun events heq => by cases heq
    · cases hst
      refine h.request fun events heq e he => ?_
      cases heq
      obtain ⟨x, hx, rfl⟩ := List.mem_map.1 he
      obtain ⟨hx, hs⟩ := mem_readBatch hx
      exact (h.entries x hx hs).1
  | serve i =>
    obtain ⟨⟨c, r⟩, hserve, rfl⟩ := Option.map_eq_some_iff.1 hst
    obtain ⟨request, hget, hserve⟩ := Option.bind_eq_some_iff.1 hserve
    exact h.serveRequest (List.mem_of_getElem? hget) hserve
  | bootstrap =>
    cases hst
    exact h.serve h.covered (.refl _) (fun row hrow => Or.inl hrow) le_rfl
      fun gap n hgap => by cases hgap
  | completeGap i =>
    rw [World.step] at hst
    split at hst
    · next gap n hget =>
      cases hst
      exact h.completeGap (List.mem_of_getElem? hget) _
    · cases hst
  | acknowledge i =>
    obtain ⟨r, hget, rfl⟩ := Option.map_eq_some_iff.1 hst
    exact h.acknowledge (h.acks r (List.mem_of_getElem? hget))

end Sound

/-- In every state of a run whose gaps keep the counter, every event that was stored is in the
spool, recorded under its sequence, or inside a declared gap. -/
theorem kept_or_known (s : String) (maxBytes : ℕ) (w : World)
    (hw : Reach (World.step s) (World.Keeps s) (.start maxBytes) w) :
    ∀ e ∈ w.stored, w.kept s e = true := by
  have hsound : Sound s w := by
    refine Reach.invariant (P := Sound s) (.start s maxBytes) ?_ hw
    exact fun w action w' _ h hk hst => h.step hk hst
  exact hsound.kept

/-- An event is stored and sent, and one more is stored. -/
def delivered : List Action :=
  [.createAndEnqueue (smallEvent "first") false, .flush 8 1000, .serve 0,
    .createAndEnqueue (smallEvent "second") false]

theorem kept_or_known_two :
    ∃ w, Reach (World.step "session") (World.Keeps "session") (.start 1000000) w ∧
      w.stored.length = 2 ∧ ∀ e ∈ w.stored, w.kept "session" e = true := by
  have hrun : (runFrom (World.step "session") (.start 1000000) delivered).map (·.stored.length) =
      some 2 := by decide +kernel
  obtain ⟨w, hw, hlength⟩ := Option.map_eq_some_iff.1 hrun
  have hreach : Reach (World.step "session") (World.Keeps "session") (.start 1000000) w :=
    reach_of_runFrom_of (by simp [delivered, World.Keeps]) hw
  exact ⟨w, hreach, hlength, kept_or_known "session" 1000000 w hreach⟩

/-- Two events are recorded and acknowledged; a client that starts again declares the first sequence
dropped, stores an event, and hears the watermark. -/
def restarted : List Action :=
  [.createAndEnqueue (smallEvent "first") false, .flush 8 1000, .serve 0, .acknowledge 0,
    .createAndEnqueue (smallEvent "second") false, .flush 8 1000, .serve 1, .acknowledge 1,
    .queueGap ⟨.number 1, .number 1, "client_overhead_circuit"⟩ none,
    .createAndEnqueue (smallEvent "third") false, .bootstrap, .acknowledge 2]

/-- The third event has the sequence of the second, and is deleted as if it had been recorded. -/
theorem reused_sequence_lost :
    ∃ w, runFrom (World.step "session") (.start 1000000) restarted = some w ∧
      ∃ e ∈ w.stored, w.kept "session" e = false := by
  have hrun : (runFrom (World.step "session") (.start 1000000) restarted).map
      (fun w => w.stored.all (w.kept "session")) = some false := by decide +kernel
  obtain ⟨w, hw, hall⟩ := Option.map_eq_some_iff.1 hrun
  obtain ⟨e, he, hlost⟩ := List.all_eq_false.1 hall
  exact ⟨w, hw, e, he, Bool.eq_false_iff.2 hlost⟩

end Diagnostics
