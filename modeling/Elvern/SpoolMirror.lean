/-
The spool in memory behaves like the one in IndexedDB.

The two stores take the same calls, one after another.  `Mirrors` is the relation
between their states: the same entries, counters and recovery states, with usage
rows that are accounted.

* `Agrees` — the calls at which the two implementations do not part;
* `Mirrors.perform` — such a call has the same outcome on both and keeps the relation;
* `memory_mirrors` — so has every sequence of them;
* `replaced_beyond_limit` — the memory replaces an event by one that does not fit.
-/
import Mathlib.Tactic.Common
import Elvern.DiagnosticSpool
import Elvern.SpoolUsage

namespace Spool

/-- The calls. -/
inductive SpoolCall where
  | createAndEnqueue (sessionId : String) (factory : Number → Option Event) (priority : Bool)
  | replaceWithGap (sessionId : String) (sequence : Number) (event : Event)
  | queueGap (sessionId : String) (gap : GapFields) (sequence : Option Field)
  | pendingGaps (sessionId : String)
  | completeGap (sessionId : String) (gap : GapFields) (watermark : Number)
  | readBatch (sessionId : String) (maxEvents maxBytes : ℕ)
  | acknowledge (sessionId : String) (watermark : Number)
  | markCloseState (sessionId : String) (closed : Bool)
  | stats (sessionId : String)
  | cleanupSealedSession (sessionId : String)

/-- What a call reports. -/
inductive Outcome where
  | enqueued (result : Enqueued)
  | done (result : Bool)
  | queued (gap : Option Gap)
  | gaps (pending : List Gap)
  | completed (recovery : Recovery)
  | batch (entries : List Entry)
  | acknowledged (result : Acknowledged)
  | stats (result : Stats)
  deriving DecidableEq

/-- A call on the spool in IndexedDB. -/
def IndexedDb.perform (inc : ℚ → ℚ) (p : IndexedDb) : SpoolCall → IndexedDb × Outcome
  | .createAndEnqueue s factory priority =>
    ((p.createAndEnqueue inc s factory priority).1,
      .enqueued (p.createAndEnqueue inc s factory priority).2)
  | .replaceWithGap s sequence event =>
    ((p.replaceWithGap s sequence event).1, .done (p.replaceWithGap s sequence event).2)
  | .queueGap s gap sequence =>
    ((p.queueGap inc s gap sequence).1, .queued (p.queueGap inc s gap sequence).2)
  | .pendingGaps s => (p, .gaps (p.pendingGaps s))
  | .completeGap s gap watermark =>
    ((p.completeGap s gap watermark).1, .completed (p.completeGap s gap watermark).2)
  | .readBatch s maxEvents maxBytes => (p, .batch (p.readBatch s maxEvents maxBytes))
  | .acknowledge s watermark =>
    ((p.acknowledge s watermark).1, .acknowledged (p.acknowledge s watermark).2)
  | .markCloseState s closed => (p.markCloseState s closed, .done true)
  | .stats s => (p, .stats (p.stats s))
  | .cleanupSealedSession s => ((p.cleanupSealedSession s).1, .done (p.cleanupSealedSession s).2)

/-- A call on the spool in memory; `none` where it does not return. -/
def Memory.perform (inc : ℚ → ℚ) (m : Memory) : SpoolCall → Option (Memory × Outcome)
  | .createAndEnqueue s factory priority =>
    some ((m.createAndEnqueue inc s factory priority).1,
      .enqueued (m.createAndEnqueue inc s factory priority).2)
  | .replaceWithGap s sequence event =>
    some ((m.replaceWithGap s sequence event).1, .done (m.replaceWithGap s sequence event).2)
  | .queueGap s gap sequence =>
    some ((m.queueGap inc s gap sequence).1, .queued (m.queueGap inc s gap sequence).2)
  | .pendingGaps s => some (m, .gaps (m.pendingGaps s))
  | .completeGap s gap watermark =>
    (m.completeGap s gap watermark).map fun r => (r.1, .completed r.2)
  | .readBatch s maxEvents maxBytes => some (m, .batch (m.readBatch s maxEvents maxBytes))
  | .acknowledge s watermark =>
    some ((m.acknowledge s watermark).1, .acknowledged (m.acknowledge s watermark).2)
  | .markCloseState s closed => some (m.markCloseState s closed, .done true)
  | .stats s => some (m, .stats (m.stats s))
  | .cleanupSealedSession s =>
    some ((m.cleanupSealedSession s).1, .done (m.cleanupSealedSession s).2)

/-- The outcomes of some calls. -/
def IndexedDb.outcomes (inc : ℚ → ℚ) : IndexedDb → List SpoolCall → List Outcome
  | _, [] => []
  | p, call :: rest => (p.perform inc call).2 :: (p.perform inc call).1.outcomes inc rest

/-- The outcomes of some calls, as long as they return. -/
def Memory.outcomes (inc : ℚ → ℚ) : Memory → List SpoolCall → Option (List Outcome)
  | _, [] => some []
  | m, call :: rest =>
    match m.perform inc call with
    | none => none
    | some (m', outcome) => (m'.outcomes inc rest).map (outcome :: ·)

namespace IndexedDb

variable (inc : ℚ → ℚ) (p : IndexedDb)

/-- The counter of a session is a number that `numeric` leaves alone. -/
def CounterFinite (s : String) : Prop :=
  numeric ((p.sequence s).getD 0) = (p.sequence s).getD 0

/-- The calls at which the two spools do not part: no session is named like the global row;
counters and watermarks are finite; a new event has a safe sequence that is not in the store; a
replaced event fits `maxBytes`; a completed gap has an end, and its loop comes to every stored
sequence within it; limits are at least one. -/
def Agrees : SpoolCall → Prop
  | .createAndEnqueue s _ _ =>
    s ≠ "global" ∧ p.CounterFinite s ∧
      p.events.any (·.at s (p.nextSequence inc s)) = false ∧
      0 ≤ p.nextSequence inc s ∧ p.nextSequence inc s ≤ maxSafeInteger
  | .replaceWithGap s sequence event =>
    s ≠ "global" ∧ ∀ e, p.events.find? (·.at s sequence) = some e →
      bytesOf p.events + event.bytes ≤ p.maxBytes + e.bytes
  | .queueGap s _ sequence => sequence = none → p.CounterFinite s
  | .completeGap s gap _ =>
    s ≠ "global" ∧ (normalizeGap gap).endSequence ≠ ⊤ ∧
      ∀ e ∈ p.events,
        e.within s (normalizeGap gap).startSequence (normalizeGap gap).endSequence = true →
        Memory.visits (normalizeGap gap).startSequence (normalizeGap gap).endSequence
          e.sourceSequence = true
  | .readBatch _ maxEvents maxBytes => 1 ≤ maxEvents ∧ 1 ≤ maxBytes
  | .acknowledge s watermark => s ≠ "global" ∧ numeric watermark = watermark
  | .stats s => s ≠ "global"
  | .cleanupSealedSession s => s ≠ "global"
  | _ => True

/-- All calls agree, each in the state that it finds. -/
def AllAgree : IndexedDb → List SpoolCall → Prop
  | _, [] => True
  | p, call :: rest => p.Agrees inc call ∧ AllAgree (p.perform inc call).1 rest

end IndexedDb

/-- The memory holds what the rows say. -/
structure Mirrors (p : IndexedDb) (m : Memory) : Prop where
  maxBytes : m.maxBytes = p.maxBytes
  entries : m.entries = p.events
  sequences : m.sequences = p.sequence
  recovery : m.recovery = p.recovery
  accounted : p.Accounted
  safe : ∀ e ∈ p.events, 0 ≤ e.sourceSequence ∧ e.sourceSequence ≤ maxSafeInteger

namespace Mirrors

variable {p : IndexedDb} {m : Memory} {s : String} {inc : ℚ → ℚ}

theorem empty (maxBytes : ℕ) : Mirrors (.empty maxBytes) (.empty maxBytes) :=
  ⟨rfl, rfl, rfl, rfl, .empty maxBytes, fun _ he => by cases he⟩

theorem nextSequence (h : Mirrors p m) (hfinite : p.CounterFinite s) :
    m.nextSequence inc s = p.nextSequence inc s := by
  rw [Memory.nextSequence, IndexedDb.nextSequence, IndexedDb.counter, hfinite, h.sequences]

theorem stats (h : Mirrors p m) (hs : s ≠ "global") : m.stats s = p.stats s := by
  rw [Memory.stats, IndexedDb.stats, h.entries, h.accounted.usageBytes_session hs,
    h.accounted.usageBytes_all]
  rfl

theorem pendingGaps (h : Mirrors p m) : m.pendingGaps s = p.pendingGaps s := by
  rw [Memory.pendingGaps, IndexedDb.pendingGaps, h.recovery]

theorem createAndEnqueue (h : Mirrors p m) {factory : Number → Option Event} {priority : Bool}
    (hagree : p.Agrees inc (.createAndEnqueue s factory priority)) :
    (m.createAndEnqueue inc s factory priority).2 =
        (p.createAndEnqueue inc s factory priority).2 ∧
      Mirrors (p.createAndEnqueue inc s factory priority).1
        (m.createAndEnqueue inc s factory priority).1 := by
  obtain ⟨hs, hfinite, hnew, hlow, hhigh⟩ := hagree
  have hacc := h.accounted.createAndEnqueue hs inc factory priority
  revert hacc
  unfold Memory.createAndEnqueue IndexedDb.createAndEnqueue
  rw [h.nextSequence hfinite, h.stats hs, h.maxBytes]
  dsimp only
  cases factory (p.nextSequence inc s) with
  | none => exact fun _ => ⟨rfl, h⟩
  | some event =>
    dsimp only
    by_cases hseq : event.sourceSequence = p.nextSequence inc s
    · rw [if_neg (not_not.2 hseq), if_neg (not_not.2 hseq)]
      by_cases hroom : allowedLimit p.maxBytes (priority || event.critical) <
          p.usageBytes globalUsageKey + event.bytes
      · rw [IndexedDb.stats, if_pos hroom, if_pos hroom]
        exact fun _ => ⟨rfl, h⟩
      · rw [IndexedDb.stats, if_neg hroom, if_neg hroom, hnew]
        intro hacc
        refine ⟨rfl, rfl, ?_, ?_, h.recovery, hacc, ?_⟩
        · -- the key is new for the map, too
          have hset : m.setEntry (newEntry s (p.nextSequence inc s) event) =
              p.events ++ [newEntry s (p.nextSequence inc s) event] := by
            rw [Memory.setEntry, h.entries, if_neg]
            intro hany
            exact Bool.noConfusion (hnew.symm.trans hany)
          exact hset
        · exact congrArg (Function.update · s _) h.sequences
        · intro e he
          rcases List.mem_append.1 he with he | he
          · exact h.safe e he
          · rw [List.mem_singleton.1 he]
            exact ⟨hlow, hhigh⟩
    · rw [if_pos hseq, if_pos hseq]
      exact fun _ => ⟨rfl, h⟩

theorem replaceWithGap (h : Mirrors p m) {sequence : Number} {event : Event}
    (hagree : p.Agrees inc (.replaceWithGap s sequence event)) :
    (m.replaceWithGap s sequence event).2 = (p.replaceWithGap s sequence event).2 ∧
      Mirrors (p.replaceWithGap s sequence event).1 (m.replaceWithGap s sequence event).1 := by
  obtain ⟨hs, hfits⟩ := hagree
  have hacc := h.accounted.replaceWithGap hs sequence event
  revert hacc
  unfold Memory.replaceWithGap IndexedDb.replaceWithGap
  rw [h.entries]
  cases hfind : p.events.find? (·.at s sequence) with
  | none => exact fun _ => ⟨rfl, h⟩
  | some existing =>
    dsimp only
    have hroom := hfits existing hfind
    rw [if_neg (by rw [h.accounted.usageBytes_all]; omega)]
    intro hacc
    refine ⟨rfl, h.maxBytes, rfl, h.sequences, h.recovery, hacc, ?_⟩
    intro e he
    obtain ⟨e', he', rfl⟩ := List.mem_map.1 he
    split
    · exact h.safe e' he'
    · exact h.safe e' he'

theorem queueGap (h : Mirrors p m) {gap : GapFields} {sequence : Option Field}
    (hagree : p.Agrees inc (.queueGap s gap sequence)) :
    (m.queueGap inc s gap sequence).2 = (p.queueGap inc s gap sequence).2 ∧
      Mirrors (p.queueGap inc s gap sequence).1 (m.queueGap inc s gap sequence).1 := by
  have hacc := h.accounted.queueGap (s := s) inc gap sequence
  revert hacc
  unfold Memory.queueGap IndexedDb.queueGap
  rw [h.entries, h.recovery]
  cases sequence with
  | none =>
    dsimp only
    rw [h.nextSequence (hagree rfl)]
    split
    · exact fun _ => ⟨rfl, h⟩
    · split
      · exact fun _ => ⟨rfl, h⟩
      · exact fun hacc => ⟨rfl, h.maxBytes, rfl,
          congrArg (Function.update · s _) h.sequences, rfl, hacc, h.safe⟩
  | some field =>
    dsimp only
    split
    · exact fun _ => ⟨rfl, h⟩
    · split
      · exact fun _ => ⟨rfl, h⟩
      · exact fun hacc => ⟨rfl, h.maxBytes, rfl, h.sequences, rfl, hacc, h.safe⟩

/-- The loop stays within the range. -/
theorem le_of_visits {first last x : Number} (h : Memory.visits first last x = true) :
    first ≤ x ∧ x ≤ last := by
  unfold Memory.visits at h
  split at h
  · rw [Bool.and_eq_true, Bool.and_eq_true, decide_eq_true_eq, decide_eq_true_eq] at h
    exact ⟨WithTop.coe_le_coe.2 h.1, h.2.1⟩
  · cases h

theorem completeGap (h : Mirrors p m) {gap : GapFields} {watermark : Number}
    (hagree : p.Agrees inc (.completeGap s gap watermark)) :
    ∃ m', m.completeGap s gap watermark = some (m', (p.completeGap s gap watermark).2) ∧
      Mirrors (p.completeGap s gap watermark).1 m' := by
  obtain ⟨hs, hend, hvisits⟩ := hagree
  have hdeleted : (m.entries.filter fun e => !(e.sessionId = s &&
      Memory.visits (normalizeGap gap).startSequence (normalizeGap gap).endSequence
        e.sourceSequence)) =
      p.events.filter fun e =>
        !e.within s (normalizeGap gap).startSequence (normalizeGap gap).endSequence := by
    rw [h.entries]
    refine List.filter_congr fun e he => congrArg not ?_
    rw [Bool.eq_iff_iff]
    constructor
    · intro hv
      rw [Bool.and_eq_true, decide_eq_true_eq] at hv
      rw [Entry.within, Bool.and_eq_true, Bool.and_eq_true, decide_eq_true_eq, decide_eq_true_eq,
        decide_eq_true_eq]
      exact ⟨hv.1, le_of_visits hv.2⟩
    · intro hw
      rw [Bool.and_eq_true]
      refine ⟨?_, hvisits e he hw⟩
      rw [Entry.within, Bool.and_eq_true] at hw
      exact hw.1
  rw [Memory.completeGap, if_neg hend, h.recovery, hdeleted]
  refine ⟨_, rfl, h.maxBytes, rfl, h.sequences, rfl,
    (h.accounted.deleteRange hs _ _).congr rfl rfl rfl, ?_⟩
  exact fun e he => h.safe e (List.mem_of_mem_filter he)

theorem readBatch (h : Mirrors p m) {maxEvents maxBytes : ℕ} (hevents : 1 ≤ maxEvents)
    (hbytes : 1 ≤ maxBytes) : m.readBatch s maxEvents maxBytes =
    p.readBatch s maxEvents maxBytes := by
  have hfilter : p.events.filter (·.within s 0 maxSafeInteger) =
      p.events.filter (·.sessionId = s) := by
    refine List.filter_congr fun e he => ?_
    obtain ⟨hlow, hhigh⟩ := h.safe e he
    simp [Entry.within, hlow, hhigh]
  rw [Memory.readBatch, IndexedDb.readBatch, h.entries, hfilter, max_eq_right hevents,
    max_eq_right hbytes]

/-- A deletion leaves the rest in the usage rows. -/
theorem usageBytes_deleteRange (first last : Number) :
    (p.deleteRange s first last).usageBytes globalUsageKey =
        p.usageBytes globalUsageKey - bytesOf (p.events.filter (·.within s first last)) ∧
      (s ≠ "global" → (p.deleteRange s first last).usageBytes (usageMetaKey s) =
        p.usageBytes (usageMetaKey s) - bytesOf (p.events.filter (·.within s first last))) := by
  have hrow : (p.deleteRange s first last).usage =
      Function.update (Function.update p.usage (usageMetaKey s)
        (some (max 0 (p.usageBytes (usageMetaKey s) -
          bytesOf (p.events.filter (·.within s first last))))))
        globalUsageKey (some (max 0 (p.usageBytes globalUsageKey -
          bytesOf (p.events.filter (·.within s first last))))) := rfl
  constructor
  · rw [IndexedDb.usageBytes, hrow, Function.update_self, Option.getD_some]
    omega
  · intro hs
    rw [IndexedDb.usageBytes, hrow,
      Function.update_of_ne fun hk => hs (usageMetaKey_eq_global.1 hk), Function.update_self,
      Option.getD_some]
    omega

theorem acknowledge (h : Mirrors p m) {watermark : Number}
    (hagree : p.Agrees inc (.acknowledge s watermark)) :
    (m.acknowledge s watermark).2 = (p.acknowledge s watermark).2 ∧
      Mirrors (p.acknowledge s watermark).1 (m.acknowledge s watermark).1 := by
  obtain ⟨hs, hfinite⟩ := hagree
  have hwithin : ∀ e ∈ p.events,
      (decide (e.sessionId = s) && decide (e.sourceSequence ≤ watermark)) =
        e.within s 0 (numeric watermark) := by
    intro e he
    rw [hfinite, Entry.within, decide_eq_true (h.safe e he).1, Bool.true_and]
  have hdeleted : (m.entries.filter fun e =>
      decide (e.sessionId = s) && decide (e.sourceSequence ≤ watermark)) =
        p.events.filter (·.within s 0 (numeric watermark)) := by
    rw [h.entries]
    exact List.filter_congr hwithin
  have hkept : (m.entries.filter fun e =>
      !(decide (e.sessionId = s) && decide (e.sourceSequence ≤ watermark))) =
        p.events.filter fun e => !e.within s 0 (numeric watermark) := by
    rw [h.entries]
    exact List.filter_congr fun e he => congrArg not (hwithin e he)
  have hacc := h.accounted.deleteRange hs 0 (numeric watermark)
  have hrecovery : (m.acknowledge s watermark).1.recovery =
      (p.acknowledge s watermark).1.recovery := by
    rw [Memory.acknowledge, IndexedDb.acknowledge, h.recovery]
  have hmirror : Mirrors (p.acknowledge s watermark).1 (m.acknowledge s watermark).1 :=
    ⟨h.maxBytes, hkept, h.sequences, hrecovery, hacc.congr rfl rfl rfl,
      fun e he => h.safe e (List.mem_of_mem_filter he)⟩
  refine ⟨?_, hmirror⟩
  have hstats := hmirror.stats hs
  obtain ⟨hall, hsession⟩ := usageBytes_deleteRange (p := p) (s := s) 0 (numeric watermark)
  have husage : ((m.acknowledge s watermark).1.stats s).queueBytes =
      p.usageBytes (usageMetaKey s) - bytesOf
          (p.events.filter (·.within s 0 (numeric watermark))) := by
    rw [hstats]
    exact hsession hs
  have hglobal : ((m.acknowledge s watermark).1.stats s).globalQueueBytes =
      p.usageBytes globalUsageKey - bytesOf
          (p.events.filter (·.within s 0 (numeric watermark))) := by
    rw [hstats]
    exact hall
  have hreport : (m.acknowledge s watermark).2 =
      ⟨(p.events.filter (·.within s 0 (numeric watermark))).length,
        bytesOf (p.events.filter (·.within s 0 (numeric watermark))),
        ((m.acknowledge s watermark).1.stats s).queueBytes,
        ((m.acknowledge s watermark).1.stats s).globalQueueBytes⟩ := by
    rw [← hdeleted]
    rfl
  rw [hreport, husage, hglobal]
  rfl

theorem markCloseState (h : Mirrors p m) (closed : Bool) :
    Mirrors (p.markCloseState s closed) (m.markCloseState s closed) := by
  have hrecovery : (m.markCloseState s closed).recovery = (p.markCloseState s closed).recovery := by
    rw [Memory.markCloseState, IndexedDb.markCloseState, h.recovery]
  exact ⟨h.maxBytes, h.entries, h.sequences, hrecovery, h.accounted.congr rfl rfl rfl, h.safe⟩

theorem cleanupSealedSession (h : Mirrors p m) (hs : s ≠ "global") :
    (m.cleanupSealedSession s).2 = (p.cleanupSealedSession s).2 ∧
      Mirrors (p.cleanupSealedSession s).1 (m.cleanupSealedSession s).1 := by
  unfold Memory.cleanupSealedSession IndexedDb.cleanupSealedSession
  rw [h.stats hs, h.recovery, h.pendingGaps]
  by_cases hdepth : 0 < (p.stats s).queueDepth
  · rw [if_pos (Or.inl hdepth), if_pos hdepth]
    exact ⟨rfl, h⟩
  · rw [if_neg hdepth]
    by_cases hforget : p.canForget s = true
    · have hboth := hforget
      rw [IndexedDb.canForget, Bool.and_eq_true] at hboth
      have hmemory : ¬ (0 < (p.stats s).queueDepth ∨
          ((p.recovery s).getD .none).closed = false ∨ (p.pendingGaps s).isEmpty = false) := by
        rintro (hd | hc | hp)
        · exact hdepth hd
        · exact Bool.false_ne_true (hc.symm.trans hboth.1)
        · exact Bool.false_ne_true (hp.symm.trans hboth.2)
      rw [if_neg hmemory, if_neg (by rw [hforget]; decide)]
      -- no event of the session is left
      have hnone : ∀ e ∈ p.events, e.sessionId ≠ s := by
        intro e he hes
        refine hdepth (List.length_pos_of_mem (a := e) (List.mem_filter.2 ⟨he, ?_⟩))
        exact decide_eq_true hes
      exact ⟨rfl, h.maxBytes, h.entries, congrArg (Function.update · s _) h.sequences,
        rfl, h.accounted.forget hs hnone, h.safe⟩
    · rw [Bool.not_eq_true] at hforget
      have hone := hforget
      rw [IndexedDb.canForget, Bool.and_eq_false_iff] at hone
      rw [if_pos (Or.inr hone), if_pos hforget]
      exact ⟨rfl, h⟩

/-- A call that agrees has the same outcome on both spools. -/
theorem perform (h : Mirrors p m) {call : SpoolCall} (hagree : p.Agrees inc call) :
    ∃ m', m.perform inc call = some (m', (p.perform inc call).2) ∧
      Mirrors (p.perform inc call).1 m' := by
  cases call with
  | createAndEnqueue s factory priority =>
    obtain ⟨heq, hmirror⟩ := h.createAndEnqueue hagree
    exact ⟨_, congrArg (fun r => some (_, Outcome.enqueued r)) heq, hmirror⟩
  | replaceWithGap s sequence event =>
    obtain ⟨heq, hmirror⟩ := h.replaceWithGap hagree
    exact ⟨_, congrArg (fun r => some (_, Outcome.done r)) heq, hmirror⟩
  | queueGap s gap sequence =>
    obtain ⟨heq, hmirror⟩ := h.queueGap hagree
    exact ⟨_, congrArg (fun r => some (_, Outcome.queued r)) heq, hmirror⟩
  | pendingGaps s => exact ⟨m, congrArg (fun r => some (m, Outcome.gaps r)) h.pendingGaps, h⟩
  | completeGap s gap watermark =>
    obtain ⟨m', heq, hmirror⟩ := h.completeGap hagree
    exact ⟨m', by rw [Memory.perform, heq]; rfl, hmirror⟩
  | readBatch s maxEvents maxBytes =>
    exact ⟨m, congrArg (fun r => some (m, Outcome.batch r)) (h.readBatch hagree.1 hagree.2), h⟩
  | acknowledge s watermark =>
    obtain ⟨heq, hmirror⟩ := h.acknowledge hagree
    exact ⟨_, congrArg (fun r => some (_, Outcome.acknowledged r)) heq, hmirror⟩
  | markCloseState s closed => exact ⟨_, rfl, h.markCloseState closed⟩
  | stats s => exact ⟨m, congrArg (fun r => some (m, Outcome.stats r)) (h.stats hagree), h⟩
  | cleanupSealedSession s =>
    obtain ⟨heq, hmirror⟩ := h.cleanupSealedSession hagree
    exact ⟨_, congrArg (fun r => some (_, Outcome.done r)) heq, hmirror⟩

/-- So have sequences of them. -/
theorem outcomes (h : Mirrors p m) {calls : List SpoolCall}
    (hagree : IndexedDb.AllAgree inc p calls) :
    m.outcomes inc calls = some (p.outcomes inc calls) := by
  induction calls generalizing p m with
  | nil => rfl
  | cons call rest ih =>
    obtain ⟨hcall, hrest⟩ := hagree
    obtain ⟨m', heq, hmirror⟩ := h.perform hcall
    rw [Memory.outcomes, heq]
    dsimp only
    rw [ih hmirror hrest]
    rfl

end Mirrors

/-- Every sequence of calls that agree has the same outcomes on both spools. -/
theorem memory_mirrors (inc : ℚ → ℚ) (maxBytes : ℕ) (calls : List SpoolCall)
    (h : IndexedDb.AllAgree inc (.empty maxBytes) calls) :
    (Memory.empty maxBytes).outcomes inc calls =
      some ((IndexedDb.empty maxBytes).outcomes inc calls) :=
  (Mirrors.empty maxBytes).outcomes h

/-- An event of a session is stored, read, acknowledged and counted. -/
def fewCalls : List SpoolCall :=
  [.createAndEnqueue "session" tenBytes false, .readBatch "session" 4 100,
    .acknowledge "session" 1, .stats "session"]

theorem memory_mirrors_few :
    (Memory.empty 1000000).outcomes (· + 1) fewCalls =
      some ((IndexedDb.empty 1000000).outcomes (· + 1) fewCalls) := by
  refine memory_mirrors (· + 1) 1000000 fewCalls ⟨⟨by decide, ?_, rfl, ?_, ?_⟩, ?_⟩
  · rw [IndexedDb.CounterFinite]
    decide +kernel
  · decide +kernel
  · decide +kernel
  · refine ⟨⟨by decide, by decide⟩, ⟨by decide, ?_⟩, ?_, trivial⟩
    · decide +kernel
    · rw [IndexedDb.Agrees]
      decide

/-- A small event is stored and replaced by one that does not fit. -/
def oversizedReplacement : List SpoolCall :=
  [.createAndEnqueue "session" tenBytes false,
    .replaceWithGap "session" 1 ⟨"gap", 1, 1000001, true⟩, .stats "session"]

/-- The memory replaces the event and is above `maxBytes`; IndexedDB refuses. -/
theorem replaced_beyond_limit :
    (IndexedDb.empty 1000000).outcomes (· + 1) oversizedReplacement =
      [.enqueued (.stored 1 10 10 10), .done false, .stats ⟨1, 10, 10⟩] ∧
    (Memory.empty 1000000).outcomes (· + 1) oversizedReplacement =
      some [.enqueued (.stored 1 10 10 10), .done true, .stats ⟨1, 1000001, 1000001⟩] := by
  constructor
  · decide +kernel
  · decide +kernel

end Spool
