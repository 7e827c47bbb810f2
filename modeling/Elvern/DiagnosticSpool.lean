/-
The client spools of diagnostic events (`indexedDbSpool.js`).

Two stores of the same operations: `IndexedDb`, whose counters and usage totals
are rows of a metadata store, and `Memory`, the fallback, which keeps its entries
in maps and adds up their bytes when it is asked.  An operation is one
transaction; an aborted one leaves the spool as it was.

A number that comes from a caller is a `Field`.  Numbers are exact, except that
the step to the next sequence is a function `inc`, the rounded addition of one.
-/
import Mathlib.Algebra.Order.Ring.Rat
import Mathlib.Data.Rat.Floor
import Mathlib.Order.WithBot

namespace Spool

/-- A number: a finite one or `Infinity`. -/
abbrev Number := WithTop ℚ

/-- A number field of a caller's object. -/
inductive Field where
  /-- `undefined` or `null` -/
  | absent
  /-- Not a number, or `-Infinity`. -/
  | nan
  | number (x : Number)
  deriving DecidableEq

/-- `Number(field) || other` -/
def Field.orElse (field : Field) (other : Number) : Number :=
  match field with
  | .number x => if x = 0 then other else x
  | _ => other

/-- `field ?? other` -/
def Field.default (field : Field) (other : Number) : Field :=
  match field with
  | .absent => .number other
  | f => f

/-- `numeric` -/
def numeric (x : Number) : Number := if x ≠ ⊤ ∧ 0 ≤ x then x else 0

/-- `Number.MAX_SAFE_INTEGER` -/
def maxSafeInteger : Number := ((9007199254740991 : ℚ) : Number)

/-- `PLAYBACK_DIAGNOSTICS_MAX_PENDING_GAPS` -/
def maxPendingGaps : ℕ := 128

/-- `Math.floor(maxBytes * (1 - PLAYBACK_DIAGNOSTICS_CRITICAL_RESERVE_RATIO))` -/
def normalLimit (maxBytes : ℕ) : ℕ := maxBytes * 9 / 10

/-- The limit for an event. -/
def allowedLimit (maxBytes : ℕ) (critical : Bool) : ℕ :=
  if critical then maxBytes else normalLimit maxBytes

/-- An event; `bytes` is `encodedBytes`. -/
structure Event where
  eventId : String
  sourceSequence : Number
  bytes : ℕ
  critical : Bool
  deriving DecidableEq

/-- An entry of the store, under the session and the sequence. -/
structure Entry where
  sessionId : String
  sourceSequence : Number
  event : Event
  bytes : ℕ
  critical : Bool
  deriving DecidableEq

/-- The gap that a caller passes. -/
structure GapFields where
  startSequence : Field
  endSequence : Field
  reasonCode : String

/-- A normalized gap. -/
structure Gap where
  startSequence : Number
  endSequence : Number
  reasonCode : String
  deriving DecidableEq

/-- `normalizeGap` -/
def normalizeGap (gap : GapFields) : Gap :=
  let start := max 1 (gap.startSequence.orElse 0)
  { startSequence := start
    endSequence := max start (gap.endSequence.orElse start)
    reasonCode := if gap.reasonCode = "" then "client_storage_failure" else gap.reasonCode }

/-- The gap that `queueGap` allocates or records. -/
def normalizeQueued (gap : GapFields) (next : Number) : Gap :=
  normalizeGap
    { gap with
      startSequence := gap.startSequence.default next
      endSequence := gap.endSequence.default next }

/-- The row of the recovery state. -/
structure Recovery where
  pendingGaps : List Gap
  lastDurableAck : Number
  closed : Bool
  deriving DecidableEq

/-- The recovery state of a session that has no row. -/
def Recovery.none : Recovery := ⟨[], 0, false⟩

/-- `boundedPendingGaps` -/
def boundedPendingGaps (recovery : Recovery) : List Gap := recovery.pendingGaps.take maxPendingGaps

/-- The recovery state with one more gap; `none` where the ledger is full. -/
def Recovery.queue (recovery : Recovery) (gap : Gap) : Option Recovery :=
  let pending := boundedPendingGaps recovery
  if gap ∈ pending then some { recovery with pendingGaps := pending }
  else if maxPendingGaps ≤ pending.length then Option.none
  else some { recovery with pendingGaps := pending ++ [gap] }

/-- The recovery state without a gap that is complete. -/
def Recovery.complete (recovery : Recovery) (gap : Gap) (watermark : Number) : Recovery :=
  { recovery with
    pendingGaps := (boundedPendingGaps recovery).filter (· ≠ gap)
    lastDurableAck := max (numeric recovery.lastDurableAck) (numeric watermark) }

/-- The recovery state after an acknowledgement. -/
def Recovery.acknowledge (recovery : Recovery) (watermark : Number) : Recovery :=
  { recovery with
    lastDurableAck := max (numeric recovery.lastDurableAck) (numeric watermark) }

/-- The entry under a session and a sequence. -/
def Entry.at (e : Entry) (sessionId : String) (sequence : Number) : Bool :=
  e.sessionId = sessionId && e.sourceSequence = sequence

/-- The entry of a session within a range of sequences. -/
def Entry.within (e : Entry) (sessionId : String) (first last : Number) : Bool :=
  e.sessionId = sessionId && (first ≤ e.sourceSequence && e.sourceSequence ≤ last)

/-- The bytes of some entries. -/
def bytesOf (entries : List Entry) : ℕ := (entries.map Entry.bytes).sum

/-- The entry of a new event. -/
def newEntry (sessionId : String) (sequence : Number) (event : Event) : Entry :=
  ⟨sessionId, sequence, event, event.bytes, event.critical⟩

/-- The entry of an event that replaces another one. -/
def Entry.replaced (e : Entry) (event : Event) : Entry :=
  { e with event := event, bytes := event.bytes, critical := true }

/-- What `createAndEnqueue` reports; the usage is that of the session and of all. -/
inductive Enqueued where
  | stored (sequence : Number) (bytes usage globalUsage : ℕ)
  | rejected (critical : Bool) (usage globalUsage : ℕ)
  | thrown
  deriving DecidableEq

/-- The entries that a batch takes from the ordered ones: at least one, at most
`maxEvents`, and no more than `maxBytes` from the second on. -/
def takeBatch (maxEvents maxBytes : ℕ) : List Entry → List Entry → List Entry
  | taken, [] => taken
  | taken, e :: rest =>
    if maxEvents ≤ taken.length then taken
    else if taken ≠ [] ∧ maxBytes < bytesOf taken + e.bytes then taken
    else takeBatch maxEvents maxBytes (taken ++ [e]) rest

/-- In the order of the sequences. -/
def inOrder (entries : List Entry) : List Entry :=
  entries.mergeSort fun e e' => e.sourceSequence ≤ e'.sourceSequence

/-- What `acknowledge` reports. -/
structure Acknowledged where
  deletedEvents : ℕ
  deletedBytes : ℕ
  usage : ℕ
  globalUsage : ℕ
  deriving DecidableEq

/-- What `stats` reports. -/
structure Stats where
  queueDepth : ℕ
  queueBytes : ℕ
  globalQueueBytes : ℕ
  deriving DecidableEq

/-! ### The spool in IndexedDB -/

/-- The event store and the rows of the metadata store; the usage rows are under
their whole keys. -/
structure IndexedDb where
  maxBytes : ℕ
  events : List Entry
  sequence : String → Option Number
  usage : String → Option ℤ
  recovery : String → Option Recovery

/-- `GLOBAL_USAGE_KEY` -/
def globalUsageKey : String := "usage:global"

/-- `usageMetaKey` -/
def usageMetaKey (sessionId : String) : String := "usage:" ++ sessionId

namespace IndexedDb

variable (p : IndexedDb) (inc : ℚ → ℚ) (sessionId : String)

/-- A spool without rows. -/
def empty (maxBytes : ℕ) : IndexedDb where
  maxBytes := maxBytes
  events := []
  sequence _ := none
  usage _ := none
  recovery _ := none

/-- `numeric(row?.bytes)` of a usage row. -/
def usageBytes (key : String) : ℕ := ((p.usage key).getD 0).toNat

/-- `numeric(sequenceRow?.value)` -/
def counter : Number := numeric ((p.sequence sessionId).getD 0)

/-- `numeric(sequenceRow?.value) + 1` -/
def nextSequence : Number := (p.counter sessionId).map inc

/-- The two usage rows are written, that of the session first. -/
def putUsage (session all : ℤ) : IndexedDb :=
  { p with
    usage := Function.update (Function.update p.usage (usageMetaKey sessionId) (some session))
      globalUsageKey (some all) }

/-- `createAndEnqueue` -/
def createAndEnqueue (factory : Number → Option Event) (priority : Bool) : IndexedDb × Enqueued :=
  let sequence := p.nextSequence inc sessionId
  match factory sequence with
  | none => (p, .thrown)
  | some event =>
    if event.sourceSequence ≠ sequence then (p, .thrown)
    else
      let critical := priority || event.critical
      let usage := p.usageBytes (usageMetaKey sessionId)
      let globalUsage := p.usageBytes globalUsageKey
      if allowedLimit p.maxBytes critical < globalUsage + event.bytes then
        (p, .rejected critical usage globalUsage)
      -- `add` does not overwrite
      else if p.events.any (·.at sessionId sequence) then (p, .thrown)
      else
        ({ p.putUsage sessionId (usage + event.bytes : ℕ) (globalUsage + event.bytes : ℕ) with
            events := p.events ++ [newEntry sessionId sequence event]
            sequence := Function.update p.sequence sessionId (some sequence) },
          .stored sequence event.bytes (usage + event.bytes) (globalUsage + event.bytes))

/-- `replaceWithGap` -/
def replaceWithGap (sequence : Number) (event : Event) : IndexedDb × Bool :=
  match p.events.find? (·.at sessionId sequence) with
  | none => (p, false)
  | some existing =>
    let delta : ℤ := event.bytes - existing.bytes
    let globalUsage : ℤ := p.usageBytes globalUsageKey
    if p.maxBytes < globalUsage + delta then (p, false)
    else
      ({ p.putUsage sessionId (p.usageBytes (usageMetaKey sessionId) + delta)
            (globalUsage + delta) with
          events := p.events.map fun e =>
            if e.at sessionId sequence then e.replaced event else e },
        true)

/-- `queueGap`; `none` where the transaction is aborted. -/
def queueGap (gap : GapFields) (sequence : Option Field) : IndexedDb × Option Gap :=
  let next :=
    match sequence with
    | none => p.nextSequence inc sessionId
    | some s => max 1 (s.orElse 1)
  let normalized := normalizeQueued gap next
  if sequence.isSome ∧ p.events.any (·.at sessionId next) = false then (p, none)
  else
    match ((p.recovery sessionId).getD .none).queue normalized with
    | none => (p, none)
    | some recovery =>
      ({ p with
          sequence :=
            if sequence.isSome then p.sequence
            else Function.update p.sequence sessionId (some normalized.endSequence)
          recovery := Function.update p.recovery sessionId (some recovery) },
        some normalized)

/-- `pendingGaps` -/
def pendingGaps : List Gap := boundedPendingGaps ((p.recovery sessionId).getD .none)

/-- The entries within a range are deleted, and the usage rows are lowered. -/
def deleteRange (first last : Number) : IndexedDb :=
  let deleted : ℤ := bytesOf (p.events.filter (·.within sessionId first last))
  { p.putUsage sessionId (max 0 (p.usageBytes (usageMetaKey sessionId) - deleted))
      (max 0 (p.usageBytes globalUsageKey - deleted)) with
    events := p.events.filter fun e => !e.within sessionId first last }

/-- `completeGap` -/
def completeGap (gap : GapFields) (watermark : Number) : IndexedDb × Recovery :=
  let normalized := normalizeGap gap
  let recovery := ((p.recovery sessionId).getD .none).complete normalized watermark
  ({ p.deleteRange sessionId normalized.startSequence normalized.endSequence with
      recovery := Function.update p.recovery sessionId (some recovery) },
    recovery)

/-- `readBatch` -/
def readBatch (maxEvents maxBytes : ℕ) : List Entry :=
  takeBatch (max 1 maxEvents) (max 1 maxBytes) []
    (inOrder (p.events.filter (·.within sessionId 0 maxSafeInteger)))

/-- `acknowledge` -/
def acknowledge (watermark : Number) : IndexedDb × Acknowledged :=
  let deleted := p.events.filter (·.within sessionId 0 (numeric watermark))
  let recovery := ((p.recovery sessionId).getD .none).acknowledge watermark
  let q := p.deleteRange sessionId 0 (numeric watermark)
  ({ q with recovery := Function.update p.recovery sessionId (some recovery) },
    { deletedEvents := deleted.length
      deletedBytes := bytesOf deleted
      usage := p.usageBytes (usageMetaKey sessionId) - bytesOf deleted
      globalUsage := p.usageBytes globalUsageKey - bytesOf deleted })

/-- `markCloseState`; only `sealed` is told apart. -/
def markCloseState (closed : Bool) : IndexedDb :=
  { p with
    recovery := Function.update p.recovery sessionId
      (some { (p.recovery sessionId).getD .none with closed := closed }) }

/-- `stats` -/
def stats : Stats where
  queueDepth := (p.events.filter (·.sessionId = sessionId)).length
  queueBytes := p.usageBytes (usageMetaKey sessionId)
  globalQueueBytes := p.usageBytes globalUsageKey

/-- The recovery state that `cleanupSealedSession` asks for. -/
def canForget : Bool :=
  ((p.recovery sessionId).getD .none).closed && (p.pendingGaps sessionId).isEmpty

/-- The rows of a session are deleted: the last transaction of `cleanupSealedSession`. -/
def forget : IndexedDb :=
  { p with
    sequence := Function.update p.sequence sessionId none
    usage := Function.update p.usage (usageMetaKey sessionId) none
    recovery := Function.update p.recovery sessionId none }

/-- `cleanupSealedSession`, when nothing comes between its transactions. -/
def cleanupSealedSession : IndexedDb × Bool :=
  if 0 < (p.stats sessionId).queueDepth then (p, false)
  else if p.canForget sessionId = false then (p, false)
  else (p.forget sessionId, true)

end IndexedDb

/-! ### The spool in memory -/

structure Memory where
  maxBytes : ℕ
  entries : List Entry
  sequences : String → Option Number
  recovery : String → Option Recovery

namespace Memory

variable (m : Memory) (inc : ℚ → ℚ) (sessionId : String)

/-- A spool without entries. -/
def empty (maxBytes : ℕ) : Memory where
  maxBytes := maxBytes
  entries := []
  sequences _ := none
  recovery _ := none

/-- `(this.sequences.get(sessionId) || 0) + 1` -/
def nextSequence : Number := ((m.sequences sessionId).getD 0).map inc

/-- `stats` -/
def stats : Stats where
  queueDepth := (m.entries.filter (·.sessionId = sessionId)).length
  queueBytes := bytesOf (m.entries.filter (·.sessionId = sessionId))
  globalQueueBytes := bytesOf m.entries

/-- `entries.set(key, entry)` -/
def setEntry (entry : Entry) : List Entry :=
  if m.entries.any (·.at entry.sessionId entry.sourceSequence) then
    m.entries.map fun e => if e.at entry.sessionId entry.sourceSequence then entry else e
  else m.entries ++ [entry]

/-- `createAndEnqueue` -/
def createAndEnqueue (factory : Number → Option Event) (priority : Bool) : Memory × Enqueued :=
  let sequence := m.nextSequence inc sessionId
  match factory sequence with
  | none => (m, .thrown)
  | some event =>
    if event.sourceSequence ≠ sequence then (m, .thrown)
    else
      let stats := m.stats sessionId
      let critical := priority || event.critical
      if allowedLimit m.maxBytes critical < stats.globalQueueBytes + event.bytes then
        (m, .rejected critical stats.queueBytes stats.globalQueueBytes)
      else
        ({ m with
            entries := m.setEntry (newEntry sessionId sequence event)
            sequences := Function.update m.sequences sessionId (some sequence) },
          .stored sequence event.bytes (stats.queueBytes + event.bytes)
            (stats.globalQueueBytes + event.bytes))

/-- `replaceWithGap` -/
def replaceWithGap (sequence : Number) (event : Event) : Memory × Bool :=
  match m.entries.find? (·.at sessionId sequence) with
  | none => (m, false)
  | some _ =>
    ({ m with
        entries := m.entries.map fun e =>
          if e.at sessionId sequence then e.replaced event else e },
      true)

/-- `queueGap` -/
def queueGap (gap : GapFields) (sequence : Option Field) : Memory × Option Gap :=
  let next :=
    match sequence with
    | none => m.nextSequence inc sessionId
    | some s => max 1 (s.orElse 1)
  if sequence.isSome ∧ m.entries.any (·.at sessionId next) = false then (m, none)
  else
    let normalized := normalizeQueued gap next
    match ((m.recovery sessionId).getD .none).queue normalized with
    | none => (m, none)
    | some recovery =>
      ({ m with
          sequences :=
            if sequence.isSome then m.sequences
            else Function.update m.sequences sessionId (some normalized.endSequence)
          recovery := Function.update m.recovery sessionId (some recovery) },
        some normalized)

/-- `pendingGaps` -/
def pendingGaps : List Gap := boundedPendingGaps ((m.recovery sessionId).getD .none)

/-- The loop of `completeGap` comes to the sequence: it starts at `first` and adds one
until it is past `last`. -/
def visits (first last sequence : Number) : Bool :=
  match first, sequence with
  | (first : ℚ), (sequence : ℚ) =>
    first ≤ sequence && (decide ((sequence : Number) ≤ last) && (sequence - first).den = 1)
  | _, _ => false

/-- `completeGap`; the loop does not end at a gap without an end, and there is no result. -/
def completeGap (gap : GapFields) (watermark : Number) : Option (Memory × Recovery) :=
  let normalized := normalizeGap gap
  if normalized.endSequence = ⊤ then none
  else
    let recovery := ((m.recovery sessionId).getD .none).complete normalized watermark
    some
      ({ m with
          entries := m.entries.filter fun e =>
            !(e.sessionId = sessionId &&
              visits normalized.startSequence normalized.endSequence e.sourceSequence)
          recovery := Function.update m.recovery sessionId (some recovery) },
        recovery)

/-- `readBatch` -/
def readBatch (maxEvents maxBytes : ℕ) : List Entry :=
  takeBatch maxEvents maxBytes [] (inOrder (m.entries.filter (·.sessionId = sessionId)))

/-- `acknowledge` -/
def acknowledge (watermark : Number) : Memory × Acknowledged :=
  let deleted := m.entries.filter fun e => e.sessionId = sessionId && e.sourceSequence ≤ watermark
  let recovery := ((m.recovery sessionId).getD .none).acknowledge watermark
  let q : Memory :=
    { m with
      entries := m.entries.filter fun e =>
        !(e.sessionId = sessionId && e.sourceSequence ≤ watermark)
      recovery := Function.update m.recovery sessionId (some recovery) }
  (q,
    { deletedEvents := deleted.length
      deletedBytes := bytesOf deleted
      usage := (q.stats sessionId).queueBytes
      globalUsage := (q.stats sessionId).globalQueueBytes })

/-- `markCloseState` -/
def markCloseState (closed : Bool) : Memory :=
  { m with
    recovery := Function.update m.recovery sessionId
      (some { (m.recovery sessionId).getD .none with closed := closed }) }

/-- `cleanupSealedSession` -/
def cleanupSealedSession : Memory × Bool :=
  if 0 < (m.stats sessionId).queueDepth ∨ ((m.recovery sessionId).getD .none).closed = false ∨
      (m.pendingGaps sessionId).isEmpty = false then (m, false)
  else
    ({ m with
        sequences := Function.update m.sequences sessionId none
        recovery := Function.update m.recovery sessionId none },
      true)

end Memory

end Spool
