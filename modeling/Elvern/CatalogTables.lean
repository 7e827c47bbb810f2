/-
The catalog of diagnostic events with all its sources (`playback_diagnostics/catalog.py`).

Every call is one transaction under the lock of the catalog; where it raises, the connection rolls
it back.

* `Tables`, `Tables.call` — the tables, and the calls that write events and gaps;
* `Tables.view` — the rows of one source;
* `Marked` — up to the watermark everything is recorded or declared, and what comes next is not;
* `Right` — the watermarks and maxima of all sources;
* `ack_watermark` — they are right after every run of calls, and a call that raises changes nothing.
-/
import Mathlib.Order.Bounds.Basic
import Mathlib.Data.List.Nodup
import Mathlib.Data.List.Dedup
import Elvern.DiagnosticCatalog
import Elvern.Runs

open Runs

namespace Diagnostics

/-! ### The tables -/

/-- Keys of two columns. -/
instance lawfulKeys : LawfulBEq (String × ℕ) := inferInstance

/-- A row of `diagnostic_sources`. -/
structure SourceRow where
  sourceId : String
  playbackSessionId : String
  ackWatermark : ℕ
  maxSeenSequence : ℕ
  duplicateCount : ℕ
  outOfOrderCount : ℕ
  deriving DecidableEq

/-- A row of `diagnostic_events`, with the columns that are read again. -/
structure EventRow where
  eventId : String
  playbackSessionId : String
  sourceId : String
  sourceSequence : ℕ
  deriving DecidableEq

/-- A row of `diagnostic_source_gaps`. -/
structure GapRow where
  sourceId : String
  gap : SourceGap
  declarationOrigin : String
  deriving DecidableEq

/-- The tables; a chunk is its key. -/
structure Tables where
  sessions : List String
  sources : List SourceRow
  events : List EventRow
  gaps : List GapRow
  chunks : List (String × ℕ)
  deriving DecidableEq

/-- The catalog of the sessions, before any source. -/
def Tables.fresh (sessions : List String) : Tables := ⟨sessions, [], [], [], []⟩

inductive CatalogError
  | sourceNotRegistered
  | missingField
  | foreignKey
  | conflictingEvent
  | invalidGapRange
  | gapOverlapsEvent
  | conflictingGap
  deriving DecidableEq

/-- The text of the error; a missing field and a foreign key have texts of their own. -/
def CatalogError.text : CatalogError → String
  | .sourceNotRegistered => "Diagnostics source is not registered"
  | .missingField => ""
  | .foreignKey => ""
  | .conflictingEvent => "Conflicting diagnostics event identity or source sequence"
  | .invalidGapRange => "Invalid diagnostics source gap range"
  | .gapOverlapsEvent => "Diagnostics gap overlaps a durable event"
  | .conflictingGap => "Conflicting diagnostics source gap declaration"

/-- A field of an event. -/
inductive Field
  | missing
  | null
  | value (text : String)
  deriving DecidableEq

/-- An event as `record_events` reads it. -/
structure CatalogEvent where
  eventId : String
  sourceSequence : ℕ
  eventName : Field
  eventSource : Field
  deriving DecidableEq

/-- `str(value)[:length]` -/
def truncated (length : ℕ) (value : String) : String := String.ofList (value.toList.take length)

namespace Tables

variable (t : Tables)

/-- The rows of a source. -/
def view (sourceId : String) : Catalog where
  events := (t.events.filter (·.sourceId = sourceId)).map fun r => (r.eventId, r.sourceSequence)
  gaps := (t.gaps.filter (·.sourceId = sourceId)).map GapRow.gap
  ackWatermark := 0

def source (sourceId : String) : Option SourceRow := t.sources.find? (·.sourceId = sourceId)

def updateSource (sourceId : String) (f : SourceRow → SourceRow) : Tables :=
  { t with sources := t.sources.map fun r => if r.sourceId = sourceId then f r else r }

/-- `_advance_watermark_in_connection` -/
def advanceWatermark (sourceId : String) (watermark : ℕ) : ℕ :=
  (t.view sourceId).advance (t.view sourceId).bound watermark

/-- `_classify_event_in_connection` -/
def classifyEvent (eventId sourceId : String) (sequence : ℕ) : Catalog.Classification :=
  let rows := t.events.filter fun r =>
    decide (r.eventId = eventId ∨ r.sourceId = sourceId ∧ r.sourceSequence = sequence)
  if rows = [] then .new
  else if rows.any fun r =>
      decide (r.eventId = eventId ∧ r.sourceId = sourceId ∧ r.sourceSequence = sequence) then
    .duplicate
  else .conflict

/-- The insert of an event meets a key, a null or a session that is not there. -/
def rejectsEvent (row : EventRow) (event : CatalogEvent) : Bool :=
  decide (event.eventName = .null ∨ event.eventSource = .null ∨
    row.playbackSessionId ∉ t.sessions) || t.events.any fun r => decide (r.eventId = row.eventId ∨
      r.sourceId = row.sourceId ∧ r.sourceSequence = row.sourceSequence)

end Tables

/-- The arguments of `record_events`. -/
structure RecordEvents where
  playbackSessionId : String
  sourceId : String
  journalRelativePath : String
  journalChunkSequence : ℕ
  events : List CatalogEvent
  sourceType : Option String
  preclassified : Bool

/-- What the loop of `record_events` works with. -/
structure Recording where
  tables : Tables
  watermark : ℕ
  maxSeen : ℕ
  inserted : ℕ
  duplicate : ℕ
  outOfOrder : ℕ

/-- One round of the loop. -/
def recordEvent (args : RecordEvents) (s : Recording) (event : CatalogEvent) :
    Except CatalogError Recording :=
  let sequence := event.sourceSequence
  let classification :=
    if args.preclassified then .new
    else s.tables.classifyEvent event.eventId args.sourceId sequence
  match classification with
  | .duplicate => .ok { s with duplicate := s.duplicate + 1 }
  | .conflict => .error .conflictingEvent
  | .new =>
    if event.eventName = .missing ∨ event.eventSource = .missing then .error .missingField
    else
      let row : EventRow := ⟨event.eventId, args.playbackSessionId, args.sourceId, sequence⟩
      if s.tables.rejectsEvent row event then .ok { s with duplicate := s.duplicate + 1 }
      else
        let tables := { s.tables with events := s.tables.events ++ [row] }
        .ok
          { tables := tables
            watermark := tables.advanceWatermark args.sourceId s.watermark
            maxSeen := max s.maxSeen sequence
            inserted := s.inserted + 1
            duplicate := s.duplicate
            outOfOrder := s.outOfOrder + if sequence > s.watermark + 1 then 1 else 0 }

/-- The chunk is noted, if its source has a type. -/
def Tables.noteChunk (t : Tables) (args : RecordEvents) : Except CatalogError Tables :=
  if args.sourceType = none ∨ args.sourceType = some "" then .ok t
  else if (args.journalRelativePath, args.journalChunkSequence) ∈ t.chunks then .ok t
  else if args.playbackSessionId ∉ t.sessions then .error .foreignKey
  else .ok { t with chunks := t.chunks ++ [(args.journalRelativePath, args.journalChunkSequence)] }

/-- `record_events` up to the commit. -/
def Tables.recordEvents (t : Tables) (args : RecordEvents) :
    Except CatalogError (Tables × ℕ × ℕ × ℕ) := do
  let some source := t.source args.sourceId | .error .sourceNotRegistered
  let s ← args.events.foldlM (recordEvent args) ⟨t, source.ackWatermark,
    source.maxSeenSequence, 0, 0, 0⟩
  let noted ← s.tables.noteChunk args
  return (noted.updateSource args.sourceId fun row =>
    { row with
      ackWatermark := s.watermark
      maxSeenSequence := s.maxSeen
      duplicateCount := row.duplicateCount + s.duplicate
      outOfOrderCount := row.outOfOrderCount + s.outOfOrder }, s.inserted,
        s.duplicate, s.outOfOrder)

/-- The arguments of `declare_source_gap` that are read. -/
structure DeclareGap where
  sourceId : String
  startSequence : ℤ
  endSequence : ℤ
  reasonCode : String
  declarationOrigin : String

/-- `declare_source_gap` up to the commit. -/
def Tables.declareGap (t : Tables) (args : DeclareGap) : Except CatalogError (Tables × ℕ) :=
  if args.startSequence < 1 ∨ args.endSequence < args.startSequence then .error .invalidGapRange
  else
    let first := args.startSequence.toNat
    let last := args.endSequence.toNat
    match t.source args.sourceId with
    | none => .error .sourceNotRegistered
    | some source =>
      if t.events.any fun r => decide (r.sourceId = args.sourceId ∧ first ≤ r.sourceSequence ∧
          r.sourceSequence ≤ last) then .error .gapOverlapsEvent
      else if t.gaps.any fun g => decide (g.sourceId = args.sourceId ∧
          ¬ (g.gap.endSequence < first ∨ last < g.gap.startSequence) ∧
          (g.gap.reasonCode ≠ args.reasonCode ∨ g.declarationOrigin ≠ args.declarationOrigin)) then
        .error .conflictingGap
      else
        let row : GapRow := ⟨args.sourceId, ⟨first, last, truncated 96 args.reasonCode⟩,
          truncated 64 args.declarationOrigin⟩
        let known := t.gaps.any fun g => decide (g.sourceId = args.sourceId ∧
          g.gap.startSequence = first ∧ g.gap.endSequence = last)
        let declared := if known then t else { t with gaps := t.gaps ++ [row] }
        let watermark := declared.advanceWatermark args.sourceId source.ackWatermark
        .ok (declared.updateSource args.sourceId fun row =>
          { row with
            ackWatermark := watermark
            maxSeenSequence := max source.maxSeenSequence last }, watermark)

/-- `register_source` up to the commit. -/
def Tables.registerSource (t : Tables) (playbackSessionId sourceId : String) :
    Except CatalogError Tables :=
  if (t.source sourceId).isSome then .ok t
  else if playbackSessionId ∉ t.sessions then .error .foreignKey
  else .ok { t with sources := t.sources ++ [⟨sourceId, playbackSessionId, 0, 0, 0, 0⟩] }

inductive CatalogCall
  | registerSource (playbackSessionId sourceId : String)
  | recordEvents (args : RecordEvents)
  | declareGap (args : DeclareGap)

/-- A transaction is committed, or rolled back. -/
def Tables.commit {α : Type} (t : Tables) (result : Except CatalogError (Tables × α)) :
    Tables × Except CatalogError Unit :=
  match result with
  | .ok (t', _) => (t', .ok ())
  | .error error => (t, .error error)

/-- A call, and whether it raises. -/
def Tables.call (t : Tables) : CatalogCall → Tables × Except CatalogError Unit
  | .registerSource session sourceId =>
    t.commit ((t.registerSource session sourceId).map fun t' => (t', ()))
  | .recordEvents args => t.commit (t.recordEvents args)
  | .declareGap args => t.commit (t.declareGap args)

def Tables.step (t : Tables) (c : CatalogCall) : Option Tables := some (t.call c).1

/-! ### One source -/

namespace Catalog

variable {c c' : Catalog} {w : ℕ}

/-- The sequence is recorded, or in a gap. -/
def Known (c : Catalog) (n : ℕ) : Prop := c.recorded n = true ∨ c.declared n = true

/-- Every sequence up to `w` is known. -/
def KnownTo (c : Catalog) (w : ℕ) : Prop := ∀ n, 1 ≤ n → n ≤ w → c.Known n

/-- Every sequence up to `w` is known, and the next is not. -/
structure Marked (c : Catalog) (w : ℕ) : Prop where
  knownTo : c.KnownTo w
  next : ¬ c.Known (w + 1)

theorem advanceOnce_of_known (h : c.Known (w + 1)) : c.advanceOnce w ≠ none := by
  rw [advanceOnce]
  split_ifs with hrecorded
  · exact Option.some_ne_none _
  · obtain ⟨g, hg, hcovers⟩ := List.any_eq_true.1 (h.resolve_left hrecorded)
    have hmem : g.endSequence ∈
        (c.gaps.filter (·.covers (w + 1))).map SourceGap.endSequence :=
      List.mem_map_of_mem (List.mem_filter.2 ⟨hg, hcovers⟩)
    rw [Ne, Option.map_eq_none_iff, List.max?_eq_none_iff]
    exact List.ne_nil_of_mem hmem

/-- The rounds lead to the mark. -/
theorem KnownTo.advance (h : c.KnownTo w) : c.Marked (c.advance c.bound w) where
  knownTo n hn hn' := by
    by_cases hnw : n ≤ w
    · exact h n hn hnw
    · exact (advance_covered _ _).2 n (not_le.1 hnw) hn'
  next hknown := advanceOnce_of_known hknown (advance_ended (by omega))

/-- The mark is the greatest number up to which everything is known. -/
theorem Marked.isGreatest (h : c.Marked w) : IsGreatest {n | c.KnownTo n} w where
  left := h.knownTo
  right n hn := by
    by_contra hlt
    exact h.next (hn (w + 1) (by omega) (by omega))

/-- The last sequence that is known, or zero. -/
def LastKnown (c : Catalog) (m : ℕ) : Prop := IsGreatest {n | n = 0 ∨ c.Known n} m

/-- More events or gaps, up to the sequence. -/
theorem LastKnown.extend {m n : ℕ} (h : c.LastKnown m) (hkept : ∀ k, c.Known k → c'.Known k)
    (hnew : ∀ k, c'.Known k → c.Known k ∨ k ≤ n) (hn : c'.Known n) : c'.LastKnown (max m n) where
  left := by
    rcases le_total m n with hle | hle
    · rw [max_eq_right hle]
      exact Or.inr hn
    · rw [max_eq_left hle]
      exact h.1.imp_right (hkept m)
  right k hk := by
    rcases hk with rfl | hk
    · exact Nat.zero_le _
    · rcases hnew k hk with hk | hk
      · exact (h.2 (Or.inr hk)).trans (le_max_left ..)
      · exact hk.trans (le_max_right ..)

end Catalog

section Views

variable {t : Tables} {sourceId : String} {n : ℕ}

theorem view_recorded : (t.view sourceId).recorded n = true ↔
    ∃ r ∈ t.events, r.sourceId = sourceId ∧ r.sourceSequence = n := by
  rw [Catalog.recorded_iff]
  simp only [Tables.view, List.mem_map, List.mem_filter, decide_eq_true_eq, Prod.mk.injEq]
  constructor
  · rintro ⟨eventId, r, ⟨hr, hsource⟩, -, hn⟩
    exact ⟨r, hr, hsource, hn⟩
  · rintro ⟨r, hr, hsource, hn⟩
    exact ⟨r.eventId, r, ⟨hr, hsource⟩, rfl, hn⟩

theorem view_declared : (t.view sourceId).declared n = true ↔
    ∃ g ∈ t.gaps, g.sourceId = sourceId ∧ g.gap.startSequence ≤ n ∧ n ≤ g.gap.endSequence := by
  rw [Catalog.declared, List.any_eq_true]
  simp only [Tables.view, List.mem_map, List.mem_filter, decide_eq_true_eq, Catalog.covers_iff]
  constructor
  · rintro ⟨_, ⟨g, ⟨hg, hsource⟩, rfl⟩, hn⟩
    exact ⟨g, hg, hsource, hn⟩
  · rintro ⟨g, hg, hsource, hn⟩
    exact ⟨g.gap, ⟨g, ⟨hg, hsource⟩, rfl⟩, hn⟩

/-- What is known of a source depends on its events and gaps only. -/
theorem view_congr {t' : Tables} (hevents : t'.events = t.events) (hgaps : t'.gaps = t.gaps) :
    t'.view sourceId = t.view sourceId := by
  rw [Tables.view, Tables.view, hevents, hgaps]

end Views

/-! ### All sources -/

/-- A source has a row. -/
def Tables.Registered (t : Tables) (sourceId : String) : Prop :=
  ∃ row ∈ t.sources, row.sourceId = sourceId

/-- The watermarks and maxima of all sources are right; events and gaps are those of sources. -/
structure Right (t : Tables) : Prop where
  ids : (t.sources.map SourceRow.sourceId).Nodup
  marked : ∀ row ∈ t.sources, (t.view row.sourceId).Marked row.ackWatermark
  lastKnown : ∀ row ∈ t.sources, (t.view row.sourceId).LastKnown row.maxSeenSequence
  events : ∀ r ∈ t.events, t.Registered r.sourceId
  gaps : ∀ g ∈ t.gaps, t.Registered g.sourceId

/-- Every source keeps its row, with a watermark that is not below. -/
def Onward (t t' : Tables) : Prop :=
  ∀ row ∈ t.sources, ∃ row' ∈ t'.sources, row'.sourceId = row.sourceId ∧
    row.ackWatermark ≤ row'.ackWatermark

section Rules

variable {t t' : Tables} {sourceId : String} {row : SourceRow}

theorem Catalog.Marked.congr {c c' : Catalog} {w : ℕ} (h : c.Marked w)
    (hknown : ∀ n, c'.Known n ↔ c.Known n) : c'.Marked w where
  knownTo n hn hn' := (hknown n).2 (h.knownTo n hn hn')
  next hnext := h.next ((hknown _).1 hnext)

theorem Catalog.LastKnown.congr {c c' : Catalog} {m : ℕ} (h : c.LastKnown m)
    (hknown : ∀ n, c'.Known n ↔ c.Known n) : c'.LastKnown m := by
  rw [LastKnown] at h ⊢
  simp only [hknown]
  exact h

theorem source_spec (h : t.source sourceId = some row) : row ∈ t.sources ∧
    row.sourceId = sourceId :=
  ⟨List.mem_of_find?_eq_some h, by simpa using List.find?_some h⟩

theorem Right.eq_of_id (h : Right t) {row' : SourceRow} (hrow : row ∈ t.sources)
    (hrow' : row' ∈ t.sources) (hid : row.sourceId = row'.sourceId) : row = row' :=
  List.inj_on_of_nodup_map h.ids hrow hrow' hid

theorem updateSource_ids (t : Tables) (sourceId : String) {f : SourceRow → SourceRow}
    (hf : ∀ row, (f row).sourceId = row.sourceId) :
    (t.updateSource sourceId f).sources.map SourceRow.sourceId =
    t.sources.map SourceRow.sourceId := by
  rw [Tables.updateSource, List.map_map]
  refine List.map_congr_left fun row _ => ?_
  simp only [Function.comp]
  split_ifs
  · exact hf row
  · rfl

/-- More events and gaps of one source, with its mark and its maximum. -/
theorem Right.update (h : Right t) (hrow : t.source sourceId = some row)
    (hsources : t'.sources = t.sources) {w m : ℕ} (hmarked : (t'.view sourceId).Marked w)
    (hlast : (t'.view sourceId).LastKnown m) (hw : row.ackWatermark ≤ w)
    (hevents : ∀ r, r.sourceId ≠ sourceId → (r ∈ t'.events ↔ r ∈ t.events))
    (hgaps : ∀ g, g.sourceId ≠ sourceId → (g ∈ t'.gaps ↔ g ∈ t.gaps)) {f : SourceRow → SourceRow}
    (hf : ∀ r, (f r).sourceId = r.sourceId ∧ (f r).ackWatermark = w ∧ (f r).maxSeenSequence = m) :
    Right (t'.updateSource sourceId f) ∧ Onward t (t'.updateSource sourceId f) := by
  obtain ⟨hmem, hid⟩ := source_spec hrow
  have hids := updateSource_ids t' sourceId fun r => (hf r).1
  have hregistered : ∀ other, (t'.updateSource sourceId f).Registered other ↔
      t.Registered other := by
    intro other
    have hiff : ∀ u : Tables, u.Registered other ↔ other ∈ u.sources.map SourceRow.sourceId :=
      fun u => List.mem_map.symm
    rw [hiff, hiff, hids, hsources]
  -- what is known of the other sources stays
  have hother : ∀ other ≠ sourceId, ∀ n,
      ((t'.updateSource sourceId f).view other).Known n ↔ (t.view other).Known n := by
    intro other hne n
    rw [Catalog.Known, Catalog.Known, view_recorded, view_declared, view_recorded, view_declared]
    refine or_congr (exists_congr fun r => ?_) (exists_congr fun g => ?_)
    · refine and_congr_left fun hr => hevents r ?_
      rw [hr.1]
      exact hne
    · refine and_congr_left fun hg => hgaps g ?_
      rw [hg.1]
      exact hne
  have hself : (t'.updateSource sourceId f).view sourceId = t'.view sourceId := rfl
  have hcases : ∀ r ∈ (t'.updateSource sourceId f).sources,
      (r.sourceId = sourceId ∧ r.ackWatermark = w ∧ r.maxSeenSequence = m) ∨
        r.sourceId ≠ sourceId ∧ r ∈ t.sources := by
    intro r hr
    rw [Tables.updateSource, hsources] at hr
    obtain ⟨q, hq, rfl⟩ := List.mem_map.1 hr
    split_ifs with heq
    · exact Or.inl ⟨(hf q).1.trans heq, (hf q).2⟩
    · exact Or.inr ⟨heq, hq⟩
  refine ⟨⟨?_, fun r hr => ?_, fun r hr => ?_, fun r hr => ?_, fun g hg => ?_⟩, fun r hr => ?_⟩
  · rw [hids, hsources]
    exact h.ids
  · rcases hcases r hr with ⟨heq, hwr, -⟩ | ⟨hne, hr⟩
    · rw [heq, hself, hwr]
      exact hmarked
    · exact (h.marked r hr).congr (hother _ hne)
  · rcases hcases r hr with ⟨heq, -, hmr⟩ | ⟨hne, hr⟩
    · rw [heq, hself, hmr]
      exact hlast
    · exact (h.lastKnown r hr).congr (hother _ hne)
  · rw [hregistered]
    by_cases heq : r.sourceId = sourceId
    · exact ⟨row, hmem, hid.trans heq.symm⟩
    · exact h.events r ((hevents r heq).1 hr)
  · rw [hregistered]
    by_cases heq : g.sourceId = sourceId
    · exact ⟨row, hmem, hid.trans heq.symm⟩
    · exact h.gaps g ((hgaps g heq).1 hg)
  · refine ⟨_, List.mem_map_of_mem (hsources.symm ▸ hr), ?_⟩
    split_ifs with heq
    · rw [h.eq_of_id hr hmem (heq.trans hid.symm)]
      exact ⟨(hf row).1, by rw [(hf row).2.1]; exact hw⟩
    · exact ⟨rfl, le_rfl⟩

/-! ### The calls -/

/-- What the loop of `record_events` has done so far. -/
structure Recorded (t : Tables) (row : SourceRow) (s : Recording) : Prop where
  sources : s.tables.sources = t.sources
  gaps : s.tables.gaps = t.gaps
  sessions : s.tables.sessions = t.sessions
  events : ∀ r, r.sourceId ≠ row.sourceId → (r ∈ s.tables.events ↔ r ∈ t.events)
  kept : ∀ r ∈ t.events, r ∈ s.tables.events
  marked : (s.tables.view row.sourceId).Marked s.watermark
  last : (s.tables.view row.sourceId).LastKnown s.maxSeen
  watermark : row.ackWatermark ≤ s.watermark

variable {args : RecordEvents} {s s' : Recording} {event : CatalogEvent}

/-- One more event of the source. -/
theorem Recorded.insert (h : Recorded t row s) (new : EventRow) (hnew : new.sourceId = row.sourceId)
    (heq : s'.tables = { s.tables with events := s.tables.events ++ [new] })
    (hw : s'.watermark = s'.tables.advanceWatermark row.sourceId s.watermark)
    (hm : s'.maxSeen = max s.maxSeen new.sourceSequence) : Recorded t row s' := by
  have hevents : ∀ r, r ∈ s'.tables.events ↔ r ∈ s.tables.events ∨ r = new := by
    intro r
    rw [heq, List.mem_append, List.mem_singleton]
  have hgaps : s'.tables.gaps = s.tables.gaps := by rw [heq]
  have hknown : ∀ n, (s'.tables.view row.sourceId).Known n ↔
      (s.tables.view row.sourceId).Known n ∨ n = new.sourceSequence := by
    intro n
    rw [Catalog.Known, Catalog.Known, view_recorded, view_declared, view_recorded,
      view_declared, hgaps]
    simp only [hevents, or_and_right, exists_or, exists_eq_left, hnew, true_and]
    rw [or_right_comm, eq_comm (a := n)]
  have hto : (s'.tables.view row.sourceId).KnownTo s.watermark := fun n hn hn' =>
    (hknown n).2 (Or.inl (h.marked.knownTo n hn hn'))
  refine ⟨?_, hgaps.trans h.gaps, ?_, fun r hr => ?_, fun r hr =>
    (hevents r).2 (Or.inl (h.kept r hr)), ?_, ?_, ?_⟩
  · rw [heq]
    exact h.sources
  · rw [heq]
    exact h.sessions
  · rw [hevents, ← h.events r hr]
    refine ⟨fun hmem => hmem.resolve_right ?_, Or.inl⟩
    rintro rfl
    exact hr hnew
  · rw [hw]
    exact hto.advance
  · rw [hm]
    refine h.last.extend (fun k hk => (hknown k).2 (Or.inl hk)) (fun k hk => ?_)
      ((hknown _).2 (Or.inr rfl))
    exact ((hknown k).1 hk).imp_right le_of_eq
  · rw [hw]
    exact h.watermark.trans (Catalog.advance_covered _ _).1

/-- **One round of `record_events`** -/
theorem Recorded.round (h : Recorded t row s) (hsource : args.sourceId = row.sourceId)
    (hok : recordEvent args s event = .ok s') : Recorded t row s' := by
  have hsame : ∀ n : ℕ, Recorded t row { s with duplicate := n } := fun n =>
    ⟨h.sources, h.gaps, h.sessions, h.events, h.kept, h.marked, h.last, h.watermark⟩
  rw [recordEvent] at hok
  dsimp only at hok
  generalize (if args.preclassified then Catalog.Classification.new
    else s.tables.classifyEvent event.eventId args.sourceId event.sourceSequence) =
      classification at hok
  cases classification with
  | duplicate =>
    cases hok
    exact hsame _
  | conflict => cases hok
  | new =>
    simp only at hok
    split at hok
    · cases hok
    split at hok
    · cases hok
      exact hsame _
    · cases hok
      exact h.insert ⟨event.eventId, args.playbackSessionId, args.sourceId, event.sourceSequence⟩
        hsource rfl (by dsimp only; rw [hsource]) rfl

theorem Recorded.loop (hsource : args.sourceId = row.sourceId) :
    ∀ {events : List CatalogEvent} {s s' : Recording}, Recorded t row s →
      events.foldlM (recordEvent args) s = .ok s' → Recorded t row s' := by
  intro events
  induction events with
  | nil =>
    intro s s' h hok
    cases hok
    exact h
  | cons event rest ih =>
    intro s s' h hok
    rw [List.foldlM_cons] at hok
    cases hfirst : recordEvent args s event with
    | error error =>
      rw [hfirst] at hok
      cases hok
    | ok s₁ =>
      rw [hfirst] at hok
      exact ih (h.round hsource hfirst) hok

/-- The chunk table is read by nothing else. -/
theorem noteChunk_spec (h : t.noteChunk args = .ok t') :
    t'.sources = t.sources ∧ t'.events = t.events ∧ t'.gaps = t.gaps ∧
        t'.sessions = t.sessions := by
  rw [Tables.noteChunk] at h
  split_ifs at h <;> cases h <;> exact ⟨rfl, rfl, rfl, rfl⟩

/-- What a call of `record_events` that goes through has done. -/
theorem recordEvents_ok {counts : ℕ × ℕ × ℕ} (h : t.recordEvents args = .ok (t', counts)) :
    ∃ row s noted, t.source args.sourceId = some row ∧
      args.events.foldlM (recordEvent args) ⟨t, row.ackWatermark, row.maxSeenSequence,
        0, 0, 0⟩ = .ok s ∧
      s.tables.noteChunk args = .ok noted ∧
      t' = noted.updateSource args.sourceId fun row =>
        { row with
          ackWatermark := s.watermark
          maxSeenSequence := s.maxSeen
          duplicateCount := row.duplicateCount + s.duplicate
          outOfOrderCount := row.outOfOrderCount + s.outOfOrder } := by
  rw [Tables.recordEvents] at h
  cases hsource : t.source args.sourceId with
  | none =>
    rw [hsource] at h
    cases h
  | some row =>
    simp only [hsource] at h
    cases hloop : args.events.foldlM (recordEvent args)
        ⟨t, row.ackWatermark, row.maxSeenSequence, 0, 0, 0⟩ with
    | error error =>
      rw [hloop] at h
      cases h
    | ok s =>
      rw [hloop] at h
      cases hnoted : s.tables.noteChunk args with
      | error error =>
        simp only [bind, Except.bind, hnoted] at h
        cases h
      | ok noted =>
        simp only [bind, Except.bind, hnoted] at h
        cases h
        exact ⟨row, s, noted, rfl, hloop, hnoted, rfl⟩

theorem Right.recordEvents (h : Right t) {counts : ℕ × ℕ × ℕ}
    (hok : t.recordEvents args = .ok (t', counts)) : Right t' ∧ Onward t t' := by
  obtain ⟨row, s, noted, hsource, hloop, hnoted, rfl⟩ := recordEvents_ok hok
  obtain ⟨hmem, hid⟩ := source_spec hsource
  have hstart : Recorded t row ⟨t, row.ackWatermark, row.maxSeenSequence, 0, 0, 0⟩ :=
    ⟨rfl, rfl, rfl, fun _ _ => Iff.rfl, fun _ hr => hr, h.marked row hmem,
      h.lastKnown row hmem, le_rfl⟩
  have hrecorded := hstart.loop hid.symm hloop
  obtain ⟨hsources, hevents, hgaps, -⟩ := noteChunk_spec hnoted
  have hview : noted.view row.sourceId = s.tables.view row.sourceId := view_congr hevents hgaps
  rw [← hid] at hsource ⊢
  refine h.update hsource (hsources.trans hrecorded.sources) (hview ▸ hrecorded.marked)
    (hview ▸ hrecorded.last) hrecorded.watermark (fun r hr => ?_) (fun g _ => ?_)
    fun r => ⟨rfl, rfl, rfl⟩
  · rw [hevents]
    exact hrecorded.events r hr
  · rw [hgaps, hrecorded.gaps]

/-- What a call of `declare_source_gap` that goes through has done. -/
theorem declareGap_ok {gap : DeclareGap} {watermark : ℕ}
    (h : t.declareGap gap = .ok (t', watermark)) :
    ∃ row gaps, t.source gap.sourceId = some row ∧ gap.startSequence.toNat ≤ gap.endSequence.toNat ∧
      (∀ r ∈ t.events, r.sourceId = gap.sourceId →
        ¬ (gap.startSequence.toNat ≤ r.sourceSequence ∧ r.sourceSequence ≤ gap.endSequence.toNat)) ∧
      (∀ g ∈ t.gaps, g ∈ gaps) ∧
      (∀ g ∈ gaps, g ∈ t.gaps ∨ g.sourceId = gap.sourceId ∧
        g.gap.startSequence = gap.startSequence.toNat ∧ g.gap.endSequence = gap.endSequence.toNat) ∧
      (∃ g ∈ gaps, g.sourceId = gap.sourceId ∧
        g.gap.startSequence = gap.startSequence.toNat ∧ g.gap.endSequence = gap.endSequence.toNat) ∧
      t' = ({ t with gaps := gaps } : Tables).updateSource gap.sourceId fun r =>
        { r with
          ackWatermark := ({ t with gaps := gaps } : Tables).advanceWatermark gap.sourceId
            row.ackWatermark
          maxSeenSequence := max row.maxSeenSequence gap.endSequence.toNat } := by
  rw [Tables.declareGap] at h
  split_ifs at h with hrange
  dsimp only at h
  cases hsource : t.source gap.sourceId with
  | none =>
    rw [hsource] at h
    cases h
  | some row =>
    simp only [hsource] at h
    split_ifs at h with hoverlap hconflict hknown
    · cases h
      rw [List.any_eq_true] at hknown
      obtain ⟨g, hg, heq⟩ := hknown
      refine ⟨row, t.gaps, rfl, by omega, fun r hr hrs hin => hoverlap ?_, fun _ hg => hg,
        fun _ hg => Or.inl hg, ⟨g, hg, of_decide_eq_true heq⟩, rfl⟩
      exact List.any_eq_true.2 ⟨r, hr, decide_eq_true ⟨hrs, hin⟩⟩
    · cases h
      refine ⟨row, _, rfl, by omega, fun r hr hrs hin => hoverlap ?_,
        fun _ hg => List.mem_append_left _ hg, fun g hg => ?_,
        ⟨_, List.mem_append_right _ (List.mem_singleton_self _), rfl, rfl, rfl⟩, rfl⟩
      · exact List.any_eq_true.2 ⟨r, hr, decide_eq_true ⟨hrs, hin⟩⟩
      · rcases List.mem_append.1 hg with hg | hg
        · exact Or.inl hg
        · rw [List.mem_singleton.1 hg]
          exact Or.inr ⟨rfl, rfl, rfl⟩

theorem Right.declareGap (h : Right t) {gap : DeclareGap} {watermark : ℕ}
    (hok : t.declareGap gap = .ok (t', watermark)) : Right t' ∧ Onward t t' := by
  obtain ⟨row, gaps, hsource, hrange, -, hsub, hnew, ⟨g, hg, hgs, hstart, hend⟩, rfl⟩ :=
    declareGap_ok hok
  obtain ⟨hmem, hid⟩ := source_spec hsource
  have hmarked := h.marked row hmem
  have hlast := h.lastKnown row hmem
  rw [hid] at hmarked hlast
  have hkept : ∀ n, (t.view gap.sourceId).Known n →
      (Tables.view { t with gaps := gaps } gap.sourceId).Known n := by
    intro n hn
    rw [Catalog.Known, view_recorded, view_declared] at hn ⊢
    exact hn.imp_right fun ⟨g, hg, hrest⟩ => ⟨g, hsub g hg, hrest⟩
  have hto : (Tables.view { t with gaps := gaps } gap.sourceId).KnownTo row.ackWatermark :=
    fun n hn hn' => hkept n (hmarked.knownTo n hn hn')
  have hsources : ({ t with gaps := gaps } : Tables).sources = t.sources := rfl
  refine h.update hsource hsources hto.advance
    (hlast.extend hkept (fun n hn => ?_) ?_) (Catalog.advance_covered _ _).1 (fun _ _ => Iff.rfl)
    (fun g hg => ?_) fun r => ⟨rfl, rfl, rfl⟩
  · rw [Catalog.Known, view_recorded, view_declared] at hn
    rcases hn with hn | ⟨g, hg, hgs, hn⟩
    · exact Or.inl (Or.inl (view_recorded.2 hn))
    · rcases hnew g hg with hg | ⟨-, -, hend⟩
      · exact Or.inl (Or.inr (view_declared.2 ⟨g, hg, hgs, hn⟩))
      · exact Or.inr (hend ▸ hn.2)
  · exact Or.inr (view_declared.2 ⟨g, hg, hgs, by rw [hstart]; exact hrange, hend.ge⟩)
  · exact ⟨fun hmem => (hnew g hmem).resolve_right fun hself => hg hself.1, hsub g⟩

theorem Right.registerSource (h : Right t) {session : String}
    (hok : t.registerSource session sourceId = .ok t') : Right t' ∧ Onward t t' := by
  rw [Tables.registerSource] at hok
  split_ifs at hok with hsome hsession
  · cases hok
    exact ⟨h, fun row hrow => ⟨row, hrow, rfl, le_rfl⟩⟩
  · cases hok
    have hnew : ∀ row ∈ t.sources, row.sourceId ≠ sourceId := by
      intro row hrow heq
      exact hsome (List.find?_isSome.2 ⟨row, hrow, decide_eq_true heq⟩)
    -- nothing is known of a source that is new
    have hunknown : ∀ n, ¬ (t.view sourceId).Known n := by
      rintro n (hn | hn)
      · obtain ⟨r, hr, heq, -⟩ := view_recorded.1 hn
        obtain ⟨row, hrow, hid⟩ := h.events r hr
        exact hnew row hrow (hid.trans heq)
      · obtain ⟨g, hg, heq, -⟩ := view_declared.1 hn
        obtain ⟨row, hrow, hid⟩ := h.gaps g hg
        exact hnew row hrow (hid.trans heq)
    have hregistered : ∀ other, t.Registered other →
        Tables.Registered { t with sources := t.sources ++ [⟨sourceId, session, 0, 0, 0, 0⟩] }
            other :=
      fun other ⟨row, hrow, hid⟩ => ⟨row, List.mem_append_left _ hrow, hid⟩
    refine ⟨⟨?_, fun row hrow => ?_, fun row hrow => ?_, fun r hr => hregistered _ (h.events r hr),
      fun g hg => hregistered _ (h.gaps g hg)⟩, fun row hrow => ⟨row,
        List.mem_append_left _ hrow, rfl, le_rfl⟩⟩
    · rw [List.map_append, List.map_singleton, List.nodup_append]
      refine ⟨h.ids, List.nodup_singleton _, fun a ha b hb => ?_⟩
      obtain ⟨row, hrow, rfl⟩ := List.mem_map.1 ha
      rw [List.mem_singleton.1 hb]
      exact hnew row hrow
    · rcases List.mem_append.1 hrow with hrow | hrow
      · exact h.marked row hrow
      · rw [List.mem_singleton.1 hrow]
        exact ⟨fun n hn hn' => absurd hn' (by dsimp only; omega), hunknown _⟩
    · rcases List.mem_append.1 hrow with hrow | hrow
      · exact h.lastKnown row hrow
      · rw [List.mem_singleton.1 hrow]
        refine ⟨Or.inl rfl, fun n hn => ?_⟩
        rcases hn with rfl | hn
        · exact le_rfl
        · exact absurd hn (hunknown n)

/-- **One call** keeps the watermarks and maxima right, and lowers no watermark. -/
theorem Right.call (h : Right t) (c : CatalogCall) : Right (t.call c).1 ∧
    Onward t (t.call c).1 := by
  have hsame : Onward t t := fun row hrow => ⟨row, hrow, rfl, le_rfl⟩
  cases c with
  | registerSource session sourceId =>
    rw [Tables.call]
    cases hok : t.registerSource session sourceId with
    | error error => exact ⟨h, hsame⟩
    | ok t' => exact h.registerSource hok
  | recordEvents args =>
    rw [Tables.call]
    cases hok : t.recordEvents args with
    | error error => exact ⟨h, hsame⟩
    | ok result => exact h.recordEvents hok
  | declareGap args =>
    rw [Tables.call]
    cases hok : t.declareGap args with
    | error error => exact ⟨h, hsame⟩
    | ok result => exact h.declareGap hok

theorem commit_error {α : Type} {result : Except CatalogError (Tables × α)} {error : CatalogError}
    (h : (t.commit result).2 = .error error) : (t.commit result).1 = t := by
  cases result with
  | error e => rfl
  | ok r => cases h

theorem fresh_right (sessions : List String) : Right (.fresh sessions) where
  ids := List.nodup_nil
  marked _ hrow := absurd hrow List.not_mem_nil
  lastKnown _ hrow := absurd hrow List.not_mem_nil
  events _ hr := absurd hr List.not_mem_nil
  gaps _ hg := absurd hg List.not_mem_nil

end Rules

/-- After every run of calls the watermark of a source is the greatest number up to which every
sequence is recorded or in a gap, and its maximum is the last such sequence. No call lowers a
watermark, and a call that raises changes nothing. -/
theorem ack_watermark (sessions : List String) (t : Tables)
    (h : Reach Tables.step (fun _ _ => True) (.fresh sessions) t) :
    (∀ row ∈ t.sources,
      IsGreatest {w | ∀ n, 1 ≤ n → n ≤ w → (t.view row.sourceId).recorded n = true ∨
        (t.view row.sourceId).declared n = true} row.ackWatermark ∧
      IsGreatest {n | n = 0 ∨ (t.view row.sourceId).recorded n = true ∨
        (t.view row.sourceId).declared n = true} row.maxSeenSequence) ∧
    ∀ c, Onward t (t.call c).1 ∧ ∀ error, (t.call c).2 = .error error → (t.call c).1 = t := by
  have hright : Right t := by
    refine Reach.invariant (fresh_right sessions) (fun s c s' _ hs _ hstep => ?_) h
    cases hstep
    exact (hs.call c).1
  refine ⟨fun row hrow => ⟨(hright.marked row hrow).isGreatest, hright.lastKnown row hrow⟩,
    fun c => ⟨(hright.call c).2, fun error herror => ?_⟩⟩
  cases c with
  | registerSource session sourceId => exact commit_error herror
  | recordEvents args => exact commit_error herror
  | declareGap args => exact commit_error herror

/-- A source whose second event comes before its first. -/
def secondFirst : List CatalogCall :=
  [.registerSource "playback" "client",
    .recordEvents ⟨"playback", "client", "raw/client.elvd", 1,
      [⟨"stopped", 2, .value "stopped", .value "client"⟩], some "client", true⟩,
    .recordEvents ⟨"playback", "client", "raw/client.elvd", 2,
      [⟨"started", 1, .value "started", .value "client"⟩], some "client", false⟩]

theorem ack_watermark_secondFirst :
    ∃ t, runFrom Tables.step (.fresh ["playback"]) secondFirst = some t ∧ ∃ row ∈ t.sources,
      row.ackWatermark = 2 ∧ IsGreatest {n | n = 0 ∨ (t.view row.sourceId).recorded n = true ∨
        (t.view row.sourceId).declared n = true} row.maxSeenSequence := by
  have hrun : runFrom Tables.step (.fresh ["playback"]) secondFirst = some _ := rfl
  refine ⟨_, hrun, _, List.mem_singleton_self _, by decide +kernel, ?_⟩
  exact ((ack_watermark ["playback"] _ (reach_of_runFrom hrun)).1 _ (List.mem_singleton_self _)).2

end Diagnostics
