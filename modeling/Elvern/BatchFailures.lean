/-
Batches that fail, and the batches after them (`DiagnosticsWriter._write_batch`).

A batch whose source is unindexed records the chunks of its journals first, and then is written.
Between batches the worker does nothing.

* `Writer.recover`, `Writer.writeBatch` — a batch with the recovery of its source;
* `Records` — what a call of `record_events` that meets no conflict does to the tables;
* `Recoverable` — the files, the journal objects and the rows of all sources between batches;
* `Admissible`, `Leaves` — what is written can be recorded, and what a failure may leave behind;
* `failed_batches_recovered` — then the next batch of every source is written, and its rows are
  those of its journals;
* `torn_tail_wedges` — a record that was cut, and every later batch of its source.
-/
import Elvern.JournalIndexing

open Runs

namespace Diagnostics

/-! ### A batch with its recovery -/

namespace Writer

/-- The chunks of a file are recorded, in their order; `false` where it raises. -/
def recordChunks (batch : WriteBatch) (number : ℕ) :
    List (List JournalEvent × ℕ) → Writer → Writer × Bool
  | [], w => (w, true)
  | chunk :: rest, w =>
    match w.recordChunk batch number (chunk.2 + 1) chunk.1 with
    | none => (w, false)
    | some w' => recordChunks batch number rest w'

/-- The files of the source, from one on. -/
def recoverFiles (batch : WriteBatch) : List ℕ → Writer → Writer × Bool
  | [], w => (w.reindex batch.key, true)
  | number :: rest, w =>
    let f := fileAt (w.files batch.key) number
    if f.verify = .valid then
      match recordChunks batch number f.chunks.zipIdx w with
      | (w', true) => recoverFiles batch rest w'
      | (w', false) => (w', false)
    else (w, false)

/-- `_recover_unindexed_source`, where the source is unindexed. -/
def recover (w : Writer) (batch : WriteBatch) : Writer × Bool :=
  if w.unindexed batch.key then recoverFiles batch (List.range (w.files batch.key).length) w
  else (w, true)

/-- `_write_batch` -/
def writeBatch (w : Writer) (batch : WriteBatch) (fault : Fault) : Writer × Option Receipt :=
  match w.recover batch with
  | (w', true) => w'.write batch fault
  | (w', false) => (w', none)

/-- What of the batch is to be written; `none` where it raises before. -/
def selection (w : Writer) (batch : WriteBatch) : Option (List JournalEvent) :=
  (w.tables.prepare batch).bind (selectEvents w.tables batch.sourceId [])

end Writer

/-! ### Rows -/

/-- The row of an event. -/
def rowOf (key : SourceKey) (event : CatalogEvent) : EventRow :=
  ⟨event.eventId, key.1, key.2, event.sourceSequence⟩

/-- The rows have one id, or one source and sequence. -/
def EventRow.Clash (r r' : EventRow) : Prop :=
  r.eventId = r'.eventId ∨ r.sourceId = r'.sourceId ∧ r.sourceSequence = r'.sourceSequence

/-- No two of the rows clash. -/
def Unclashing (P : EventRow → Prop) : Prop := ∀ r r', P r → P r' → r.Clash r' → r = r'

/-- The event has the names that its row needs. -/
def CatalogEvent.Named (event : CatalogEvent) : Prop :=
  (event.eventName ≠ .missing ∧ event.eventName ≠ .null) ∧
    event.eventSource ≠ .missing ∧ event.eventSource ≠ .null

/-- Rows are added, and nothing else that recording depends on. -/
structure Records (t t' : Tables) (new : EventRow → Prop) : Prop where
  sessions : t'.sessions = t.sessions
  registered : ∀ sourceId, t.Registered sourceId → t'.Registered sourceId
  rows : ∀ r, r ∈ t'.events ↔ r ∈ t.events ∨ new r
  nodup : (t.events.map EventRow.eventId).Nodup → (t'.events.map EventRow.eventId).Nodup

section Recording

variable {t t' t'' : Tables} {args : RecordEvents} {s : Recording} {event : CatalogEvent}
  {P new new' : EventRow → Prop}

/-- Nothing is added. -/
theorem Records.refl (t : Tables) (hnew : ∀ r, ¬ new r) : Records t t new :=
  ⟨rfl, fun _ h => h, fun r => ⟨.inl, fun h => h.resolve_right (hnew r)⟩, id⟩

theorem Records.trans (h : Records t t' new) (h' : Records t' t'' new') :
    Records t t'' fun r => new r ∨ new' r where
  sessions := h'.sessions.trans h.sessions
  registered sourceId hr := h'.registered sourceId (h.registered sourceId hr)
  rows r := by rw [h'.rows, h.rows, or_assoc]
  nodup hn := h'.nodup (h.nodup hn)

theorem Records.congr (h : Records t t' new) (hnew : ∀ r, new r ↔ new' r) : Records t t' new' :=
  ⟨h.sessions, h.registered, fun r => (h.rows r).trans (or_congr_right (hnew r)), h.nodup⟩

theorem Records.all (h : Records t t' new) (hrows : ∀ r ∈ t.events, P r) (hnew : ∀ r, new r → P r) :
    ∀ r ∈ t'.events, P r := fun r hr => ((h.rows r).1 hr).elim (hrows r) (hnew r)

/-- One event that clashes with no row but its own. -/
theorem recordEvent_records (hsession : args.playbackSessionId ∈ s.tables.sessions)
    (hnamed : event.Named)
    (hapart : ∀ r ∈ s.tables.events, r.Clash (rowOf (args.playbackSessionId, args.sourceId) event) →
      r = rowOf (args.playbackSessionId, args.sourceId) event) :
    ∃ s', recordEvent args s event = .ok s' ∧ Records s.tables s'.tables fun r =>
      r = rowOf (args.playbackSessionId, args.sourceId) event := by
  set row := rowOf (args.playbackSessionId, args.sourceId) event with hrow
  have hmissing : ¬ (event.eventName = .missing ∨ event.eventSource = .missing) :=
    not_or.2 ⟨hnamed.1.1, hnamed.2.1⟩
  by_cases hin : row ∈ s.tables.events
  · -- the row is there, and the event is a duplicate
    have hsame : Records s.tables s.tables fun r => r = row :=
      ⟨rfl, fun _ h => h, fun r => ⟨.inl, fun h => h.elim (fun h => h) fun heq => heq ▸ hin⟩, id⟩
    refine ⟨{ s with duplicate := s.duplicate + 1 }, ?_, hsame⟩
    rw [recordEvent]
    dsimp only
    cases args.preclassified with
    | true =>
      have hrejects : s.tables.rejectsEvent row event = true := by
        rw [Tables.rejectsEvent, Bool.or_eq_true]
        exact .inr (List.any_eq_true.2 ⟨row, hin, decide_eq_true (.inl rfl)⟩)
      rw [if_pos rfl]
      dsimp only
      rw [if_neg hmissing]
      exact if_pos hrejects
    | false =>
      have hclass : s.tables.classifyEvent event.eventId args.sourceId event.sourceSequence =
          .duplicate := by
        have hmem : row ∈ s.tables.events.filter fun r => decide (r.eventId = event.eventId ∨
            r.sourceId = args.sourceId ∧ r.sourceSequence = event.sourceSequence) :=
          List.mem_filter.2 ⟨hin, decide_eq_true (.inl rfl)⟩
        rw [Tables.classifyEvent, if_neg (List.ne_nil_of_mem hmem)]
        exact if_pos (List.any_eq_true.2 ⟨row, hmem, decide_eq_true ⟨rfl, rfl, rfl⟩⟩)
      rw [if_neg Bool.false_ne_true, hclass]
  · -- no row is in the way, and the event is inserted
    have hnone : ∀ r ∈ s.tables.events, ¬ (r.eventId = event.eventId ∨
        r.sourceId = args.sourceId ∧ r.sourceSequence = event.sourceSequence) :=
      fun r hr hclash => hin (hapart r hr hclash ▸ hr)
    have hclass : s.tables.classifyEvent event.eventId args.sourceId
        event.sourceSequence = .new := by
      rw [Tables.classifyEvent]
      refine if_pos (List.filter_eq_nil_iff.2 fun r hr h => hnone r hr (of_decide_eq_true h))
    have haccepts : ¬ s.tables.rejectsEvent row event = true := by
      rw [Tables.rejectsEvent, Bool.or_eq_true, not_or]
      refine ⟨fun h => ?_, fun h => ?_⟩
      · rcases of_decide_eq_true h with h | h | h
        · exact hnamed.1.2 h
        · exact hnamed.2.2 h
        · exact h hsession
      · obtain ⟨r, hr, hclash⟩ := List.any_eq_true.1 h
        exact hnone r hr (of_decide_eq_true hclash)
    have hnew : (if args.preclassified then Catalog.Classification.new
        else s.tables.classifyEvent event.eventId args.sourceId event.sourceSequence) = .new := by
      rw [hclass, ite_self]
    have hadded : Records s.tables { s.tables with events := s.tables.events ++ [row] }
        fun r => r = row := by
      refine ⟨rfl, fun _ h => h, fun r => ?_, fun hn => ?_⟩
      · rw [List.mem_append, List.mem_singleton]
      · rw [List.map_append, List.map_singleton, List.nodup_append]
        refine ⟨hn, List.nodup_singleton _, fun id hid id' hid' heq => ?_⟩
        obtain ⟨r, hr, rfl⟩ := List.mem_map.1 hid
        exact hnone r hr (.inl (heq.trans (List.mem_singleton.1 hid')))
    rw [recordEvent]
    dsimp only
    rw [hnew]
    dsimp only
    rw [if_neg hmissing]
    exact ⟨_, if_neg haccepts, hadded⟩

/-- The events of a call. -/
theorem recordLoop_records (hP : Unclashing P) : ∀ {events : List CatalogEvent} {s : Recording},
    (∀ event ∈ events, event.Named ∧ P (rowOf (args.playbackSessionId, args.sourceId) event)) →
    args.playbackSessionId ∈ s.tables.sessions → (∀ r ∈ s.tables.events, P r) →
    ∃ s', events.foldlM (recordEvent args) s = .ok s' ∧ Records s.tables s'.tables fun r =>
      ∃ e ∈ events, r = rowOf (args.playbackSessionId, args.sourceId) e := by
  intro events
  induction events with
  | nil =>
    intro s _ _ _
    exact ⟨s, rfl, .refl _ fun _ ⟨_, he, _⟩ => absurd he List.not_mem_nil⟩
  | cons event rest ih =>
    intro s hevents hsession hrows
    obtain ⟨hnamed, hrow⟩ := hevents event (List.mem_cons_self ..)
    obtain ⟨s₁, hfirst, hrecords⟩ := recordEvent_records hsession hnamed
      fun r hr => hP r _ (hrows r hr) hrow
    obtain ⟨s', hloop, hrecords'⟩ := @ih s₁ (fun e he => hevents e (List.mem_cons_of_mem _ he))
      (hrecords.sessions ▸ hsession) (hrecords.all hrows fun r hr => hr ▸ hrow)
    refine ⟨s', ?_, (hrecords.trans hrecords').congr fun r => ?_⟩
    · rw [List.foldlM_cons, hfirst]
      exact hloop
    · rw [List.exists_mem_cons_iff]

theorem Tables.Registered.source {sourceId : String} (h : t.Registered sourceId) :
    ∃ row, t.source sourceId = some row := by
  obtain ⟨row, hrow, hid⟩ := h
  refine Option.isSome_iff_exists.1 ?_
  rw [Tables.source, List.find?_isSome]
  exact ⟨row, hrow, decide_eq_true hid⟩

theorem registered_iff {sourceId : String} :
    t.Registered sourceId ↔ sourceId ∈ t.sources.map SourceRow.sourceId := by
  rw [List.mem_map]
  exact Iff.rfl

/-- **A call of `record_events`** whose events clash with no row. -/
theorem recordEvents_records (hP : Unclashing P) (hregistered : t.Registered args.sourceId)
    (hsession : args.playbackSessionId ∈ t.sessions) (hrows : ∀ r ∈ t.events, P r)
    (hevents : ∀ event ∈ args.events,
      event.Named ∧ P (rowOf (args.playbackSessionId, args.sourceId) event)) :
    ∃ t' counts, t.recordEvents args = .ok (t', counts) ∧ Records t t' fun r =>
      ∃ e ∈ args.events, r = rowOf (args.playbackSessionId, args.sourceId) e := by
  obtain ⟨row, hrow⟩ := hregistered.source
  obtain ⟨s, hloop, hrecords⟩ := @recordLoop_records _ _ hP args.events
    ⟨t, row.ackWatermark, row.maxSeenSequence, 0, 0, 0⟩ hevents hsession hrows
  -- the session is there, and so the chunk can be noted
  obtain ⟨noted, hnoted⟩ : ∃ noted, s.tables.noteChunk args = .ok noted := by
    rw [Tables.noteChunk]
    have hthere : args.playbackSessionId ∈ s.tables.sessions := hrecords.sessions.symm ▸ hsession
    split_ifs
    · exact ⟨_, rfl⟩
    · exact ⟨_, rfl⟩
    · exact ⟨_, rfl⟩
  obtain ⟨hsources, hnotedEvents, -, hsessions⟩ := noteChunk_spec hnoted
  refine ⟨noted.updateSource args.sourceId fun row =>
      { row with
        ackWatermark := s.watermark
        maxSeenSequence := s.maxSeen
        duplicateCount := row.duplicateCount + s.duplicate
        outOfOrderCount := row.outOfOrderCount + s.outOfOrder },
    (s.inserted, s.duplicate, s.outOfOrder), ?_,
    ⟨?_, fun sourceId hr => ?_, fun r => ?_, fun hn => ?_⟩⟩
  · simp only [Tables.recordEvents, hrow, bind, Except.bind, hloop, hnoted]
    rfl
  · exact hsessions.trans hrecords.sessions
  · rw [registered_iff, updateSource_ids]
    swap
    · exact fun _ => rfl
    rw [hsources, ← registered_iff]
    exact hrecords.registered sourceId hr
  · show r ∈ noted.events ↔ _
    rw [hnotedEvents]
    exact hrecords.rows r
  · show (noted.events.map EventRow.eventId).Nodup
    rw [hnotedEvents]
    exact hrecords.nodup hn

end Recording



/-! ### Files -/

section Files

/-- The files of a source are whole, and only a file that its journal object has is empty. -/
structure WholeFiles (files : List JournalFile) (opened : Option (ℕ × ℕ)) : Prop where
  uncut : ∀ f ∈ files, f.cut = 0
  started : ∀ n f, files[n]? = some f → f.size < magicBytes →
    f.size = 0 ∧ ∃ sequence, opened = some (n, sequence)
  opened : ∀ n sequence, opened = some (n, sequence) →
    ∃ f, files[n]? = some f ∧ f.chunks.length = sequence

variable {files : List JournalFile} {opened opened' : Option (ℕ × ℕ)} {n m : ℕ} {f g : JournalFile}
  {events : List JournalEvent} {new : List (List JournalEvent)}

theorem getElem?_putFile (hn : n ≤ files.length) :
    (putFile files n g)[m]? = if m = n then some g else files[m]? := by
  rw [putFile]
  split_ifs with hlt hmn hmn
  · rw [hmn, List.getElem?_set_self hlt]
  · rw [List.getElem?_set_ne (Ne.symm hmn)]
  · have hlength : n = files.length := le_antisymm hn (not_lt.1 hlt)
    rw [hmn, hlength, List.getElem?_concat_length]
  · have hlength : n = files.length := le_antisymm hn (not_lt.1 hlt)
    rw [List.getElem?_append]
    split_ifs with hm
    · rfl
    · rw [List.getElem?_eq_none (not_lt.1 hm), List.getElem?_eq_none]
      rw [List.length_singleton]
      omega

theorem fileAt_eq (h : files[n]? = some f) : fileAt files n = f := by
  rw [fileAt, h]
  rfl

theorem fileAt_cases (files : List JournalFile) (n : ℕ) :
    files[n]? = some (fileAt files n) ∨ files[n]? = none ∧ fileAt files n = ⟨0, [], 0⟩ := by
  cases h : files[n]? with
  | none =>
    refine .inr ⟨rfl, ?_⟩
    rw [fileAt, h]
    rfl
  | some f => exact .inl (congrArg some (fileAt_eq h).symm)

theorem WholeFiles.fileAt_cut (h : WholeFiles files opened) : (fileAt files n).cut = 0 := by
  rcases fileAt_cases files n with hf | ⟨-, hf⟩
  · exact h.uncut _ (List.mem_of_getElem? hf)
  · rw [hf]

theorem WholeFiles.fileAt_size (h : WholeFiles files opened)
    (hsize : (fileAt files n).size < magicBytes) : (fileAt files n).size = 0 := by
  rcases fileAt_cases files n with hf | ⟨-, hf⟩
  · exact (h.started n _ hf hsize).1
  · rw [hf]

/-- The chunks after a file was put. -/
theorem chunk_putFile (hn : n ≤ files.length)
    (hchunks : g.chunks = (fileAt files n).chunks ++ new) :
    (∃ f ∈ putFile files n g, events ∈ f.chunks) ↔
      (∃ f ∈ files, events ∈ f.chunks) ∨ events ∈ new := by
  simp only [List.mem_iff_getElem?, getElem?_putFile hn]
  constructor
  · rintro ⟨f, ⟨m, hm⟩, i, hi⟩
    split_ifs at hm with hmn
    · cases hm
      have hmem := List.mem_of_getElem? hi
      rw [hchunks, List.mem_append] at hmem
      refine hmem.imp (fun hold => ?_) List.mem_iff_getElem?.1
      rcases fileAt_cases files n with hf | ⟨-, hf⟩
      · exact ⟨_, ⟨n, hf⟩, List.mem_iff_getElem?.1 hold⟩
      · rw [hf] at hold
        cases hold
    · exact .inl ⟨f, ⟨m, hm⟩, i, hi⟩
  · rintro (⟨f, ⟨m, hm⟩, hold⟩ | hnew)
    · by_cases hmn : m = n
      · refine ⟨g, ⟨n, if_pos rfl⟩, List.mem_iff_getElem?.1 ?_⟩
        rw [hchunks, List.mem_append, fileAt_eq (hmn ▸ hm)]
        exact .inl (List.mem_iff_getElem?.2 hold)
      · exact ⟨f, ⟨m, (if_neg hmn).trans hm⟩, hold⟩
    · refine ⟨g, ⟨n, if_pos rfl⟩, List.mem_iff_getElem?.1 ?_⟩
      rw [hchunks, List.mem_append]
      exact .inr (List.mem_iff_getElem?.2 hnew)

/-- All files but one hold the magic. -/
def OthersStarted (files : List JournalFile) (n : ℕ) : Prop :=
  ∀ m f, m ≠ n → files[m]? = some f → magicBytes ≤ f.size

theorem WholeFiles.put (h : WholeFiles files opened) (hn : n ≤ files.length)
    (hothers : OthersStarted files n) (hcut : g.cut = 0)
    (hsize : g.size < magicBytes → g.size = 0 ∧ ∃ sequence, opened' = some (n, sequence))
    (hopened : ∀ m sequence, opened' = some (m, sequence) → m = n ∧ g.chunks.length = sequence) :
    WholeFiles (putFile files n g) opened' where
  uncut f hf := by
    obtain ⟨m, hm⟩ := List.mem_iff_getElem?.1 hf
    rw [getElem?_putFile hn] at hm
    split_ifs at hm
    · cases hm
      exact hcut
    · exact h.uncut f (List.mem_of_getElem? hm)
  started m f hm hf := by
    rw [getElem?_putFile hn] at hm
    split_ifs at hm with hmn
    · cases hm
      exact hmn ▸ hsize hf
    · exact absurd (hothers m f hmn hm) (not_le.2 hf)
  opened m sequence hm := by
    obtain ⟨rfl, hlength⟩ := hopened m sequence hm
    exact ⟨g, (getElem?_putFile hn).trans (if_pos rfl), hlength⟩

/-- Such files are valid, if their events can be read and the journal object does not hold an empty
one. -/
theorem WholeFiles.verify (h : WholeFiles files opened) (hf : files[n]? = some f)
    (hsize : magicBytes ≤ f.size)
    (hreadable : ∀ events ∈ f.chunks, ∀ event ∈ events, event.readable = true) :
    f.verify = .valid := by
  rw [JournalFile.verify, if_neg (not_lt.2 hsize), if_neg,
    if_pos (h.uncut f (List.mem_of_getElem? hf))]
  intro hany
  obtain ⟨events, hevents, hany⟩ := List.any_eq_true.1 hany
  obtain ⟨event, hevent, hnot⟩ := List.any_eq_true.1 hany
  rw [hreadable events hevents event hevent] at hnot
  cases hnot

end Files

/-! ### What holds between batches -/

/-- The event is in a journal of the source. -/
def Writer.JournaledAt (w : Writer) (key : SourceKey) (event : JournalEvent) : Prop :=
  ∃ f ∈ w.files key, ∃ events ∈ f.chunks, event ∈ events

/-- The row of an event that is in a journal. -/
def Writer.JournalRow (w : Writer) (r : EventRow) : Prop :=
  ∃ key event, w.JournaledAt key event ∧ r = rowOf key event.toCatalogEvent

/-- The rows of the catalog are those of events in journals, each once, and all of them where the
source is not unindexed. -/
structure Recoverable (w : Writer) : Prop where
  once : (w.tables.events.map EventRow.eventId).Nodup
  journaled : ∀ r ∈ w.tables.events, w.JournalRow r
  unclashing : Unclashing w.JournalRow
  kept : ∀ key, ∀ f ∈ w.files key, ∀ events ∈ f.chunks,
    (key.1 ∈ w.tables.sessions ∧ w.tables.Registered key.2) ∧
      ∀ event ∈ events, event.readable = true ∧ event.Named
  indexed : ∀ key, w.unindexed key = false → ∀ event, w.JournaledAt key event →
    rowOf key event.toCatalogEvent ∈ w.tables.events
  files : ∀ key, WholeFiles (w.files key) (w.journals key)
  closed : ∀ key, w.unindexed key = true → w.journals key = none

section Keeping

variable {w w' : Writer} {key : SourceKey} {batch : WriteBatch} {P : EventRow → Prop} {t' : Tables}
  {new : EventRow → Prop} {number sequence : ℕ} {events : List JournalEvent}

theorem Recoverable.fresh (sessions : List String) : Recoverable (.fresh sessions) where
  once := List.nodup_nil
  journaled _ hr := absurd hr List.not_mem_nil
  unclashing := by
    rintro r - ⟨_, _, ⟨_, hf, -⟩, -⟩
    exact absurd hf List.not_mem_nil
  kept _ _ hf := absurd hf List.not_mem_nil
  indexed := by
    rintro key - event ⟨_, hf, -⟩
    exact absurd hf List.not_mem_nil
  files _ :=
    ⟨fun _ hf => absurd hf List.not_mem_nil, (fun _ _ hf => by cases hf),
      fun _ _ hopened => nomatch hopened⟩
  closed _ _ := rfl

/-- Rows of events in journals are added. -/
theorem Recoverable.retable (h : Recoverable w) (hrecords : Records w.tables t' new)
    (hnew : ∀ r, new r → w.JournalRow r) : Recoverable { w with tables := t' } where
  once := hrecords.nodup h.once
  journaled := hrecords.all h.journaled hnew
  unclashing := h.unclashing
  kept k f hf chunk hchunk := by
    obtain ⟨⟨hsession, hregistered⟩, hevents⟩ := h.kept k f hf chunk hchunk
    exact ⟨⟨hrecords.sessions.symm ▸ hsession, hrecords.registered _ hregistered⟩, hevents⟩
  indexed k hk event he := (hrecords.rows _).2 (.inl (h.indexed k hk event he))
  files := h.files
  closed := h.closed

/-- All rows of a source are in the catalog. -/
theorem Recoverable.settle (h : Recoverable w)
    (hindexed : ∀ event, w.JournaledAt key event → rowOf key event.toCatalogEvent ∈ w.tables.events)
    {opened : Option (ℕ × ℕ)} (hfiles : WholeFiles (w.files key) opened) :
    Recoverable { w with
      journals := Function.update w.journals key opened
      unindexed := Function.update w.unindexed key false } where
  once := h.once
  journaled := h.journaled
  unclashing := h.unclashing
  kept := h.kept
  indexed k hk event he := by
    by_cases hkey : k = key
    · exact hkey ▸ hindexed event (hkey ▸ he)
    · simp only [Function.update_of_ne hkey] at hk
      exact h.indexed k hk event he
  files k := by
    by_cases hkey : k = key
    · rw [hkey]
      simpa using hfiles
    · simpa [Function.update_of_ne hkey] using h.files k
  closed k hk := by
    by_cases hkey : k = key
    · rw [hkey] at hk
      simp at hk
    · simp only [Function.update_of_ne hkey] at hk ⊢
      exact h.closed k hk

/-- One chunk is recorded again. -/
theorem recordChunk_records (hP : Unclashing P) (hsession : batch.key.1 ∈ w.tables.sessions)
    (hregistered : w.tables.Registered batch.key.2) (hrows : ∀ r ∈ w.tables.events, P r)
    (hevents : ∀ event ∈ events, event.Named ∧ P (rowOf batch.key event.toCatalogEvent)) :
    ∃ t', w.recordChunk batch number sequence events = some { w with tables := t' } ∧
      Records w.tables t' fun r => ∃ event ∈ events, r = rowOf batch.key event.toCatalogEvent := by
  obtain ⟨t', counts, hok, hrecords⟩ := @recordEvents_records w.tables
    (Writer.recordArgs batch number sequence events false) P hP hregistered hsession hrows (by
      rintro _ he
      obtain ⟨event, hevent, rfl⟩ := List.mem_map.1 he
      exact hevents event hevent)
  refine ⟨t', ?_, hrecords.congr fun r => ?_⟩
  · rw [Writer.recordChunk, hok]
  · constructor
    · rintro ⟨_, he, heq⟩
      obtain ⟨event, hevent, rfl⟩ := List.mem_map.1 he
      exact ⟨event, hevent, heq⟩
    · rintro ⟨event, hevent, heq⟩
      exact ⟨_, List.mem_map_of_mem hevent, heq⟩

/-- The chunks of a file are recorded again. -/
theorem recordChunks_records (hP : Unclashing P) :
    ∀ {chunks : List (List JournalEvent × ℕ)} {w : Writer},
    (∀ chunk ∈ chunks, (batch.key.1 ∈ w.tables.sessions ∧ w.tables.Registered batch.key.2) ∧
      ∀ event ∈ chunk.1, event.Named ∧ P (rowOf batch.key event.toCatalogEvent)) →
    (∀ r ∈ w.tables.events, P r) →
    ∃ t', Writer.recordChunks batch number chunks w = ({ w with tables := t' }, true) ∧
      Records w.tables t' fun r => ∃ chunk ∈ chunks, ∃ event ∈ chunk.1,
        r = rowOf batch.key event.toCatalogEvent := by
  intro chunks
  induction chunks with
  | nil =>
    intro w _ _
    exact ⟨w.tables, rfl, .refl _ fun _ ⟨_, he, _⟩ => absurd he List.not_mem_nil⟩
  | cons chunk rest ih =>
    intro w hchunks hrows
    obtain ⟨⟨hsession, hregistered⟩, hevents⟩ := hchunks chunk (List.mem_cons_self ..)
    obtain ⟨t₁, hfirst, hrecords⟩ := @recordChunk_records w batch P number (chunk.2 + 1)
      chunk.1 hP hsession hregistered hrows hevents
    obtain ⟨t', hrest, hrecords'⟩ := @ih { w with tables := t₁ } (fun c hc => by
      obtain ⟨-, hc'⟩ := hchunks c (List.mem_cons_of_mem _ hc)
      exact ⟨⟨hrecords.sessions.symm ▸ hsession, hrecords.registered _ hregistered⟩, hc'⟩)
      (hrecords.all hrows fun r hr => by
        obtain ⟨event, hevent, rfl⟩ := hr
        exact (hevents event hevent).2)
    refine ⟨t', ?_, (hrecords.trans hrecords').congr fun r => ?_⟩
    · rw [Writer.recordChunks, hfirst]
      exact hrest
    · rw [List.exists_mem_cons_iff]

/-- All files of a source are valid, and their chunks are recorded again. -/
theorem recoverFiles_records (hP : Unclashing P) : ∀ {numbers : List ℕ} {w : Writer},
    (∀ n ∈ numbers, (fileAt (w.files batch.key) n).verify = .valid ∧
      ∀ events ∈ (fileAt (w.files batch.key) n).chunks,
        (batch.key.1 ∈ w.tables.sessions ∧ w.tables.Registered batch.key.2) ∧
        ∀ event ∈ events, event.Named ∧ P (rowOf batch.key event.toCatalogEvent)) →
    (∀ r ∈ w.tables.events, P r) →
    ∃ t', Writer.recoverFiles batch numbers w =
      (Writer.reindex { w with tables := t' } batch.key, true) ∧
      Records w.tables t' fun r => ∃ n ∈ numbers, ∃ events ∈ (fileAt (w.files batch.key) n).chunks,
        ∃ event ∈ events, r = rowOf batch.key event.toCatalogEvent := by
  intro numbers
  induction numbers with
  | nil =>
    intro w _ _
    exact ⟨w.tables, rfl, .refl _ fun _ ⟨_, he, _⟩ => absurd he List.not_mem_nil⟩
  | cons n rest ih =>
    intro w hfiles hrows
    obtain ⟨hvalid, hchunks⟩ := hfiles n (List.mem_cons_self ..)
    obtain ⟨t₁, hfirst, hrecords⟩ := @recordChunks_records batch P n hP
      (fileAt (w.files batch.key) n).chunks.zipIdx w
      (fun chunk hchunk => hchunks chunk.1 (List.fst_mem_of_mem_zipIdx hchunk)) hrows
    have hsame : ∀ r, (∃ chunk ∈ (fileAt (w.files batch.key) n).chunks.zipIdx, ∃ event ∈ chunk.1,
        r = rowOf batch.key event.toCatalogEvent) ↔
          ∃ events ∈ (fileAt (w.files batch.key) n).chunks,
        ∃ event ∈ events, r = rowOf batch.key event.toCatalogEvent := by
      intro r
      constructor
      · rintro ⟨chunk, hchunk, hevent⟩
        exact ⟨chunk.1, List.fst_mem_of_mem_zipIdx hchunk, hevent⟩
      · rintro ⟨events, hevents, hevent⟩
        obtain ⟨i, hi⟩ := List.mem_iff_getElem?.1 hevents
        exact ⟨(events, i), List.mem_zipIdx_iff_getElem?.2 hi, hevent⟩
    obtain ⟨t', hrest, hrecords'⟩ := @ih { w with tables := t₁ } (fun m hm => by
      obtain ⟨hvalid', hchunks'⟩ := hfiles m (List.mem_cons_of_mem _ hm)
      refine ⟨hvalid', fun events hevents => ?_⟩
      obtain ⟨⟨hsession, hregistered⟩, hevents'⟩ := hchunks' events hevents
      exact ⟨⟨hrecords.sessions.symm ▸ hsession, hrecords.registered _ hregistered⟩, hevents'⟩)
      (hrecords.all hrows fun r hr => by
        obtain ⟨events, hevents, event, hevent, rfl⟩ := (hsame r).1 hr
        exact ((hchunks events hevents).2 event hevent).2)
    refine ⟨t', ?_, (hrecords.trans hrecords').congr fun r => ?_⟩
    · rw [Writer.recoverFiles, if_pos hvalid, hfirst]
      exact hrest
    · rw [List.exists_mem_cons_iff, hsame r]

/-- **The recovery** of a source goes through, and nothing but rows of its events is added. -/
theorem Recoverable.recover (h : Recoverable w) (batch : WriteBatch) :
    ∃ w', w.recover batch = (w', true) ∧ Recoverable w' ∧ w'.unindexed batch.key = false ∧
      w'.files = w.files := by
  rw [Writer.recover]
  split_ifs with hunindexed
  swap
  · exact ⟨w, rfl, h, Bool.eq_false_iff.2 hunindexed, rfl⟩
  have hclosed := h.closed batch.key hunindexed
  have hfiles := h.files batch.key
  have hlt : ∀ n, n ∈ List.range (w.files batch.key).length →
      (w.files batch.key)[n]? = some (fileAt (w.files batch.key) n) := by
    intro n hn
    rcases fileAt_cases (w.files batch.key) n with hf | ⟨hf, -⟩
    · exact hf
    · exact absurd (List.mem_range.1 hn) (not_lt.2 (List.getElem?_eq_none_iff.1 hf))
  obtain ⟨t', hrecover, hrecords⟩ := @recoverFiles_records batch w.JournalRow h.unclashing
    (List.range (w.files batch.key).length) w (fun n hn => by
      have hf := hlt n hn
      have hmem := List.mem_of_getElem? hf
      have hkept := h.kept batch.key _ hmem
      refine ⟨hfiles.verify hf (not_lt.1 fun hsize => ?_) fun events hevents event hevent =>
        ((hkept events hevents).2 event hevent).1, fun events hevents => ⟨(hkept events hevents).1,
        fun event hevent => ⟨((hkept events hevents).2 event hevent).2, batch.key, event,
          ⟨_, hmem, events, hevents, hevent⟩, rfl⟩⟩⟩
      -- an empty file would have a journal object, and an unindexed source has none
      obtain ⟨-, q, hq⟩ := hfiles.started n _ hf hsize
      rw [hclosed] at hq
      cases hq) h.journaled
  -- the rows that were added are rows of its journals
  have hrecoverable : Recoverable { w with tables := t' } := by
    refine h.retable hrecords fun r hr => ?_
    obtain ⟨n, hn, events, hevents, event, hevent, rfl⟩ := hr
    exact ⟨batch.key, event, ⟨_, List.mem_of_getElem? (hlt n hn), events, hevents, hevent⟩, rfl⟩
  refine ⟨_, hrecover, hrecoverable.settle (fun event hevent => ?_) ?_,
    by simp [Writer.reindex], rfl⟩
  · obtain ⟨f, hf, events, hevents, hmem⟩ := hevent
    obtain ⟨n, hn⟩ := List.mem_iff_getElem?.1 hf
    refine (hrecords.rows _).2 (.inr ⟨n, ?_, events, ?_, event, hmem, rfl⟩)
    · exact List.mem_range.2 (List.getElem?_eq_some_iff.1 hn).1
    · rw [fileAt_eq hn]
      exact hevents
  · rw [← hclosed]
    exact hfiles

end Keeping


/-! ### What is written -/

/-- The events can be recorded, and their rows clash with no row of an event in a journal, and not
among themselves. -/
structure Admissible (w : Writer) (key : SourceKey) (events : List JournalEvent) : Prop where
  session : key.1 ∈ w.tables.sessions
  registered : w.tables.Registered key.2
  recordable : ∀ event ∈ events, event.readable = true ∧ event.Named
  unclashing : ∀ event ∈ events, ∀ r,
    (w.JournalRow r ∨ ∃ e ∈ events, r = rowOf key e.toCatalogEvent) →
    r.Clash (rowOf key event.toCatalogEvent) → r = rowOf key event.toCatalogEvent

/-- A failure leaves nothing in the file, or the magic, or a whole record; and the file is there. -/
def Leaves (w : Writer) (batch : WriteBatch) (fault : Fault) : Prop :=
  ∀ w' number sequence, w.journalFor batch.key = some (w', number, sequence) →
    match fault with
    | .unopened => number < (w'.files batch.key).length
    | .cut bytes => bytes = 0 ∨ (fileAt (w'.files batch.key) number).size = 0 ∧ bytes = magicBytes ∨
        (fileAt (w'.files batch.key) number).appendBytes batch.recordBytes ≤ bytes
    | _ => True

section Writing

variable {w w' : Writer} {key : SourceKey} {batch : WriteBatch} {n : ℕ} {g : JournalFile}
  {events : List JournalEvent} {new : List (List JournalEvent)}
    {opened' : Option (ℕ × ℕ)} {u : Bool}
  {duplicate : ℕ} {fault : Fault}

theorem EventRow.Clash.symm {r r' : EventRow} (h : r.Clash r') : r'.Clash r :=
  h.imp Eq.symm fun h => ⟨h.1.symm, h.2.symm⟩

/-- A journal object without an empty file. -/
theorem Recoverable.openJournal (h : Recoverable w)
    (hstarted : ∀ f ∈ w.files key, magicBytes ≤ f.size) :
    ∃ n ≤ (w.files key).length, w.openJournal key = some ({ w with
      journals := Function.update w.journals key
        (some (n, (fileAt (w.files key) n).chunks.length)) }, n,
      (fileAt (w.files key) n).chunks.length) := by
  refine ⟨(w.files key).findIdx (·.size < journalRotateBytes), List.findIdx_le_length, ?_⟩
  rw [Writer.openJournal]
  dsimp only
  generalize (w.files key).findIdx (·.size < journalRotateBytes) = n
  rcases fileAt_cases (w.files key) n with hf | ⟨hf, hzero⟩
  · have hmem := List.mem_of_getElem? hf
    have hverify := (h.files key).verify hf (hstarted _ hmem) fun events hevents event hevent =>
      ((h.kept key _ hmem events hevents).2 event hevent).1
    rw [hf]
    dsimp only
    rw [hverify]
    dsimp only
    rw [Function.update_eq_self]
  · rw [hf, hzero]
    dsimp only
    rw [Function.update_eq_self]
    rfl

/-- The journal object of a source: the files stay as they are, and it is at the end of its own. -/
theorem Recoverable.journalFor (h : Recoverable w) (key : SourceKey) :
    ∃ n ≤ (w.files key).length, OthersStarted (w.files key) n ∧
      w.journalFor key = some ({ w with
        journals := Function.update w.journals key
          (some (n, (fileAt (w.files key) n).chunks.length)) }, n,
        (fileAt (w.files key) n).chunks.length) := by
  have hfiles := h.files key
  have hall : (∀ f ∈ w.files key, magicBytes ≤ f.size) → ∀ n, OthersStarted (w.files key) n :=
    fun hstarted n m f _ hm => hstarted f (List.mem_of_getElem? hm)
  rw [Writer.journalFor]
  cases hcached : w.journals key with
  | none =>
    -- without a journal object no file is empty
    have hstarted : ∀ f ∈ w.files key, magicBytes ≤ f.size := by
      intro f hf
      obtain ⟨m, hm⟩ := List.mem_iff_getElem?.1 hf
      refine not_lt.1 fun hsize => ?_
      obtain ⟨-, q, hq⟩ := hfiles.started m f hm hsize
      rw [hcached] at hq
      cases hq
    obtain ⟨n, hn, hopen⟩ := h.openJournal hstarted
    exact ⟨n, hn, hall hstarted n, hopen⟩
  | some cached =>
    obtain ⟨n, q⟩ := cached
    obtain ⟨f, hf, hlength⟩ := hfiles.opened n q hcached
    have hothers : OthersStarted (w.files key) n := by
      intro m f' hm hf'
      refine not_lt.1 fun hsize => hm ?_
      obtain ⟨-, q', hq'⟩ := hfiles.started m f' hf' hsize
      rw [hcached] at hq'
      cases hq'
      rfl
    dsimp only
    rw [hf]
    dsimp only
    split_ifs with hrotate
    · refine ⟨n, (List.getElem?_eq_some_iff.1 hf).1.le, hothers, ?_⟩
      rw [fileAt_eq hf, hlength, ← hcached, Function.update_eq_self]
    · -- the file is full, and so none is empty
      have hstarted : ∀ f' ∈ w.files key, magicBytes ≤ f'.size := by
        intro f' hf'
        obtain ⟨m, hm⟩ := List.mem_iff_getElem?.1 hf'
        by_cases hmn : m = n
        · rw [hmn, hf] at hm
          cases hm
          exact le_trans (by decide) (not_lt.1 hrotate)
        · exact hothers m f' hmn hm
      obtain ⟨n', hn', hopen⟩ := h.openJournal hstarted
      exact ⟨n', hn', hall hstarted n', hopen⟩

/-- The chunks after a file was put. -/
theorem chunk_put (hn : n ≤ (w.files key).length)
    (hchunks : g.chunks = (fileAt (w.files key) n).chunks ++ new)
    (hfiles : w'.files = Function.update w.files key (putFile (w.files key) n g)) (k : SourceKey)
    (chunk : List JournalEvent) :
    (∃ f ∈ w'.files k, chunk ∈ f.chunks) ↔
      (∃ f ∈ w.files k, chunk ∈ f.chunks) ∨ k = key ∧ chunk ∈ new := by
  rw [hfiles]
  by_cases hk : k = key
  · rw [hk, Function.update_self, chunk_putFile hn hchunks]
    exact or_congr_right (and_iff_right rfl).symm
  · rw [Function.update_of_ne hk]
    exact ⟨.inl, fun hor => hor.resolve_right fun hkey => hk hkey.1⟩

/-- The events in the journals after a file was put. -/
theorem journaledAt_put (hchunk : ∀ k chunk, (∃ f ∈ w'.files k, chunk ∈ f.chunks) ↔
      (∃ f ∈ w.files k, chunk ∈ f.chunks) ∨ k = key ∧ chunk ∈ new)
    (k : SourceKey) (event : JournalEvent) :
    w'.JournaledAt k event ↔ w.JournaledAt k event ∨ k = key ∧ ∃ chunk ∈ new, event ∈ chunk := by
  constructor
  · rintro ⟨f, hf, chunk, hmem, hevent⟩
    rcases (hchunk k chunk).1 ⟨f, hf, hmem⟩ with ⟨f', hf', hmem'⟩ | ⟨hk, hmem'⟩
    · exact .inl ⟨f', hf', chunk, hmem', hevent⟩
    · exact .inr ⟨hk, chunk, hmem', hevent⟩
  · rintro (⟨f, hf, chunk, hmem, hevent⟩ | ⟨hk, chunk, hmem, hevent⟩)
    · obtain ⟨f', hf', hmem'⟩ := (hchunk k chunk).2 (.inl ⟨f, hf, hmem⟩)
      exact ⟨f', hf', chunk, hmem', hevent⟩
    · obtain ⟨f', hf', hmem'⟩ := (hchunk k chunk).2 (.inr ⟨hk, hmem⟩)
      exact ⟨f', hf', chunk, hmem', hevent⟩

/-- A file is put back, with a chunk or without. -/
theorem Recoverable.put (h : Recoverable w) (hn : n ≤ (w.files key).length)
    (hothers : OthersStarted (w.files key) n) (hcut : g.cut = 0)
    (hchunks : g.chunks = (fileAt (w.files key) n).chunks ++ new)
    (hnew : new = [] ∨ ∃ events, new = [events] ∧ Admissible w key events)
    (hsize : g.size < magicBytes → g.size = 0 ∧ ∃ sequence, opened' = some (n, sequence))
    (hopened : ∀ m sequence, opened' = some (m, sequence) → m = n ∧ g.chunks.length = sequence)
    (hclosed : u = true → opened' = none)
    (hindexed : u = false → w.unindexed key = false ∧ new = [])
    (htables : w'.tables = w.tables)
    (hfiles : w'.files = Function.update w.files key (putFile (w.files key) n g))
    (hjournals : w'.journals = Function.update w.journals key opened')
    (hunindexed : w'.unindexed = Function.update w.unindexed key u) : Recoverable w' := by
  have hchunk := chunk_put hn hchunks hfiles
  have hat := journaledAt_put hchunk
  have hrow : ∀ r, w'.JournalRow r → w.JournalRow r ∨
      ∃ events, Admissible w key events ∧ new = [events] ∧ ∃ e ∈ events,
          r = rowOf key e.toCatalogEvent := by
    rintro r ⟨k, event, hevent, rfl⟩
    rcases (hat k event).1 hevent with hold | ⟨rfl, chunk, hmem, hevent⟩
    · exact .inl ⟨k, event, hold, rfl⟩
    · rcases hnew with rfl | ⟨events, rfl, hadmissible⟩
      · cases hmem
      · rw [List.mem_singleton.1 hmem] at hevent
        exact .inr ⟨events, hadmissible, rfl, event, hevent, rfl⟩
  constructor
  case once => exact htables ▸ h.once
  case journaled =>
    intro r hr
    rw [htables] at hr
    obtain ⟨k, event, hevent, rfl⟩ := h.journaled r hr
    exact ⟨k, event, (hat k event).2 (.inl hevent), rfl⟩
  case unclashing =>
    intro r r' hr hr' hclash
    rcases hrow r hr with hr | ⟨events, hadmissible, hsame, e, he, rfl⟩ <;>
      rcases hrow r' hr' with hr' | ⟨events', hadmissible', hsame', e', he', rfl⟩
    · exact h.unclashing r r' hr hr' hclash
    -- a new row and an old one, or two new ones
    · exact hadmissible'.unclashing e' he' r (.inl hr) hclash
    · exact (hadmissible.unclashing e he r' (.inl hr') hclash.symm).symm
    · rw [hsame'] at hsame
      cases hsame
      exact hadmissible.unclashing e' he' _ (.inr ⟨e, he, rfl⟩) hclash
  case kept =>
    intro k f hf chunk hmem
    rw [htables]
    rcases (hchunk k chunk).1 ⟨f, hf, hmem⟩ with ⟨f', hf', hmem'⟩ | ⟨rfl, hmem'⟩
    · exact h.kept k f' hf' chunk hmem'
    · rcases hnew with rfl | ⟨events, rfl, hadmissible⟩
      · cases hmem'
      · rw [List.mem_singleton.1 hmem']
        exact ⟨⟨hadmissible.session, hadmissible.registered⟩, hadmissible.recordable⟩
  case indexed =>
    intro k hk event hevent
    rw [htables]
    rw [hunindexed] at hk
    by_cases hkey : k = key
    · rw [hkey, Function.update_self] at hk
      obtain ⟨hsettled, rfl⟩ := hindexed hk
      rcases (hat k event).1 hevent with hold | ⟨-, chunk, hmem, -⟩
      · exact h.indexed k (hkey ▸ hsettled) event hold
      · cases hmem
    · rw [Function.update_of_ne hkey] at hk
      exact h.indexed k hk event (((hat k event).1 hevent).resolve_right fun hin => hkey hin.1)
  case files =>
    intro k
    rw [hfiles, hjournals]
    by_cases hkey : k = key
    · rw [hkey, Function.update_self, Function.update_self]
      exact (h.files key).put hn hothers hcut hsize hopened
    · rw [Function.update_of_ne hkey, Function.update_of_ne hkey]
      exact h.files k
  case closed =>
    intro k hk
    rw [hjournals]
    rw [hunindexed] at hk
    by_cases hkey : k = key
    · rw [hkey, Function.update_self] at hk ⊢
      exact hclosed hk
    · rw [Function.update_of_ne hkey] at hk ⊢
      exact h.closed k hk

end Writing

section Storing

variable {w : Writer} {batch : WriteBatch} {events : List JournalEvent}
  {duplicate n : ℕ} {fault : Fault}

/-- After an append the magic is in the file. -/
theorem WholeFiles.append_size {files : List JournalFile} {opened : Option (ℕ × ℕ)}
    (h : WholeFiles files opened) (recordBytes : ℕ) :
    magicBytes ≤ ((fileAt files n).append recordBytes events).size := by
  show magicBytes ≤ (fileAt files n).size + (fileAt files n).appendBytes recordBytes
  rw [JournalFile.appendBytes]
  split_ifs with hzero
  · omega
  · have hsize : ¬ (fileAt files n).size < magicBytes := fun hlt => hzero (h.fileAt_size hlt)
    omega

/-- The record is in the file, and its events are not in the catalog. -/
theorem Recoverable.appended (h : Recoverable w) (hadmissible : Admissible w batch.key events)
    (hn : n ≤ (w.files batch.key).length) (hothers : OthersStarted (w.files batch.key) n)
    {opened : Option (ℕ × ℕ)} :
    Recoverable (((
      { w with journals := Function.update w.journals batch.key opened } : Writer).setFile
        batch.key n
        ((fileAt (w.files batch.key) n).append batch.recordBytes events)).unindex batch.key) :=
  h.put (g := (fileAt (w.files batch.key) n).append batch.recordBytes events) hn hothers
    (h.files batch.key).fileAt_cut rfl (.inr ⟨events, rfl, hadmissible⟩)
    (fun hsize => absurd hsize (not_lt.2 ((h.files batch.key).append_size _)))
    (fun _ _ hnone => by cases hnone) (fun _ => rfl) (fun hfalse => by cases hfalse) rfl rfl
    (Function.update_idem ..) rfl

/-- **A batch that is recorded**: its chunk is at the end of a file, and its events are in the
catalog. -/
theorem Recoverable.store_written (h : Recoverable w) (hsettled : w.unindexed batch.key = false)
    (hadmissible : Admissible w batch.key events) :
    ∃ w' receipt, w.store batch events duplicate .none = (w', some receipt) ∧ Recoverable w' ∧
      w'.unindexed batch.key = false ∧ ∃ n ≤ (w.files batch.key).length,
        w'.files batch.key = putFile (w.files batch.key) n
          ((fileAt (w.files batch.key) n).append batch.recordBytes events) ∧
        receipt.journalChunkSequence = some ((fileAt (w.files batch.key) n).chunks.length + 1) := by
  obtain ⟨n, hn, hothers, hjournal⟩ := h.journalFor batch.key
  have happended := @Recoverable.appended w batch events n h hadmissible hn hothers
    (some (n, (fileAt (w.files batch.key) n).chunks.length))
  set f := fileAt (w.files batch.key) n with hf
  set opened := some (n, f.chunks.length)
  set appended :=
    ({ w with journals := Function.update w.journals batch.key opened } : Writer).setFile
      batch.key n (f.append batch.recordBytes events) with ha
  have hfiles : appended.files batch.key =
      putFile (w.files batch.key) n (f.append batch.recordBytes events) := by
    rw [ha, Writer.setFile]
    exact Function.update_self ..
  have hchunk : ∀ chunk, (∃ g ∈ appended.files batch.key, chunk ∈ g.chunks) ↔
      (∃ g ∈ w.files batch.key, chunk ∈ g.chunks) ∨ chunk ∈ [events] := by
    intro chunk
    rw [hfiles]
    exact chunk_putFile hn rfl
  obtain ⟨f', hf', hevents'⟩ := (hchunk events).2 (.inr (List.mem_singleton_self _))
  have hrowOf : ∀ event ∈ events, (appended.unindex batch.key).JournalRow
      (rowOf batch.key event.toCatalogEvent) :=
    fun event hevent => ⟨batch.key, event, ⟨f', hf', events, hevents', hevent⟩, rfl⟩
  obtain ⟨t', ⟨inserted, duplicates, outOfOrder⟩, hok, hrecords⟩ := @recordEvents_records w.tables
    (Writer.recordArgs batch n (f.chunks.length + 1) events true) _ happended.unclashing
    hadmissible.registered hadmissible.session happended.journaled (by
      rintro _ he
      obtain ⟨event, hevent, rfl⟩ := List.mem_map.1 he
      exact ⟨(hadmissible.recordable event hevent).2, hrowOf event hevent⟩)
  have hnew : ∀ r, (∃ e ∈ (Writer.recordArgs batch n (f.chunks.length + 1) events true).events,
      r = rowOf batch.key e) → ∃ event ∈ events, r = rowOf batch.key event.toCatalogEvent := by
    rintro r ⟨_, he, heq⟩
    obtain ⟨event, hevent, rfl⟩ := List.mem_map.1 he
    exact ⟨event, hevent, heq⟩
  -- the record is in the journal, then its rows are in the catalog, then its source is settled
  have hrecorded : Recoverable { appended.unindex batch.key with tables := t' } :=
    happended.retable hrecords fun r hr => by
      obtain ⟨event, hevent, rfl⟩ := hnew r hr
      exact hrowOf event hevent
  have hindexed : ∀ event, appended.JournaledAt batch.key event →
      rowOf batch.key event.toCatalogEvent ∈ t'.events := by
    rintro event ⟨g, hg, chunk, hmem, hevent⟩
    refine (hrecords.rows _).2 ?_
    rcases (hchunk chunk).1 ⟨g, hg, hmem⟩ with ⟨g', hg', hmem'⟩ | hmem'
    · exact .inl (h.indexed batch.key hsettled event ⟨g', hg', chunk, hmem', hevent⟩)
    · rw [List.mem_singleton.1 hmem'] at hevent
      exact .inr ⟨_, List.mem_map_of_mem hevent, rfl⟩
  have hwhole : WholeFiles (appended.files batch.key) (some (n, f.chunks.length + 1)) := by
    rw [hfiles]
    refine (h.files batch.key).put hn hothers (h.files batch.key).fileAt_cut
      (fun hsize => absurd hsize (not_lt.2 ((h.files batch.key).append_size _))) fun m q hm => ?_
    cases hm
    exact ⟨rfl, List.length_append⟩
  have hrecoverable := hrecorded.settle hindexed hwhole
  refine ⟨_, ⟨inserted, duplicate + duplicates, outOfOrder, some (f.chunks.length + 1)⟩, ?_,
    hrecoverable, Function.update_self .., n, hn, hfiles, rfl⟩
  rw [Writer.store, if_neg (by decide), hjournal]
  dsimp only
  rw [hok]
  simp only [ha, Writer.unindex, Writer.setFile, Function.update_idem]
  rfl

/-- **A batch after its selection**, with any failure that leaves what can be recovered. -/
theorem Recoverable.store (h : Recoverable w) (hsettled : w.unindexed batch.key = false)
    (hadmissible : Admissible w batch.key events) (hleaves : Leaves w batch fault) :
    Recoverable (w.store batch events duplicate fault).1 := by
  obtain ⟨n, hn, hothers, hjournal⟩ := h.journalFor batch.key
  have happended := @Recoverable.appended w batch events n h hadmissible hn hothers
    (some (n, (fileAt (w.files batch.key) n).chunks.length))
  have hleft := hleaves _ _ _ hjournal
  have hsame : Function.update w.unindexed batch.key false = w.unindexed := by
    rw [← hsettled, Function.update_eq_self]
  have hfiles := h.files batch.key
  cases fault with
  | journal => exact h
  | unopened =>
    -- only the journal object is new
    have hf : (w.files batch.key)[n]? = some (fileAt (w.files batch.key) n) := by
      rcases fileAt_cases (w.files batch.key) n with hf | ⟨hf, -⟩
      · exact hf
      · exact absurd hleft (not_lt.2 (List.getElem?_eq_none_iff.1 hf))
    have hwhole : WholeFiles (w.files batch.key)
        (some (n, (fileAt (w.files batch.key) n).chunks.length)) := by
      refine ⟨hfiles.uncut, fun m g hm hsize => ?_, fun m q hm => ?_⟩
      · by_cases hmn : m = n
        · exact ⟨(hfiles.started m g hm hsize).1, _, by rw [hmn]⟩
        · exact absurd (hothers m g hmn hm) (not_le.2 hsize)
      · cases hm
        exact ⟨_, hf, rfl⟩
    have hrecoverable := h.settle (h.indexed batch.key hsettled) hwhole
    rw [hsame] at hrecoverable
    rw [Writer.store, if_neg (by decide), hjournal]
    exact hrecoverable
  | cut bytes =>
    rw [Writer.store, if_neg (by exact Fault.noConfusion), hjournal]
    dsimp only
    split_ifs with hzero hcut
    · exact h.put (g := fileAt (w.files batch.key) n) hn hothers hfiles.fileAt_cut
        (List.append_nil _).symm (.inl rfl) (fun hsize => ⟨hfiles.fileAt_size hsize, _, rfl⟩)
        (fun m q hm => by cases hm; exact ⟨rfl, rfl⟩) (fun hfalse => by cases hfalse)
        (fun _ => ⟨hsettled, rfl⟩) rfl rfl rfl hsame.symm
    · -- the magic of a new file
      obtain ⟨hempty, hmagic⟩ := (hleft.resolve_left hzero).resolve_right (not_le.2 hcut)
      have hsize : ((fileAt (w.files batch.key) n).appendCut bytes).size = magicBytes := by
        rw [JournalFile.appendCut, hempty, hmagic, Nat.zero_add]
      refine h.put (g := (fileAt (w.files batch.key) n).appendCut bytes) hn hothers ?_
        (List.append_nil _).symm (.inl rfl) (fun hlt => absurd hlt (not_lt.2 hsize.ge))
        (fun _ _ hnone => by cases hnone) (fun _ => rfl) (fun hfalse => by cases hfalse) rfl rfl
        (Function.update_idem ..) rfl
      rw [JournalFile.appendCut, if_pos hempty, hmagic, Nat.sub_self]
    · exact happended
  | indexing =>
    rw [Writer.store, if_neg (by decide), hjournal]
    exact happended
  | none =>
    obtain ⟨w', receipt, hstore, hrecoverable, -⟩ :=
      @Recoverable.store_written _ _ _ duplicate h hsettled hadmissible
    rw [hstore]
    exact hrecoverable

end Storing

/-! ### Runs of batches -/

inductive WriterAct
  | write (batch : WriteBatch) (fault : Fault)
  | declareGap (args : DeclareGap)
  | registerSource (playbackSessionId sourceId : String)

/-- A batch, or a call of another. -/
def Writer.act (w : Writer) : WriterAct → Option Writer
  | .write batch fault => some (w.writeBatch batch fault).1
  | .declareGap args => some { w with tables := (w.tables.call (.declareGap args)).1 }
  | .registerSource session sourceId =>
    some { w with tables := (w.tables.call (.registerSource session sourceId)).1 }

/-- What a batch writes can be recorded, and its failure leaves what can be recovered. -/
def Meets (w : Writer) : WriterAct → Prop
  | .write batch fault =>
    ∀ events, (w.recover batch).1.selection batch = some events → events ≠ [] →
      Admissible (w.recover batch).1 batch.key events ∧ Leaves (w.recover batch).1 batch fault
  | _ => True

/-- The catalog has the events that are in the journals of the source, each once. -/
structure Indexed (w : Writer) (key : SourceKey) : Prop where
  rows : ∀ r : EventRow, r.playbackSessionId = key.1 → r.sourceId = key.2 →
    (r ∈ w.tables.events ↔ ∃ event, w.JournaledAt key event ∧ r = rowOf key event.toCatalogEvent)
  once : (w.tables.events.map EventRow.eventId).Nodup

section Runs

variable {w w' : Writer} {batch : WriteBatch} {events : List JournalEvent} {fault : Fault}
  {key : SourceKey} {t t' : Tables}

theorem Recoverable.indexing (h : Recoverable w) (hsettled : w.unindexed key = false) :
    Indexed w key where
  rows r hsession hsource := by
    constructor
    · intro hr
      obtain ⟨k, event, hevent, rfl⟩ := h.journaled r hr
      have hkey : k = key := Prod.ext hsession hsource
      exact ⟨event, hkey ▸ hevent, by rw [hkey]⟩
    · rintro ⟨event, hevent, rfl⟩
      exact h.indexed key hsettled event hevent
  once := h.once

theorem write_unselected (h : w.selection batch = none) : w.write batch fault = (w, none) := by
  rw [Writer.write]
  rw [Writer.selection] at h
  cases hprepared : w.tables.prepare batch with
  | none => rfl
  | some prepared =>
    rw [hprepared, Option.bind_some] at h
    dsimp only
    rw [h]

theorem write_selected (h : w.selection batch = some events) :
    ∃ duplicate, w.write batch fault = if events = [] then (w, some ⟨0, duplicate, 0, none⟩)
      else w.store batch events duplicate fault := by
  rw [Writer.write]
  rw [Writer.selection] at h
  cases hprepared : w.tables.prepare batch with
  | none =>
    rw [hprepared] at h
    cases h
  | some prepared =>
    rw [hprepared, Option.bind_some] at h
    refine ⟨prepared.length - events.length, ?_⟩
    dsimp only
    rw [h]

theorem writeBatch_recovered (h : w.recover batch = (w', true)) :
    w.writeBatch batch fault = w'.write batch fault := by
  rw [Writer.writeBatch, h]

/-- A batch. -/
theorem Recoverable.writeBatch (h : Recoverable w) (hmeets : Meets w (.write batch fault)) :
    Recoverable (w.writeBatch batch fault).1 := by
  obtain ⟨w₁, hrecover, hrecoverable, hsettled, -⟩ := h.recover batch
  rw [writeBatch_recovered hrecover]
  rw [Meets, hrecover] at hmeets
  cases hselection : w₁.selection batch with
  | none =>
    rw [write_unselected hselection]
    exact hrecoverable
  | some events =>
    obtain ⟨duplicate, hwrite⟩ := @write_selected _ _ _ fault hselection
    rw [hwrite]
    split_ifs with hempty
    · exact hrecoverable
    · obtain ⟨hadmissible, hleaves⟩ := hmeets events hselection hempty
      exact hrecoverable.store hsettled hadmissible hleaves

/-- Gaps and sources add no rows. -/
theorem call_records {c : CatalogCall} (hc : ∀ args, c ≠ .recordEvents args) :
    Records t (t.call c).1 fun _ => False := by
  have hrefl : Records t t fun _ => False := .refl t fun _ => id
  cases c with
  | recordEvents args => exact absurd rfl (hc args)
  | declareGap args =>
    rw [Tables.call]
    cases hok : t.declareGap args with
    | error error => exact hrefl
    | ok result =>
      obtain ⟨t', watermark⟩ := result
      obtain ⟨row, gaps, -, -, -, -, -, -, rfl⟩ := declareGap_ok hok
      refine ⟨rfl, fun sourceId hr => ?_, hrefl.rows, id⟩
      rw [registered_iff] at hr ⊢
      show sourceId ∈ (Tables.updateSource _ _ _).sources.map SourceRow.sourceId
      rw [updateSource_ids]
      · exact hr
      · exact fun _ => rfl
  | registerSource session sourceId =>
    rw [Tables.call]
    cases hok : t.registerSource session sourceId with
    | error error => exact hrefl
    | ok t' =>
      rw [Tables.registerSource] at hok
      split_ifs at hok
      · cases hok
        exact hrefl
      · cases hok
        refine ⟨rfl, fun id hr => ?_, hrefl.rows, id⟩
        obtain ⟨row, hrow, hid⟩ := hr
        exact ⟨row, List.mem_append_left _ hrow, hid⟩

/-- everything that is reached is recoverable. -/
theorem Recoverable.act (h : Recoverable w) {a : WriterAct} (hmeets : Meets w a)
    (hact : w.act a = some w') : Recoverable w' := by
  cases a with
  | write batch fault =>
    cases hact
    exact h.writeBatch hmeets
  | declareGap args =>
    cases hact
    exact h.retable (call_records fun _ => CatalogCall.noConfusion) fun _ => False.elim
  | registerSource session sourceId =>
    cases hact
    exact h.retable (call_records fun _ => CatalogCall.noConfusion) fun _ => False.elim

end Runs

/-- After every run whose batches write what can be recorded, and whose failures leave what can be
recovered, the recovery of a source goes through and indexes the events of its journals, each once;
and a batch whose events can be recorded gets a receipt, its events are indexed too, and they are
the next chunk of a journal. -/
theorem failed_batches_recovered (sessions : List String) (w : Writer)
    (h : Reach Writer.act Meets (.fresh sessions) w) (batch : WriteBatch) :
    ∃ w₁, w.recover batch = (w₁, true) ∧ w₁.files = w.files ∧ Indexed w₁ batch.key ∧
      ∀ events, w₁.selection batch = some events →
        (events ≠ [] → Admissible w₁ batch.key events) →
        ∃ w' receipt, w.writeBatch batch .none = (w', some receipt) ∧ Indexed w' batch.key ∧
          (events ≠ [] → ∃ n ≤ (w.files batch.key).length,
            w'.files batch.key = putFile (w.files batch.key) n
              ((fileAt (w.files batch.key) n).append batch.recordBytes events) ∧
            receipt.journalChunkSequence =
                some ((fileAt (w.files batch.key) n).chunks.length + 1)) := by
  have hrecoverable : Recoverable w :=
    Reach.invariant (Recoverable.fresh sessions) (fun _ _ _ _ hs hmeets hact =>
      hs.act hmeets hact) h
  obtain ⟨w₁, hrecover, hrecoverable₁, hsettled, hfiles⟩ := hrecoverable.recover batch
  refine ⟨w₁, hrecover, hfiles, hrecoverable₁.indexing hsettled,
    fun events hselection hadmissible => ?_⟩
  obtain ⟨duplicate, hwrite⟩ := @write_selected _ _ _ .none hselection
  rw [writeBatch_recovered hrecover, hwrite]
  split_ifs with hempty
  · exact ⟨w₁, _, rfl, hrecoverable₁.indexing hsettled, fun hne => absurd hempty hne⟩
  · obtain ⟨w', receipt, hstore, hrecoverable', hsettled', hwritten⟩ :=
      @Recoverable.store_written _ _ _ duplicate hrecoverable₁ hsettled (hadmissible hempty)
    rw [hfiles] at hwritten
    exact ⟨w', receipt, hstore, hrecoverable'.indexing hsettled', fun _ => hwritten⟩



/-- A batch of the source `client` with one event. -/
def eventBatch (eventId : String) (sequence : ℕ) : WriteBatch where
  playbackSessionId := "playback"
  sourceId := "client"
  sourceType := "web"
  events := [⟨⟨eventId, sequence, .value "play", .value "client"⟩, true⟩]
  allocateSourceSequences := false
  recordBytes := 400
  recordBytes_pos := by decide

/-- The source is registered. -/
def registeredClient : Writer :=
  { Writer.fresh ["playback"] with tables := ⟨["playback"],
    [⟨"client", "playback", 0, 0, 0, 0⟩], [], [], []⟩ }

theorem registered_admissible (eventId : String) (sequence : ℕ) :
    Admissible registeredClient ("playback", "client") (eventBatch eventId sequence).events where
  session := List.mem_singleton_self _
  registered := ⟨_, List.mem_singleton_self _, rfl⟩
  recordable := by
    intro event hevent
    rw [List.mem_singleton.1 hevent]
    exact ⟨rfl, ⟨Field.noConfusion, Field.noConfusion⟩, Field.noConfusion, Field.noConfusion⟩
  unclashing := by
    rintro event hevent r (⟨_, _, ⟨_, hf, -⟩, -⟩ | ⟨e, he, rfl⟩) -
    · cases hf
    · rw [List.mem_singleton.1 he, List.mem_singleton.1 hevent]

theorem failed_batches_recovered_client :
    Reach Writer.act Meets (.fresh ["playback"])
        (registeredClient.writeBatch (eventBatch "first" 1) .indexing).1 ∧
      ∃ w₁, (registeredClient.writeBatch (eventBatch "first" 1) .indexing).1.recover
        (eventBatch "second" 2) =
        (w₁, true) ∧ Indexed w₁ ("playback", "client") ∧ w₁.tables.events.length = 1 := by
  have hrun : Reach Writer.act Meets (.fresh ["playback"])
      (registeredClient.writeBatch (eventBatch "first" 1) .indexing).1 := by
    refine .next (.next .start (a := .registerSource "playback" "client") trivial rfl)
      (a := .write (eventBatch "first" 1) .indexing) ?_ rfl
    intro events hselection _
    have hevents : some (eventBatch "first" 1).events = some events := hselection
    rw [← Option.some.inj hevents]
    exact ⟨registered_admissible "first" 1, fun _ _ _ _ => trivial⟩
  obtain ⟨w₁, hrecover, -, hindexed, -⟩ := failed_batches_recovered ["playback"]
    _ hrun (eventBatch "second" 2)
  refine ⟨hrun, w₁, hrecover, hindexed, ?_⟩
  have hw₁ : ((registeredClient.writeBatch (eventBatch "first" 1) .indexing).1.recover
      (eventBatch "second" 2)).1 = w₁ := congrArg Prod.fst hrecover
  rw [← hw₁]
  rfl

/-- A source whose first file is not valid is not recovered. -/
theorem recover_invalid {w : Writer} {batch : WriteBatch} {f : JournalFile}
    {rest : List JournalFile}
    (hunindexed : w.unindexed batch.key = true) (hfiles : w.files batch.key = f :: rest)
    (hverify : f.verify ≠ .valid) : w.recover batch = (w, false) := by
  have hf : fileAt (w.files batch.key) 0 = f := by
    rw [hfiles]
    rfl
  rw [Writer.recover, if_pos hunindexed, hfiles, List.length_cons, List.range_succ_eq_map,
    Writer.recoverFiles, hf, if_neg hverify]

/-- Of the record of the first batch ten bytes are written. Every later batch of its source is
refused, and changes nothing. -/
theorem torn_tail_wedges :
    ∃ w, runFrom Writer.act (.fresh ["playback"])
        [.registerSource "playback" "client", .write (eventBatch "first" 1) (.cut 10)] = some w ∧
      w.tables.Registered "client" ∧
      ∀ batch : WriteBatch, batch.key = ("playback", "client") →
          w.writeBatch batch .none = (w, none) := by
  obtain ⟨w, hrun, htables, hunindexed, hfiles⟩ : ∃ w, runFrom Writer.act (.fresh ["playback"])
        [.registerSource "playback" "client", .write (eventBatch "first" 1) (.cut 10)] = some w ∧
      w.tables = registeredClient.tables ∧ w.unindexed ("playback", "client") = true ∧
      w.files ("playback", "client") = [⟨10, [], 4⟩] := ⟨_, rfl, rfl, rfl, rfl⟩
  refine ⟨w, hrun, ?_, fun batch hkey => ?_⟩
  · rw [htables]
    exact ⟨_, List.mem_singleton_self _, rfl⟩
  · rw [Writer.writeBatch,
      recover_invalid (by rw [hkey]; exact hunindexed) (by rw [hkey]; exact hfiles) (by decide)]

end Diagnostics
