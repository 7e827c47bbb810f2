/-
The diagnostics writer between its journals and the catalog (`playback_diagnostics/writer.py`).

A batch is classified, appended to the journal of its source and indexed in the catalog, under the
mutation guard. Where the append or the indexing fails with something in the journal, the source is
unindexed, and its next batch indexes the chunks of the journal again, one at a time, before it is
written; gaps may be declared between. A source has one type, and a session one directory.

* `Tables.classifyInBatch`, `selectEvents` — what of a batch is written;
* `Writer.journalFor`, `Writer.store`, `Writer.recordChunk` — the steps of `_write_batch`;
* `Service.step` — the steps of the worker, and the calls of others;
* `Apart` — no event of a journal lies in a gap;
* `Waits` — a gap is declared over no event that is in a journal and not in the catalog;
* `recorded_apart` — then no recorded event lies in a gap;
* `gap_over_journal` — otherwise an event is recorded in a gap.
-/
import Elvern.CatalogTables
import Mathlib.Logic.Function.Basic

open Runs

namespace Diagnostics

/-! ### Batches -/

/-- An event of a batch, and whether its JSON can be read again (`Journal.Event.Unseparated`). -/
structure JournalEvent extends CatalogEvent where
  readable : Bool
  deriving DecidableEq

/-- The playback session and the source. -/
abbrev SourceKey := String × String

structure WriteBatch where
  playbackSessionId : String
  sourceId : String
  sourceType : String
  events : List JournalEvent
  allocateSourceSequences : Bool
  /-- the length of the record that the journal makes of it -/
  recordBytes : ℕ
  recordBytes_pos : 0 < recordBytes

def WriteBatch.key (batch : WriteBatch) : SourceKey := (batch.playbackSessionId, batch.sourceId)

section Classifying

variable (t : Tables) (sourceId : String)

/-- `classify_event_batch`, of one event. -/
def Tables.classifyInBatch (event : CatalogEvent) : Catalog.Classification :=
  let idRow := t.events.find? fun r => decide (r.eventId = event.eventId)
  let sequenceRow := t.events.find? fun r =>
    decide (r.sourceId = sourceId ∧ r.sourceSequence = event.sourceSequence)
  if t.gaps.any fun g => decide (g.sourceId = sourceId ∧
      g.gap.startSequence ≤ event.sourceSequence ∧
        event.sourceSequence ≤ g.gap.endSequence) then .conflict
  else
    match idRow, sequenceRow with
    | none, none => .new
    | some i, some s =>
      if i.sourceId = sourceId ∧ i.sourceSequence = event.sourceSequence ∧
          s.eventId = event.eventId then
        .duplicate
      else .conflict
    | _, _ => .conflict

/-- The loop over the classifications, with the keys it has `seen`; `none` where it raises. -/
def selectEvents : List (String × ℕ) → List JournalEvent → Option (List JournalEvent)
  | _, [] => some []
  | seen, event :: rest =>
    let key := (event.eventId, event.sourceSequence)
    let classification := t.classifyInBatch sourceId event.toCatalogEvent
    if key ∈ seen ∨ classification = .duplicate then selectEvents seen rest
    else if classification = .conflict then none
    else (selectEvents (key :: seen) rest).map (event :: ·)

end Classifying

/-- `_prepare_internal_events`: the events get the next sequences. -/
def allocated : ℕ → List JournalEvent → List JournalEvent
  | _, [] => []
  | next, event :: rest => { event with sourceSequence := next } :: allocated (next + 1) rest

/-- The events of a batch; `none` where its source is not registered. -/
def Tables.prepare (t : Tables) (batch : WriteBatch) : Option (List JournalEvent) :=
  if batch.allocateSourceSequences then
    (t.source batch.sourceId).map fun row => allocated (row.maxSeenSequence + 1) batch.events
  else some batch.events

/-! ### Journals -/

def journalRotateBytes : ℕ := 64000000

def magicBytes : ℕ := 6

/-- A journal file: its size, its whole records, and the bytes of one that was cut. -/
structure JournalFile where
  size : ℕ
  chunks : List (List JournalEvent)
  cut : ℕ
  deriving DecidableEq

inductive Verdict
  | valid
  | incompleteTail
  | invalid
  deriving DecidableEq

/-- What `verify_journal` finds. -/
def JournalFile.verify (f : JournalFile) : Verdict :=
  if f.size < magicBytes then .invalid
  else if f.chunks.any fun events => events.any fun event => !event.readable then .invalid
  else if f.cut = 0 then .valid
  else .incompleteTail

structure Writer where
  tables : Tables
  /-- the files of a source, by their numbers -/
  files : SourceKey → List JournalFile
  /-- `_journals`: the number of the file, and `chunk_sequence` -/
  journals : SourceKey → Option (ℕ × ℕ)
  unindexed : SourceKey → Bool

def Writer.fresh (sessions : List String) : Writer :=
  ⟨.fresh sessions, fun _ => [], fun _ => none, fun _ => false⟩

namespace Writer

variable (w : Writer)

/-- A new `EncryptedJournal` on the first file that is not full; `none` where it raises. -/
def openJournal (key : SourceKey) : Option (Writer × ℕ × ℕ) :=
  let number := (w.files key).findIdx (·.size < journalRotateBytes)
  let opened (files : List JournalFile) (sequence : ℕ) : Writer × ℕ × ℕ :=
    ({ w with
        files := Function.update w.files key files
        journals := Function.update w.journals key (some (number, sequence)) }, number, sequence)
  match (w.files key)[number]? with
  | none => some (opened (w.files key) 0)
  | some f =>
    match f.verify with
    | .valid => some (opened (w.files key) f.chunks.length)
    | .incompleteTail =>
      -- the tail goes into quarantine
      some (opened ((w.files key).set number { f with
        size := f.size - f.cut
        cut := 0 }) f.chunks.length)
    | .invalid => none

/-- `_journal_for` -/
def journalFor (key : SourceKey) : Option (Writer × ℕ × ℕ) :=
  match w.journals key with
  | none => w.openJournal key
  | some (number, sequence) =>
    match (w.files key)[number]? with
    | none => none
    | some f =>
      if f.size < journalRotateBytes then some (w, number, sequence) else w.openJournal key

end Writer

/-- The file, or the one that is created. -/
def fileAt (files : List JournalFile) (number : ℕ) : JournalFile := (files[number]?).getD ⟨0, [], 0⟩

def putFile (files : List JournalFile) (number : ℕ) (f : JournalFile) : List JournalFile :=
  if number < files.length then files.set number f else files ++ [f]

/-- What `append` writes to a file. -/
def JournalFile.appendBytes (f : JournalFile) (recordBytes : ℕ) : ℕ :=
  (if f.size = 0 then magicBytes else 0) + recordBytes

/-- A whole record is written. -/
def JournalFile.append (f : JournalFile) (recordBytes : ℕ)
    (events : List JournalEvent) : JournalFile :=
  { f with size := f.size + f.appendBytes recordBytes, chunks := f.chunks ++ [events] }

/-- Of a record so many bytes are written; those of the magic come first. -/
def JournalFile.appendCut (f : JournalFile) (k : ℕ) : JournalFile :=
  { f with size := f.size + k, cut := if f.size = 0 then k - magicBytes else k }

/-- Where `_write_batch` fails after its reservation. -/
inductive Fault
  | none
  /-- `_journal_for` raises -/
  | journal
  /-- `append` raises before it opens the file -/
  | unopened
  /-- `append` raises after so many bytes -/
  | cut (bytes : ℕ)
  /-- `record_events` raises -/
  | indexing
  deriving DecidableEq

structure Receipt where
  accepted : ℕ
  duplicate : ℕ
  outOfOrder : ℕ
  journalChunkSequence : Option ℕ
  deriving DecidableEq

namespace Writer

variable (w : Writer)

def recordArgs (batch : WriteBatch) (number sequence : ℕ) (events : List JournalEvent)
    (preclassified : Bool) : RecordEvents where
  playbackSessionId := batch.playbackSessionId
  sourceId := batch.sourceId
  journalRelativePath :=
    batch.playbackSessionId ++ "/raw/" ++ batch.sourceId ++ "-" ++ toString (number + 1) ++ ".elvd"
  journalChunkSequence := sequence
  events := events.map JournalEvent.toCatalogEvent
  sourceType := some batch.sourceType
  preclassified := preclassified

/-- The source has something in its journal that is not in the catalog. -/
def unindex (key : SourceKey) : Writer :=
  { w with
    unindexed := Function.update w.unindexed key true
    journals := Function.update w.journals key none }

def setFile (key : SourceKey) (number : ℕ) (f : JournalFile) : Writer :=
  { w with files := Function.update w.files key (putFile (w.files key) number f) }

/-- `_write_batch` after the reservation; no receipt where it raises. -/
def store (batch : WriteBatch) (events : List JournalEvent) (duplicate : ℕ) (fault : Fault) :
    Writer × Option Receipt :=
  if fault = .journal then (w, none)
  else
    match w.journalFor batch.key with
    | none => (w, none)
    | some (w, number, sequence) =>
      let f := fileAt (w.files batch.key) number
      let appended := w.setFile batch.key number (f.append batch.recordBytes events)
      match fault with
      | .journal => (w, none)
      | .unopened => (w, none)
      | .cut bytes =>
        if bytes = 0 then (w.setFile batch.key number f, none)
        else if bytes < f.appendBytes batch.recordBytes then
          ((w.setFile batch.key number (f.appendCut bytes)).unindex batch.key, none)
        else (appended.unindex batch.key, none)
      | .indexing => (appended.unindex batch.key, none)
      | .none =>
        match w.tables.recordEvents (recordArgs batch number (sequence + 1) events true) with
        | .error _ => (appended.unindex batch.key, none)
        | .ok (tables, inserted, duplicates, outOfOrder) =>
          ({ appended with
              tables := tables
              journals := Function.update w.journals batch.key (some (number, sequence + 1))
              unindexed := Function.update w.unindexed batch.key false },
            some ⟨inserted, duplicate + duplicates, outOfOrder, some (sequence + 1)⟩)

/-- `_write_batch` after the recovery of its source. -/
def write (batch : WriteBatch) (fault : Fault) : Writer × Option Receipt :=
  match w.tables.prepare batch with
  | none => (w, none)
  | some prepared =>
    match selectEvents w.tables batch.sourceId [] prepared with
    | none => (w, none)
    | some events =>
      let duplicate := prepared.length - events.length
      if events = [] then (w, some ⟨0, duplicate, 0, none⟩)
      else w.store batch events duplicate fault

/-- One chunk of `_recover_unindexed_source`; `none` where it raises. -/
def recordChunk (batch : WriteBatch) (number sequence : ℕ) (events : List JournalEvent) :
    Option Writer :=
  match w.tables.recordEvents (recordArgs batch number sequence events false) with
  | .error _ => none
  | .ok (tables, _) => some { w with tables := tables }

/-- The end of `_recover_unindexed_source`. -/
def reindex (key : SourceKey) : Writer :=
  { w with
    unindexed := Function.update w.unindexed key false
    journals := Function.update w.journals key none }

end Writer

/-! ### The service -/

/-- What is left of `_recover_unindexed_source`. -/
inductive Task
  | verify (number : ℕ)
  | record (number sequence : ℕ) (events : List JournalEvent)

/-- Where the worker is in a batch. -/
inductive Job
  | recovering (batch : WriteBatch) (todo : List Task)
  | writing (batch : WriteBatch)

structure Service where
  writer : Writer
  job : Option Job

inductive ServiceAct
  /-- the worker takes a batch -/
  | take (batch : WriteBatch)
  /-- the worker goes on; the fault is that of `_write_batch` -/
  | advance (fault : Fault)
  | declareGap (args : DeclareGap)
  | registerSource (playbackSessionId sourceId : String)

/-- The chunks of a file, as `verify_journal` gives them. -/
def chunkTasks (number : ℕ) (chunks : List (List JournalEvent)) : List Task :=
  chunks.zipIdx.map fun chunk => .record number (chunk.2 + 1) chunk.1

namespace Service

variable (s : Service)

/-- The worker goes on with its job. -/
def work (fault : Fault) : Job → Service
  | .writing batch => ⟨(s.writer.write batch fault).1, none⟩
  | .recovering batch [] => ⟨s.writer.reindex batch.key, some (.writing batch)⟩
  | .recovering batch (.verify number :: todo) =>
    let f := fileAt (s.writer.files batch.key) number
    -- an invalid journal raises
    if f.verify = .valid then
      { s with job := some (.recovering batch (chunkTasks number f.chunks ++ todo)) }
    else { s with job := none }
  | .recovering batch (.record number sequence events :: todo) =>
    match s.writer.recordChunk batch number sequence events with
    | none => { s with job := none }
    | some writer => ⟨writer, some (.recovering batch todo)⟩

def step (s : Service) : ServiceAct → Option Service
  | .take batch =>
    match s.job with
    | some _ => none
    | none =>
      if s.writer.unindexed batch.key then
        let numbers := List.range (s.writer.files batch.key).length
        some { s with job := some (.recovering batch (numbers.map .verify)) }
      else some { s with job := some (.writing batch) }
  | .advance fault => s.job.map (s.work fault)
  | .declareGap args =>
    some { s with writer.tables := (s.writer.tables.call (.declareGap args)).1 }
  | .registerSource session sourceId =>
    some { s with writer.tables := (s.writer.tables.call (.registerSource session sourceId)).1 }

end Service

/-! ### Gaps and journals -/

/-- No gap of the source covers the sequence. -/
def Tables.Free (t : Tables) (sourceId : String) (n : ℕ) : Prop :=
  ∀ g ∈ t.gaps, g.sourceId = sourceId → ¬ (g.gap.startSequence ≤ n ∧ n ≤ g.gap.endSequence)

/-- The event is in a journal of the source. -/
def Writer.Journaled (w : Writer) (sourceId : String) (event : JournalEvent) : Prop :=
  ∃ session, ∃ f ∈ w.files (session, sourceId), ∃ events ∈ f.chunks, event ∈ events

/-- No event lies in a gap, whether it is recorded or only in a journal, and what is to be recorded
is in a journal. -/
structure Apart (s : Service) : Prop where
  recorded : ∀ r ∈ s.writer.tables.events, s.writer.tables.Free r.sourceId r.sourceSequence
  journaled : ∀ sourceId event, s.writer.Journaled sourceId event →
    s.writer.tables.Free sourceId event.sourceSequence
  todo : ∀ batch todo, s.job = some (.recovering batch todo) → ∀ number sequence events,
    .record number sequence events ∈ todo → ∀ event ∈ events,
      s.writer.Journaled batch.sourceId event

/-- A gap is declared over no sequence of an event that is in a journal and not in the catalog. -/
def Waits (s : Service) : ServiceAct → Prop
  | .declareGap args => ∀ event, s.writer.Journaled args.sourceId event →
      (∀ r ∈ s.writer.tables.events,
        ¬ (r.sourceId = args.sourceId ∧ r.sourceSequence = event.sourceSequence)) →
      ¬ (args.startSequence.toNat ≤ event.sourceSequence ∧
        event.sourceSequence ≤ args.endSequence.toNat)
  | _ => True

section Rows

variable {t t' : Tables} {args : RecordEvents} {s s' : Recording} {event : CatalogEvent}
  {sourceId : String}

/-- A round adds the row of its event, or none. -/
theorem recordEvent_rows (h : recordEvent args s event = .ok s') :
    s'.tables.gaps = s.tables.gaps ∧ (s'.tables.events = s.tables.events ∨
      s'.tables.events = s.tables.events ++
        [⟨event.eventId, args.playbackSessionId, args.sourceId, event.sourceSequence⟩]) := by
  rw [recordEvent] at h
  dsimp only at h
  generalize (if args.preclassified then Catalog.Classification.new
    else s.tables.classifyEvent event.eventId args.sourceId event.sourceSequence) =
      classification at h
  cases classification with
  | duplicate =>
    cases h
    exact ⟨rfl, .inl rfl⟩
  | conflict => cases h
  | new =>
    simp only at h
    split at h
    · cases h
    split at h
    · cases h
      exact ⟨rfl, .inl rfl⟩
    · cases h
      exact ⟨rfl, .inr rfl⟩

/-- What the loop of `record_events` has added. -/
theorem recordLoop_rows : ∀ {events : List CatalogEvent} {s s' : Recording},
    events.foldlM (recordEvent args) s = .ok s' →
    s'.tables.gaps = s.tables.gaps ∧ (∀ r ∈ s.tables.events, r ∈ s'.tables.events) ∧
      ∀ r ∈ s'.tables.events, r ∈ s.tables.events ∨
        ∃ event ∈ events, r = ⟨event.eventId, args.playbackSessionId, args.sourceId,
            event.sourceSequence⟩ := by
  intro events
  induction events with
  | nil =>
    intro s s' h
    cases h
    exact ⟨rfl, fun r hr => hr, fun r hr => .inl hr⟩
  | cons event rest ih =>
    intro s s' h
    rw [List.foldlM_cons] at h
    cases hfirst : recordEvent args s event with
    | error error =>
      rw [hfirst] at h
      cases h
    | ok s₁ =>
      rw [hfirst] at h
      obtain ⟨hgaps, hevents⟩ := recordEvent_rows hfirst
      obtain ⟨hgaps', hkept, hnew⟩ := ih h
      have hsub : ∀ r ∈ s.tables.events, r ∈ s₁.tables.events := by
        intro r hr
        rcases hevents with hsame | hadded
        · exact hsame.symm ▸ hr
        · exact hadded.symm ▸ List.mem_append_left _ hr
      refine ⟨hgaps'.trans hgaps, fun r hr => hkept r (hsub r hr), fun r hr => ?_⟩
      rcases hnew r hr with hr | ⟨e, he, rfl⟩
      · rcases hevents with hsame | hadded
        · exact .inl (hsame ▸ hr)
        · rw [hadded] at hr
          rcases List.mem_append.1 hr with hr | hr
          · exact .inl hr
          · exact .inr ⟨event, List.mem_cons_self .., List.mem_singleton.1 hr⟩
      · exact .inr ⟨e, List.mem_cons_of_mem _ he, rfl⟩

/-- The rows after `record_events`. -/
theorem recordEvents_rows {counts : ℕ × ℕ × ℕ} (h : t.recordEvents args = .ok (t', counts)) :
    t'.gaps = t.gaps ∧ (∀ r ∈ t.events, r ∈ t'.events) ∧ ∀ r ∈ t'.events, r ∈ t.events ∨
      ∃ event ∈ args.events,
        r = ⟨event.eventId, args.playbackSessionId, args.sourceId, event.sourceSequence⟩ := by
  obtain ⟨row, s, noted, -, hloop, hnoted, rfl⟩ := recordEvents_ok h
  obtain ⟨hgaps, hkept, hnew⟩ := recordLoop_rows hloop
  obtain ⟨-, hevents, hgaps', -⟩ := noteChunk_spec hnoted
  refine ⟨hgaps'.trans hgaps, fun r hr => ?_, fun r hr => ?_⟩
  · show r ∈ noted.events
    rw [hevents]
    exact hkept r hr
  · have hr' : r ∈ noted.events := hr
    rw [hevents] at hr'
    exact hnew r hr'

/-- An event that is not in conflict is in no gap. -/
theorem classifyInBatch_free (h : t.classifyInBatch sourceId event ≠ .conflict) :
    t.Free sourceId event.sourceSequence := by
  intro g hg hsource hcovers
  refine h ?_
  rw [Tables.classifyInBatch]
  exact if_pos (List.any_eq_true.2 ⟨g, hg, decide_eq_true ⟨hsource, hcovers⟩⟩)

/-- What is selected is new. -/
theorem selectEvents_new : ∀ {events selected : List JournalEvent} {seen : List (String × ℕ)},
    selectEvents t sourceId seen events = some selected → ∀ event ∈ selected, event ∈ events ∧
      t.classifyInBatch sourceId event.toCatalogEvent = .new := by
  intro events
  induction events with
  | nil =>
    intro selected seen h event hevent
    cases h
    cases hevent
  | cons first rest ih =>
    intro selected seen h event hevent
    rw [selectEvents] at h
    split_ifs at h with hskip hconflict
    · obtain ⟨hmem, hnew⟩ := ih h event hevent
      exact ⟨List.mem_cons_of_mem _ hmem, hnew⟩
    · obtain ⟨others, hothers, rfl⟩ := Option.map_eq_some_iff.1 h
      rcases List.mem_cons.1 hevent with rfl | hevent
      · refine ⟨List.mem_cons_self .., ?_⟩
        cases hclass : t.classifyInBatch sourceId event.toCatalogEvent with
        | new => rfl
        | duplicate => exact absurd (.inr hclass) hskip
        | conflict => exact absurd hclass hconflict
      · obtain ⟨hmem, hnew⟩ := ih hothers event hevent
        exact ⟨List.mem_cons_of_mem _ hmem, hnew⟩

end Rows

section Files

variable {w w' : Writer} {key : SourceKey} {number sequence : ℕ} {f : JournalFile}
  {sourceId : String} {event : JournalEvent}

theorem mem_fileAt {files : List JournalFile} {events : List JournalEvent}
    (h : events ∈ (fileAt files number).chunks) : ∃ f ∈ files, events ∈ f.chunks := by
  rw [fileAt] at h
  cases hf : files[number]? with
  | none =>
    rw [hf] at h
    cases h
  | some f =>
    rw [hf] at h
    exact ⟨f, List.mem_of_getElem? hf, h⟩

/-- What is in the journals after a file was put. -/
theorem journaled_setFile (h : (w.setFile key number f).Journaled sourceId event) :
    w.Journaled sourceId event ∨ sourceId = key.2 ∧ ∃ events ∈ f.chunks, event ∈ events := by
  obtain ⟨session, g, hg, events, hevents, hmem⟩ := h
  by_cases hkey : (session, sourceId) = key
  · have hg' : g ∈ putFile (w.files key) number f := by
      rw [Writer.setFile, hkey] at hg
      simpa using hg
    rw [putFile] at hg'
    have hcases : g ∈ w.files key ∨ g = f := by
      split_ifs at hg'
      · exact (List.mem_or_eq_of_mem_set hg')
      · exact (List.mem_append.1 hg').imp_right List.mem_singleton.1
    rcases hcases with hold | rfl
    · exact .inl ⟨session, g, hkey ▸ hold, events, hevents, hmem⟩
    · exact .inr ⟨congrArg Prod.snd hkey, events, hevents, hmem⟩
  · refine .inl ⟨session, g, ?_, events, hevents, hmem⟩
    rw [Writer.setFile] at hg
    simpa [Function.update_of_ne hkey] using hg

/-- A journal object changes nothing but the files of its source, and no chunk. -/
theorem openJournal_spec (h : w.openJournal key = some (w', number, sequence)) :
    w'.tables = w.tables ∧ ∀ sourceId event, w'.Journaled sourceId event →
        w.Journaled sourceId event := by
  rw [Writer.openJournal] at h
  dsimp only at h
  generalize (w.files key).findIdx (·.size < journalRotateBytes) = n at h
  have hsame : ∀ files sequence, (∀ g ∈ files, ∃ f ∈ w.files key, g.chunks = f.chunks) →
      ∀ sourceId event, Writer.Journaled { w with
        files := Function.update w.files key files
        journals := Function.update w.journals key (some (n, sequence)) } sourceId event →
      w.Journaled sourceId event := by
    rintro files sequence hfiles sourceId event ⟨session, g, hg, events, hevents, hmem⟩
    by_cases hkey : (session, sourceId) = key
    · have hg' : g ∈ files := by simpa [hkey] using hg
      obtain ⟨f, hf, hchunks⟩ := hfiles g hg'
      exact ⟨session, f, hkey ▸ hf, events, hchunks ▸ hevents, hmem⟩
    · refine ⟨session, g, ?_, events, hevents, hmem⟩
      simpa [Function.update_of_ne hkey] using hg
  cases hf : (w.files key)[n]? with
  | none =>
    rw [hf] at h
    cases h
    exact ⟨rfl, hsame _ _ fun g hg => ⟨g, hg, rfl⟩⟩
  | some f =>
    rw [hf] at h
    dsimp only at h
    cases hverify : f.verify with
    | valid =>
      rw [hverify] at h
      cases h
      exact ⟨rfl, hsame _ _ fun g hg => ⟨g, hg, rfl⟩⟩
    | incompleteTail =>
      rw [hverify] at h
      cases h
      refine ⟨rfl, hsame _ _ fun g hg => ?_⟩
      rcases List.mem_or_eq_of_mem_set hg with hg | rfl
      · exact ⟨g, hg, rfl⟩
      · exact ⟨f, List.mem_of_getElem? hf, rfl⟩
    | invalid =>
      rw [hverify] at h
      cases h

theorem journalFor_spec (h : w.journalFor key = some (w', number, sequence)) :
    w'.tables = w.tables ∧ ∀ sourceId event, w'.Journaled sourceId event →
        w.Journaled sourceId event := by
  rw [Writer.journalFor] at h
  cases hcached : w.journals key with
  | none =>
    rw [hcached] at h
    exact openJournal_spec h
  | some cached =>
    rw [hcached] at h
    dsimp only at h
    cases hf : (w.files key)[cached.1]? with
    | none =>
      rw [hf] at h
      cases h
    | some f =>
      rw [hf] at h
      dsimp only at h
      split_ifs at h
      · cases h
        exact ⟨rfl, fun _ _ hmem => hmem⟩
      · exact openJournal_spec h

variable {batch : WriteBatch} {events : List JournalEvent} {duplicate : ℕ} {fault : Fault}

/-- What is in the journals and in the catalog after `_write_batch`. -/
structure Stored (w w' : Writer) (batch : WriteBatch) (events : List JournalEvent) : Prop where
  gaps : w'.tables.gaps = w.tables.gaps
  rows : ∀ r ∈ w'.tables.events, r ∈ w.tables.events ∨ ∃ event ∈ events,
    r.sourceId = batch.sourceId ∧ r.sourceSequence = event.sourceSequence
  journaled : ∀ sourceId event, w'.Journaled sourceId event →
    w.Journaled sourceId event ∨ sourceId = batch.sourceId ∧ event ∈ events

theorem Stored.refl (w : Writer) : Stored w w batch events :=
  ⟨rfl, fun _ hr => .inl hr, fun _ _ h => .inl h⟩

theorem store_stored : Stored w (w.store batch events duplicate fault).1 batch events := by
  have hrefl := @Stored.refl batch events w
  rw [Writer.store]
  split_ifs with hjournal
  · exact hrefl
  cases hopen : w.journalFor batch.key with
  | none => exact hrefl
  | some result =>
    obtain ⟨w₁, number, sequence⟩ := result
    obtain ⟨htables, hsub⟩ := journalFor_spec hopen
    dsimp only
    -- a file that is put back, with the events or without
    have hold : ∀ g : JournalFile, g.chunks = (fileAt (w₁.files batch.key) number).chunks →
        ∀ sourceId event, (w₁.setFile batch.key number g).Journaled sourceId event →
          w.Journaled sourceId event ∨ sourceId = batch.sourceId ∧ event ∈ events := by
      intro g hg sourceId event h
      rcases journaled_setFile h with h | ⟨rfl, chunk, hchunk, hevent⟩
      · exact .inl (hsub _ _ h)
      · rw [hg] at hchunk
        obtain ⟨f, hf, hmem⟩ := mem_fileAt hchunk
        exact .inl (hsub _ _ ⟨_, f, hf, chunk, hmem, hevent⟩)
    have hnew : ∀ sourceId event, (w₁.setFile batch.key number
        ((fileAt (w₁.files batch.key) number).append batch.recordBytes events)).Journaled
          sourceId event →
          w.Journaled sourceId event ∨ sourceId = batch.sourceId ∧ event ∈ events := by
      intro sourceId event h
      rcases journaled_setFile h with h | ⟨rfl, chunk, hchunk, hevent⟩
      · exact .inl (hsub _ _ h)
      · rcases List.mem_append.1 hchunk with hchunk | hchunk
        · obtain ⟨f, hf, hmem⟩ := mem_fileAt hchunk
          exact .inl (hsub _ _ ⟨_, f, hf, chunk, hmem, hevent⟩)
        · exact .inr ⟨rfl, List.mem_singleton.1 hchunk ▸ hevent⟩
    have hgaps : w₁.tables.gaps = w.tables.gaps := congrArg Tables.gaps htables
    have hrows : ∀ r ∈ w₁.tables.events, r ∈ w.tables.events ∨ ∃ event ∈ events,
        r.sourceId = batch.sourceId ∧ r.sourceSequence = event.sourceSequence :=
      fun r hr => .inl (htables ▸ hr)
    cases fault with
    | journal => exact absurd rfl hjournal
    | unopened => exact ⟨hgaps, hrows, fun _ _ h => .inl (hsub _ _ h)⟩
    | cut bytes =>
      dsimp only
      split_ifs
      · exact ⟨hgaps, hrows, hold _ rfl⟩
      · exact ⟨hgaps, hrows, hold _ rfl⟩
      · exact ⟨hgaps, hrows, hnew⟩
    | indexing => exact ⟨hgaps, hrows, hnew⟩
    | none =>
      dsimp only
      cases hrecord : w₁.tables.recordEvents
          (Writer.recordArgs batch number (sequence + 1) events true) with
      | error error => exact ⟨hgaps, hrows, hnew⟩
      | ok result =>
        obtain ⟨tables, inserted, duplicates, outOfOrder⟩ := result
        obtain ⟨hgaps', -, hadded⟩ := recordEvents_rows hrecord
        refine ⟨hgaps'.trans hgaps, fun r hr => ?_, hnew⟩
        rcases hadded r hr with hr | ⟨_, he, rfl⟩
        · exact hrows r hr
        · obtain ⟨event, hevent, rfl⟩ := List.mem_map.1 he
          exact .inr ⟨event, hevent, rfl, rfl⟩

end Files

section Steps

variable {s s' : Service} {batch : WriteBatch}

/-- A batch keeps events and gaps apart. -/
theorem Apart.write (h : Apart s) (fault : Fault) :
    Apart ⟨(s.writer.write batch fault).1, none⟩ := by
  have hnone : ∀ w : Writer, Stored s.writer w batch [] → Apart ⟨w, none⟩ := by
    intro w hw
    refine ⟨fun r hr => ?_, fun sourceId event hj => ?_, fun _ _ hjob => by cases hjob⟩
    · rcases hw.rows r hr with hr | ⟨e, he, -⟩
      · have := h.recorded r hr
        rwa [Tables.Free, ← hw.gaps] at this
      · cases he
    · rcases hw.journaled sourceId event hj with hj | ⟨-, he⟩
      · have := h.journaled sourceId event hj
        rwa [Tables.Free, ← hw.gaps] at this
      · cases he
  rw [Writer.write]
  cases hprepared : s.writer.tables.prepare batch with
  | none => exact hnone _ (.refl _)
  | some prepared =>
    dsimp only
    cases hselected : selectEvents s.writer.tables batch.sourceId [] prepared with
    | none => exact hnone _ (.refl _)
    | some events =>
      dsimp only
      split_ifs with hempty
      · exact hnone _ (.refl _)
      have hstored := @store_stored s.writer batch events (prepared.length - events.length) fault
      have hfree : ∀ event ∈ events, s.writer.tables.Free batch.sourceId event.sourceSequence := by
        intro event hevent
        refine @classifyInBatch_free _ event.toCatalogEvent _ ?_
        rw [(selectEvents_new hselected event hevent).2]
        exact Catalog.Classification.noConfusion
      refine ⟨fun r hr => ?_, fun sourceId event hj => ?_, fun _ _ hjob => by cases hjob⟩
      · rw [Tables.Free, hstored.gaps]
        rcases hstored.rows r hr with hr | ⟨e, he, hsource, hsequence⟩
        · exact h.recorded r hr
        · rw [hsource, hsequence]
          exact hfree e he
      · rw [Tables.Free, hstored.gaps]
        rcases hstored.journaled sourceId event hj with hj | ⟨rfl, he⟩
        · exact h.journaled sourceId event hj
        · exact hfree event he

/-- The worker keeps events and gaps apart. -/
theorem Apart.work (h : Apart s) {job : Job} (hjob : s.job = some job) (fault : Fault) :
    Apart (s.work fault job) := by
  have hended : Apart { s with job := none } := ⟨h.recorded, h.journaled, fun _ _ hj => by cases hj⟩
  cases job with
  | writing batch => exact h.write fault
  | recovering batch todo =>
    have htodo := h.todo batch todo hjob
    cases todo with
    | nil => exact ⟨h.recorded, h.journaled, fun _ _ hj => by cases hj⟩
    | cons task todo =>
      cases task with
      | verify number =>
        rw [Service.work]
        split_ifs
        · refine ⟨h.recorded, h.journaled, fun b l hj n q events hrecord event hevent => ?_⟩
          cases hj
          rcases List.mem_append.1 hrecord with hrecord | hrecord
          · obtain ⟨⟨chunk, i⟩, hchunk, heq⟩ := List.mem_map.1 hrecord
            cases heq
            obtain ⟨f, hf, hmem⟩ := mem_fileAt (List.fst_mem_of_mem_zipIdx hchunk)
            exact ⟨_, f, hf, chunk, hmem, hevent⟩
          · exact htodo n q events (List.mem_cons_of_mem _ hrecord) event hevent
        · exact hended
      | record number sequence events =>
        rw [Service.work]
        cases hrecorded : s.writer.recordChunk batch number sequence events with
        | none => exact hended
        | some writer =>
          rw [Writer.recordChunk] at hrecorded
          cases hrecord : s.writer.tables.recordEvents
              (Writer.recordArgs batch number sequence events false) with
          | error error =>
            rw [hrecord] at hrecorded
            cases hrecorded
          | ok result =>
            obtain ⟨tables, counts⟩ := result
            rw [hrecord] at hrecorded
            cases hrecorded
            obtain ⟨hgaps, -, hadded⟩ := recordEvents_rows hrecord
            have hevents := htodo number sequence events (List.mem_cons_self ..)
            refine ⟨fun r hr => ?_, fun sourceId event hj => ?_, fun b l hj n q es hmem => ?_⟩
            · show Tables.Free tables _ _
              rw [Tables.Free, hgaps]
              rcases hadded r hr with hr | ⟨_, he, rfl⟩
              · exact h.recorded r hr
              · -- the row of an event of the journal
                obtain ⟨event, hevent, rfl⟩ := List.mem_map.1 he
                exact h.journaled _ event (hevents event hevent)
            · show Tables.Free tables _ _
              rw [Tables.Free, hgaps]
              exact h.journaled sourceId event hj
            · cases hj
              exact htodo n q es (List.mem_cons_of_mem _ hmem)

/-- **One step** keeps events and gaps apart, if no gap is declared over an event that waits. -/
theorem Apart.step (h : Apart s) {act : ServiceAct} (hwaits : Waits s act)
    (hstep : s.step act = some s') : Apart s' := by
  cases act with
  | take batch =>
    rw [Service.step] at hstep
    cases hjob : s.job with
    | some job =>
      rw [hjob] at hstep
      cases hstep
    | none =>
      rw [hjob] at hstep
      dsimp only at hstep
      split_ifs at hstep
      · -- files are verified first, and nothing is to be recorded yet
        cases hstep
        refine ⟨h.recorded, h.journaled, fun b l hj n q events hrecord => ?_⟩
        cases hj
        obtain ⟨_, -, heq⟩ := List.mem_map.1 hrecord
        cases heq
      · cases hstep
        exact ⟨h.recorded, h.journaled, fun _ _ hj => by cases hj⟩
  | advance fault =>
    obtain ⟨job, hjob, rfl⟩ := Option.map_eq_some_iff.1 hstep
    exact h.work hjob fault
  | declareGap args =>
    cases hstep
    cases hdeclare : s.writer.tables.declareGap args with
    | error error =>
      have hsame : (s.writer.tables.call (.declareGap args)).1 = s.writer.tables := by
        rw [Tables.call, hdeclare]
        rfl
      rw [hsame]
      exact h
    | ok result =>
      obtain ⟨t', watermark⟩ := result
      have hcall : (s.writer.tables.call (.declareGap args)).1 = t' := by
        rw [Tables.call, hdeclare]
        rfl
      rw [hcall]
      -- no recorded event is in the gap, and no event that is only in a journal
      obtain ⟨row, gaps, -, -, hclear, -, hnew, -, rfl⟩ := declareGap_ok hdeclare
      refine ⟨fun r hr g hg hsource hcovers => ?_, fun sourceId event hj g hg hsource hcovers => ?_,
        h.todo⟩
      · rcases hnew g hg with hg | ⟨hself, hstart, hend⟩
        · exact h.recorded r hr g hg hsource hcovers
        · exact hclear r hr (hsource.symm.trans hself) (hstart ▸ hend ▸ hcovers)
      · rcases hnew g hg with hg | ⟨hself, hstart, hend⟩
        · exact h.journaled sourceId event hj g hg hsource hcovers
        · -- the event is in the catalog, or nobody declares a gap over it
          have hid : sourceId = args.sourceId := hsource.symm.trans hself
          subst hid
          have hwait : ∀ event, s.writer.Journaled args.sourceId event → _ := hwaits
          refine hwait event hj (fun r hr hrow => ?_) (hstart ▸ hend ▸ hcovers)
          refine hclear r hr hrow.1 ?_
          rw [hrow.2]
          exact hstart ▸ hend ▸ hcovers
  | registerSource session sourceId =>
    cases hstep
    have hsame : (s.writer.tables.call (.registerSource session sourceId)).1.events =
        s.writer.tables.events ∧
        (s.writer.tables.call (.registerSource session sourceId)).1.gaps =
            s.writer.tables.gaps := by
      rw [Tables.call, Tables.registerSource]
      split_ifs <;> exact ⟨rfl, rfl⟩
    refine ⟨fun r hr => ?_, fun source event hj => ?_, h.todo⟩
    · show Tables.Free _ _ _
      rw [Tables.Free, hsame.2]
      exact h.recorded r (hsame.1 ▸ hr)
    · show Tables.Free _ _ _
      rw [Tables.Free, hsame.2]
      exact h.journaled source event hj

end Steps

def Service.fresh (sessions : List String) : Service := ⟨.fresh sessions, none⟩

/-- After every run in which no gap is declared over an event that is in a journal and not yet in
the catalog, no recorded event lies in a gap of its source. -/
theorem recorded_apart (sessions : List String) (s : Service)
    (h : Reach Service.step Waits (.fresh sessions) s) :
    ∀ r ∈ s.writer.tables.events, ∀ g ∈ s.writer.tables.gaps, g.sourceId = r.sourceId →
      ¬ (g.gap.startSequence ≤ r.sourceSequence ∧ r.sourceSequence ≤ g.gap.endSequence) := by
  have hfresh : Apart (.fresh sessions) := by
    refine ⟨fun r hr => absurd hr List.not_mem_nil, ?_, fun _ _ hj => by cases hj⟩
    rintro _ _ ⟨_, f, hf, -⟩
    cases hf
  have hapart : Apart s :=
    Reach.invariant hfresh (fun _ _ _ _ hs hok hstep => hs.step hok hstep) h
  exact hapart.recorded

section Examples

def clientEvent (eventId : String) (sequence : ℕ) : JournalEvent :=
  ⟨⟨eventId, sequence, .value "playing", .value "client"⟩, true⟩

def clientBatch (eventId : String) (sequence : ℕ) : WriteBatch where
  playbackSessionId := "playback"
  sourceId := "client"
  sourceType := "client"
  events := [clientEvent eventId sequence]
  allocateSourceSequences := false
  recordBytes := 500
  recordBytes_pos := by decide

def clientGap (sequence : ℕ) : DeclareGap :=
  ⟨"client", sequence, sequence, "event_too_large", "authenticated_client"⟩

/-- A source is registered. -/
def registered : Service :=
  { Service.fresh ["playback"] with
    writer.tables := ((Tables.fresh ["playback"]).call (.registerSource "playback" "client")).1 }

/-- A gap is declared before anything is written. -/
def declaredBeside : Service :=
  { registered with writer.tables := (registered.writer.tables.call (.declareGap (clientGap 2))).1 }

theorem recorded_apart_beside : ∃ s, Reach Service.step Waits (.fresh ["playback"]) s ∧
    s.writer.tables.events.length = 1 ∧ s.writer.tables.gaps.length = 1 ∧
    ∀ r ∈ s.writer.tables.events, ∀ g ∈ s.writer.tables.gaps, g.sourceId = r.sourceId →
      ¬ (g.gap.startSequence ≤ r.sourceSequence ∧ r.sourceSequence ≤ g.gap.endSequence) := by
  have hempty : ∀ event, ¬ registered.writer.Journaled "client" event := by
    rintro _ ⟨_, f, hf, -⟩
    cases hf
  have hregister : Service.step (.fresh ["playback"]) (.registerSource "playback" "client") =
    some registered := rfl
  have hdeclare : registered.step (.declareGap (clientGap 2)) = some declaredBeside := rfl
  have hok : Waits registered (.declareGap (clientGap 2)) := fun event hj =>
    absurd hj (hempty event)
  have hfirst : Reach Service.step Waits (.fresh ["playback"]) registered :=
    .next (a := .registerSource "playback" "client") .start True.intro hregister
  have hrun : runFrom Service.step declaredBeside
    [.take (clientBatch "first" 1), .advance .none] = some _ := rfl
  have hwaits : ∀ a ∈ [.take (clientBatch "first" 1), .advance .none], ∀ s, Waits s a := by
    intro a ha s
    rcases List.mem_cons.1 ha with rfl | ha
    · exact True.intro
    · cases List.mem_singleton.1 ha
      exact True.intro
  have hreach := (hfirst.next hok hdeclare).trans (reach_of_runFrom_of hwaits hrun)
  exact ⟨_, hreach, by decide +kernel, by decide +kernel, recorded_apart ["playback"] _ hreach⟩

/-- The indexing of the first event fails; a gap is declared over it; the next batch indexes it. -/
def declaredBetween : List ServiceAct :=
  [.registerSource "playback" "client", .take (clientBatch "first" 1), .advance .indexing,
    .declareGap (clientGap 1), .take (clientBatch "second" 2), .advance .none, .advance .none]

theorem gap_over_journal : ∃ s, runFrom Service.step (.fresh ["playback"])
    declaredBetween = some s ∧
    ∃ r ∈ s.writer.tables.events, ∃ g ∈ s.writer.tables.gaps, g.sourceId = r.sourceId ∧
      g.gap.startSequence ≤ r.sourceSequence ∧ r.sourceSequence ≤ g.gap.endSequence := by
  have hrun : runFrom Service.step (.fresh ["playback"]) declaredBetween = some _ := rfl
  refine ⟨_, hrun, ⟨"first", "playback", "client", 1⟩, ?_,
    ⟨"client", ⟨1, 1, "event_too_large"⟩, "authenticated_client"⟩, ?_, rfl, le_rfl, le_rfl⟩
  · decide +kernel
  · decide +kernel

end Examples

end Diagnostics
