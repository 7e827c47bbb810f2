/-
The writers of shared output operation by operation (`route2_shared_output_store.py`).

`SharedOutputStore` has the writers as whole calls on sets of conflicts; here a document has its
evidence as it is stored, a segment file has its bytes, and each operation on a file may fail. Where
one fails, the handler of the source takes over with what has been written so far. Ranges, times of
segments and what is derived for serving only are left out.

* `servabilityFields`, `applyServabilityFields` — what a document says about its conflicts;
* `writeStoreMetadata`, `writeInitMedia`, `writeSegmentMedia` — the three writers, with what they
  report;
* `Directory.SegmentCourse` — the ways that the segment writer may go;
* `Directory.step` — a call on the store.
-/
import Mathlib.Algebra.Order.Ring.Rat
import Elvern.ConflictEvidence
import Elvern.SharedOutputStore

open ConflictEvidence SharedOutput

namespace SharedStore

abbrev Bytes := List UInt8

/-! ### Documents -/

/-- What `_servability_fields` says. -/
structure Servability where
  segmentHashConflicts : List ConflictRecord
  conflictIndexes : List ℕ
  mixedWriterConflict : Bool
  servingAllowed : Bool
  servingBlockedReason : String

/-- The fields of a document that bear on conflicts. -/
structure Document where
  segmentHashConflicts : List RawConflict
  conflictIndexes : List RawConflict
  mixedWriterConflict : Bool
  servingAllowed : Bool
  servingBlockedReason : String
  mediaBytesPresent : Bool

/-- A payload in which nothing of that has been set. -/
def Document.blank : Document := ⟨[], [], false, false, "", false⟩

/-- What `_merge_conflict_records` reads of a payload. -/
def Document.raws (document : Document) : List RawConflict :=
  document.segmentHashConflicts ++ document.conflictIndexes

/-- `_conflict_indexes` -/
def sortedIndexes (records : List ConflictRecord) : List ℕ :=
  (records.map ConflictRecord.index).dedup.mergeSort fun a b => decide (a ≤ b)

/-- `_servability_fields` -/
def servabilityFields (mediaBytesPresent : Bool) (conflictRecords : List ConflictRecord)
    (now : Timestamp) : Servability :=
  let records := mergeConflictRecords (conflictRecords.map ConflictRecord.raw) none now
  let indexes := sortedIndexes records
  { segmentHashConflicts := records
    conflictIndexes := indexes
    mixedWriterConflict := !indexes.isEmpty
    servingAllowed := false
    servingBlockedReason :=
      if indexes ≠ [] then "segment_hash_conflict"
      else if mediaBytesPresent = false then "media_bytes_not_present"
      else "canonical_generation_required" }

/-- `_apply_servability_fields` -/
def applyServabilityFields (payload : Document) (mediaBytesPresent : Bool)
    (conflictRecords : List ConflictRecord) (now : Timestamp) : Document :=
  let existing :=
    mergeConflictRecords (payload.raws ++ conflictRecords.map ConflictRecord.raw) none now
  let fields := servabilityFields mediaBytesPresent existing now
  { segmentHashConflicts := fields.segmentHashConflicts.map ConflictRecord.raw
    conflictIndexes := fields.conflictIndexes.map rawIndex
    mixedWriterConflict := fields.mixedWriterConflict
    servingAllowed := fields.servingAllowed
    servingBlockedReason := fields.servingBlockedReason
    mediaBytesPresent := payload.mediaBytesPresent }

/-- An entry of `segments.json`. -/
structure SegmentRecord where
  index : ℕ
  filename : String
  sizeBytes : ℕ
  sha256 : String
  writtenAt : String
  deriving DecidableEq

/-- `segments.json` -/
structure SegmentsDocument where
  document : Document
  segments : List SegmentRecord

structure Directory where
  /-- the contract without its times -/
  contract : Option String
  metadata : Option Document
  ranges : Option Document
  segments : Option SegmentsDocument
  /-- the hash of `init.mp4`, and what `init.sha256` says -/
  initFile : Option String
  initSha256 : Option String
  /-- the files under `segments/` -/
  files : String → Option Bytes

def Directory.empty : Directory := ⟨none, none, none, none, none, none, fun _ => none⟩

namespace Directory

variable (d : Directory)

/-- The documents, in the order in which they are merged. -/
def documents : List Document :=
  d.metadata.toList ++ d.ranges.toList ++ (d.segments.map SegmentsDocument.document).toList

/-- `_merge_conflict_records` of the three documents -/
def mergedConflicts (timestamp now : Timestamp) : List ConflictRecord :=
  mergeConflictRecords (d.documents.flatMap Document.raws) (some timestamp.1) now

/-- The entries of `segments.json`. -/
def listed : List SegmentRecord := (d.segments.map SegmentsDocument.segments).getD []

end Directory

/-! ### The metadata -/

/-- The operations of `write_shared_output_store_metadata` that may fail. -/
inductive StoreOperation
  | readDocuments
  | writeContract
  | writeMetadata
  | writeRanges
  deriving DecidableEq

structure StoreMetadataCall where
  contract : String
  metadata : Document
  /-- a candidate range is given -/
  candidateRange : Bool
  timestamp : Timestamp
  /-- what `utcnow_iso()` gives -/
  now : Timestamp
  failsAt : Option StoreOperation

namespace Directory

variable (d : Directory) (call : StoreMetadataCall)

/-- The ranges that are written. -/
def rangesPayload (conflicts : List ConflictRecord) : Document :=
  let empty := applyServabilityFields .blank false [] call.now
  let preserved := (d.ranges.map Document.mediaBytesPresent).getD false
  let kept :=
    match d.ranges with
    | none => empty
    | some ranges => applyServabilityFields ranges ranges.mediaBytesPresent conflicts call.now
  let ranges :=
    -- a candidate range makes the document anew
    if call.candidateRange then empty
    else if preserved then kept
    else applyServabilityFields { kept with mediaBytesPresent := false } false conflicts call.now
  applyServabilityFields ranges ranges.mediaBytesPresent conflicts call.now

/-- `write_shared_output_store_metadata`, and the servability that it reports. -/
def writeStoreMetadata : Directory × Servability :=
  if call.failsAt = some .readDocuments then (d, servabilityFields false [] call.now)
  else
    let conflicts := d.mergedConflicts call.timestamp call.now
    let present := !d.listed.isEmpty
    let metadata := applyServabilityFields
      { call.metadata with mediaBytesPresent := call.metadata.mediaBytesPresent || present } present
      conflicts call.now
    let report := servabilityFields present conflicts call.now
    if call.failsAt = some .writeContract then (d, report)
    else if ∃ existing ∈ d.contract, existing ≠ call.contract then (d, report)
    else if call.failsAt = some .writeMetadata then
      ({ d with contract := some call.contract }, report)
    else if call.failsAt = some .writeRanges then
      ({ d with contract := some call.contract, metadata := some metadata }, report)
    else
      let ranges := d.rangesPayload call conflicts
      ({ d with contract := some call.contract, metadata := some metadata, ranges := some ranges },
        servabilityFields (present || ranges.mediaBytesPresent) conflicts call.now)

end Directory

/-! ### The init file -/

/-- The operations of `write_shared_output_init_media` that may fail, from the rename on. -/
inductive InitOperation
  | rename
  | writeSha256
  | writeMetadata
  deriving DecidableEq

structure InitMediaCall where
  call : InitCall
  now : Timestamp
  failsAt : Option InitOperation

namespace Directory

variable (d : Directory)

/-- What the checks of the init writer look at. -/
def initView : StoreDirectory :=
  ⟨none, d.metadata.map fun _ => buildSharedOutputMetadata, none, none, d.initFile, d.initSha256,
    fun _ => none⟩

/-- `write_shared_output_init_media` -/
def writeInitMedia (call : InitMediaCall) : Directory :=
  if d.initView.initAccepted call.call = false ∨ call.failsAt = some .rename then d
  else if call.failsAt = some .writeSha256 then { d with initFile := call.call.sourceInit }
  else if call.failsAt = some .writeMetadata then
    { d with initFile := call.call.sourceInit, initSha256 := call.call.sourceInit }
  else
    { d with
      initFile := call.call.sourceInit
      initSha256 := call.call.sourceInit
      metadata := d.metadata.map fun metadata =>
        applyServabilityFields { metadata with mediaBytesPresent := false } false [] call.now }

end Directory

/-! ### The segments -/

/-- `shared_segment_filename` -/
def sharedSegmentFilename (index : ℕ) : String :=
  let digits := Nat.toDigits 10 index
  "abs_" ++ String.ofList (List.replicate (12 - digits.length) '0' ++ digits) ++ ".m4s"

/-- The operations on a plan that may fail; the handler inside the loop goes on with the next
plan. -/
inductive PlanOperation
  | copy
  | hashStaged
  | lookUp
  | checkRegular
  | hashFinal
  | unlinkStaged
  | rename
  | checkRenamed
  deriving DecidableEq

/-- A plan of `write_shared_output_segment_media`. -/
structure Plan where
  /-- `int(plan["absolute_segment_index_candidate"])`; `none` where it raises -/
  absoluteIndex : Option ℤ
  /-- the bytes of the source file, if there is one -/
  sourceSegment : Option Bytes
  /-- `shared_store_write_blockers` without the soft ones -/
  hardBlockers : List String
  expectedFilename : Option String
  /-- the start and the end are there, and numbers -/
  timesGiven : Bool
  failsAt : Option PlanOperation

/-- What the loop over the plans works with. -/
structure Writing where
  files : String → Option Bytes
  records : List SegmentRecord
  conflicts : List ConflictRecord

/-- `segment_records[index] = …` -/
def putRecord (records : List SegmentRecord) (record : SegmentRecord) : List SegmentRecord :=
  records.filter (·.index ≠ record.index) ++ [record]

/-- `segment_records.get(index, {}).get("written_at") or timestamp` -/
def keptWrittenAt (records : List SegmentRecord) (index : ℕ) (timestamp : Timestamp) : String :=
  match records.find? (·.index = index) with
  | none => timestamp
  | some record => if record.writtenAt = "" then timestamp else record.writtenAt

section Segments

variable (sha256 : Bytes → String) (timestamp now : Timestamp)

/-- The record of a conflict that has just been seen. -/
def conflictRecord (index : ℕ) (final staged : Bytes) : ConflictRecord where
  index := index
  firstConflictAt := timestamp
  lastConflictAt := timestamp
  existingSha256 := some (sha256 final)
  candidateSha256 := some (sha256 staged)
  existingSizeBytes := some final.length
  candidateSizeBytes := some staged.length

/-- One plan with a source and an index, from its filename on. -/
def writePlan (s : Writing) (plan : Plan) (index : ℕ) (staged : Bytes) : Writing :=
  let filename := sharedSegmentFilename index
  if (truthy plan.expectedFilename).any (·.1 ≠ filename) then s
  else if plan.failsAt ∈ [some .copy, some .hashStaged, some .lookUp] then s
  else
    match s.files filename with
    | some final =>
      if plan.failsAt ∈ [some .checkRegular, some .hashFinal] then s
      else if sha256 final ≠ sha256 staged then
        { s with conflicts := mergeConflictRecords (s.conflicts.map ConflictRecord.raw ++
            [(conflictRecord sha256 timestamp index final staged).raw]) (some timestamp.1) now }
      else if plan.failsAt = some .unlinkStaged ∨ plan.timesGiven = false then s
      else
        let record : SegmentRecord :=
          ⟨index, filename, final.length, sha256 final, keptWrittenAt s.records index timestamp⟩
        { s with records := putRecord s.records record }
    | none =>
      if plan.failsAt = some .rename then s
      else
        let files := Function.update s.files filename (some staged)
        if plan.failsAt = some .checkRenamed ∨ plan.timesGiven = false then
          { s with files := files }
        else
          let record : SegmentRecord := ⟨index, filename, staged.length, sha256 staged, timestamp⟩
          { s with files := files, records := putRecord s.records record }

/-- A plan changes nothing, adds a conflict, renews the record of a file, or puts a file where there
is none, with or without its record. -/
theorem writePlan_cases (s : Writing) (plan : Plan) (index : ℕ) (staged : Bytes) :
    writePlan sha256 timestamp now s plan index staged = s ∨
    (∃ final, s.files (sharedSegmentFilename index) = some final ∧ sha256 final ≠ sha256 staged ∧
      writePlan sha256 timestamp now s plan index staged =
        { s with
          conflicts := mergeConflictRecords (s.conflicts.map ConflictRecord.raw ++
            [(conflictRecord sha256 timestamp index final staged).raw]) (some timestamp.1) now }) ∨
    (∃ final writtenAt, s.files (sharedSegmentFilename index) = some final ∧
      writePlan sha256 timestamp now s plan index staged =
        { s with
          records := putRecord s.records
            (.mk index (sharedSegmentFilename index) final.length (sha256 final) writtenAt) }) ∨
    (s.files (sharedSegmentFilename index) = none ∧ ∃ records,
      (records = s.records ∨ records = putRecord s.records
        (.mk index (sharedSegmentFilename index) staged.length (sha256 staged) timestamp)) ∧
      writePlan sha256 timestamp now s plan index staged =
        { s with
          files := Function.update s.files (sharedSegmentFilename index) (some staged)
          records := records }) := by
  rw [writePlan]
  dsimp only
  by_cases hname : (truthy plan.expectedFilename).any (·.1 ≠ sharedSegmentFilename index) = true
  · rw [if_pos hname]
    exact Or.inl rfl
  rw [if_neg hname]
  by_cases hearly : plan.failsAt ∈ [some .copy, some .hashStaged, some .lookUp]
  · rw [if_pos hearly]
    exact Or.inl rfl
  rw [if_neg hearly]
  cases hfile : s.files (sharedSegmentFilename index) with
  | some final =>
    dsimp only
    split_ifs with hcheck hhash hrecord
    · exact Or.inl rfl
    · exact Or.inr (Or.inl ⟨final, rfl, hhash, rfl⟩)
    · exact Or.inl rfl
    · exact Or.inr (Or.inr (Or.inl ⟨final, _, rfl, rfl⟩))
  | none =>
    dsimp only
    split_ifs with hrename hrecord
    · exact Or.inl rfl
    · exact Or.inr (Or.inr (Or.inr ⟨rfl, _, Or.inl rfl, rfl⟩))
    · exact Or.inr (Or.inr (Or.inr ⟨rfl, _, Or.inr rfl, rfl⟩))

/-- The loop over the plans; whether it ended with an exception outside its own handler. -/
def writePlans : Writing → List Plan → Writing × Bool
  | s, [] => (s, false)
  | s, plan :: rest =>
    match plan.absoluteIndex with
    | none => (s, true)
    | some index =>
      match plan.sourceSegment with
      | none => writePlans s rest
      | some staged =>
        if plan.hardBlockers ≠ [] then writePlans s rest
        else if index < 0 then (s, true)
        else writePlans (writePlan sha256 timestamp now s plan index.toNat staged) rest

end Segments

/-- The operations of `write_shared_output_segment_media` outside the loop that may fail. -/
inductive SegmentOperation
  | readDocuments
  | makeDirectories
  | writeSegments
  | writeRanges
  | writeMetadata
  deriving DecidableEq

structure SegmentMediaCall where
  checks : WriterChecks
  plans : List Plan
  segmentDurationSeconds : ℚ
  timestamp : Timestamp
  now : Timestamp
  failsAt : Option SegmentOperation

namespace Directory

variable (sha256 : Bytes → String) (d : Directory) (call : SegmentMediaCall)

/-- Something stops the writer before its plans. -/
def segmentsBlocked : Bool :=
  let blockers := call.checks.blockers "pending_init_compatibility" ++
    (if d.metadata.isSome then [] else ["shared_metadata_missing"]) ++
    (if d.initFile.isSome && d.initSha256.isSome then [] else ["shared_init_missing"])
  blockers.any (· ∈ segmentHardBlockers)

/-- `_update_shared_segment_metadata`, over the documents of the directory; whether it raised. -/
def updateSegmentMetadata (s : Writing) : Directory × Bool :=
  let ordered := s.records.mergeSort fun a b => decide (a.index ≤ b.index)
  let present := !ordered.isEmpty
  let conflicts := mergeConflictRecords
    (d.documents.flatMap Document.raws ++ s.conflicts.map ConflictRecord.raw)
    (some call.timestamp.1) call.now
  let payload := applyServabilityFields { Document.blank with mediaBytesPresent := present } present
    conflicts call.now
  let d₁ := { d with files := s.files }
  if call.segmentDurationSeconds ≤ 0 ∨ call.failsAt = some .writeSegments then (d₁, true)
  else
    let d₂ := { d₁ with segments := some ⟨payload, ordered⟩ }
    if call.failsAt = some .writeRanges then (d₂, true)
    else
      let d₃ := { d₂ with ranges := some payload }
      if call.failsAt = some .writeMetadata then (d₃, true)
      else
        ({ d₃ with
          metadata := some (applyServabilityFields
            { d.metadata.getD .blank with mediaBytesPresent := present }
              present conflicts call.now) },
          false)

/-- `write_shared_output_segment_media`, and the servability that it reports. -/
def writeSegmentMedia : Directory × Servability :=
  -- the report of the exits that know of no conflicts, the handler around the whole body among them
  let unaware := servabilityFields false [] call.now
  if call.checks.writerEnabled = false ∨ call.failsAt = some .readDocuments then (d, unaware)
  else
    let conflicts := d.mergedConflicts call.timestamp call.now
    let records := d.listed.foldl putRecord []
    let report := servabilityFields (!records.isEmpty) conflicts call.now
    if d.segmentsBlocked call then (d, report)
    else if call.failsAt = some .makeDirectories then (d, unaware)
    else if call.plans = [] then (d, report)
    else
      match writePlans sha256 call.timestamp call.now ⟨d.files, records, conflicts⟩ call.plans with
      | (s, true) => ({ d with files := s.files }, unaware)
      | (s, false) =>
        let report := servabilityFields (!s.records.isEmpty) s.conflicts call.now
        if s.records = [] ∧ s.conflicts = [] then ({ d with files := s.files }, report)
        else
          match d.updateSegmentMetadata call s with
          | (d', true) => (d', unaware)
          | (d', false) => (d', report)

/-- What the loop of the segment writer starts from. -/
def writing (call : SegmentMediaCall) : Writing :=
  ⟨d.files, d.listed.foldl putRecord [], d.mergedConflicts call.timestamp call.now⟩

/-- The segment writer comes to its loop. -/
structure Loops : Prop where
  read : ¬ (call.checks.writerEnabled = false ∨ call.failsAt = some .readDocuments)
  unblocked : d.segmentsBlocked call = false
  directories : call.failsAt ≠ some .makeDirectories
  planned : call.plans ≠ []

/-- The ways that the segment writer may go, each with what it leaves and reports. -/
inductive SegmentCourse : Directory × Servability → Prop
  | unread (h : call.checks.writerEnabled = false ∨ call.failsAt = some .readDocuments) :
      SegmentCourse (d, servabilityFields false [] call.now)
  | blocked (hread : ¬ (call.checks.writerEnabled = false ∨ call.failsAt = some .readDocuments))
      (h : d.segmentsBlocked call = true) :
      SegmentCourse (d, servabilityFields (!(d.writing call).records.isEmpty)
        (d.writing call).conflicts call.now)
  | undirected (hread : ¬ (call.checks.writerEnabled = false ∨ call.failsAt = some .readDocuments))
      (hblocked : d.segmentsBlocked call = false) (h : call.failsAt = some .makeDirectories) :
      SegmentCourse (d, servabilityFields false [] call.now)
  | unplanned (hread : ¬ (call.checks.writerEnabled = false ∨ call.failsAt = some .readDocuments))
      (hblocked : d.segmentsBlocked call = false)
        (hdirectories : call.failsAt ≠ some .makeDirectories)
      (h : call.plans = []) :
      SegmentCourse (d, servabilityFields (!(d.writing call).records.isEmpty)
        (d.writing call).conflicts call.now)
  | raised (hloops : d.Loops call) (s : Writing)
      (h : writePlans sha256 call.timestamp call.now (d.writing call) call.plans = (s, true)) :
      SegmentCourse ({ d with files := s.files }, servabilityFields false [] call.now)
  | empty (hloops : d.Loops call) (s : Writing)
      (h : writePlans sha256 call.timestamp call.now (d.writing call) call.plans = (s, false))
      (hnone : s.records = [] ∧ s.conflicts = []) :
      SegmentCourse ({ d with files := s.files },
        servabilityFields (!s.records.isEmpty) s.conflicts call.now)
  | unwritten (hloops : d.Loops call) (s : Writing)
      (h : writePlans sha256 call.timestamp call.now (d.writing call) call.plans = (s, false))
      (d' : Directory) (hupdate : d.updateSegmentMetadata call s = (d', true)) :
      SegmentCourse (d', servabilityFields false [] call.now)
  | written (hloops : d.Loops call) (s : Writing)
      (h : writePlans sha256 call.timestamp call.now (d.writing call) call.plans = (s, false))
      (d' : Directory) (hupdate : d.updateSegmentMetadata call s = (d', false)) :
      SegmentCourse (d', servabilityFields (!s.records.isEmpty) s.conflicts call.now)

/-- The segment writer goes one of these ways. -/
theorem segmentCourse : SegmentCourse sha256 d call (d.writeSegmentMedia sha256 call) := by
  rw [writeSegmentMedia]
  dsimp only
  by_cases hread : call.checks.writerEnabled = false ∨ call.failsAt = some .readDocuments
  · rw [if_pos hread]
    exact .unread hread
  rw [if_neg hread]
  by_cases hblocked : d.segmentsBlocked call = true
  · rw [if_pos hblocked]
    exact .blocked hread hblocked
  rw [if_neg hblocked]
  rw [Bool.not_eq_true] at hblocked
  by_cases hdirectories : call.failsAt = some .makeDirectories
  · rw [if_pos hdirectories]
    exact .undirected hread hblocked hdirectories
  rw [if_neg hdirectories]
  by_cases hplans : call.plans = []
  · rw [if_pos hplans]
    exact .unplanned hread hblocked hdirectories hplans
  rw [if_neg hplans]
  have hloops : d.Loops call := ⟨hread, hblocked, hdirectories, hplans⟩
  split
  · next s hs => exact .raised hloops s hs
  · next s hs =>
    split_ifs with hnone
    · exact .empty hloops s hs hnone
    · split
      · next d' hupdate => exact .unwritten hloops s hs d' hupdate
      · next d' hupdate => exact .written hloops s hs d' hupdate

end Directory

inductive Call
  | storeMetadata (call : StoreMetadataCall)
  | initMedia (call : InitMediaCall)
  | segmentMedia (call : SegmentMediaCall)

/-- A call and what it reports; the init writer reports nothing about conflicts. -/
def Directory.call (sha256 : Bytes → String) (d : Directory) : Call → Directory × Option Servability
  | .storeMetadata call => (d.writeStoreMetadata call).map id some
  | .initMedia call => (d.writeInitMedia call, none)
  | .segmentMedia call => (d.writeSegmentMedia sha256 call).map id some

def Directory.step (sha256 : Bytes → String) (d : Directory) (call : Call) : Option Directory :=
  some (d.call sha256 call).1

end SharedStore
